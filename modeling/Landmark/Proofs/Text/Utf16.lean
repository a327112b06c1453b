/-
Which characters 16-bit units stand for.

`Decodes` tells it by the numbers of units and characters alone. No character has the number of a surrogate, so a unit that is
the number of a character can only be that one; a high surrogate and a low one right behind it are a single character, and
every other surrogate is replaced. `decodes_iff`: the characters are those that `decode` gives, and no others.
-/
import Landmark.Text.Utf16

namespace Landmark.Utf16

/-- number of a first or second unit of a pair -/
def Surrogate (u : Nat) : Prop := 0xD800 ≤ u ∧ u < 0xE000

/-- a sequence of units stands for these characters -/
inductive Decodes : List Nat → List Char → Prop where
  | nil : Decodes [] []
  | unit {c : Char} {us : List Nat} {cs : List Char} (rest : Decodes us cs) : Decodes (c.toNat :: us) (c :: cs)
  | pair {h l : Nat} {c : Char} {us : List Nat} {cs : List Char} (hhigh : 0xD800 ≤ h ∧ h < 0xDC00)
      (hlow : 0xDC00 ≤ l ∧ l < 0xE000) (hc : c.toNat = 0x10000 + (h - 0xD800) * 0x400 + (l - 0xDC00))
      (rest : Decodes us cs) : Decodes (h :: l :: us) (c :: cs)
  /-- a low one, or a high one with no low one behind it -/
  | lone {u : Nat} {us : List Nat} {cs : List Char} (hu : Surrogate u)
      (hlone : u < 0xDC00 → ∀ l ∈ us.head?, ¬ (0xDC00 ≤ l ∧ l < 0xE000)) (rest : Decodes us cs) :
      Decodes (u :: us) ('\ufffd' :: cs)

theorem isHigh_iff {u : Nat} : isHigh u = true ↔ 0xD800 ≤ u ∧ u < 0xDC00 := by
  simp [isHigh]

theorem isLow_iff {u : Nat} : isLow u = true ↔ 0xDC00 ≤ u ∧ u < 0xE000 := by
  simp [isLow]

theorem surrogate_iff {u : Nat} : (isHigh u || isLow u) = true ↔ Surrogate u := by
  rw [Bool.or_eq_true, isHigh_iff, isLow_iff, Surrogate]
  omega

theorem not_surrogate_toNat (c : Char) : ¬ Surrogate c.toNat := by
  intro hsurrogate
  unfold Surrogate at hsurrogate
  rcases c.valid with hbelow | ⟨habove, -⟩
  · have hlt : c.toNat < 0xD800 := hbelow
    omega
  · have hlt : 0xDFFF < c.toNat := habove
    omega

theorem toNat_ofNat {n : Nat} (hbound : n < 0x110000) (h : ¬ Surrogate n) : (Char.ofNat n).toNat = n := by
  unfold Surrogate at h
  have hvalid : n.isValidChar := by
    rcases Nat.lt_or_ge n 0xD800 with hlt | hge
    · exact .inl hlt
    · exact .inr ⟨by omega, hbound⟩
  rw [Char.ofNat, dif_pos hvalid]
  rfl

/-- a unit that does not begin a pair is read by itself -/
theorem decode_cons {u : Nat} {us : List Nat} (h : isHigh u = true → ∀ l ∈ us.head?, isLow l = false) :
    decode (u :: us) = unitChar u :: decode us := by
  cases us with
  | nil => rfl
  | cons l us =>
    rw [decode, if_neg]
    intro hpair
    obtain ⟨hhigh, hlow⟩ := Bool.and_eq_true_iff.1 hpair
    rw [h hhigh l rfl] at hlow
    contradiction

theorem decode_pair {h l : Nat} (hhigh : isHigh h = true) (hlow : isLow l = true) (us : List Nat) :
    decode (h :: l :: us) = pairChar h l :: decode us := by
  rw [decode, hhigh, hlow]
  rfl

theorem Decodes.eq_decode {us : List Nat} {cs : List Char} (h : Decodes us cs) : cs = decode us := by
  induction h with
  | nil => rfl
  | @unit c us cs rest ih =>
    have hnot : (isHigh c.toNat || isLow c.toNat) = false :=
      Bool.eq_false_iff.2 fun hs => not_surrogate_toNat c (surrogate_iff.1 hs)
    rw [decode_cons, unitChar, hnot, ih]
    · simp
    · intro hhigh
      rw [hhigh] at hnot
      contradiction
  | pair hhigh hlow hc rest ih =>
    rw [decode_pair (isHigh_iff.2 hhigh) (isLow_iff.2 hlow), pairChar, ← hc, Char.ofNat_toNat, ih]
  | @lone u us cs hu hlone rest ih =>
    rw [decode_cons, unitChar, surrogate_iff.2 hu, ih]
    · rfl
    · intro hhigh l hl
      exact Bool.eq_false_iff.2 fun hlow => hlone (isHigh_iff.1 hhigh).2 l hl (isLow_iff.1 hlow)

/-- a unit that does not begin a pair, in front of others -/
theorem decodes_cons {u : Nat} {us : List Nat} {cs : List Char} (hu : u < 0x10000)
    (h : isHigh u = true → ∀ l ∈ us.head?, isLow l = false) (rest : Decodes us cs) :
    Decodes (u :: us) (unitChar u :: cs) := by
  rw [unitChar]
  by_cases hsurrogate : Surrogate u
  · rw [if_pos (surrogate_iff.2 hsurrogate)]
    refine .lone hsurrogate ?_ rest
    intro hlt l hl hlow
    have hfalse := h (isHigh_iff.2 ⟨hsurrogate.1, hlt⟩) l hl
    rw [isLow_iff.2 hlow] at hfalse
    contradiction
  · rw [if_neg fun hs => hsurrogate (surrogate_iff.1 hs)]
    have hnumber : (Char.ofNat u).toNat = u := toNat_ofNat (by omega) hsurrogate
    have hunit := Decodes.unit (c := Char.ofNat u) rest
    rwa [hnumber] at hunit

theorem toNat_pairChar {h l : Nat} (hhigh : 0xD800 ≤ h ∧ h < 0xDC00) (hlow : 0xDC00 ≤ l ∧ l < 0xE000) :
    (pairChar h l).toNat = 0x10000 + (h - 0xD800) * 0x400 + (l - 0xDC00) :=
  toNat_ofNat (by omega) (by unfold Surrogate; omega)

/-- Units are taken one by one or two by two, as `decode` takes them. -/
theorem decodes_decode (us : List Nat) (hus : ∀ u ∈ us, u < 0x10000) : Decodes us (decode us) := by
  fun_induction decode us with
  | case1 => exact .nil
  | case2 u => exact decodes_cons (hus u List.mem_cons_self) (fun _ l hl => by contradiction) .nil
  | case3 h l rest hpair ih =>
    obtain ⟨hhigh, hlow⟩ := Bool.and_eq_true_iff.1 hpair
    have hrest := ih fun u hu => hus u (List.mem_cons_of_mem _ (List.mem_cons_of_mem _ hu))
    rw [isHigh_iff] at hhigh
    rw [isLow_iff] at hlow
    exact .pair hhigh hlow (toNat_pairChar hhigh hlow) hrest
  | case4 h l rest hnot ih =>
    refine decodes_cons (hus h List.mem_cons_self) ?_ (ih fun u hu => hus u (List.mem_cons_of_mem _ hu))
    intro hhigh l' hl'
    obtain rfl := Option.some_inj.1 hl'
    exact Bool.eq_false_iff.2 fun hlow => hnot (Bool.and_eq_true_iff.2 ⟨hhigh, hlow⟩)

/-- **Every sequence of units stands for one sequence of characters**, the one that `decode` gives. -/
theorem decodes_iff {us : List Nat} (hus : ∀ u ∈ us, u < 0x10000) {cs : List Char} :
    Decodes us cs ↔ cs = decode us := by
  constructor
  · exact Decodes.eq_decode
  · rintro rfl
    exact decodes_decode us hus

end Landmark.Utf16
