/-
The text search takes every step in range.

`Checked.findText` looks for a text as `Image.findText` does, but it cuts out the mapped part of every section, and what is
left of it after each occurrence, as checked steps, and checks the byte before an occurrence and the sums that lead back to
an address. A section table that was accepted keeps all of them in range: `findTextIn_eq` for one section, `findText_eq` for
an image.
-/
import Landmark.Proofs.Checked.Search
import Landmark.Proofs.Image.TextSearch

namespace Landmark.Checked

/-- lowest position of the needle; where case does not count, windows are compared, and there are none of no bytes -/
def findBytes (q : TextQuery) (needle : List UInt8) (bytes : Array UInt8) : Checked (Option Nat) :=
  if !q.caseSensitive && needle.isEmpty then .error .window else .ok (q.findNeedle bytes needle bytes.size 0)

/-- a zero byte, or the start, comes before `i`, and a zero byte follows `n` bytes later -/
def isBounded (bytes : Array UInt8) (i n : Nat) : Checked Bool := do
  let before ← if i = 0 then pure true else (· == 0) <$> byte bytes.toList (i - 1)
  return before && bytes[i + n]? == some 0

/-- lowest position where the needle stands as the query demands -/
def findTextIn (q : TextQuery) (needle : List UInt8) (bytes : Array UInt8) : Checked (Option Nat) :=
  if needle.isEmpty then return none
  else
    search bytes bytes.size (findBytes q needle)
      (fun i => if q.bounded then isBounded bytes i needle.length else return true) 0

/-- virtual address of a physical one in a section -/
def toVirtual (s : Section) (p : UInt32) : Checked (Option UInt32) :=
  if s.holdsPhysical p then return Word.addExact s.virtualAddress (← sub p s.rawOffset) else return none

/-- address of the text in the first section of the list that has it -/
def findText (image : Image) (needle : List UInt8) (q : TextQuery) : List Section → Checked (Option UInt32)
  | [] => return none
  | s :: rest => do
    let mapped ← part image.bytes s.rawOffset.toNat s.rawEnd.toNat
    match ← findTextIn q needle mapped with
    | none => findText image needle q rest
    | some i =>
      let p ← add s.rawOffset (.ofNat i)
      match q.space with
      | .physical => return some p
      | .virtual => toVirtual s p

variable {q : TextQuery} {needle : List UInt8} {bytes : Array UInt8}

theorem findBytes_eq (hne : needle ≠ []) :
    findBytes q needle bytes = .ok (q.findNeedle bytes needle bytes.size 0) := by
  rw [findBytes, if_neg]
  simp [hne]

theorem isBounded_eq {i n : Nat} (h : i ≤ bytes.size) :
    isBounded bytes i n = .ok (TextQuery.isBounded bytes 0 bytes.size i n) := by
  have hafter : (decide (i + n < bytes.size) && bytes[i + n]? == some 0) = (bytes[i + n]? == some 0) := by
    by_cases hlt : i + n < bytes.size
    · rw [decide_eq_true hlt, Bool.true_and]
    · rw [Array.getElem?_eq_none (by omega), decide_eq_false hlt]
      rfl
  rw [TextQuery.isBounded, Bool.and_assoc, hafter, isBounded]
  cases i with
  | zero => rfl
  | succ i =>
    have hlt : i < bytes.toList.length := h
    have hbyte : byte bytes.toList i = .ok bytes[i] := byte_eq hlt
    have hbefore : bytes[i]? = some bytes[i] := Array.getElem?_eq_getElem h
    rw [if_neg (Nat.succ_ne_zero i), Nat.add_sub_cancel, hbyte, hbefore]
    rfl

/-- where the needle stands as the query demands, in bytes that are searched whole -/
def StandsIn (q : TextQuery) (needle : List UInt8) (bytes : Array UInt8) (i : Nat) : Prop :=
  (i + needle.length ≤ bytes.size ∧ q.StandsAt bytes needle i) ∧
    (q.bounded = true → TextQuery.Bounded bytes 0 bytes.size i needle.length)

/-- **The search of one part is exhaustive**, and takes every step in range. -/
theorem findTextIn_finds (q : TextQuery) (bytes : Array UInt8) (hne : needle ≠ []) :
    ∃ r, findTextIn q needle bytes = .ok r ∧ Finds (StandsIn q needle bytes) 0 r := by
  have hpos : 0 < needle.length := List.length_pos_iff.2 hne
  have hcandidate : ∀ i < bytes.size, ∃ r, findBytes q needle (bytes.extract i bytes.size) = .ok r ∧
      Finds (fun k => i + k + needle.length ≤ bytes.size ∧ q.StandsAt bytes needle (i + k)) 0 r := by
    intro i hi
    refine ⟨_, findBytes_eq hne, (TextQuery.finds_findNeedle hne).congr fun k _ => ?_⟩
    rw [Array.size_extract, Nat.min_self]
    constructor
    · rintro ⟨hend, hstands⟩
      exact ⟨by omega, (meetsAt_extract (Nat.le_refl _) (by omega)).1 hstands⟩
    · rintro ⟨hend, hstands⟩
      exact ⟨by omega, (meetsAt_extract (Nat.le_refl _) hend).2 hstands⟩
  have hpasses : ∀ k, k + needle.length ≤ bytes.size ∧ q.StandsAt bytes needle k →
      (if q.bounded then isBounded bytes k needle.length else return true) =
        (.ok (!q.bounded || TextQuery.isBounded bytes 0 bytes.size k needle.length) : Checked Bool) := by
    rintro k ⟨hend, -⟩
    rw [isBounded_eq (by omega)]
    cases q.bounded <;> rfl
  obtain ⟨r, hr, hfinds⟩ := search_finds (Nat.le_refl _) hcandidate hpasses (fun k hk => by omega) 0
  refine ⟨r, by rw [findTextIn, if_neg (by simpa using hne)]; exact hr, hfinds.congr fun k _ => and_congr_right fun _ => ?_⟩
  rw [← TextQuery.isBounded_iff]
  cases q.bounded <;> simp

/-! ## Sections and images -/

theorem bounded_extract {start stop i n : Nat} (hstop : stop ≤ bytes.size) (hi : start + i ≤ stop) :
    TextQuery.Bounded (bytes.extract start stop) 0 (stop - start) i n ↔ TextQuery.Bounded bytes start stop (start + i) n := by
  have hbefore : (i = 0 ∨ (bytes.extract start stop)[i - 1]? = some 0) ↔
      (start + i = start ∨ bytes[start + i - 1]? = some 0) := by
    cases i with
    | zero => exact iff_of_true (.inl rfl) (.inl rfl)
    | succ i =>
      rw [Nat.add_sub_cancel, getElem?_extract_of_lt hstop (by omega)]
      exact or_congr (by omega) Iff.rfl
  have hafter : (i + n < stop - start ∧ (bytes.extract start stop)[i + n]? = some 0) ↔
      (start + i + n < stop ∧ bytes[start + i + n]? = some 0) := by
    rw [Nat.add_assoc start]
    have hroom : i + n < stop - start ↔ start + (i + n) < stop := by omega
    rw [hroom]
    exact and_congr_right fun h => by rw [getElem?_extract_of_lt hstop h]
  exact and_congr hbefore hafter

variable {image : Image} {s : Section}

/-- an occurrence in the mapped bytes of a section is an occurrence in the section -/
theorem standsIn_iff_occursIn (hs : s ∈ image.sections) {k : Nat} :
    StandsIn q needle (image.bytes.extract s.rawOffset.toNat (s.rawOffset.toNat + s.mappedCount)) k ↔
      image.OccursIn q needle s (s.rawOffset.toNat + k) := by
  have hstop := Image.mapped_le_size hs
  have hsize : (image.bytes.extract s.rawOffset.toNat (s.rawOffset.toNat + s.mappedCount)).size =
      s.rawOffset.toNat + s.mappedCount - s.rawOffset.toNat := by
    rw [Array.size_extract, Nat.min_eq_left hstop]
  rw [StandsIn, Image.OccursIn, hsize, and_assoc, and_iff_right (Nat.le_add_right _ _)]
  constructor
  · rintro ⟨hend, hstands, hbounded⟩
    refine ⟨by omega, (meetsAt_extract hstop (by omega)).1 hstands, fun hq => ?_⟩
    exact (bounded_extract hstop (by omega)).1 (hbounded hq)
  · rintro ⟨hend, hstands, hbounded⟩
    refine ⟨by omega, (meetsAt_extract hstop hend).2 hstands, fun hq => ?_⟩
    exact (bounded_extract hstop (by omega)).2 (hbounded hq)

/-- the search of a section answers as the one without checks, counted from the start of the section -/
theorem findTextIn_eq (needle : List UInt8) (q : TextQuery) (hs : s ∈ image.sections) : ∃ r,
    findTextIn q needle (image.bytes.extract s.rawOffset.toNat (s.rawOffset.toNat + s.mappedCount)) = .ok r ∧
      image.findTextInSection needle q s = r.map (s.rawOffset.toNat + ·) := by
  by_cases hne : needle = []
  · subst hne
    exact ⟨none, rfl, rfl⟩
  · obtain ⟨r, hr, hfinds⟩ :=
      findTextIn_finds q (image.bytes.extract s.rawOffset.toNat (s.rawOffset.toNat + s.mappedCount)) hne
    have hshift : Finds (image.OccursIn q needle s) s.rawOffset.toNat (r.map (s.rawOffset.toNat + ·)) :=
      (hfinds.congr fun k _ => standsIn_iff_occursIn hs).shift
    exact ⟨r, hr, (Image.finds_findTextInSection hs hne).unique hshift⟩

theorem toVirtual_eq (hs : s ∈ image.sections) (p : UInt32) : toVirtual s p = .ok (s.toVirtual p) := by
  unfold toVirtual Section.toVirtual
  split
  · next h =>
    have hstart := ((Section.holdsPhysical_iff (image.isSound.fits s hs)).1 h).1
    rw [sub_eq hstart]
    rfl
  · rfl

/-- sum of the start of a section and the place of a hit in it -/
theorem add_hit (hs : s ∈ image.sections) {i : Nat}
    (h : image.findTextInSection needle q s = some (s.rawOffset.toNat + i)) :
    add s.rawOffset (.ofNat i) = .ok (.ofNat (s.rawOffset.toNat + i)) := by
  obtain ⟨-, hocc, -⟩ := (Image.findTextInSection_eq_some_iff hs).1 h
  have hsum := add_ofNat s.rawOffset.toNat i (hocc.lt_size hs)
  rwa [UInt32.ofNat_toNat] at hsum

/-- **The text search takes every step in range.** Induction on the sections that are left. -/
theorem findText_eq (image : Image) (needle : List UInt8) (q : TextQuery) :
    findText image needle q image.sections = .ok (image.findText needle q) := by
  have hrun : ∀ sections : List Section, (∀ s ∈ sections, s ∈ image.sections) →
      findText image needle q sections =
        .ok ((sections.findSome? fun s => (image.findTextInSection needle q s).map fun i => (s, UInt32.ofNat i)).bind
          fun hit => match q.space with
            | .physical => some hit.2
            | .virtual => hit.1.toVirtual hit.2) := by
    intro sections hsub
    induction sections with
    | nil => rfl
    | cons s rest ih =>
      have hs : s ∈ image.sections := hsub s List.mem_cons_self
      have hend := Section.toNat_rawEnd (image.isSound.fits s hs)
      have hmapped := part_eq (Nat.le_add_right s.rawOffset.toNat s.mappedCount) (Image.mapped_le_size hs)
      obtain ⟨r, hr, hsection⟩ := findTextIn_eq needle q hs
      rw [findText, hend, hmapped, ok_bind, hr, ok_bind, List.findSome?_cons]
      cases r with
      | none =>
        rw [hsection]
        exact ih fun t ht => hsub t (List.mem_cons_of_mem _ ht)
      | some i =>
        have hhit : image.findTextInSection needle q s = some (s.rawOffset.toNat + i) := hsection
        dsimp only
        rw [hhit, add_hit hs hhit, ok_bind]
        cases q.space with
        | physical => rfl
        | virtual => exact toVirtual_eq hs _
  rw [Image.findText_eq]
  exact hrun image.sections fun s hs => hs

end Landmark.Checked
