/-
Jumping from one place of a byte to the next gives the answer of a plain scan.

The mask search jumps if its first mask is full. How the next place of a byte is looked for is left open here: `locate` may be
any function that answers with the first place in the part it is given (`LocatesFirst`). `findMaskedWithin` is the search with
such a function. Every part it cuts out and every byte it compares is a checked step, and its loop is given up after a number
of turns.
- `findMaskedWithin_eq`: the search takes every step in range and ends, with the answer of `findMasked`.
- `findMasked_window`: a window of a buffer is searched as the part cut out of it.
- `findMasked_exact`: the answer is the least place where all masks agree, and that of a scan of all positions.
-/
import Landmark.Proofs.Checked.Signature

namespace Landmark

/-- a search for a byte that answers with its first place -/
def LocatesFirst (locate : UInt8 → Array UInt8 → Option Nat) : Prop :=
  ∀ b bytes, Finds (fun k => bytes[k]? = some b) 0 (locate b bytes)

/-- from `i` on, every byte is there and agrees with its value under its mask -/
def AgreesAt (bytes : Array UInt8) (masks : List (UInt8 × UInt8)) (i : Nat) : Prop :=
  i + masks.length ≤ bytes.size ∧
    ∀ j (h : j < masks.length), ∃ b, bytes[i + j]? = some b ∧ b &&& masks[j].2 = masks[j].1

variable {locate : UInt8 → Array UInt8 → Option Nat} {bytes : Array UInt8} {masks : List (UInt8 × UInt8)}

/-! ## Looking for a byte -/

theorem locatesFirst_findIdx? : LocatesFirst fun b bytes => bytes.findIdx? (· == b) := by
  intro b bytes
  dsimp only
  cases hr : bytes.findIdx? (· == b) with
  | none =>
    intro k _ hk
    have hdiffers := Array.findIdx?_eq_none_iff.1 hr b (Array.mem_of_getElem? hk)
    rw [beq_self_eq_true] at hdiffers
    contradiction
  | some i =>
    obtain ⟨hlt, hi, hleast⟩ := Array.findIdx?_eq_some_iff_getElem.1 hr
    have hfound : bytes[i]? = some b := by
      rw [Array.getElem?_eq_getElem hlt, eq_of_beq hi]
    refine ⟨Nat.zero_le i, hfound, ?_⟩
    intro k _ hki hk
    obtain ⟨_, rfl⟩ := Array.getElem?_eq_some_iff.1 hk
    exact hleast k hki (beq_self_eq_true _)

/-! ## What the mask search answers -/

/-- the mask search of a whole buffer is exhaustive -/
theorem finds_agreesAt (bytes : Array UInt8) (hne : masks ≠ []) :
    Finds (AgreesAt bytes masks) 0 (findMasked bytes masks 0 bytes.size) := by
  apply (finds_findMasked bytes hne 0 bytes.size).congr
  intro k _
  exact and_congr_right fun _ => masksHold_iff

theorem findMasked_eq_some_iff {i : Nat} : findMasked bytes masks 0 bytes.size = some i ↔
    masks ≠ [] ∧ AgreesAt bytes masks i ∧ ∀ k < i, ¬ AgreesAt bytes masks k := by
  by_cases hnil : masks = []
  · simp [hnil, findMasked]
  · rw [(finds_agreesAt bytes hnil).eq_some_iff fun k _ => Nat.zero_le k, and_iff_right hnil]

theorem findMasked_eq_none_iff :
    findMasked bytes masks 0 bytes.size = none ↔ masks = [] ∨ ∀ i, ¬ AgreesAt bytes masks i := by
  by_cases hnil : masks = []
  · simp [hnil, findMasked]
  · rw [(finds_agreesAt bytes hnil).eq_none_iff fun k _ => Nat.zero_le k, or_iff_right hnil]

/-- a window of a buffer is searched as the part cut out of it -/
theorem findMasked_window {start stop : Nat} (hstop : stop ≤ bytes.size) : findMasked bytes masks start stop =
    (findMasked (bytes.extract start stop) masks 0 (bytes.extract start stop).size).map (start + ·) := by
  by_cases hnil : masks = []
  · subst hnil
    rfl
  · apply (finds_findMasked bytes hnil start stop).unique
    apply Finds.shift
    exact Checked.masksHold_window (List.length_pos_iff.2 hnil) hstop (finds_findMasked (bytes.extract start stop) hnil 0 _)

/-! ## Jumping and scanning -/

namespace Checked

/-- first place of a byte, as a given function locates it -/
def located (locate : UInt8 → Array UInt8 → Option Nat) (v : UInt8) (bytes : Array UInt8) : Checked (Option Nat) :=
  return locate v bytes

/-- the mask search with a given search for a byte, its loop given up after a number of turns -/
def findMaskedWithin (locate : UInt8 → Array UInt8 → Option Nat) (turns : Nat) (masks : List (UInt8 × UInt8))
    (bytes : Array UInt8) : Checked (Option (Option Nat)) :=
  match masks with
  | [] => return some none
  | (v, m) :: _ =>
    if bytes.size < masks.length then return some none
    else do
      let last ← minus bytes.size masks.length
      if m = 0xFF then
        searchWithin bytes (last + 1) (located locate v) (masksHold bytes masks) turns 0
      else return some (← tryEach (masksHold bytes masks) 0 (last + 1))

/-- what is located in the part from `i` up to `stop` is the next place of the byte in the buffer -/
theorem located_finds (hlocate : LocatesFirst locate) (v : UInt8) (i : Nat) {stop : Nat} (hstop : stop ≤ bytes.size) :
    ∃ r, located locate v (bytes.extract i stop) = .ok r ∧
      Finds (fun k => i + k < stop ∧ byteIs bytes v (i + k) = true) 0 r := by
  refine ⟨locate v (bytes.extract i stop), rfl, ?_⟩
  apply (hlocate v (bytes.extract i stop)).congr
  intro k _
  rw [byteIs_iff]
  constructor
  · intro hk
    obtain ⟨hlt, -⟩ := Array.getElem?_eq_some_iff.1 hk
    have hroom : i + k < stop := by
      rw [Array.size_extract] at hlt
      omega
    exact ⟨hroom, getElem?_extract_of_lt hstop hroom ▸ hk⟩
  · rintro ⟨hroom, hk⟩
    rwa [getElem?_extract_of_lt hstop hroom]

/-- a scan of all positions that have room stays in range and answers as the mask search does -/
theorem tryEach_masksHold (bytes : Array UInt8) (hne : masks ≠ []) :
    tryEach (masksHold bytes masks) 0 (bytes.size + 1 - masks.length) =
      .ok (Landmark.findMasked bytes masks 0 bytes.size) := by
  have hpos : 0 < masks.length := List.length_pos_iff.2 hne
  have hroom : ∀ k, k < 0 + (bytes.size + 1 - masks.length) ↔ k + masks.length ≤ bytes.size := by
    intro k; omega
  rw [tryEach_eq fun k _ hk => masksHold_eq ((hroom k).1 hk)]
  apply congrArg Except.ok
  apply Finds.unique (finds_leastFrom _ _ _)
  apply (finds_findMasked bytes hne 0 bytes.size).congr
  intro k _
  rw [hroom]

/-- **The mask search stays in range and ends**, with the answer that it has without checks, whatever function looks for the
byte. -/
theorem findMaskedWithin_eq (hlocate : LocatesFirst locate) {turns : Nat} (hturns : bytes.size + 1 - masks.length < turns) :
    findMaskedWithin locate turns masks bytes = .ok (some (Landmark.findMasked bytes masks 0 bytes.size)) := by
  cases masks with
  | nil => rfl
  | cons vm rest =>
    obtain ⟨v, m⟩ := vm
    -- both searches are exhaustive for the same places, so they have one answer
    have hspec := finds_findMasked bytes (List.cons_ne_nil (v, m) rest) 0 bytes.size
    rw [findMaskedWithin]
    split
    · next hshort =>
      have hnone : Landmark.findMasked bytes ((v, m) :: rest) 0 bytes.size = none := by
        apply hspec.unique
        rintro k - ⟨hend, -⟩
        omega
      rw [hnone]
      rfl
    · next hlong =>
      have hle : ((v, m) :: rest).length ≤ bytes.size := Nat.le_of_not_lt hlong
      have hpos : 0 < ((v, m) :: rest).length := Nat.succ_pos _
      rw [minus_eq hle, ok_bind]
      split
      · next hm =>
        subst hm
        obtain ⟨r, hr, hfinds⟩ := jumps_finds (Nat.sub_add_cancel hle) fun i _ => located_finds hlocate v i (by omega)
        rw [searchWithin_eq (by omega), hr, hspec.unique hfinds]
        rfl
      · next hm =>
        rw [← Nat.sub_add_comm hle, tryEach_masksHold bytes (List.cons_ne_nil _ _)]
        rfl

end Checked

/-- **Jumping agrees with scanning.** Whatever function looks for the next place of a byte, if it finds the first one, the mask
search takes every step in range and ends: its loop takes one turn for each position with room at most, and a last one. It
answers with the least place where every byte agrees with its value under its mask, and with nothing exactly if there are no
masks or there is no such place; a test of every position with room answers the same. A window of a buffer is searched as the
part cut out of it. -/
theorem findMasked_exact (hlocate : LocatesFirst locate) (bytes : Array UInt8) (masks : List (UInt8 × UInt8)) :
    (∀ turns, bytes.size + 1 - masks.length < turns →
      Checked.findMaskedWithin locate turns masks bytes = .ok (some (findMasked bytes masks 0 bytes.size))) ∧
    (∀ i, findMasked bytes masks 0 bytes.size = some i ↔
      masks ≠ [] ∧ AgreesAt bytes masks i ∧ ∀ k < i, ¬ AgreesAt bytes masks k) ∧
    (findMasked bytes masks 0 bytes.size = none ↔ masks = [] ∨ ∀ i, ¬ AgreesAt bytes masks i) ∧
    (masks ≠ [] → Checked.tryEach (Checked.masksHold bytes masks) 0 (bytes.size + 1 - masks.length) =
      .ok (findMasked bytes masks 0 bytes.size)) ∧
    ∀ data start stop, stop ≤ data.size → data.extract start stop = bytes →
      findMasked data masks start stop = (findMasked bytes masks 0 bytes.size).map (start + ·) := by
  refine ⟨fun turns => Checked.findMaskedWithin_eq hlocate, fun i => findMasked_eq_some_iff, findMasked_eq_none_iff,
    Checked.tryEach_masksHold bytes, ?_⟩
  rintro data start stop hstop rfl
  exact findMasked_window hstop

/-- four places of the byte that is jumped to, the last one at the last position with room -/
def runsOfPadding : Array UInt8 :=
  #[0xCC, 0x00, 0xCC, 0xCC, 0x90, 0xCC, 0xCC, 0x55]

/-- two bytes of padding and the code of a push of any register -/
def paddedPush : List (UInt8 × UInt8) :=
  [(0xCC, 0xFF), (0xCC, 0xFF), (0x50, 0xF8)]

/-- the same between two more bytes -/
def framedPadding : Array UInt8 :=
  #[0xCC] ++ runsOfPadding ++ #[0xCC]

/-- three places are rejected, two of them next to each other, and the fourth is found; so it is in a window -/
theorem runsOfPadding_found :
    (LocatesFirst fun b bytes => bytes.findIdx? (· == b)) ∧ runsOfPadding.size + 1 - paddedPush.length < 7 ∧
      paddedPush ≠ [] ∧ findMasked runsOfPadding paddedPush 0 8 = some 5 ∧
      Checked.findMaskedWithin (fun b bytes => bytes.findIdx? (· == b)) 7 paddedPush runsOfPadding = .ok (some (some 5)) ∧
      Checked.tryEach (Checked.masksHold runsOfPadding paddedPush) 0 6 = .ok (some 5) ∧
      AgreesAt runsOfPadding paddedPush 5 ∧ (∀ k < 5, ¬ AgreesAt runsOfPadding paddedPush k) ∧
      9 ≤ framedPadding.size ∧ framedPadding.extract 1 9 = runsOfPadding ∧
      findMasked framedPadding paddedPush 1 9 = some 6 := by
  have hturns : runsOfPadding.size + 1 - paddedPush.length < 7 := by decide
  have hne : paddedPush ≠ [] := by decide
  have hfound : findMasked runsOfPadding paddedPush 0 runsOfPadding.size = some 5 := by decide
  have hstop : 9 ≤ framedPadding.size := by decide
  have hpart : framedPadding.extract 1 9 = runsOfPadding := by decide
  obtain ⟨hwithin, hsome, -, hscan, hwindow⟩ := findMasked_exact locatesFirst_findIdx? runsOfPadding paddedPush
  rw [hfound] at hwithin hscan hwindow
  obtain ⟨-, hplace, hleast⟩ := (hsome 5).1 hfound
  exact ⟨locatesFirst_findIdx?, hturns, hne, hfound, hwithin 7 hturns, hscan hne, hplace, hleast, hstop, hpart,
    hwindow framedPadding 1 9 hstop hpart⟩

end Landmark
