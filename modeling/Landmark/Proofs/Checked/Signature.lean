/-
The signature search takes every step in range.

`Checked.findSignature` looks for a signature as `Image.findSignature` does, with the window, what is left of it, every byte
that a mask is compared with, and the part that captures are read from as checked steps. Nothing is asked of the window: a
search only looks where the whole signature has room, and the bytes that captures cover are those of a match.
- `jumps_finds`, `findMasked_finds`: the mask search, with jumps or without them.
- `findAccepted_finds`: the search that goes on behind candidates whose choices fail.
- `findSignature_eq`: the search in an image; `stop_eq`: so is the end of a sighting.
-/
import Landmark.Proofs.Checked.Search
import Landmark.Proofs.Signature.Bytes

namespace Landmark.Checked

/-! ## Masks -/

/-- from `i` on, every byte agrees with its value where its mask says so -/
def masksHold (bytes : Array UInt8) : List (UInt8 × UInt8) → Nat → Checked Bool
  | [], _ => return true
  | (v, m) :: rest, i => do
    let b ← byte bytes.toList i
    if b &&& m == v then masksHold bytes rest (i + 1) else return false

/-- least position of a byte -/
def nextByte (v : UInt8) (bytes : Array UInt8) : Checked (Option Nat) :=
  return leastFrom (byteIs bytes v) 0 bytes.size

/-- least of the `count` positions from `i` on that passes -/
def tryEach (passes : Nat → Checked Bool) (i : Nat) : (count : Nat) → Checked (Option Nat)
  | 0 => return none
  | count + 1 => do if ← passes i then return some i else tryEach passes (i + 1) count

/-- least position where all masks hold; a fixed first byte is jumped to -/
def findMasked (masks : List (UInt8 × UInt8)) (bytes : Array UInt8) : Checked (Option Nat) :=
  match masks with
  | [] => return none
  | (v, m) :: _ =>
    if bytes.size < masks.length then return none
    else do
      let last ← minus bytes.size masks.length
      if m = 0xFF then
        search bytes (last + 1) (nextByte v) (masksHold bytes masks) 0
      else tryEach (masksHold bytes masks) 0 (last + 1)

section

variable {bytes : Array UInt8} {masks : List (UInt8 × UInt8)}

theorem masksHold_eq {i : Nat} (h : i + masks.length ≤ bytes.size) :
    masksHold bytes masks i = .ok (Landmark.masksHold bytes masks i) := by
  induction masks generalizing i with
  | nil => rfl
  | cons vm rest ih =>
    obtain ⟨v, m⟩ := vm
    rw [List.length_cons] at h
    have hlt : i < bytes.size := by omega
    have hbyte : byte bytes.toList i = .ok bytes[i] := byte_eq (show i < bytes.toList.length from hlt)
    rw [masksHold, Landmark.masksHold, hbyte, ok_bind, dif_pos hlt, ih (by omega)]
    cases bytes[i] &&& m == v <;> rfl

theorem tryEach_eq {passes : Nat → Checked Bool} {p : Nat → Bool} {i n : Nat}
    (h : ∀ k, i ≤ k → k < i + n → passes k = .ok (p k)) : tryEach passes i n = .ok (leastFrom p i n) := by
  induction n generalizing i with
  | zero => rfl
  | succ n ih =>
    rw [tryEach, leastFrom, h i (Nat.le_refl i) (by omega), ok_bind, ih fun k hk hlt => h k (by omega) (by omega)]
    cases p i <;> rfl

theorem byteIs_extract {v : UInt8} {start stop k : Nat} (hstop : stop ≤ bytes.size) (hk : start + k < stop) :
    byteIs (bytes.extract start stop) v k = byteIs bytes v (start + k) := by
  rw [Bool.eq_iff_iff, byteIs_iff, byteIs_iff, getElem?_extract_of_lt hstop hk]

theorem nextByte_finds (v : UInt8) (i : Nat) {stop : Nat} (hstop : stop ≤ bytes.size) :
    ∃ r, nextByte v (bytes.extract i stop) = .ok r ∧
      Finds (fun k => i + k < stop ∧ byteIs bytes v (i + k) = true) 0 r := by
  refine ⟨_, rfl, (finds_leastFrom _ _ _).congr fun k _ => ?_⟩
  have hroom : k < 0 + (bytes.extract i stop).size ↔ i + k < stop := by
    rw [Array.size_extract]; omega
  rw [hroom]
  exact and_congr_right fun hk => by rw [byteIs_extract hstop hk]

/-- jumps from one place of a fixed first byte to the next pass over no match, however the next place is looked for -/
theorem jumps_finds {v : UInt8} {rest : List (UInt8 × UInt8)} {candidate : Array UInt8 → Checked (Option Nat)} {last : Nat}
    (hlast : last + ((v, 0xFF) :: rest).length = bytes.size)
    (hcandidate : ∀ i < last + 1, ∃ r, candidate (bytes.extract i (last + 1)) = .ok r ∧
      Finds (fun k => i + k < last + 1 ∧ byteIs bytes v (i + k) = true) 0 r) :
    ∃ r, search bytes (last + 1) candidate (masksHold bytes ((v, 0xFF) :: rest)) 0 = .ok r ∧
      Finds (fun k => k + ((v, 0xFF) :: rest).length ≤ bytes.size ∧
        Landmark.masksHold bytes ((v, 0xFF) :: rest) k = true) 0 r := by
  have hpos : 0 < ((v, 0xFF) :: rest).length := Nat.succ_pos _
  have hroom : ∀ k, k < last + 1 ↔ k + ((v, 0xFF) :: rest).length ≤ bytes.size := by
    intro k; omega
  obtain ⟨r, hr, hfinds⟩ := search_finds (q := fun k => k < last + 1 ∧ byteIs bytes v k = true) (by omega)
    hcandidate (fun k hk => masksHold_eq ((hroom k).1 hk.1)) (fun k hk => hk.1) 0
  refine ⟨r, hr, hfinds.congr fun k _ => ?_⟩
  rw [hroom, and_assoc]
  exact and_congr_right fun _ => ⟨fun h => h.2, fun h => ⟨byteIs_of_masksHold h, h⟩⟩

/-- **The mask search is exhaustive**, and takes every step in range. -/
theorem findMasked_finds (bytes : Array UInt8) (hne : masks ≠ []) : ∃ r, findMasked masks bytes = .ok r ∧
    Finds (fun k => k + masks.length ≤ bytes.size ∧ Landmark.masksHold bytes masks k = true) 0 r := by
  cases masks with
  | nil => contradiction
  | cons vm rest =>
    obtain ⟨v, m⟩ := vm
    rw [findMasked]
    split
    · next hshort =>
      refine ⟨none, rfl, ?_⟩
      rintro k - ⟨hend, -⟩
      omega
    · next hlong =>
      have hle : ((v, m) :: rest).length ≤ bytes.size := Nat.le_of_not_lt hlong
      have hpos : 0 < ((v, m) :: rest).length := Nat.succ_pos _
      rw [minus_eq hle, ok_bind]
      generalize hlast : bytes.size - ((v, m) :: rest).length = last
      split
      · next hm =>
        subst hm
        exact jumps_finds (by omega) fun i _ => nextByte_finds v i (by omega)
      · refine ⟨_, tryEach_eq fun k _ hk => masksHold_eq (by omega), (finds_leastFrom _ _ _).congr fun k _ => ?_⟩
        exact and_congr_left fun _ => by omega

end

/-! ## Segments -/

/-- value and mask of every byte covered -/
def coarse : Segment → Checked (List (UInt8 × UInt8))
  | .capture _ w (some v) => do
    let low ← part (Word.bytes v).toArray 0 w.size
    return low.toList.map fun b => (b, 0xFF)
  | s => return s.coarse

def coarseAll : List Segment → Checked (List (UInt8 × UInt8))
  | [] => return []
  | s :: rest => return (← coarse s) ++ (← coarseAll rest)

/-- the word whose low bytes are filled with those of a capture -/
def filled (w : Width) (bytes : Array UInt8) : Checked UInt32 := do
  let low ← part (Array.replicate 4 0) 0 w.size
  if low.size = bytes.size then return Word.ofBytes (bytes.toList ++ List.replicate (4 - w.size) 0)
  else .error (.filling low.size bytes.size)

/-- names and values of the captures, the first segment being at `i` -/
def captures (bytes : Array UInt8) (i : Nat) : List Segment → Checked (List (String × UInt32))
  | [] => return []
  | s :: rest =>
    match s with
    | .capture n w _ =>
      if i + w.size ≤ bytes.size then do
        let v ← filled w (bytes.extract i (i + w.size))
        return (n, v) :: (← captures bytes (i + s.size) rest)
      else captures bytes (i + s.size) rest
    | _ => captures bytes (i + s.size) rest

theorem size_le_four (w : Width) : w.size ≤ 4 := by
  cases w <;> decide

theorem coarse_eq (s : Segment) : coarse s = .ok s.coarse := by
  cases s with
  | capture n w bound =>
    cases bound with
    | none => rfl
    | some v =>
      rw [coarse, part_eq (Nat.zero_le _) (size_le_four w), ok_bind]
      cases w <;> rfl
  | _ => rfl

theorem coarseAll_eq (l : List Segment) : coarseAll l = .ok (l.flatMap Segment.coarse) := by
  induction l with
  | nil => rfl
  | cons s l ih =>
    rw [coarseAll, coarse_eq, ok_bind, ih, ok_bind, List.flatMap_cons]
    rfl

theorem filled_eq {w : Width} {bytes : Array UInt8} (h : bytes.size = w.size) :
    filled w bytes = .ok (Word.ofBytes bytes.toList) := by
  have hsize : (Array.replicate 4 (0 : UInt8)).size = 4 := Array.size_replicate
  have hlow : ((Array.replicate 4 (0 : UInt8)).extract 0 w.size).size = bytes.size := by
    rw [Array.size_extract, hsize, h, Nat.min_eq_left (size_le_four w)]
    rfl
  rw [filled, part_eq (Nat.zero_le _) (hsize ▸ size_le_four w), ok_bind, if_pos hlow, Word.ofBytes, Word.valueOf_append_zeros]
  rfl

theorem captures_eq (bytes : Array UInt8) (i : Nat) (l : List Segment) :
    captures bytes i l = .ok (Signature.capturesFrom bytes i l) := by
  induction l generalizing i with
  | nil => rfl
  | cons s l ih =>
    cases s with
    | capture n w bound =>
      rw [captures, Signature.capturesFrom]
      split
      · next h =>
        have hsize : (bytes.extract i (i + w.size)).size = w.size := by
          rw [Array.size_extract]; omega
        rw [filled_eq hsize, ok_bind, ih, ok_bind]
        rfl
      · exact ih _
    | _ => exact ih _

/-! ## Searches -/

/-- least position where the signature stands -/
def findAccepted (sig : Signature) (bytes : Array UInt8) : Checked (Option Nat) := do
  let masks ← coarseAll sig.segments
  search bytes bytes.size (findMasked masks) (fun i => return sig.choicesHold (← part bytes i bytes.size) 0) 0

/-- first sighting inside the physical window from `start` to `stop` -/
def findSignature (image : Image) (sig : Signature) (start stop : UInt32) : Checked (Option Sighting) :=
  if min stop.toNat image.bytes.size ≤ start.toNat then return none
  else do
    let window ← part image.bytes start.toNat (min stop.toNat image.bytes.size)
    match ← findAccepted sig window with
    | none => return none
    | some i =>
      let offset ← add start (.ofNat i)
      let tail ← part image.bytes offset.toNat image.bytes.size
      return some ⟨offset, ← captures tail 0 sig.segments⟩

/-- offset just past a sighting -/
def stop (m : Sighting) (sig : Signature) : Checked UInt32 :=
  add m.offset (.ofNat sig.size)

section

variable {bytes : Array UInt8} {start last i : Nat} {l : List Segment} {sig : Signature}

theorem masksHold_extract {masks : List (UInt8 × UInt8)} (hlast : last ≤ bytes.size) (h : start + i + masks.length ≤ last) :
    Landmark.masksHold (bytes.extract start last) masks i = true ↔ Landmark.masksHold bytes masks (start + i) = true := by
  rw [masksHold_iff, masksHold_iff]
  change MeetsAt (fun b vm => b &&& vm.2 = vm.1) _ i masks ↔ MeetsAt (fun b vm => b &&& vm.2 = vm.1) _ (start + i) masks
  exact meetsAt_extract hlast h

/-- what is found in a part is found in the buffer, counted from the start of the part -/
theorem masksHold_window {masks : List (UInt8 × UInt8)} (hpos : 0 < masks.length) (hlast : last ≤ bytes.size) {r : Option Nat}
    (h : Finds (fun k => k + masks.length ≤ (bytes.extract start last).size ∧
      Landmark.masksHold (bytes.extract start last) masks k = true) 0 r) :
    Finds (fun k => start + k + masks.length ≤ last ∧ Landmark.masksHold bytes masks (start + k) = true) 0 r := by
  apply h.congr
  intro k _
  have hroom : k + masks.length ≤ (bytes.extract start last).size ↔ start + k + masks.length ≤ last := by
    rw [Array.size_extract]; omega
  rw [hroom]
  exact and_congr_right fun hk => masksHold_extract hlast hk

theorem matches_extract (hlast : last ≤ bytes.size) (h : start + i + sig.size ≤ last) :
    sig.Matches (bytes.extract start last) i ↔ sig.Matches bytes (start + i) := by
  have hroom : i + sig.size ≤ (bytes.extract start last).size := by
    rw [Array.size_extract]; omega
  rw [Signature.matches_iff_allowed hroom, Signature.matches_iff_allowed (by omega)]
  exact meetsAt_extract hlast (by rw [sig.length_allowed]; exact h)

theorem choicesHoldFrom_extract :
    Signature.choicesHoldFrom (bytes.extract start bytes.size) i l = Signature.choicesHoldFrom bytes (start + i) l := by
  induction l generalizing i with
  | nil => rfl
  | cons s l ih =>
    have hchoice : s.ChoiceHolds (bytes.extract start bytes.size) i ↔ s.ChoiceHolds bytes (start + i) := by
      cases s with
      | oneOf vs => simp only [Segment.ChoiceHolds, getElem?_extract_to_end]
      | _ => exact Iff.rfl
    rw [Bool.eq_iff_iff, Signature.choicesHoldFrom_cons, Signature.choicesHoldFrom_cons, ih, hchoice, Nat.add_assoc]

theorem capturesFrom_extract (hstart : start ≤ bytes.size) :
    Signature.capturesFrom (bytes.extract start bytes.size) i l = Signature.capturesFrom bytes (start + i) l := by
  induction l generalizing i with
  | nil => rfl
  | cons s l ih =>
    have hrest : Signature.capturesFrom (bytes.extract start bytes.size) (i + s.size) l =
        Signature.capturesFrom bytes (start + i + s.size) l := by
      rw [ih, Nat.add_assoc]
    cases s with
    | capture n w bound =>
      have hroom : i + w.size ≤ (bytes.extract start bytes.size).size ↔ start + i + w.size ≤ bytes.size := by
        rw [Array.size_extract]; omega
      rw [Signature.capturesFrom, Signature.capturesFrom, hrest]
      simp only [hroom]
      split
      · next h => rw [Array.extract_extract, ← Nat.add_assoc start i, Nat.min_eq_left h]
      · rfl
    | _ => exact hrest

theorem findAccepted_of_empty (hzero : sig.size = 0) (bytes : Array UInt8) : findAccepted sig bytes = .ok none := by
  have hnil : sig.segments.flatMap Segment.coarse = [] := by
    rw [← List.length_eq_zero_iff, Signature.length_coarse_segments]; exact hzero
  rw [findAccepted, coarseAll_eq, ok_bind, hnil, search]
  split
  · next h => rw [part_eq (Nat.le_of_lt h) (Nat.le_refl _)]; rfl
  · rfl

/-- **The search for a whole signature is exhaustive**, and takes every step in range. -/
theorem findAccepted_finds (hpos : 0 < sig.size) (bytes : Array UInt8) : ∃ r, findAccepted sig bytes = .ok r ∧
    Finds (fun k => k + sig.size ≤ bytes.size ∧ sig.Matches bytes k) 0 r := by
  have hlength : (sig.segments.flatMap Segment.coarse).length = sig.size := Signature.length_coarse_segments _
  have hne : sig.segments.flatMap Segment.coarse ≠ [] := by
    rw [← List.length_pos_iff, hlength]; exact hpos
  rw [findAccepted, coarseAll_eq, ok_bind]
  generalize hmasks : sig.segments.flatMap Segment.coarse = masks at hlength hne
  have hcandidate : ∀ i < bytes.size, ∃ r, findMasked masks (bytes.extract i bytes.size) = .ok r ∧
      Finds (fun k => i + k + sig.size ≤ bytes.size ∧ Landmark.masksHold bytes masks (i + k) = true) 0 r := by
    intro i hi
    obtain ⟨r, hr, hfinds⟩ := findMasked_finds (bytes.extract i bytes.size) hne
    rw [← hlength]
    exact ⟨r, hr, masksHold_window (List.length_pos_iff.2 hne) (Nat.le_refl _) hfinds⟩
  have hpasses : ∀ k, k + sig.size ≤ bytes.size ∧ Landmark.masksHold bytes masks k = true →
      (return sig.choicesHold (← part bytes k bytes.size) 0 : Checked Bool) = .ok (sig.choicesHold bytes k) := by
    rintro k ⟨hend, -⟩
    rw [part_eq (by omega) (Nat.le_refl _)]
    exact congrArg Except.ok choicesHoldFrom_extract
  obtain ⟨r, hr, hfinds⟩ :=
    search_finds (q := fun k => k + sig.size ≤ bytes.size ∧ Landmark.masksHold bytes masks k = true)
      (Nat.le_refl _) hcandidate hpasses (fun k hk => by omega) 0
  refine ⟨r, hr, hfinds.congr fun k _ => ?_⟩
  rw [and_assoc]
  exact and_congr_right fun h => hmasks ▸ (Signature.matches_iff_coarse_choices h).symm

end

/-! ## Images -/

section

variable {image : Image} {sig : Signature} {start last : UInt32}

/-- the search of a window answers as the one without checks, counted from the start of the window -/
theorem findAccepted_window (sig : Signature) (h : start.toNat < min last.toNat image.bytes.size) : ∃ r,
    findAccepted sig (image.bytes.extract start.toNat (min last.toNat image.bytes.size)) = .ok r ∧
      (image.findSignature sig start last).map (fun m => m.offset.toNat) = r.map (start.toNat + ·) := by
  rcases Nat.eq_zero_or_pos sig.size with hzero | hpos
  · refine ⟨none, findAccepted_of_empty hzero _, ?_⟩
    rw [Image.findSignature, Signature.findIn_eq_none_of_size_eq_zero hzero]
    rfl
  · have hlast := Nat.min_le_right last.toNat image.bytes.size
    obtain ⟨r, hr, hfinds⟩ :=
      findAccepted_finds hpos (image.bytes.extract start.toNat (min last.toNat image.bytes.size))
    have hshift : Finds (fun k => k + sig.size ≤ min last.toNat image.bytes.size ∧ sig.Matches image.bytes k) start.toNat
        (r.map (start.toNat + ·)) := by
      refine (hfinds.congr fun k _ => ?_).shift
      have hroom : k + sig.size ≤ (image.bytes.extract start.toNat (min last.toNat image.bytes.size)).size ↔
          start.toNat + k + sig.size ≤ min last.toNat image.bytes.size := by
        rw [Array.size_extract]; omega
      rw [hroom]
      exact and_congr_right fun h => matches_extract hlast h
    exact ⟨r, hr, (image.finds_findSignature sig hpos start last).unique hshift⟩

/-- a sighting and its end lie in the window and in the file -/
theorem stop_le {m : Sighting} (h : image.findSignature sig start last = some m) :
    m.offset.toNat + sig.size ≤ min last.toNat image.bytes.size :=
  ((image.findSignature_exact sig start last).2 m h).2.2.2

/-- **The signature search takes every step in range**, in any window. -/
theorem findSignature_eq (image : Image) (sig : Signature) (start last : UInt32) :
    findSignature image sig start last = .ok (image.findSignature sig start last) := by
  rw [findSignature]
  split
  · next hempty =>
    cases hm : image.findSignature sig start last with
    | none => rfl
    | some m =>
      obtain ⟨hpos, ⟨hstart, hend, -⟩, -⟩ := Image.findSignature_eq_some_iff.1 hm
      omega
  · next hroom =>
    have hlt := Nat.lt_of_not_le hroom
    obtain ⟨r, hr, hoffset⟩ := findAccepted_window sig hlt
    rw [part_eq (Nat.le_of_lt hlt) (Nat.min_le_right _ _), ok_bind, hr, ok_bind]
    cases r with
    | none => rw [Option.map_eq_none_iff.1 hoffset]; rfl
    | some i =>
      obtain ⟨m, hm, hi⟩ := Option.map_eq_some_iff.1 hoffset
      have hi : m.offset.toNat = start.toNat + i := hi
      have hend := stop_le hm
      have hsum : add start (.ofNat i) = .ok m.offset := by
        have hsum := add_ofNat start.toNat i (hi ▸ m.offset.toNat_lt)
        rwa [← hi, UInt32.ofNat_toNat, UInt32.ofNat_toNat] at hsum
      have hcaptures := Image.captures_findSignature hm
      dsimp only
      rw [hsum, ok_bind, part_eq (by omega) (Nat.le_refl _), ok_bind, captures_eq, ok_bind, capturesFrom_extract (by omega),
        Nat.add_zero, ← hcaptures, hm]
      rfl

/-- the end of a sighting is a word -/
theorem stop_eq {m : Sighting} (h : image.findSignature sig start last = some m) : stop m sig = .ok (m.stop sig) := by
  have hend := stop_le h
  have hlast := last.toNat_lt
  have hsize : UInt32.size = 0x100000000 := rfl
  have hsum := add_ofNat m.offset.toNat sig.size (by omega)
  rw [UInt32.ofNat_add, UInt32.ofNat_toNat] at hsum
  exact hsum

end

end Landmark.Checked
