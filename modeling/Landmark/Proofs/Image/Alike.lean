/-
Images that show the same mapped bytes.

Two images are `Alike` if they have the same sections, imports and metadata, and the same bytes wherever a section maps
them. Headers, padding and whatever follows the sections may differ, in length too.
- `Alike.findText`: every text search gives the same answer.
- `Alike.findSignature_of_inside`: a sighting that lies inside a section is one in the other image too, even if the window
  reaches further; `Alike.findSignature`: a search inside a section gives the same answer, captures and all.
- `Alike.callTarget`: so does the target of a call inside a section.
-/
import Landmark.Proofs.Image.Reading
import Landmark.Proofs.Image.TextSearch
import Landmark.Proofs.Signature.Bytes

namespace Landmark

theorem findSome?_congr {α β : Type} {f g : α → Option β} {l : List α} (h : ∀ a ∈ l, f a = g a) :
    l.findSome? f = l.findSome? g := by
  induction l with
  | nil => rfl
  | cons a l ih => rw [List.findSome?_cons, List.findSome?_cons, h a List.mem_cons_self,
      ih fun b hb => h b (List.mem_cons_of_mem a hb)]

/-! ## Parts of byte strings -/

/-- the two byte strings have the same bytes from `i` up to `j` -/
def SameBytes (data data' : Array UInt8) (i j : Nat) : Prop :=
  ∀ k, i ≤ k → k < j → data[k]? = data'[k]?

namespace SameBytes

variable {data data' : Array UInt8} {i j : Nat}

theorem symm (h : SameBytes data data' i j) : SameBytes data' data i j :=
  fun k hi hj => (h k hi hj).symm

theorem mono (h : SameBytes data data' i j) {i' j' : Nat} (hi : i ≤ i') (hj : j' ≤ j) : SameBytes data data' i' j' :=
  fun k hk hk' => h k (Nat.le_trans hi hk) (Nat.lt_of_lt_of_le hk' hj)

theorem extract_eq (h : SameBytes data data' i j) (hdata : j ≤ data.size) (hdata' : j ≤ data'.size) :
    data.extract i j = data'.extract i j := by
  refine Array.ext (by rw [Array.size_extract, Array.size_extract, Nat.min_eq_left hdata, Nat.min_eq_left hdata']) ?_
  intro k hk hk'
  rw [Array.size_extract] at hk
  have hsame := h (i + k) (Nat.le_add_right i k) (by omega)
  rw [Array.getElem?_eq_getElem (by omega), Array.getElem?_eq_getElem (by omega), Option.some_inj] at hsame
  rw [Array.getElem_extract, Array.getElem_extract, hsame]

theorem meetsAt {α : Type} {meets : UInt8 → α → Prop} {l : List α} (h : SameBytes data data' i (i + l.length))
    (hmeets : MeetsAt meets data i l) : MeetsAt meets data' i l :=
  hmeets.congr fun k hk => h (i + k) (Nat.le_add_right i k) (Nat.add_lt_add_left hk i)

/-- a signature matches in both byte strings or in neither -/
theorem matches_iff {sig : Signature} (h : SameBytes data data' i (i + sig.size)) (hdata : i + sig.size ≤ data.size)
    (hdata' : i + sig.size ≤ data'.size) : sig.Matches data i ↔ sig.Matches data' i := by
  rw [Signature.matches_iff_allowed hdata, Signature.matches_iff_allowed hdata']
  rw [← sig.length_allowed] at h
  exact ⟨h.meetsAt, h.symm.meetsAt⟩

/-- and has the same captures -/
theorem capturesFrom_eq {l : List Segment} (h : SameBytes data data' i (i + Signature.sizeAll l))
    (hdata : i + Signature.sizeAll l ≤ data.size) (hdata' : i + Signature.sizeAll l ≤ data'.size) :
    Signature.capturesFrom data i l = Signature.capturesFrom data' i l := by
  induction l generalizing i with
  | nil => rfl
  | cons s l ih =>
    have hsize : Signature.sizeAll (s :: l) = s.size + Signature.sizeAll l := rfl
    rw [hsize] at h hdata hdata'
    have hrest : Signature.capturesFrom data (i + s.size) l = Signature.capturesFrom data' (i + s.size) l :=
      ih (h.mono (by omega) (by omega)) (by omega) (by omega)
    cases s with
    | capture n w b =>
      have hroom : (Segment.capture n w b).size = w.size := rfl
      have hextract : data.extract i (i + w.size) = data'.extract i (i + w.size) :=
        (h.mono (Nat.le_refl i) (by omega)).extract_eq (by omega) (by omega)
      rw [Signature.capturesFrom, Signature.capturesFrom, if_pos (by omega), if_pos (by omega), hextract, hrest]
    | _ => exact hrest

end SameBytes

namespace Image

/-- the images differ at most in bytes that no section maps -/
structure Alike (A B : Image) : Prop where
  sections : A.sections = B.sections
  imports : A.imports = B.imports
  metadata : A.metadata = B.metadata
  bytes : ∀ s ∈ A.sections, SameBytes A.bytes B.bytes s.rawOffset.toNat (s.rawOffset.toNat + s.mappedCount)

variable {A B : Image}

theorem Alike.symm (h : A.Alike B) : B.Alike A where
  sections := h.sections.symm
  imports := h.imports.symm
  metadata := h.metadata.symm
  bytes s hs := (h.bytes s (h.sections ▸ hs)).symm

/-! ## Texts -/

variable {q : TextQuery} {needle : List UInt8} {s : Section}

theorem Alike.occursIn (h : A.Alike B) (hs : s ∈ A.sections) {i : Nat} (hocc : A.OccursIn q needle s i) :
    B.OccursIn q needle s i := by
  have hbytes := h.bytes s hs
  obtain ⟨hstart, hend, hstands, hbounded⟩ := hocc
  refine ⟨hstart, hend, (hbytes.mono hstart hend).meetsAt hstands, fun hq => ?_⟩
  obtain ⟨hbefore, hroom, hafter⟩ := hbounded hq
  refine ⟨?_, hroom, by rw [← hbytes _ (by omega) hroom, hafter]⟩
  by_cases hi : i = s.rawOffset.toNat
  · exact .inl hi
  · exact .inr (by rw [← hbytes _ (by omega) (by omega), hbefore.resolve_left hi])

theorem Alike.findTextInSection (h : A.Alike B) (hs : s ∈ A.sections) :
    A.findTextInSection needle q s = B.findTextInSection needle q s := by
  have hs' : s ∈ B.sections := h.sections ▸ hs
  have hocc : ∀ i, A.OccursIn q needle s i ↔ B.OccursIn q needle s i :=
    fun i => ⟨h.occursIn hs, h.symm.occursIn hs'⟩
  refine Option.ext fun i => ?_
  rw [findTextInSection_eq_some_iff hs, findTextInSection_eq_some_iff hs']
  simp only [hocc]

/-- **A text search sees mapped bytes alone.** -/
theorem Alike.findText (h : A.Alike B) (needle : List UInt8) (q : TextQuery) :
    A.findText needle q = B.findText needle q := by
  have hhit : A.firstHit needle q = B.firstHit needle q := by
    rw [firstHit, firstHit, ← h.sections]
    refine findSome?_congr fun s hs => ?_
    rw [h.findTextInSection hs]
  rw [findText_eq, findText_eq, hhit]

/-! ## Signatures -/

variable {sig : Signature} {start stop : UInt32}

/-- **A sighting inside a section is one in the other image too**, wherever the window ends. -/
theorem Alike.findSignature_of_inside (h : A.Alike B) (hs : s ∈ A.sections) (hstart : s.rawOffset.toNat ≤ start.toNat)
    {m : Sighting} (hm : A.findSignature sig start stop = some m)
    (hinside : m.offset.toNat + sig.size ≤ s.rawOffset.toNat + s.mappedCount) :
    B.findSignature sig start stop = some m := by
  have hA := mapped_le_size hs
  have hB : s.rawOffset.toNat + s.mappedCount ≤ B.bytes.size := mapped_le_size (h.sections ▸ hs)
  obtain ⟨hpos, hstands, hleast, hcaptures⟩ := findSignature_eq_some_iff.1 hm
  -- inside the section both images have the same matches
  have hsame : ∀ i, i + sig.size ≤ s.rawOffset.toNat + s.mappedCount →
      (sig.StandsIn A.bytes start.toNat (min stop.toNat A.bytes.size) i ↔
        sig.StandsIn B.bytes start.toNat (min stop.toNat B.bytes.size) i) := by
    intro i hi
    refine and_congr_right fun hstarti => and_congr (by omega) ?_
    exact ((h.bytes s hs).mono (Nat.le_trans hstart hstarti) hi).matches_iff (by omega) (by omega)
  refine findSignature_eq_some_iff.2 ⟨hpos, (hsame _ hinside).1 hstands, ?_, ?_⟩
  · intro i hi
    by_cases hin : i + sig.size ≤ s.rawOffset.toNat + s.mappedCount
    · exact hleast i ((hsame i hin).2 hi)
    · omega
  · rw [hcaptures]
    exact ((h.bytes s hs).mono (Nat.le_trans hstart hstands.1) hinside).capturesFrom_eq (Nat.le_trans hinside hA)
      (Nat.le_trans hinside hB)

/-- **A search inside a section sees mapped bytes alone.** -/
theorem Alike.findSignature (h : A.Alike B) (hs : s ∈ A.sections) (hstart : s.rawOffset.toNat ≤ start.toNat)
    (hstop : stop.toNat ≤ s.rawOffset.toNat + s.mappedCount) :
    A.findSignature sig start stop = B.findSignature sig start stop := by
  have hinside : ∀ {image : Image} {m}, image.findSignature sig start stop = some m →
      m.offset.toNat + sig.size ≤ s.rawOffset.toNat + s.mappedCount := by
    intro image m hm
    have hend := (findSignature_eq_some_iff.1 hm).2.1.2.1
    omega
  refine Option.ext fun m => ⟨fun hm => h.findSignature_of_inside hs hstart hm (hinside hm), fun hm => ?_⟩
  exact h.symm.findSignature_of_inside (h.sections ▸ hs) hstart hm (hinside hm)

/-! ## Calls and the code -/

theorem Alike.toVirtual (h : A.Alike B) (p : UInt32) : A.toVirtual p = B.toVirtual p := by
  rw [Image.toVirtual, Image.toVirtual, h.sections]

theorem Alike.readWord (h : A.Alike B) (hs : s ∈ A.sections) {offset : UInt32}
    (hstart : s.rawOffset.toNat ≤ offset.toNat) (hend : offset.toNat + 4 ≤ s.rawOffset.toNat + s.mappedCount) :
    A.readWord offset = B.readWord offset := by
  have hendA : offset.toNat + 4 ≤ A.bytes.size := Nat.le_trans hend (mapped_le_size hs)
  have hendB : offset.toNat + 4 ≤ B.bytes.size := Nat.le_trans hend (mapped_le_size (h.sections ▸ hs))
  have hextract : A.wordAt offset.toNat = B.wordAt offset.toNat := by
    rw [wordAt, wordAt, ((h.bytes s hs).mono hstart hend).extract_eq hendA hendB]
  rw [readWord_eq_ok_iff.2 ⟨hendA, rfl⟩, readWord_eq_ok_iff.2 ⟨hendB, rfl⟩, hextract]

/-- a call inside a section goes to the same place -/
theorem Alike.callTarget (h : A.Alike B) (hs : s ∈ A.sections) {offset : UInt32}
    (hstart : s.rawOffset.toNat ≤ offset.toNat) (hend : offset.toNat + 5 ≤ s.rawOffset.toNat + s.mappedCount) :
    A.callTarget offset = B.callTarget offset := by
  have hfits := (s.fits_iff.1 (A.isSound.fits s hs)).1
  have hnext : (offset + 1).toNat = offset.toNat + 1 := Word.toNat_add_of_lt (by
    have hone : (1 : UInt32).toNat = 1 := rfl
    omega)
  rw [Image.callTarget, Image.callTarget, h.readWord hs (by omega) (by omega)]
  simp only [h.toVirtual]

end Image

end Landmark
