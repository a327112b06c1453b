/-
The text search finds the lowest occurrence in the first section that has one, and nothing else.

`OccursIn` says what a query asks for at a file offset, without any search: the needle stands there wholly inside the mapped
range of the section, byte for byte as `Same` compares them, and is `Bounded` if the query demands it.
- `finds_findIn`: the search that goes on one byte behind an occurrence that is not bounded misses none.
- `findTextInSection_eq_some_iff`, `findTextInSection_eq_none_iff`: what is found in one section.
- `findText_exact`: what is found in an image, and that both spaces give the same place.
- `findText_plain_eq_some_iff`, `findText_plain_eq_none_iff`: a text of its own is `StoredAt` the address found, or `Absent`.
-/
import Landmark.Image.TextSearch
import Landmark.Proofs.Bytes
import Landmark.Proofs.Image.Translation
import Landmark.Proofs.Search

namespace Landmark

namespace Text

/-- equal but for the case of an ASCII letter -/
def SameButCase (a b : UInt8) : Prop :=
  a = b ∨ (0x41 ≤ a ∧ a ≤ 0x5A ∧ b = a + 0x20) ∨ (0x41 ≤ b ∧ b ≤ 0x5A ∧ a = b + 0x20)

theorem lowerByte_eq_iff {a b : UInt8} : lowerByte a = lowerByte b ↔ SameButCase a b := by
  have h20 : (0x20 : UInt8).toNat = 0x20 := rfl
  have h41 : (0x41 : UInt8).toNat = 0x41 := rfl
  have h5A : (0x5A : UInt8).toNat = 0x5A := rfl
  have ha := a.toNat_lt
  have hb := b.toNat_lt
  unfold lowerByte SameButCase
  simp only [← UInt8.toNat_inj, UInt8.le_iff_toNat_le, apply_ite UInt8.toNat, UInt8.toNat_add, h20, h41, h5A]
  split <;> split <;> omega

end Text

namespace TextQuery

variable (q : TextQuery) {data : Array UInt8} {needle : List UInt8} {start stop i : Nat}

/-- the query takes the two bytes for one -/
def Same (a b : UInt8) : Prop :=
  if q.caseSensitive then a = b else Text.SameButCase a b

/-- byte for byte, the needle stands in the data from `i` on -/
def StandsAt (data : Array UInt8) (needle : List UInt8) (i : Nat) : Prop :=
  MeetsAt q.Same data i needle

/-- a zero byte or the start of the window comes before `i`, and a zero byte inside the window follows `n` bytes later -/
def Bounded (data : Array UInt8) (start stop i n : Nat) : Prop :=
  (i = start ∨ data[i - 1]? = some 0) ∧ i + n < stop ∧ data[i + n]? = some 0

variable {q}

theorem same_iff {a b : UInt8} : q.same a b = true ↔ q.Same a b := by
  unfold same Same
  split
  · exact beq_iff_eq
  · rw [beq_iff_eq, Text.lowerByte_eq_iff]

theorem isBounded_iff {n : Nat} : isBounded data start stop i n = true ↔ Bounded data start stop i n := by
  simp only [isBounded, Bounded, Bool.and_eq_true, Bool.or_eq_true, beq_iff_eq, decide_eq_true_eq, and_assoc]

theorem occurs_iff : q.occurs data stop i needle = true ↔
    (needle ≠ [] → i + needle.length ≤ stop) ∧ q.StandsAt data needle i := by
  induction needle generalizing i with
  | nil => exact iff_of_true rfl ⟨fun h => absurd rfl h, meetsAt_nil⟩
  | cons b bs ih =>
    rw [occurs, StandsAt, meetsAt_cons]
    split
    · next h =>
      have hlength : (b :: bs).length = bs.length + 1 := rfl
      have hroom : (bs ≠ [] → i + 1 + bs.length ≤ stop) ↔ (b :: bs ≠ [] → i + (b :: bs).length ≤ stop) := by
        cases bs with
        | nil => simp; omega
        | cons c bs => simp; omega
      rw [Bool.and_eq_true, same_iff, ih, hroom, Array.getElem?_eq_getElem h.2]
      simp only [StandsAt, Option.some_inj, exists_eq_left', and_left_comm]
    · next h =>
      simp only [Bool.false_eq_true, false_iff]
      rintro ⟨hroom, ⟨c, hc, -⟩, -⟩
      have hsize := (Array.getElem?_eq_some_iff.1 hc).1
      have hend := hroom (List.cons_ne_nil b bs)
      rw [List.length_cons] at hend
      exact h ⟨by omega, hsize⟩

/-- trying every position from `i` on is exhaustive -/
theorem finds_findNeedle (hne : needle ≠ []) :
    Finds (fun k => k + needle.length ≤ stop ∧ q.StandsAt data needle k) i (q.findNeedle data needle stop i) := by
  refine (finds_leastFrom _ i _).congr ?_
  intro k hk
  rw [occurs_iff, imp_iff_right hne, and_iff_right_of_imp]
  · rintro ⟨hend, -⟩
    omega

/-- **Occurrences that are not bounded are passed over, and none behind them is missed.** -/
theorem finds_findIn (hne : needle ≠ []) :
    Finds (fun k => (k + needle.length ≤ stop ∧ q.StandsAt data needle k) ∧
      (q.bounded = true → Bounded data start stop k needle.length)) start (q.findIn data needle start stop) := by
  have hpos : 0 < needle.length := List.length_pos_iff.2 hne
  have hpass : ∀ k, (!q.bounded || isBounded data start stop k needle.length) = true ↔
      (q.bounded = true → Bounded data start stop k needle.length) := by
    intro k
    rw [← isBounded_iff]
    cases q.bounded <;> simp
  rw [findIn, if_neg (by simpa using hne)]
  refine (finds_leastPassing _ (fun k _ => finds_findNeedle hne) ?_).congr ?_
  · rintro k ⟨hend, -⟩
    omega
  · intro k _
    exact and_congr_right fun _ => hpass k

end TextQuery

namespace Image

/-- at the file offset `i`, in the mapped range of the section, the needle stands as the query demands -/
def OccursIn (image : Image) (q : TextQuery) (needle : List UInt8) (s : Section) (i : Nat) : Prop :=
  s.rawOffset.toNat ≤ i ∧ i + needle.length ≤ s.rawOffset.toNat + s.mappedCount ∧ q.StandsAt image.bytes needle i ∧
    (q.bounded = true →
      TextQuery.Bounded image.bytes s.rawOffset.toNat (s.rawOffset.toNat + s.mappedCount) i needle.length)

variable {image : Image} {q : TextQuery} {needle : List UInt8} {s : Section}

/-! ## One section -/

theorem finds_findTextInSection (hs : s ∈ image.sections) (hne : needle ≠ []) :
    Finds (image.OccursIn q needle s) s.rawOffset.toNat (image.findTextInSection needle q s) := by
  rw [findTextInSection, Section.toNat_rawEnd (image.isSound.fits s hs)]
  refine (TextQuery.finds_findIn hne).congr ?_
  intro k hk
  rw [OccursIn, and_assoc, and_iff_right hk]

theorem findTextInSection_nil : image.findTextInSection [] q s = none := rfl

theorem findTextInSection_eq_some_iff (hs : s ∈ image.sections) {i : Nat} :
    image.findTextInSection needle q s = some i ↔
      needle ≠ [] ∧ image.OccursIn q needle s i ∧ ∀ k < i, ¬ image.OccursIn q needle s k := by
  by_cases hne : needle = []
  · subst hne
    simp [findTextInSection_nil]
  · have hfinds : Finds (image.OccursIn q needle s) s.rawOffset.toNat (image.findTextInSection needle q s) :=
      finds_findTextInSection hs hne
    rw [hfinds.eq_some_iff fun k hk => hk.1, and_iff_right hne]

theorem findTextInSection_eq_none_iff (hs : s ∈ image.sections) :
    image.findTextInSection needle q s = none ↔ needle = [] ∨ ∀ i, ¬ image.OccursIn q needle s i := by
  by_cases hne : needle = []
  · subst hne
    simp [findTextInSection_nil]
  · have hfinds : Finds (image.OccursIn q needle s) s.rawOffset.toNat (image.findTextInSection needle q s) :=
      finds_findTextInSection hs hne
    rw [hfinds.eq_none_iff fun k hk => hk.1, or_iff_right hne]

/-- an occurrence is at a mapped offset -/
theorem OccursIn.inFile (hne : needle ≠ []) {p : UInt32} (h : image.OccursIn q needle s p.toNat) : s.InFile p := by
  have hpos : 0 < needle.length := List.length_pos_iff.2 hne
  have hend := h.2.1
  exact ⟨h.1, by omega⟩

theorem OccursIn.lt_size (hs : s ∈ image.sections) {i : Nat} (h : image.OccursIn q needle s i) : i < UInt32.size := by
  have hfits := (s.fits_iff.1 (image.isSound.fits s hs)).1
  have hend := h.2.1
  omega

/-! ## The whole table -/

/-- the section is the first of the table with an occurrence, and the offset is that of its lowest one -/
def FirstOccurrence (image : Image) (q : TextQuery) (needle : List UInt8) (s : Section) (p : UInt32) : Prop :=
  ∃ before after, image.sections = before ++ s :: after ∧ (∀ t ∈ before, ∀ i, ¬ image.OccursIn q needle t i) ∧
    image.OccursIn q needle s p.toNat ∧ ∀ i < p.toNat, ¬ image.OccursIn q needle s i

theorem FirstOccurrence.mem {p : UInt32} (h : image.FirstOccurrence q needle s p) : s ∈ image.sections := by
  obtain ⟨before, after, hsections, -⟩ := h
  rw [hsections]
  exact List.mem_append_right before List.mem_cons_self

/-- section and offset of the first hit -/
def firstHit (image : Image) (needle : List UInt8) (q : TextQuery) : Option (Section × UInt32) :=
  image.sections.findSome? fun s => (image.findTextInSection needle q s).map fun i => (s, UInt32.ofNat i)

theorem firstHit_eq_some_iff {p : UInt32} :
    image.firstHit needle q = some (s, p) ↔ needle ≠ [] ∧ image.FirstOccurrence q needle s p := by
  rw [firstHit, List.findSome?_eq_some_iff]
  constructor
  · rintro ⟨before, t, after, hsections, hhit, hbefore⟩
    obtain ⟨i, hi, heq⟩ := Option.map_eq_some_iff.1 hhit
    obtain ⟨rfl, rfl⟩ := Prod.mk.inj heq
    have ht : t ∈ image.sections := hsections ▸ List.mem_append_right before List.mem_cons_self
    obtain ⟨hne, hocc, hleast⟩ := (findTextInSection_eq_some_iff ht).1 hi
    have hword : (UInt32.ofNat i).toNat = i := UInt32.toNat_ofNat_of_lt' (hocc.lt_size ht)
    refine ⟨hne, before, after, hsections, ?_, by rwa [hword], by rwa [hword]⟩
    intro u hu
    have hmem : u ∈ image.sections := hsections ▸ List.mem_append_left _ hu
    exact ((findTextInSection_eq_none_iff hmem).1 (Option.map_eq_none_iff.1 (hbefore u hu))).resolve_left hne
  · rintro ⟨hne, before, after, hsections, hbefore, hocc, hleast⟩
    have hs : s ∈ image.sections := hsections ▸ List.mem_append_right before List.mem_cons_self
    refine ⟨before, s, after, hsections, ?_, ?_⟩
    · rw [(findTextInSection_eq_some_iff hs).2 ⟨hne, hocc, hleast⟩, Option.map_some, UInt32.ofNat_toNat]
    · intro t ht
      have hmem : t ∈ image.sections := hsections ▸ List.mem_append_left _ ht
      rw [(findTextInSection_eq_none_iff hmem).2 (Or.inr (hbefore t ht)), Option.map_none]

theorem isSome_firstHit_iff :
    (image.firstHit needle q).isSome = true ↔ needle ≠ [] ∧ ∃ s ∈ image.sections, ∃ i, image.OccursIn q needle s i := by
  rw [firstHit, List.findSome?_isSome_iff]
  simp only [Option.isSome_map, Option.isSome_iff_ne_none]
  constructor
  · rintro ⟨s, hs, hne⟩
    rw [Ne, findTextInSection_eq_none_iff hs, not_or, Classical.not_forall_not] at hne
    exact ⟨hne.1, s, hs, hne.2⟩
  · rintro ⟨hne, s, hs, hocc⟩
    refine ⟨s, hs, ?_⟩
    rw [Ne, findTextInSection_eq_none_iff hs, not_or, Classical.not_forall_not]
    exact ⟨hne, hocc⟩

/-- what is hit does not depend on the space of the answer -/
theorem firstHit_space (space : Space) : image.firstHit needle { q with space := space } = image.firstHit needle q := by
  refine Option.ext ?_
  rintro ⟨s, p⟩
  rw [firstHit_eq_some_iff, firstHit_eq_some_iff]
  rfl

theorem findText_eq : image.findText needle q = (image.firstHit needle q).bind fun hit =>
    match q.space with
    | .physical => some hit.2
    | .virtual => hit.1.toVirtual hit.2 := by
  rw [findText, firstHit]
  cases image.sections.findSome? fun s => (image.findTextInSection needle q s).map fun i => (s, UInt32.ofNat i) with
  | none => rfl
  | some hit => rfl

/-- the address of a hit is never lost on the way to the other space -/
theorem toVirtual_firstHit {p : UInt32} (h : image.firstHit needle q = some (s, p)) :
    ∃ v, s.toVirtual p = some v ∧ image.toVirtual p = .ok v := by
  obtain ⟨hne, hfirst⟩ := firstHit_eq_some_iff.1 h
  have hs := hfirst.mem
  obtain ⟨_, _, -, -, hocc, -⟩ := hfirst
  cases hv : s.toVirtual p with
  | none => exact absurd (hocc.inFile hne) ((Section.toVirtual_eq_none_iff (image.isSound.fits s hs)).1 hv)
  | some v => exact ⟨v, rfl, toVirtual_eq_ok_iff.2 ⟨s, hs, hv⟩⟩

theorem isSome_findText : (image.findText needle q).isSome = (image.firstHit needle q).isSome := by
  rw [findText_eq]
  cases h : image.firstHit needle q with
  | none => rfl
  | some hit =>
    obtain ⟨v, hv, -⟩ := toVirtual_firstHit h
    rw [Option.bind_some]
    cases q.space with
    | physical => rfl
    | virtual => simp only [hv]; rfl

theorem findText_physical {p : UInt32} :
    image.findText needle { q with space := .physical } = some p ↔ ∃ s, image.firstHit needle q = some (s, p) := by
  rw [findText_eq, firstHit_space, Option.bind_eq_some_iff]
  constructor
  · rintro ⟨⟨s, p'⟩, hhit, hp⟩
    cases hp
    exact ⟨s, hhit⟩
  · rintro ⟨s, hhit⟩
    exact ⟨(s, p), hhit, rfl⟩

theorem findText_virtual {v : UInt32} : image.findText needle { q with space := .virtual } = some v ↔
    ∃ s p, image.firstHit needle q = some (s, p) ∧ s.toVirtual p = some v := by
  rw [findText_eq, firstHit_space, Option.bind_eq_some_iff]
  constructor
  · rintro ⟨⟨s, p⟩, hhit, hv⟩
    exact ⟨s, p, hhit, hv⟩
  · rintro ⟨s, p, hhit, hv⟩
    exact ⟨(s, p), hhit, hv⟩

/-- the text stands as a string of its own in the mapped bytes, and `v` is the address of the first place -/
def StoredAt (image : Image) (text : String) (v : UInt32) : Prop :=
  ∃ s p, image.FirstOccurrence .plain (rawText text) s p ∧ s.toVirtual p = some v

/-- nowhere in the mapped bytes does the text stand as a string of its own -/
def Absent (image : Image) (text : String) : Prop :=
  ∀ s ∈ image.sections, ∀ i, ¬ image.OccursIn .plain (rawText text) s i

theorem findText_plain_eq_some_iff {text : String} (hne : rawText text ≠ []) {v : UInt32} :
    image.findText (rawText text) .plain = some v ↔ image.StoredAt text v := by
  refine (findText_virtual (q := .plain)).trans (exists₂_congr fun s p => and_congr_left fun _ => ?_)
  rw [firstHit_eq_some_iff, and_iff_right hne]

theorem findText_plain_eq_none_iff {text : String} (hne : rawText text ≠ []) :
    image.findText (rawText text) .plain = none ↔ image.Absent text := by
  rw [← Option.not_isSome_iff_eq_none, isSome_findText, isSome_firstHit_iff, and_iff_right hne]
  simp only [Absent, not_exists, not_and]

/-- a text is stored at one address -/
theorem StoredAt.unique {text : String} (hne : rawText text ≠ []) {v w : UInt32} (hv : image.StoredAt text v)
    (hw : image.StoredAt text w) : v = w := by
  rw [← findText_plain_eq_some_iff hne] at hv hw
  exact Option.some.inj (hv.symm.trans hw)

theorem StoredAt.not_absent {text : String} {v : UInt32} (hv : image.StoredAt text v) : ¬ image.Absent text := by
  intro habsent
  obtain ⟨s, p, hfirst, -⟩ := hv
  have hs := hfirst.mem
  obtain ⟨_, _, -, -, hocc, -⟩ := hfirst
  exact habsent s hs _ hocc

/-- a text is stored nowhere, or at some address -/
theorem absent_or_storedAt (image : Image) {text : String} (hne : rawText text ≠ []) :
    image.Absent text ∨ ∃ v, image.StoredAt text v := by
  cases htext : image.findText (rawText text) .plain with
  | none => exact .inl ((findText_plain_eq_none_iff hne).1 htext)
  | some v => exact .inr ⟨v, (findText_plain_eq_some_iff hne).1 htext⟩

/-- **The text search is exact.** There is an answer exactly if the needle is not empty and occurs in some section as the
query demands. The physical answer is the lowest occurrence in the first section of the table that has one; there is a
virtual answer exactly if there is a physical one, and it is the address that translates back to it. -/
theorem findText_exact (image : Image) (needle : List UInt8) (q : TextQuery) :
    ((image.findText needle q).isSome = true ↔
      needle ≠ [] ∧ ∃ s ∈ image.sections, ∃ i, image.OccursIn q needle s i) ∧
    (∀ p, image.findText needle { q with space := .physical } = some p ↔
      needle ≠ [] ∧ ∃ s, image.FirstOccurrence q needle s p) ∧
    (image.findText needle { q with space := .virtual }).isSome =
      (image.findText needle { q with space := .physical }).isSome ∧
    ∀ v, image.findText needle { q with space := .virtual } = some v ↔
      ∃ p, image.findText needle { q with space := .physical } = some p ∧ image.toPhysical v = .ok p := by
  refine ⟨?_, ?_, ?_, ?_⟩
  · rw [isSome_findText, isSome_firstHit_iff]
  · intro p
    simp only [findText_physical, firstHit_eq_some_iff, exists_and_left]
  · rw [isSome_findText, isSome_findText, firstHit_space .virtual, firstHit_space .physical]
  · intro v
    rw [findText_virtual]
    constructor
    · rintro ⟨s, p, hhit, hv⟩
      have hs := (firstHit_eq_some_iff.1 hhit).2.mem
      exact ⟨p, findText_physical.2 ⟨s, hhit⟩, toVirtual_eq_ok_iff_toPhysical.1 (toVirtual_eq_ok_iff.2 ⟨s, hs, hv⟩)⟩
    · rintro ⟨p, hp, hv⟩
      obtain ⟨s, hhit⟩ := findText_physical.1 hp
      obtain ⟨v', hv', himage⟩ := toVirtual_firstHit hhit
      rw [toVirtual_eq_ok_iff_toPhysical.2 hv] at himage
      cases himage
      exact ⟨s, p, hhit, hv'⟩

/-- a section without a string of its own, then one with two occurrences that overlap before the string -/
def stutterImage : Image where
  bytes := #[0x78, 0x61, 0x61, 0, 0x61, 0x61, 0x41, 0x41, 0x61, 0, 0x41, 0x61, 0]
  sections := [.data ".rdata" 0 6 0x401000, .data ".data" 6 7 0x402000]
  imports := []
  metadata := .unknown
  sound := by decide

theorem stutterImage_found :
    let q := TextQuery.plain.anyCase
    stutterImage.findText [0x61, 0x61] q = some 0x402004 ∧
      (∃ s, stutterImage.FirstOccurrence q [0x61, 0x61] s 10) ∧ stutterImage.toPhysical 0x402004 = .ok 10 := by
  intro q
  obtain ⟨-, hphysical, -, hvirtual⟩ := findText_exact stutterImage [0x61, 0x61] q
  have hp : stutterImage.findText [0x61, 0x61] { q with space := .physical } = some 10 := by decide
  have hv : stutterImage.findText [0x61, 0x61] { q with space := .virtual } = some 0x402004 := by decide
  obtain ⟨p, hp', hback⟩ := (hvirtual 0x402004).1 hv
  obtain rfl : p = 10 := Option.some.inj (hp'.symm.trans hp)
  exact ⟨hv, ((hphysical 10).1 hp).2, hback⟩

end Image

end Landmark
