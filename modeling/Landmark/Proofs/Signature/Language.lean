/-
The byte strings a signature accepts, and where such strings stand in an image.

`Accepts` looks at a byte string of just the size of the signature. What is accepted is known from the parts of a signature
(`accepts_append` and one lemma for each kind of segment), so that a template can be compared with the encodings it is meant
for. A search then says where one of these strings stands first (`FirstCode`), without a word about signatures.
- `matches_iff_accepted`: a signature matches where a string stands that it accepts.
- `firstCode_iff`: the search of an image for a signature that accepts exactly the strings of one kind.
-/
import Landmark.Proofs.Signature.Concatenation
import Mathlib.Data.List.Forall2

namespace Landmark

namespace Signature

open Segment

/-! ## Accepted strings -/

/-- byte for byte, the string is as the signature asks -/
def Accepts (sig : Signature) (bs : List UInt8) : Prop :=
  List.Forall₂ (fun b test => test b = true) bs sig.allowed

theorem Accepts.length_eq {sig : Signature} {bs : List UInt8} (h : sig.Accepts bs) : bs.length = sig.size :=
  (List.Forall₂.length_eq h).trans sig.length_allowed

/-- **A signature matches where a string stands that it accepts.** -/
theorem matches_iff_accepted {sig : Signature} {data : Array UInt8} {i : Nat} (h : i + sig.size ≤ data.size) :
    sig.Matches data i ↔ ∃ bs, sig.Accepts bs ∧ StandsAt data i bs := by
  rw [matches_iff_allowed h]
  constructor
  · intro hpass
    refine ⟨(data.extract i (i + sig.size)).toList, List.forall₂_iff_get.2 ⟨?_, ?_⟩, ?_⟩
    · rw [Array.length_toList, Array.size_extract, length_allowed]
      omega
    · intro k hk hk'
      obtain ⟨b, hb, htest⟩ := hpass k hk'
      rw [length_allowed] at hk'
      have hget : (data.extract i (i + sig.size)).toList[k]? = some b := by
        rw [Array.getElem?_toList, getElem?_extract_of_lt h (by omega), hb]
      obtain ⟨_, rfl⟩ := List.getElem?_eq_some_iff.1 hget
      exact htest
    · intro k hk
      rw [Array.length_toList, Array.size_extract] at hk
      rw [Array.getElem?_toList, getElem?_extract_of_lt h (by omega)]
  · rintro ⟨bs, haccepts, hstands⟩ k hk
    have hlength := List.Forall₂.length_eq haccepts
    obtain ⟨-, hget⟩ := List.forall₂_iff_get.1 haccepts
    refine ⟨bs[k], ?_, hget k (by omega) hk⟩
    rw [hstands k (by omega), List.getElem?_eq_getElem]

theorem allowed_append (a b : Signature) : (a ++ b).allowed = a.allowed ++ b.allowed :=
  flatMap_foldl_push additive_allowed a b.segments

/-- a signature made of two matches where they do, one behind the other -/
theorem matches_append {a b : Signature} {data : Array UInt8} {i : Nat} (h : i + (a ++ b).size ≤ data.size) :
    (a ++ b).Matches data i ↔ a.Matches data i ∧ b.Matches data (i + a.size) := by
  have hsize := size_append a b
  rw [matches_iff_allowed h, allowed_append, matches_iff_allowed (by omega), matches_iff_allowed (by omega),
    ← length_allowed a]
  exact meetsAt_append

theorem allowed_push (s : Segment) : (empty.push s).allowed = s.allowed :=
  flatMap_push additive_allowed empty s

theorem accepts_append {a b : Signature} {bs : List UInt8} :
    (a ++ b).Accepts bs ↔ ∃ u v, bs = u ++ v ∧ a.Accepts u ∧ b.Accepts v := by
  unfold Accepts
  rw [allowed_append]
  constructor
  · intro h
    exact ⟨_, _, (List.take_append_drop a.allowed.length bs).symm, List.forall₂_take_append _ _ _ h,
      List.forall₂_drop_append _ _ _ h⟩
  · rintro ⟨u, v, rfl, hu, hv⟩
    exact List.rel_append hu hv

theorem accepts_literal {cs bs : List UInt8} : (literal cs).Accepts bs ↔ bs = cs := by
  rw [Accepts, literal, allowed_push, Segment.allowed, List.forall₂_map_right_iff]
  simp only [beq_iff_eq, List.forall₂_eq_eq_eq]

theorem accepts_any {n : Nat} {bs : List UInt8} : (any n).Accepts bs ↔ bs.length = n := by
  rw [Accepts, any, allowed_push, Segment.allowed, List.forall₂_iff_get]
  simp only [List.length_replicate, List.get_eq_getElem, List.getElem_replicate, implies_true, and_true]

theorem accepts_masked {v m : UInt8} {bs : List UInt8} :
    (masked v m).Accepts bs ↔ ∃ b, bs = [b] ∧ b &&& m = v &&& m := by
  rw [Accepts, masked, allowed_push, Segment.allowed, List.forall₂_cons_right_iff]
  simp only [beq_iff_eq, List.forall₂_nil_right_iff]
  constructor
  · rintro ⟨b, _, hb, rfl, h⟩
    exact ⟨b, h, hb⟩
  · rintro ⟨b, h, hb⟩
    exact ⟨b, [], hb, rfl, h⟩

theorem accepts_oneOf {vs bs : List UInt8} : (oneOf vs).Accepts bs ↔ ∃ b ∈ vs, bs = [b] := by
  rw [Accepts, oneOf, allowed_push, Segment.allowed, List.forall₂_cons_right_iff]
  simp only [List.contains_iff_mem, List.forall₂_nil_right_iff]
  constructor
  · rintro ⟨b, _, hb, rfl, h⟩
    exact ⟨b, hb, h⟩
  · rintro ⟨b, hb, h⟩
    exact ⟨b, [], hb, rfl, h⟩

theorem accepts_capture {name : String} {w : Width} {bs : List UInt8} :
    (capture name w).Accepts bs ↔ bs.length = w.size := by
  rw [← accepts_any, Accepts, Accepts, capture, any, allowed_push, allowed_push]
  rfl

end Signature

/-! ## Code in an image -/

namespace Image

open Segment

/-- code of one kind takes up the file from `i` to `j` -/
def CodeAt (image : Image) (kind : List UInt8 → Prop) (i j : Nat) : Prop :=
  ∃ bs, kind bs ∧ j = i + bs.length ∧ StandsAt image.bytes i bs

/-- the code from `i` to `j` is the first of its kind that lies wholly in the window from `start` to `stop` -/
structure FirstCode (image : Image) (kind : List UInt8 → Prop) (start stop i j : Nat) : Prop where
  start_le : start ≤ i
  le_stop : j ≤ stop
  code : image.CodeAt kind i j
  first : ∀ i' j', start ≤ i' → j' ≤ stop → image.CodeAt kind i' j' → i ≤ i'

variable {image : Image} {kind : List UInt8 → Prop} {sig : Signature}

/-- code that a signature is for takes up as many bytes -/
theorem CodeAt.end_eq (h : ∀ bs, sig.Accepts bs ↔ kind bs) {i j : Nat} (hcode : image.CodeAt kind i j) :
    j = i + sig.size := by
  obtain ⟨bs, hbs, rfl, -⟩ := hcode
  rw [((h bs).2 hbs).length_eq]

theorem codeAt_iff_matches (h : ∀ bs, sig.Accepts bs ↔ kind bs) (hpos : 0 < sig.size) {i : Nat} :
    image.CodeAt kind i (i + sig.size) ↔ i + sig.size ≤ image.bytes.size ∧ sig.Matches image.bytes i := by
  constructor
  · rintro ⟨bs, hbs, hlength, hstands⟩
    have haccepts := (h bs).2 hbs
    have hroom := hstands.length_le (by rw [haccepts.length_eq]; exact hpos)
    rw [haccepts.length_eq] at hroom
    exact ⟨hroom, (Signature.matches_iff_accepted hroom).2 ⟨bs, haccepts, hstands⟩⟩
  · rintro ⟨hroom, hmatches⟩
    obtain ⟨bs, haccepts, hstands⟩ := (Signature.matches_iff_accepted hroom).1 hmatches
    exact ⟨bs, (h bs).1 haccepts, by rw [haccepts.length_eq], hstands⟩

/-- **A search for a signature finds the first code of the kind that it accepts.** -/
theorem firstCode_iff (h : ∀ bs, sig.Accepts bs ↔ kind bs) (hpos : 0 < sig.size) {start stop : UInt32} {i j : Nat} :
    image.FirstCode kind start.toNat stop.toNat i j ↔
      ∃ m, image.findSignature sig start stop = some m ∧ m.offset.toNat = i ∧ (m.stop sig).toNat = j := by
  have hfinds : Finds (fun k => k + sig.size ≤ stop.toNat ∧ image.CodeAt kind k (k + sig.size)) start.toNat
      ((image.findSignature sig start stop).map fun m => m.offset.toNat) := by
    refine (image.finds_findSignature sig hpos start stop).congr fun k _ => ?_
    rw [codeAt_iff_matches h hpos, Nat.le_min, and_assoc]
  have hend : ∀ m : Sighting, m.offset.toNat + sig.size ≤ stop.toNat → (m.stop sig).toNat = m.offset.toNat + sig.size := by
    intro m hm
    have hstop := stop.toNat_lt
    rw [Sighting.stop, UInt32.toNat_add, UInt32.toNat_ofNat']
    omega
  constructor
  · intro hfirst
    have hj := hfirst.code.end_eq h
    subst hj
    have hfound : (image.findSignature sig start stop).map (fun m => m.offset.toNat) = some i := by
      refine hfinds.unique ⟨hfirst.start_le, ⟨hfirst.le_stop, hfirst.code⟩, fun k hk hlt hcode => ?_⟩
      exact Nat.not_lt.2 (hfirst.first k _ hk hcode.1 hcode.2) hlt
    obtain ⟨m, hm, rfl⟩ := Option.map_eq_some_iff.1 hfound
    exact ⟨m, hm, rfl, hend m hfirst.le_stop⟩
  · rintro ⟨m, hm, rfl, rfl⟩
    rw [hm, Option.map_some] at hfinds
    have hroom := hfinds.2.1.1
    rw [hend m hroom]
    refine ⟨hfinds.1, hroom, hfinds.2.1.2, fun i' j' hi hj hcode => ?_⟩
    have hj' := hcode.end_eq h
    subst hj'
    exact hfinds.le hi ⟨hj, hcode⟩

theorem findSignature_eq_none_iff (h : ∀ bs, sig.Accepts bs ↔ kind bs) (hpos : 0 < sig.size) {start stop : UInt32} :
    image.findSignature sig start stop = none ↔ ∀ i j, ¬ image.FirstCode kind start.toNat stop.toNat i j := by
  simp only [firstCode_iff h hpos]
  constructor
  · rintro hnone i j ⟨m, hm, -⟩
    rw [hnone] at hm
    contradiction
  · intro hnot
    exact Option.eq_none_iff_forall_ne_some.2 fun m hm => hnot _ _ ⟨m, hm, rfl, rfl⟩

/-- the code from `i` to `j` is the first of its kind in the code -/
def FirstInCode (image : Image) (kind : List UInt8 → Prop) (i j : Nat) : Prop :=
  image.FirstCode kind image.codeRange.1.toNat image.codeRange.2.toNat i j

theorem firstInCode_iff (h : ∀ bs, sig.Accepts bs ↔ kind bs) (hpos : 0 < sig.size) {i j : Nat} :
    image.FirstInCode kind i j ↔
      ∃ m, image.findInCode sig = some m ∧ m.offset.toNat = i ∧ (m.stop sig).toNat = j :=
  firstCode_iff h hpos

theorem findInCode_eq_none_iff (h : ∀ bs, sig.Accepts bs ↔ kind bs) (hpos : 0 < sig.size) :
    image.findInCode sig = none ↔ ∀ i j, ¬ image.FirstInCode kind i j :=
  findSignature_eq_none_iff h hpos

end Image

end Landmark
