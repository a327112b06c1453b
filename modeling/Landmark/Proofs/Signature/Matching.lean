/-
What the two steps of a signature search check together.

`masksHold` compares values under masks and `choicesHold` checks choices of bytes; `coarse` is all that the first step sees
of a signature.
- `masksHold_iff`: all masks hold at a position exactly if every byte there agrees with its value under its mask.
- `commonBits_agree`: every byte of a choice passes the bits that the choice agrees on, so the first step rejects no match.
- `matches_iff_coarse_choices`: inside the data, both steps pass exactly where the signature matches.
-/
import Landmark.Proofs.Bytes
import Landmark.Signature.Search

namespace Landmark

/-! ## Masks -/

theorem byteIs_iff {data : Array UInt8} {b : UInt8} {i : Nat} : byteIs data b i = true ↔ data[i]? = some b := by
  unfold byteIs
  split
  · next h => rw [beq_iff_eq, Array.getElem?_eq_getElem h, Option.some_inj]
  · next h => rw [Array.getElem?_eq_none (Nat.le_of_not_lt h)]; simp

theorem masksHold_cons {data : Array UInt8} {v m : UInt8} {rest : List (UInt8 × UInt8)} {i : Nat} :
    masksHold data ((v, m) :: rest) i = true ↔
      (∃ b, data[i]? = some b ∧ b &&& m = v) ∧ masksHold data rest (i + 1) = true := by
  rw [masksHold]
  split
  · next h => simp only [Array.getElem?_eq_getElem h, Option.some_inj, Bool.and_eq_true, beq_iff_eq, exists_eq_left']
  · next h => simp [Array.getElem?_eq_none (Nat.le_of_not_lt h)]

theorem masksHold_singleton {data : Array UInt8} {v m : UInt8} {i : Nat} :
    masksHold data [(v, m)] i = true ↔ ∃ b, data[i]? = some b ∧ b &&& m = v := by
  rw [masksHold_cons, masksHold, and_iff_left rfl]

theorem masksHold_append {data : Array UInt8} {l l' : List (UInt8 × UInt8)} {i : Nat} :
    masksHold data (l ++ l') i = true ↔ masksHold data l i = true ∧ masksHold data l' (i + l.length) = true := by
  induction l generalizing i with
  | nil => simp [masksHold]
  | cons vm l ih =>
    obtain ⟨v, m⟩ := vm
    rw [List.cons_append, masksHold_cons, masksHold_cons, ih, and_assoc, List.length_cons, Nat.add_right_comm,
      Nat.add_assoc i]

/-- every byte agrees with its value under its mask -/
theorem masksHold_iff {data : Array UInt8} {masks : List (UInt8 × UInt8)} {i : Nat} : masksHold data masks i = true ↔
    ∀ k (h : k < masks.length), ∃ b, data[i + k]? = some b ∧ b &&& masks[k].2 = masks[k].1 := by
  change _ ↔ MeetsAt (fun b vm => b &&& vm.2 = vm.1) data i masks
  induction masks generalizing i with
  | nil => exact iff_of_true rfl meetsAt_nil
  | cons vm rest ih => rw [masksHold_cons, ih, meetsAt_cons]

/-! ## Choices -/

/-- a bit in which the values differ is a bit in which one of them differs from the first -/
theorem getLsbD_differ (v : UInt8) (vs : List UInt8) (acc : UInt8) (i : Nat) :
    (vs.foldl (fun acc b => acc ||| (b ^^^ v)) acc).toBitVec.getLsbD i =
      (acc.toBitVec.getLsbD i || vs.any fun b => (b ^^^ v).toBitVec.getLsbD i) := by
  induction vs generalizing acc with
  | nil => simp
  | cons b vs ih => rw [List.foldl_cons, ih, List.any_cons, UInt8.toBitVec_or, BitVec.getLsbD_or, Bool.or_assoc]

namespace Segment

theorem commonBits_agree {vs : List UInt8} {b : UInt8} (hb : b ∈ vs) :
    b &&& (commonBits vs).2 = (commonBits vs).1 := by
  cases vs with
  | nil => contradiction
  | cons v vs =>
    rcases List.mem_cons.1 hb with rfl | hb
    · rfl
    · apply UInt8.eq_of_toBitVec_eq
      apply BitVec.eq_of_getLsbD_eq
      intro i hi
      simp only [commonBits, UInt8.toBitVec_and, UInt8.toBitVec_not, BitVec.getLsbD_and, BitVec.getLsbD_not, hi,
        decide_true, Bool.true_and, getLsbD_differ]
      cases hd : vs.any fun c => (c ^^^ v).toBitVec.getLsbD i with
      | true => simp
      | false =>
        have hbv := List.any_eq_false.1 hd b hb
        rw [UInt8.toBitVec_xor, BitVec.getLsbD_xor] at hbv
        cases h1 : b.toBitVec.getLsbD i <;> cases h2 : v.toBitVec.getLsbD i <;> simp_all

theorem length_lowBytes (w : Width) (v : UInt32) : (lowBytes w v).length = w.size := by
  cases w <;> rfl

theorem getElem?_lowBytes {w : Width} {k : Nat} (hk : k < w.size) (v : UInt32) :
    (lowBytes w v)[k]? = some (UInt8.ofNat (v.toNat / Nat.pow 256 k)) := by
  have hfour : w.size ≤ 4 := by
    cases w <;> decide
  rw [lowBytes, List.getElem?_take_of_lt hk]
  match k, Nat.lt_of_lt_of_le hk hfour with
  | 0, _ => simp [Word.bytes]
  | 1, _ => rfl
  | 2, _ => rfl
  | 3, _ => rfl

/-- a bound capture asks for the bytes that its value is written with -/
theorem matches_bound_iff {data : Array UInt8} {i : Nat} {n : String} {w : Width} {v : UInt32} :
    (capture n w (some v)).Matches data i ↔ StandsAt data i (lowBytes w v) := by
  rw [Matches, StandsAt, length_lowBytes]
  refine forall₂_congr fun k hk => ?_
  rw [getElem?_lowBytes hk]
  constructor
  · rintro ⟨b, hb, hnumber⟩
    rw [hb, Option.some_inj, ← UInt8.toNat_inj, hnumber]
    exact UInt8.toNat_ofNat'.symm
  · intro hb
    exact ⟨_, hb, UInt8.toNat_ofNat'⟩

theorem length_coarse (s : Segment) : s.coarse.length = s.size := by
  cases s with
  | literal bs => exact List.length_map ..
  | wildcard n => exact List.length_replicate
  | masked v m => rfl
  | oneOf vs => rfl
  | capture n w b =>
    cases b with
    | none => exact List.length_replicate
    | some v => rw [coarse, List.length_map, length_lowBytes]; rfl

/-- masks that are full ask for the bytes themselves -/
theorem masksHold_full {data : Array UInt8} {bs : List UInt8} {i : Nat} :
    masksHold data (bs.map fun b => (b, 0xFF)) i = true ↔ StandsAt data i bs := by
  have hfull : ∀ b : UInt8, b &&& 0xFF = b := fun b => UInt8.and_neg_one
  rw [masksHold_iff]
  simp only [List.length_map, List.getElem_map, hfull, exists_eq_right]
  exact forall₂_congr fun k hk => by rw [List.getElem?_eq_getElem hk]

/-- masks that are empty ask for nothing but room -/
theorem masksHold_free {data : Array UInt8} {n i : Nat} (h : i + n ≤ data.size) :
    masksHold data (List.replicate n (0, 0)) i = true := by
  rw [masksHold_iff]
  intro k hk
  rw [List.length_replicate] at hk
  refine ⟨data[i + k], Array.getElem?_eq_getElem (by omega), ?_⟩
  rw [List.getElem_replicate]
  exact UInt8.and_zero

/-- the choice holds, where the segment is one -/
def ChoiceHolds (data : Array UInt8) (i : Nat) : Segment → Prop
  | oneOf vs => ∃ b ∈ vs, data[i]? = some b
  | _ => True

theorem matches_iff {data : Array UInt8} {i : Nat} {s : Segment} (h : i + s.size ≤ data.size) :
    s.Matches data i ↔ masksHold data s.coarse i = true ∧ s.ChoiceHolds data i := by
  cases s with
  | literal bs => exact ⟨fun hm => ⟨masksHold_full.2 hm, trivial⟩, fun hm => masksHold_full.1 hm.1⟩
  | wildcard n => exact ⟨fun _ => ⟨masksHold_free h, trivial⟩, fun _ => trivial⟩
  | masked v m => exact ⟨fun hm => ⟨masksHold_singleton.2 hm, trivial⟩, fun hm => masksHold_singleton.1 hm.1⟩
  | oneOf vs =>
    constructor
    · rintro ⟨b, hb, hi⟩
      exact ⟨masksHold_singleton.2 ⟨b, hi, commonBits_agree hb⟩, b, hb, hi⟩
    · exact fun hm => hm.2
  | capture n w b =>
    cases b with
    | none => exact ⟨fun _ => ⟨masksHold_free h, trivial⟩, fun _ => trivial⟩
    | some v =>
      rw [matches_bound_iff]
      exact ⟨fun hm => ⟨masksHold_full.2 hm, trivial⟩, fun hm => masksHold_full.1 hm.1⟩

end Segment

/-! ## Whole signatures -/

namespace Signature

/-- number of bytes a list of segments covers -/
def sizeAll (l : List Segment) : Nat :=
  l.foldr (fun s n => s.size + n) 0

theorem length_coarse_segments (l : List Segment) : (l.flatMap Segment.coarse).length = sizeAll l := by
  induction l with
  | nil => rfl
  | cons s l ih => rw [List.flatMap_cons, List.length_append, Segment.length_coarse, ih]; rfl

theorem length_coarse (sig : Signature) : sig.coarse.length = sig.size :=
  length_coarse_segments sig.segments

theorem choicesHoldFrom_cons {data : Array UInt8} {i : Nat} {s : Segment} {l : List Segment} :
    choicesHoldFrom data i (s :: l) = true ↔ s.ChoiceHolds data i ∧ choicesHoldFrom data (i + s.size) l = true := by
  cases s <;> simp [choicesHoldFrom, Segment.ChoiceHolds, byteIs_iff]

theorem matchesFrom_iff {data : Array UInt8} {i : Nat} {l : List Segment} (h : i + sizeAll l ≤ data.size) :
    MatchesFrom data i l ↔ masksHold data (l.flatMap Segment.coarse) i = true ∧ choicesHoldFrom data i l = true := by
  induction l generalizing i with
  | nil => simp [MatchesFrom, masksHold, choicesHoldFrom]
  | cons s l ih =>
    have hsize : sizeAll (s :: l) = s.size + sizeAll l := rfl
    rw [MatchesFrom, Segment.matches_iff (by omega), ih (by omega), List.flatMap_cons, masksHold_append,
      Segment.length_coarse, choicesHoldFrom_cons]
    exact and_and_and_comm

/-- **Both steps together check the signature**, wherever it has room. -/
theorem matches_iff_coarse_choices {sig : Signature} {data : Array UInt8} {i : Nat} (h : i + sig.size ≤ data.size) :
    sig.Matches data i ↔ masksHold data sig.coarse i = true ∧ sig.choicesHold data i = true :=
  matchesFrom_iff h

end Signature

end Landmark
