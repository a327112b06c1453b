/-
Signatures byte by byte.

`allowed` says of every byte a signature covers which values may stand there; it does not see where one segment ends and
the next one begins. Any view of that kind is `Additive`: joining neighbours leaves it as it is.
- `flatMap_push`, `flatMap_foldl_push`: an additive view of segments put together is that of the segments in order.
- `matches_iff_allowed`: where it has room, a signature matches exactly if all its bytes are allowed.
- `offset_findSignature_congr`: signatures that allow the same are found at the same places.
-/
import Landmark.Proofs.Signature.Search

namespace Landmark

/-! ## Additive views -/

namespace Segment

/-- a view that does not see where runs of literal or free bytes are cut -/
structure Additive {β : Type} (f : Segment → List β) : Prop where
  literal : ∀ a b, f (.literal (a ++ b)) = f (.literal a) ++ f (.literal b)
  wildcard : ∀ m n, f (.wildcard (m + n)) = f (.wildcard m) ++ f (.wildcard n)

variable {β : Type} {f : Segment → List β}

theorem Additive.merge (hf : Additive f) {s t u : Segment} (h : s.merge? t = some u) : f u = f s ++ f t := by
  cases s with
  | literal a =>
    cases t with
    | literal b => cases h; exact hf.literal a b
    | _ => contradiction
  | wildcard m =>
    cases t with
    | wildcard n => cases h; exact hf.wildcard m n
    | _ => contradiction
  | _ => contradiction

/-- an empty segment shows nothing -/
theorem Additive.eq_nil (hf : Additive f) {s : Segment} (h : s.size = 0) : f s = [] := by
  cases s with
  | literal bs =>
    obtain rfl := List.length_eq_zero_iff.1 h
    exact List.self_eq_append_right.1 (hf.literal [] [])
  | wildcard n =>
    obtain rfl : n = 0 := h
    exact List.self_eq_append_right.1 (hf.wildcard 0 0)
  | masked v m => contradiction
  | oneOf vs => contradiction
  | capture n w b => cases w <;> contradiction

theorem Additive.flatMap_attach (hf : Additive f) (l : List Segment) (s : Segment) :
    (attach l s).flatMap f = l.flatMap f ++ f s := by
  induction l with
  | nil => simp [attach]
  | cons t rest ih =>
    cases rest with
    | nil =>
      rw [attach]
      cases h : t.merge? s with
      | none => simp
      | some u => simp [hf.merge h]
    | cons u rest => rw [attach, List.flatMap_cons, ih, ← List.append_assoc, ← List.flatMap_cons]

end Segment

namespace Signature

open Segment

variable {β : Type} {f : Segment → List β}

theorem flatMap_push (hf : Additive f) (sig : Signature) (s : Segment) :
    (sig.push s).segments.flatMap f = sig.segments.flatMap f ++ f s := by
  unfold push
  split
  · next h => rw [hf.eq_nil h, List.append_nil]
  · exact hf.flatMap_attach sig.segments s

/-- **Putting segments together adds up what is seen of them.** -/
theorem flatMap_foldl_push (hf : Additive f) (sig : Signature) (l : List Segment) :
    (l.foldl push sig).segments.flatMap f = sig.segments.flatMap f ++ l.flatMap f := by
  induction l generalizing sig with
  | nil => rw [List.foldl_nil, List.flatMap_nil, List.append_nil]
  | cons s l ih => rw [List.foldl_cons, ih, flatMap_push hf, List.flatMap_cons, List.append_assoc]

end Signature

/-! ## What each byte may be -/

/-- from `i` on, every byte is there and passes its test -/
def PassesAt (data : Array UInt8) (i : Nat) (tests : List (UInt8 → Bool)) : Prop :=
  MeetsAt (fun b test => test b = true) data i tests

namespace Segment

/-- for every byte covered, the test that the byte has to pass -/
def allowed : Segment → List (UInt8 → Bool)
  | literal bs => bs.map fun b c => c == b
  | wildcard n => List.replicate n fun _ => true
  | masked v m => [fun c => c &&& m == v &&& m]
  | oneOf vs => [fun c => vs.contains c]
  | capture _ w (some v) => (lowBytes w v).map fun b c => c == b
  | capture _ w none => List.replicate w.size fun _ => true

theorem additive_allowed : Additive allowed where
  literal _ _ := List.map_append
  wildcard _ _ := List.replicate_append_replicate.symm

theorem length_allowed (s : Segment) : s.allowed.length = s.size := by
  cases s with
  | literal bs => exact List.length_map ..
  | wildcard n => exact List.length_replicate
  | masked v m => rfl
  | oneOf vs => rfl
  | capture n w b =>
    cases b with
    | none => exact List.length_replicate
    | some v => rw [allowed, List.length_map, length_lowBytes]; rfl

/-- bytes stand in their place exactly if each of them is the one asked for -/
theorem passesAt_bytes {data : Array UInt8} {i : Nat} {bs : List UInt8} :
    PassesAt data i (bs.map fun b c => c == b) ↔ StandsAt data i bs := by
  simp only [PassesAt, MeetsAt, StandsAt, List.length_map, List.getElem_map, beq_iff_eq, exists_eq_right]
  exact forall₂_congr fun k hk => by rw [List.getElem?_eq_getElem hk]

/-- a byte string that stands somewhere ends inside the data -/
theorem StandsAt.length_le {data : Array UInt8} {i : Nat} {bs : List UInt8} (h : StandsAt data i bs) (hpos : 0 < bs.length) :
    i + bs.length ≤ data.size := by
  have hlast := h (bs.length - 1) (by omega)
  rw [List.getElem?_eq_getElem (by omega)] at hlast
  have hlt := (Array.getElem?_eq_some_iff.1 hlast).1
  omega

theorem standsAt_append {data : Array UInt8} {i : Nat} {u v : List UInt8} :
    StandsAt data i (u ++ v) ↔ StandsAt data i u ∧ StandsAt data (i + u.length) v := by
  rw [← passesAt_bytes, ← passesAt_bytes, ← passesAt_bytes, List.map_append, PassesAt, meetsAt_append, List.length_map]
  rfl

/-- free bytes only have to be there -/
theorem passesAt_free {data : Array UInt8} {i n : Nat} (h : i + n ≤ data.size) :
    PassesAt data i (List.replicate n fun _ => true) := by
  intro k hk
  rw [List.length_replicate] at hk
  refine ⟨data[i + k], Array.getElem?_eq_getElem (by omega), ?_⟩
  rw [List.getElem_replicate]

theorem matches_iff_allowed {data : Array UInt8} {i : Nat} {s : Segment} (h : i + s.size ≤ data.size) :
    s.Matches data i ↔ PassesAt data i s.allowed := by
  cases s with
  | literal bs => exact passesAt_bytes.symm
  | wildcard n => exact iff_of_true trivial (passesAt_free h)
  | masked v m =>
    rw [allowed, PassesAt, meetsAt_singleton]
    simp only [Matches, beq_iff_eq]
  | oneOf vs =>
    rw [allowed, PassesAt, meetsAt_singleton]
    simp only [Matches, List.contains_iff_mem, and_comm]
  | capture n w b =>
    cases b with
    | none => exact iff_of_true trivial (passesAt_free h)
    | some v => exact matches_bound_iff.trans passesAt_bytes.symm

end Segment

namespace Signature

/-- for every byte covered, the test that the byte has to pass -/
def allowed (sig : Signature) : List (UInt8 → Bool) :=
  sig.segments.flatMap Segment.allowed

theorem length_flatMap_allowed (l : List Segment) : (l.flatMap Segment.allowed).length = sizeAll l := by
  induction l with
  | nil => rfl
  | cons s l ih => rw [List.flatMap_cons, List.length_append, Segment.length_allowed, ih]; rfl

theorem length_allowed (sig : Signature) : sig.allowed.length = sig.size :=
  length_flatMap_allowed sig.segments

theorem matchesFrom_iff_allowed {data : Array UInt8} {i : Nat} {l : List Segment} (h : i + sizeAll l ≤ data.size) :
    MatchesFrom data i l ↔ PassesAt data i (l.flatMap Segment.allowed) := by
  induction l generalizing i with
  | nil => exact iff_of_true trivial meetsAt_nil
  | cons s l ih =>
    have hsize : sizeAll (s :: l) = s.size + sizeAll l := rfl
    rw [MatchesFrom, Segment.matches_iff_allowed (by omega), ih (by omega), List.flatMap_cons]
    simp only [PassesAt, meetsAt_append, Segment.length_allowed]

/-- **A signature matches where every byte passes its test.** -/
theorem matches_iff_allowed {sig : Signature} {data : Array UInt8} {i : Nat} (h : i + sig.size ≤ data.size) :
    sig.Matches data i ↔ PassesAt data i sig.allowed :=
  matchesFrom_iff_allowed h

/-- signatures that allow the same match at the same places -/
theorem matches_congr {p q : Signature} (h : q.allowed = p.allowed) {data : Array UInt8} {i : Nat}
    (hroom : i + p.size ≤ data.size) : q.Matches data i ↔ p.Matches data i := by
  have hsize : q.size = p.size := by
    rw [← length_allowed, h, length_allowed]
  rw [matches_iff_allowed hroom, matches_iff_allowed (hsize ▸ hroom), h]

end Signature

/-- **Signatures that allow the same are found at the same places.** -/
theorem Image.offset_findSignature_congr (image : Image) {p q : Signature} (h : q.allowed = p.allowed)
    (start stop : UInt32) :
    (image.findSignature q start stop).map (·.offset) = (image.findSignature p start stop).map (·.offset) := by
  have hsize : q.size = p.size := by
    rw [← q.length_allowed, h, p.length_allowed]
  rcases Nat.eq_zero_or_pos p.size with hzero | hpos
  · have hnone : ∀ sig : Signature, sig.size = 0 → image.findSignature sig start stop = none := by
      intro sig hsig
      rw [findSignature, Signature.findIn_eq_none_of_size_eq_zero hsig]
      rfl
    rw [hnone p hzero, hnone q (hsize.trans hzero)]
  · have hp := image.finds_findSignature p hpos start stop
    have hq := image.finds_findSignature q (hsize ▸ hpos) start stop
    have hqp : Finds (fun k => k + p.size ≤ min stop.toNat image.bytes.size ∧ p.Matches image.bytes k) start.toNat
        ((image.findSignature q start stop).map fun m => m.offset.toNat) := by
      refine hq.congr fun k _ => ?_
      rw [hsize]
      exact and_congr_right fun hk => Signature.matches_congr h (Nat.le_trans hk (Nat.min_le_right _ _))
    have hoffsets := hqp.unique hp
    refine Option.map_injective (fun a b => UInt32.toNat_inj.1) ?_
    rw [Option.map_map, Option.map_map]
    exact hoffsets

end Landmark
