/-
Signatures one after the other.

Joining at the seam makes the segments of `a ++ b` more than those of `a` and then those of `b`. That `++` is associative all
the same rests on tightness: a segment that is joined to its left neighbour is joined with the same result before and after
its right neighbour has been joined to it (`attach_attach`).
- `reached_iff`: the segment lists that pushing and binding can reach are those of signatures.
- `append_assoc`, `empty_append`: the laws of a monoid; `sum_eq_collect`: brackets do not matter.
- `literal_append`, `replicate_literal`: literals one after the other are one literal.
- `sweep_append`: what is read off the segments with their positions adds up.
- `concatenation_laws`: all of it together.
-/
import Landmark.Proofs.Signature.Bytes
import Mathlib.Data.List.Chain

namespace Landmark

/-! ## The seam -/

namespace Segment

/-- three neighbours of a kind become one segment, whichever two are joined first -/
theorem merge_assoc {s t u v w : Segment} (hst : s.merge? t = some v) (htu : t.merge? u = some w) :
    ∃ x, v.merge? u = some x ∧ s.merge? w = some x := by
  cases s with
  | literal a =>
    cases t with
    | literal b =>
      cases u with
      | literal c => cases hst; cases htu; exact ⟨_, rfl, by rw [merge?, List.append_assoc]⟩
      | _ => contradiction
    | _ => contradiction
  | wildcard l =>
    cases t with
    | wildcard m =>
      cases u with
      | wildcard n => cases hst; cases htu; exact ⟨_, rfl, by rw [merge?, Nat.add_assoc]⟩
      | _ => contradiction
    | _ => contradiction
  | _ => contradiction

theorem attach_ne_nil (l : List Segment) (s : Segment) : attach l s ≠ [] := by
  cases l with
  | nil => exact List.cons_ne_nil _ _
  | cons t rest =>
    cases rest with
    | nil =>
      rw [attach]
      cases t.merge? s <;> exact List.cons_ne_nil _ _
    | cons u rest => exact List.cons_ne_nil _ _

theorem attach_cons {l : List Segment} (h : l ≠ []) (t s : Segment) : attach (t :: l) s = t :: attach l s := by
  cases l with
  | nil => contradiction
  | cons u rest => rfl

/-- a segment that cannot be joined to the last one stands behind it -/
theorem attach_of_apart {l : List Segment} {s : Segment} (h : ∀ t ∈ l.getLast?, t.merge? s = none) :
    attach l s = l ++ [s] := by
  induction l with
  | nil => rfl
  | cons t rest ih =>
    cases rest with
    | nil =>
      have ht : t.merge? s = none := h t rfl
      rw [attach, ht]
      rfl
    | cons u rest =>
      have hrest : ∀ v ∈ (u :: rest).getLast?, v.merge? s = none := by
        rwa [List.getLast?_cons_cons] at h
      rw [attach, ih hrest]
      rfl

/-- **Two segments that can be joined may be joined before or after the first of them is added.** -/
theorem attach_attach {s t u : Segment} (h : s.merge? t = some u) (l : List Segment) :
    attach (attach l s) t = attach l u := by
  induction l with
  | nil => simp [attach, h]
  | cons v rest ih =>
    cases rest with
    | nil =>
      cases hv : v.merge? s with
      | none =>
        have hu : v.merge? u = none := (merge_congr h).2 hv
        simp [attach, hv, hu, h]
      | some w =>
        obtain ⟨x, hw, hu⟩ := merge_assoc hv h
        simp [attach, hv, hw, hu]
    | cons w rest => rw [attach_cons (List.cons_ne_nil _ _), attach_cons (attach_ne_nil _ _), ih,
        attach_cons (List.cons_ne_nil _ _)]

end Segment

namespace Signature

open Segment

theorem ext_segments {a b : Signature} (h : a.segments = b.segments) : a = b := by
  obtain ⟨l, hl⟩ := a
  obtain ⟨l', hl'⟩ := b
  obtain rfl : l = l' := h
  rfl

theorem segments_push {s : Segment} (h : s.size ≠ 0) (sig : Signature) : (sig.push s).segments = attach sig.segments s := by
  rw [push, dif_neg h]

theorem push_of_empty {s : Segment} (h : s.size = 0) (sig : Signature) : sig.push s = sig := by
  rw [push, dif_pos h]

/-! ## Associativity -/

theorem push_push {s t u : Segment} (h : s.merge? t = some u) (hs : s.size ≠ 0) (ht : t.size ≠ 0) (sig : Signature) :
    (sig.push s).push t = sig.push u := by
  have hu : u.size ≠ 0 := by
    rw [size_merge h]; omega
  apply ext_segments
  rw [segments_push ht, segments_push hs, segments_push hu, attach_attach h]

theorem foldl_push_attach {l : List Segment} (hl : ∀ t ∈ l, t.size ≠ 0) {s : Segment} (hs : s.size ≠ 0)
    (sig : Signature) : (attach l s).foldl push sig = (l.foldl push sig).push s := by
  induction l generalizing sig with
  | nil => rfl
  | cons t rest ih =>
    cases rest with
    | nil =>
      rw [attach]
      cases h : t.merge? s with
      | none => rfl
      | some u => exact (push_push h (hl t List.mem_cons_self) hs sig).symm
    | cons u rest =>
      rw [attach_cons (List.cons_ne_nil _ _), List.foldl_cons, ih fun v hv => hl v (List.mem_cons_of_mem _ hv)]
      rfl

theorem size_ne_zero_of_tight {l : List Segment} (h : Tight l) : ∀ s ∈ l, s.size ≠ 0 := by
  induction l with
  | nil => exact fun s hs => absurd hs List.not_mem_nil
  | cons t rest ih =>
    intro s hs
    rcases List.mem_cons.1 hs with rfl | hs
    · exact h.1
    · exact ih h.2.2 s hs

theorem append_eq (a b : Signature) : a ++ b = b.segments.foldl push a := rfl

/-- adding a segment to the second of two signatures adds it to both together -/
theorem append_push (a b : Signature) (s : Segment) : a ++ b.push s = (a ++ b).push s := by
  by_cases hs : s.size = 0
  · rw [push_of_empty hs, push_of_empty hs]
  · rw [append_eq, segments_push hs, foldl_push_attach (size_ne_zero_of_tight b.tight) hs, append_eq]

theorem append_foldl_push (a b : Signature) (l : List Segment) : a ++ l.foldl push b = l.foldl push (a ++ b) := by
  induction l generalizing b with
  | nil => rfl
  | cons s l ih => rw [List.foldl_cons, List.foldl_cons, ih, append_push]

/-- **Three signatures make one, whichever two are put together first.** -/
theorem append_assoc (a b c : Signature) : a ++ b ++ c = a ++ (b ++ c) :=
  (append_foldl_push a b c.segments).symm

/-! ## The signature without segments -/

theorem append_empty (a : Signature) : a ++ empty = a := rfl

/-- segments that are tight as they stand are added as they stand -/
theorem segments_foldl_push {l : List Segment} (hl : Tight l) {sig : Signature}
    (hseam : ∀ t ∈ sig.segments.getLast?, ∀ s ∈ l.head?, t.merge? s = none) :
    (l.foldl push sig).segments = sig.segments ++ l := by
  induction l generalizing sig with
  | nil => exact (List.append_nil _).symm
  | cons s rest ih =>
    obtain ⟨hs, hnext, hrest⟩ := hl
    have hpush : (sig.push s).segments = sig.segments ++ [s] := by
      rw [segments_push hs, attach_of_apart fun t ht => hseam t ht s rfl]
    have hlast : ∀ t ∈ (sig.push s).segments.getLast?, ∀ u ∈ rest.head?, t.merge? u = none := by
      rw [hpush, List.getLast?_concat]
      intro t ht
      cases ht
      exact hnext
    rw [List.foldl_cons, ih hrest hlast, hpush, List.append_assoc]
    rfl

theorem foldl_push_empty (sig : Signature) : sig.segments.foldl push empty = sig :=
  ext_segments (segments_foldl_push sig.tight fun t ht => absurd ht (Option.not_mem_none t))

theorem empty_append (a : Signature) : empty ++ a = a :=
  foldl_push_empty a

/-! ## Normal form -/

/-- both are literal, or both are free -/
def OneKind : Segment → Segment → Prop
  | .literal _, .literal _ => True
  | .wildcard _, .wildcard _ => True
  | _, _ => False

theorem not_oneKind_of_merge {s t : Segment} (h : s.merge? t = none) : ¬ OneKind s t := by
  cases s <;> cases t <;> simp_all [Segment.merge?, OneKind]

theorem isChain_of_tight {l : List Segment} (h : Tight l) : l.IsChain fun s t => ¬ OneKind s t := by
  induction l with
  | nil => exact .nil
  | cons s rest ih =>
    obtain ⟨-, hnext, hrest⟩ := h
    cases rest with
    | nil => exact .singleton s
    | cons t rest => exact .cons_cons (not_oneKind_of_merge (hnext t rfl)) (ih hrest)

theorem eq_nil_iff_of_tight {l : List Segment} (h : Tight l) : l = [] ↔ sizeAll l = 0 := by
  cases l with
  | nil => exact iff_of_true rfl rfl
  | cons s rest =>
    have hs : s.size ≠ 0 := h.1
    have hsize : sizeAll (s :: rest) = s.size + sizeAll rest := rfl
    exact iff_of_false (List.cons_ne_nil _ _) (by omega)

/-! ## What can be reached -/

/-- segment lists that come about by adding segments and giving captures values -/
inductive Reached : List Segment → Prop where
  | empty : Reached []
  | push {l : List Segment} (h : Reached l) (s : Segment) : Reached (if s.size = 0 then l else attach l s)
  | bind {l : List Segment} (h : Reached l) (name : String) (value : UInt32) : Reached (l.map (Segment.bind name value))

theorem Reached.tight {l : List Segment} (h : Reached l) : Tight l := by
  induction h with
  | empty => trivial
  | push _ s ih =>
    split
    · exact ih
    · next hs => exact tight_attach ih hs
  | bind _ name value ih => exact tight_map_bind name value ih

theorem reached_foldl_push {sig : Signature} (h : Reached sig.segments) (l : List Segment) :
    Reached (l.foldl push sig).segments := by
  induction l generalizing sig with
  | nil => exact h
  | cons s l ih =>
    refine ih ?_
    have hs := h.push s
    by_cases hzero : s.size = 0
    · rw [push_of_empty hzero]
      exact h
    · rw [if_neg hzero] at hs
      rw [segments_push hzero]
      exact hs

/-- **Signatures are what can be reached**, and nothing else can. -/
theorem reached_iff {l : List Segment} : Reached l ↔ ∃ sig : Signature, sig.segments = l := by
  constructor
  · intro h
    exact ⟨⟨l, h.tight⟩, rfl⟩
  · rintro ⟨sig, rfl⟩
    rw [← foldl_push_empty sig]
    exact reached_foldl_push Reached.empty sig.segments

/-! ## Brackets -/

theorem foldl_append_eq (a : Signature) (l : List Signature) : l.foldl append a = a ++ collect l := by
  induction l generalizing a with
  | nil => rfl
  | cons b l ih =>
    have hb : collect (b :: l) = b ++ collect l := by
      rw [collect, List.foldl_cons, ih]
      exact congrArg (· ++ collect l) (empty_append b)
    rw [List.foldl_cons, ih, hb]
    exact append_assoc a b (collect l)

theorem collect_cons (a : Signature) (l : List Signature) : collect (a :: l) = a ++ collect l := by
  rw [collect, List.foldl_cons, foldl_append_eq]
  exact congrArg (· ++ collect l) (empty_append a)

theorem collect_append (l l' : List Signature) : collect (l ++ l') = collect l ++ collect l' := by
  rw [collect, List.foldl_append, foldl_append_eq]
  rfl

/-- signatures in order, with brackets around some of them -/
inductive Bracketing where
  | one (sig : Signature)
  | both (left right : Bracketing)

namespace Bracketing

/-- the signatures without the brackets -/
def members : Bracketing → List Signature
  | one sig => [sig]
  | both l r => l.members ++ r.members

/-- all of them put together as the brackets say -/
def sum : Bracketing → Signature
  | one sig => sig
  | both l r => l.sum ++ r.sum

/-- **Brackets do not matter.** -/
theorem sum_eq_collect (g : Bracketing) : g.sum = collect g.members := by
  induction g with
  | one sig => exact (empty_append sig).symm
  | both l r hl hr => rw [sum, hl, hr, members, collect_append]

end Bracketing

theorem replicate_add (m n : Nat) (sig : Signature) : replicate (m + n) sig = replicate m sig ++ replicate n sig := by
  rw [replicate, ← List.replicate_append_replicate, collect_append]
  rfl

/-! ## Literals -/

theorem literal_append (a b : List UInt8) : literal a ++ literal b = literal (a ++ b) := by
  rcases eq_or_ne a [] with rfl | ha
  · exact empty_append (literal b)
  rcases eq_or_ne b [] with rfl | hb
  · rw [List.append_nil]
    exact append_empty (literal a)
  · have hsize : ∀ {bs : List UInt8}, bs ≠ [] → (Segment.literal bs).size ≠ 0 :=
      fun h => Nat.ne_of_gt (List.length_pos_iff.2 h)
    calc literal a ++ literal b
      _ = (literal a ++ empty).push (.literal b) := append_push (literal a) empty (.literal b)
      _ = (empty.push (.literal a)).push (.literal b) := rfl
      _ = literal (a ++ b) := push_push rfl (hsize ha) (hsize hb) empty

theorem replicate_literal (n : Nat) (bs : List UInt8) :
    replicate n (literal bs) = literal (List.replicate n bs).flatten := by
  induction n with
  | zero => rfl
  | succ n ih =>
    rw [replicate, List.replicate_succ, List.replicate_succ, collect_cons, List.flatten_cons, ← literal_append, ← ih]
    rfl

/-! ## What is read off the segments -/

theorem additive_coarse : Segment.Additive Segment.coarse where
  literal _ _ := List.map_append
  wildcard _ _ := List.replicate_append_replicate.symm

theorem coarse_append (a b : Signature) : (a ++ b).coarse = a.coarse ++ b.coarse :=
  flatMap_foldl_push additive_coarse a b.segments

theorem size_push (sig : Signature) (s : Segment) : (sig.push s).size = sig.size + s.size := by
  rw [← length_coarse, coarse, flatMap_push additive_coarse, List.length_append, Segment.length_coarse]
  exact congrArg (· + s.size) sig.length_coarse

theorem size_literal (bs : List UInt8) : (literal bs).size = bs.length := by
  rw [literal, size_push]
  exact Nat.zero_add _

theorem size_any (n : Nat) : (any n).size = n := by
  rw [any, size_push]
  exact Nat.zero_add _

theorem size_append (a b : Signature) : (a ++ b).size = a.size + b.size := by
  rw [← length_coarse, coarse_append, List.length_append, length_coarse, length_coarse]

section

variable {γ : Type} (op : γ → γ → γ) (unit : γ) (f : Nat → Segment → γ)

/-- what is read off segments in order, the first one being at `i` -/
def sweep (i : Nat) : List Segment → γ
  | [] => unit
  | s :: rest => op (f i s) (sweep (i + s.size) rest)

/-- readings add up, and nothing is read off literal and free bytes -/
structure Seamless : Prop where
  assoc : ∀ a b c, op (op a b) c = op a (op b c)
  unit_op : ∀ a, op unit a = a
  op_unit : ∀ a, op a unit = a
  literal : ∀ i bs, f i (.literal bs) = unit
  wildcard : ∀ i n, f i (.wildcard n) = unit

variable {op unit f}

theorem Seamless.of_merge (h : Seamless op unit f) {s t u : Segment} (hu : s.merge? t = some u) (i : Nat) :
    f i s = unit ∧ (∀ j, f j t = unit) ∧ f i u = unit := by
  cases s with
  | literal a =>
    cases t with
    | literal b => cases hu; exact ⟨h.literal .., fun _ => h.literal .., h.literal ..⟩
    | _ => contradiction
  | wildcard m =>
    cases t with
    | wildcard n => cases hu; exact ⟨h.wildcard .., fun _ => h.wildcard .., h.wildcard ..⟩
    | _ => contradiction
  | _ => contradiction

theorem Seamless.sweep_attach (h : Seamless op unit f) (l : List Segment) (s : Segment) (i : Nat) :
    sweep op unit f i (attach l s) = op (sweep op unit f i l) (f (i + sizeAll l) s) := by
  induction l generalizing i with
  | nil => rw [attach, sweep, sweep, sweep, h.unit_op, h.op_unit]; rfl
  | cons t rest ih =>
    have hsize : sizeAll (t :: rest) = t.size + sizeAll rest := rfl
    cases rest with
    | nil =>
      rw [attach]
      cases hm : t.merge? s with
      | none => simp only [sweep, h.op_unit]; rfl
      | some u =>
        obtain ⟨ht, hs, hu⟩ := h.of_merge hm i
        simp only [sweep, ht, hs, hu, h.op_unit]
    | cons u rest =>
      rw [attach_cons (List.cons_ne_nil _ _), sweep, ih, ← h.assoc, hsize, ← Nat.add_assoc]
      rfl

theorem Seamless.sweep_foldl_push (h : Seamless op unit f) {l : List Segment} (hl : ∀ s ∈ l, s.size ≠ 0)
    (sig : Signature) (i : Nat) : sweep op unit f i (l.foldl push sig).segments =
      op (sweep op unit f i sig.segments) (sweep op unit f (i + sig.size) l) := by
  induction l generalizing sig with
  | nil => exact (h.op_unit _).symm
  | cons s l ih =>
    have hpush : sweep op unit f i (sig.push s).segments = op (sweep op unit f i sig.segments) (f (i + sig.size) s) := by
      rw [segments_push (hl s List.mem_cons_self), h.sweep_attach]
      rfl
    rw [List.foldl_cons, ih fun t ht => hl t (List.mem_cons_of_mem _ ht), hpush, h.assoc, size_push, ← Nat.add_assoc]
    rfl

/-- **What is read off segments adds up**, the second signature being read where the first one ends. -/
theorem Seamless.sweep_append (h : Seamless op unit f) (a b : Signature) (i : Nat) :
    sweep op unit f i (a ++ b).segments =
      op (sweep op unit f i a.segments) (sweep op unit f (i + a.size) b.segments) :=
  h.sweep_foldl_push (size_ne_zero_of_tight b.tight) a i

end

/-- the choice at `i`, where the segment is one -/
def choiceAt (data : Array UInt8) (i : Nat) : Segment → Bool
  | .oneOf vs => vs.any (byteIs data · i)
  | _ => true

/-- the position, where the segment is a capture of that name -/
def nameAt (name : String) (i : Nat) : Segment → Option Nat
  | .capture n _ _ => if n == name then some i else none
  | _ => none

theorem seamless_choiceAt (data : Array UInt8) : Seamless (· && ·) true (choiceAt data) where
  assoc := Bool.and_assoc
  unit_op := Bool.true_and
  op_unit := Bool.and_true
  literal _ _ := rfl
  wildcard _ _ := rfl

theorem seamless_nameAt (name : String) : Seamless Option.or none (nameAt name) where
  assoc _ _ _ := Option.or_assoc
  unit_op _ := Option.none_or
  op_unit _ := Option.or_none
  literal _ _ := rfl
  wildcard _ _ := rfl

theorem choicesHoldFrom_eq_sweep (data : Array UInt8) (i : Nat) (l : List Segment) :
    choicesHoldFrom data i l = sweep (· && ·) true (choiceAt data) i l := by
  induction l generalizing i with
  | nil => rfl
  | cons s l ih => cases s <;> exact congrArg (_ && ·) (ih _)

theorem offsetFrom_eq_sweep (name : String) (i : Nat) (l : List Segment) :
    offsetFrom name i l = sweep Option.or none (nameAt name) i l := by
  induction l generalizing i with
  | nil => rfl
  | cons s l ih =>
    cases s with
    | capture n w b =>
      rw [offsetFrom, ih, sweep, nameAt]
      split <;> rfl
    | _ => exact (ih _).trans Option.none_or.symm

/-- the position of a capture counts on from where the first segment is -/
theorem offsetFrom_eq_map (name : String) (i : Nat) (l : List Segment) :
    offsetFrom name i l = (offsetFrom name 0 l).map (i + ·) := by
  induction l generalizing i with
  | nil => rfl
  | cons s l ih =>
    have hrest : offsetFrom name (i + s.size) l = (offsetFrom name (0 + s.size) l).map (i + ·) := by
      rw [ih, ih (0 + s.size), Option.map_map]
      exact congrArg (Option.map · _) (funext fun j => by simp only [Function.comp_apply]; omega)
    cases s with
    | capture n w b =>
      rw [offsetFrom, offsetFrom, hrest]
      split <;> rfl
    | _ => exact hrest

/-- choices are checked on the bytes that the segments cover -/
theorem choicesHoldFrom_congr {data data' : Array UInt8} {i j : Nat} {l : List Segment}
    (h : ∀ k < sizeAll l, data[i + k]? = data'[j + k]?) : choicesHoldFrom data i l = choicesHoldFrom data' j l := by
  induction l generalizing i j with
  | nil => rfl
  | cons s l ih =>
    have hsize : sizeAll (s :: l) = s.size + sizeAll l := rfl
    have hrest : choicesHoldFrom data (i + s.size) l = choicesHoldFrom data' (j + s.size) l := by
      refine ih fun k hk => ?_
      rw [Nat.add_assoc, Nat.add_assoc]
      exact h (s.size + k) (by omega)
    cases s with
    | oneOf vs =>
      have hfirst : ∀ b, byteIs data b i = byteIs data' b j := by
        intro b
        rw [Bool.eq_iff_iff, byteIs_iff, byteIs_iff]
        exact iff_of_eq (congrArg (· = some b) (h 0 (by rw [hsize]; exact Nat.lt_add_right _ Nat.one_pos)))
      rw [choicesHoldFrom, choicesHoldFrom, hrest]
      simp only [hfirst]
    | _ => exact congrArg (true && ·) hrest

theorem choicesHold_append (a b : Signature) {x y : Array UInt8} (h : x.size = a.size) :
    (a ++ b).choicesHold (x ++ y) 0 = (a.choicesHold x 0 && b.choicesHold y 0) := by
  have hfirst : choicesHoldFrom (x ++ y) 0 a.segments = choicesHoldFrom x 0 a.segments := by
    refine choicesHoldFrom_congr fun k hk => ?_
    have hk : k < a.size := hk
    rw [Nat.zero_add, Array.getElem?_append_left (h ▸ hk)]
  have hsecond : choicesHoldFrom (x ++ y) (0 + a.size) b.segments = choicesHoldFrom y 0 b.segments := by
    refine choicesHoldFrom_congr fun k _ => ?_
    rw [← h, Array.getElem?_append_right (by omega)]
    congr 1; omega
  rw [choicesHold, choicesHoldFrom_eq_sweep, (seamless_choiceAt _).sweep_append, ← choicesHoldFrom_eq_sweep,
    ← choicesHoldFrom_eq_sweep, hfirst, hsecond]
  rfl

/-- a capture of that name is among the segments -/
def HasCapture (sig : Signature) (name : String) : Prop :=
  ∃ w b, .capture name w b ∈ sig.segments

theorem offsetFrom_eq_none_iff {name : String} {l : List Segment} {i : Nat} :
    offsetFrom name i l = none ↔ ¬ ∃ w b, .capture name w b ∈ l := by
  induction l generalizing i with
  | nil => simp [offsetFrom]
  | cons s l ih =>
    cases s with
    | capture n w b =>
      rw [offsetFrom]
      by_cases hn : n = name
      · subst hn
        rw [if_pos (beq_self_eq_true n)]
        exact iff_of_false (Option.some_ne_none i) fun h => h ⟨w, b, List.mem_cons_self⟩
      · have hn' : ¬ name = n := fun h => hn h.symm
        simp [hn, hn', ih]
    | _ => simp [offsetFrom, ih]

theorem offsetOf_append (a b : Signature) (name : String) :
    (a ++ b).offsetOf name = (a.offsetOf name).or ((b.offsetOf name).map (a.size + ·)) := by
  rw [offsetOf, offsetFrom_eq_sweep, (seamless_nameAt name).sweep_append, ← offsetFrom_eq_sweep, ← offsetFrom_eq_sweep,
    offsetFrom_eq_map name (0 + a.size), Nat.zero_add]
  rfl

/-- **Signatures are a monoid under concatenation, and all that is read off them follows it.** Whatever pushing and binding
can reach has no empty segment and no neighbours of one kind, so that only the list without segments covers no byte; these
lists are those of signatures. Concatenation is associative, segment by segment, with the empty signature neutral on both
sides; brackets do not matter, and repetitions add up. Sizes and masks add up; choices are checked on either side of the
seam; and a capture is found in the first signature that has it. -/
theorem concatenation_laws :
    (∀ l, Reached l →
      (∀ s ∈ l, s.size ≠ 0) ∧ (l.IsChain fun s t => ¬ OneKind s t) ∧ (l = [] ↔ sizeAll l = 0)) ∧
    (∀ l, Reached l ↔ ∃ sig : Signature, sig.segments = l) ∧
    (∀ sig : Signature, sig.isEmpty = true ↔ sig.size = 0) ∧
    (∀ a b c : Signature, (a ++ b ++ c).segments = (a ++ (b ++ c)).segments) ∧
    (∀ a : Signature, empty ++ a = a ∧ a ++ empty = a) ∧
    (∀ g : Bracketing, g.sum = collect g.members) ∧
    (∀ m n sig, replicate (m + n) sig = replicate m sig ++ replicate n sig) ∧
    ∀ a b : Signature,
      (a ++ b).size = a.size + b.size ∧ (a ++ b).coarse = a.coarse ++ b.coarse ∧ a.coarse.length = a.size ∧
      (∀ x y : Array UInt8, x.size = a.size →
        (a ++ b).choicesHold (x ++ y) 0 = (a.choicesHold x 0 && b.choicesHold y 0)) ∧
      ∀ name, (a.HasCapture name → (a ++ b).offsetOf name = a.offsetOf name) ∧
        (¬ a.HasCapture name → (a ++ b).offsetOf name = (b.offsetOf name).map (a.size + ·)) := by
  refine ⟨?_, fun _ => reached_iff, ?_, ?_, fun a => ⟨empty_append a, append_empty a⟩, Bracketing.sum_eq_collect,
    replicate_add, ?_⟩
  · intro l hl
    exact ⟨size_ne_zero_of_tight hl.tight, isChain_of_tight hl.tight, eq_nil_iff_of_tight hl.tight⟩
  · intro sig
    rw [isEmpty, List.isEmpty_iff]
    exact eq_nil_iff_of_tight sig.tight
  · intro a b c
    rw [append_assoc]
  · intro a b
    refine ⟨size_append a b, coarse_append a b, length_coarse a, fun x y h => choicesHold_append a b h, ?_⟩
    intro name
    constructor
    · intro h
      have hsome : (a.offsetOf name).isSome := by
        rw [Option.isSome_iff_ne_none]
        exact fun hnone => offsetFrom_eq_none_iff.1 hnone h
      rw [offsetOf_append, Option.or_of_isSome hsome]
    · intro h
      have hnone : a.offsetOf name = none := offsetFrom_eq_none_iff.2 h
      rw [offsetOf_append, hnone, Option.none_or]

/-- two pieces of code that meet in the middle of a run of fixed bytes -/
theorem callThenPush_laws :
    let a := Signature.oneOf [0x50, 0x51] ++ Signature.literal [0xE8]
    let b := Signature.literal [0x68] ++ Signature.capture "text" .dword
    (a ++ b).segments = [.oneOf [0x50, 0x51], .literal [0xE8, 0x68], .capture "text" .dword none] ∧
      (a ++ b).choicesHold (#[0x51, 0] ++ #[0x51]) 0 = (a.choicesHold #[0x51, 0] 0 && b.choicesHold #[0x51] 0) ∧
      (a ++ b).offsetOf "text" = (b.offsetOf "text").map (a.size + ·) ∧
      ((a ++ b).segments = [] ↔ sizeAll (a ++ b).segments = 0) := by
  intro a b
  obtain ⟨hreached, hall, -, -, -, -, -, hread⟩ := concatenation_laws
  obtain ⟨-, -, -, hchoices, hname⟩ := hread a b
  have hnot : ¬ a.HasCapture "text" := by
    rintro ⟨w, v, h⟩
    have hsegments : a.segments = [.oneOf [0x50, 0x51], .literal [0xE8]] := by decide
    simp [hsegments] at h
  exact ⟨by decide, hchoices _ _ rfl, (hname "text").2 hnot, (hreached _ ((hall _).2 ⟨a ++ b, rfl⟩)).2.2⟩

end Signature

end Landmark
