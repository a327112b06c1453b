/-
Byte signatures: sequences of segments that no shorter sequence of segments could replace.

`push` adds a segment at the end, drops it when it is empty and joins it with the last one when the two are of one kind that
allows it, so that a signature is always `Tight`. Everything else is built from `push`: `++`, `collect`, `replicate`. The
`size` of a signature is known before any search, which is what finders rely on when they compute where a match ends.
-/
import Landmark.Signature.Segment

namespace Landmark

namespace Segment

/-- no segment is empty and no two neighbours could be one -/
def Tight : List Segment → Prop
  | [] => True
  | s :: rest => s.size ≠ 0 ∧ (∀ t ∈ rest.head?, s.merge? t = none) ∧ Tight rest

/-- adds a segment that is not empty at the end -/
def attach : List Segment → Segment → List Segment
  | [], s => [s]
  | [t], s =>
    match t.merge? s with
    | some u => [u]
    | none => [t, s]
  | t :: u :: rest, s => t :: attach (u :: rest) s

/-- gives a capture of that name a value -/
def bind (name : String) (value : UInt32) : Segment → Segment
  | capture n w b => if n == name then capture n w (some value) else capture n w b
  | s => s

theorem size_merge {s t u : Segment} (h : s.merge? t = some u) : u.size = s.size + t.size := by
  cases s <;> cases t <;> simp_all [merge?] <;> subst h <;> simp [size]

theorem merge_congr {s t u v : Segment} (h : t.merge? u = some v) : s.merge? v = none ↔ s.merge? t = none := by
  cases t <;> cases u <;> simp_all [merge?] <;> subst h <;> cases s <;> simp

theorem head_attach (l : List Segment) (s t : Segment) (rest : List Segment) (h : l = t :: rest) :
    ∀ v ∈ (attach l s).head?, v = t ∨ t.merge? s = some v := by
  subst h
  cases rest with
  | nil => simp only [attach]; split <;> simp_all
  | cons u rest => simp [attach]

theorem tight_attach {l : List Segment} {s : Segment} (hl : Tight l) (hs : s.size ≠ 0) : Tight (attach l s) := by
  induction l with
  | nil => simpa [attach, Tight] using hs
  | cons t rest ih =>
    cases rest with
    | nil =>
      simp only [attach]
      split
      · next u hu => have := size_merge hu; simp [Tight] at hl ⊢; omega
      · next hu => simp [Tight] at hl ⊢; exact ⟨hl, hu, hs⟩
    | cons u rest =>
      obtain ⟨h1, h2, h3⟩ := hl
      refine ⟨h1, fun v hv => ?_, ih h3⟩
      have h2 : t.merge? u = none := h2 u (by simp)
      rcases head_attach (u :: rest) s u rest rfl v hv with rfl | h
      · exact h2
      · exact (merge_congr h).2 h2

theorem size_bind (name : String) (value : UInt32) (s : Segment) : (bind name value s).size = s.size := by
  cases s with
  | capture n w b =>
    rw [bind]
    split <;> rfl
  | _ => rfl

theorem merge_bind (name : String) (value : UInt32) (s t : Segment) :
    (bind name value s).merge? (bind name value t) = none ↔ s.merge? t = none := by
  cases s <;> cases t <;> simp only [bind] <;> (repeat' split) <;> simp [merge?]

theorem tight_map_bind {l : List Segment} (name : String) (value : UInt32) (h : Tight l) :
    Tight (l.map (bind name value)) := by
  induction l with
  | nil => trivial
  | cons s rest ih =>
    obtain ⟨h1, h2, h3⟩ := h
    refine ⟨by rw [size_bind]; exact h1, fun t ht => ?_, ih h3⟩
    cases rest with
    | nil => simp at ht
    | cons u rest =>
      simp only [List.map_cons, List.head?_cons, Option.mem_def, Option.some.injEq] at ht
      subst ht
      exact (merge_bind ..).2 (h2 u (by simp))

end Segment

/-- a tight sequence of segments -/
structure Signature where
  segments : List Segment
  tight : Segment.Tight segments
  deriving DecidableEq

namespace Signature

/-- the signature without segments -/
def empty : Signature := ⟨[], trivial⟩

/-- adds a segment at the end -/
def push (sig : Signature) (s : Segment) : Signature :=
  if h : s.size = 0 then sig else ⟨Segment.attach sig.segments s, Segment.tight_attach sig.tight h⟩

/-- adds all segments of another signature at the end -/
def append (a b : Signature) : Signature :=
  b.segments.foldl push a

instance : Append Signature := ⟨append⟩

/-- one signature after the other -/
def collect (sigs : List Signature) : Signature :=
  sigs.foldl append empty

/-- the same signature so many times -/
def replicate (count : Nat) (sig : Signature) : Signature :=
  collect (List.replicate count sig)

def literal (bytes : List UInt8) : Signature :=
  empty.push (.literal bytes)

def any (count : Nat) : Signature :=
  empty.push (.wildcard count)

def masked (value mask : UInt8) : Signature :=
  empty.push (.masked value mask)

def oneOf (values : List UInt8) : Signature :=
  empty.push (.oneOf values)

def capture (name : String) (width : Width) : Signature :=
  empty.push (.capture name width none)

/-- number of bytes covered -/
def size (sig : Signature) : Nat :=
  sig.segments.foldr (fun s n => s.size + n) 0

def isEmpty (sig : Signature) : Bool :=
  sig.segments.isEmpty

/-- gives every capture of that name a value -/
def bind (sig : Signature) (name : String) (value : UInt32) : Signature :=
  ⟨sig.segments.map (Segment.bind name value), Segment.tight_map_bind name value sig.tight⟩

/-- position of the first capture of that name, counted on from `i` -/
def offsetFrom (name : String) (i : Nat) : List Segment → Option Nat
  | [] => none
  | s :: rest =>
    match s with
    | .capture n _ _ => if n == name then some i else offsetFrom name (i + s.size) rest
    | _ => offsetFrom name (i + s.size) rest

/-- position of the first capture of that name -/
def offsetOf (sig : Signature) (name : String) : Option Nat :=
  offsetFrom name 0 sig.segments

/-- every segment of the list matches in its place, the first one at `i` -/
def MatchesFrom (data : Array UInt8) (i : Nat) : List Segment → Prop
  | [] => True
  | s :: rest => s.Matches data i ∧ MatchesFrom data (i + s.size) rest

/-- the signature stands in the data at `i`, every segment in its place -/
def Matches (sig : Signature) (data : Array UInt8) (i : Nat) : Prop :=
  MatchesFrom data i sig.segments

end Signature

end Landmark
