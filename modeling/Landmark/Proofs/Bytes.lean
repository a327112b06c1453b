/-
Consecutive bytes, each with something asked of it.

`MeetsAt` is the common form of matches at a position: masks, tests and needles only differ in what they ask of one byte.
It can be taken apart at the front (`meetsAt_cons`) and anywhere else (`meetsAt_append`).
-/
namespace Landmark

/-- what holds of the 256 bytes one by one -/
theorem forall_byte {P : UInt8 → Prop} (h : ∀ i : Fin 256, P (UInt8.ofNat i)) (b : UInt8) : P b := by
  have hb := h ⟨b.toNat, b.toNat_lt⟩
  rwa [UInt8.ofNat_toNat] at hb

variable {α : Type} {meets : UInt8 → α → Prop} {data : Array UInt8} {i : Nat}

/-- from `i` on, every byte is there and is such as the list asks for in its place -/
def MeetsAt (meets : UInt8 → α → Prop) (data : Array UInt8) (i : Nat) (l : List α) : Prop :=
  ∀ k (h : k < l.length), ∃ b, data[i + k]? = some b ∧ meets b l[k]

theorem meetsAt_nil : MeetsAt meets data i [] := fun k hk => absurd hk (Nat.not_lt_zero k)

theorem meetsAt_cons {a : α} {l : List α} :
    MeetsAt meets data i (a :: l) ↔ (∃ b, data[i]? = some b ∧ meets b a) ∧ MeetsAt meets data (i + 1) l := by
  constructor
  · intro h
    refine ⟨h 0 (Nat.succ_pos _), ?_⟩
    intro k hk
    have hnext := h (k + 1) (Nat.succ_lt_succ hk)
    rwa [← Nat.add_assoc, Nat.add_right_comm] at hnext
  · rintro ⟨hfirst, hrest⟩ k hk
    cases k with
    | zero => exact hfirst
    | succ k =>
      have hnext := hrest k (Nat.lt_of_succ_lt_succ hk)
      rwa [Nat.add_right_comm] at hnext

theorem meetsAt_append {l l' : List α} :
    MeetsAt meets data i (l ++ l') ↔ MeetsAt meets data i l ∧ MeetsAt meets data (i + l.length) l' := by
  induction l generalizing i with
  | nil => exact (and_iff_right meetsAt_nil).symm
  | cons a l ih =>
    rw [List.cons_append, meetsAt_cons, meetsAt_cons, ih, and_assoc, List.length_cons, Nat.add_right_comm, Nat.add_assoc i]

theorem meetsAt_singleton {a : α} : MeetsAt meets data i [a] ↔ ∃ b, data[i]? = some b ∧ meets b a := by
  rw [meetsAt_cons, and_iff_left meetsAt_nil]

/-- a match depends on the bytes it covers alone -/
theorem MeetsAt.congr {data' : Array UInt8} {l : List α} (h : MeetsAt meets data i l)
    (hsame : ∀ k < l.length, data[i + k]? = data'[i + k]?) : MeetsAt meets data' i l := by
  intro k hk
  obtain ⟨b, hb, hmeets⟩ := h k hk
  exact ⟨b, hsame k hk ▸ hb, hmeets⟩

theorem getElem?_extract_of_lt {start stop : Nat} (hstop : stop ≤ data.size) (h : start + i < stop) :
    (data.extract start stop)[i]? = data[start + i]? := by
  rw [Array.getElem?_extract, if_pos (by omega)]

theorem getElem?_extract_to_end {start : Nat} : (data.extract start data.size)[i]? = data[start + i]? := by
  rw [Array.getElem?_extract]
  split
  · rfl
  · rw [Array.getElem?_eq_none (by omega)]

/-- matches inside a part of the data are matches of the data -/
theorem meetsAt_extract {l : List α} {start stop : Nat} (hstop : stop ≤ data.size) (h : start + i + l.length ≤ stop) :
    MeetsAt meets (data.extract start stop) i l ↔ MeetsAt meets data (start + i) l := by
  refine forall₂_congr fun k hk => ?_
  rw [Nat.add_assoc start, getElem?_extract_of_lt hstop (by omega)]

end Landmark
