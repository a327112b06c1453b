/-
Chains of failures.

A failure that was taken over from another finder has that one's failure inside, and so on; `Failure.chain` lists them from
the outermost one inwards. Properties of a failure follow along its chain (`chain_induction`).
- `find?_chain`: the root is the first failure of the chain that was not taken over.
- `kind_eq_dependencyFailure_iff_length`: a failure was taken over exactly if its chain has more than one member.
- `message_eq`: the text of a failure names the finders of its chain in order, then the cause at the root.
-/
import Landmark.Fault
import Mathlib.Data.List.Basic

namespace Landmark

namespace Failure

/-- the failures from that of finder `r` inwards -/
def chainFrom (r : String) : Fault → List Failure
  | .dependency r' f => ⟨r, .dependency r' f⟩ :: chainFrom r' f
  | f => [⟨r, f⟩]

/-- the failure, the one it was taken over from, and so on -/
def chain (e : Failure) : List Failure :=
  chainFrom e.finder e.fault

variable {e c : Failure}

theorem asDependency_injective : Function.Injective asDependency := by
  intro a b h
  obtain ⟨hfinder, hfault⟩ := Fault.dependency.inj h
  exact congrArg₂ Failure.mk hfinder hfault

theorem kind_eq_dependencyFailure_iff : e.kind = .dependencyFailure ↔ ∃ c : Failure, e.fault = c.asDependency := by
  constructor
  · intro h
    obtain ⟨finder, fault⟩ := e
    cases fault with
    | dependency r f => exact ⟨⟨r, f⟩, rfl⟩
    | _ => contradiction
  · rintro ⟨c, hc⟩
    rw [kind, hc]
    rfl

/-- **Induction along a chain**, from its root outwards. -/
theorem chain_induction {motive : Failure → Prop} (root : ∀ e : Failure, e.kind ≠ .dependencyFailure → motive e)
    (link : ∀ e c : Failure, e.fault = c.asDependency → motive c → motive e) (e : Failure) : motive e := by
  obtain ⟨r, f⟩ := e
  induction f generalizing r with
  | dependency r' f ih => exact link _ ⟨r', f⟩ rfl (ih r')
  | _ => exact root _ nofun

theorem chain_of_kind (h : e.kind ≠ .dependencyFailure) : e.chain = [e] := by
  obtain ⟨r, f⟩ := e
  cases f with
  | dependency r' f => exact absurd rfl h
  | _ => rfl

theorem chain_of_fault (h : e.fault = c.asDependency) : e.chain = e :: c.chain := by
  obtain ⟨r, f⟩ := e
  obtain rfl : f = c.asDependency := h
  rfl

theorem root_of_kind (h : e.kind ≠ .dependencyFailure) : e.root = e := by
  obtain ⟨r, f⟩ := e
  cases f with
  | dependency r' f => exact absurd rfl h
  | _ => rfl

/-- a failure taken over has the root it had -/
theorem root_of_fault (h : e.fault = c.asDependency) : e.root = c.root := by
  rw [root, h]
  rfl

theorem depth_lt_of_fault (h : e.fault = c.asDependency) : c.fault.depth < e.fault.depth := by
  rw [h]
  exact Nat.lt_succ_self _

theorem depth_le_of_mem_chain {c : Failure} (h : c ∈ e.chain) : c.fault.depth ≤ e.fault.depth := by
  induction e using chain_induction with
  | root e he =>
    rw [chain_of_kind he, List.mem_singleton] at h
    exact h ▸ Nat.le_refl _
  | link e c' he ih =>
    rw [chain_of_fault he] at h
    rcases List.mem_cons.1 h with rfl | h
    · exact Nat.le_refl _
    · exact Nat.le_trans (ih h) (Nat.le_of_lt (depth_lt_of_fault he))

theorem chain_ne_nil (e : Failure) : e.chain ≠ [] := by
  induction e using chain_induction with
  | root e h => rw [chain_of_kind h]; exact List.cons_ne_nil _ _
  | link e c h _ => rw [chain_of_fault h]; exact List.cons_ne_nil _ _

/-- **The root is the first failure of the chain that was not taken over.** -/
theorem find?_chain (e : Failure) : e.chain.find? (fun c => c.kind ≠ .dependencyFailure) = some e.root := by
  induction e using chain_induction with
  | root e h => rw [chain_of_kind h, root_of_kind h, List.find?_cons_of_pos (by simpa using h)]
  | link e c h ih =>
    have hkind : e.kind = .dependencyFailure := kind_eq_dependencyFailure_iff.2 ⟨c, h⟩
    rw [chain_of_fault h, root_of_fault h, List.find?_cons_of_neg (by simpa using hkind), ih]

theorem kind_eq_dependencyFailure_iff_length : e.kind = .dependencyFailure ↔ 1 < e.chain.length := by
  by_cases h : e.kind = .dependencyFailure
  · obtain ⟨c, hc⟩ := kind_eq_dependencyFailure_iff.1 h
    rw [chain_of_fault hc, List.length_cons]
    exact iff_of_true h (Nat.succ_lt_succ (List.length_pos_of_ne_nil c.chain_ne_nil))
  · rw [chain_of_kind h]
    exact iff_of_false h (Nat.lt_irrefl 1)

/-- **The text of a failure names the finders of its chain in order**, and ends with the cause at the root. -/
theorem message_eq (e : Failure) :
    e.message = " - dependency failed: ".intercalate (e.chain.map finder) ++ " - " ++ e.root.fault.message := by
  induction e using chain_induction with
  | root e h =>
    rw [chain_of_kind h, root_of_kind h, List.map_cons, List.map_nil, String.intercalate_singleton]
    rfl
  | link e c h ih =>
    have hseparator : " - dependency failed: " = " - " ++ "dependency failed: " := by simp
    have hmessage : e.message = e.finder ++ " - " ++ ("dependency failed: " ++ c.message) := by
      rw [message, h]
      rfl
    have hrest : c.chain.map finder ≠ [] := mt List.map_eq_nil_iff.1 c.chain_ne_nil
    rw [hmessage, ih, chain_of_fault h, root_of_fault h, List.map_cons, String.intercalate_cons_of_ne_nil hrest]
    simp only [hseparator, String.append_assoc]

end Failure

end Landmark
