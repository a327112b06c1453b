/-
The loop of the searches, with checked steps.

Texts, signatures and fixed bytes are all looked for in one way: as long as something is left of a buffer, a candidate is
looked for in the part that is left, and where it fails the loop goes on one byte behind it. `search` is that loop. If every
candidate comes out of an exhaustive search and lies in the buffer, the loop cuts all parts in range and is exhaustive itself
(`search_finds`). It ends whatever the candidates are: it takes one turn for each position at most, and one to see that
nothing is left (`searchWithin_eq`).
-/
import Landmark.Proofs.Checked.Basic
import Landmark.Proofs.Search

namespace Landmark.Checked

/-- least candidate from `i` on that passes; a candidate is looked for in what is left of the buffer before `stop` -/
def search (buffer : Array UInt8) (stop : Nat) (candidate : Array UInt8 → Checked (Option Nat))
    (passes : Nat → Checked Bool) (i : Nat) : Checked (Option Nat) :=
  if i < stop then do
    let rest ← part buffer i stop
    match ← candidate rest with
    | none => return none
    | some k => if ← passes (i + k) then return some (i + k) else search buffer stop candidate passes (i + k + 1)
  else return none
  termination_by stop - i

/-- `search`, given up after a number of turns; it has no answer then -/
def searchWithin (buffer : Array UInt8) (stop : Nat) (candidate : Array UInt8 → Checked (Option Nat))
    (passes : Nat → Checked Bool) : (turns : Nat) → Nat → Checked (Option (Option Nat))
  | 0, _ => return none
  | turns + 1, i =>
    if i < stop then do
      let rest ← part buffer i stop
      match ← candidate rest with
      | none => return some none
      | some k =>
        if ← passes (i + k) then return some (some (i + k)) else searchWithin buffer stop candidate passes turns (i + k + 1)
    else return some none

/-- **The loop ends.** Every turn begins behind the one before, so there are no more of them than positions, and one that
finds nothing left. -/
theorem searchWithin_eq {buffer : Array UInt8} {stop : Nat} {candidate : Array UInt8 → Checked (Option Nat)}
    {passes : Nat → Checked Bool} {turns i : Nat} (h : stop - i < turns) :
    searchWithin buffer stop candidate passes turns i = (search buffer stop candidate passes i).map some := by
  induction turns generalizing i with
  | zero => omega
  | succ turns ih =>
    rw [search, searchWithin]
    split
    · next hi =>
      cases part buffer i stop with
      | error e => rfl
      | ok rest =>
        rw [ok_bind, ok_bind]
        cases candidate rest with
        | error e => rfl
        | ok found =>
          rw [ok_bind, ok_bind]
          cases found with
          | none => rfl
          | some k =>
            dsimp only
            cases passes (i + k) with
            | error e => rfl
            | ok passed =>
              cases passed with
              | true => rfl
              | false =>
                -- one turn less is left, and so is one position at least
                exact ih (by omega)
    · rfl

/-- **The loop stays in range and misses nothing**, if candidates are looked for exhaustively and lie before `stop`. -/
theorem search_finds {buffer : Array UInt8} {stop : Nat} {candidate : Array UInt8 → Checked (Option Nat)}
    {passes : Nat → Checked Bool} {q : Nat → Prop} {p : Nat → Bool} (hstop : stop ≤ buffer.size)
    (hcandidate : ∀ i < stop, ∃ r, candidate (buffer.extract i stop) = .ok r ∧ Finds (fun k => q (i + k)) 0 r)
    (hpasses : ∀ k, q k → passes k = .ok (p k)) (hq : ∀ k, q k → k < stop) (i : Nat) :
    ∃ r, search buffer stop candidate passes i = .ok r ∧ Finds (fun k => q k ∧ p k = true) i r := by
  induction hn : stop - i using Nat.strongRecOn generalizing i with
  | ind n ih =>
    subst hn
    rw [search]
    split
    · next hi =>
      obtain ⟨r, hr, hfinds⟩ := hcandidate i hi
      rw [part_eq (Nat.le_of_lt hi) hstop, ok_bind, hr, ok_bind]
      cases r with
      | none =>
        have hnone : Finds q i none := hfinds.shift
        exact ⟨none, rfl, fun k hk hqk => hnone k hk hqk.1⟩
      | some k =>
        have hfound : Finds q i (some (i + k)) := hfinds.shift
        have ⟨hle, hk, hleast⟩ := hfound
        dsimp only
        rw [hpasses _ hk, ok_bind]
        split
        · next hp => exact ⟨some (i + k), rfl, hle, ⟨hk, hp⟩, fun l hl hlt hql => hleast l hl hlt hql.1⟩
        · next hp =>
          have hlt := hq _ hk
          obtain ⟨r, hrest, hbehind⟩ := ih (stop - (i + k + 1)) (by omega) (i + k + 1) rfl
          exact ⟨r, hrest, hfound.behind hp hbehind⟩
    · next hi =>
      refine ⟨none, rfl, ?_⟩
      rintro k hk ⟨hqk, -⟩
      have := hq k hqk
      omega

end Landmark.Checked
