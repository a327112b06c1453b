/-
What the finders of a standard survey ask for.

A plan is `ConfinedTo` some finders if it is direct and asks for no others; plans that are put together from confined ones
are confined.
- `confined_builtIn`: the built-in finders ask for nobody.
- `confined_script`: a script asks for the finders that its steps name.
- `standard_acyclic`: scripts that name finders of lower rank only make an acyclic survey.
-/
import Landmark.Finder.Roster
import Landmark.Proofs.Survey.Dependency

namespace Landmark

namespace Survey

variable {κ : Type} (S : Survey κ)

/-- the plan is direct and asks for no finders but these -/
structure ConfinedTo (P : κ → Prop) {α : Type} (plan : Plan κ α) : Prop where
  direct : S.Direct plan
  asks : ∀ k, S.MayAsk k plan → P k

variable {S} {P : κ → Prop} {α β : Type}

/-! ## Steps -/

theorem confined_pure (a : α) : S.ConfinedTo P (pure a) := ⟨trivial, fun _ h => h.elim⟩

theorem confined_fail (f : Fault) : S.ConfinedTo P (.fail f : Plan κ α) := ⟨trivial, fun _ h => h.elim⟩

theorem confined_text (needle : List UInt8) (q : TextQuery) : S.ConfinedTo P (Plan.text needle q) :=
  ⟨trivial, fun _ h => h.elim⟩

theorem confined_signatureIn (sig : Signature) (start stop : UInt32) :
    S.ConfinedTo P (Plan.signatureIn sig start stop) :=
  ⟨trivial, fun _ h => h.elim⟩

theorem confined_signature (image : Image) (sig : Signature) : S.ConfinedTo P (Plan.signature image sig) :=
  confined_signatureIn _ _ _

theorem confined_theFacts : S.ConfinedTo P Plan.theFacts := ⟨trivial, fun _ h => h.elim⟩

theorem confined_ofExcept (r : Except Fault α) : S.ConfinedTo P (Plan.ofExcept r) := by
  cases r with
  | ok a => exact confined_pure a
  | error f => exact confined_fail f

theorem confined_require (f : Fault) (r : Option α) : S.ConfinedTo P (Plan.require f r) := by
  cases r with
  | some a => exact confined_pure a
  | none => exact confined_fail f

theorem confined_attempt {k : κ} (hk : P k) : S.ConfinedTo P (Plan.attempt k Plan.done) where
  direct _ := trivial
  asks := by
    rintro k' (rfl | ⟨_, h⟩)
    · exact hk
    · exact h.elim

theorem confined_depend {k : κ} (hk : P k) : S.ConfinedTo P (Plan.depend k Plan.done) where
  direct _ := trivial
  asks := by
    rintro k' (rfl | ⟨_, h⟩)
    · exact hk
    · exact h.elim

/-- One confined plan after the other is confined. -/
theorem ConfinedTo.bind {plan : Plan κ α} {f : α → Plan κ β} (h : S.ConfinedTo P plan)
    (hf : ∀ a, S.ConfinedTo P (f a)) : S.ConfinedTo P (plan >>= f) := by
  change S.ConfinedTo P (plan.bind f)
  obtain ⟨hdirect, hasks⟩ := h
  induction plan with
  | done a => exact hf a
  | fail e => exact confined_fail e
  | findText needle q next ih =>
    obtain ⟨hd, ha⟩ := ih _ hdirect hasks
    exact ⟨hd, ha⟩
  | findSignature sig a b next ih =>
    obtain ⟨hd, ha⟩ := ih _ hdirect hasks
    exact ⟨hd, ha⟩
  | facts next ih =>
    obtain ⟨hd, ha⟩ := ih _ hdirect hasks
    exact ⟨hd, ha⟩
  | tree next => exact hdirect.elim
  | status k next => exact hdirect.elim
  | attempt k next ih =>
    have hnext : ∀ r, S.ConfinedTo P ((next r).bind f) :=
      fun r => ih r (hdirect r) fun k' hk' => hasks k' (.inr ⟨r, hk'⟩)
    refine ⟨fun r => (hnext r).direct, ?_⟩
    rintro k' (rfl | ⟨r, hk'⟩)
    · exact hasks _ (.inl rfl)
    · exact (hnext r).asks k' hk'
  | depend k next ih =>
    have hnext : ∀ v, S.ConfinedTo P ((next v).bind f) :=
      fun v => ih v (hdirect v) fun k' hk' => hasks k' (.inr ⟨v, hk'⟩)
    refine ⟨fun v => (hnext v).direct, ?_⟩
    rintro k' (rfl | ⟨v, hk'⟩)
    · exact hasks _ (.inl rfl)
    · exact (hnext v).asks k' hk'

/-! ## Built-in finders -/

open Finder

theorem confined_newArchive (image : Image) (address : UInt32) : S.ConfinedTo P (newArchive image address) :=
  (confined_signature _ _).bind fun _ => confined_pure _

theorem confined_oldArchive (image : Image) (address : UInt32) : S.ConfinedTo P (oldArchive image address) := by
  refine (confined_signature _ _).bind fun r => ?_
  cases r with
  | some m => exact confined_pure _
  | none => exact (confined_signature _ _).bind fun _ => confined_pure _

theorem confined_archiveCode (image : Image) (isVc14 : Bool) (address : UInt32) :
    S.ConfinedTo P (archiveCode image isVc14 address) := by
  have hrest : ∀ r, S.ConfinedTo P (match r with
      | some r => pure (some r)
      | none => oldArchive image address) := by
    intro r
    cases r with
    | some m => exact confined_pure _
    | none => exact confined_oldArchive _ _
  cases isVc14 with
  | true => exact (confined_newArchive _ _).bind hrest
  | false => exact (confined_pure none).bind hrest

theorem confined_archive (image : Image) : S.ConfinedTo P (archive image) := by
  refine confined_theFacts.bind fun facts => (confined_text _ _).bind fun _ => (confined_require _ _).bind fun _ => ?_
  refine (confined_archiveCode _ _ _).bind fun _ => (confined_require _ _).bind fun found => ?_
  exact confined_pure _

theorem confined_assignedFlag (image : Image) (start : UInt32) (name : String) :
    S.ConfinedTo P (assignedFlag image start name) :=
  (confined_signatureIn _ _ _).bind fun _ => (confined_require _ _).bind fun _ => confined_pure _

theorem confined_pastSignature (image : Image) (sig : Signature) (missing : Fault) :
    S.ConfinedTo P (pastSignature image sig missing) :=
  (confined_signature _ _).bind fun _ => (confined_require _ _).bind fun _ => confined_pure _

theorem confined_withoutSakray (image : Image) : S.ConfinedTo P (withoutSakray image) := by
  refine confined_theFacts.bind fun facts => ?_
  split
  · exact confined_pastSignature _ _ _
  · exact confined_fail _

theorem confined_serverType (image : Image) : S.ConfinedTo P (serverType image) := by
  refine (confined_text _ _).bind fun r => ?_
  cases r with
  | some anchor => exact (confined_pastSignature _ _ _).bind fun _ => confined_assignedFlag _ _ _
  | none => exact (confined_withoutSakray _).bind fun _ => confined_assignedFlag _ _ _

theorem confined_afterCopy (image : Image) (anchor : UInt32) : S.ConfinedTo P (afterCopy image anchor) := by
  refine (confined_signature _ _).bind fun _ => (confined_require _ _).bind fun _ => ?_
  exact (confined_signatureIn _ _ _).bind fun _ => (confined_require _ _).bind fun _ => confined_pure _

theorem confined_afterAmerica (image : Image) (anchor : UInt32) : S.ConfinedTo P (afterAmerica image anchor) := by
  refine (confined_signature _ _).bind fun r => ?_
  cases r with
  | some m => exact confined_pure _
  | none =>
    refine confined_theFacts.bind fun facts => ?_
    split
    · exact confined_afterCopy _ _
    · exact confined_fail _

theorem confined_withoutAmerica (image : Image) : S.ConfinedTo P (withoutAmerica image) := by
  refine confined_theFacts.bind fun facts => ?_
  split
  · exact confined_pastSignature _ _ _
  · exact confined_fail _

theorem confined_serviceType (image : Image) : S.ConfinedTo P (serviceType image) := by
  refine (confined_text _ _).bind fun r => ?_
  cases r with
  | some anchor => exact (confined_afterAmerica _ _).bind fun _ => confined_assignedFlag _ _ _
  | none => exact (confined_withoutAmerica _).bind fun _ => confined_assignedFlag _ _ _

theorem confined_makeWindowCode (image : Image) (anchor : UInt32) : S.ConfinedTo P (makeWindowCode image anchor) := by
  refine (confined_signature _ _).bind fun r => ?_
  cases r with
  | some m => exact confined_pure _
  | none => exact (confined_signature _ _).bind fun _ => confined_require _ _

theorem confined_windowManager (image : Image) : S.ConfinedTo P (windowManager image) := by
  refine (confined_text _ _).bind fun _ => (confined_require _ _).bind fun _ => ?_
  refine (confined_makeWindowCode _ _).bind fun _ => (confined_require _ _).bind fun _ => ?_
  exact (confined_ofExcept _).bind fun _ => confined_pure _

theorem confined_importTable (image : Image) : S.ConfinedTo P (importTable image) := confined_ofExcept _

/-- **The built-in finders ask for nobody.** -/
theorem confined_builtIn {scripts : Nat} {S : Survey (FinderKey scripts)} {P : FinderKey scripts → Prop} (image : Image)
    (steps : Fin scripts → List (Finder.Step (FinderKey scripts))) {key : FinderKey scripts}
    (h : key ∈ FinderKey.builtIn) : S.ConfinedTo P (FinderKey.plan image steps key) := by
  cases key with
  | archive => exact (confined_archive image).bind fun _ => confined_pure _
  | serviceType => exact (confined_serviceType image).bind fun _ => confined_pure _
  | serverType => exact (confined_serverType image).bind fun _ => confined_pure _
  | windowManager => exact (confined_windowManager image).bind fun _ => confined_pure _
  | imports => exact (confined_importTable image).bind fun _ => confined_pure _
  | script n => simp [FinderKey.builtIn] at h

/-! ## Scripts -/

/-- the step asks for no finders but these, for no status and not for the tree -/
def StepWithin (P : κ → Prop) : Finder.Step κ → Prop
  | .depend k => P k
  | .attempt k => P k
  | .status _ => False
  | .tree => False
  | _ => True

theorem confined_step (image : Image) (name : κ → String) (c : Collected) {s : Finder.Step κ} (h : StepWithin P s) :
    S.ConfinedTo P (s.run image name c) := by
  cases s with
  | depend k =>
    have hk : P k := h
    exact (confined_depend hk).bind fun _ => confined_pure _
  | attempt k =>
    have hk : P k := h
    exact (confined_attempt hk).bind fun _ => confined_pure _
  | status k => exact h.elim
  | text t => exact (confined_text _ _).bind fun _ => (confined_require _ _).bind fun _ => confined_pure _
  | signature t =>
    refine (confined_ofExcept _).bind fun _ => (confined_signature _ _).bind fun _ => ?_
    exact (confined_require _ _).bind fun _ => confined_pure _
  | read offset => exact (confined_ofExcept _).bind fun _ => confined_pure _
  | virtual offset => exact (confined_ofExcept _).bind fun _ => confined_pure _
  | field f => exact confined_pure _
  | fail f => exact confined_fail f
  | facts => exact confined_theFacts.bind fun _ => confined_pure _
  | tree => exact h.elim

/-- **A script asks for the finders that its steps name.** -/
theorem confined_script (image : Image) (name : κ → String) {steps : List (Finder.Step κ)}
    (h : ∀ s ∈ steps, StepWithin P s) : S.ConfinedTo P (Finder.Step.plan image name steps) := by
  have hall : ∀ c, S.ConfinedTo P (Finder.Step.runAll image name c steps) := by
    induction steps with
    | nil => exact confined_pure
    | cons s steps ih =>
      intro c
      exact (confined_step image name c (h s List.mem_cons_self)).bind
        (ih fun s' hs' => h s' (List.mem_cons_of_mem _ hs'))
  exact (hall _).bind fun _ => confined_pure _

/-! ## The standard survey -/

variable {scripts : Nat} {image : Image} {t : Thresholds} {steps : Fin scripts → List (Finder.Step (FinderKey scripts))}

theorem standard_confined {rank : FinderKey scripts → Nat}
    (h : ∀ n, ∀ s ∈ steps n, StepWithin (fun k => rank k < rank (.script n)) s) (key : FinderKey scripts) :
    (standard image t steps).ConfinedTo (fun k => rank k < rank key) ((standard image t steps).plan key) := by
  rcases List.mem_append.1 (FinderKey.mem_all key) with hkey | hkey
  · exact confined_builtIn image steps hkey
  · obtain ⟨n, -, rfl⟩ := List.mem_map.1 hkey
    exact confined_script image FinderKey.name (h n)

/-- **Scripts that name finders of lower rank make an acyclic survey**, with the built-in finders at any rank. -/
theorem standard_acyclic {rank : FinderKey scripts → Nat}
    (h : ∀ n, ∀ s ∈ steps n, StepWithin (fun k => rank k < rank (.script n)) s) : (standard image t steps).Acyclic :=
  acyclic_of_rank rank fun key => (standard_confined h key).asks

end Survey

end Landmark
