/-
What a cache keeps.

`request` looks a value up by key and kind and builds it where it is missing; the building itself makes no use of the cache.
`Requested` is everything that can come of it: the value is held and nothing is built, or building fails and nothing changes,
or a new value takes the place of whatever the key held.
- `requested`: one of these three, for every cache and request.
- `held_after_of_ne`: no call changes what another key holds.
- `holds_afterAll`: a value stays until a call for its key and another kind builds one.
- `Numbered.afterAll`: the number of a new value is that of no value held.
-/
import Landmark.Survey.Cache

namespace Landmark

namespace Cache

variable {τ : Type} {carrier : τ → Type} {c : Cache τ carrier} {key : String} {kind : τ}

/-! ## What a key holds -/

/-- the key holds this value of this kind -/
def Holds (c : Cache τ carrier) (key : String) (kind : τ) (h : Handle (carrier kind)) : Prop :=
  c.held key = some ⟨kind, h⟩

theorem Holds.kind_eq {kind' : τ} {h : Handle (carrier kind)} {h' : Handle (carrier kind')} (hk : c.Holds key kind h)
    (hk' : c.Holds key kind' h') : kind = kind' := by
  have heq : (⟨kind, h⟩ : Held τ carrier) = ⟨kind', h'⟩ := Option.some.inj (hk.symm.trans hk')
  exact congrArg Held.kind heq

theorem contains_iff : c.contains key = true ↔ ∃ kind h, c.Holds key kind h := by
  rw [contains, Option.isSome_iff_exists]
  exact ⟨fun ⟨⟨kind, h⟩, hh⟩ => ⟨kind, h, hh⟩, fun ⟨kind, h, hh⟩ => ⟨⟨kind, h⟩, hh⟩⟩

theorem holds_put (v : carrier kind) : (c.put key kind v).Holds key kind (c.nextHandle v) :=
  if_pos rfl

theorem held_put_of_ne {k : String} (hk : k ≠ key) (v : carrier kind) : (c.put key kind v).held k = c.held k :=
  if_neg hk

variable [DecidableEq τ]

theorem get?_eq_some_iff {h : Handle (carrier kind)} : c.get? key kind = some h ↔ c.Holds key kind h := by
  unfold get? Holds
  cases hheld : c.held key with
  | none => simp
  | some held =>
    obtain ⟨kind', h'⟩ := held
    by_cases hkind : kind' = kind
    · subst hkind
      simp
    · simp [hkind]

theorem get?_eq_none_iff : c.get? key kind = none ↔ ∀ h, ¬ c.Holds key kind h := by
  simp only [Option.eq_none_iff_forall_ne_some, ne_eq, get?_eq_some_iff]

/-! ## One request -/

variable {ε : Type}

/-- looks a value up or builds it: whether it was built, the answer, and the cache after it -/
def request (c : Cache τ carrier) (key : String) (kind : τ) (result : Except ε (carrier kind)) :
    (Bool × Except ε (Handle (carrier kind))) × Cache τ carrier :=
  let ((trace, r), c') := c.obtain key kind fun c => (((), result), c)
  ((trace.isSome, r), c')

theorem request_of_holds {h : Handle (carrier kind)} (hh : c.Holds key kind h) (result : Except ε (carrier kind)) :
    c.request key kind result = ((false, .ok h), c) := by
  simp [request, Cache.obtain, get?_eq_some_iff.2 hh]

theorem request_error (hno : ∀ h, ¬ c.Holds key kind h) (e : ε) :
    c.request key kind (.error e) = ((true, .error e), c) := by
  simp [request, Cache.obtain, get?_eq_none_iff.2 hno]

theorem request_ok (hno : ∀ h, ¬ c.Holds key kind h) (v : carrier kind) :
    c.request key kind (.ok v : Except ε _) = ((true, .ok (c.nextHandle v)), c.put key kind v) := by
  simp [request, Cache.obtain, get?_eq_none_iff.2 hno]

/-- all that can come of a request -/
inductive Requested (c : Cache τ carrier) (key : String) (kind : τ) :
    Except ε (carrier kind) → (Bool × Except ε (Handle (carrier kind))) × Cache τ carrier → Prop where
  | held {result : Except ε (carrier kind)} {h : Handle (carrier kind)} (hh : c.Holds key kind h) :
      Requested c key kind result ((false, .ok h), c)
  | failed {e : ε} (hno : ∀ h, ¬ c.Holds key kind h) : Requested c key kind (.error e) ((true, .error e), c)
  | built {v : carrier kind} (hno : ∀ h, ¬ c.Holds key kind h) :
      Requested c key kind (.ok v) ((true, .ok (c.nextHandle v)), c.put key kind v)

/-- **A request finds its value, or fails without a trace, or stores what it builds.** -/
theorem requested (c : Cache τ carrier) (key : String) (kind : τ) (result : Except ε (carrier kind)) :
    Requested c key kind result (c.request key kind result) := by
  by_cases hheld : ∃ h, c.Holds key kind h
  · obtain ⟨h, hh⟩ := hheld
    rw [request_of_holds hh]
    exact .held hh
  have hno : ∀ h, ¬ c.Holds key kind h := fun h hh => hheld ⟨h, hh⟩
  cases result with
  | error e =>
    rw [request_error hno]
    exact .failed hno
  | ok v =>
    rw [request_ok hno]
    exact .built hno

theorem built_iff {result : Except ε (carrier kind)} :
    (c.request key kind result).1.1 = true ↔ ∀ h, ¬ c.Holds key kind h := by
  generalize hout : c.request key kind result = out
  cases hout ▸ c.requested key kind result with
  | held hh => exact iff_of_false Bool.false_ne_true fun hno => hno _ hh
  | failed hno => exact iff_of_true rfl hno
  | built hno => exact iff_of_true rfl hno

/-! ## Calls in order -/

/-- a call, with what building gives if it comes to that -/
inductive Call (carrier : τ → Type) (ε : Type) where
  | contains (key : String)
  | get (key : String) (kind : τ)
  | obtain (key : String) (kind : τ) (result : Except ε (carrier kind))

/-- the key a call is about -/
def Call.about : Call carrier ε → String
  | contains key => key
  | get key _ => key
  | obtain key _ _ => key

/-- the call builds a value for the key in another kind than this one, if the key holds this kind -/
def Call.Replaces (call : Call carrier ε) (key : String) (kind : τ) : Prop :=
  ∃ kind' v, kind' ≠ kind ∧ call = .obtain key kind' (.ok v)

/-- the cache after a call -/
def after (c : Cache τ carrier) : Call carrier ε → Cache τ carrier
  | .contains _ => c
  | .get _ _ => c
  | .obtain key kind result => (c.request key kind result).2

/-- the cache after several calls -/
def afterAll (c : Cache τ carrier) (calls : List (Call carrier ε)) : Cache τ carrier :=
  calls.foldl after c

theorem held_after_of_ne {call : Call carrier ε} {k : String} (hk : k ≠ call.about) :
    (c.after call).held k = c.held k := by
  cases call with
  | contains key => rfl
  | get key kind => rfl
  | obtain key kind result =>
    rw [after]
    generalize hout : c.request key kind result = out
    cases hout ▸ c.requested key kind result with
    | held hh => rfl
    | failed hno => rfl
    | built hno => exact held_put_of_ne hk _

theorem holds_after {h : Handle (carrier kind)} (hh : c.Holds key kind h) {call : Call carrier ε}
    (hcall : ¬ call.Replaces key kind) : (c.after call).Holds key kind h := by
  by_cases hkey : key = call.about
  · cases call with
    | contains k => exact hh
    | get k kind' => exact hh
    | obtain k kind' result =>
      obtain rfl : key = k := hkey
      rw [after]
      generalize hout : c.request key kind' result = out
      cases hout ▸ c.requested key kind' result with
      | held _ => exact hh
      | failed _ => exact hh
      | @built v hno =>
        have hkind : kind' ≠ kind := by
          rintro rfl
          exact hno h hh
        exact absurd ⟨kind', v, hkind, rfl⟩ hcall
  · exact (held_after_of_ne hkey).trans hh

/-- **A value stays until a call for its key and another kind builds one.** -/
theorem holds_afterAll {h : Handle (carrier kind)} (hh : c.Holds key kind h) {calls : List (Call carrier ε)}
    (hcalls : ∀ call ∈ calls, ¬ call.Replaces key kind) : (c.afterAll calls).Holds key kind h := by
  induction calls generalizing c with
  | nil => exact hh
  | cons call calls ih =>
    obtain ⟨hcall, hrest⟩ := List.forall_mem_cons.1 hcalls
    exact ih (holds_after hh hcall) hrest

/-! ## Numbers of values -/

/-- the values held have the numbers of values that were put in -/
def Numbered (c : Cache τ carrier) : Prop :=
  ∀ key kind h, c.Holds key kind h → h.serial < c.count

omit [DecidableEq τ] in
theorem numbered_empty : (empty : Cache τ carrier).Numbered := by
  intro key kind h hh
  contradiction

omit [DecidableEq τ] in
theorem Numbered.put (hc : c.Numbered) (key : String) (v : carrier kind) : (c.put key kind v).Numbered := by
  intro k kind' h hh
  by_cases hk : k = key
  · subst hk
    have hheld : (⟨kind', h⟩ : Held τ carrier) = ⟨kind, c.nextHandle v⟩ := Option.some.inj (hh.symm.trans (holds_put v))
    have hserial : h.serial = c.count := congrArg (fun held : Held τ carrier => held.handle.serial) hheld
    exact hserial ▸ Nat.lt_succ_self _
  · exact Nat.lt_succ_of_lt (hc k kind' h ((held_put_of_ne hk v).symm.trans hh))

theorem Numbered.after (hc : c.Numbered) (call : Call carrier ε) : (c.after call).Numbered := by
  cases call with
  | contains key => exact hc
  | get key kind => exact hc
  | obtain key kind result =>
    rw [Cache.after]
    generalize hout : c.request key kind result = out
    cases hout ▸ c.requested key kind result with
    | held _ => exact hc
    | failed _ => exact hc
    | built _ => exact hc.put key _

theorem Numbered.afterAll (hc : c.Numbered) (calls : List (Call carrier ε)) : (c.afterAll calls).Numbered := by
  induction calls generalizing c with
  | nil => exact hc
  | cons call calls ih => exact ih (hc.after call)

/-! ## The laws of a cache -/

/-- what one may rely on, whatever the keys, the kinds and what building gives -/
structure Laws {τ : Type} [DecidableEq τ] (carrier : τ → Type) (ε : Type) : Prop where
  /-- a value is built if the key holds none of its kind, and only then -/
  built_iff : ∀ (c : Cache τ carrier) key kind (result : Except ε (carrier kind)),
    (c.request key kind result).1.1 = true ↔ ∀ h, ¬ c.Holds key kind h
  /-- what is built is stored, in place of whatever the key held -/
  stores : ∀ (c : Cache τ carrier) key kind (v : carrier kind), (∀ h, ¬ c.Holds key kind h) →
    ∃ h c', c.request key kind (.ok v : Except ε _) = ((true, .ok h), c') ∧ h.value = v ∧ c'.Holds key kind h ∧
      ∀ kind' h', c'.Holds key kind' h' → kind' = kind
  /-- whoever got a value gets the same one again, and nothing is built, until a call for its key and another kind
  builds one -/
  returns : ∀ (c c' : Cache τ carrier) key kind (result : Except ε (carrier kind)) built h (calls : List (Call carrier ε)),
    c.request key kind result = ((built, .ok h), c') → (∀ call ∈ calls, ¬ call.Replaces key kind) →
      ∀ result' : Except ε (carrier kind),
        (c'.afterAll calls).request key kind result' = ((false, .ok h), c'.afterAll calls)
  /-- a value that cannot be built leaves no trace -/
  fails : ∀ (c c' : Cache τ carrier) key kind (result : Except ε (carrier kind)) built e,
    c.request key kind result = ((built, .error e), c') → built = true ∧ result = .error e ∧ c' = c
  /-- a lookup tells what the key holds in the kind asked for -/
  gets : ∀ (c : Cache τ carrier) key kind h, c.get? key kind = some h ↔ c.Holds key kind h
  /-- a key that holds a value of any kind is told to hold one -/
  contains_iff : ∀ (c : Cache τ carrier) key, c.contains key = true ↔ ∃ kind h, c.Holds key kind h
  /-- no call touches another key -/
  others : ∀ (c : Cache τ carrier) (call : Call carrier ε) k, k ≠ call.about → (c.after call).held k = c.held k
  /-- a new value is none of those that were there -/
  fresh : ∀ (calls : List (Call carrier ε)) key kind (result : Except ε (carrier kind)) h c',
    (empty.afterAll calls).request key kind result = ((true, .ok h), c') →
      ∀ k kind' h', (empty.afterAll calls).Holds k kind' h' → h'.serial < h.serial

theorem holds_of_request {c' : Cache τ carrier} {result : Except ε (carrier kind)} {built : Bool}
    {h : Handle (carrier kind)} (hreq : c.request key kind result = ((built, .ok h), c')) : c'.Holds key kind h := by
  generalize hout : c.request key kind result = out at hreq
  cases hout ▸ c.requested key kind result with
  | held hh => cases hreq; exact hh
  | failed hno => cases hreq
  | built hno => cases hreq; exact holds_put _

/-- **Every cache keeps these laws.** -/
theorem laws (carrier : τ → Type) (ε : Type) : Laws carrier ε where
  built_iff _ _ _ _ := built_iff
  stores c key kind v hno := by
    refine ⟨_, _, request_ok hno v, rfl, holds_put v, ?_⟩
    intro kind' h' hh'
    exact hh'.kind_eq (holds_put v)
  returns c c' key kind result built h calls hreq hcalls result' :=
    request_of_holds (holds_afterAll (holds_of_request hreq) hcalls) result'
  fails c c' key kind result built e hreq := by
    generalize hout : c.request key kind result = out at hreq
    cases hout ▸ c.requested key kind result with
    | held hh => cases hreq
    | failed hno => cases hreq; exact ⟨rfl, rfl, rfl⟩
    | built hno => cases hreq
  gets _ _ _ _ := get?_eq_some_iff
  contains_iff _ _ := contains_iff
  others _ _ _ hk := held_after_of_ne hk
  fresh calls key kind result h c' hreq k kind' h' hh' := by
    have hlt := numbered_empty.afterAll calls k kind' h' hh'
    generalize (empty : Cache τ carrier).afterAll calls = c at hreq hlt hh'
    generalize hout : c.request key kind result = out at hreq
    cases hout ▸ c.requested key kind result with
    | held hh => cases hreq
    | failed hno => cases hreq
    | built hno => cases hreq; exact hlt

end Cache

end Landmark
