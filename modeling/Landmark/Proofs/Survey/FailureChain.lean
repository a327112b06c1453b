/-
Where failures taken over come from.

A plan `Relays` failures if it says that another finder failed only with a failure it was given. Then a failure taken over
is one that some finder keeps, or tells of a finder that was at work when it was asked for (`Backed`); the latter is said of
a moment on the course so far, so the invariant is about the moves as well (`follow_traced`).
- `Traced`: the invariant; `move_traced`, `follow_traced`.
- `exists_keepers`: all members of a chain are kept by different finders, up to a last one that tells of a cycle.
- `failures_faithful`: all of it together.
-/
import Landmark.Proofs.Failure
import Landmark.Proofs.Survey.Cycle

namespace Landmark

namespace Survey

variable {κ : Type}

/-! ## Plans -/

/-- the plan takes failures of other finders over only as it was given them -/
def Relays : List Failure → Plan κ Finding → Prop
  | _, .done _ => True
  | given, .fail f => ∀ e : Failure, f = e.asDependency → e ∈ given
  | given, .findText _ _ next => ∀ r, Relays given (next r)
  | given, .findSignature _ _ _ next => ∀ r, Relays given (next r)
  | given, .facts next => ∀ f, Relays given (next f)
  | given, .tree next => ∀ r, Relays given (next r)
  | given, .status _ next => ∀ s, Relays given (next s)
  | given, .attempt _ next => (∀ v, Relays given (next (.ok v))) ∧ ∀ e, Relays (e :: given) (next (.error e))
  | given, .depend _ next => ∀ v, Relays given (next v)

/-! ## Where a failure comes from -/

/-- the finder keeps the failure, which bears its name -/
def Keeps (S : Survey κ) (st : State κ) (k : κ) (e : Failure) : Prop :=
  e.finder = S.name k ∧ ∃ source, st.slots k = .failed e source

variable [DecidableEq κ] (S : Survey κ)

/-- on the course so far the first finder asked for the second one while that was at work, and had been asked for by it,
directly or by way of others, or is that finder itself -/
def CycleMet (moves : List (Move κ)) (key k : κ) : Prop :=
  ∃ before after m plan rest, moves = before ++ after ∧ S.follow .start before = some m ∧
    m.stack = ⟨key, plan⟩ :: rest ∧ Waits k plan ∧ k ∈ m.working ∧ Relation.ReflTransGen m.Asked k key

/-- the failure, given to a finder, is kept, or tells of a cycle that was met by this finder -/
def Backed (moves : List (Move κ)) (st : State κ) (key : κ) (e : Failure) : Prop :=
  (∃ k, S.Keeps st k e) ∨ ∃ k, e = S.cycleFailure k ∧ S.CycleMet moves key k

variable {S}

theorem CycleMet.append {moves : List (Move κ)} {key k : κ} (h : S.CycleMet moves key k) (more : List (Move κ)) :
    S.CycleMet (moves ++ more) key k := by
  obtain ⟨before, after, m, plan, rest, rfl, hcourse⟩ := h
  exact ⟨before, after ++ more, m, plan, rest, List.append_assoc .., hcourse⟩

theorem slots_failed_move {m m' : Moment κ} {mv : Move κ} (hm : Consistent m) (h : S.move m mv = some m') {k : κ}
    {e : Failure} {source : Option κ} (hk : m.state.slots k = .failed e source) :
    m'.state.slots k = .failed e source := by
  have hfollow : S.follow m [mv] = some m' := S.follow_cons_eq_some_iff.2 ⟨m', h, rfl⟩
  rw [S.slot_eq_of_follow hm hfollow (k := k) (by rw [hk]; rfl), hk]

theorem Keeps.move {m m' : Moment κ} {mv : Move κ} (hm : Consistent m) (h : S.move m mv = some m') {k : κ}
    {e : Failure} (he : S.Keeps m.state k e) : S.Keeps m'.state k e := by
  obtain ⟨hname, source, hk⟩ := he
  exact ⟨hname, source, slots_failed_move hm h hk⟩

theorem Backed.move {moves : List (Move κ)} {m m' : Moment κ} {mv : Move κ} (hm : Consistent m)
    (h : S.move m mv = some m') {key : κ} {e : Failure} (he : S.Backed moves m.state key e) :
    S.Backed (moves ++ [mv]) m'.state key e := by
  rcases he with ⟨k, hkeeps⟩ | ⟨k, rfl, hmet⟩
  · exact .inl ⟨k, hkeeps.move hm h⟩
  · exact .inr ⟨k, rfl, hmet.append [mv]⟩

/-! ## The invariant -/

variable (S) in
/-- failures taken over are backed, those in slots and those plans were given -/
structure Traced (moves : List (Move κ)) (m : Moment κ) : Prop where
  /-- finders keep failures under their own names -/
  named : ∀ k e source, m.state.slots k = .failed e source → e.finder = S.name k
  backed : ∀ k e source c, m.state.slots k = .failed e source → e.fault = c.asDependency → S.Backed moves m.state k c
  /-- a failure that is said to be another finder's is just that -/
  source : ∀ k e k', m.state.slots k = .failed e (some k') →
    ∃ c, e.fault = c.asDependency ∧ S.Keeps m.state k' c
  given : ∀ j ∈ m.stack, ∃ given, Relays given j.plan ∧ ∀ c ∈ given, S.Backed moves m.state j.key c

theorem traced_start : S.Traced [] .start where
  named k e source h := by cases h
  backed k e source c h := by cases h
  source k e k' h := by cases h
  given j hj := by cases hj

/-- an answer that is a failure is kept, or tells of a cycle that is met now -/
theorem backed_of_replay {moves : List (Move κ)} {m : Moment κ} (hcourse : S.follow .start moves = some m)
    (hm : S.Traced moves m) {key k : κ} {plan : Plan κ Finding} {rest : List (Job κ)}
    (hstack : m.stack = ⟨key, plan⟩ :: rest) (hwaits : Waits k plan) {e : Failure}
    (he : S.replay k (m.state.slots k) = some (.error e)) : S.Backed moves m.state key e := by
  cases hs : m.state.slots k with
  | unresolved => rw [hs] at he; cases he
  | resolved v => rw [hs] at he; cases he
  | failed e' source =>
    rw [hs] at he
    cases he
    exact .inl ⟨k, hm.named k e source hs, source, hs⟩
  | resolving =>
    rw [hs] at he
    cases he
    have hworking := ((S.follow_consistent hcourse).resolving_iff k).1 hs
    exact .inr ⟨k, rfl, moves, [], m, plan, rest, (List.append_nil moves).symm, hcourse, hstack, hwaits, hworking,
      asked_of_mem_working (follow_chained hcourse) hstack hworking⟩

omit [DecidableEq κ] in
theorem slots_of_sourceOf {st : State κ} {k k' : κ} (h : sourceOf k st = some k') :
    k' = k ∧ ∃ e source, st.slots k = .failed e source := by
  rw [sourceOf] at h
  split at h
  · rename_i e source hk
    exact ⟨(Option.some_inj.1 h).symm, e, source, hk⟩
  · cases h

omit [DecidableEq κ] in
/-- a plan that ends with the failure of a finder it names ends with what that one keeps -/
theorem Concludes.source {st : State κ} {plan : Plan κ Finding} {f : Fault} {k' : κ}
    (h : S.Concludes st plan (.fail f (some k'))) :
    ∃ c source, f = Failure.asDependency c ∧ st.slots k' = .failed c source := by
  generalize hs : some k' = source at h
  cases h with
  | fail f => cases hs
  | @depend k next e he =>
    obtain ⟨rfl, e', source', hk⟩ := slots_of_sourceOf hs.symm
    rw [hk] at he
    cases he
    exact ⟨e, source', rfl, hk⟩

/-- a plan goes on with failures that are backed, if it was given such -/
theorem Relays.proceeds {moves : List (Move κ)} {m : Moment κ} (hcourse : S.follow .start moves = some m)
    (hm : S.Traced moves m) {key : κ} {plan plan' : Plan κ Finding} {rest : List (Job κ)}
    (hstack : m.stack = ⟨key, plan⟩ :: rest) (hplan : S.Proceeds m.state plan plan') {given : List Failure}
    (h : Relays given plan) (hgiven : ∀ c ∈ given, S.Backed moves m.state key c) :
    ∃ given', Relays given' plan' ∧ ∀ c ∈ given', S.Backed moves m.state key c := by
  cases hplan with
  | findText needle q next => exact ⟨given, h _, hgiven⟩
  | findSignature sig a b next => exact ⟨given, h _, hgiven⟩
  | facts next => exact ⟨given, h _, hgiven⟩
  | tree next => exact ⟨given, h _, hgiven⟩
  | status k next => exact ⟨given, h _, hgiven⟩
  | @attempt k next r hr =>
    cases r with
    | ok v => exact ⟨given, h.1 v, hgiven⟩
    | error e =>
      have he : S.Backed moves m.state key e := backed_of_replay hcourse hm (k := k) hstack rfl hr
      exact ⟨e :: given, h.2 e, List.forall_mem_cons.2 ⟨he, hgiven⟩⟩
  | depend k next hv => exact ⟨given, h _, hgiven⟩

/-- a plan that ends with another finder's failure ends with one that is backed -/
theorem backed_of_concludes {moves : List (Move κ)} {m : Moment κ} (hcourse : S.follow .start moves = some m)
    (hm : S.Traced moves m) {key : κ} {plan : Plan κ Finding} {rest : List (Job κ)}
    (hstack : m.stack = ⟨key, plan⟩ :: rest) {c : Failure} {source : Option κ}
    (hplan : S.Concludes m.state plan (.fail c.asDependency source)) : S.Backed moves m.state key c := by
  generalize hf : c.asDependency = f at hplan
  cases hplan with
  | fail =>
    obtain ⟨given, hrelays, hgiven⟩ := hm.given ⟨key, .fail f⟩ (hstack ▸ List.mem_cons_self)
    exact hgiven c (hrelays c hf.symm)
  | depend k next he =>
    obtain rfl := Failure.asDependency_injective hf
    exact backed_of_replay hcourse hm (k := k) hstack rfl he

theorem move_traced (hrelays : ∀ k, Relays [] (S.plan k)) {moves : List (Move κ)} {m m' : Moment κ} {mv : Move κ}
    (hcourse : S.follow .start moves = some m) (h : S.move m mv = some m') (hm : S.Traced moves m) :
    S.Traced (moves ++ [mv]) m' := by
  have hc := S.follow_consistent hcourse
  refine ⟨?_, ?_, ?_, ?_⟩
  · intro k e source hk
    rcases failed_of_move h hk with hold | ⟨hname, -⟩
    · exact hm.named k e source hold
    · exact hname
  · intro k e source c hk hfault
    rcases failed_of_move h hk with hold | ⟨-, plan, rest, hstack, hplan⟩
    · exact (hm.backed k e source c hold hfault).move hc h
    · rw [hfault] at hplan
      exact (backed_of_concludes hcourse hm hstack hplan).move hc h
  · intro k e k' hk
    rcases failed_of_move h hk with hold | ⟨-, plan, rest, hstack, hplan⟩
    · obtain ⟨c, hfault, hkeeps⟩ := hm.source k e k' hold
      exact ⟨c, hfault, hkeeps.move hc h⟩
    · obtain ⟨c, source, hfault, hk'⟩ := hplan.source
      exact ⟨c, hfault, Keeps.move hc h ⟨hm.named k' c source hk', source, hk'⟩⟩
  · have hold : ∀ j ∈ m.stack, ∃ given, Relays given j.plan ∧
        ∀ c ∈ given, S.Backed (moves ++ [mv]) m'.state j.key c := by
      intro j hj
      obtain ⟨given, hplan, hgiven⟩ := hm.given j hj
      exact ⟨given, hplan, fun c hc' => (hgiven c hc').move hc h⟩
    have henter : ∀ key, ∀ j ∈ (S.enter m key).stack, ∃ given, Relays given j.plan ∧
        ∀ c ∈ given, S.Backed (moves ++ [mv]) m'.state j.key c := by
      intro key j hj
      rcases List.mem_cons.1 hj with rfl | hj
      · exact ⟨[], hrelays key, fun c hc' => absurd hc' List.not_mem_nil⟩
      · exact hold j hj
    cases S.turn_of_move h with
    | rests _ hm' _ _ =>
      rw [hm']
      exact fun j hj => absurd hj List.not_mem_nil
    | called _ _ => exact henter _
    | waited _ _ _ => exact henter _
    | @proceeded key plan plan' rest _ hstack hplan hm' _ _ =>
      intro j hj
      rw [hm'] at hj
      rcases List.mem_cons.1 hj with rfl | hj
      · obtain ⟨given, hplan', hgiven⟩ := hm.given ⟨key, plan⟩ (hstack ▸ List.mem_cons_self)
        obtain ⟨given', hplan', hgiven'⟩ := hplan'.proceeds hcourse hm hstack hplan hgiven
        exact ⟨given', hplan', fun c hc' => (hgiven' c hc').move hc h⟩
      · exact hold j (hstack ▸ List.mem_cons_of_mem _ hj)
    | concluded hstack _ => exact fun j hj => hold j (hstack ▸ List.mem_cons_of_mem _ hj)

theorem follow_traced (hrelays : ∀ k, Relays [] (S.plan k)) {moves : List (Move κ)} {m : Moment κ}
    (h : S.follow .start moves = some m) : S.Traced moves m := by
  induction moves using List.reverseRecOn generalizing m with
  | nil =>
    obtain rfl := Option.some_inj.1 h
    exact traced_start
  | append_singleton moves mv ih =>
    rw [S.follow_append] at h
    obtain ⟨m₁, hcourse, hlast⟩ := Option.bind_eq_some_iff.1 h
    obtain ⟨m₂, hmove, hend⟩ := S.follow_cons_eq_some_iff.1 hlast
    obtain rfl := Option.some_inj.1 hend
    exact move_traced hrelays hcourse hmove (ih hcourse)

/-! ## Chains -/

variable (S) in
/-- the failures of a chain with the finders that keep them; a last one that tells of a cycle need not be kept -/
structure Keepers (moves : List (Move κ)) (m : Moment κ) (e : Failure) (keys : List κ) (links : List Failure) : Prop where
  keeps : List.Forall₂ (S.Keeps m.state) keys links
  nodup : keys.Nodup
  chain : e.chain = links ∨ ∃ last k, keys.getLast? = some last ∧ S.CycleMet moves last k ∧
    e.chain = links ++ [S.cycleFailure k]

omit [DecidableEq κ] in
/-- who is among the keepers keeps a failure of the chain -/
theorem exists_mem_of_keeps {st : State κ} {keys : List κ} {links : List Failure}
    (h : List.Forall₂ (S.Keeps st) keys links) {k : κ} (hk : k ∈ keys) : ∃ c ∈ links, S.Keeps st k c := by
  induction h with
  | nil => contradiction
  | @cons k' c keys links hkeeps _ ih =>
    rcases List.mem_cons.1 hk with rfl | hk
    · exact ⟨c, List.mem_cons_self, hkeeps⟩
    · obtain ⟨c', hc', hkeeps'⟩ := ih hk
      exact ⟨c', List.mem_cons_of_mem _ hc', hkeeps'⟩

omit [DecidableEq κ] in
theorem finders_of_keeps {st : State κ} {keys : List κ} {links : List Failure}
    (h : List.Forall₂ (S.Keeps st) keys links) : links.map Failure.finder = keys.map S.name := by
  induction h with
  | nil => rfl
  | cons hkeeps _ ih => rw [List.map_cons, List.map_cons, hkeeps.1, ih]

/-- **Members of a chain are kept by different finders.** Induction along the chain: a finder keeps one failure, and
failures get less deep inwards. -/
theorem exists_keepers {moves : List (Move κ)} {m : Moment κ} (hm : S.Traced moves m) {key : κ} {e : Failure}
    (h : S.Keeps m.state key e) : ∃ keys links, S.Keepers moves m e (key :: keys) links := by
  induction e using Failure.chain_induction generalizing key with
  | root e he =>
    exact ⟨[], [e], .cons h .nil, List.nodup_singleton key, .inl (Failure.chain_of_kind he)⟩
  | link e c he ih =>
    obtain ⟨hname, source, hkey⟩ := h
    rcases hm.backed key e source c hkey he with ⟨k, hk⟩ | ⟨k, rfl, hmet⟩
    · obtain ⟨keys, links, hkeeps, hnodup, hchain⟩ := ih hk
      have hnew : key ∉ k :: keys := by
        intro hmem
        obtain ⟨c', hc', -, source', hkey'⟩ := exists_mem_of_keeps hkeeps hmem
        obtain rfl : c' = e := by
          rw [hkey] at hkey'
          cases hkey'
          rfl
        have hlink : c' ∈ c.chain := by
          rcases hchain with hchain | ⟨_, _, _, _, hchain⟩
          · exact hchain ▸ hc'
          · exact hchain ▸ List.mem_append_left _ hc'
        exact Nat.lt_irrefl _ (Nat.lt_of_lt_of_le (Failure.depth_lt_of_fault he) (Failure.depth_le_of_mem_chain hlink))
      refine ⟨k :: keys, e :: links, .cons ⟨hname, source, hkey⟩ hkeeps, List.nodup_cons.2 ⟨hnew, hnodup⟩, ?_⟩
      rw [Failure.chain_of_fault he]
      rcases hchain with hchain | ⟨last, k', hlast, hmet, hchain⟩
      · exact .inl (congrArg _ hchain)
      · exact .inr ⟨last, k', by rw [List.getLast?_cons_cons, hlast], hmet, congrArg _ hchain⟩
    · refine ⟨[], [e], .cons ⟨hname, source, hkey⟩ .nil, List.nodup_singleton key, .inr ⟨key, k, rfl, hmet, ?_⟩⟩
      have hkind : (S.cycleFailure k).kind ≠ .dependencyFailure := fun h => by cases h
      rw [Failure.chain_of_fault he, Failure.chain_of_kind hkind]
      rfl

/-- **Chains of failures are faithful.** Let every plan take failures of others over only as it was given them. At every
moment, a failure taken over from another one is just what a finder of that name keeps, or tells of a cycle that the finder
met; where the finder it was taken over from is on record, that one keeps it. The root is the first failure of the chain
that was not taken over, and is also that of the failure taken over. All failures of the chain, up to a last one that tells
of a cycle, are kept by different finders. A failure was taken over exactly if its chain has more than one member, and its
text names the finders of the chain in order. -/
theorem failures_faithful (hrelays : ∀ k, Relays [] (S.plan k)) {moves : List (Move κ)} {m : Moment κ}
    (h : S.follow .start moves = some m) {key : κ} {e : Failure} {source : Option κ}
    (hkey : m.state.slots key = .failed e source) :
    (∀ c : Failure, e.fault = c.asDependency → S.Backed moves m.state key c ∧ e.root = c.root) ∧
    (∀ k, source = some k → ∃ c, e.fault = c.asDependency ∧ S.Keeps m.state k c) ∧
    e.chain.find? (fun c => c.kind ≠ .dependencyFailure) = some e.root ∧
    (∃ keys links, S.Keepers moves m e (key :: keys) links ∧
      (Function.Injective S.name → (links.map Failure.finder).Nodup)) ∧
    (e.kind = .dependencyFailure ↔ 1 < e.chain.length) ∧
    e.message = " - dependency failed: ".intercalate (e.chain.map Failure.finder) ++ " - " ++ e.root.fault.message := by
  have hm := follow_traced hrelays h
  refine ⟨?_, ?_, e.find?_chain, ?_, Failure.kind_eq_dependencyFailure_iff_length, e.message_eq⟩
  · exact fun c hc => ⟨hm.backed key e source c hkey hc, Failure.root_of_fault hc⟩
  · rintro k rfl
    exact hm.source key e k hkey
  · obtain ⟨keys, links, hkeepers⟩ := exists_keepers hm ⟨hm.named key e source hkey, source, hkey⟩
    refine ⟨keys, links, hkeepers, fun hname => ?_⟩
    rw [finders_of_keeps hkeepers.keeps]
    exact hkeepers.nodup.map hname

theorem ringPlan_relays (closed : Bool) (k : Fin 3) : Relays [] (ringPlan closed k) :=
  match closed, k with
  | _, 0 => fun _ => trivial
  | _, 1 => fun _ => trivial
  | true, 2 => fun _ => trivial
  | false, 2 => nofun

/-- what comes of the first finder of the open ring -/
def ringFailure : Failure := ⟨"A", .dependency "B" (.dependency "C" (.anchorMissing "nothing to find"))⟩

/-- what comes of the third finder of the closed ring -/
def ringLastFailure : Failure := ⟨"C", .dependency "A" (.cyclic "A")⟩

/-- In the open ring the first finder fails for the reason of the third. In the closed one the third fails with that the
first is at work, which nobody keeps: it has met the cycle. -/
theorem ringSurvey_failures : ∃ m m', (ringSurvey false).follow .start ringMoves = some m ∧
    m.state.slots 0 = .failed ringFailure (some 1) ∧ ringFailure.kind = .dependencyFailure ∧
    ringFailure.root = ⟨"C", .anchorMissing "nothing to find"⟩ ∧
    (∃ c, ringFailure.fault = c.asDependency ∧ (ringSurvey false).Keeps m.state 1 c) ∧
    (ringSurvey true).follow .start ringMoves = some m' ∧ m'.state.slots 2 = .failed ringLastFailure none ∧
    (ringSurvey true).CycleMet ringMoves 2 0 := by
  obtain ⟨m, hm, hfirst⟩ : ∃ m, (ringSurvey false).follow .start ringMoves = some m ∧
      m.state.slots 0 = .failed ringFailure (some 1) := ⟨_, rfl, rfl⟩
  obtain ⟨m', hm', hlast, hothers⟩ : ∃ m, (ringSurvey true).follow .start ringMoves = some m ∧
      m.state.slots 2 = .failed ringLastFailure none ∧
      ∀ k e source, m.state.slots k = .failed e source → e.kind = .dependencyFailure := by
    refine ⟨_, rfl, rfl, ?_⟩
    have hall : ∀ k : Fin 3, k = 0 ∨ k = 1 ∨ k = 2 := by decide
    intro k e source hk
    rcases hall k with rfl | rfl | rfl
    · cases hk; rfl
    · cases hk; rfl
    · cases hk; rfl
  obtain ⟨-, hsource, hroot, -, hkind, -⟩ := failures_faithful (ringPlan_relays false) hm hfirst
  obtain ⟨hbacked, -⟩ := failures_faithful (ringPlan_relays true) hm' hlast
  refine ⟨m, m', hm, hfirst, hkind.2 (by decide), (Option.some_inj.1 hroot).symm, hsource 1 rfl, hm', hlast, ?_⟩
  rcases (hbacked ((ringSurvey true).cycleFailure 0) rfl).1 with ⟨k, -, source, hk⟩ | ⟨k, hk, hmet⟩
  · cases hothers k _ source hk
  · have hfirst' : ∀ k, (ringSurvey true).cycleFailure 0 = (ringSurvey true).cycleFailure k → k = 0 := by decide
    rwa [hfirst' k hk] at hmet

end Survey

end Landmark
