/-
The resource tree, whenever it is asked for.

A survey keeps the tree in its store like anything else, so others might put something else under its key. As long as they do
not (`SparesTree`), nothing or the tree of the image stands there (`Genuine`), at every moment of every course.
- `StoreRequest.run_of_call`: a request that carries no others is a call to the cache.
- `StoreRequest.held_run`: what a request cannot change.
- `store_of_move`: what one move can do to the store.
- `follow_genuine`: the invariant.
- `tree_of_holds`, `holds_of_follow`: a tree that stands there is given again, and stays.
- `treeReads_le`: if the image has a tree, it is read once at most.
- `store_exact`: the laws of the cache, and what they come to for the tree.
-/
import Landmark.Proofs.Resource.Reading
import Landmark.Proofs.Survey.Cache
import Landmark.Proofs.Survey.Course

namespace Landmark

/-! ## Requests to the store -/

namespace StoreRequest

/-- a request that carries no others, as a call -/
def call? : StoreRequest → Option (Cache.Call ItemKind.Carrier String)
  | contains key => some (.contains key)
  | get key kind => some (.get key kind)
  | obtain key kind value [] none => some (.obtain key kind (.ok value))
  | obtain key kind _ [] (some message) => some (.obtain key kind (.error message))
  | _ => none

theorem run_of_call {r : StoreRequest} {call : Cache.Call ItemKind.Carrier String} (h : r.call? = some call)
    (store : Store) : (r.run store).2 = store.after call := by
  cases r with
  | contains key => cases h; rfl
  | get key kind => cases h; rfl
  | obtain key kind value during refusal =>
    cases during with
    | cons r rs => contradiction
    | nil =>
      cases refusal <;>
      · cases h
        simp only [run, runAll, Cache.after, Cache.request, Cache.obtain]
        cases store.get? key kind <;> rfl

mutual

/-- neither the request nor any other made while it runs could put anything under the key -/
def avoids (k : String) : StoreRequest → Bool
  | contains _ => true
  | get _ _ => true
  | obtain key _ _ during _ => key != k && avoidsAll k during

/-- nor could any of these -/
def avoidsAll (k : String) : List StoreRequest → Bool
  | [] => true
  | r :: rs => r.avoids k && avoidsAll k rs

end

mutual

theorem held_run {k : String} (store : Store) :
    ∀ r : StoreRequest, r.avoids k = true → (r.run store).2.held k = store.held k
  | contains _, _ => rfl
  | get _ _, _ => rfl
  | obtain key kind value during refusal, h => by
    simp only [avoids, Bool.and_eq_true, bne_iff_ne] at h
    have hduring := held_runAll store during h.2
    simp only [run, Cache.obtain]
    cases store.get? key kind with
    | some found => rfl
    | none =>
      cases refusal with
      | some message => exact hduring
      | none => exact (Cache.held_put_of_ne (Ne.symm h.1) value).trans hduring

theorem held_runAll {k : String} (store : Store) :
    ∀ rs : List StoreRequest, avoidsAll k rs = true → (runAll store rs).2.held k = store.held k
  | [], _ => rfl
  | r :: rs, h => by
    simp only [avoidsAll, Bool.and_eq_true] at h
    exact (held_runAll (r.run store).2 rs h.2).trans (held_run store r h.1)

end

end StoreRequest

namespace Survey

variable {κ : Type} (S : Survey κ)

/-! ## Asking for the tree -/

/-- nothing stands under the key of the tree, or the tree of the image -/
def Genuine (store : Store) : Prop :=
  store.held treeKey = none ∨ ∃ h, store.Holds treeKey .tree h ∧ S.readTree = .ok h.value

/-- the tree has to be read when it is asked for -/
def readsTree (store : Store) : Bool :=
  (store.request treeKey .tree S.readTree).1.1

/-- whoever asks for the tree makes that request, and nothing else happens -/
theorem tree_eq (st : State κ) : S.tree st =
    ((st.store.request treeKey .tree S.readTree).1.2,
      { st with store := (st.store.request treeKey .tree S.readTree).2 }) := rfl

/-- a tree that is held is the answer, and the state stays as it is -/
theorem tree_of_holds {st : State κ} {t : Handle ResourceNode} (ht : st.store.Holds treeKey .tree t) :
    S.tree st = (.ok t, st) := by
  rw [tree_eq, Cache.request_of_holds ht]

variable {S}

theorem not_holds_of_none {store : Store} (h : store.held treeKey = none) (t : Handle ResourceNode) :
    ¬ store.Holds treeKey .tree t := by
  intro ht
  rw [Cache.Holds, h] at ht
  contradiction

/-- **The answer is what reading the image gives.** -/
theorem Genuine.answer {st : State κ} (h : S.Genuine st.store) : (S.tree st).1.map Handle.value = S.readTree := by
  rw [tree_eq]
  rcases h with hnone | ⟨t, ht, hread⟩
  · have hno := not_holds_of_none hnone
    cases hread : S.readTree with
    | error f => rw [Cache.request_error hno]; rfl
    | ok root => rw [Cache.request_ok hno]; rfl
  · rw [Cache.request_of_holds ht, hread]
    rfl

theorem Genuine.tree {st : State κ} (h : S.Genuine st.store) : S.Genuine (S.tree st).2.store := by
  rw [tree_eq]
  rcases h with hnone | ⟨t, ht, hread⟩
  · have hno := not_holds_of_none hnone
    cases hread : S.readTree with
    | error f => rw [Cache.request_error hno]; exact .inl hnone
    | ok root =>
      rw [Cache.request_ok hno]
      exact .inr ⟨_, Cache.holds_put _, hread⟩
  · rw [Cache.request_of_holds ht]
    exact .inr ⟨t, ht, hread⟩

theorem readsTree_of_holds {store : Store} {t : Handle ResourceNode} (ht : store.Holds treeKey .tree t) :
    S.readsTree store = false := by
  rw [readsTree, Cache.request_of_holds ht]

theorem holds_tree (st : State κ) {root : ResourceNode} (hroot : S.readTree = .ok root) :
    ∃ t, (S.tree st).2.store.Holds treeKey .tree t := by
  rw [tree_eq, hroot]
  by_cases hheld : ∃ t, st.store.Holds treeKey .tree t
  · obtain ⟨t, ht⟩ := hheld
    rw [Cache.request_of_holds ht]
    exact ⟨t, ht⟩
  · rw [Cache.request_ok fun t ht => hheld ⟨t, ht⟩]
    exact ⟨_, @Cache.holds_put _ _ st.store treeKey .tree root⟩

/-! ## Along a course -/

variable [DecidableEq κ]

/-- the move asks for the tree -/
def asksTree (m : Moment κ) : Move κ → Bool
  | .act .tree => true
  | .work =>
    match m.stack with
    | ⟨_, .tree _⟩ :: _ => true
    | _ => false
  | _ => false

omit [DecidableEq κ] in
theorem store_facts (st : State κ) : (S.facts st).2.store = st.store := by
  unfold facts
  split <;> rfl

/-- **What one move can do to the store.** It asks for the tree, or makes one request, or leaves the store alone. -/
theorem store_of_move {m m' : Moment κ} {mv : Move κ} (h : S.move m mv = some m') :
    asksTree m mv = true ∧ m'.state.store = (S.tree m.state).2.store ∨
    asksTree m mv = false ∧ (m'.state.store = m.state.store ∨
      ∃ r, mv = .act (.store r) ∧ m'.state.store = (r.run m.state.store).2) := by
  obtain ⟨stack, st, begun, surveyed⟩ := m
  cases mv with
  | act a =>
    obtain ⟨-, h⟩ := Option.ite_none_right_eq_some.1 h
    obtain rfl := Option.some_inj.1 h
    cases a with
    | load key =>
      refine .inr ⟨rfl, .inl ?_⟩
      rw [perform]
      split <;> rfl
    | facts => exact .inr ⟨rfl, .inl (S.store_facts st)⟩
    | tree => exact .inl ⟨rfl, rfl⟩
    | store r => exact .inr ⟨rfl, .inr ⟨r, rfl, rfl⟩⟩
  | work =>
    rw [move] at h
    cases stack with
    | nil => contradiction
    | cons job rest =>
      obtain ⟨key, plan⟩ := job
      cases plan with
      | done v => cases h; exact .inr ⟨rfl, .inl rfl⟩
      | fail f => cases h; exact .inr ⟨rfl, .inl rfl⟩
      | findText needle q next => cases h; exact .inr ⟨rfl, .inl rfl⟩
      | findSignature sig a b next => cases h; exact .inr ⟨rfl, .inl rfl⟩
      | facts next => cases h; exact .inr ⟨rfl, .inl (S.store_facts st)⟩
      | tree next => cases h; exact .inl ⟨rfl, rfl⟩
      | status k next => cases h; exact .inr ⟨rfl, .inl rfl⟩
      | attempt k next =>
        simp only [advance] at h
        split at h <;> (cases h; exact .inr ⟨rfl, .inl rfl⟩)
      | depend k next =>
        simp only [advance] at h
        split at h <;> (cases h; exact .inr ⟨rfl, .inl rfl⟩)

/-- no request of a course changes what stands under the key of the tree -/
def SparesTree (S : Survey κ) (m : Moment κ) (moves : List (Move κ)) : Prop :=
  ∀ before r after m', moves = before ++ .act (.store r) :: after → S.follow m before = some m' →
    (r.run m'.state.store).2.held "RsrcTree" = m'.state.store.held "RsrcTree"

/-- requests that could put nothing under the key spare the tree -/
theorem sparesTree_of_avoids {moves : List (Move κ)} (h : ∀ r, .act (.store r) ∈ moves → r.avoids treeKey = true)
    (m : Moment κ) : S.SparesTree m moves := by
  rintro before r after m' rfl -
  exact StoreRequest.held_run _ r (h r (by simp))

theorem SparesTree.head {m : Moment κ} {r : StoreRequest} {moves : List (Move κ)}
    (h : S.SparesTree m (.act (.store r) :: moves)) :
    (r.run m.state.store).2.held treeKey = m.state.store.held treeKey :=
  h [] r moves m rfl rfl

theorem SparesTree.tail {m m' : Moment κ} {mv : Move κ} {moves : List (Move κ)} (h : S.SparesTree m (mv :: moves))
    (hmv : S.move m mv = some m') : S.SparesTree m' moves := by
  rintro before r after m₁ rfl hbefore
  exact h (mv :: before) r after m₁ rfl (S.follow_cons_eq_some_iff.2 ⟨m', hmv, hbefore⟩)

/-- what stands under the key after a move that does not ask for the tree -/
theorem held_of_move {m m' : Moment κ} {mv : Move κ} {moves : List (Move κ)} (hspares : S.SparesTree m (mv :: moves))
    (h : S.move m mv = some m') (hasks : asksTree m mv = false) :
    m'.state.store.held treeKey = m.state.store.held treeKey := by
  rcases store_of_move h with ⟨hyes, -⟩ | ⟨-, hsame | ⟨r, rfl, hrun⟩⟩
  · rw [hasks] at hyes
    contradiction
  · rw [hsame]
  · rw [hrun]
    exact hspares.head

omit [DecidableEq κ] in
theorem genuine_of_held {store store' : Store} (h : S.Genuine store) (hheld : store'.held treeKey = store.held treeKey) :
    S.Genuine store' := by
  unfold Genuine Cache.Holds at h ⊢
  rwa [hheld]

theorem move_genuine {m m' : Moment κ} {mv : Move κ} {moves : List (Move κ)} (hm : S.Genuine m.state.store)
    (hspares : S.SparesTree m (mv :: moves)) (h : S.move m mv = some m') : S.Genuine m'.state.store := by
  rcases store_of_move h with ⟨-, htree⟩ | ⟨hasks, -⟩
  · rw [htree]
    exact hm.tree
  · exact genuine_of_held hm (held_of_move hspares h hasks)

/-- **Under the key of the tree there is never anything but the tree of the image.** -/
theorem follow_genuine {m m' : Moment κ} {moves : List (Move κ)} (hm : S.Genuine m.state.store)
    (hspares : S.SparesTree m moves) (h : S.follow m moves = some m') : S.Genuine m'.state.store := by
  induction moves generalizing m with
  | nil =>
    obtain rfl := Option.some.inj h
    exact hm
  | cons mv moves ih =>
    obtain ⟨m₁, hmv, hrest⟩ := S.follow_cons_eq_some_iff.1 h
    exact ih (move_genuine hm hspares hmv) (hspares.tail hmv) hrest

/-- a tree that stands under its key is still there after a move -/
theorem holds_of_move {m m' : Moment κ} {mv : Move κ} {moves : List (Move κ)} {t : Handle ResourceNode}
    (ht : m.state.store.Holds treeKey .tree t) (hspares : S.SparesTree m (mv :: moves)) (h : S.move m mv = some m') :
    m'.state.store.Holds treeKey .tree t := by
  rcases store_of_move h with ⟨-, htree⟩ | ⟨hasks, -⟩
  · rw [htree, S.tree_of_holds ht]
    exact ht
  · exact (held_of_move hspares h hasks).trans ht

/-- **A tree that stands under its key stays there**, and is never another one. -/
theorem holds_of_follow {m m' : Moment κ} {moves : List (Move κ)} {t : Handle ResourceNode}
    (ht : m.state.store.Holds treeKey .tree t) (hspares : S.SparesTree m moves) (h : S.follow m moves = some m') :
    m'.state.store.Holds treeKey .tree t := by
  induction moves generalizing m with
  | nil =>
    obtain rfl := Option.some.inj h
    exact ht
  | cons mv moves ih =>
    obtain ⟨m₁, hmv, hrest⟩ := S.follow_cons_eq_some_iff.1 h
    exact ih (holds_of_move ht hspares hmv) (hspares.tail hmv) hrest

/-- number of times the tree is read along a course -/
def treeReads (S : Survey κ) (m : Moment κ) : List (Move κ) → Nat
  | [] => 0
  | mv :: moves =>
    (if asksTree m mv && S.readsTree m.state.store then 1 else 0) +
      match S.move m mv with
      | some m' => treeReads S m' moves
      | none => 0

/-- a tree that stands under its key is not read again -/
theorem treeReads_of_holds {m m' : Moment κ} {moves : List (Move κ)} {t : Handle ResourceNode}
    (ht : m.state.store.Holds treeKey .tree t) (hspares : S.SparesTree m moves) (h : S.follow m moves = some m') :
    S.treeReads m moves = 0 := by
  induction moves generalizing m with
  | nil => rfl
  | cons mv moves ih =>
    obtain ⟨m₁, hmv, hrest⟩ := S.follow_cons_eq_some_iff.1 h
    rw [treeReads, hmv]
    simp [readsTree_of_holds ht, ih (holds_of_move ht hspares hmv) (hspares.tail hmv) hrest]

/-- **A tree that the image has is read once at most.** -/
theorem treeReads_le {m m' : Moment κ} {moves : List (Move κ)} {root : ResourceNode} (hroot : S.readTree = .ok root)
    (hspares : S.SparesTree m moves) (h : S.follow m moves = some m') : S.treeReads m moves ≤ 1 := by
  induction moves generalizing m with
  | nil => exact Nat.zero_le 1
  | cons mv moves ih =>
    obtain ⟨m₁, hmv, hrest⟩ := S.follow_cons_eq_some_iff.1 h
    rw [treeReads, hmv]
    dsimp only
    rcases store_of_move hmv with ⟨-, htree⟩ | ⟨hasks, -⟩
    · obtain ⟨t, ht⟩ := holds_tree m.state hroot
      rw [treeReads_of_holds (htree ▸ ht) (hspares.tail hmv) hrest]
      split <;> simp
    · rw [hasks]
      simpa using ih (hspares.tail hmv) hrest

/-- **What a survey keeps, and the tree above all.** Every cache keeps the laws, and requests to the store are calls to a
cache. Asking for the tree is such a call: it builds by reading the image, so a tree that is held is given again, the very
same one, and the state stays as it is. So at every moment of a course that spares the key of the tree, whoever asks for the
tree is answered as by reading it from the directory that the metadata name, or that there is none; a tree that is held then
is what everybody gets from then on; and a tree that can be read is read once at most. -/
theorem store_exact (S : Survey κ) {τ : Type} [DecidableEq τ] (carrier : τ → Type) (ε : Type) :
    Cache.Laws carrier ε ∧
    (∀ (r : StoreRequest) call store, r.call? = some call → (r.run store).2 = store.after call) ∧
    (∀ st : State κ, S.tree st = ((st.store.request "RsrcTree" .tree S.readTree).1.2,
      { st with store := (st.store.request "RsrcTree" .tree S.readTree).2 })) ∧
    (∀ (st : State κ) t, st.store.Holds "RsrcTree" .tree t → S.tree st = (.ok t, st)) ∧
    ∀ moves m, S.follow .start moves = some m → S.SparesTree .start moves →
      (S.image.metadata.resourceDirectory = none →
        (S.tree m.state).1.map Handle.value = .error (.anchorMissing "resource directory not found")) ∧
      (∀ base, S.image.metadata.resourceDirectory = some base →
        (S.tree m.state).1.map Handle.value = Resource.readTree S.image base) ∧
      (∀ t, m.state.store.Holds "RsrcTree" .tree t → ∀ more m', S.follow m more = some m' → S.SparesTree m more →
        S.tree m'.state = (.ok t, m'.state)) ∧
      ∀ root, S.readTree = .ok root → S.treeReads .start moves ≤ 1 := by
  refine ⟨Cache.laws carrier ε, fun r call store h => r.run_of_call h store, S.tree_eq, fun _ _ ht => S.tree_of_holds ht, ?_⟩
  intro moves m h hspares
  have hanswer : (S.tree m.state).1.map Handle.value = S.readTree := (follow_genuine (.inl rfl) hspares h).answer
  refine ⟨?_, ?_, ?_, fun root hroot => treeReads_le hroot hspares h⟩
  · intro hdir
    rw [hanswer, readTree, hdir]
  · intro base hdir
    rw [hanswer, readTree, hdir]
  · intro t ht more m' hmore hspares'
    exact S.tree_of_holds (holds_of_follow ht hspares' hmore)

/-- a finder that asks for the tree twice -/
def twiceSurvey : Survey Unit where
  image := { Resource.namedImage with
    metadata := { Metadata.unknown with resourceDirectory := some 0 }
    sound := rfl }
  thresholds := .standard
  name _ := "LEAF"
  plan _ := .tree fun _ => .tree fun
    | .ok _ => .done (.global ⟨"leaf", 0⟩)
    | .error f => .fail f
  keys := [()]
  mem_keys _ := List.mem_singleton_self _

/-- something is put under another key, the finder is loaded, and the tree is asked for once more -/
def twiceMoves : List (Move Unit) :=
  [.act (.store (.obtain "size" .number 7 [] none)), .act (.load ()), .work, .work, .work, .act .tree]

/-- of three times that the tree is asked for it is read in the first, and whoever asks again gets the same one -/
theorem twiceSurvey_reads_once :
    ∃ m, twiceSurvey.follow .start twiceMoves = some m ∧
      (twiceSurvey.tree m.state).1.map Handle.value = .ok Resource.namedTree ∧
      twiceSurvey.tree m.state = (.ok ⟨1, Resource.namedTree⟩, m.state) ∧
      twiceSurvey.treeReads .start twiceMoves = 1 := by
  have hspares : twiceSurvey.SparesTree .start twiceMoves := by
    refine sparesTree_of_avoids (fun r hr => ?_) _
    simp only [twiceMoves, List.mem_cons, reduceCtorEq, Move.act.injEq, Act.store.injEq, List.not_mem_nil, or_false] at hr
    subst hr
    rfl
  obtain ⟨m, hm, hholds⟩ : ∃ m, twiceSurvey.follow .start twiceMoves = some m ∧
      m.state.store.Holds "RsrcTree" .tree ⟨1, Resource.namedTree⟩ := ⟨_, rfl, rfl⟩
  obtain ⟨-, -, -, hheld, hcourse⟩ := twiceSurvey.store_exact ItemKind.Carrier String
  obtain ⟨-, hanswer, -, hreads⟩ := hcourse twiceMoves m hm hspares
  exact ⟨m, hm, hanswer 0 rfl, hheld m.state _ hholds, Nat.le_antisymm (hreads _ rfl) (by decide +kernel)⟩

end Survey

end Landmark
