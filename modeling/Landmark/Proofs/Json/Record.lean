/-
Records and tagged values are read as they were written.

- `word?_eq_some_iff`, `byte?_eq_some_iff`: a number in range is written with digits alone.
- `memberValues?_members`: an object gives each known key what stands under it, unless that is more than one value.
- `record?_ofMembers`: an object whose keys are the names of the fields, each once, gives the fields.
- `tagged?_ofMembers`: an object that starts with its tag gives the variant and the other members.
- `soundWithin_ofMembers`, `soundWithin_array`: how deep a value may stand is asked of its parts, one level less deep.
-/
import Landmark.Json.Decode

namespace Landmark

namespace Json

/-! ## Scalars -/

theorem natBelow?_ofNat {n limit : Nat} (h : n < limit) : (ofNat n).natBelow? limit = some n := by
  have hnat : (Number.ofNat n).nat? = some n := rfl
  rw [ofNat, natBelow?, hnat]
  exact if_pos h

theorem word?_ofNat (w : UInt32) : (ofNat w.toNat).word? = some w := by
  rw [word?, natBelow?_ofNat w.toNat_lt, Option.map_some, UInt32.ofNat_toNat]

/-- the value is a natural number, written with digits alone -/
def IsNat (v : Json) (n : Nat) : Prop :=
  ∃ x, v = .number x ∧ x.nat? = some n

theorem isNat_ofNat (n : Nat) : (ofNat n).IsNat n := ⟨_, rfl, rfl⟩

theorem natBelow?_eq_some_iff {limit n : Nat} {v : Json} : v.natBelow? limit = some n ↔ v.IsNat n ∧ n < limit := by
  cases v with
  | number x =>
    simp only [natBelow?, IsNat, number.injEq, exists_eq_left']
    cases hx : x.nat? with
    | none => simp
    | some m =>
      by_cases hm : m < limit
      · simp only [if_pos hm, Option.some.injEq]
        constructor
        · rintro rfl
          exact ⟨rfl, hm⟩
        · exact And.left
      · simp only [if_neg hm, reduceCtorEq, Option.some.injEq, false_iff, not_and]
        rintro rfl
        exact hm
  | _ => simp [natBelow?, IsNat]

theorem word?_eq_some_iff {v : Json} {w : UInt32} : v.word? = some w ↔ v.IsNat w.toNat := by
  simp only [word?, Option.map_eq_some_iff, natBelow?_eq_some_iff]
  constructor
  · rintro ⟨n, ⟨hv, hn⟩, rfl⟩
    rwa [UInt32.toNat_ofNat_of_lt' hn]
  · intro hv
    exact ⟨w.toNat, ⟨hv, w.toNat_lt⟩, UInt32.ofNat_toNat⟩

theorem byte?_eq_some_iff {v : Json} {b : UInt8} : v.byte? = some b ↔ v.IsNat b.toNat := by
  simp only [byte?, Option.map_eq_some_iff, natBelow?_eq_some_iff]
  constructor
  · rintro ⟨n, ⟨hv, hn⟩, rfl⟩
    rwa [UInt8.toNat_ofNat_of_lt' hn]
  · intro hv
    exact ⟨b.toNat, ⟨hv, b.toNat_lt⟩, UInt8.ofNat_toNat⟩

/-- what a list of values was written from -/
theorem mapM_map {α : Type} {read? : Json → Option α} {write : α → Json} {as : List α}
    (h : ∀ a ∈ as, read? (write a) = some a) : (as.map write).mapM read? = some as := by
  induction as with
  | nil => rfl
  | cons a as ih =>
    rw [List.map_cons, List.mapM_cons, h a List.mem_cons_self, ih fun b hb => h b (List.mem_cons_of_mem a hb)]
    rfl

/-! ## Objects -/

/-- members with keys that have a text -/
def members (ms : List (String × Json)) : List (Option String × Json) :=
  ms.map fun m => (some m.1, m.2)

theorem withKey_cons_self (k : String) (v : Json) (ms : List (Option String × Json)) :
    withKey k ((some k, v) :: ms) = (some k, v) :: withKey k ms := by
  rw [withKey, List.filter_cons_of_pos (by simp), withKey]

theorem withKey_cons_of_ne {k k' : String} (h : k' ≠ k) (v : Json) (ms : List (Option String × Json)) :
    withKey k ((some k', v) :: ms) = withKey k ms := by
  rw [withKey, List.filter_cons_of_neg (by simpa using h), withKey]

theorem withKey_of_not_mem {k : String} {ms : List (String × Json)} (h : k ∉ ms.map Prod.fst) :
    withKey k (members ms) = [] := by
  rw [withKey, List.filter_eq_nil_iff]
  intro m hm
  obtain ⟨e, he, rfl⟩ := List.mem_map.1 hm
  simpa using fun hk : e.1 = k => h (hk ▸ List.mem_map_of_mem he)

/-- where no key stands twice, a member is the only one with its key -/
theorem withKey_of_mem {ms : List (String × Json)} (hnodup : (ms.map Prod.fst).Nodup) {k : String} {v : Json}
    (h : (k, v) ∈ ms) : withKey k (members ms) = [(some k, v)] := by
  induction ms with
  | nil => contradiction
  | cons m ms ih =>
    obtain ⟨k', v'⟩ := m
    obtain ⟨hnot, hrest⟩ := List.nodup_cons.1 hnodup
    rcases List.mem_cons.1 h with heq | hmem
    · obtain ⟨rfl, rfl⟩ := Prod.mk.inj heq
      exact (withKey_cons_self k v _).trans (congrArg _ (withKey_of_not_mem hnot))
    · have hne : k' ≠ k := by
        rintro rfl
        exact hnot (List.mem_map.2 ⟨(k', v), hmem, rfl⟩)
      exact (withKey_cons_of_ne hne v' _).trans (ih hrest hmem)

theorem isSome_members (ms : List (String × Json)) : (members ms).all (·.1.isSome) = true := by
  rw [List.all_eq_true]
  intro m hm
  obtain ⟨e, -, rfl⟩ := List.mem_map.1 hm
  rfl

/-- members whose keys all have a text -/
theorem exists_members {ms : List (Option String × Json)} (h : ms.all (·.1.isSome) = true) :
    ∃ ms' : List (String × Json), ms = members ms' := by
  induction ms with
  | nil => exact ⟨[], rfl⟩
  | cons m ms ih =>
    obtain ⟨k, v⟩ := m
    obtain ⟨hk, hrest⟩ := Bool.and_eq_true_iff.1 h
    obtain ⟨k, rfl⟩ := Option.isSome_iff_exists.1 hk
    obtain ⟨ms', rfl⟩ := ih hrest
    exact ⟨(k, v) :: ms', rfl⟩

/-- what stands under a key, in order -/
def under (key : String) (ms : List (String × Json)) : List Json :=
  (ms.filter (·.1 == key)).map (·.2)

theorem withKey_members (key : String) (ms : List (String × Json)) :
    withKey key (members ms) = (under key ms).map fun v => (some key, v) := by
  induction ms with
  | nil => rfl
  | cons m ms ih =>
    obtain ⟨k, v⟩ := m
    by_cases hk : k = key
    · subst hk
      have hunder : under k ((k, v) :: ms) = v :: under k ms := by simp [under]
      rw [hunder, List.map_cons, ← ih]
      exact withKey_cons_self k v _
    · have hunder : under key ((k, v) :: ms) = under key ms := by simp [under, hk]
      rw [hunder, ← ih]
      exact withKey_cons_of_ne hk v _

/-- **An object gives each known key what stands under it.** It gives nothing if that is more than one value for some. -/
theorem memberValues?_members (names : List String) (ms : List (String × Json)) :
    memberValues? names (members ms) =
      if names.all (fun n => (under n ms).length ≤ 1) then some (names.map fun n => (under n ms).head?) else none := by
  have hhead : ∀ n, ((withKey n (members ms)).head?.map (·.2)) = (under n ms).head? := by
    intro n
    rw [withKey_members, List.head?_map, Option.map_map]
    exact Option.map_id'
  simp only [memberValues?, isSome_members, Bool.true_and, hhead]
  simp only [withKey_members, List.length_map]

theorem memberValues?_eq_some_iff {names : List String} {ms : List (Option String × Json)} {vs : List (Option Json)} :
    memberValues? names ms = some vs ↔ ∃ ms', ms = members ms' ∧ (∀ n ∈ names, (under n ms').length ≤ 1) ∧
      (names.map fun n => (under n ms').head?) = vs := by
  constructor
  · intro h
    obtain ⟨hkeys, -⟩ := Bool.and_eq_true_iff.1 (Option.ite_none_right_eq_some.1 h).1
    obtain ⟨ms', rfl⟩ := exists_members hkeys
    rw [memberValues?_members, Option.ite_none_right_eq_some] at h
    exact ⟨ms', rfl, by simpa using h.1, Option.some.inj h.2⟩
  · rintro ⟨ms', rfl, honce, rfl⟩
    rw [memberValues?_members, if_pos (by simpa using honce)]

theorem eq_singleton_iff {vs : List Json} {v : Json} : vs = [v] ↔ vs.length ≤ 1 ∧ vs.head? = some v := by
  match vs with
  | [] => simp
  | [_] => simp
  | _ :: _ :: _ => simp

/-- **A record gives its fields**, if it was written with all of them and no key twice. -/
theorem record?_ofMembers (names : List String) {ms : List (String × Json)} (hnames : ms.map Prod.fst = names)
    (hnodup : names.Nodup) : (ofMembers ms).record? names = some (ms.map fun m => some m.2) := by
  subst hnames
  have hsingle : ∀ m ∈ ms, withKey m.1 (members ms) = [(some m.1, m.2)] := fun m hm => withKey_of_mem hnodup hm
  have honce : (ms.map Prod.fst).all (fun n => (withKey n (members ms)).length ≤ 1) = true := by
    rw [List.all_eq_true]
    intro n hn
    obtain ⟨m, hm, rfl⟩ := List.mem_map.1 hn
    simp [hsingle m hm]
  have hvalues : (ms.map Prod.fst).map (fun n => (withKey n (members ms)).head?.map (·.2)) = ms.map fun m => some m.2 := by
    rw [List.map_map]
    refine List.map_congr_left fun m hm => ?_
    simp [hsingle m hm]
  change memberValues? (ms.map Prod.fst) (members ms) = _
  rw [memberValues?, isSome_members, honce, hvalues]
  rfl

/-- **A tagged value gives its variant and its content**, if its tag comes first and stands nowhere else. -/
theorem tagged?_ofMembers {tag variant : String} {names : List String} {p : Place} (keys : List String)
    {ms : List (String × Json)} (hkeys : ms.map Prod.fst = keys) (htag : tag ∉ keys) (hvariant : variant ∈ names)
    (hold : (ofMembers ((tag, ofString variant) :: ms)).holdable p = true) :
    (ofMembers ((tag, ofString variant) :: ms)).tagged? tag names p = some (variant, ofMembers ms) := by
  subst hkeys
  have hkey : withKey tag ((some tag, ofString variant) :: members ms) = [(some tag, ofString variant)] :=
    (withKey_cons_self tag _ _).trans (congrArg _ (withKey_of_not_mem htag))
  have hrest : ((some tag, ofString variant) :: members ms).filter (·.1 != some tag) = members ms := by
    rw [List.filter_cons_of_neg (by simp), List.filter_eq_self]
    intro m hm
    obtain ⟨e, he, rfl⟩ := List.mem_map.1 hm
    simpa using fun hk : e.1 = tag => htag (hk ▸ List.mem_map_of_mem he)
  have hname : variant? names p (ofString variant) = some variant := if_pos (List.contains_iff_mem.2 hvariant)
  change (object ((some tag, ofString variant) :: members ms)).holdable p = true at hold
  change (object ((some tag, ofString variant) :: members ms)).tagged? tag names p = some (variant, object (members ms))
  simp only [tagged?, if_pos hold, hkey, hname, hrest, Option.map_some]

/-! ## Values held in memory -/

theorem itemsSound_iff {levels : Nat} {vs : List Json} :
    itemsSound levels vs = true ↔ ∀ v ∈ vs, v.soundWithin levels = true := by
  induction vs with
  | nil => simp [itemsSound]
  | cons v vs ih => simp [itemsSound, ih]

theorem soundWithin_array {levels : Nat} {vs : List Json} :
    (array vs).soundWithin (levels + 1) = true ↔ ∀ v ∈ vs, v.soundWithin levels = true := by
  rw [soundWithin, itemsSound_iff]

theorem soundWithin_ofMembers {levels : Nat} {ms : List (String × Json)} :
    (ofMembers ms).soundWithin (levels + 1) = true ↔ ∀ m ∈ ms, m.2.soundWithin levels = true := by
  rw [ofMembers, soundWithin]
  induction ms with
  | nil => simp [membersSound]
  | cons m ms ih => simp [membersSound, ih]

theorem soundWithin_ofString (levels : Nat) (s : String) : (ofString s).soundWithin levels = true := rfl

/-- no word is too large for a number -/
theorem overflows_ofNat {n : Nat} (h : n < UInt64.size) : (Number.ofNat n).overflows = false := by
  have hlength : (Nat.toDigits 10 n).length ≤ 20 :=
    (Nat.length_toDigits_le_iff (by decide) (by decide)).2 (Nat.lt_trans h (by decide))
  have hleading : Number.leading n = (n, 0) := by
    rw [Number.leading, Nat.sub_eq_zero_of_le hlength]
    simp [h]
  simp [Number.overflows, Number.ofNat, hleading]

theorem soundWithin_ofNat (levels : Nat) {n : Nat} (h : n < UInt64.size) : (ofNat n).soundWithin levels = true := by
  rw [ofNat, soundWithin, overflows_ofNat h]
  rfl

end Json

end Landmark
