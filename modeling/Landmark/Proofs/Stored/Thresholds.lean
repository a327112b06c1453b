/-
Thresholds files say what they give and nothing else.

A threshold is a word, a byte or a linker version. `Kind.Denotes` says what value a JSON value is of each kind, and
`Name.Chosen` what value a threshold has after reading: the standard one if nothing stands under its key, the given one if
one value does. No more can stand there.
- `ofJson?_eq_some_iff`: an object is read as the thresholds that are so chosen.
- `ofJson?_toJson`: what was written is read back.
- `load_exact`: both, for files.
-/
import Landmark.Proofs.Json.Record
import Landmark.Proofs.Stored.File
import Landmark.Stored.Thresholds

namespace Landmark

open Json (members under IsNat)

/-! ## Linker versions -/

namespace LinkerVersion

/-- the value is this version: an object with one number each under the two keys, whatever else it holds, or both numbers
in an array -/
def Denotes (j : Json) (v : LinkerVersion) : Prop :=
  ∃ a b, (j = .array [a, b] ∨ ∃ ms, j = .object (members ms) ∧ under "major" ms = [a] ∧ under "minor" ms = [b]) ∧
    a.IsNat v.major.toNat ∧ b.IsNat v.minor.toNat

theorem record?_eq_some_iff {j a b : Json} : j.record? ["major", "minor"] = some [some a, some b] ↔
    j = .array [a, b] ∨ ∃ ms, j = .object (members ms) ∧ under "major" ms = [a] ∧ under "minor" ms = [b] := by
  cases j with
  | array vs =>
    match vs with
    | [] => simp [Json.record?]
    | [_] => simp [Json.record?]
    | [_, _] => simp [Json.record?]
    | _ :: _ :: _ :: _ => simp [Json.record?]
  | object ms =>
    rw [Json.record?, Json.memberValues?_eq_some_iff]
    simp [Json.eq_singleton_iff, and_assoc, and_left_comm]
  | _ => simp [Json.record?]

theorem ofJson?_eq_some_iff {j : Json} {v : LinkerVersion} : ofJson? j = some v ↔ Denotes j v := by
  constructor
  · intro h
    unfold ofJson? at h
    split at h
    · next a b hrecord =>
      simp only [Option.bind_eq_bind, Option.bind_eq_some_iff, Option.pure_def, Option.some.injEq] at h
      obtain ⟨major, hmajor, minor, hminor, rfl⟩ := h
      exact ⟨a, b, record?_eq_some_iff.1 hrecord, Json.byte?_eq_some_iff.1 hmajor, Json.byte?_eq_some_iff.1 hminor⟩
    · contradiction
  · rintro ⟨a, b, hrecord, ha, hb⟩
    simp only [ofJson?, record?_eq_some_iff.2 hrecord, Json.byte?_eq_some_iff.2 ha, Json.byte?_eq_some_iff.2 hb]
    rfl

end LinkerVersion

namespace Thresholds

/-! ## The eleven thresholds -/

/-- what a threshold is -/
inductive Kind where
  | word
  | byte
  | linker

namespace Kind

/-- values of a kind -/
abbrev Carrier : Kind → Type
  | word => UInt32
  | byte => UInt8
  | linker => LinkerVersion

/-- the JSON value is this value -/
def Denotes : (k : Kind) → Json → k.Carrier → Prop
  | word, j, w => j.IsNat w.toNat
  | byte, j, b => j.IsNat b.toNat
  | linker, j, v => LinkerVersion.Denotes j v

/-- how a value is read -/
def read? : (k : Kind) → Json → Option k.Carrier
  | word => Json.word?
  | byte => Json.byte?
  | linker => LinkerVersion.ofJson?

theorem read?_eq_some_iff {k : Kind} {j : Json} {v : k.Carrier} : k.read? j = some v ↔ k.Denotes j v := by
  cases k with
  | word => exact Json.word?_eq_some_iff
  | byte => exact Json.byte?_eq_some_iff
  | linker => exact LinkerVersion.ofJson?_eq_some_iff

end Kind

inductive Name where
  | post2010
  | codeShiftAfter
  | codeShift
  | prologueWindow
  | hiddenLoginFrom
  | hiddenLoginUntil
  | hiddenLoginUntilNonZero
  | packetKeysFrom
  | sakrayClientInfoFrom
  | vc14Major
  | splitCompareLinker

namespace Name

def key : Name → String
  | post2010 => "post_2010"
  | codeShiftAfter => "code_shift_after"
  | codeShift => "code_shift"
  | prologueWindow => "prologue_window"
  | hiddenLoginFrom => "hidden_login_from"
  | hiddenLoginUntil => "hidden_login_until"
  | hiddenLoginUntilNonZero => "hidden_login_until_non_zero"
  | packetKeysFrom => "packet_keys_from"
  | sakrayClientInfoFrom => "sakray_client_info_from"
  | vc14Major => "vc14_major"
  | splitCompareLinker => "split_compare_linker"

def kind : Name → Kind
  | vc14Major => .byte
  | splitCompareLinker => .linker
  | _ => .word

end Name

/-- the threshold with this name -/
def value (t : Thresholds) : (n : Name) → n.kind.Carrier
  | .post2010 => t.post2010
  | .codeShiftAfter => t.codeShiftAfter
  | .codeShift => t.codeShift
  | .prologueWindow => t.prologueWindow
  | .hiddenLoginFrom => t.hiddenLoginFrom
  | .hiddenLoginUntil => t.hiddenLoginUntil
  | .hiddenLoginUntilNonZero => t.hiddenLoginUntilNonZero
  | .packetKeysFrom => t.packetKeysFrom
  | .sakrayClientInfoFrom => t.sakrayClientInfoFrom
  | .vc14Major => t.vc14Major
  | .splitCompareLinker => t.splitCompareLinker

/-- thresholds put together from the eleven, if all are there -/
def assemble? (f : (n : Name) → Option n.kind.Carrier) : Option Thresholds := do
  return {
    post2010 := ← f .post2010
    codeShiftAfter := ← f .codeShiftAfter
    codeShift := ← f .codeShift
    prologueWindow := ← f .prologueWindow
    hiddenLoginFrom := ← f .hiddenLoginFrom
    hiddenLoginUntil := ← f .hiddenLoginUntil
    hiddenLoginUntilNonZero := ← f .hiddenLoginUntilNonZero
    packetKeysFrom := ← f .packetKeysFrom
    sakrayClientInfoFrom := ← f .sakrayClientInfoFrom
    vc14Major := ← f .vc14Major
    splitCompareLinker := ← f .splitCompareLinker }

theorem assemble?_eq_some_iff {f : (n : Name) → Option n.kind.Carrier} {t : Thresholds} :
    assemble? f = some t ↔ ∀ n, f n = some (t.value n) := by
  constructor
  · intro h
    simp only [assemble?, Option.bind_eq_bind, Option.bind_eq_some_iff, Option.pure_def, Option.some.injEq] at h
    obtain ⟨_, h1, _, h2, _, h3, _, h4, _, h5, _, h6, _, h7, _, h8, _, h9, _, h10, _, h11, rfl⟩ := h
    intro n
    cases n <;> assumption
  · intro h
    simp only [assemble?, h]
    rfl

/-! ## Reading an object -/

/-- the value of a threshold when this is what stands under its key -/
inductive Name.Chosen (n : Name) : List Json → n.kind.Carrier → Prop
  | standard : n.Chosen [] (Thresholds.standard.value n)
  | given {j : Json} {v : n.kind.Carrier} (h : n.kind.Denotes j v) : n.Chosen [j] v

theorem chosen_iff {n : Name} {js : List Json} {v : n.kind.Carrier} :
    n.Chosen js v ↔ js.length ≤ 1 ∧ orStandard (standard.value n) n.kind.read? js.head? = some v := by
  match js with
  | [] =>
    have hread : orStandard (standard.value n) n.kind.read? [].head? = some (standard.value n) := rfl
    rw [hread, Option.some.injEq]
    constructor
    · rintro ⟨⟩
      exact ⟨by simp, rfl⟩
    · rintro ⟨-, rfl⟩
      exact .standard
  | [j] =>
    have hread : orStandard (standard.value n) n.kind.read? [j].head? = n.kind.read? j := rfl
    rw [hread, Kind.read?_eq_some_iff]
    constructor
    · rintro (_ | h)
      exact ⟨by simp, h⟩
    · rintro ⟨-, h⟩
      exact .given h
  | _ :: _ :: js =>
    constructor
    · rintro ⟨⟩
    · rintro ⟨h, -⟩
      simp at h

/-- what stands under a key leaves no choice -/
theorem Name.Chosen.unique {n : Name} {js : List Json} {v w : n.kind.Carrier} (hv : n.Chosen js v) (hw : n.Chosen js w) :
    v = w :=
  Option.some.inj ((chosen_iff.1 hv).2.symm.trans (chosen_iff.1 hw).2)

theorem keys_all {p : String → Bool} : keys.all p = true ↔ ∀ n : Name, p n.key = true := by
  rw [List.all_eq_true]
  constructor
  · intro h n
    cases n <;> exact h _ (by simp [keys, Name.key])
  · intro h
    simp only [keys, List.forall_mem_cons, List.not_mem_nil, false_implies, implies_true, and_true]
    exact ⟨h .post2010, h .codeShiftAfter, h .codeShift, h .prologueWindow, h .hiddenLoginFrom, h .hiddenLoginUntil,
      h .hiddenLoginUntilNonZero, h .packetKeysFrom, h .sakrayClientInfoFrom, h .vc14Major, h .splitCompareLinker⟩

theorem ofJson?_members (ms : List (String × Json)) : ofJson? (.object (members ms)) =
    if keys.all fun k => (under k ms).length ≤ 1 then
      assemble? fun n => orStandard (standard.value n) n.kind.read? (under n.key ms).head?
    else none := by
  rw [ofJson?, Json.openRecord?, Json.memberValues?_members]
  cases keys.all fun k => (under k ms).length ≤ 1 <;> rfl

/-- **An object is read as the thresholds it gives**, and as nothing if there are no such thresholds. -/
theorem ofJson?_eq_some_iff {ms : List (String × Json)} {t : Thresholds} :
    ofJson? (.object (members ms)) = some t ↔ ∀ n : Name, n.Chosen (under n.key ms) (t.value n) := by
  simp only [ofJson?_members, Option.ite_none_right_eq_some, keys_all, decide_eq_true_eq, assemble?_eq_some_iff,
    chosen_iff, forall_and]

/-- where every threshold can be chosen, they can all be chosen together -/
theorem exists_thresholds {p : (n : Name) → n.kind.Carrier → Prop} (h : ∀ n, ∃ v, p n v) :
    ∃ t : Thresholds, ∀ n, p n (t.value n) := by
  obtain ⟨f, hf⟩ := Classical.axiomOfChoice h
  obtain ⟨t, ht⟩ : ∃ t, assemble? (fun n => some (f n)) = some t := ⟨_, rfl⟩
  refine ⟨t, fun n => ?_⟩
  rw [← Option.some.inj (assemble?_eq_some_iff.1 ht n)]
  exact hf n

theorem Name.exists_chosen {n : Name} {js : List Json} (hone : js.length ≤ 1)
    (hdenotes : ∀ j ∈ js, ∃ v, n.kind.Denotes j v) : ∃ v, n.Chosen js v := by
  match js with
  | [] => exact ⟨_, .standard⟩
  | [j] =>
    obtain ⟨v, hv⟩ := hdenotes j (List.mem_singleton_self j)
    exact ⟨v, .given hv⟩
  | _ :: _ :: _ => simp at hone

theorem Name.Chosen.length_le {n : Name} {js : List Json} {v : n.kind.Carrier} (h : n.Chosen js v) : js.length ≤ 1 := by
  cases h <;> simp

theorem Name.Chosen.denotes {n : Name} {js : List Json} {v : n.kind.Carrier} (h : n.Chosen js v) {j : Json}
    (hj : j ∈ js) : n.kind.Denotes j v := by
  cases h with
  | standard => contradiction
  | given h =>
    obtain rfl := List.mem_singleton.1 hj
    exact h

/-- no key of an object may be without a text -/
theorem ofJson?_of_textless {ms : List (Option String × Json)} (h : ∃ m ∈ ms, m.1 = none) :
    ofJson? (.object ms) = none := by
  obtain ⟨m, hm, hnone⟩ := h
  have hall : ms.all (·.1.isSome) = false := List.all_eq_false.2 ⟨m, hm, by simp [hnone]⟩
  rw [ofJson?, Json.openRecord?, Json.memberValues?, hall]
  rfl

/-! ## Files -/

theorem plain_toJson (t : Thresholds) : t.toJson.Plain := by
  have hlinker : t.splitCompareLinker.toJson.Plain := .ofMembers (by simp [Json.Plain.nat])
  refine .ofMembers fun m hm => ?_
  have hvalue := (List.of_mem_zip hm).2
  simp only [List.mem_cons, List.not_mem_nil, or_false] at hvalue
  rcases hvalue with h | h | h | h | h | h | h | h | h | h | h <;> rw [h] <;> first | exact .nat _ | exact hlinker

theorem ofJson?_toJson (t : Thresholds) : ofJson? t.toJson = some t := by
  refine ofJson?_eq_some_iff.2 fun n => ?_
  cases n with
  | splitCompareLinker => exact .given ⟨_, _, .inr ⟨_, rfl, rfl, rfl⟩, Json.isNat_ofNat _, Json.isNat_ofNat _⟩
  | _ => exact .given (Json.isNat_ofNat _)

/-- **A thresholds file gives what it gives and leaves the rest standard.** What is written into one is read back. A file
that holds an object, however it is spelled, in whatever order and whatever it holds beside the eleven keys, is read as the
standard thresholds with those replaced that are given, if each is given once at most and as a value of its kind; it is
refused as JSON if one is given twice, or given as anything else. A key that is half of a surrogate pair has no text and
spoils the object. -/
theorem load_exact :
    (∀ t : Thresholds, load (some t.save.toUTF8) = .ok t) ∧
    (∀ text ms, (Json.object (members ms)).IsText text →
      ((∀ n : Name, (under n.key ms).length ≤ 1 ∧ ∀ j ∈ under n.key ms, ∃ v, n.kind.Denotes j v) →
        ∃ t, load (some text.toUTF8) = .ok t ∧ ∀ n : Name, n.Chosen (under n.key ms) (t.value n)) ∧
      ∀ n : Name, 1 < (under n.key ms).length ∨ (∃ j ∈ under n.key ms, ∀ v, ¬ n.kind.Denotes j v) →
        ∃ detail, load (some text.toUTF8) = .error (.json detail)) ∧
    ∀ text ms, (Json.object ms).IsText text → (∃ m ∈ ms, m.1 = none) →
      ∃ detail, load (some text.toUTF8) = .error (.json detail) := by
  refine ⟨fun t => Stored.load_pretty t.plain_toJson t.ofJson?_toJson, ?_, ?_⟩
  · intro text ms htext
    constructor
    · intro h
      obtain ⟨t, ht⟩ := exists_thresholds fun n => Name.exists_chosen (h n).1 (h n).2
      exact ⟨t, Stored.load_of_isText htext (ofJson?_eq_some_iff.2 ht), ht⟩
    · intro n hbad
      refine Stored.load_error_of_isText htext (Option.eq_none_iff_forall_ne_some.2 fun t ht => ?_)
      have hchosen := ofJson?_eq_some_iff.1 ht n
      rcases hbad with htwice | ⟨j, hj, hno⟩
      · exact absurd hchosen.length_le (Nat.not_le.2 htwice)
      · exact hno _ (hchosen.denotes hj)
  · intro text ms htext htextless
    exact Stored.load_error_of_isText htext (ofJson?_of_textless htextless)

/-- three thresholds out of order, one of them a version with something else in it, and a value no threshold has -/
def someGiven : List (String × Json) := [
  ("vc14_major", .ofNat 15),
  ("notes", .array [.null, .ofMembers [("post_2010", .ofString "not this one")]]),
  ("split_compare_linker", .ofMembers [("minor", .ofNat 30), ("patch", .array []), ("major", .ofNat 14)]),
  ("post_2010", .ofNat 20090000)]

theorem plain_someGiven : ∀ m ∈ someGiven, m.2.Plain := by
  have hnotes : (Json.array [.null, .ofMembers [("post_2010", .ofString "not this one")]]).Plain := by
    refine .array ?_
    simp only [List.forall_mem_cons, List.not_mem_nil, false_implies, implies_true, and_true]
    exact ⟨.null, .ofMembers (by simp [Json.Plain.text])⟩
  have hlinker : (Json.ofMembers [("minor", .ofNat 30), ("patch", .array []), ("major", .ofNat 14)]).Plain :=
    .ofMembers (by simp [Json.Plain.nat, Json.Plain.array])
  simp [someGiven, Json.Plain.nat, hnotes, hlinker]

/-- a key that is half of a pair of units -/
theorem literal_half : Token.Literal none ['"', '\\', 'u', 'd', '8', '0', '0', '"'] := by
  have hd : Hex.IsDigit 'd' 13 := ⟨by decide, .inr rfl⟩
  have h8 : Hex.IsDigit '8' 8 := ⟨by decide, .inl rfl⟩
  have h0 : Hex.IsDigit '0' 0 := ⟨by decide, .inl rfl⟩
  refine .mk (.cons (.unit hd h8 h0 h0) .nil) fun s => ?_
  simp only [reduceCtorEq, false_iff]
  generalize s.toList = cs
  rintro ⟨⟩
  contradiction

theorem someGiven_loads :
    (∃ t, load (some (Json.ofMembers someGiven).pretty.toUTF8) = .ok t ∧ t.post2010 = 20090000 ∧
      t.splitCompareLinker = ⟨14, 30⟩ ∧ t.packetKeysFrom = standard.packetKeysFrom) ∧
    (∃ detail, load (some (Json.ofMembers [("code_shift", .ofNat 1), ("code_shift", .ofNat 1)]).pretty.toUTF8) =
      .error (.json detail)) ∧
    ∃ detail, load (some "\x7b\"\\ud800\":null\x7d".toUTF8) = .error (.json detail) := by
  obtain ⟨-, hobject, htextless⟩ := load_exact
  refine ⟨?_, ?_, ?_⟩
  · have htext : (Json.object (members someGiven)).IsText (Json.ofMembers someGiven).pretty :=
      (Json.Plain.ofMembers plain_someGiven).isText_pretty
    have hdate : Kind.Denotes .word (.ofNat 20090000) 20090000 := Json.isNat_ofNat _
    have hmajor : Kind.Denotes .byte (.ofNat 15) 15 := Json.isNat_ofNat _
    have hlinker : LinkerVersion.Denotes (.ofMembers [("minor", .ofNat 30), ("patch", .array []), ("major", .ofNat 14)])
        ⟨14, 30⟩ :=
      ⟨_, _, .inr ⟨_, rfl, rfl, rfl⟩, Json.isNat_ofNat _, Json.isNat_ofNat _⟩
    have hgiven : ∀ n : Name, (under n.key someGiven).length ≤ 1 ∧
        ∀ j ∈ under n.key someGiven, ∃ v, n.kind.Denotes j v := by
      intro n
      cases n with
      | post2010 => exact ⟨Nat.le_refl 1, fun j hj => List.mem_singleton.1 hj ▸ ⟨_, hdate⟩⟩
      | vc14Major => exact ⟨Nat.le_refl 1, fun j hj => List.mem_singleton.1 hj ▸ ⟨_, hmajor⟩⟩
      | splitCompareLinker => exact ⟨Nat.le_refl 1, fun j hj => List.mem_singleton.1 hj ▸ ⟨_, hlinker⟩⟩
      | _ => exact ⟨Nat.zero_le 1, fun j hj => absurd hj List.not_mem_nil⟩
    obtain ⟨t, hload, ht⟩ := (hobject _ someGiven htext).1 hgiven
    exact ⟨t, hload, (ht .post2010).unique (.given hdate), (ht .splitCompareLinker).unique (.given hlinker),
      (ht .packetKeysFrom).unique .standard⟩
  · have htwice : (Json.ofMembers [("code_shift", .ofNat 1), ("code_shift", .ofNat 1)]).Plain :=
      .ofMembers (by simp [Json.Plain.nat])
    exact (hobject _ [("code_shift", .ofNat 1), ("code_shift", .ofNat 1)] htwice.isText_pretty).2 .codeShift
      (.inl (by decide))
  · have hhalf : (Json.object [(none, .null)]).IsText "\x7b\"\\ud800\":null\x7d" :=
      ⟨[], _, [], Json.blank_nil,
        .object (.last Json.blank_nil literal_half Json.blank_nil Json.blank_nil .null Json.blank_nil), Json.blank_nil, rfl⟩
    exact htextless _ _ hhalf ⟨_, List.mem_singleton_self _, rfl⟩

end Thresholds

end Landmark
