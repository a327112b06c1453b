/-
Saving reports loses nothing.

Every type of a report file is read back from its JSON form. A field value and an outcome are tagged and so held in memory
before they are understood; an outcome nests four containers, far fewer than may stand there.
- `FieldValue.ofJson?_toJson`, `Field.ofJson?_toJson`, `Outcome.ofJson?_toJson`, `Report.ofJson?_toJson`: one for each type.
- `loadAll_saveAll`: the reports of a file are those it was written from, in order.
-/
import Landmark.Proofs.Json.Record
import Landmark.Proofs.Stored.File
import Landmark.Stored.Report

namespace Landmark

open Json

theorem Space.ofJson?_toJson (p : Place) (s : Space) : ofJson? p s.toJson = some s := by
  cases s <;> rfl

theorem FaultKind.ofJson?_toJson (p : Place) (k : FaultKind) : ofJson? p k.toJson = some k := by
  cases k <;> rfl

/-! ## Fields -/

theorem FieldValue.plain_toJson (x : FieldValue) : x.toJson.Plain := by
  cases x <;> exact .ofMembers (by simp [Plain.text, Plain.nat, Plain.bool, Space.toJson])

theorem FieldValue.soundWithin_toJson (levels : Nat) (x : FieldValue) : x.toJson.soundWithin (levels + 1) = true := by
  cases x with
  | address v s hex =>
    have hv : (ofNat v.toNat).soundWithin levels = true :=
      soundWithin_ofNat levels (Nat.lt_trans v.toNat_lt (by decide))
    exact soundWithin_ofMembers.2 (by simp [soundWithin_ofString, Space.toJson, hv])
  | flag b => exact soundWithin_ofMembers.2 (by simp [soundWithin_ofString, soundWithin])
  | _ => exact soundWithin_ofMembers.2 (by simp [soundWithin_ofString])

theorem FieldValue.ofJson?_toJson {p : Place} (x : FieldValue) (h : x.toJson.holdable p = true) :
    ofJson? p x.toJson = some x := by
  cases x with
  | address v s hex =>
    rw [ofJson?, toJson, tagged?_ofMembers ["value", "space", "hex"] rfl (by decide) (by decide) h]
    simp only [ofContent?, if_true]
    rw [record?_ofMembers ["value", "space", "hex"] rfl (by decide)]
    simp only [List.map_cons, List.map_nil, word?_ofNat, Space.ofJson?_toJson]
    rfl
  | missing =>
    rw [ofJson?, toJson, tagged?_ofMembers [] rfl (by decide) (by decide) h]
    rfl
  | text t =>
    rw [ofJson?, toJson, tagged?_ofMembers ["text"] rfl (by decide) (by decide) h]
    rfl
  | bytes hex =>
    rw [ofJson?, toJson, tagged?_ofMembers ["hex"] rfl (by decide) (by decide) h]
    rfl
  | flag b =>
    rw [ofJson?, toJson, tagged?_ofMembers ["set"] rfl (by decide) (by decide) h]
    rfl

namespace Field

theorem plain_toJson (f : Field) : f.toJson.Plain :=
  .ofMembers (by simp [Plain.text, f.value.plain_toJson])

theorem soundWithin_toJson (levels : Nat) (f : Field) : f.toJson.soundWithin (levels + 2) = true :=
  soundWithin_ofMembers.2 (by simp [soundWithin_ofString, f.value.soundWithin_toJson])

/-- fields are only read from memory -/
theorem ofJson?_toJson (f : Field) : ofJson? .memory f.toJson = some f := by
  have hvalue : FieldValue.ofJson? .memory f.value.toJson = some f.value := f.value.ofJson?_toJson rfl
  rw [ofJson?, toJson, record?_ofMembers ["name", "value"] rfl (by decide)]
  simp only [List.map_cons, List.map_nil, Place.inside, hvalue]
  rfl

end Field

/-! ## Outcomes -/

namespace Outcome

theorem plain_toJson (o : Outcome) : o.toJson.Plain := by
  cases o with
  | resolved fields =>
    have hfields : (Json.array (fields.map Field.toJson)).Plain := .array (by simp [Field.plain_toJson])
    exact .ofMembers (by simp [Plain.text, hfields])
  | failed kind message => exact .ofMembers (by simp [Plain.text, FaultKind.toJson])

/-- an outcome, its fields, a field and its value are all that nests -/
theorem soundWithin_toJson (levels : Nat) (o : Outcome) : o.toJson.soundWithin (levels + 4) = true := by
  cases o with
  | resolved fields =>
    have hfields : (Json.array (fields.map Field.toJson)).soundWithin (levels + 3) = true :=
      soundWithin_array.2 (by simp [Field.soundWithin_toJson])
    exact soundWithin_ofMembers.2 (by simp [soundWithin_ofString, hfields])
  | failed kind message => exact soundWithin_ofMembers.2 (by simp [soundWithin_ofString, FaultKind.toJson])

theorem ofJson?_toJson {p : Place} (o : Outcome) (h : o.toJson.holdable p = true) : ofJson? p o.toJson = some o := by
  cases o with
  | resolved fields =>
    rw [ofJson?, toJson, tagged?_ofMembers ["fields"] rfl (by decide) (by decide) h]
    simp only [ofContent?, if_true]
    rw [record?_ofMembers ["fields"] rfl (by decide)]
    simp only [List.map_cons, List.map_nil, items?, Option.bind_eq_bind, Option.bind_some,
      mapM_map fun f _ => Field.ofJson?_toJson f]
    rfl
  | failed kind message =>
    rw [ofJson?, toJson, tagged?_ofMembers ["kind", "message"] rfl (by decide) (by decide) h]
    simp only [ofContent?]
    rw [if_neg (by decide), record?_ofMembers ["kind", "message"] rfl (by decide)]
    simp only [List.map_cons, List.map_nil, FaultKind.ofJson?_toJson]
    rfl

end Outcome

/-! ## Reports -/

namespace Report

theorem plain_toJson (r : Report) : r.toJson.Plain :=
  .ofMembers (by simp [Plain.text, r.outcome.plain_toJson])

/-- a report is read back wherever its outcome still has room -/
theorem ofJson?_toJson {depth : Nat} (h : depth + 5 ≤ Place.levels) (r : Report) :
    ofJson? (.document depth) r.toJson = some r := by
  have hhold : r.outcome.toJson.holdable (.document (depth + 1)) = true := by
    have hroom : Place.levels - (depth + 1) = Place.levels - (depth + 5) + 4 := by omega
    rw [holdable, hroom]
    exact r.outcome.soundWithin_toJson _
  rw [ofJson?, toJson, record?_ofMembers ["name", "outcome"] rfl (by decide)]
  simp only [List.map_cons, List.map_nil, Place.inside, Outcome.ofJson?_toJson r.outcome hhold]
  rfl

/-- **Saving reports loses nothing.** The reports of a file are those it was written from, in order. -/
theorem loadAll_saveAll (rs : List Report) : loadAll (some (saveAll rs).toUTF8) = .ok rs := by
  have hplain : (Json.array (rs.map toJson)).Plain := .array (by simp [plain_toJson])
  refine Stored.load_pretty hplain ?_
  exact mapM_map fun r _ => ofJson?_toJson (by decide) r

end Report

end Landmark
