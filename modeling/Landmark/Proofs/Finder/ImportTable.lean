/-
The import table, told by the import slots of the image.

A function is imported in a form (`ImportForm`): under its name, and from one library or from any. Each entry of the import
table has its forms, the preferred one first (`Entry.forms`), and holds the first slot of the first form that there is
(`Entry.SlotAt`).
- `sameIgnoringCase_iff`, `ImportSlot.serves_iff`: which slots are bound in a form.
- `ImportForm.slot?_eq_some_iff`, `ImportForm.slot?_eq_none_iff`: what a lookup finds.
- `map_entries_importSlots`: the finder looks for one entry after the other.
- `Entry.SlotAt.append`: what more slots behind the others change.
- `importTable_exact`: what the finder answers, why it fails, and what it answers for a longer table.
-/
import Landmark.Proofs.Finder.Alike
import Landmark.Proofs.Image.Reading

namespace Landmark

/-! ## Steps in a row -/

section

variable {ε α β : Type} {f : α → Except ε β}

theorem mapM_eq_ok_iff {as : List α} {bs : List β} :
    as.mapM f = .ok bs ↔ List.Forall₂ (fun a b => f a = .ok b) as bs := by
  induction as generalizing bs with
  | nil => simp [pure, Except.pure, eq_comm]
  | cons a as ih =>
    simp only [List.mapM_cons, bind_eq_ok_iff, List.forall₂_cons_left_iff, ih]
    constructor
    · rintro ⟨b, hb, bs', hbs, hok⟩
      exact ⟨b, bs', hb, hbs, (Except.ok.inj hok).symm⟩
    · rintro ⟨b, bs', hb, hbs, rfl⟩
      exact ⟨b, hb, bs', hbs, rfl⟩

/-- the first step that fails ends the row -/
theorem mapM_eq_error_iff {as : List α} {e : ε} : as.mapM f = .error e ↔
    ∃ before a after, as = before ++ a :: after ∧ (∀ b ∈ before, ∃ v, f b = .ok v) ∧ f a = .error e := by
  induction as with
  | nil => simp [pure, Except.pure]
  | cons a as ih =>
    simp only [List.mapM_cons, bind_eq_error_iff, ih]
    constructor
    · rintro (ha | ⟨v, ha, ⟨before, a', after, rfl, hbefore, ha'⟩ | ⟨_, _, hpure⟩⟩)
      · exact ⟨[], a, as, rfl, nofun, ha⟩
      · exact ⟨a :: before, a', after, rfl, List.forall_mem_cons.2 ⟨⟨v, ha⟩, hbefore⟩, ha'⟩
      · contradiction
    · rintro ⟨_ | ⟨b, before⟩, a', after, has, hbefore, ha'⟩
      · obtain ⟨rfl, rfl⟩ := List.cons.inj has
        exact .inl ha'
      · obtain ⟨rfl, rfl⟩ := List.cons.inj has
        obtain ⟨⟨v, hv⟩, hrest⟩ := List.forall_mem_cons.1 hbefore
        exact .inr ⟨v, hv, .inl ⟨before, a', after, rfl, hrest, ha'⟩⟩

end

/-! ## Names -/

namespace Text

/-- equal but for the case of an ASCII letter -/
def SameLetter (c d : Char) : Prop :=
  c = d ∨ ('A' ≤ c ∧ c ≤ 'Z' ∧ d.toNat = c.toNat + 0x20) ∨ ('A' ≤ d ∧ d ≤ 'Z' ∧ c.toNat = d.toNat + 0x20)

theorem char_le_iff {c d : Char} : c ≤ d ↔ c.toNat ≤ d.toNat :=
  UInt32.le_iff_toNat_le

theorem toNat_toLower (c : Char) : c.toLower.toNat = if 'A' ≤ c ∧ c ≤ 'Z' then c.toNat + 0x20 else c.toNat := by
  by_cases h : 'A' ≤ c ∧ c ≤ 'Z'
  · have hupper : c.val ≥ 'A'.val ∧ c.val ≤ 'Z'.val := h
    have hle : c.val.toNat ≤ 0x5A := char_le_iff.1 h.2
    rw [if_pos h]
    refine (congrArg Char.toNat (dif_pos hupper)).trans ?_
    exact Word.toNat_add_of_lt (Nat.lt_of_le_of_lt (Nat.add_le_add_right hle 0x20) (by decide))
  · have hupper : ¬ (c.val ≥ 'A'.val ∧ c.val ≤ 'Z'.val) := h
    rw [if_neg h]
    exact congrArg Char.toNat (dif_neg hupper)

theorem toLower_eq_iff {c d : Char} : c.toLower = d.toLower ↔ SameLetter c d := by
  have hA : 'A'.toNat = 0x41 := rfl
  have hZ : 'Z'.toNat = 0x5A := rfl
  simp only [← Char.toNat_inj, toNat_toLower, SameLetter, char_le_iff, hA, hZ]
  split <;> split <;> omega

theorem sameIgnoringCase_iff {s t : String} : sameIgnoringCase s t = true ↔ List.Forall₂ SameLetter s.toList t.toList := by
  rw [sameIgnoringCase, beq_iff_eq, ← List.forall₂_eq_eq_eq, List.forall₂_map_left_iff, List.forall₂_map_right_iff]
  simp only [toLower_eq_iff]

end Text

/-! ## Forms of imports -/

/-- a function to import, and the library it must come from, if it must -/
structure ImportForm where
  function : String
  library : Option String

section

variable {imports extra : List ImportSlot} {form : ImportForm} {address : UInt32}

/-- the slot is bound to the function, and of the library if one is named, in whatever case that is written -/
def ImportSlot.BoundTo (slot : ImportSlot) (form : ImportForm) : Prop :=
  slot.function = form.function ∧ ∀ library ∈ form.library, List.Forall₂ Text.SameLetter slot.library.toList library.toList

theorem ImportSlot.serves_iff {slot : ImportSlot} :
    slot.serves form.function form.library = true ↔ slot.BoundTo form := by
  cases hlibrary : form.library <;> simp [serves, BoundTo, hlibrary, Text.sameIgnoringCase_iff]

namespace ImportForm

/-- the first slot that is bound in this form has the address -/
def FirstAt (form : ImportForm) (imports : List ImportSlot) (address : UInt32) : Prop :=
  ∃ before slot after, imports = before ++ slot :: after ∧ (∀ other ∈ before, ¬ other.BoundTo form) ∧ slot.BoundTo form ∧
    slot.address = address

/-- no slot is bound in this form -/
def Absent (form : ImportForm) (imports : List ImportSlot) : Prop :=
  ∀ slot ∈ imports, ¬ slot.BoundTo form

/-- address of the first slot that serves -/
def slot? (form : ImportForm) (imports : List ImportSlot) : Option UInt32 :=
  (imports.find? (·.serves form.function form.library)).map (·.address)

theorem slot?_eq_some_iff : form.slot? imports = some address ↔ form.FirstAt imports address := by
  simp only [slot?, Option.map_eq_some_iff, List.find?_eq_some_iff_append, ImportSlot.serves_iff, Bool.not_eq_true',
    ← Bool.not_eq_true, FirstAt]
  constructor
  · rintro ⟨slot, ⟨hbound, before, after, himports, hbefore⟩, haddress⟩
    exact ⟨before, slot, after, himports, hbefore, hbound, haddress⟩
  · rintro ⟨before, slot, after, himports, hbefore, hbound, haddress⟩
    exact ⟨slot, ⟨hbound, before, after, himports, hbefore⟩, haddress⟩

theorem slot?_eq_none_iff : form.slot? imports = none ↔ form.Absent imports := by
  simp only [slot?, Option.map_eq_none_iff, List.find?_eq_none, ImportSlot.serves_iff, Absent]

theorem slot?_append : form.slot? (imports ++ extra) = (form.slot? imports).or (form.slot? extra) := by
  rw [slot?, List.find?_append, Option.map_or, slot?, slot?]

theorem Absent.append (h : form.Absent imports) (h' : form.Absent extra) : form.Absent (imports ++ extra) :=
  List.forall_mem_append.2 ⟨h, h'⟩

/-- slots behind the others do not come first -/
theorem FirstAt.append (h : form.FirstAt imports address) (extra : List ImportSlot) :
    form.FirstAt (imports ++ extra) address := by
  rw [← slot?_eq_some_iff] at h ⊢
  rw [slot?_append, h, Option.some_or]

theorem Absent.firstAt_append (h : form.Absent imports) (h' : form.FirstAt extra address) :
    form.FirstAt (imports ++ extra) address := by
  rw [← slot?_eq_some_iff] at h' ⊢
  rw [slot?_append, slot?_eq_none_iff.2 h, Option.none_or, h']

end ImportForm

end

/-! ## Entries -/

namespace ImportTable

/-- entries of an import table -/
inductive Entry where
  | getModuleHandle
  | getProcAddress
  | outputDebugString
  | messageBox
  | print
  | createWindow
  deriving DecidableEq

def entry (t : ImportTable) : Entry → UInt32
  | .getModuleHandle => t.getModuleHandle
  | .getProcAddress => t.getProcAddress
  | .outputDebugString => t.outputDebugString
  | .messageBox => t.messageBox
  | .print => t.print
  | .createWindow => t.createWindow

namespace Entry

/-- in the order in which they are looked for -/
def all : List Entry :=
  [.getModuleHandle, .getProcAddress, .outputDebugString, .messageBox, .print, .createWindow]

theorem mem_all (e : Entry) : e ∈ all := by
  cases e <;> decide

/-- forms in which the function may be imported, the preferred one first -/
def forms : Entry → List ImportForm
  | getModuleHandle => [⟨"GetModuleHandleA", some "KERNEL32.dll"⟩]
  | getProcAddress => [⟨"GetProcAddress", some "KERNEL32.dll"⟩]
  | outputDebugString => [⟨"OutputDebugStringA", none⟩]
  | messageBox => [⟨"MessageBoxA", some "USER32.dll"⟩]
  | print => [⟨"sprintf", none⟩, ⟨"wsprintfA", some "USER32.dll"⟩]
  | createWindow => [⟨"CreateWindowExA", some "USER32.dll"⟩]

/-- what is said where the function is not imported -/
def complaint : Entry → String
  | getModuleHandle => "GetModuleHandleA not found"
  | getProcAddress => "GetProcAddress not found"
  | outputDebugString => "'OutputDebugStringA' function missing"
  | messageBox => "'MessageBoxA' function missing"
  | print => "No print functions found"
  | createWindow => "'CreateWindowExA' function missing"

end Entry

/-- what the entries hold, in the same order -/
def entries (t : ImportTable) : List UInt32 :=
  Entry.all.map t.entry

theorem entries_injective : Function.Injective entries := by
  rintro ⟨⟩ ⟨⟩ h
  simpa [entries, Entry.all, entry] using h

namespace Entry

variable {e : Entry} {imports extra : List ImportSlot} {address : UInt32} {fault : Fault}

/-- of the forms that there are slots for, the first has its first slot at the address -/
def SlotAt (e : Entry) (imports : List ImportSlot) (address : UInt32) : Prop :=
  ∃ before form after, e.forms = before ++ form :: after ∧ (∀ other ∈ before, other.Absent imports) ∧
    form.FirstAt imports address

/-- there is no slot in any form -/
def Missing (e : Entry) (imports : List ImportSlot) : Prop :=
  ∀ form ∈ e.forms, form.Absent imports

/-- the address for the entry, or the complaint -/
def find (e : Entry) (imports : List ImportSlot) : Except Fault UInt32 :=
  match e.forms.findSome? (·.slot? imports) with
  | some address => .ok address
  | none => .error (.anchorMissing e.complaint)

theorem findSome?_forms_eq_some_iff : e.forms.findSome? (·.slot? imports) = some address ↔ e.SlotAt imports address := by
  simp only [List.findSome?_eq_some_iff, ImportForm.slot?_eq_some_iff, ImportForm.slot?_eq_none_iff, SlotAt,
    and_comm (b := ∀ _ ∈ _, _)]

theorem findSome?_forms_eq_none_iff : e.forms.findSome? (·.slot? imports) = none ↔ e.Missing imports := by
  simp only [List.findSome?_eq_none_iff, ImportForm.slot?_eq_none_iff, Missing]

theorem find_eq_ok_iff : e.find imports = .ok address ↔ e.SlotAt imports address := by
  rw [← findSome?_forms_eq_some_iff, find]
  cases e.forms.findSome? (·.slot? imports) <;> simp

theorem find_eq_error_iff :
    e.find imports = .error fault ↔ e.Missing imports ∧ fault = .anchorMissing e.complaint := by
  rw [← findSome?_forms_eq_none_iff, find]
  cases e.forms.findSome? (·.slot? imports) <;> simp [eq_comm]

theorem exists_find_eq_ok_iff : (∃ address, e.find imports = .ok address) ↔ ¬ e.Missing imports := by
  rw [← findSome?_forms_eq_none_iff, find]
  cases e.forms.findSome? (·.slot? imports) <;> simp

theorem SlotAt.unique {address' : UInt32} (h : e.SlotAt imports address) (h' : e.SlotAt imports address') :
    address = address' :=
  Option.some.inj ((findSome?_forms_eq_some_iff.2 h).symm.trans (findSome?_forms_eq_some_iff.2 h'))

/-- **Slots behind the others change an entry only by a form that is preferred** to the one there was, and was not there. -/
theorem SlotAt.append (h : e.SlotAt imports address) (extra : List ImportSlot) :
    e.SlotAt (imports ++ extra) address ∨ ∃ form ∈ e.forms.dropLast, form.Absent imports ∧
      ∃ address', form.FirstAt extra address' ∧ e.SlotAt (imports ++ extra) address' := by
  obtain ⟨before, form, after, hforms, hbefore, hfirst⟩ := h
  cases hextra : before.findSome? (·.slot? extra) with
  | none =>
    have habsent : ∀ other ∈ before, other.Absent extra := fun other hother =>
      ImportForm.slot?_eq_none_iff.1 (List.findSome?_eq_none_iff.1 hextra other hother)
    exact .inl ⟨before, form, after, hforms, fun other hother => (hbefore other hother).append (habsent other hother),
      hfirst.append extra⟩
  | some address' =>
    obtain ⟨earlier, preferred, later, rfl, hpreferred, hearlier⟩ := List.findSome?_eq_some_iff.1 hextra
    have hfirst' : preferred.FirstAt extra address' := ImportForm.slot?_eq_some_iff.1 hpreferred
    have hmem : preferred ∈ earlier ++ preferred :: later := List.mem_append_right _ List.mem_cons_self
    refine .inr ⟨preferred, ?_, hbefore preferred hmem, address', hfirst', earlier, preferred, later ++ form :: after, ?_,
      fun other hother => ?_, (hbefore preferred hmem).firstAt_append hfirst'⟩
    · rw [hforms, List.dropLast_append_of_ne_nil (List.cons_ne_nil form after)]
      exact List.mem_append_left _ hmem
    · rw [hforms, List.append_assoc, List.cons_append]
    · exact (hbefore other (List.mem_append_left _ hother)).append
        (ImportForm.slot?_eq_none_iff.1 (hearlier other hother))

/-- there is a slot exactly if some form is in the table -/
theorem exists_slotAt_iff :
    (∃ address, e.SlotAt imports address) ↔ ∃ form ∈ e.forms, ∃ slot ∈ imports, slot.BoundTo form := by
  simp only [← findSome?_forms_eq_some_iff, ← Option.isSome_iff_exists, Option.isSome_iff_ne_none, ne_eq,
    findSome?_forms_eq_none_iff, Missing, ImportForm.Absent]
  push Not
  rfl

end Entry

end ImportTable

/-! ## The finder's answer -/

namespace Finder

open ImportTable Survey

variable {image : Image}

theorem find_eq_requireSlot (image : Image) {e : Entry} {form : ImportForm} (h : e.forms = [form]) :
    e.find image.imports = requireSlot image form.function form.library e.complaint := by
  rw [Entry.find, h, List.findSome?_singleton]
  rfl

theorem find_print (image : Image) : Entry.print.find image.imports = printSlot image := by
  have hforms : Entry.print.forms.findSome? (·.slot? image.imports) =
      (image.importSlot? "sprintf" none).or (image.importSlot? "wsprintfA" userLibrary) := by
    change List.findSome? _ ([(⟨"sprintf", none⟩ : ImportForm)] ++ [⟨"wsprintfA", userLibrary⟩]) = _
    rw [List.findSome?_append, List.findSome?_singleton, List.findSome?_singleton]
    rfl
  rw [printSlot, requireSlot, Entry.find, hforms]
  cases image.importSlot? "sprintf" none <;> rfl

/-- the finder looks for one entry after the other -/
theorem map_entries_importSlots :
    ImportTable.entries <$> importSlots image = Entry.all.mapM (·.find image.imports) := by
  simp only [Entry.all, List.mapM_cons, List.mapM_nil, find_print, find_eq_requireSlot image (e := .getModuleHandle) rfl,
    find_eq_requireSlot image (e := .getProcAddress) rfl, find_eq_requireSlot image (e := .outputDebugString) rfl,
    find_eq_requireSlot image (e := .messageBox) rfl, find_eq_requireSlot image (e := .createWindow) rfl, bind_assoc,
    pure_bind]
  simp only [importSlots, map_bind, map_pure]
  rfl

theorem importSlots_eq_ok_iff {table : ImportTable} :
    importSlots image = .ok table ↔ ∀ e, Entry.SlotAt e image.imports (table.entry e) := by
  calc importSlots image = .ok table
    _ ↔ ImportTable.entries <$> importSlots image = .ok table.entries := by
      refine Iff.trans ?_ map_eq_ok_iff.symm
      exact ⟨fun h => ⟨table, h, rfl⟩, fun ⟨_, h, heq⟩ => ImportTable.entries_injective heq ▸ h⟩
    _ ↔ ∀ e ∈ Entry.all, e.find image.imports = .ok (table.entry e) := by
      rw [map_entries_importSlots, mapM_eq_ok_iff, ImportTable.entries, List.forall₂_map_right_iff, List.forall₂_same]
    _ ↔ _ := by simp only [Entry.mem_all, Entry.find_eq_ok_iff, true_imp_iff]

/-- the first function that is missing is complained of -/
theorem importSlots_eq_error_iff {fault : Fault} : importSlots image = .error fault ↔
    ∃ before e after, Entry.all = before ++ e :: after ∧ (∀ earlier ∈ before, ¬ earlier.Missing image.imports) ∧
      e.Missing image.imports ∧ fault = .anchorMissing e.complaint := by
  calc importSlots image = .error fault
    _ ↔ ImportTable.entries <$> importSlots image = .error fault := by
      cases importSlots image <;> simp [Functor.map, Except.map]
    _ ↔ _ := by
      rw [map_entries_importSlots, mapM_eq_error_iff]
      simp only [Entry.exists_find_eq_ok_iff, Entry.find_eq_error_iff]

/-- every function can be found if every function is imported in some form -/
theorem exists_importSlots_iff :
    (∃ table, importSlots image = .ok table) ↔ ∀ e : Entry, ∃ form ∈ e.forms, ∃ slot ∈ image.imports, slot.BoundTo form := by
  constructor
  · rintro ⟨table, htable⟩ e
    exact Entry.exists_slotAt_iff.1 ⟨_, importSlots_eq_ok_iff.1 htable e⟩
  · intro h
    cases hslots : importSlots image with
    | ok table => exact ⟨table, rfl⟩
    | error fault =>
      obtain ⟨-, e, -, -, -, hmissing, -⟩ := importSlots_eq_error_iff.1 hslots
      obtain ⟨form, hform, slot, hslot, hbound⟩ := h e
      exact absurd hbound (hmissing form hform slot hslot)

/-- a longer table has every function that the shorter one has -/
theorem importSlots_append {image' : Image} {extra : List ImportSlot} (h : image'.imports = image.imports ++ extra)
    {table : ImportTable} (htable : importSlots image = .ok table) : ∃ table', importSlots image' = .ok table' ∧
      ∀ e, table'.entry e = table.entry e ∨
        ∃ form ∈ e.forms.dropLast, form.Absent image.imports ∧ form.FirstAt extra (table'.entry e) := by
  have hthere := exists_importSlots_iff.1 ⟨table, htable⟩
  have hthere' : ∀ e : Entry, ∃ form ∈ e.forms, ∃ slot ∈ image'.imports, slot.BoundTo form := fun e => by
    obtain ⟨form, hform, slot, hslot, hbound⟩ := hthere e
    exact ⟨form, hform, slot, h ▸ List.mem_append_left _ hslot, hbound⟩
  obtain ⟨table', htable'⟩ := exists_importSlots_iff.2 hthere'
  refine ⟨table', htable', fun e => ?_⟩
  have hslot' := importSlots_eq_ok_iff.1 htable' e
  rw [h] at hslot'
  rcases (importSlots_eq_ok_iff.1 htable e).append extra with hslot | ⟨form, hform, habsent, address, hfirst, hslot⟩
  · exact .inl (hslot'.unique hslot)
  · exact .inr ⟨form, hform, habsent, hslot'.unique hslot ▸ hfirst⟩

section

variable {t : Thresholds} {scripts : Nat} {steps : Fin scripts → List (Step (FinderKey scripts))}
  (requests : List (Request (FinderKey scripts)))

theorem load_imports_eq_ok_iff {value : Finding} :
    ((standard image t steps).load .imports ((standard image t steps).afterAll .start requests)).1 = .ok value ↔
      ∃ table, importSlots image = .ok table ∧ value = .imports table := by
  have hkey : (.imports : FinderKey scripts) ∈ FinderKey.builtIn := mem_builtIn nofun
  refine (load_eq_ok_iff .imports hkey rfl requests).trans ?_
  simp only [importTable, meaning_ofExcept]

theorem load_imports_eq_error_iff {failure : Failure} :
    ((standard image t steps).load .imports ((standard image t steps).afterAll .start requests)).1 = .error failure ↔
      ∃ fault, importSlots image = .error fault ∧ failure = ⟨"IMPORTS", fault⟩ := by
  have hkey : (.imports : FinderKey scripts) ∈ FinderKey.builtIn := mem_builtIn nofun
  refine (load_eq_error_iff .imports hkey rfl requests).trans ?_
  simp only [importTable, meaning_ofExcept]
  rfl

end

/-- **The import table holds the first slots that will do.** With any thresholds and after any requests, its finder finds, for
each function, the address of the first slot that is bound in the preferred form of those there are slots for. It finds a
table exactly if every function is imported in some form, and complains otherwise of the first function that is missing. An
image with more slots behind these, and whatever else is different, has a table too, with the same entries but for the
function that prints: that one changes only if sprintf was not there and is brought by the other slots. -/
theorem importTable_exact (image : Image) (t : Thresholds) {scripts : Nat}
    (steps : Fin scripts → List (Step (FinderKey scripts))) (requests : List (Request (FinderKey scripts))) :
    let S := Survey.standard image t steps
    let answer := (S.load .imports (S.afterAll .start requests)).1
    (∀ value, answer = .ok value ↔
      ∃ table, (∀ e, Entry.SlotAt e image.imports (table.entry e)) ∧ value = .imports table) ∧
    ((∃ value, answer = .ok value) ↔ ∀ e : Entry, ∃ form ∈ e.forms, ∃ slot ∈ image.imports, slot.BoundTo form) ∧
    (∀ failure, answer = .error failure ↔ ∃ before e after, Entry.all = before ++ e :: after ∧
      (∀ earlier ∈ before, ¬ earlier.Missing image.imports) ∧ e.Missing image.imports ∧
        failure = ⟨"IMPORTS", .anchorMissing e.complaint⟩) ∧
    ∀ (image' : Image) (t' : Thresholds) {scripts' : Nat} (steps' : Fin scripts' → List (Step (FinderKey scripts')))
      (requests' : List (Request (FinderKey scripts'))) (extra : List ImportSlot),
      image'.imports = image.imports ++ extra →
      let S' := Survey.standard image' t' steps'
      let answer' := (S'.load .imports (S'.afterAll .start requests')).1
      ∀ table, answer = .ok (.imports table) → ∃ table', answer' = .ok (.imports table') ∧
        (∀ e, e ≠ .print → table'.entry e = table.entry e) ∧
        (table'.print = table.print ∨ ImportForm.Absent ⟨"sprintf", none⟩ image.imports ∧
          ImportForm.FirstAt ⟨"sprintf", none⟩ extra table'.print) := by
  intro S answer
  refine ⟨fun value => ?_, ?_, fun failure => ?_, ?_⟩
  · simp only [answer, S, load_imports_eq_ok_iff, importSlots_eq_ok_iff]
  · rw [← exists_importSlots_iff]
    simp only [answer, S, load_imports_eq_ok_iff]
    exact ⟨fun ⟨_, table, h, _⟩ => ⟨table, h⟩, fun ⟨table, h⟩ => ⟨_, table, h, rfl⟩⟩
  · simp only [answer, S, load_imports_eq_error_iff, importSlots_eq_error_iff]
    constructor
    · rintro ⟨_, ⟨before, e, after, hall, hbefore, hmissing, rfl⟩, rfl⟩
      exact ⟨before, e, after, hall, hbefore, hmissing, rfl⟩
    · rintro ⟨before, e, after, hall, hbefore, hmissing, rfl⟩
      exact ⟨_, ⟨before, e, after, hall, hbefore, hmissing, rfl⟩, rfl⟩
  · intro image' t' scripts' steps' requests' extra himports S' answer' table h
    obtain ⟨_, htable, heq⟩ := (load_imports_eq_ok_iff requests).1 h
    obtain rfl := Finding.imports.inj heq
    obtain ⟨table', htable', hentries⟩ := importSlots_append himports htable
    refine ⟨table', (load_imports_eq_ok_iff requests').2 ⟨table', htable', rfl⟩, fun e he => ?_, ?_⟩
    · rcases hentries e with hsame | ⟨form, hform, -⟩
      · exact hsame
      · -- no other function has a form that is preferred to another
        cases e <;> contradiction
    · rcases hentries .print with hsame | ⟨form, hform, hchange⟩
      · exact .inl hsame
      · obtain rfl := List.mem_singleton.1 hform
        exact .inr hchange

/-- slots in no order, some of them twice, with no sprintf -/
def crowdedSlots : List ImportSlot := [
  ⟨"USER32.dll", "wsprintfA", 0x5A1108⟩,
  ⟨"NTDLL.dll", "GetProcAddress", 0x5A1300⟩,
  ⟨"kernel32.DLL", "GetProcAddress", 0x5A1004⟩,
  ⟨"KERNEL32.dll", "GetProcAddress", 0x5A1304⟩,
  ⟨"user32.dll", "CreateWindowExA", 0x5A1104⟩,
  ⟨"debug.dll", "OutputDebugStringA", 0x5A1008⟩,
  ⟨"KERNEL32.dll", "GetModuleHandleA", 0x5A1000⟩,
  ⟨"USER32.dll", "MessageBoxA", 0x5A1100⟩]

/-- slots that bring sprintf, and MessageBoxA once more -/
def lateSlots : List ImportSlot := [
  ⟨"USER32.dll", "MessageBoxA", 0x5A1308⟩,
  ⟨"MSVCR100.dll", "sprintf", 0x5A1200⟩]

/-- image of nothing but import slots -/
def slotsOnly (imports : List ImportSlot) : Image where
  bytes := #[]
  sections := []
  imports := imports
  metadata := .unknown
  sound := rfl

/-- Each entry holds the first slot that will do, and with more slots only the one for the function that prints changes. -/
theorem crowdedSlots_resolve :
    let table : ImportTable := ⟨0x5A1000, 0x5A1004, 0x5A1008, 0x5A1100, 0x5A1108, 0x5A1104⟩
    let load := fun imports => ((standard (slotsOnly imports) .standard (fun _ : Fin 0 => [])).load .imports .start).1
    load crowdedSlots = .ok (.imports table) ∧ (∀ e, Entry.SlotAt e crowdedSlots (table.entry e)) ∧
      ∃ table', load (crowdedSlots ++ lateSlots) = .ok (.imports table') ∧
        (∀ e, e ≠ .print → table'.entry e = table.entry e) ∧ table'.print = 0x5A1200 := by
  intro table load
  have hloads : load crowdedSlots = .ok (.imports table) := by decide +kernel
  have hloads' : load (crowdedSlots ++ lateSlots) = .ok (.imports { table with print := 0x5A1200 }) := by decide +kernel
  obtain ⟨hok, -, -, hmore⟩ := importTable_exact (slotsOnly crowdedSlots) .standard (fun _ : Fin 0 => []) []
  obtain ⟨_, hslots, heq⟩ := (hok _).1 hloads
  obtain rfl := Finding.imports.inj heq
  obtain ⟨table', htable', hsame, -⟩ :=
    hmore (slotsOnly (crowdedSlots ++ lateSlots)) .standard (fun _ : Fin 0 => []) [] lateSlots rfl table hloads
  have hprint := congrArg ImportTable.print (Finding.imports.inj (Except.ok.inj (htable'.symm.trans hloads')))
  exact ⟨hloads, hslots, table', htable', hsame, hprint⟩

end Finder

end Landmark
