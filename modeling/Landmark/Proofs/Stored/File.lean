/-
A file gives what the value in it says.
-/
import Landmark.Proofs.Json.Text
import Landmark.Stored.File

namespace Landmark.Stored

theorem fileText_toUTF8 (text : String) : fileText (some text.toUTF8) = .ok text := by
  have hvalid : text.toUTF8.IsValidUTF8 := text.isValidUTF8
  have hread : String.fromUTF8? text.toUTF8 = some text := dif_pos hvalid
  simp only [fileText, hread]

section

variable {α : Type} {read? : Json → Option α} {text : String} {v : Json} (htext : v.IsText text)
include htext

/-- **What is read from a file is what the value in it says.** -/
theorem load_of_isText {a : α} (h : read? v = some a) : load read? (some text.toUTF8) = .ok a := by
  simp only [load, fileText_toUTF8, fromText, Json.parse?_of_isText htext, Option.bind_some, h]

/-- a value that is not of the form asked for is a fault of the JSON -/
theorem load_error_of_isText (h : read? v = none) : ∃ detail, load read? (some text.toUTF8) = .error (.json detail) := by
  simp only [load, fileText_toUTF8, fromText, Json.parse?_of_isText htext, Option.bind_some, h]
  exact ⟨_, rfl⟩

end

/-- a plain value is read from the file it was written into -/
theorem load_pretty {α : Type} {read? : Json → Option α} {v : Json} (hv : v.Plain) {a : α} (h : read? v = some a) :
    load read? (some v.pretty.toUTF8) = .ok a :=
  load_of_isText hv.isText_pretty h

end Landmark.Stored
