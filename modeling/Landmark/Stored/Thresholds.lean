/-
Thresholds files.

A file may leave out any threshold, which then keeps its standard number; a threshold that is given twice or is no number in
range makes the file invalid.
-/
import Landmark.Json.Print
import Landmark.Stored.File
import Landmark.Stored.Image
import Landmark.Thresholds

namespace Landmark.Thresholds

/-- keys in order -/
def keys : List String :=
  ["post_2010", "code_shift_after", "code_shift", "prologue_window", "hidden_login_from", "hidden_login_until",
    "hidden_login_until_non_zero", "packet_keys_from", "sakray_client_info_from", "vc14_major", "split_compare_linker"]

def toJson (t : Thresholds) : Json :=
  .ofMembers (keys.zip [.ofNat t.post2010.toNat, .ofNat t.codeShiftAfter.toNat, .ofNat t.codeShift.toNat,
    .ofNat t.prologueWindow.toNat, .ofNat t.hiddenLoginFrom.toNat, .ofNat t.hiddenLoginUntil.toNat,
    .ofNat t.hiddenLoginUntilNonZero.toNat, .ofNat t.packetKeysFrom.toNat, .ofNat t.sakrayClientInfoFrom.toNat,
    .ofNat t.vc14Major.toNat, t.splitCompareLinker.toJson])

/-- a field that keeps its standard value when it is not given -/
def orStandard {α : Type} (standard : α) (read? : Json → Option α) : Option Json → Option α
  | none => some standard
  | some v => read? v

def ofJson? (v : Json) : Option Thresholds :=
  match v.openRecord? keys with
  | some [a, b, c, d, e, f, g, h, i, j, k] => do
    return {
      post2010 := ← orStandard standard.post2010 Json.word? a
      codeShiftAfter := ← orStandard standard.codeShiftAfter Json.word? b
      codeShift := ← orStandard standard.codeShift Json.word? c
      prologueWindow := ← orStandard standard.prologueWindow Json.word? d
      hiddenLoginFrom := ← orStandard standard.hiddenLoginFrom Json.word? e
      hiddenLoginUntil := ← orStandard standard.hiddenLoginUntil Json.word? f
      hiddenLoginUntilNonZero := ← orStandard standard.hiddenLoginUntilNonZero Json.word? g
      packetKeysFrom := ← orStandard standard.packetKeysFrom Json.word? h
      sakrayClientInfoFrom := ← orStandard standard.sakrayClientInfoFrom Json.word? i
      vc14Major := ← orStandard standard.vc14Major Json.byte? j
      splitCompareLinker := ← orStandard standard.splitCompareLinker LinkerVersion.ofJson? k }
  | _ => none

/-- content of a thresholds file -/
def save (t : Thresholds) : String :=
  t.toJson.pretty

/-- thresholds of a file -/
def load (content : Option ByteArray) : Except Fault Thresholds :=
  Stored.load ofJson? content

end Landmark.Thresholds
