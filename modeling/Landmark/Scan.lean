/-
Searches that are kept on record.

A `ScanLog` counts the text searches of a survey and records its signature searches with their windows and answers. `Scan`
is a computation that adds to it; what it finds depends on the image alone.
-/
import Landmark.Image.TextSearch
import Landmark.Signature.Search

namespace Landmark

/-- one signature search: what, from where, up to where, and the offset found -/
structure SignatureScan where
  signature : Signature
  start : UInt32
  stop : UInt32
  found : Option UInt32

structure ScanLog where
  /-- number of text searches -/
  texts : Nat
  /-- signature searches in order -/
  signatures : Array SignatureScan

def ScanLog.empty : ScanLog := ⟨0, #[]⟩

abbrev Scan (α : Type) := StateM ScanLog α

namespace Scan

/-- text search -/
def text (image : Image) (needle : List UInt8) (q : TextQuery) : Scan (Option UInt32) := do
  modify fun log => { log with texts := log.texts + 1 }
  return image.findText needle q

/-- signature search in a physical window -/
def signatureIn (image : Image) (sig : Signature) (start stop : UInt32) : Scan (Option Sighting) := do
  let found := image.findSignature sig start stop
  modify fun log => { log with signatures := log.signatures.push ⟨sig, start, stop, found.map (·.offset)⟩ }
  return found

end Scan

end Landmark
