/-
What is known of an image beside its bytes and sections: build date, linker, file name, resource directory, import slots.
-/
import Landmark.BuildDate
import Landmark.Text.Ascii

namespace Landmark

/-- linker version, ordered by major number first -/
structure LinkerVersion where
  major : UInt8
  minor : UInt8
  deriving DecidableEq, Repr

namespace LinkerVersion

/-- major and minor number with a point between -/
def text (v : LinkerVersion) : String :=
  toString v.major.toNat ++ "." ++ toString v.minor.toNat

def compare (v w : LinkerVersion) : Ordering :=
  (Ord.compare v.major.toNat w.major.toNat).then (Ord.compare v.minor.toNat w.minor.toNat)

end LinkerVersion

/-- one slot of the import table: the function it is bound to and the virtual address of the slot -/
structure ImportSlot where
  library : String
  function : String
  address : UInt32
  deriving DecidableEq, Repr

/-- the slot is bound to this function, of this library if one is asked for; library names match in any case -/
def ImportSlot.serves (i : ImportSlot) (function : String) (library : Option String) : Bool :=
  i.function == function && library.all (Text.sameIgnoringCase i.library ·)

structure Metadata where
  buildDate : BuildDate
  linker : LinkerVersion
  fileName : String
  /-- physical offset of the resource directory, if the image has one -/
  resourceDirectory : Option UInt32
  deriving DecidableEq, Repr

/-- metadata of an image nothing is known of -/
def Metadata.unknown : Metadata :=
  ⟨⟨0⟩, ⟨0, 0⟩, "", none⟩

end Landmark
