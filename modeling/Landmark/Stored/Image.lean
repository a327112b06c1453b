/-
Stored forms of addresses, sections, import slots and metadata.

Every type has a JSON form (`toJson`) and a reader for it (`ofJson?`); the reader takes fields in any order and ignores
keys it does not know.
-/
import Landmark.Address
import Landmark.Image.Metadata
import Landmark.Image.Section
import Landmark.Json.Decode

namespace Landmark

def Space.toJson (s : Space) : Json :=
  .ofString s.name

def Space.ofJson? (p : Json.Place) : Json → Option Space :=
  Json.choice? ([Space.physical, Space.virtual].map fun s => (s.name, s)) p

namespace Address

def toJson (a : Address) : Json :=
  .ofMembers [("value", .ofNat a.value.toNat), ("space", a.space.toJson)]

def ofJson? (p : Json.Place) (v : Json) : Option Address :=
  match v.record? ["value", "space"] with
  | some [some value, some space] => do
    return ⟨← value.word?, ← Space.ofJson? p.inside space⟩
  | _ => none

end Address

namespace Section

def toJson (s : Section) : Json :=
  .ofMembers [("name", .ofString s.name), ("raw_offset", .ofNat s.rawOffset.toNat),
    ("raw_size", .ofNat s.rawSize.toNat), ("virtual_address", .ofNat s.virtualAddress.toNat),
    ("virtual_size", .ofNat s.virtualSize.toNat), ("executable", .bool s.executable)]

def ofJson? (v : Json) : Option Section :=
  match v.record? ["name", "raw_offset", "raw_size", "virtual_address", "virtual_size", "executable"] with
  | some [some name, some rawOffset, some rawSize, some virtualAddress, some virtualSize, some executable] => do
    return ⟨← name.text?, ← rawOffset.word?, ← rawSize.word?, ← virtualAddress.word?, ← virtualSize.word?,
      ← executable.flag?⟩
  | _ => none

end Section

namespace ImportSlot

def toJson (i : ImportSlot) : Json :=
  .ofMembers [("module", .ofString i.library), ("function", .ofString i.function),
    ("address", .ofNat i.address.toNat)]

def ofJson? (v : Json) : Option ImportSlot :=
  match v.record? ["module", "function", "address"] with
  | some [some library, some function, some address] => do
    return ⟨← library.text?, ← function.text?, ← address.word?⟩
  | _ => none

end ImportSlot

namespace LinkerVersion

def toJson (v : LinkerVersion) : Json :=
  .ofMembers [("major", .ofNat v.major.toNat), ("minor", .ofNat v.minor.toNat)]

def ofJson? (v : Json) : Option LinkerVersion :=
  match v.record? ["major", "minor"] with
  | some [some major, some minor] => do
    return ⟨← major.byte?, ← minor.byte?⟩
  | _ => none

end LinkerVersion

namespace BuildDate

def toJson (d : BuildDate) : Json :=
  .ofNat d.value.toNat

def ofJson? (v : Json) : Option BuildDate :=
  v.word?.map BuildDate.mk

end BuildDate

namespace Metadata

def toJson (m : Metadata) : Json :=
  .ofMembers [("build_date", m.buildDate.toJson), ("linker", m.linker.toJson), ("file_name", .ofString m.fileName),
    ("resource_dir", match m.resourceDirectory with
      | some d => .ofNat d.toNat
      | none => .null)]

/-- a resource directory that is not named is absent -/
def ofJson? (v : Json) : Option Metadata :=
  match v.record? ["build_date", "linker", "file_name", "resource_dir"] with
  | some [some buildDate, some linker, some fileName, directory] => do
    return ⟨← BuildDate.ofJson? buildDate, ← LinkerVersion.ofJson? linker, ← fileName.text?,
      ← (directory.getD .null).optional? Json.word?⟩
  | _ => none

end Metadata

end Landmark
