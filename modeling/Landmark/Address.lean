/-
Addresses: a 32-bit number tagged with the space it is counted in.

Physical addresses are offsets into the file, virtual ones are positions in the loaded program. All written forms are
derived from the number: `text` has eight digits, `hex` is the little-endian byte form.
-/
import Landmark.Text.Hex

namespace Landmark

/-- the space an address is counted in -/
inductive Space where
  | physical
  | virtual
  deriving DecidableEq, Repr

/-- name of a space in messages and stored files -/
def Space.name : Space → String
  | .physical => "Physical"
  | .virtual => "Virtual"

/-- a number and its space -/
structure Address where
  value : UInt32
  space : Space
  deriving DecidableEq, Repr

namespace Address

/-- virtual address -/
def virt (value : UInt32) : Address := ⟨value, .virtual⟩

/-- physical address -/
def phys (value : UInt32) : Address := ⟨value, .physical⟩

/-- little-endian bytes -/
def bytes (a : Address) : List UInt8 :=
  Word.bytes a.value

/-- little-endian bytes in hex -/
def hex (a : Address) : String :=
  Hex.encode a.bytes

/-- eight digits after 0x -/
def text (a : Address) : String :=
  "0x" ++ String.ofList (Hex.wordDigits a.value)

end Address

end Landmark
