/-
32-bit words as addresses, sizes and immediates use them.

`addSat` stops at the largest word, `addExact` has no answer past it; `bytes` is the little-endian byte form and
`ofBytes` reads it back. Sums that may wrap are written with the plain operators of `UInt32`.
-/
namespace Landmark.Word

/-- sum that stops at the largest word -/
def addSat (a b : UInt32) : UInt32 :=
  if a.toNat + b.toNat < UInt32.size then a + b else 0xFFFFFFFF

/-- sum, when it is a word -/
def addExact (a b : UInt32) : Option UInt32 :=
  if a.toNat + b.toNat < UInt32.size then some (a + b) else none

/-- value of a byte string, lowest byte first -/
def valueOf : List UInt8 → Nat
  | [] => 0
  | b :: bs => b.toNat + 256 * valueOf bs

/-- the word a little-endian byte string denotes -/
def ofBytes (bs : List UInt8) : UInt32 :=
  UInt32.ofNat (valueOf bs)

/-- the four bytes of a word, lowest first -/
def bytes (w : UInt32) : List UInt8 :=
  [UInt8.ofNat w.toNat, UInt8.ofNat (w.toNat / 0x100), UInt8.ofNat (w.toNat / 0x10000), UInt8.ofNat (w.toNat / 0x1000000)]

theorem ofBytes_bytes (w : UInt32) : ofBytes (bytes w) = w := by
  have hw := w.toNat_lt
  apply UInt32.toNat_inj.1
  simp only [ofBytes, bytes, valueOf, UInt32.toNat_ofNat', UInt8.toNat_ofNat']
  omega

end Landmark.Word
