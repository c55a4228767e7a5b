import QueryBuild.Text.Lossy
/-!
# Bytes as characters

Programs exchange bytes. A list of octets holds one character below 256 for every byte, so that
bytes can be written as character literals.
-/

namespace QueryBuild

/-- A list of characters that stand for one byte each. -/
abbrev Octets := List Char

namespace Octets

def ofBytes (bytes : ByteArray) : Octets :=
  bytes.data.toList.map fun b => Char.ofNat b.toNat

def toBytes (octets : Octets) : ByteArray :=
  ⟨(octets.map fun c => UInt8.ofNat c.toNat).toArray⟩

def ofText (s : String) : Octets :=
  ofBytes s.toUTF8

/-- The text of octets; bytes that are no text are replaced. -/
def toText (octets : Octets) : String :=
  Text.lossy (octets.map fun c => UInt8.ofNat c.toNat)

end Octets

end QueryBuild
