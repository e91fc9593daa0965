import ShardSync.Bytes

/-!
# Checksums

The cyclic redundancy check of thirty-two bits with the reflected polynomial
`0xEDB88320`. The register starts with all bits set and is complemented at
the end.
-/

set_option autoImplicit false

namespace ShardSync.Checksum

/-- The generator polynomial, lowest power in the highest bit. -/
def polynomial : UInt32 := 0xEDB88320

@[inline] def shift (register : UInt32) : UInt32 :=
  if register &&& 1 = 1 then (register >>> 1) ^^^ polynomial else register >>> 1

@[inline] def update (register : UInt32) (octet : UInt8) : UInt32 :=
  shift <| shift <| shift <| shift <| shift <| shift <| shift <| shift <|
    register ^^^ octet.toUInt32

end ShardSync.Checksum

namespace ShardSync

def checksum (content : Bytes) : UInt32 :=
  content.foldl Checksum.update 0xFFFFFFFF ^^^ 0xFFFFFFFF

end ShardSync
