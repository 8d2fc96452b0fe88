import Inventory.Gzip.Deflate

/-!
Compressed files: members, one after another, with zero bytes between them or not. A member has
a header, compressed bytes, and a checksum and the size of what they stand for. Bytes can also
be put into a member as they are.
-/
namespace Inventory.Gzip

/-- One more bit of the checksum. -/
def checksumBit (sum : UInt32) : UInt32 :=
  if sum &&& 1 = 1 then (sum >>> 1) ^^^ 0xedb88320 else sum >>> 1

/-- One more byte of the checksum. -/
def checksumByte (sum : UInt32) (b : UInt8) : UInt32 :=
  (List.range 8).foldl (fun sum _ => checksumBit sum) (sum ^^^ b.toUInt32)

/-- The cyclic redundancy checksum of bytes. -/
def checksum (bytes : List UInt8) : Nat :=
  (bytes.foldl checksumByte 0xffffffff ^^^ 0xffffffff).toNat

/-- The number that bytes write, the least significant first. -/
def ofBytes (bytes : List UInt8) : Nat :=
  bytes.foldr (fun b n => 256 * n + b.toNat) 0

/-- `count` bytes that write a number, the least significant first. -/
def toBytes : (count n : Nat) → List UInt8
  | 0, _ => []
  | count + 1, n => n.toUInt8 :: toBytes count (n / 256)

/-- Takes off `count` bytes, which must be there. -/
def skip (count : Nat) (bytes : List UInt8) : Option (List UInt8) :=
  if bytes.length < count then none else some (bytes.drop count)

/-- Takes off a name that ends with a zero byte. -/
def skipName (bytes : List UInt8) : List UInt8 :=
  (bytes.dropWhile (· != 0)).drop 1

/-- Takes off the header of a member. -/
def skipHeader : List UInt8 → Option (List UInt8)
  | 0x1f :: 0x8b :: 8 :: flags :: rest => do
    let rest ← skip 6 rest
    let rest ←
      if flags.toNat.testBit 2 then skip (2 + ofBytes (rest.take 2)) rest else some rest
    let rest := if flags.toNat.testBit 3 then skipName rest else rest
    let rest := if flags.toNat.testBit 4 then skipName rest else rest
    if flags.toNat.testBit 1 then skip 2 rest else some rest
  | _ => none

/-- Reads one member and gives its content and the bytes after it. -/
def readMember (bytes : List UInt8) : Option (ByteArray × List UInt8) := do
  let body ← skipHeader bytes
  let bits := bitsOf body
  let (left, out) ← inflate bits.length bits ByteArray.empty
  let tail := body.drop (body.length - left.length / 8)
  let after ← skip 8 tail
  if ofBytes (tail.take 4) ≠ checksum out.toList then none
  if ofBytes ((tail.drop 4).take 4) ≠ out.size % Nat.pow 2 32 then none
  return (out, after)

/-- Reads members to the end. -/
def readMembers : (fuel : Nat) → List UInt8 → ByteArray → Option ByteArray
  | _, [], out => some out
  | 0, _, _ => none
  | fuel + 1, bytes, out => do
    let (content, after) ← readMember bytes
    readMembers fuel (after.dropWhile (· == 0)) (out ++ content)

/-- The content of a compressed file. -/
def decompress (bytes : ByteArray) : Option ByteArray :=
  readMembers bytes.size bytes.toList ByteArray.empty

/-- Blocks of plain bytes, the last one marked as such. -/
def storedBlocks : (fuel : Nat) → List UInt8 → List UInt8
  | 0, _ => []
  | fuel + 1, bytes =>
    let block := bytes.take 65535
    let after := bytes.drop 65535
    let size := toBytes 2 block.length ++ toBytes 2 (65535 - block.length)
    if after.isEmpty then 1 :: size ++ block else 0 :: size ++ block ++ storedBlocks fuel after

/-- A compressed file with the given content. Nothing is gained in size. -/
def compress (content : ByteArray) : ByteArray :=
  let bytes := content.toList
  let header : List UInt8 := [0x1f, 0x8b, 8, 0, 0, 0, 0, 0, 0, 0xff]
  ⟨(header ++ storedBlocks (bytes.length + 1) bytes ++ toBytes 4 (checksum bytes) ++
    toBytes 4 bytes.length).toArray⟩

end Inventory.Gzip
