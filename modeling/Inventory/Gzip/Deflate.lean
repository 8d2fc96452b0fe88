import Inventory.Gzip.Code

/-!
The compressed form of bytes: blocks of plain bytes, or of symbols in prefix codes. A symbol is
a byte, the end of the block, or the length of a stretch to copy from the bytes before it.
-/
namespace Inventory.Gzip

/-- Base values, and the numbers of extra bits, of the symbols for lengths from 257 on. -/
def lengthSymbols : List (Nat × Nat) :=
  [(3, 0), (4, 0), (5, 0), (6, 0), (7, 0), (8, 0), (9, 0), (10, 0), (11, 1), (13, 1), (15, 1),
   (17, 1), (19, 2), (23, 2), (27, 2), (31, 2), (35, 3), (43, 3), (51, 3), (59, 3), (67, 4),
   (83, 4), (99, 4), (115, 4), (131, 5), (163, 5), (195, 5), (227, 5), (258, 0)]

/-- Base values, and the numbers of extra bits, of the symbols for distances. -/
def distanceSymbols : List (Nat × Nat) :=
  [(1, 0), (2, 0), (3, 0), (4, 0), (5, 1), (7, 1), (9, 2), (13, 2), (17, 3), (25, 3), (33, 4),
   (49, 4), (65, 5), (97, 5), (129, 6), (193, 6), (257, 7), (385, 7), (513, 8), (769, 8),
   (1025, 9), (1537, 9), (2049, 10), (3073, 10), (4097, 11), (6145, 11), (8193, 12), (12289, 12),
   (16385, 13), (24577, 13)]

/-- The order in which the lengths of the code for code lengths are given. -/
def lengthOrder : List Nat :=
  [16, 17, 18, 0, 8, 7, 9, 6, 10, 5, 11, 4, 12, 3, 13, 2, 14, 1, 15]

/-- The lengths of the words that blocks without a code of their own use. -/
def fixedLengths : List Nat :=
  List.replicate 144 8 ++ List.replicate 112 9 ++ List.replicate 24 7 ++ List.replicate 8 8

def fixedCodes : Code × Code :=
  ((Code.ofLengths? false fixedLengths).getD .gap,
   (Code.ofLengths? false (List.replicate 32 5)).getD .gap)

/-- Appends `length` bytes, each one equal to the byte `distance` places before it. -/
def copy (distance : Nat) : (length : Nat) → ByteArray → ByteArray
  | 0, out => out
  | length + 1, out => copy distance length (out.push (out[out.size - distance]?.getD 0))

/-- A value of a table of base values and extra bits. -/
def readValue (table : List (Nat × Nat)) (symbol : Nat) (bits : Bits) : Option (Nat × Bits) := do
  let (base, extra) ← table[symbol]?
  let (n, rest) ← readNat extra bits
  return (base + n, rest)

/-- Reads symbols up to the end of the block. -/
def readSymbols (literals distances : Code) :
    (fuel : Nat) → Bits → ByteArray → Option (Bits × ByteArray)
  | 0, _, _ => none
  | fuel + 1, bits, out => do
    let (symbol, bits) ← literals.read bits
    if symbol < 256 then readSymbols literals distances fuel bits (out.push symbol.toUInt8)
    else if symbol = 256 then return (bits, out)
    else
      let (length, bits) ← readValue lengthSymbols (symbol - 257) bits
      let (symbol, bits) ← distances.read bits
      let (distance, bits) ← readValue distanceSymbols symbol bits
      if out.size < distance then none
      else readSymbols literals distances fuel bits (copy distance length out)

/-- Reads `count` numbers of three bits. -/
def readTriples : (count : Nat) → Bits → Option (List Nat × Bits)
  | 0, bits => some ([], bits)
  | count + 1, bits => do
    let (n, bits) ← readNat 3 bits
    let (others, bits) ← readTriples count bits
    return (n :: others, bits)

/-- Reads code lengths until there are `wanted` of them; those that were read stand in reverse. -/
def readLengths (code : Code) (wanted : Nat) :
    (fuel : Nat) → Bits → (done : List Nat) → Option (List Nat × Bits)
  | 0, _, _ => none
  | fuel + 1, bits, done =>
    if wanted < done.length then none
    else if wanted = done.length then some (done.reverse, bits)
    else do
      let (symbol, bits) ← code.read bits
      if symbol < 16 then readLengths code wanted fuel bits (symbol :: done)
      else
        let (again, extra, least) ←
          match symbol with
          | 16 => done.head?.map (·, 2, 3)
          | 17 => some (0, 3, 3)
          | _ => some (0, 7, 11)
        let (n, bits) ← readNat extra bits
        readLengths code wanted fuel bits (List.replicate (least + n) again ++ done)

/-- Reads the codes at the head of a block that has its own. -/
def readCodes (bits : Bits) : Option ((Code × Code) × Bits) := do
  let (literals, bits) ← readNat 5 bits
  let (distances, bits) ← readNat 5 bits
  let (given, bits) ← readNat 4 bits
  if 29 < literals || 29 < distances then none
  let (triples, bits) ← readTriples (given + 4) bits
  let lengthOf := lengthOrder.zip triples
  let code ← Code.ofLengths? false ((List.range 19).map fun s => (lengthOf.lookup s).getD 0)
  let (lengths, bits) ←
    readLengths code (literals + 257 + distances + 1) (bits.length + 2) bits []
  let (forLiterals, forDistances) := lengths.splitAt (literals + 257)
  if forLiterals[256]? == some 0 then none
  return ((← Code.ofLengths? true forLiterals, ← Code.ofLengths? true forDistances), bits)

/-- Appends `count` plain bytes. -/
def readPlain : (count : Nat) → Bits → ByteArray → Option (Bits × ByteArray)
  | 0, bits, out => some (bits, out)
  | count + 1, bits, out => do
    let (n, bits) ← readNat 8 bits
    readPlain count bits (out.push n.toUInt8)

/-- Reads a block of plain bytes, which starts at a whole byte with its length and the
complement. -/
def readStored (bits : Bits) (out : ByteArray) : Option (Bits × ByteArray) := do
  let (length, bits) ← readNat 16 (bits.drop (bits.length % 8))
  let (complement, bits) ← readNat 16 bits
  if length + complement ≠ 65535 then none
  readPlain length bits out

/-- Reads blocks up to the last one. -/
def inflate : (fuel : Nat) → Bits → ByteArray → Option (Bits × ByteArray)
  | 0, _, _ => none
  | fuel + 1, bits, out => do
    let (last, bits) ← readNat 1 bits
    let (form, bits) ← readNat 2 bits
    let (bits, out) ←
      match form with
      | 0 => readStored bits out
      | 1 => readSymbols fixedCodes.1 fixedCodes.2 (bits.length + 1) bits out
      | 2 => do
        let ((literals, distances), bits) ← readCodes bits
        readSymbols literals distances (bits.length + 1) bits out
      | _ => none
    if last = 1 then return (bits, out) else inflate fuel bits out

end Inventory.Gzip
