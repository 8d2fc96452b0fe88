/-!
Prefix codes over bits. A code is given by the lengths of its words; words of one length are
numbered in the order of their symbols, and longer words follow shorter ones.
-/
namespace Inventory.Gzip

/-- Bits in the order in which they are read. -/
abbrev Bits := List Bool

/-- The bits of bytes, the least significant of each byte first. -/
def bitsOf (bytes : List UInt8) : Bits :=
  bytes.flatMap fun b => (List.range 8).map b.toNat.testBit

/-- Reads a number of `count` bits, the least significant first. -/
def readNat : (count : Nat) → Bits → Option (Nat × Bits)
  | 0, bits => some (0, bits)
  | _ + 1, [] => none
  | count + 1, b :: bits => do
    let (n, rest) ← readNat count bits
    return (2 * n + b.toNat, rest)

/-- A code as the tree of its words. -/
inductive Code where
  | gap
  | leaf (symbol : Nat)
  | fork (zero one : Code)

namespace Code

/-- The code with one more word, whose bits are the last `length` bits of `word`, the most
significant first. -/
def insert (symbol word : Nat) : (length : Nat) → Code → Code
  | 0, _ => leaf symbol
  | length + 1, code =>
    let (zero, one) :=
      match code with
      | fork zero one => (zero, one)
      | _ => (gap, gap)
    if word.testBit length then fork zero (one.insert symbol word length)
    else fork (zero.insert symbol word length) one

/-- The longest word a code may have. -/
def maxLength : Nat := 15

/-- The symbols with words of one length, in order. -/
def symbolsOf (lengths : List Nat) (length : Nat) : List Nat :=
  (List.range lengths.length).filter fun s => lengths[s]? == some length

/-- Adds the words of `length` for symbols from the word `next` on. -/
def insertAll (length : Nat) : (next : Nat) → List Nat → Code → Code
  | _, [], code => code
  | next, s :: rest, code => insertAll length (next + 1) rest (code.insert s next length)

/-- Adds the words of `count` lengths from `length` on; `next` is the first free word of
`length`. -/
def build (lengths : List Nat) : (count length next : Nat) → Code → Code
  | 0, _, _, code => code
  | count + 1, length, next, code =>
    let symbols := symbolsOf lengths length
    build lengths count (length + 1) (2 * (next + symbols.length))
      (insertAll length next symbols code)

/-- The share of all words that begin with a word of the code, in units of the longest ones. -/
def coverage (lengths : List Nat) : Nat :=
  (lengths.filter (· != 0)).foldl (fun total l => total + Nat.pow 2 (maxLength - l)) 0

/-- The code with words of the given lengths; a symbol of length zero has none. A code must use
up all words, but with `sparse` it may also consist of words of length one only, or of none. -/
def ofLengths? (sparse : Bool) (lengths : List Nat) : Option Code :=
  let whole := Nat.pow 2 maxLength
  let covered := coverage lengths
  if covered = whole || (sparse && covered < whole && lengths.all (· ≤ 1)) then
    some (build lengths maxLength 1 0 gap)
  else none

/-- Reads the symbol whose word stands at the head. -/
def read : Code → Bits → Option (Nat × Bits)
  | leaf s, bits => some (s, bits)
  | fork zero _, false :: bits => zero.read bits
  | fork _ one, true :: bits => one.read bits
  | _, _ => none

end Code

end Inventory.Gzip
