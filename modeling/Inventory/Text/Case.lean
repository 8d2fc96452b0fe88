import Inventory.Text.CaseData

/-!
Letter case by the full Unicode mappings: lower case with the final form of sigma, case folding
for comparisons that disregard case, and the capitalised form of a text.
-/
namespace Inventory.Text

/-- The code point a table of runs sends `n` to. -/
def CaseRun.shift? (runs : List CaseRun) (n : Nat) : Option Nat :=
  (runs.find? fun r => r.first ≤ n && n ≤ r.last && (n - r.first) % r.stride == 0).map
    fun r => ((n : Int) + r.shift).toNat

/-- The form of a character beyond ASCII by its expansion, else by its run, else itself. -/
def mapped (runs : List CaseRun) (expansions : List (Nat × List Nat)) (c : Char) : List Char :=
  match expansions.lookup c.toNat with
  | some points => points.map Char.ofNat
  | none => [((CaseRun.shift? runs c.toNat).map Char.ofNat).getD c]

def isAscii (c : Char) : Bool :=
  c.toNat < 128

def lowerChar (c : Char) : List Char :=
  if isAscii c then [c.toLower] else mapped lowerRuns lowerExpansions c

def foldChar (c : Char) : List Char :=
  if isAscii c then [c.toLower] else mapped foldRuns foldExpansions c

def titleChar (c : Char) : List Char :=
  if isAscii c then [c.toUpper] else mapped titleRuns titleExpansions c

def within (ranges : List (Nat × Nat)) (c : Char) : Bool :=
  ranges.any fun (first, last) => first ≤ c.toNat && c.toNat ≤ last

/-- The nearest character that is not passed over has case. -/
def meetsCased (cs : List Char) : Bool :=
  ((cs.dropWhile (within ignorableRanges)).head?).any (within casedRanges)

/-- Lower case of the characters that follow `before`, which stands in reverse. A capital sigma
takes its final form when it ends a word. -/
def lowerAfter : (before : List Char) → List Char → List Char
  | _, [] => []
  | before, c :: rest =>
    (if c = 'Σ' then [if meetsCased before && !meetsCased rest then 'ς' else 'σ']
      else lowerChar c) ++ lowerAfter (c :: before) rest

/-- Lower case. -/
def lower (s : String) : String :=
  String.ofList (lowerAfter [] s.toList)

/-- Case folding: two texts that differ only in case have the same folding. -/
def fold (s : String) : String :=
  String.ofList (s.toList.flatMap foldChar)

/-- The first character in title case and the others in lower case. -/
def capitalize (s : String) : String :=
  match s.toList with
  | [] => ""
  | c :: rest => String.ofList (titleChar c ++ lowerAfter [c] rest)

end Inventory.Text
