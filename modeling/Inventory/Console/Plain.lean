import Inventory.Console.Markup

/-!
Markup and tables as plain text, for a screen without styles.
-/
namespace Inventory.Console

/-- What follows the bracket that closes a tag. -/
def afterTag (cs : List Char) : List Char :=
  (cs.dropWhile (· != ']')).drop 1

theorem length_afterTag_le (cs : List Char) : (afterTag cs).length ≤ cs.length := by
  have h := (List.dropWhile_sublist (p := fun c => c != ']') (l := cs)).length_le
  simp only [afterTag, List.length_drop]
  omega

/-- The text that markup shows, without its tags; `run` is the number of backslashes right
before it. An odd one in front of a tag makes the tag a text. -/
def plainChars (run : Nat) (cs : List Char) : List Char :=
  match cs with
  | [] => List.replicate run '\\'
  | c :: rest =>
    if c = '\\' then plainChars (run + 1) rest
    else if c = '[' && isTag rest then
      List.replicate (run / 2) '\\' ++
        if run % 2 = 1 then '[' :: plainChars 0 rest else plainChars 0 (afterTag rest)
    else List.replicate run '\\' ++ c :: plainChars 0 rest
termination_by cs.length
decreasing_by
  · simp
  · simp
  · have := length_afterTag_le rest
    simp only [List.length_cons]
    omega
  · simp

def plain (markup : String) : String :=
  String.ofList (plainChars 0 markup.toList)

/-! ### Tables -/

/-- The longest text of each column. -/
def widths (rows : List (List String)) : List Nat :=
  rows.foldl (fun ws row => ws.zipWith max (row.map String.length)) (headWidths rows)
where
  headWidths (rows : List (List String)) : List Nat :=
    (rows.headD []).map String.length

/-- The cells of a row below each other's columns. -/
def plainRow (ws : List Nat) (row : List String) : String :=
  "  ".intercalate (row.zipWith (fun cell w => cell.pushn ' ' (w - cell.length)) ws)

def Table.plain (t : Table) : String :=
  let rows := ((if t.showsHeader then [t.headers] else []) ++ t.rows).map (·.map Console.plain)
  "\n".intercalate (Console.plain t.title :: rows.map (plainRow (widths rows)))

def Output.plain : Output → String
  | .line markup => Console.plain markup
  | .table t => t.plain

end Inventory.Console
