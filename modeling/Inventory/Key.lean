import Inventory.Fault
import Inventory.Text.Blank

/-!
Keys on labels: whole numbers in a system of 64 symbols, the most significant first. Entries may
have any keys; these are the ones that are minted for sheets of unused keys.
-/
namespace Inventory.Key

/-- The symbols by their values. -/
def alphabet : List Char :=
  "0123456789ABCDEFGHIJKLMNOPQRSTUVWXYZabcdefghijklmnopqrstuvwxyz+-".toList

def symbol (value : Nat) : Char :=
  alphabet.getD value '0'

def symbolValue? (c : Char) : Option Nat :=
  alphabet.findIdx? (· == c)

/-- The symbols of a positive number in front of `after`. -/
def symbols (n : Nat) (after : List Char) : List Char :=
  if n = 0 then after else symbols (n / 64) (symbol (n % 64) :: after)
termination_by n
decreasing_by omega

/-- The key of a number. -/
def ofNat (n : Nat) : String :=
  String.ofList (if n = 0 then [symbol 0] else symbols n [])

/-- How many texts of a length the symbols make. -/
def wordCount : (length : Nat) → Nat
  | 0 => 1
  | length + 1 => 64 * wordCount length

/-- Symbols in front of others are enough of them for the number. -/
theorem succ_mul_wordCount_le (n : Nat) (after : List Char) :
    (n + 1) * wordCount after.length ≤ wordCount (symbols n after).length := by
  induction n, after using symbols.induct with
  | case1 after =>
      rw [symbols, if_pos rfl]
      omega
  | case2 n after hn ih =>
      rw [symbols, if_neg hn]
      refine Nat.le_trans ?_ ih
      rw [List.length_cons, wordCount, ← Nat.mul_assoc]
      exact Nat.mul_le_mul_right _ (by omega)

theorem lt_wordCount_length_ofNat (n : Nat) : n < wordCount (ofNat n).length := by
  rw [ofNat, String.length_ofList]
  split
  · next hn =>
      rw [hn]
      decide
  · have hlength := succ_mul_wordCount_le n []
    rw [List.length_nil, wordCount] at hlength
    omega

/-- The key of a number that is not negative. -/
def encode (n : Int) : Except Fault String :=
  if n < 0 then .error (.about (.int n) (.negativeKeyNumber n)) else .ok (ofNat n.toNat)

/-- The number that symbols write after `n`, or the first character that is no symbol. -/
def valueOf : (n : Nat) → List Char → Except Char Nat
  | n, [] => .ok n
  | n, c :: rest =>
    match symbolValue? c with
    | some v => valueOf (n * 64 + v) rest
    | none => .error c

/-- The number of a key; white space around it does not count. -/
def decode (key : String) : Except Fault Nat :=
  match (Text.trim key).toList with
  | [] => .error .emptyKey
  | symbols =>
    match valueOf 0 symbols with
    | .ok n => .ok n
    | .error c => .error (.badKeySymbol c key)

end Inventory.Key
