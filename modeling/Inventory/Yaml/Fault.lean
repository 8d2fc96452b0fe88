import Inventory.Number.Numeral
import Inventory.Text.Quoted

/-!
Why a settings file cannot be read. Most files that fail are malformed. The other faults lie in a
single value: its tag or its form promises more than its text holds.
-/
namespace Inventory.Yaml

/-- The part of a date or of a time of day that does not exist. -/
inductive CalendarFault where
  | year (n : Nat)
  | month
  | day
  | hour
  | minute
  | second
  /-- An offset of a whole day or more, in minutes. -/
  | offset (minutes : Int)
  deriving DecidableEq

inductive Fault where
  /-- The text has no structure, or a value does not fit in its place. -/
  | malformed
  /-- A text under the tag of whole numbers is none. -/
  | notWhole (base : Nat) (shown : String)
  /-- A whole number in decimal writing has too many digits. -/
  | tooManyDigits (count : Nat)
  /-- A text under the tag of real numbers is none. -/
  | notReal (shown : String)
  /-- A place of a real number to the base sixty is beyond the finite numbers. -/
  | beyondReals
  /-- A text under the tag of truth values is none. -/
  | notTruth (shown : String)
  /-- A text under the tag of numbers holds nothing but a sign. -/
  | noDigits
  /-- A text under the tag of dates is none. -/
  | notDate
  /-- A mapping is under the tag of dates. -/
  | dateMapping
  | calendar (fault : CalendarFault)
  /-- An escape in a quoted text gives a number that no character has. -/
  | noCharacter (code : Nat)
  deriving DecidableEq

/-- A span of minutes in days and seconds, of which only the days can be negative. -/
def spanText (minutes : Int) : String :=
  let days := minutes / 1440
  let seconds := minutes % 1440 * 60
  let parts :=
    (if days = 0 then [] else [s!"days={days}"]) ++
      (if seconds = 0 then [] else [s!"seconds={seconds}"])
  "datetime.timedelta(" ++ (if parts.isEmpty then "0" else ", ".intercalate parts) ++ ")"

def CalendarFault.message : CalendarFault → String
  | year n => s!"year {n} is out of range"
  | month => "month must be in 1..12"
  | day => "day is out of range for month"
  | hour => "hour must be in 0..23"
  | minute => "minute must be in 0..59"
  | second => "second must be in 0..59"
  | offset minutes =>
    "offset must be a timedelta strictly between -timedelta(hours=24) and timedelta(hours=24), " ++
      "not " ++ spanText minutes ++ "."

namespace Fault

/-- Numbers from here on are too great for every kind of character. -/
def codeLimit : Nat :=
  Nat.pow 2 31

/-- What is wrong, apart from the place where it is. -/
def message : Fault → String
  | malformed => "not valid YAML"
  | notWhole base shown =>
    s!"invalid literal for int() with base {base}: " ++ String.ofList (shown.toList.take 200)
  | tooManyDigits count => Numeral.tooLongMessage count
  | notReal shown => "could not convert string to float: " ++ shown
  | beyondReals => "int too large to convert to float"
  | notTruth shown => shown
  | noDigits => "string index out of range"
  | notDate => "'NoneType' object has no attribute 'groupdict'"
  | dateMapping => "expected string or bytes-like object, got 'list'"
  | calendar fault => fault.message
  | noCharacter code =>
    if code < codeLimit then "chr() arg not in range(0x110000)"
    else "Python int too large to convert to C int"

end Fault

/-- What everything that reads a part of a file gives. -/
abbrev Read := Except Fault

/-- The answer for a text without structure. -/
def malformed : Read α :=
  .error .malformed

end Inventory.Yaml
