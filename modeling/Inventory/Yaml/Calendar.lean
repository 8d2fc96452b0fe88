import Inventory.Clock
import Inventory.Number.Numeral
import Inventory.Yaml.Fault

/-!
Dates and times of day, as settings files write them: `2001-12-14`, or a date with a time such as
`2001-12-14T21:59:43.10-05:00`.
-/
namespace Inventory.Yaml

structure Date where
  year : Nat
  month : Nat
  day : Nat
  deriving DecidableEq

/-- A date with a time of day. -/
structure Moment where
  date : Date
  hour : Nat
  minute : Nat
  second : Nat
  microsecond : Nat
  /-- How many minutes the clock is ahead of universal time, if that is known. -/
  offset : Option Int
  deriving DecidableEq

/-! ### Writing -/

/-- A text without one line feed at its end. -/
def withoutLineFeed (cs : List Char) : List Char :=
  if cs.getLast? = some '\n' then cs.dropLast else cs

/-- Takes off a number of `least` to `most` digits. -/
def takeNumber (least most : Nat) (cs : List Char) : Option (Nat × List Char) :=
  let digits := (cs.take most).takeWhile Char.isDigit
  if digits.length < least then none
  else some (Numeral.ofDigits digits, cs.drop digits.length)

/-- Takes off a character. -/
def takeChar (c : Char) : List Char → Option (List Char)
  | [] => none
  | d :: rest => if d = c then some rest else none

def isBlankOrTab (c : Char) : Bool :=
  c == ' ' || c == '\t'

/-- Takes off what stands between a date and a time: a letter or blanks. -/
def takeJoint : List Char → Option (List Char)
  | [] => none
  | c :: rest =>
    if c = 'T' || c = 't' then some rest
    else if isBlankOrTab c then some (rest.dropWhile isBlankOrTab)
    else none

/-- The offset that the end of a time gives, if it gives one. -/
def readOffset (cs : List Char) : Option (Option Int) := do
  if cs.isEmpty then return none
  match cs.dropWhile isBlankOrTab with
  | ['Z'] => return some 0
  | sign :: cs =>
    if sign != '+' && sign != '-' then none
    let (hours, cs) ← takeNumber 1 2 cs
    let (minutes, cs) ←
      match cs with
      | ':' :: cs => takeNumber 2 2 cs
      | cs => some (0, cs)
    if !cs.isEmpty then none
    let total : Int := 60 * hours + minutes
    return some (if sign = '-' then -total else total)
  | [] => none

/-- The millionths that the digits after a point stand for. -/
def millionths (digits : List Char) : Nat :=
  let kept := digits.take 6
  Numeral.ofDigits kept * Nat.pow 10 (6 - kept.length)

/-- The date, and the moment if a time follows, that a text is written as. They need not exist. -/
def readStamp? (cs : List Char) : Option (Date × Option Moment) := do
  let (year, cs) ← takeNumber 4 4 (withoutLineFeed cs)
  let (month, cs) ← takeNumber 1 2 (← takeChar '-' cs)
  let (day, cs) ← takeNumber 1 2 (← takeChar '-' cs)
  let date : Date := ⟨year, month, day⟩
  if cs.isEmpty then return (date, none)
  let (hour, cs) ← takeNumber 1 2 (← takeJoint cs)
  let (minute, cs) ← takeNumber 2 2 (← takeChar ':' cs)
  let (second, cs) ← takeNumber 2 2 (← takeChar ':' cs)
  let (fraction, cs) :=
    match cs with
    | '.' :: cs => (cs.takeWhile Char.isDigit, cs.dropWhile Char.isDigit)
    | cs => ([], cs)
  let offset ← readOffset cs
  return (date, some ⟨date, hour, minute, second, millionths fraction, offset⟩)

/-- A plain text is a date, or a date with a time. Without a time, months and days have two
digits. -/
def isStamp (cs : List Char) : Bool :=
  match readStamp? cs with
  | some (_, none) => (withoutLineFeed cs).length == 10
  | some (_, some _) => true
  | none => false

/-! ### The calendar -/

def isLeapYear (year : Nat) : Bool :=
  year % 4 == 0 && (year % 100 != 0 || year % 400 == 0)

def daysInMonth (year : Nat) : (month : Nat) → Nat
  | 2 => if isLeapYear year then 29 else 28
  | 4 | 6 | 9 | 11 => 30
  | _ => 31

namespace Date

/-- The date, if it exists. -/
def check (d : Date) : Except CalendarFault Date :=
  if d.year = 0 then .error (.year d.year)
  else if d.month = 0 || 12 < d.month then .error .month
  else if d.day = 0 || daysInMonth d.year d.month < d.day then .error .day
  else .ok d

/-- How many days there are up to the date. -/
def ordinal (d : Date) : Nat :=
  let years := d.year - 1
  (List.range d.month).foldl
      (fun days month => if month = 0 then days else days + daysInMonth d.year month)
      (365 * years + years / 4 - years / 100 + years / 400) +
    d.day

/-- The date on its own. -/
def shown (d : Date) : String :=
  Clock.padded 4 d.year ++ "-" ++ Clock.padded 2 d.month ++ "-" ++ Clock.padded 2 d.day

/-- The date inside messages. -/
def display (d : Date) : String :=
  s!"datetime.date({d.year}, {d.month}, {d.day})"

end Date

namespace Moment

/-- The moment, if it exists. -/
def check (m : Moment) : Except CalendarFault Moment := do
  match m.offset with
  | some minutes => if 1440 ≤ minutes.natAbs then throw (.offset minutes)
  | none => pure ()
  discard m.date.check
  if 23 < m.hour then throw .hour
  if 59 < m.minute then throw .minute
  if 59 < m.second then throw .second
  return m

/-- The microseconds on the clock since it began. -/
def clock (m : Moment) : Int :=
  ((((24 * m.date.ordinal + m.hour) * 60 + m.minute) * 60 + m.second) * 1000000 + m.microsecond :
    Nat)

/-- Two moments are the same: at one point in time, or on clocks without an offset. -/
def same (a b : Moment) : Bool :=
  match a.offset, b.offset with
  | some i, some j => a.clock - 60000000 * i == b.clock - 60000000 * j
  | none, none => a.clock == b.clock
  | _, _ => false

/-- The offset on its own. -/
def shownOffset (minutes : Int) : String :=
  (if minutes < 0 then "-" else "+") ++ Clock.padded 2 (minutes.natAbs / 60) ++ ":" ++
    Clock.padded 2 (minutes.natAbs % 60)

/-- The moment on its own. -/
def shown (m : Moment) : String :=
  m.date.shown ++ " " ++ Clock.padded 2 m.hour ++ ":" ++ Clock.padded 2 m.minute ++ ":" ++
    Clock.padded 2 m.second ++
    (if m.microsecond = 0 then "" else "." ++ Clock.padded 6 m.microsecond) ++
    (m.offset.map shownOffset).getD ""

/-- The offset inside messages. -/
def displayOffset (minutes : Int) : String :=
  if minutes = 0 then "datetime.timezone.utc"
  else "datetime.timezone(" ++ spanText minutes ++ ")"

/-- The moment inside messages; seconds and microseconds are left out at their end if they are
zero. -/
def display (m : Moment) : String :=
  let fine :=
    if m.microsecond != 0 then [m.second, m.microsecond]
    else if m.second != 0 then [m.second]
    else []
  let numbers := [m.date.year, m.date.month, m.date.day, m.hour, m.minute] ++ fine
  let zone := (m.offset.map fun minutes => ["tzinfo=" ++ displayOffset minutes]).getD []
  "datetime.datetime(" ++ ", ".intercalate (numbers.map toString ++ zone) ++ ")"

end Moment

end Inventory.Yaml
