/-!
The words of a command line, sorted into options and arguments. Options may stand before,
between and after arguments; `--` ends them. A long option takes its value after `=` or from the
next word, an option of one letter from the rest of its word or from the next word, and letters
without values may share a word. The next word is the value whatever it looks like.
-/
namespace Inventory.Command

/-- An option that a command has. -/
structure Flag where
  /-- What follows `--` in its long form. -/
  name : String
  /-- What follows `-` in its short form. -/
  letter : Option Char
  takesValue : Bool
  deriving DecidableEq, Repr

/-- The words of a command line. -/
structure Words where
  /-- The options that were given, in order, with their values; those without one have the empty
  text. -/
  options : List (String × String)
  arguments : List String
  deriving DecidableEq, Repr

/-- What a word is. -/
inductive Reading where
  | argument
  /-- All words that follow are arguments. -/
  | separator
  /-- Options with their values, and one whose value is the next word. -/
  | options (given : List (String × String)) (awaiting : Option String)
  | unknown
  deriving DecidableEq, Repr

namespace Reading

/-- The reading of a long option, from what follows `--`. -/
def ofLong (flags : List Flag) (text : List Char) : Reading :=
  let name := String.ofList (text.takeWhile (· != '='))
  let value := text.dropWhile (· != '=')
  match flags.find? (·.name == name), value with
  | none, _ => .unknown
  | some f, [] => if f.takesValue then .options [] (some name) else .options [(name, "")] none
  | some f, _ :: value =>
    if f.takesValue then .options [(name, String.ofList value)] none else .unknown

/-- The reading of options of one letter, from what follows `-`. -/
def ofLetters (flags : List Flag) : List Char → Reading
  | [] => .options [] none
  | c :: rest =>
    match flags.find? (·.letter == some c) with
    | none => .unknown
    | some f =>
      if f.takesValue then
        if rest.isEmpty then .options [] (some f.name)
        else .options [(f.name, String.ofList rest)] none
      else
        match ofLetters flags rest with
        | .options given awaiting => .options ((f.name, "") :: given) awaiting
        | other => other

def ofWord (flags : List Flag) (word : String) : Reading :=
  match word.toList with
  | ['-', '-'] => .separator
  | '-' :: '-' :: text => ofLong flags text
  | '-' :: c :: text => ofLetters flags (c :: text)
  | _ => .argument

end Reading

namespace Words

def ofArguments (arguments : List String) : Words :=
  ⟨[], arguments⟩

/-- The words after options that come first. -/
def after (given : List (String × String)) (w : Words) : Words :=
  { w with options := given ++ w.options }

/-- Sorts words; none if an option is not one of the command's, or lacks its value, or has one
that it does not take. -/
def sort (flags : List Flag) : List String → Option Words
  | [] => some (ofArguments [])
  | word :: rest =>
    match Reading.ofWord flags word with
    | .argument => (sort flags rest).map fun w => { w with arguments := word :: w.arguments }
    | .separator => some (ofArguments rest)
    | .options given none => (sort flags rest).map (after given)
    | .options given (some name) =>
      match rest with
      | [] => none
      | value :: rest => (sort flags rest).map (after (given ++ [(name, value)]))
    | .unknown => none

/-- All values of an option, in order. -/
def values (w : Words) (name : String) : List String :=
  (w.options.filter (·.1 == name)).map Prod.snd

/-- The value of an option; the last one counts. -/
def value? (w : Words) (name : String) : Option String :=
  (w.values name).getLast?

def has (w : Words) (name : String) : Bool :=
  !(w.values name).isEmpty

/-- Which of some options was given last. -/
def last? (w : Words) (names : List String) : Option String :=
  ((w.options.map Prod.fst).filter names.contains).getLast?

end Words

end Inventory.Command
