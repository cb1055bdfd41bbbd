import Gallows.Host

/-!
What a command line may say: the options and arguments of a command, and the commands below it.
-/
namespace Gallows.CommandLine

/-- What is wrong with a command line, or what it asks for instead of a command. -/
inductive Usage
  | missingArgument
  | missingCommand
  | unknownArgument
  | unknownCommand
  /-- A value is absent or not among the possible ones. -/
  | invalidValue
  /-- A value is of the wrong form. -/
  | malformedValue
  | unexpectedValue
  /-- An option is given twice. -/
  | repeated
  /-- The help is shown because a command below this one is needed. -/
  | helpInstead
  | help
  | version
deriving DecidableEq, Repr

/-- The exit code of the program. -/
def Usage.exit : Usage → Nat
  | help | version => 0
  | _ => 2

/-- What a value has to be. -/
inductive Form
  | text
  | path
  /-- A whole number below a bound. -/
  | number (bound : Nat)
  | character
  | choice (among : List String)
deriving DecidableEq

/-- A value. -/
inductive Value
  | flag (value : Bool)
  | text (value : String)
  | number (value : Nat)
  | character (value : Char)
deriving DecidableEq, Repr

/-- The whole number that a text spells, with a plus in front or not. -/
def readNat? (text : String) : Option Nat :=
  let digits := match text.toList with
    | '+' :: digits => digits
    | digits => digits
  if digits.isEmpty || !digits.all Char.isDigit then none
  else some (digits.foldl (fun n c => 10 * n + (c.toNat - '0'.toNat)) 0)

/-- Whether a text spells zero with a minus in front. -/
def isNegativeZero (text : String) : Bool :=
  match text.toList with
  | '-' :: digit :: digits => (digit :: digits).all (· = '0')
  | _ => false

/-- The value that a text of this form stands for. -/
def Form.read (form : Form) (text : String) : Except Usage Value :=
  match form with
  | .text => .ok (.text text)
  | .path => if text.isEmpty then .error .invalidValue else .ok (.text text)
  | .number bound =>
    match readNat? text with
    | some n => if n < bound then .ok (.number n) else .error .malformedValue
    | none =>
      -- Numbers of less than 64 bits are read with a sign.
      if bound < 0x10000000000000000 && isNegativeZero text then .ok (.number 0)
      else .error .malformedValue
  | .character =>
    match text.toList with
    | [c] => .ok (.character c)
    | _ => .error .malformedValue
  | .choice among => if text ∈ among then .ok (.text text) else .error .invalidValue

/-- What an option does. -/
inductive Effect
  /-- Turns a switch on. -/
  | switch
  /-- Takes a value. -/
  | value (form : Form)
  | help
  | version
deriving DecidableEq

/-- An option. -/
structure Flag where
  name : String
  short? : Option Char := none
  long? : Option String := none
  effect : Effect
  /-- The environment variable that stands in for the option. -/
  stand? : Option String := none
  default? : Option Value := none
  /-- Whether the commands below take the option too. -/
  isGlobal : Bool := false
  about : String := ""
deriving DecidableEq

/-- An argument, which every use of its command has to give. -/
structure Argument where
  name : String
  form : Form
deriving DecidableEq

/-- A command and the commands below it. -/
structure Verb where
  name : String
  about : String := ""
  flags : List Flag := []
  arguments : List Argument := []
  /-- Whether one of the commands below has to follow. -/
  needsVerb : Bool := false
  verbs : List Verb := []

namespace Verb

/-- The option that asks for the help. -/
def helpFlag : Flag where
  name := "help"
  short? := some 'h'
  long? := some "help"
  effect := .help
  about := "Print help"

/-- The command below this one that has a name. -/
def verb? (v : Verb) (name : String) : Option Verb := v.verbs.find? (·.name = name)

/-- Whether an option or an argument of this command has a name. -/
def defines (v : Verb) (name : String) : Bool :=
  v.flags.any (·.name = name) || v.arguments.any (·.name = name)

/-- A command together with the global options of the one above it. A name of its own hides an
option. -/
def inherit (v : Verb) (above : List Flag) : Verb :=
  { v with flags := v.flags ++ above.filter fun f => f.isGlobal && !v.defines f.name }

/-- The option with a short name. -/
def short? (v : Verb) (c : Char) : Option Flag :=
  (helpFlag :: v.flags).find? (·.short? = some c)

/-- The option with a long name. -/
def long? (v : Verb) (name : String) : Option Flag :=
  (helpFlag :: v.flags).find? (·.long? = some name)

/-- Lines in two columns. -/
def columns (title : String) (rows : List (String × String)) : String :=
  if rows.isEmpty then ""
  else
    let width := (rows.map (·.1.length)).foldl max 0
    "\n" ++ title ++ ":\n" ++ String.join (rows.map fun (left, right) =>
      "  " ++ left ++ "".pushn ' ' (width - left.length) ++ "  " ++ right ++ "\n")

/-- How an option is written. -/
def flagUsage (f : Flag) : String :=
  ((f.short?.map fun c => "-" ++ String.singleton c ++ ", ").getD "    ") ++
    ((f.long?.map ("--" ++ ·)).getD "") ++
    match f.effect with
    | .value _ => " <" ++ f.name.map Char.toUpper ++ ">"
    | _ => ""

/-- The help of a command. -/
def help (v : Verb) (program : String) : String :=
  v.about ++ "\n\nUsage: " ++ program ++ " [OPTIONS]" ++
    String.join (v.arguments.map fun a => " <" ++ a.name.map Char.toUpper ++ ">") ++
    (if v.verbs.isEmpty then "" else if v.needsVerb then " <COMMAND>" else " [COMMAND]") ++ "\n" ++
    columns "Commands" (v.verbs.map fun w => (w.name, w.about)) ++
    columns "Options" ((v.flags ++ [helpFlag]).map fun f => (flagUsage f, f.about))

end Verb
end Gallows.CommandLine
