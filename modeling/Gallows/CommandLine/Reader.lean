import Gallows.CommandLine.Grammar

/-!
Reading command lines. Words are taken one by one; a value settles, and is checked, when the next
option or argument begins. Every command on the way reads its own words, environment variables and
defaults. A global option that several of them have is then taken from the strongest source, and
of equally strong ones from the lowest command.
-/
namespace Gallows.CommandLine

/-- Where a value comes from, the weakest first. -/
inductive Origin
  | default
  | environment
  | words
deriving DecidableEq, Repr

/-- The strength of a source. -/
def Origin.rank : Origin → Nat
  | default => 0
  | environment => 1
  | words => 2

/-- A value and its source. -/
structure Setting where
  origin : Origin
  value : Value
deriving DecidableEq, Repr

/-- What is settled, by names. -/
abbrev Settings := List (String × Setting)

/-- What a value that has not settled is for. -/
structure Target where
  name : String
  form : Form
deriving DecidableEq

/-- How far the words of one command have been read. -/
structure State where
  settings : Settings := []
  /-- What waits for a value, or has one that has not settled. -/
  pending : Option (Target × Option String) := none
  /-- Whether only arguments follow. -/
  plain : Bool := false
  /-- How many arguments have been given. -/
  given : Nat := 0

namespace State

/-- Whether the next word is the value of an option. -/
def waits (s : State) : Bool :=
  match s.pending with
  | some (_, none) => true
  | _ => false

/-- Notes a value from the words, which may come but once. -/
def settle (s : State) (name : String) (value : Except Usage Value) : Except Usage State :=
  if (s.settings.lookup name).isSome then .error .repeated
  else value.map fun value => { s with settings := s.settings ++ [(name, ⟨.words, value⟩)] }

/-- Settles the value that is pending. -/
def flush (s : State) : Except Usage State :=
  match s.pending with
  | none => .ok s
  | some (_, none) => .error .invalidValue
  | some (target, some text) =>
    { s with pending := none }.settle target.name (target.form.read text)

/-- Takes an option that has no value of its own to wait for. -/
def take (s : State) (flag : Flag) (value? : Option String) : Except Usage State := do
  let s ← s.flush
  match flag.effect, value? with
  | .help, _ => .error .help
  | .version, _ => .error .version
  | .switch, _ => s.settle flag.name (.ok (.flag true))
  | .value form, some text => s.settle flag.name (form.read text)
  | .value form, none => .ok { s with pending := some (⟨flag.name, form⟩, none) }

/-- Takes a word that starts with two dashes. -/
def takeLong (s : State) (v : Verb) (word : List Char) : Except Usage State :=
  let name := word.takeWhile (· ≠ '=')
  let value? := (word.dropWhile (· ≠ '=')).tail?.map String.ofList
  match v.long? (String.ofList name) with
  | none => .error .unknownArgument
  | some flag =>
    match flag.effect, value? with
    | .value _, _ => s.take flag value?
    | _, none => s.take flag none
    | _, some _ => .error .unexpectedValue

/-- Takes the letters behind one dash. What follows the letter of an option with a value is that
value; an equals sign may stand between them. -/
def takeShort (v : Verb) : (letters : List Char) → State → Except Usage State
  | [], s => .ok s
  | c :: rest, s =>
    match v.short? c with
    | none => .error .unknownArgument
    | some flag =>
      match flag.effect with
      | .value _ =>
        match rest with
        | [] => s.take flag none
        | '=' :: value => s.take flag (some (String.ofList value))
        | value => s.take flag (some (String.ofList value))
      | _ => s.take flag none >>= takeShort v rest

/-- What is wrong with a word that no argument is left for. -/
def surplus (s : State) (v : Verb) (word : String) : Usage :=
  if s.plain && ((v.verb? word).isSome || (!v.verbs.isEmpty && word = "help")) then .unknownArgument
  else if !v.verbs.isEmpty && v.arguments.isEmpty then .unknownCommand
  else .unknownArgument

/-- Takes a word as the next argument. -/
def takeArgument (s : State) (v : Verb) (word : String) : Except Usage State :=
  match v.arguments[s.given]? with
  | none => .error (s.surplus v word)
  | some a => do
    let s ← s.flush
    return { s with pending := some (⟨a.name, a.form⟩, some word), given := s.given + 1 }

/-- Takes a word that is not the name of a command. -/
def takeWord (s : State) (v : Verb) (word : String) : Except Usage State :=
  if s.plain then s.takeArgument v word
  else
    match word.toList with
    | ['-', '-'] => .ok { s with plain := true }
    | '-' :: '-' :: rest => s.takeLong v rest
    | '-' :: c :: rest => takeShort v (c :: rest) s
    | _ =>
      match s.pending with
      | some (target, none) => .ok { s with pending := some (target, some word) }
      | _ => s.takeArgument v word

/-- Fills in what the environment has for options that the words do not give. -/
def fillEnvironment (host : Host) (v : Verb) (s : State) : Except Usage State :=
  v.flags.foldlM (fun s flag =>
    match flag.effect, flag.stand?.bind host.env with
    | .value form, some text =>
      if (s.settings.lookup flag.name).isSome then .ok s
      else (form.read text).map fun value =>
        { s with settings := s.settings ++ [(flag.name, ⟨.environment, value⟩)] }
    | _, _ => .ok s) s

/-- Fills in the defaults. -/
def fillDefaults (v : Verb) (s : State) : State :=
  v.flags.foldl (fun s flag =>
    match flag.default? with
    | none => s
    | some value =>
      if (s.settings.lookup flag.name).isSome then s
      else { s with settings := s.settings ++ [(flag.name, ⟨.default, value⟩)] }) s

/-- Whether anything was set but by default. -/
def isBlank (s : State) : Bool := s.settings.all (·.2.origin = .default)

/-- Ends the words of a command; `below` tells whether a command below it follows. -/
def finish (host : Host) (v : Verb) (below : Bool) (s : State) : Except Usage Settings := do
  let s ← s.flush
  let s ← s.fillEnvironment host v
  let s := s.fillDefaults v
  if v.needsVerb && !below then throw (if s.isBlank then .helpInstead else .missingCommand)
  if v.arguments.any fun a => (s.settings.lookup a.name).isNone then throw .missingArgument
  return s.settings

end State

/-- What one command has read. -/
structure Level where
  verb : String
  settings : Settings

/-- Follows the names behind the word "help". -/
def followHelp : Verb → List String → Usage
  | _, [] => .help
  | v, word :: words =>
    match v.verb? word with
    | some below => followHelp below words
    | none => if !v.verbs.isEmpty && word = "help" && words.isEmpty then .help else .unknownCommand

/-- Reads the words of a command and of those below it. -/
def readLevels (host : Host) : Verb → State → List String → Except Usage (List Level)
  | v, s, [] => do return [⟨v.name, ← s.finish host v false⟩]
  | v, s, word :: words =>
    if s.plain || s.waits then do readLevels host v (← s.takeWord v word) words
    else
      match v.verb? word with
      | some below => do
        let levels ← readLevels host (below.inherit v.flags) {} words
        return ⟨v.name, ← s.finish host v true⟩ :: levels
      | none =>
        if !v.verbs.isEmpty && word = "help" then .error (followHelp v words)
        else do readLevels host v (← s.takeWord v word) words

/-- What a command line says. -/
structure Matches where
  /-- The names of the commands below the program, the highest first. -/
  verbs : List String
  /-- The global options. -/
  globals : Settings
  /-- What the lowest command has read. -/
  own : Settings

/-- Of two settings, the one above and the one below it, the one that counts. -/
def stronger (above below : Setting) : Setting :=
  if below.origin.rank < above.origin.rank then above else below

/-- The setting of a global option that counts. -/
def globalSetting? (levels : List Level) (name : String) : Option Setting :=
  levels.foldl (fun above level =>
    match above, level.settings.lookup name with
    | none, below => below
    | some above, none => some above
    | some above, some below => some (stronger above below)) none

/-- What the words after the program's name say. -/
def read (host : Host) (program : Verb) (words : List String) : Except Usage Matches := do
  let levels ← readLevels host program {} words
  let names := (program.flags.filter (·.isGlobal)).map (·.name)
  return {
    verbs := levels.tail.map (·.verb)
    globals := names.filterMap fun name => (globalSetting? levels name).map (name, ·)
    own := (levels.getLast?.map (·.settings)).getD [] }

end Gallows.CommandLine
