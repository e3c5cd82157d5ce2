import SpinFleet.Dict
/-!
# Reading a command line

The words of a command line are read from left to right: options and their values, and perhaps the
name of a command, to which all words behind it belong.  An option that needs a value takes the next
word, unless that looks like an option itself; a value is looked at when the next option comes or
when the words are at their end.  Then the variables of the environment speak for the options that
were not given.
-/
namespace SpinFleet.CommandLine

inductive ValueFault
  | empty
  /-- It is none of a few words. -/
  | notAllowed
  | unreadable (detail : String)
deriving DecidableEq, Repr

inductive UsageError
  | unknownArgument (word : String)
  | unknownCommand (word : String)
  /-- An option that takes no value has one. -/
  | unexpectedValue (value option : String)
  | repeated (option : String)
  | missingValue (option : String)
  | badValue (value option : String) (detail : Option String)
deriving DecidableEq, Repr

def UsageError.message : UsageError → String
  | .unknownArgument w => "unexpected argument '" ++ w ++ "' found"
  | .unknownCommand w => "unrecognized subcommand '" ++ w ++ "'"
  | .unexpectedValue v o =>
    "unexpected value '" ++ v ++ "' for '" ++ o ++ "' found; no more were expected"
  | .repeated o => "the argument '" ++ o ++ "' cannot be used multiple times"
  | .missingValue o => "a value is required for '" ++ o ++ "' but none was supplied"
  | .badValue v o none => "invalid value '" ++ v ++ "' for '" ++ o ++ "'"
  | .badValue v o (some detail) => "invalid value '" ++ v ++ "' for '" ++ o ++ "': " ++ detail

structure Switch (σ : Type) where
  name : String
  /-- What its value is called, if it takes one. -/
  valueName : Option String
  /-- The variable of the environment that speaks for it. -/
  envName : Option String
  read : String → Except ValueFault (σ → σ)

namespace Switch

variable {σ : Type}

def display (o : Switch σ) : String :=
  "--" ++ o.name ++ (match o.valueName with
    | some v => " <" ++ v ++ ">"
    | none => "")

def set (o : Switch σ) (value : String) : Except UsageError (σ → σ) :=
  match o.read value with
  | .ok f => .ok f
  | .error .empty => .error (.missingValue o.display)
  | .error .notAllowed =>
    .error (if value.isEmpty then .missingValue o.display else .badValue value o.display none)
  | .error (.unreadable detail) => .error (.badValue value o.display (some detail))

end Switch

structure Command (σ : Type) where
  options : List (Switch σ)
  /-- Whether it tells its version. -/
  hasVersion : Bool
  commands : List String

inductive Halt
  | usage (e : UsageError)
  | help
  | version
deriving DecidableEq, Repr

structure Given (σ : Type) where
  option : Switch σ
  value : Option String

structure Reading (σ : Type) where
  settings : σ
  /-- The names of the options that were given. -/
  seen : List String
  /-- The last option, whose value has not been looked at. -/
  pending : Option (Given σ)
  /-- Whether two dashes have ended the options. -/
  closed : Bool

namespace Reading

variable {σ : Type}

def take (r : Reading σ) (o : Switch σ) (value : String) : Except UsageError (Reading σ) :=
  if r.seen.contains o.name then .error (.repeated o.display)
  else do
    let f ← o.set value
    return { r with settings := f r.settings, seen := o.name :: r.seen }

def settle (r : Reading σ) : Except UsageError (Reading σ) :=
  match r.pending with
  | none => .ok r
  | some ⟨o, none⟩ => .error (.missingValue o.display)
  | some ⟨o, some v⟩ => { r with pending := none }.take o v

def isWaiting (r : Reading σ) : Bool := r.pending.any fun g => g.value.isNone

end Reading

namespace Command

variable {σ : Type}

def usage {α : Type} : Except UsageError α → Except Halt α
  | .ok a => .ok a
  | .error e => .error (.usage e)

/-- A word that is no option stands where none is expected. -/
def stray (c : Command σ) (r : Reading σ) (word : String) : UsageError :=
  if c.commands.isEmpty || (r.closed && c.commands.contains word) then .unknownArgument word
  else .unknownCommand word

def readNamed (c : Command σ) (r : Reading σ) (name : String) (value : Option String) :
    Except Halt (Reading σ) :=
  let asked (h : Halt) : Except Halt (Reading σ) := do
    match value with
    | some v => throw (.usage (.unexpectedValue v ("--" ++ name)))
    | none =>
      let _ ← usage r.settle
      throw h
  match c.options.find? fun o => o.name == name with
  | none =>
    if name = "help" then asked .help
    else if name = "version" ∧ c.hasVersion then asked .version
    else .error (.usage (.unknownArgument ("--" ++ name)))
  | some o =>
    match o.valueName, value with
    | none, some v => .error (.usage (.unexpectedValue v o.display))
    | none, none => usage (r.settle >>= (·.take o "true"))
    | some _, some v => usage (r.settle >>= (·.take o v))
    | some _, none => do
      let r ← usage r.settle
      return { r with pending := some ⟨o, none⟩ }

/-- Reads an option that was given by a letter.  Only help and version have one, so the first
letter decides. -/
def readLetter (c : Command σ) (r : Reading σ) (letter : Char) : Except Halt (Reading σ) :=
  if letter = 'h' then do
    let _ ← usage r.settle
    throw .help
  else if letter = 'V' ∧ c.hasVersion then do
    let _ ← usage r.settle
    throw .version
  else .error (.usage (.unknownArgument ("-" ++ String.singleton letter)))

def readWord (c : Command σ) (r : Reading σ) (word : String) : Except Halt (Reading σ) :=
  let plain : Except Halt (Reading σ) :=
    match r.pending with
    | some ⟨o, none⟩ => .ok { r with pending := some ⟨o, some word⟩ }
    | _ => .error (.usage (c.stray r word))
  if r.closed then .error (.usage (c.stray r word))
  else match word.toList with
    | ['-', '-'] => .ok { r with closed := true }
    | '-' :: '-' :: rest =>
      let name := rest.takeWhile (· != '=')
      let value := match rest.drop name.length with
        | _ :: v => some (String.ofList v)
        | [] => none
      c.readNamed r (String.ofList name) value
    | '-' :: letter :: _ => c.readLetter r letter
    | _ => plain

/-- Reads words until their end or until the name of a command, which is given together with the
words behind it. -/
def readWords (c : Command σ) : Reading σ → List String →
    Except Halt (Reading σ × Option (String × List String))
  | r, [] => .ok (r, none)
  | r, word :: words =>
    if c.commands.contains word && !r.closed && !r.isWaiting then .ok (r, some (word, words))
    else do
      let r ← c.readWord r word
      readWords c r words

/-- Lets the environment speak for the options that were not given. -/
def readVariables (environment : String → Option String) (r : Reading σ) :
    List (Switch σ) → Except UsageError (Reading σ)
  | [] => .ok r
  | o :: os =>
    match if r.seen.contains o.name then none else o.envName >>= environment with
    | none => readVariables environment r os
    | some v => do
      let r ← r.take o v
      readVariables environment r os

def read (c : Command σ) (start : σ) (words : List String) :
    Except Halt (Reading σ × Option (String × List String)) :=
  c.readWords ⟨start, [], none, false⟩ words

def finish (c : Command σ) (environment : String → Option String) (r : Reading σ) :
    Except Halt σ := do
  let r ← usage r.settle
  let r ← usage (readVariables environment r c.options)
  return r.settings

end Command

end SpinFleet.CommandLine
