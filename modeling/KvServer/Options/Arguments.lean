import KvServer.Options.Basic

/-!
# Reading the command line

Arguments are read from left to right. An option takes its value after `=`, behind its letter, or
from the next argument; that argument must not look like an option itself. The value of an option is
examined when the next option is met or the arguments end, so of two faults the one of the earlier
option is reported, unless the later one is an argument that means nothing at all.

* `Argument` sorts an argument by its shape.
* `Arguments` is the state between two arguments, `Arguments.read` the step over one.
* `Options.ofArguments` reads a whole command line.
-/

namespace KvServer

/-- Why a command line yields no options: a refused value, an option without its value, an argument
that means nothing, an option given twice, a switch given a value, or a request for help or for the
version. -/
inductive ArgumentError where
  | refusedValue (fault : ValueFault)
  | missingValue
  | unknownArgument
  | givenTwice
  | unneededValue
  | helpRequested
  | versionRequested
  deriving DecidableEq, Repr

def ArgumentError.message? : ArgumentError → Option String
  | .refusedValue fault => some fault.message
  | _ => none

/-- An argument that is met where an option may stand. -/
inductive Argument where
  /-- Two hyphens: no option follows. -/
  | separator
  /-- A long option, with the text behind `=` if there is one. -/
  | long (name : String) (value? : Option String)
  /-- A hyphen and a letter, with the text behind them. -/
  | short (letter : Char) (rest : List Char)
  /-- Anything else. -/
  | plain (text : String)

def Argument.ofText (text : String) : Argument :=
  match text.toList with
  | ['-', '-'] => .separator
  | '-' :: '-' :: rest =>
    let (name, tail) := rest.span (· != '=')
    .long (String.ofList name) (tail.tail?.map String.ofList)
  | '-' :: letter :: rest => .short letter rest
  | _ => .plain text

/-- The state between two arguments: the options so far, which of them were given, and the option
whose value is not examined yet, or not even there. -/
structure Arguments where
  options : Options
  given : List OptionName
  pending? : Option (OptionName × Option String)

namespace Arguments

def start : Arguments :=
  ⟨.standard, [], none⟩

def give (state : Arguments) (name : OptionName) (text : String) :
    Except ArgumentError Arguments :=
  if name ∈ state.given then .error .givenTwice
  else match state.options.assign name text with
    | .error fault => .error (.refusedValue fault)
    | .ok options => .ok { state with options, given := name :: state.given }

def settle (state : Arguments) : Except ArgumentError Arguments :=
  match state.pending? with
  | none => .ok state
  | some (_, none) => .error .missingValue
  | some (name, some text) => { state with pending? := none }.give name text

/-- Begins an option, with the value attached to it or none yet. -/
def begin (state : Arguments) (name : OptionName) (attached? : Option String) :
    Except ArgumentError Arguments := do
  let state ← state.settle
  match attached? with
  | some text => state.give name text
  | none => .ok { state with pending? := some (name, none) }

/-- Meets a request for help or for the version, which ends the reading. -/
def request (state : Arguments) (error : ArgumentError) : Except ArgumentError Arguments := do
  let _ ← state.settle
  .error error

def readLong (state : Arguments) (name : String) (value? : Option String) :
    Except ArgumentError Arguments :=
  match OptionName.ofText? name with
  | some name => state.begin name value?
  | none =>
    if name = "help" ∨ name = "version" then
      if value?.isSome then .error .unneededValue
      else state.request (if name = "help" then .helpRequested else .versionRequested)
    else .error .unknownArgument

/-- Reads a one-letter option. A value follows the letter at once, or behind `=`. -/
def readShort (state : Arguments) (letter : Char) (rest : List Char) :
    Except ArgumentError Arguments :=
  match OptionName.ofLetter? letter with
  | some name =>
    match rest with
    | [] => state.begin name none
    | '=' :: value => state.begin name (some (String.ofList value))
    | value => state.begin name (some (String.ofList value))
  | none =>
    if letter = 'h' then state.request .helpRequested
    else if letter = 'V' then state.request .versionRequested
    else .error .unknownArgument

/-- Reads an argument that is no option: the value of the pending option, or nothing known. -/
def readPlain (state : Arguments) (text : String) : Except ArgumentError Arguments :=
  match state.pending? with
  | some (name, none) => .ok { state with pending? := some (name, some text) }
  | _ => .error .unknownArgument

def read (state : Arguments) : List String → Except ArgumentError Arguments
  | [] => state.settle
  | text :: rest =>
    match Argument.ofText text with
    | .separator => if rest = [] then state.settle else .error .unknownArgument
    | .long name value? => do (← state.readLong name value?).read rest
    | .short letter tail => do (← state.readShort letter tail).read rest
    | .plain text => do (← state.readPlain text).read rest

end Arguments

def Options.ofArguments (arguments : List String) : Except ArgumentError Options :=
  (Arguments.start.read arguments).map Arguments.options

end KvServer
