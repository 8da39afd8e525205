import Wayfinder.CommandLine.Argument

/-!
# What a command line asks for

The program does not take its command line apart itself.  It hands its arguments to a
`Reader`, and picks the settings and the command out of the `Invocation` that it is given
back.  Every value there says where it comes from: a word, a variable of the environment,
or the default.

* `Choice` is a value with its source, and `Choice.stronger` the one of two that counts.
* `Invocation` is a command line that was taken apart, level by level.
* `Reader.request` is what a command line asks for.
-/

namespace Wayfinder.CommandLine

/-! ## Choices -/

/-- Where a value comes from. -/
inductive Source where
  | default
  | environment
  | commandLine
deriving Repr, DecidableEq

/-- The rank of a source: a value counts before those of lower rank. -/
def Source.rank : Source → Nat
  | .default => 0
  | .environment => 1
  | .commandLine => 2

/-- A value and where it comes from. -/
structure Choice where
  source : Source
  value : Value
deriving Repr, DecidableEq

/-- The choice that counts of one above and one below it, which is the one below unless its
source has the lower rank. -/
def Choice.stronger (above below : Choice) : Choice :=
  if below.source.rank < above.source.rank then above else below

/-- The choices for arguments. -/
abbrev Choices := List (Argument × Choice)

/-- A command line that was taken apart. -/
structure Invocation where
  /-- What is chosen before the command. -/
  top : Choices
  verb : Verb
  /-- What is chosen behind it. -/
  below : Choices
deriving Repr, DecidableEq

/-! ## Settings and commands -/

namespace Value

/-- The path that a value is. -/
def path? : Value → Option Path
  | .path value => some value
  | _ => none

/-- The way of looking up that a value is. -/
def oracle? : Value → Option Oracle
  | .oracle value => some value
  | _ => none

/-- The count that a value is. -/
def count? : Value → Option Nat
  | .count value => some value
  | _ => none

/-- The address that a value is. -/
def address? : Value → Option SocketAddress
  | .address value => some value
  | _ => none

/-- Whether a flag is set, if a value says so. -/
def switch? : Value → Option Bool
  | .switch value => some value
  | _ => none

end Value

namespace Choices

variable {α : Type}

/-- The value chosen for an argument, if there is one of the right kind. -/
def get? (choices : Choices) (argument : Argument) (kind? : Value → Option α) : Option α :=
  (choices.lookup argument).bind fun choice => kind? choice.value

/-- The value chosen for an argument that must have one. -/
def get (choices : Choices) (argument : Argument) (kind? : Value → Option α) :
    Except Rejection α :=
  match choices.get? argument kind? with
  | some value => .ok value
  | none => .error .missingArgument

/-- The settings that are chosen. -/
def settings (choices : Choices) : Except Rejection Settings := do
  let workspace ← choices.get .workspace Value.path?
  let oracle ← choices.get .oracle Value.oracle?
  let gopls ← choices.get .gopls Value.path?
  let lookahead ← choices.get .lookahead Value.count?
  let excludeTests ← choices.get .excludeTests Value.switch?
  return {
    workspace := workspace
    oracle := oracle
    gopls := gopls
    lookahead := lookahead
    includeTests := !excludeTests }

end Choices

/-- What the program is asked to do. -/
inductive Command where
  | hints (file : Path) (json : Bool)
  | scan (file : Path) (json : Bool)
  /-- The line and the column count from one. -/
  | navigate (file : Path) (line : Nat) (column : Option Nat) (json : Bool)
  | serve (address : SocketAddress)
  | mcp
deriving Repr, DecidableEq

/-- The command that is chosen. -/
def Choices.command (choices : Choices) : Verb → Except Rejection Command
  | .hints => do
      let file ← choices.get .file Value.path?
      let json ← choices.get .json Value.switch?
      return .hints file json
  | .scan => do
      let file ← choices.get .file Value.path?
      let json ← choices.get .json Value.switch?
      return .scan file json
  | .navigate => do
      let file ← choices.get .file Value.path?
      let line ← choices.get .line Value.count?
      let json ← choices.get .json Value.switch?
      return .navigate file line (choices.get? .column Value.count?) json
  | .serve => do
      let address ← choices.get .addr Value.address?
      return .serve address
  | .mcp => .ok .mcp

/-- What a command line asks for. -/
structure Request where
  settings : Settings
  command : Command
deriving Repr, DecidableEq

/-- What a command line that was taken apart asks for.  Settings are global, so they are
picked out before the command. -/
def Invocation.request (invocation : Invocation) : Except Rejection Request := do
  let settings ← invocation.top.settings
  let command ← invocation.below.command invocation.verb
  return { settings := settings, command := command }

/-! ## Readers -/

/-- A way to take command lines apart by the arguments that the program declares. -/
structure Reader where
  read : Environment → List Word → Except Rejection Invocation

/-- What a command line asks for. -/
def Reader.request (reader : Reader) (environment : Environment) (words : List Word) :
    Except Rejection Request := do
  let invocation ← reader.read environment words
  invocation.request

end Wayfinder.CommandLine
