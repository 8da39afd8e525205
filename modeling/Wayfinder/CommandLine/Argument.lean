import Wayfinder.Settings
import Wayfinder.SocketAddress
import Wayfinder.Text.Count

/-!
# Arguments of the command line

The arguments that the program declares: the flag of each, where it may stand, the variable
of the environment and the default that stand in for it, and the values it takes.

There are two levels: the program itself and the command.  The arguments that choose
settings are global and may stand on either.  Words and variables are bytes, which need not
be text.
-/

namespace Wayfinder.CommandLine

/-- Why a command line is not carried out. -/
inductive Rejection where
  | displayHelp
  | displayVersion
  /-- Nothing at all is given. -/
  | nothingGiven
  /-- Settings are given but no command. -/
  | missingCommand
  /-- A word that stands where a command is expected is none. -/
  | unknownCommand
  | unknownArgument
  | missingArgument
  /-- An argument is given twice on one level. -/
  | conflict
  /-- A value is given to an argument that takes none. -/
  | surplusValue
  /-- A value is missing or is none of those allowed. -/
  | invalidValue
  /-- A value cannot be read. -/
  | unreadableValue
  /-- A value is no text. -/
  | notText
deriving Repr, DecidableEq

/-- The code with which the program ends. -/
def Rejection.exitCode : Rejection → Nat
  | .displayHelp => 0
  | .displayVersion => 0
  | _ => 2

/-- A word of the command line, or the value of a variable of the environment. -/
abbrev Word := List UInt8

/-- The byte of a dash. -/
def dash : UInt8 := '-'.toUInt8

/-- The byte of an equals sign. -/
def equals : UInt8 := '='.toUInt8

/-- An argument. -/
inductive Argument where
  | workspace
  | oracle
  | gopls
  | lookahead
  | excludeTests
  | json
  | column
  | addr
  | help
  | version
  /-- The first word behind some commands. -/
  | file
  /-- The second word behind one command. -/
  | line
deriving Repr, DecidableEq

/-- A checked value. -/
inductive Value where
  | path (value : Path)
  | oracle (value : Oracle)
  | count (value : Nat)
  | address (value : SocketAddress)
  | switch (value : Bool)
deriving Repr, DecidableEq

namespace Argument

/-- The arguments that choose settings, in the order in which they are checked.  They are
global. -/
def settings : List Argument :=
  [.workspace, .oracle, .gopls, .lookahead, .excludeTests]

/-- The name of a flag behind two dashes, empty for words without a flag. -/
def flag : Argument → String
  | .workspace => "workspace"
  | .oracle => "oracle"
  | .gopls => "gopls"
  | .lookahead => "lookahead"
  | .excludeTests => "exclude-tests"
  | .json => "json"
  | .column => "column"
  | .addr => "addr"
  | .help => "help"
  | .version => "version"
  | .file => ""
  | .line => ""

/-- The variable of the environment that gives an argument where no word does. -/
def variableName? : Argument → Option String
  | .workspace => some "GOLENS_WORKSPACE"
  | .oracle => some "GOLENS_ORACLE"
  | .gopls => some "GOLENS_GOPLS"
  | .lookahead => some "GOLENS_LOOKAHEAD"
  | .excludeTests => some "GOLENS_EXCLUDE_TESTS"
  | _ => none

/-- The text that gives an argument where nothing else does.  A flag that takes no value is
then not set. -/
def default? : Argument → Option String
  | .workspace => some "."
  | .oracle => some Oracle.lexical.name
  | .gopls => some "gopls"
  | .lookahead => some (toString defaultLookahead)
  | .excludeTests => some "false"
  | .json => some "false"
  | .addr => some "127.0.0.1:7878"
  | _ => none

/-- The word that the default gives to an argument. -/
def defaultWord? (argument : Argument) : Option Word :=
  argument.default?.map Text.Utf8.bytes

/-- Whether an argument takes a value. -/
def takesValue : Argument → Bool
  | .excludeTests => false
  | .json => false
  | .help => false
  | .version => false
  | _ => true

/-- The path that a word spells. -/
def checkPath (word : Word) : Except Rejection Value :=
  if word.isEmpty then .error .invalidValue else .ok (.path word)

/-- Whether a word says that a flag is set. -/
def checkSwitch (word : Word) : Except Rejection Value :=
  if word == Text.Utf8.bytes "true" then .ok (.switch true)
  else if word == Text.Utf8.bytes "false" then .ok (.switch false)
  else .error .invalidValue

/-- The value that the text of a word denotes, and what is wrong where it denotes none. -/
def checkText (read? : String → Option Value) (wrong : Rejection) (word : Word) :
    Except Rejection Value :=
  match Text.Utf8.decode? word with
  | some text =>
      match read? text with
      | some value => .ok value
      | none => .error wrong
  | none => .error .notText

/-- The count that a word denotes. -/
def checkCount : Word → Except Rejection Value :=
  checkText (fun text => (Text.readCount? text.toList).map .count) .unreadableValue

/-- The value that a word gives to an argument. -/
def check : Argument → Word → Except Rejection Value
  | .workspace => checkPath
  | .gopls => checkPath
  | .file => checkPath
  | .oracle => checkText (fun text => (Oracle.ofName? text).map .oracle) .invalidValue
  | .lookahead => checkCount
  | .column => checkCount
  | .line => checkCount
  | .addr => checkText (fun text => (SocketAddress.parse? text).map .address) .unreadableValue
  | .excludeTests => checkSwitch
  | .json => checkSwitch
  | .help => checkSwitch
  | .version => checkSwitch

end Argument

/-- A command. -/
inductive Verb where
  | hints
  | scan
  | navigate
  | serve
  | mcp
deriving Repr, DecidableEq

namespace Verb

/-- The word for a command. -/
def name : Verb → String
  | .hints => "hints"
  | .scan => "scan"
  | .navigate => "navigate"
  | .serve => "serve"
  | .mcp => "mcp"

/-- All commands. -/
def all : List Verb :=
  [.hints, .scan, .navigate, .serve, .mcp]

/-- The command that a word denotes. -/
def ofWord? (word : Word) : Option Verb :=
  all.find? fun verb => Text.Utf8.bytes verb.name == word

end Verb

/-- A level of the command line. -/
inductive Level where
  /-- The program itself. -/
  | top
  /-- Behind a command. -/
  | command (verb : Verb)
deriving Repr, DecidableEq

namespace Level

/-- The flags that may stand on a level. -/
def flags : Level → List Argument
  | .top => Argument.settings ++ [.help, .version]
  | .command .hints => .json :: Argument.settings ++ [.help]
  | .command .scan => .json :: Argument.settings ++ [.help]
  | .command .navigate => .column :: .json :: Argument.settings ++ [.help]
  | .command .serve => .addr :: Argument.settings ++ [.help]
  | .command .mcp => Argument.settings ++ [.help]

/-- The words without a flag that a level takes, in order.  All of them are required. -/
def words : Level → List Argument
  | .top => []
  | .command .hints => [.file]
  | .command .scan => [.file]
  | .command .navigate => [.file, .line]
  | .command .serve => []
  | .command .mcp => []

/-- The argument with the given flag. -/
def flag? (level : Level) (name : Word) : Option Argument :=
  level.flags.find? fun argument => Text.Utf8.bytes argument.flag == name

/-- The argument with the given letter behind one dash. -/
def letter? (level : Level) (letter : UInt8) : Option Argument :=
  if letter == 'h'.toUInt8 then some .help
  else if letter == 'V'.toUInt8 && level == .top then some .version
  else none

end Level

/-- The variables of the environment, with their values. -/
structure Environment where
  entries : List (String × Word)
deriving Repr, DecidableEq

/-- The word that the environment gives to an argument. -/
def Environment.word? (environment : Environment) (argument : Argument) : Option Word :=
  argument.variableName?.bind (environment.entries.lookup ·)

end Wayfinder.CommandLine
