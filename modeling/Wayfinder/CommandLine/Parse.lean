import Wayfinder.CommandLine.Request

/-!
# Reading the command line

The words of a command line are read one by one.  An argument that takes a value is kept
pending until the next argument is met or its level ends, and only then is its value
checked.  So a word that is unknown is reported before a value that is wrong.

A level ends with the checks of what is pending, of the environment, and of what is
missing.  The level of the command ends first.  When both levels have ended, the stronger
choice for each global argument is made that of both.

* `Token` is the shape of a word.
* `Progress` is the state within a level, `readLevel` reads its words.
* `endLevel` adds what the environment and the defaults choose.
* `parse` reads a whole command line, and `Reader.wordByWord` is the reader that does so.
-/

namespace Wayfinder.CommandLine

/-! ## Words -/

/-- The shape of a word. -/
inductive Token where
  /-- Two dashes, behind which every word stands for itself. -/
  | terminator
  /-- A name behind two dashes, possibly with a value behind an equals sign. -/
  | flag (name : Word) (value : Option Word)
  /-- Letters behind one dash. -/
  | letters (first : UInt8) (more : List UInt8)
  /-- A word that stands for itself. -/
  | plain
deriving Repr, DecidableEq

/-- The flag that stands behind two dashes. -/
def Token.flagOf (rest : Word) : Token :=
  let name := rest.takeWhile (· != equals)
  match rest.dropWhile (· != equals) with
  | _ :: value => .flag name (some value)
  | [] => .flag name none

/-- The shape of a word. -/
def Token.ofWord : Word → Token
  | first :: second :: rest =>
      if first != dash then .plain
      else if second != dash then .letters second rest
      else if rest.isEmpty then .terminator
      else Token.flagOf rest
  | _ => .plain

/-! ## One level -/

/-- The state within a level. -/
structure Progress where
  /-- The arguments given, with their checked values. -/
  given : List (Argument × Value)
  /-- The argument met last, with its value if it has been read. -/
  pending : Option (Argument × Option Word)
  /-- The words without a flag that can still be taken. -/
  expected : List Argument
  /-- Two dashes have ended the flags. -/
  ended : Bool
deriving Repr, DecidableEq

namespace Progress

/-- The state at the start of a level. -/
def start (level : Level) : Progress :=
  { given := [], pending := none, expected := level.words, ended := false }

/-- Whether the next plain word is the value of the argument met last. -/
def awaitsValue (progress : Progress) : Bool :=
  match progress.pending with
  | some (_, none) => !progress.ended
  | _ => false

/-- Takes an argument with its value.  The value must be there, the argument must be new on
its level, and the value must be one that it takes. -/
def accept (progress : Progress) (argument : Argument) (value : Option Word) :
    Except Rejection Progress := do
  let word ←
    match value with
    | some word => pure word
    | none =>
        if argument.takesValue then throw .invalidValue else pure (Text.Utf8.bytes "true")
  if (progress.given.lookup argument).isSome then throw .conflict
  else
    let checked ← argument.check word
    return { progress with given := progress.given ++ [(argument, checked)] }

/-- Checks what is pending. -/
def settle (progress : Progress) : Except Rejection Progress :=
  match progress.pending with
  | some (argument, value) => ({ progress with pending := none }).accept argument value
  | none => .ok progress

/-- Meets a flag without a value. -/
def meetSwitch (progress : Progress) (argument : Argument) : Except Rejection Progress := do
  let progress ← progress.settle
  match argument with
  | .help => throw .displayHelp
  | .version => throw .displayVersion
  | _ => progress.accept argument none

/-- Meets a flag. -/
def meetFlag (progress : Progress) (argument : Argument) (value : Option Word) :
    Except Rejection Progress :=
  if argument.takesValue then do
    let progress ← progress.settle
    match value with
    | some _ => progress.accept argument value
    | none => return { progress with pending := some (argument, none) }
  else
    match value with
    | some _ => .error .surplusValue
    | none => progress.meetSwitch argument

/-- Meets a word that is not a flag. -/
def meetWord (level : Level) (progress : Progress) (word : Word) : Except Rejection Progress :=
  match progress.expected with
  | argument :: more => do
      let progress ← progress.settle
      return { progress with pending := some (argument, some word), expected := more }
  | [] =>
      let isCommand := (Verb.ofWord? word).isSome || word == Text.Utf8.bytes "help"
      if level == .top && !(progress.ended && isCommand) then .error .unknownCommand
      else .error .unknownArgument

/-- Reads one word that is not a command. -/
def read (level : Level) (progress : Progress) (word : Word) : Except Rejection Progress :=
  if progress.ended then progress.meetWord level word
  else
    match Token.ofWord word with
    | .terminator => .ok { progress with ended := true }
    | .flag name value =>
        match level.flag? name with
        | some argument => progress.meetFlag argument value
        | none => .error .unknownArgument
    | .letters letter _ =>
        match level.letter? letter with
        | some argument => progress.meetSwitch argument
        | none => .error .unknownArgument
    | .plain =>
        match progress.pending with
        | some (argument, none) =>
            .ok { progress with pending := some (argument, some word) }
        | _ => progress.meetWord level word

end Progress

/-- Reads all words of the level of a command. -/
def readLevel (level : Level) : Progress → List Word → Except Rejection Progress
  | progress, [] => .ok progress
  | progress, word :: more => do
      let progress ← progress.read level word
      readLevel level progress more

/-- What the command `help` answers: help, unless it is asked about what is no command. -/
def helpAbout : List Word → Rejection
  | [] => .displayHelp
  | [word] =>
      if (Verb.ofWord? word).isSome || word == Text.Utf8.bytes "help" then .displayHelp
      else .unknownCommand
  | _ => .unknownCommand

/-- Reads the words of the top level up to the command, which is given back with the words
behind it. -/
def readTop : Progress → List Word → Except Rejection (Progress × Option (Verb × List Word))
  | progress, [] => .ok (progress, none)
  | progress, word :: more =>
      if progress.ended || progress.awaitsValue then do
        let progress ← progress.read .top word
        readTop progress more
      else if word == Text.Utf8.bytes "help" then .error (helpAbout more)
      else
        match Verb.ofWord? word with
        | some verb => .ok (progress, some (verb, more))
        | none => do
            let progress ← progress.read .top word
            readTop progress more

/-! ## The end of a level -/

/-- Adds choices from one source, for those of some arguments that have none yet and to which
the source gives a word. -/
def fill (source : Source) (word? : Argument → Option Word) :
    List Argument → Choices → Except Rejection Choices
  | [], choices => .ok choices
  | argument :: more, choices =>
      match choices.lookup argument, word? argument with
      | none, some word => do
          let value ← argument.check word
          fill source word? more (choices ++ [(argument, { source := source, value := value })])
      | _, _ => fill source word? more choices

/-- Ends a level: checks what is pending, then the environment, then adds the defaults. -/
def endLevel (level : Level) (environment : Environment) (progress : Progress) :
    Except Rejection Choices := do
  let progress ← progress.settle
  let given := progress.given.map fun (argument, value) =>
    (argument, { source := .commandLine, value := value : Choice })
  let choices ← fill .environment environment.word? level.flags given
  fill .default Argument.defaultWord? level.flags choices

/-- Reads the level of a command to its end.  No required word may be missing. -/
def readCommand (environment : Environment) (verb : Verb) (words : List Word) :
    Except Rejection Choices := do
  let progress ← readLevel (.command verb) (Progress.start (.command verb)) words
  let choices ← endLevel (.command verb) environment progress
  if progress.expected.isEmpty then return choices else throw .missingArgument

/-! ## Whole command lines -/

/-- The choice for a global argument that counts. -/
def strongest? : Option Choice → Option Choice → Option Choice
  | some above, some below => some (above.stronger below)
  | some above, none => some above
  | none, below => below

/-- Makes the choices for global arguments that count those of both levels. -/
def Invocation.propagate (invocation : Invocation) : Invocation :=
  let chosen := Argument.settings.filterMap fun argument =>
    (strongest? (invocation.top.lookup argument) (invocation.below.lookup argument)).map
      (argument, ·)
  { invocation with top := chosen ++ invocation.top, below := chosen ++ invocation.below }

/-- Reads a command line.  The command is read to its end before the top level is ended. -/
def parse (environment : Environment) (words : List Word) : Except Rejection Invocation := do
  let (progress, command) ← readTop (Progress.start .top) words
  match command with
  | some (verb, more) =>
      let below ← readCommand environment verb more
      let top ← endLevel .top environment progress
      return ({ top := top, verb := verb, below := below } : Invocation).propagate
  | none =>
      let top ← endLevel .top environment progress
      if top.all fun (_, choice) => choice.source == .default then throw .nothingGiven
      else throw .missingCommand

/-- Reads the words of a command line one by one. -/
def Reader.wordByWord : Reader where
  read := parse

end Wayfinder.CommandLine
