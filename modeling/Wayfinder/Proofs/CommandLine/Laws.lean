import Wayfinder.CommandLine.Request

/-!
# Laws of readers

How command lines are taken apart is left to a reader.  What the program relies on is said
here, argument by argument and level by level, without saying how words are read.

* `Sentence` is a command line as it is written: items, the name of a command, and items again.
* `Level.origin?` is the word that a level has for an argument, and where that comes from: the
  items of the level, else the environment, else the default.  `Level.choice?` is the value
  of this word.
* `Level.Accepts` says when a level is accepted.
* `Reader.Lawful` collects the laws.  A reader knows nothing but sentences.  It accepts a
  sentence if each level does, gives each argument what its level chooses, and gives global
  arguments the stronger one of the choices of both levels.
-/

namespace Wayfinder.CommandLine

/-! ## Sentences -/

/-- Whether a word stands for itself: it does not begin with a dash, or is nothing else. -/
def isPlain : Word → Bool
  | first :: _ :: _ => first != dash
  | _ => true

/-- The word for a flag. -/
def Argument.word (argument : Argument) : Word :=
  dash :: dash :: Text.Utf8.bytes argument.flag

/-- What is written on a level. -/
inductive Item where
  /-- A flag with a value, behind an equals sign or in a word of its own. -/
  | option (argument : Argument) (value : Word) (joined : Bool)
  /-- A flag without a value. -/
  | switch (argument : Argument)
  /-- A word that stands for itself. -/
  | plain (word : Word)
deriving Repr, DecidableEq

namespace Item

/-- The words in which an item is written. -/
def words : Item → List Word
  | .option argument value true => [argument.word ++ equals :: value]
  | .option argument value false => [argument.word, value]
  | .switch argument => [argument.word]
  | .plain word => [word]

/-- The items that can be written on a level.  A flag that asks for help or for the version is
none of them, since it ends the reading, and before the command no word stands for itself. -/
def FitsOn (level : Level) : Item → Prop
  | .option argument value joined =>
      argument ∈ level.flags ∧ argument.takesValue = true ∧
        (joined = true ∨ isPlain value = true)
  | .switch argument =>
      argument ∈ level.flags ∧ argument.takesValue = false ∧
        argument ≠ .help ∧ argument ≠ .version
  | .plain word => level ≠ .top ∧ isPlain word = true

instance (level : Level) : (item : Item) → Decidable (item.FitsOn level)
  | .option _ _ _ => inferInstanceAs (Decidable (_ ∧ _ ∧ _))
  | .switch _ => inferInstanceAs (Decidable (_ ∧ _ ∧ _ ∧ _))
  | .plain _ => inferInstanceAs (Decidable (_ ∧ _))

/-- The argument that an item gives by its flag. -/
def argument? : Item → Option Argument
  | .option argument _ _ => some argument
  | .switch argument => some argument
  | .plain _ => none

/-- The word that an item gives to an argument by its flag.  A flag without a value says that it
is set. -/
def wordFor? (argument : Argument) : Item → Option Word
  | .option other value _ => if other = argument then some value else none
  | .switch other => if other = argument then some (Text.Utf8.bytes "true") else none
  | .plain _ => none

/-- The word that an item is. -/
def plain? : Item → Option Word
  | .plain word => some word
  | _ => none

end Item

/-- A command line as it is written. -/
structure Sentence where
  /-- What stands before the command. -/
  top : List Item
  verb : Verb
  /-- What stands behind it. -/
  below : List Item
  /-- The words behind two dashes, if there are two dashes. -/
  tail : Option (List Word)
deriving Repr, DecidableEq

/-- The words that end a level, if there are two dashes. -/
def tailWords : Option (List Word) → List Word
  | some words => [dash, dash] :: words
  | none => []

namespace Sentence

/-- The words behind the command. -/
def belowWords (sentence : Sentence) : List Word :=
  sentence.below.flatMap Item.words ++ tailWords sentence.tail

/-- The words of a command line. -/
def words (sentence : Sentence) : List Word :=
  sentence.top.flatMap Item.words ++ Text.Utf8.bytes sentence.verb.name :: sentence.belowWords

/-- All items that stand behind the command, those behind two dashes included. -/
def belowItems (sentence : Sentence) : List Item :=
  sentence.below ++ (sentence.tail.getD []).map .plain

/-- Every item stands on a level that it fits. -/
structure Formed (sentence : Sentence) : Prop where
  top : ∀ item ∈ sentence.top, item.FitsOn .top
  below : ∀ item ∈ sentence.below, item.FitsOn (.command sentence.verb)

instance (sentence : Sentence) : Decidable sentence.Formed :=
  decidable_of_iff ((∀ item ∈ sentence.top, item.FitsOn .top) ∧
    ∀ item ∈ sentence.below, item.FitsOn (.command sentence.verb))
    ⟨fun h => ⟨h.1, h.2⟩, fun h => ⟨h.top, h.below⟩⟩

end Sentence

/-! ## Levels -/

/-- The word that items give to an argument by a flag. -/
def flagged? (items : List Item) (argument : Argument) : Option Word :=
  items.findSome? (Item.wordFor? argument)

theorem flagged?_append (items more : List Item) (argument : Argument) :
    flagged? (items ++ more) argument =
      (flagged? items argument).or (flagged? more argument) :=
  List.findSome?_append

theorem flagged?_cons (item : Item) (items : List Item) (argument : Argument) :
    flagged? (item :: items) argument =
      (item.wordFor? argument).or (flagged? items argument) := by
  unfold flagged?
  rw [List.findSome?_cons]
  cases item.wordFor? argument <;> rfl

theorem Item.wordFor?_eq_none {item : Item} {argument : Argument}
    (h : item.argument? ≠ some argument) : item.wordFor? argument = none := by
  cases item with
  | option other value joined => exact if_neg fun heq => h (congrArg some heq)
  | switch other => exact if_neg fun heq => h (congrArg some heq)
  | plain word => rfl

theorem flagged?_eq_none {items : List Item} {argument : Argument}
    (h : argument ∉ items.filterMap Item.argument?) : flagged? items argument = none := by
  refine List.findSome?_eq_none_iff.2 fun item hitem => Item.wordFor?_eq_none fun hargument => ?_
  exact h (List.mem_filterMap.2 ⟨item, hitem, hargument⟩)

namespace Level

/-- Settings can be chosen on every level. -/
theorem setting_mem_flags {argument : Argument} (h : argument ∈ Argument.settings)
    (level : Level) : argument ∈ level.flags := by
  revert argument
  cases level with
  | top => decide
  | command verb => cases verb <;> decide

/-- No word without a flag chooses a setting. -/
theorem setting_not_mem_words {argument : Argument} (h : argument ∈ Argument.settings)
    (level : Level) : argument ∉ level.words := by
  revert argument
  cases level with
  | top => decide
  | command verb => cases verb <;> decide

/-- The word that the items of a level give to an argument: by a flag, or in the place of the
argument among those without a flag. -/
def word? (level : Level) (items : List Item) (argument : Argument) : Option Word :=
  (flagged? items argument).or ((level.words.zip (items.filterMap Item.plain?)).lookup argument)

theorem lookup_zip_eq_none {arguments : List Argument} {words : List Word} {argument : Argument}
    (h : argument ∉ arguments) : (arguments.zip words).lookup argument = none := by
  rw [List.lookup_eq_none_iff]
  intro pair hpair
  exact bne_iff_ne.2 fun heq => h (heq ▸ (List.of_mem_zip hpair).1)

theorem word?_of_setting {argument : Argument} (h : argument ∈ Argument.settings) (level : Level)
    (items : List Item) : level.word? items argument = flagged? items argument := by
  rw [word?, lookup_zip_eq_none (setting_not_mem_words h level), Option.or_none]

/-- The word that a level has for an argument, and where it comes from. -/
def origin? (level : Level) (environment : Environment) (items : List Item)
    (argument : Argument) : Option (Source × Word) :=
  ((level.word? items argument).map (Source.commandLine, ·)).or
    (((environment.word? argument).map (Source.environment, ·)).or
      (argument.defaultWord?.map (Source.default, ·)))

section Origin

variable {level : Level} {environment : Environment} {items : List Item} {argument : Argument}
  {word : Word}

theorem origin?_of_word (h : level.word? items argument = some word) :
    level.origin? environment items argument = some (.commandLine, word) := by
  rw [origin?, h]
  rfl

theorem origin?_of_variable (h : level.word? items argument = none)
    (hvariable : environment.word? argument = some word) :
    level.origin? environment items argument = some (.environment, word) := by
  rw [origin?, h, hvariable]
  rfl

theorem origin?_of_default (h : level.word? items argument = none)
    (hvariable : environment.word? argument = none) :
    level.origin? environment items argument = argument.defaultWord?.map (.default, ·) := by
  rw [origin?, h, hvariable]
  rfl

end Origin

/-- What a level chooses for an argument. -/
def choice? (level : Level) (environment : Environment) (items : List Item)
    (argument : Argument) : Option Choice :=
  (level.origin? environment items argument).bind fun origin =>
    (argument.check origin.2).toOption.map (Choice.mk origin.1)

/-- A level is accepted. -/
structure Accepts (level : Level) (environment : Environment) (items : List Item) : Prop where
  /-- No flag stands twice on the level. -/
  once : (items.filterMap Item.argument?).Nodup
  /-- The words without a flag are as many as are required. -/
  complete : (items.filterMap Item.plain?).length = level.words.length
  /-- The word for each argument gives it a value.  A variable of the environment is not looked
  at where the level has a word. -/
  readable : ∀ argument ∈ level.flags ++ level.words, ∀ source word,
    level.origin? environment items argument = some (source, word) →
      ∃ value, argument.check word = .ok value

end Level

/-! ## Readers -/

/-- What the program relies on when it has its command line read. -/
structure Reader.Lawful (reader : Reader) : Prop where
  /-- What is accepted was written as a sentence. -/
  written {environment : Environment} {words : List Word} {invocation : Invocation}
    (h : reader.read environment words = .ok invocation) :
    ∃ sentence : Sentence, sentence.Formed ∧ sentence.words = words
  /-- A sentence is accepted if both its levels are. -/
  accepts_iff {environment : Environment} {sentence : Sentence} (hformed : sentence.Formed) :
    (∃ invocation, reader.read environment sentence.words = .ok invocation) ↔
      Level.top.Accepts environment sentence.top ∧
        (Level.command sentence.verb).Accepts environment sentence.belowItems
  verb_eq {environment : Environment} {sentence : Sentence} {invocation : Invocation}
    (hformed : sentence.Formed) (h : reader.read environment sentence.words = .ok invocation) :
    invocation.verb = sentence.verb
  /-- An argument of the command that is not global has what the level of the command chooses. -/
  own {environment : Environment} {sentence : Sentence} {invocation : Invocation}
    (hformed : sentence.Formed) (h : reader.read environment sentence.words = .ok invocation)
    {argument : Argument} (hglobal : argument ∉ Argument.settings)
    (hargument : argument ∈ (Level.command sentence.verb).flags ++
      (Level.command sentence.verb).words) :
    invocation.below.lookup argument =
      (Level.command sentence.verb).choice? environment sentence.belowItems argument
  /-- A global argument has the stronger one of what the two levels choose. -/
  shared {environment : Environment} {sentence : Sentence} {invocation : Invocation}
    (hformed : sentence.Formed) (h : reader.read environment sentence.words = .ok invocation)
    {argument : Argument} (hglobal : argument ∈ Argument.settings) {above below : Choice}
    (habove : Level.top.choice? environment sentence.top argument = some above)
    (hbelow : (Level.command sentence.verb).choice? environment sentence.belowItems argument =
      some below) :
    invocation.top.lookup argument = some (above.stronger below)

end Wayfinder.CommandLine
