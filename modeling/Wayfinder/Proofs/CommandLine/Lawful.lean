import Wayfinder.Proofs.CommandLine.Sentence

/-!
# Reading word by word

The reader that reads the words of a command line one by one keeps the laws of readers.

* `takeAll_complete_iff` and `lookup_of_takeAll`: when the items of a level can be taken, and
  what they give.
* `exists_fill_iff` and `lookup_fill`: the same for the environment and the defaults.
* `Reader.wordByWord_lawful`: so a level is accepted, and chooses, as the laws say.
-/

namespace Wayfinder.CommandLine

/-! ## What items give -/

/-- The word that items give to an argument, where those of `expected` take the words without a
flag. -/
def wordIn? (expected : List Argument) (items : List Item) (argument : Argument) : Option Word :=
  (flagged? items argument).or ((expected.zip (items.filterMap Item.plain?)).lookup argument)

theorem wordIn?_eq_none {expected : List Argument} {items : List Item} {argument : Argument}
    (h : argument ∉ items.filterMap Item.argument? ++ expected) :
    wordIn? expected items argument = none := by
  rw [List.mem_append, not_or] at h
  rw [wordIn?, flagged?_eq_none h.1, Level.lookup_zip_eq_none h.2]
  rfl

namespace Item

/-- The argument that an item gives, with its word, and the arguments that are still expected. -/
def gives? : Item → List Argument → Option (Argument × Word × List Argument)
  | .option argument value _, expected => some (argument, value, expected)
  | .switch argument, expected => some (argument, Text.Utf8.bytes "true", expected)
  | .plain word, argument :: more => some (argument, word, more)
  | .plain _, [] => none

/-- An item whose flag stands on a level.  A flag without a value is one that takes none. -/
def IsFlagOf (level : Level) : Item → Prop
  | .option argument _ _ => argument ∈ level.flags
  | .switch argument => argument ∈ level.flags ∧ argument.takesValue = false
  | .plain _ => True

theorem IsFlagOf.mem_flags {level : Level} {item : Item} {argument : Argument}
    (h : item.IsFlagOf level) (hargument : item.argument? = some argument) :
    argument ∈ level.flags := by
  cases item with
  | option other value joined =>
    cases hargument
    exact h
  | switch other =>
    cases hargument
    exact h.1
  | plain word => cases hargument

theorem FitsOn.isFlagOf {level : Level} {item : Item} (h : item.FitsOn level) :
    item.IsFlagOf level := by
  cases item with
  | option argument value joined => exact h.1
  | switch argument => exact ⟨h.1, h.2.1⟩
  | plain word => trivial

/-- The value of an item is that of the word which it gives. -/
theorem exists_place_iff {level : Level} {item : Item} (hitem : item.IsFlagOf level)
    {expected more : List Argument} {argument : Argument} {checked : Value} :
    (∃ value, item.place expected = some (argument, value, more) ∧
        argument.valueOf value = .ok checked) ↔
      ∃ word, item.gives? expected = some (argument, word, more) ∧
        argument.check word = .ok checked := by
  cases item with
  | option other value joined =>
    constructor <;> rintro ⟨_, h, hchecked⟩ <;> cases h <;> exact ⟨_, rfl, hchecked⟩
  | switch other =>
    have hvalue : other.valueOf none = other.check (Text.Utf8.bytes "true") := by
      rw [Argument.valueOf, hitem.2, if_neg Bool.false_ne_true]
    constructor <;> rintro ⟨_, h, hchecked⟩ <;> cases h
    · exact ⟨_, rfl, hvalue ▸ hchecked⟩
    · exact ⟨_, rfl, hvalue ▸ hchecked⟩
  | plain word =>
    cases expected with
    | nil => constructor <;> rintro ⟨_, h, _⟩ <;> cases h
    | cons first rest =>
      constructor <;> rintro ⟨_, h, hchecked⟩ <;> cases h <;> exact ⟨_, rfl, hchecked⟩

/-- An item is taken if what it gives is new and can be read. -/
theorem take_eq_ok_iff_gives? {level : Level} {item : Item} (hitem : item.IsFlagOf level)
    {progress next : Progress} :
    item.take progress = .ok next ↔
      ∃ argument word more value, item.gives? progress.expected = some (argument, word, more) ∧
        progress.given.lookup argument = none ∧ argument.check word = .ok value ∧
        next = { progress with
          given := progress.given ++ [(argument, value)], expected := more } := by
  rw [take_eq_ok_iff]
  constructor
  · rintro ⟨argument, value, more, checked, hplace, hnew, hchecked, hnext⟩
    obtain ⟨word, hgives, hcheck⟩ := (exists_place_iff hitem).1 ⟨value, hplace, hchecked⟩
    exact ⟨argument, word, more, checked, hgives, hnew, hcheck, hnext⟩
  · rintro ⟨argument, word, more, checked, hgives, hnew, hcheck, hnext⟩
    obtain ⟨value, hplace, hchecked⟩ := (exists_place_iff hitem).2 ⟨word, hgives, hcheck⟩
    exact ⟨argument, value, more, checked, hplace, hnew, hchecked, hnext⟩

variable {item : Item} {items : List Item} {expected more : List Argument} {argument : Argument}
  {word : Word}

/-- An item gives one argument more than the items behind it. -/
theorem perm_of_gives? (h : item.gives? expected = some (argument, word, more)) :
    ((item :: items).filterMap argument? ++ expected).Perm
        (argument :: (items.filterMap argument? ++ more)) ∧
      (((item :: items).filterMap plain?).length = expected.length ↔
        (items.filterMap plain?).length = more.length) := by
  cases item with
  | option other value joined =>
    cases h
    exact ⟨.refl _, Iff.rfl⟩
  | switch other =>
    cases h
    exact ⟨.refl _, Iff.rfl⟩
  | plain other =>
    cases expected with
    | nil => cases h
    | cons first rest =>
      cases h
      exact ⟨List.perm_middle, Nat.succ_inj⟩

/-- Items give what the first of them gives, and otherwise what the others give. -/
theorem wordIn?_cons (h : item.gives? expected = some (argument, word, more))
    (hnew : argument ∉ items.filterMap argument?) (other : Argument) :
    wordIn? expected (item :: items) other =
      if other = argument then some word else wordIn? more items other := by
  unfold wordIn?
  rw [flagged?_cons]
  cases item with
  | option flag value joined =>
    cases h
    rw [List.filterMap_cons_none rfl, wordFor?]
    by_cases hother : argument = other
    · rw [if_pos hother, if_pos hother.symm, Option.some_or, Option.some_or]
    · rw [if_neg hother, if_neg (Ne.symm hother), Option.none_or]
  | switch flag =>
    cases h
    rw [List.filterMap_cons_none rfl, wordFor?]
    by_cases hother : argument = other
    · rw [if_pos hother, if_pos hother.symm, Option.some_or, Option.some_or]
    · rw [if_neg hother, if_neg (Ne.symm hother), Option.none_or]
  | plain text =>
    cases expected with
    | nil => cases h
    | cons first rest =>
      cases h
      have hplain : (Item.plain word :: items).filterMap plain? =
          word :: items.filterMap plain? := rfl
      rw [hplain, List.zip_cons_cons, List.lookup_cons, wordFor?, Option.none_or]
      by_cases hother : other = argument
      · rw [hother, flagged?_eq_none hnew, Option.none_or, beq_self_eq_true, if_pos rfl]
      · rw [beq_false_of_ne hother, if_neg hother]

end Item

/-! ## The items of a level -/

theorem lookup_concat_eq_none_iff {α : Type} {given : List (Argument × α)}
    {argument other : Argument} {value : α} :
    (given ++ [(argument, value)]).lookup other = none ↔
      given.lookup other = none ∧ other ≠ argument := by
  rw [List.lookup_append, Option.or_eq_none_iff, List.lookup_cons]
  by_cases hother : other = argument
  · rw [hother, beq_self_eq_true]
    simp
  · rw [beq_false_of_ne hother]
    simp [hother]

/-- What it takes for items to be taken until no more is expected: what they give is new, each
argument is given once, nothing is missing, and all of it can be read. -/
structure Takeable (given : List (Argument × Value)) (expected : List Argument)
    (items : List Item) : Prop where
  once : (items.filterMap Item.argument? ++ expected).Nodup
  new : ∀ argument ∈ items.filterMap Item.argument? ++ expected, given.lookup argument = none
  complete : (items.filterMap Item.plain?).length = expected.length
  readable : ∀ argument word, wordIn? expected items argument = some word →
    ∃ value, argument.check word = .ok value

section Items

variable {level : Level} {item : Item} {items : List Item} {given : List (Argument × Value)}
  {expected more : List Argument} {argument : Argument} {word : Word}

theorem takeable_nil_iff : Takeable given expected [] ↔ expected = [] := by
  constructor
  · intro h
    exact List.length_eq_zero_iff.1 h.complete.symm
  · rintro rfl
    exact ⟨List.nodup_nil, nofun, rfl, nofun⟩

theorem takeable_cons_iff (h : item.gives? expected = some (argument, word, more)) :
    Takeable given expected (item :: items) ↔ given.lookup argument = none ∧
      ∃ value, argument.check word = .ok value ∧
        Takeable (given ++ [(argument, value)]) more items := by
  obtain ⟨hperm, hcomplete⟩ := @Item.perm_of_gives? item items expected more argument word h
  constructor
  · intro htakeable
    obtain ⟨hnew, honce⟩ := List.nodup_cons.1 (hperm.nodup_iff.1 htakeable.once)
    have hcons := Item.wordIn?_cons h fun hmem => hnew (List.mem_append_left _ hmem)
    obtain ⟨value, hvalue⟩ := htakeable.readable argument word (by rw [hcons, if_pos rfl])
    refine ⟨htakeable.new argument (hperm.mem_iff.2 List.mem_cons_self), value, hvalue, honce,
      ?_, hcomplete.1 htakeable.complete, ?_⟩
    · intro other hother
      rw [lookup_concat_eq_none_iff]
      exact ⟨htakeable.new other (hperm.mem_iff.2 (List.mem_cons_of_mem _ hother)),
        fun heq => hnew (heq ▸ hother)⟩
    · intro other text htext
      refine htakeable.readable other text ?_
      rw [hcons, if_neg, htext]
      rintro rfl
      rw [wordIn?_eq_none hnew] at htext
      cases htext
  · rintro ⟨hfirst, value, hvalue, htakeable⟩
    have hnew : argument ∉ items.filterMap Item.argument? ++ more :=
      fun hmem => (lookup_concat_eq_none_iff.1 (htakeable.new argument hmem)).2 rfl
    have hcons := Item.wordIn?_cons h fun hmem => hnew (List.mem_append_left _ hmem)
    refine ⟨hperm.nodup_iff.2 (List.nodup_cons.2 ⟨hnew, htakeable.once⟩), ?_,
      hcomplete.2 htakeable.complete, ?_⟩
    · intro other hother
      rcases List.mem_cons.1 (hperm.mem_iff.1 hother) with rfl | hother
      · exact hfirst
      · exact (lookup_concat_eq_none_iff.1 (htakeable.new other hother)).1
    · intro other text htext
      rw [hcons] at htext
      split at htext
      · next heq =>
        cases htext
        exact ⟨value, heq ▸ hvalue⟩
      · exact htakeable.readable other text htext

/-- Where a word without a flag is not expected, items cannot be taken. -/
theorem not_takeable_of_gives?_eq_none (h : item.gives? expected = none) :
    ¬ Takeable given expected (item :: items) := by
  intro htakeable
  cases item with
  | option other value joined => cases h
  | switch other => cases h
  | plain text =>
    cases expected with
    | nil => cases htakeable.complete
    | cons first rest => cases h

theorem takeAll_complete_iff (hitems : ∀ item ∈ items, item.IsFlagOf level)
    {progress : Progress} :
    (∃ next, takeAll items progress = .ok next ∧ next.expected = []) ↔
      Takeable progress.given progress.expected items := by
  induction items generalizing progress with
  | nil =>
    rw [takeable_nil_iff]
    constructor
    · rintro ⟨next, h, hnext⟩
      cases h
      exact hnext
    · intro h
      exact ⟨progress, rfl, h⟩
  | cons item items ih =>
    obtain ⟨hitem, hitems⟩ := List.forall_mem_cons.1 hitems
    rw [takeAll_cons]
    constructor
    · rintro ⟨next, h, hnext⟩
      obtain ⟨taken, htake, h⟩ := exists_of_bind_eq_ok h
      obtain ⟨argument, word, more, value, hgives, hnew, hvalue, rfl⟩ :=
        (Item.take_eq_ok_iff_gives? hitem).1 htake
      exact (takeable_cons_iff hgives).2 ⟨hnew, value, hvalue, (ih hitems).1 ⟨next, h, hnext⟩⟩
    · intro htakeable
      cases hgives : item.gives? progress.expected with
      | none => exact absurd htakeable (not_takeable_of_gives?_eq_none hgives)
      | some given =>
        obtain ⟨argument, word, more⟩ := given
        obtain ⟨hnew, value, hvalue, htakeable⟩ := (takeable_cons_iff hgives).1 htakeable
        obtain ⟨next, h, hnext⟩ := (@ih hitems { progress with
          given := progress.given ++ [(argument, value)], expected := more }).2 htakeable
        exact ⟨next, bind_eq_ok_iff.2 ⟨_, (Item.take_eq_ok_iff_gives? hitem).2
          ⟨argument, word, more, value, hgives, hnew, hvalue, rfl⟩, h⟩, hnext⟩

/-- Items that are taken until no more is expected give the values of their words. -/
theorem lookup_of_takeAll (hitems : ∀ item ∈ items, item.IsFlagOf level)
    {progress next : Progress} (h : takeAll items progress = .ok next)
    (hnext : next.expected = []) (argument : Argument) :
    next.given.lookup argument = (progress.given.lookup argument).or
      ((wordIn? progress.expected items argument).bind fun word =>
        (argument.check word).toOption) := by
  induction items generalizing progress with
  | nil =>
    cases h
    rw [wordIn?_eq_none (by simp [hnext]), Option.bind_none, Option.or_none]
  | cons item items ih =>
    have htakeable := (takeAll_complete_iff hitems).1 ⟨next, h, hnext⟩
    obtain ⟨hitem, hitems⟩ := List.forall_mem_cons.1 hitems
    rw [takeAll_cons] at h
    obtain ⟨taken, htake, h⟩ := exists_of_bind_eq_ok h
    obtain ⟨other, word, more, value, hgives, hnew, hvalue, rfl⟩ :=
      (Item.take_eq_ok_iff_gives? hitem).1 htake
    have hperm := (@Item.perm_of_gives? item items _ _ _ _ hgives).1
    have hfresh := (List.nodup_cons.1 (hperm.nodup_iff.1 htakeable.once)).1
    rw [ih hitems h, Item.wordIn?_cons hgives fun hmem => hfresh (List.mem_append_left _ hmem),
      List.lookup_append, List.lookup_cons]
    by_cases hother : argument = other
    · subst hother
      rw [hnew, beq_self_eq_true, if_pos rfl, Option.bind_some, hvalue]
      rfl
    · rw [beq_false_of_ne hother, if_neg hother, List.lookup_nil, Option.or_none]

end Items

/-! ## What else is filled in -/

section Fill

variable {source : Source} {word? : Argument → Option Word} {arguments : List Argument}
  {choices result : Choices}

theorem fill_cons_of_word {argument : Argument} {word : Word}
    (hnew : choices.lookup argument = none) (hword : word? argument = some word) :
    fill source word? (argument :: arguments) choices =
      argument.check word >>= fun value =>
        fill source word? arguments (choices ++ [(argument, ⟨source, value⟩)]) := by
  rw [fill, hnew, hword]

theorem fill_cons_of_not_word {argument : Argument}
    (h : choices.lookup argument = none → word? argument = none) :
    fill source word? (argument :: arguments) choices = fill source word? arguments choices := by
  rw [fill]
  cases hnew : choices.lookup argument with
  | some choice => rfl
  | none => rw [h hnew]

/-- Choices can be filled in if each word that counts can be read. -/
theorem exists_fill_iff :
    (∃ result, fill source word? arguments choices = .ok result) ↔
      ∀ argument ∈ arguments, choices.lookup argument = none → ∀ word,
        word? argument = some word → ∃ value, argument.check word = .ok value := by
  induction arguments generalizing choices with
  | nil => exact ⟨fun _ => nofun, fun _ => ⟨choices, rfl⟩⟩
  | cons first more ih =>
    rw [List.forall_mem_cons]
    by_cases hskip : choices.lookup first = none → word? first = none
    · rw [fill_cons_of_not_word hskip, ih]
      constructor
      · intro h
        refine ⟨fun hnew word hword => ?_, h⟩
        rw [hskip hnew] at hword
        cases hword
      · exact fun h => h.2
    · obtain ⟨hnew, hword⟩ := Classical.not_imp.1 hskip
      obtain ⟨word, hword⟩ := Option.ne_none_iff_exists'.1 hword
      rw [fill_cons_of_word hnew hword]
      constructor
      · rintro ⟨result, h⟩
        obtain ⟨value, hvalue, h⟩ := exists_of_bind_eq_ok h
        have hfirst : ∀ other, word? first = some other →
            ∃ value, first.check other = .ok value := by
          intro other hother
          rw [hword] at hother
          exact Option.some.inj hother ▸ ⟨value, hvalue⟩
        refine ⟨fun _ => hfirst, fun argument hargument hlookup => ?_⟩
        by_cases hsame : argument = first
        · exact hsame ▸ hfirst
        · exact ih.1 ⟨result, h⟩ argument hargument
            (lookup_concat_eq_none_iff.2 ⟨hlookup, hsame⟩)
      · rintro ⟨hfirst, hmore⟩
        obtain ⟨value, hvalue⟩ := hfirst hnew word hword
        rw [hvalue]
        exact ih.2 fun argument hargument hlookup =>
          hmore argument hargument (lookup_concat_eq_none_iff.1 hlookup).1

/-- What a source gives to an argument. -/
def given? (source : Source) (word? : Argument → Option Word) (argument : Argument) :
    Option Choice :=
  (word? argument).bind fun word => (argument.check word).toOption.map (Choice.mk source)

/-- What is filled in for some arguments is what the source gives them, unless there is a choice
already. -/
theorem lookup_fill (h : fill source word? arguments choices = .ok result)
    (argument : Argument) :
    (argument ∉ arguments → result.lookup argument = choices.lookup argument) ∧
      (argument ∈ arguments → result.lookup argument =
        (choices.lookup argument).or (given? source word? argument)) := by
  induction arguments generalizing choices with
  | nil =>
    cases h
    exact ⟨fun _ => rfl, nofun⟩
  | cons first more ih =>
    by_cases hskip : choices.lookup first = none → word? first = none
    · rw [fill_cons_of_not_word hskip] at h
      obtain ⟨hnot, hmem⟩ := ih h
      refine ⟨fun hother => hnot fun hmore => hother (List.mem_cons_of_mem _ hmore), ?_⟩
      intro hargument
      by_cases hmore : argument ∈ more
      · exact hmem hmore
      · obtain rfl := (List.mem_cons.1 hargument).resolve_right hmore
        rw [hnot hmore]
        cases hnew : choices.lookup argument with
        | some choice => rfl
        | none => rw [given?, hskip hnew, Option.bind_none, Option.none_or]
    · obtain ⟨hnew, hword⟩ := Classical.not_imp.1 hskip
      obtain ⟨word, hword⟩ := Option.ne_none_iff_exists'.1 hword
      rw [fill_cons_of_word hnew hword] at h
      obtain ⟨value, hvalue, h⟩ := exists_of_bind_eq_ok h
      obtain ⟨hnot, hmem⟩ := ih h
      rw [List.lookup_append, List.lookup_cons, List.lookup_nil] at hnot hmem
      by_cases hfirst : argument = first
      · subst hfirst
        have hgiven : given? source word? argument = some ⟨source, value⟩ := by
          rw [given?, hword, Option.bind_some, hvalue]
          rfl
        rw [hnew, beq_self_eq_true] at hnot hmem
        refine ⟨fun hother => absurd List.mem_cons_self hother, fun _ => ?_⟩
        rw [hnew, hgiven]
        by_cases hmore : argument ∈ more
        · exact hmem hmore
        · exact hnot hmore
      · rw [beq_false_of_ne hfirst, Option.or_none] at hnot hmem
        exact ⟨fun hother => hnot fun hmore => hother (List.mem_cons_of_mem _ hmore),
          fun hargument => hmem ((List.mem_cons.1 hargument).resolve_left hfirst)⟩

end Fill

/-! ## Levels -/

/-- The words without a flag are arguments of their own, which neither the environment nor a
default gives. -/
theorem Level.words_own (level : Level) :
    level.words.Nodup ∧ ∀ argument ∈ level.words, argument ∉ level.flags ∧
      argument.variableName? = none ∧ argument.defaultWord? = none := by
  cases level with
  | top => decide
  | command verb => cases verb <;> decide

/-- Every default can be read. -/
theorem Argument.exists_check_of_defaultWord? {argument : Argument} {word : Word}
    (h : argument.defaultWord? = some word) : ∃ value, argument.check word = .ok value := by
  have hcheck : ∀ word ∈ argument.defaultWord?,
      (argument.check word).toOption.isSome = true := by
    cases argument <;> decide +kernel
  cases hvalue : argument.check word with
  | ok value => exact ⟨value, rfl⟩
  | error rejection =>
    have hsome := hcheck word h
    rw [hvalue] at hsome
    cases hsome

theorem lookup_map_choice (given : List (Argument × Value)) (argument : Argument) :
    (given.map fun (argument, value) =>
      (argument, { source := .commandLine, value := value : Choice })).lookup argument =
      (given.lookup argument).map (Choice.mk .commandLine) := by
  induction given with
  | nil => rfl
  | cons pair more ih =>
    rw [List.map_cons, List.lookup_cons, List.lookup_cons, ih]
    cases argument == pair.1 <;> rfl

section Levels

variable {level : Level} {environment : Environment} {items : List Item}
  {progress next : Progress} {chosen : Choices} {argument : Argument}

/-- A level can be ended if the environment can be read where the level gives nothing. -/
theorem exists_closeLevel_iff :
    (∃ chosen, closeLevel level environment progress = .ok chosen) ↔
      ∀ argument ∈ level.flags, progress.given.lookup argument = none → ∀ word,
        environment.word? argument = some word → ∃ value, argument.check word = .ok value := by
  unfold closeLevel
  constructor
  · rintro ⟨chosen, h⟩
    obtain ⟨choices, hchoices, -⟩ := exists_of_bind_eq_ok h
    intro argument hargument hnew
    refine exists_fill_iff.1 ⟨choices, hchoices⟩ argument hargument ?_
    rw [lookup_map_choice, hnew]
    rfl
  · intro h
    obtain ⟨choices, hchoices⟩ := exists_fill_iff.2 fun argument hargument hnew =>
      h argument hargument (Option.map_eq_none_iff.1 ((lookup_map_choice _ _).symm.trans hnew))
    obtain ⟨chosen, hchosen⟩ :=
      (@exists_fill_iff .default Argument.defaultWord? level.flags choices).2
        fun argument _ _ word hword => Argument.exists_check_of_defaultWord? hword
    exact ⟨chosen, bind_eq_ok_iff.2 ⟨choices, hchoices, hchosen⟩⟩

/-- The choices at the end of a level. -/
theorem lookup_closeLevel (h : closeLevel level environment progress = .ok chosen)
    (hargument : argument ∈ level.flags ++ level.words) :
    chosen.lookup argument = (((progress.given.lookup argument).map (Choice.mk .commandLine)).or
      (given? .environment environment.word? argument)).or
        (given? .default Argument.defaultWord? argument) := by
  obtain ⟨choices, hchoices, hchosen⟩ := exists_of_bind_eq_ok h
  obtain ⟨hnot, hmem⟩ := lookup_fill hchosen argument
  obtain ⟨hnot', hmem'⟩ := lookup_fill hchoices argument
  rw [lookup_map_choice] at hnot' hmem'
  rcases List.mem_append.1 hargument with hflag | hword
  · rw [hmem hflag, hmem' hflag]
  · obtain ⟨hflag, hvariable, hdefault⟩ := level.words_own.2 argument hword
    have hnone : environment.word? argument = none := by
      rw [Environment.word?, hvariable, Option.bind_none]
    rw [hnot hflag, hnot' hflag, given?, given?, hnone, hdefault, Option.bind_none,
      Option.bind_none, Option.or_none, Option.or_none]

/-- The items of an accepted level can be taken. -/
theorem Level.Accepts.takeable (h : level.Accepts environment items)
    (hitems : ∀ item ∈ items, item.IsFlagOf level) : Takeable [] level.words items := by
  have hflags : ∀ argument ∈ items.filterMap Item.argument?, argument ∈ level.flags := by
    intro argument hargument
    obtain ⟨item, hitem, hsome⟩ := List.mem_filterMap.1 hargument
    exact (hitems item hitem).mem_flags hsome
  refine ⟨?_, fun _ _ => rfl, h.complete, ?_⟩
  · refine List.nodup_append.2 ⟨h.once, level.words_own.1, ?_⟩
    rintro argument hargument other hother rfl
    exact (level.words_own.2 argument hother).1 (hflags argument hargument)
  · intro argument word hword
    refine h.readable argument ?_ .commandLine word (origin?_of_word hword)
    by_contra hnot
    rw [List.mem_append, not_or] at hnot
    rw [wordIn?_eq_none] at hword
    · cases hword
    · rw [List.mem_append, not_or]
      exact ⟨fun hmem => hnot.1 (hflags argument hmem), hnot.2⟩

/-- A level on which items were taken gives nothing to an argument if they do not. -/
theorem word?_eq_none_iff (htakeable : Takeable [] level.words items)
    (hgiven : progress.given.lookup argument =
      (level.word? items argument).bind fun word => (argument.check word).toOption) :
    progress.given.lookup argument = none ↔ level.word? items argument = none := by
  rw [hgiven]
  cases hword : level.word? items argument with
  | none => exact iff_of_true rfl rfl
  | some word =>
    obtain ⟨value, hvalue⟩ := htakeable.readable argument word hword
    rw [Option.bind_some, hvalue]
    exact ⟨nofun, nofun⟩

theorem lookup_of_takeAll_start (hitems : ∀ item ∈ items, item.IsFlagOf level)
    (h : takeAll items (.start level) = .ok next) (hnext : next.expected = [])
    (argument : Argument) :
    next.given.lookup argument =
      (level.word? items argument).bind fun word => (argument.check word).toOption :=
  lookup_of_takeAll hitems h hnext argument

/-- A level is accepted if its items can be taken, nothing is missing and the environment can be
read. -/
theorem Level.accepts_iff (hitems : ∀ item ∈ items, item.IsFlagOf level) :
    level.Accepts environment items ↔
      ∃ next chosen, takeAll items (.start level) = .ok next ∧ next.expected = [] ∧
        closeLevel level environment next = .ok chosen := by
  constructor
  · intro h
    have htakeable := h.takeable hitems
    obtain ⟨next, htake, hnext⟩ := (@takeAll_complete_iff level items hitems (.start level)).2
      htakeable
    obtain ⟨chosen, hchosen⟩ := (@exists_closeLevel_iff level environment next).2 <| by
      intro argument hflag hnone word hword
      have hnone := (word?_eq_none_iff htakeable
        (lookup_of_takeAll_start hitems htake hnext argument)).1 hnone
      exact h.readable argument (List.mem_append_left _ hflag) .environment word
        (origin?_of_variable hnone hword)
    exact ⟨next, chosen, htake, hnext, hchosen⟩
  · rintro ⟨next, chosen, htake, hnext, hchosen⟩
    have htakeable := (takeAll_complete_iff hitems).1 ⟨next, htake, hnext⟩
    refine ⟨(List.nodup_append.1 htakeable.once).1, htakeable.complete, ?_⟩
    intro argument hargument source word horigin
    cases hword : level.word? items argument with
    | some found =>
      rw [origin?_of_word hword] at horigin
      cases horigin
      exact htakeable.readable argument word hword
    | none =>
      cases hvariable : environment.word? argument with
      | some found =>
        rw [origin?_of_variable hword hvariable] at horigin
        cases horigin
        rcases List.mem_append.1 hargument with hflag | hplain
        · refine exists_closeLevel_iff.1 ⟨chosen, hchosen⟩ argument hflag ?_ word hvariable
          exact (word?_eq_none_iff htakeable
            (lookup_of_takeAll_start hitems htake hnext argument)).2 hword
        · rw [Environment.word?, (level.words_own.2 argument hplain).2.1] at hvariable
          cases hvariable
      | none =>
        rw [origin?_of_default hword hvariable] at horigin
        obtain ⟨found, hdefault, heq⟩ := Option.map_eq_some_iff.1 horigin
        cases heq
        exact Argument.exists_check_of_defaultWord? hdefault

/-- The choices of an accepted level. -/
theorem lookup_eq_choice? (hitems : ∀ item ∈ items, item.IsFlagOf level)
    (htake : takeAll items (.start level) = .ok next) (hnext : next.expected = [])
    (hchosen : closeLevel level environment next = .ok chosen)
    (hargument : argument ∈ level.flags ++ level.words) :
    chosen.lookup argument = level.choice? environment items argument := by
  have hreadable := (Level.accepts_iff hitems).2 ⟨next, chosen, htake, hnext, hchosen⟩
    |>.readable argument hargument
  rw [lookup_closeLevel hchosen hargument, lookup_of_takeAll_start hitems htake hnext]
  unfold Level.choice? given?
  cases hword : level.word? items argument with
  | some word =>
    have horigin := @Level.origin?_of_word level environment items argument word hword
    obtain ⟨value, hvalue⟩ := hreadable _ _ horigin
    rw [horigin, Option.bind_some, Option.bind_some, hvalue]
    rfl
  | none =>
    cases hvariable : environment.word? argument with
    | some word =>
      have horigin := Level.origin?_of_variable hword hvariable
      obtain ⟨value, hvalue⟩ := hreadable _ _ horigin
      rw [horigin, Option.bind_some, Option.bind_some, hvalue]
      rfl
    | none =>
      rw [Level.origin?_of_default hword hvariable]
      cases argument.defaultWord? <;> rfl

end Levels

/-! ## Whole command lines -/

/-- Where no word without a flag is expected, none is expected later. -/
theorem expected_takeAll_of_nil {items : List Item} {progress next : Progress}
    (h : takeAll items progress = .ok next) (hexpected : progress.expected = []) :
    next.expected = [] := by
  induction items generalizing progress with
  | nil =>
    cases h
    exact hexpected
  | cons item items ih =>
    rw [takeAll_cons] at h
    obtain ⟨taken, htake, h⟩ := exists_of_bind_eq_ok h
    refine ih h ?_
    obtain ⟨argument, value, more, checked, hplace, -, -, rfl⟩ := Item.take_eq_ok_iff.1 htake
    rw [hexpected] at hplace
    cases item with
    | option other text joined =>
      cases hplace
      rfl
    | switch other =>
      cases hplace
      rfl
    | plain word => cases hplace

theorem Sentence.Formed.isFlagOf {sentence : Sentence} (h : sentence.Formed) :
    (∀ item ∈ sentence.top, item.IsFlagOf .top) ∧
      ∀ item ∈ sentence.belowItems, item.IsFlagOf (.command sentence.verb) := by
  refine ⟨fun item hitem => (h.top item hitem).isFlagOf, ?_⟩
  rw [Sentence.belowItems, List.forall_mem_append]
  refine ⟨fun item hitem => (h.below item hitem).isFlagOf, ?_⟩
  intro item hitem
  obtain ⟨word, -, rfl⟩ := List.mem_map.1 hitem
  trivial

section Propagate

variable {argument : Argument}

theorem lookup_filterMap_pair (choice? : Argument → Option Choice) (arguments : List Argument)
    (argument : Argument) :
    (argument ∈ arguments → (arguments.filterMap fun other =>
        (choice? other).map (other, ·)).lookup argument = choice? argument) ∧
      (argument ∉ arguments → (arguments.filterMap fun other =>
        (choice? other).map (other, ·)).lookup argument = none) := by
  induction arguments with
  | nil => exact ⟨nofun, fun _ => rfl⟩
  | cons first more ih =>
    rw [List.filterMap_cons, List.mem_cons, not_or]
    cases hchoice : choice? first with
    | none =>
      dsimp only [Option.map_none]
      refine ⟨fun hargument => ?_, fun hargument => ih.2 hargument.2⟩
      by_cases hmore : argument ∈ more
      · exact ih.1 hmore
      · obtain rfl := hargument.resolve_right hmore
        rw [ih.2 hmore, hchoice]
    | some choice =>
      dsimp only [Option.map_some]
      rw [List.lookup_cons]
      by_cases hfirst : argument = first
      · rw [hfirst, beq_self_eq_true]
        exact ⟨fun _ => hchoice.symm, fun hargument => absurd rfl hargument.1⟩
      · rw [beq_false_of_ne hfirst]
        exact ⟨fun hargument => ih.1 (hargument.resolve_left hfirst),
          fun hargument => ih.2 hargument.2⟩

/-- Global arguments have the stronger choice. -/
theorem Invocation.lookup_propagate_top {invocation : Invocation} {above below : Choice}
    (hglobal : argument ∈ Argument.settings)
    (habove : invocation.top.lookup argument = some above)
    (hbelow : invocation.below.lookup argument = some below) :
    invocation.propagate.top.lookup argument = some (above.stronger below) := by
  unfold propagate
  dsimp only
  rw [List.lookup_append, (lookup_filterMap_pair _ _ argument).1 hglobal, habove, hbelow]
  rfl

/-- Other arguments keep their choices. -/
theorem Invocation.lookup_propagate_below {invocation : Invocation}
    (hglobal : argument ∉ Argument.settings) :
    invocation.propagate.below.lookup argument = invocation.below.lookup argument := by
  unfold propagate
  dsimp only
  rw [List.lookup_append, (lookup_filterMap_pair _ _ argument).2 hglobal, Option.none_or]

end Propagate

/-- What is accepted, and chosen, on the two levels of a sentence. -/
theorem exists_levels_of_parse {environment : Environment} {sentence : Sentence}
    {invocation : Invocation} (hformed : sentence.Formed)
    (h : parse environment sentence.words = .ok invocation) :
    Level.top.Accepts environment sentence.top ∧
      (Level.command sentence.verb).Accepts environment sentence.belowItems ∧
      ∃ above beneath : Choices,
        (∀ argument ∈ Level.top.flags ++ Level.top.words,
          above.lookup argument = Level.top.choice? environment sentence.top argument) ∧
        (∀ argument ∈ (Level.command sentence.verb).flags ++ (Level.command sentence.verb).words,
          beneath.lookup argument =
            (Level.command sentence.verb).choice? environment sentence.belowItems argument) ∧
        invocation = ({ top := above, verb := sentence.verb, below := beneath } :
          Invocation).propagate := by
  obtain ⟨htopItems, hbelowItems⟩ := hformed.isFlagOf
  obtain ⟨top, below, above, beneath, htakes, habove, hbeneath, rfl⟩ :=
    (parse_words_eq_ok_iff hformed).1 h
  have htop : top.expected = [] := expected_takeAll_of_nil htakes.takeAll_top rfl
  refine ⟨(Level.accepts_iff htopItems).2 ⟨top, above, htakes.takeAll_top, htop, habove⟩,
    (Level.accepts_iff hbelowItems).2
      ⟨below, beneath, htakes.takeAll_below, htakes.complete, hbeneath⟩,
    above, beneath, ?_, ?_, rfl⟩
  · intro argument hargument
    exact lookup_eq_choice? htopItems htakes.takeAll_top htop habove hargument
  · intro argument hargument
    exact lookup_eq_choice? hbelowItems htakes.takeAll_below htakes.complete hbeneath hargument

/-- Reading word by word keeps the laws of readers. -/
theorem Reader.wordByWord_lawful : Reader.wordByWord.Lawful where
  written h := exists_sentence_of_parse h
  accepts_iff {environment sentence} hformed := by
    obtain ⟨htopItems, hbelowItems⟩ := hformed.isFlagOf
    constructor
    · rintro ⟨invocation, h⟩
      obtain ⟨htop, hbelow, -⟩ := exists_levels_of_parse hformed h
      exact ⟨htop, hbelow⟩
    · rintro ⟨htop, hbelow⟩
      obtain ⟨top, above, htakeTop, -, habove⟩ := (Level.accepts_iff htopItems).1 htop
      obtain ⟨below, beneath, htakeBelow, hcomplete, hbeneath⟩ :=
        (Level.accepts_iff hbelowItems).1 hbelow
      exact ⟨_, (parse_words_eq_ok_iff hformed).2 ⟨top, below, above, beneath,
        ⟨htakeTop, htakeBelow, hcomplete⟩, habove, hbeneath, rfl⟩⟩
  verb_eq hformed h := by
    obtain ⟨-, -, above, beneath, -, -, rfl⟩ := exists_levels_of_parse hformed h
    rfl
  own {environment sentence invocation} hformed h {argument} hglobal hargument := by
    obtain ⟨-, -, above, beneath, -, hbeneath, rfl⟩ := exists_levels_of_parse hformed h
    rw [Invocation.lookup_propagate_below hglobal]
    exact hbeneath argument hargument
  shared {environment sentence invocation} hformed h {argument} hglobal {above below} habove
      hbelow := by
    obtain ⟨-, -, choices, beneath, hchoices, hbeneath, rfl⟩ := exists_levels_of_parse hformed h
    have hflag := Level.setting_mem_flags hglobal
    refine Invocation.lookup_propagate_top hglobal ?_ ?_
    · exact (hchoices argument (List.mem_append_left _ (hflag _))).trans habove
    · exact (hbeneath argument (List.mem_append_left _ (hflag _))).trans hbelow

end Wayfinder.CommandLine
