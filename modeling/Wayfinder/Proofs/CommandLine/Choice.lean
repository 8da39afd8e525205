import Wayfinder.Proofs.CommandLine.Laws

/-!
# Where settings come from

What follows from the laws of readers alone: a setting is chosen behind the command, else before
it, else by the environment, else by its default.

* `Choices.Has`: what is chosen for an argument is the value of a word.
* `Sentence.word?` is the word that chooses a setting, and `Reader.Lawful.has_setting` says
  that a lawful reader has its value.
* `Reader.Lawful.chooses` and `Reader.Lawful.exists_command`: so a command line that is accepted
  asks for the settings that its sentence chooses, and for a command.
-/

namespace Wayfinder.CommandLine

/-! ## Values of words -/

namespace Argument

variable {word : Word} {value : Value}

theorem eq_of_checkPath (h : checkPath word = .ok value) : value = .path word := by
  unfold checkPath at h
  split at h
  · cases h
  · cases h
    rfl

theorem bind_eq_some_of_checkText {read? : String → Option Value} {wrong : Rejection}
    (h : checkText read? wrong word = .ok value) :
    (Text.Utf8.decode? word).bind read? = some value := by
  unfold checkText at h
  split at h
  · next text htext =>
    split at h
    · next found hfound =>
      cases h
      rw [htext, Option.bind_some, hfound]
    · cases h
  · cases h

theorem eq_of_checkSwitch (h : checkSwitch word = .ok value) :
    ∃ set, value = .switch set ∧ (set = true ↔ word = Text.Utf8.bytes "true") := by
  unfold checkSwitch at h
  split at h
  · next htrue =>
    cases h
    exact ⟨true, rfl, iff_of_true rfl (eq_of_beq htrue)⟩
  · next htrue =>
    split at h
    · cases h
      exact ⟨false, rfl, iff_of_false Bool.false_ne_true fun heq => htrue (beq_iff_eq.2 heq)⟩
    · cases h

/-- A text that can be read as some kind of value. -/
theorem exists_of_bind_map {α : Type} {read? : String → Option α} {kind : α → Value}
    (h : (Text.Utf8.decode? word).bind (fun text => (read? text).map kind) = some value) :
    ∃ found, (Text.Utf8.decode? word).bind read? = some found ∧ value = kind found := by
  obtain ⟨text, htext, hread⟩ := Option.bind_eq_some_iff.1 h
  obtain ⟨found, hfound, hvalue⟩ := Option.map_eq_some_iff.1 hread
  exact ⟨found, Option.bind_eq_some_iff.2 ⟨text, htext, hfound⟩, hvalue.symm⟩

end Argument

namespace Choices

/-- What is chosen for an argument is the value of a word. -/
def Has (choices : Choices) (argument : Argument) (word : Word) : Prop :=
  ∃ choice, choices.lookup argument = some choice ∧ argument.check word = .ok choice.value

section Has

variable {α : Type} {choices : Choices} {argument : Argument} {word : Word} {choice : Choice}
  {kind? : Value → Option α} {found : α}

theorem get_eq_ok (hlookup : choices.lookup argument = some choice)
    (hkind : kind? choice.value = some found) : choices.get argument kind? = .ok found := by
  rw [get, get?, hlookup, Option.bind_some, hkind]

theorem Has.get_path (h : choices.Has argument word)
    (hcheck : argument.check = Argument.checkPath) :
    choices.get argument Value.path? = .ok word := by
  obtain ⟨choice, hlookup, hvalue⟩ := h
  rw [hcheck] at hvalue
  refine get_eq_ok hlookup ?_
  rw [Argument.eq_of_checkPath hvalue]
  rfl

theorem Has.get_count (h : choices.Has argument word)
    (hcheck : argument.check = Argument.checkCount) :
    ∃ count, choices.get argument Value.count? = .ok count ∧
      (Text.Utf8.decode? word).bind (fun text => Text.readCount? text.toList) = some count := by
  obtain ⟨choice, hlookup, hvalue⟩ := h
  rw [hcheck] at hvalue
  obtain ⟨count, hcount, hchoice⟩ :=
    Argument.exists_of_bind_map (Argument.bind_eq_some_of_checkText hvalue)
  refine ⟨count, get_eq_ok hlookup ?_, hcount⟩
  rw [hchoice]
  rfl

theorem Has.get_switch (h : choices.Has argument word)
    (hcheck : argument.check = Argument.checkSwitch) :
    ∃ set, choices.get argument Value.switch? = .ok set ∧
      (set = true ↔ word = Text.Utf8.bytes "true") := by
  obtain ⟨choice, hlookup, hvalue⟩ := h
  rw [hcheck] at hvalue
  obtain ⟨set, hchoice, hset⟩ := Argument.eq_of_checkSwitch hvalue
  refine ⟨set, get_eq_ok hlookup ?_, hset⟩
  rw [hchoice]
  rfl

theorem Has.get_oracle (h : choices.Has .oracle word) :
    ∃ oracle, choices.get .oracle Value.oracle? = .ok oracle ∧
      (Text.Utf8.decode? word).bind Oracle.ofName? = some oracle := by
  obtain ⟨choice, hlookup, hvalue⟩ := h
  obtain ⟨oracle, horacle, hchoice⟩ :=
    Argument.exists_of_bind_map (Argument.bind_eq_some_of_checkText hvalue)
  refine ⟨oracle, get_eq_ok hlookup ?_, horacle⟩
  rw [hchoice]
  rfl

theorem Has.get_address (h : choices.Has .addr word) :
    ∃ address, choices.get .addr Value.address? = .ok address := by
  obtain ⟨choice, hlookup, hvalue⟩ := h
  obtain ⟨address, -, hchoice⟩ :=
    Argument.exists_of_bind_map (Argument.bind_eq_some_of_checkText hvalue)
  refine ⟨address, get_eq_ok hlookup ?_⟩
  rw [hchoice]
  rfl

end Has

/-- Settings can be picked out if there is a word for each. -/
theorem exists_settings_of_has {choices : Choices} {word : Argument → Word}
    (h : ∀ argument ∈ Argument.settings, choices.Has argument (word argument)) :
    ∃ settings, choices.settings = .ok settings ∧
      settings.workspace = word .workspace ∧
      (Text.Utf8.decode? (word .oracle)).bind Oracle.ofName? = some settings.oracle ∧
      settings.gopls = word .gopls ∧
      (Text.Utf8.decode? (word .lookahead)).bind (fun text => Text.readCount? text.toList) =
        some settings.lookahead ∧
      (settings.includeTests = false ↔ word .excludeTests = Text.Utf8.bytes "true") := by
  have hworkspace := (h .workspace (by decide)).get_path rfl
  obtain ⟨oracle, horacle, hname⟩ := (h .oracle (by decide)).get_oracle
  have hgopls := (h .gopls (by decide)).get_path rfl
  obtain ⟨count, hcount, hread⟩ := (h .lookahead (by decide)).get_count rfl
  obtain ⟨set, hset, htrue⟩ := (h .excludeTests (by decide)).get_switch rfl
  refine ⟨⟨word .workspace, oracle, word .gopls, count, !set⟩, ?_, rfl, hname, rfl, hread, ?_⟩
  · unfold settings
    rw [hworkspace, horacle, hgopls, hcount, hset]
    rfl
  · rw [← htrue]
    exact iff_of_eq (Bool.not_eq_false' set)

end Choices

/-! ## What a level chooses -/

namespace Level.Accepts

variable {level : Level} {environment : Environment} {items : List Item} {argument : Argument}
  {source : Source} {word : Word}

/-- An accepted level chooses the value of the word that it has. -/
theorem exists_choice? (h : level.Accepts environment items)
    (hargument : argument ∈ level.flags ++ level.words)
    (horigin : level.origin? environment items argument = some (source, word)) :
    ∃ value, argument.check word = .ok value ∧
      level.choice? environment items argument = some ⟨source, value⟩ := by
  obtain ⟨value, hvalue⟩ := h.readable argument hargument source word horigin
  refine ⟨value, hvalue, ?_⟩
  rw [Level.choice?, horigin, Option.bind_some, hvalue]
  rfl

/-- An accepted level has a word for each argument that is required. -/
theorem exists_word?_of_mem_words (h : level.Accepts environment items)
    (hargument : argument ∈ level.words) : ∃ word, level.word? items argument = some word := by
  rw [← Option.ne_none_iff_exists', Level.word?, Ne, Option.or_eq_none_iff,
    List.lookup_eq_none_iff]
  rintro ⟨-, hnone⟩
  rw [← List.map_fst_zip (Nat.le_of_eq h.complete.symm)] at hargument
  obtain ⟨pair, hpair, rfl⟩ := List.mem_map.1 hargument
  exact bne_iff_ne.1 (hnone pair hpair) rfl

/-- An accepted level has a word for each argument that is required or has a default. -/
theorem exists_origin? (h : level.Accepts environment items)
    (hrequired : argument ∈ level.words ∨ argument.defaultWord?.isSome = true) :
    ∃ source word, level.origin? environment items argument = some (source, word) := by
  cases hword : level.word? items argument with
  | some word => exact ⟨_, _, Level.origin?_of_word hword⟩
  | none =>
    cases hvariable : environment.word? argument with
    | some word => exact ⟨_, _, Level.origin?_of_variable hword hvariable⟩
    | none =>
      rw [Level.origin?_of_default hword hvariable]
      rcases hrequired with hwords | hdefault
      · obtain ⟨found, hfound⟩ := h.exists_word?_of_mem_words hwords
        rw [hword] at hfound
        cases hfound
      · obtain ⟨found, hfound⟩ := Option.isSome_iff_exists.1 hdefault
        rw [hfound]
        exact ⟨_, _, rfl⟩

end Level.Accepts

/-! ## What a sentence chooses -/

/-- The word that chooses a setting: behind the command, else before it, else in the
environment. -/
def Sentence.word? (sentence : Sentence) (environment : Environment) (argument : Argument) :
    Option Word :=
  (flagged? sentence.below argument).or
    ((flagged? sentence.top argument).or (environment.word? argument))

theorem flagged?_belowItems (sentence : Sentence) (argument : Argument) :
    flagged? sentence.belowItems argument = flagged? sentence.below argument := by
  have hplain : argument ∉ ((sentence.tail.getD []).map Item.plain).filterMap Item.argument? := by
    intro hmem
    obtain ⟨item, hitem, hargument⟩ := List.mem_filterMap.1 hmem
    obtain ⟨word, -, rfl⟩ := List.mem_map.1 hitem
    cases hargument
  rw [Sentence.belowItems, flagged?_append, flagged?_eq_none hplain, Option.or_none]

/-- Settings are those that the words of a sentence and of the environment choose, and the
defaults where there is no word. -/
structure Sentence.Chooses (sentence : Sentence) (environment : Environment)
    (settings : Settings) : Prop where
  workspace : settings.workspace =
    (sentence.word? environment .workspace).getD (Text.Utf8.bytes ".")
  oracle : (Text.Utf8.decode? ((sentence.word? environment .oracle).getD
    (Text.Utf8.bytes "lexical"))).bind Oracle.ofName? = some settings.oracle
  gopls : settings.gopls = (sentence.word? environment .gopls).getD (Text.Utf8.bytes "gopls")
  lookahead : (Text.Utf8.decode? ((sentence.word? environment .lookahead).getD
    (Text.Utf8.bytes "3"))).bind (fun text => Text.readCount? text.toList) =
      some settings.lookahead
  includeTests : settings.includeTests = false ↔
    .switch .excludeTests ∈ sentence.top ∨ .switch .excludeTests ∈ sentence.below ∨
      environment.entries.lookup "GOLENS_EXCLUDE_TESTS" = some (Text.Utf8.bytes "true")

theorem Sentence.Chooses.unique {sentence : Sentence} {environment : Environment}
    {settings other : Settings} (h : sentence.Chooses environment settings)
    (h' : sentence.Chooses environment other) : settings = other := by
  have hworkspace := h.workspace.trans h'.workspace.symm
  have horacle := Option.some.inj (h.oracle.symm.trans h'.oracle)
  have hgopls := h.gopls.trans h'.gopls.symm
  have hlookahead := Option.some.inj (h.lookahead.symm.trans h'.lookahead)
  have htests := h.includeTests.trans h'.includeTests.symm
  cases settings
  cases other
  simp_all

/-- Items exclude tests only by the flag for it. -/
theorem flagged?_excludeTests {level : Level} {items : List Item}
    (hitems : ∀ item ∈ items, item.FitsOn level) :
    (.switch .excludeTests ∈ items ∧
        flagged? items .excludeTests = some (Text.Utf8.bytes "true")) ∨
      (.switch .excludeTests ∉ items ∧ flagged? items .excludeTests = none) := by
  induction items with
  | nil => exact .inr ⟨nofun, rfl⟩
  | cons item items ih =>
    obtain ⟨hitem, hitems⟩ := List.forall_mem_cons.1 hitems
    rw [flagged?_cons, List.mem_cons]
    by_cases hargument : item.argument? = some .excludeTests
    · cases item with
      | option other value joined =>
        cases hargument
        cases hitem.2.1
      | switch other =>
        cases hargument
        exact .inl ⟨.inl rfl, rfl⟩
      | plain word => cases hargument
    · have hne : Item.switch .excludeTests ≠ item := by
        rintro rfl
        exact hargument rfl
      rw [Item.wordFor?_eq_none hargument, Option.none_or]
      simpa [hne] using ih hitems

theorem Argument.exists_defaultWord?_of_setting {argument : Argument}
    (h : argument ∈ Argument.settings) : ∃ word, argument.defaultWord? = some word := by
  rw [← Option.isSome_iff_exists]
  revert argument
  decide

/-- The word that a level has for a setting. -/
theorem Level.origin?_of_setting {argument : Argument} (hglobal : argument ∈ Argument.settings)
    (level : Level) (environment : Environment) (items : List Item) :
    level.origin? environment items argument =
      ((flagged? items argument).map (Source.commandLine, ·)).or
        (((environment.word? argument).map (Source.environment, ·)).or
          (argument.defaultWord?.map (Source.default, ·))) := by
  rw [origin?, word?_of_setting hglobal]

/-- Of what two levels have for a setting, the word that counts is the one behind the command,
else the one before it, else that of the environment, else the default. -/
theorem Sentence.stronger_origin {sentence : Sentence} {environment : Environment}
    {argument : Argument} (hglobal : argument ∈ Argument.settings) {above below : Choice}
    {word word' : Word}
    (habove : Level.top.origin? environment sentence.top argument = some (above.source, word))
    (hbelow : (Level.command sentence.verb).origin? environment sentence.belowItems argument =
      some (below.source, word'))
    (hcheck : argument.check word = .ok above.value)
    (hcheck' : argument.check word' = .ok below.value) :
    argument.check ((sentence.word? environment argument).getD
      (argument.defaultWord?.getD [])) = .ok (above.stronger below).value := by
  rw [Level.origin?_of_setting hglobal] at habove hbelow
  rw [flagged?_belowItems] at hbelow
  unfold word? Choice.stronger
  obtain ⟨source, value⟩ := above
  obtain ⟨source', value'⟩ := below
  cases hbehind : flagged? sentence.below argument with
  | some chosen =>
    rw [hbehind] at hbelow
    cases hbelow
    have hrank : ¬ Source.commandLine.rank < source.rank := by cases source <;> decide
    rw [if_neg hrank]
    exact hcheck'
  | none =>
    rw [hbehind] at hbelow
    cases hbefore : flagged? sentence.top argument with
    | some chosen =>
      rw [hbefore] at habove
      cases habove
      have hrank : source'.rank < Source.commandLine.rank := by
        cases hvariable : environment.word? argument with
        | some found =>
          rw [hvariable] at hbelow
          cases hbelow
          decide
        | none =>
          obtain ⟨found, hdefault⟩ := Argument.exists_defaultWord?_of_setting hglobal
          rw [hvariable, hdefault] at hbelow
          cases hbelow
          decide
      rw [if_pos hrank]
      exact hcheck
    | none =>
      -- Both levels have the same word.
      rw [hbefore, hbelow] at habove
      cases habove
      rw [if_neg (Nat.lt_irrefl _)]
      cases hvariable : environment.word? argument with
      | some found =>
        rw [hvariable] at hbelow
        cases hbelow
        exact hcheck'
      | none =>
        obtain ⟨found, hdefault⟩ := Argument.exists_defaultWord?_of_setting hglobal
        rw [hvariable, hdefault] at hbelow
        cases hbelow
        rw [hdefault]
        exact hcheck'

namespace Reader.Lawful

variable {reader : Reader} {environment : Environment} {sentence : Sentence}
  {invocation : Invocation} {argument : Argument}

/-- What is chosen for a setting is the value of the word that chooses it, or of the default. -/
theorem has_setting (lawful : reader.Lawful) (hformed : sentence.Formed)
    (h : reader.read environment sentence.words = .ok invocation)
    (hglobal : argument ∈ Argument.settings) :
    invocation.top.Has argument
      ((sentence.word? environment argument).getD (argument.defaultWord?.getD [])) := by
  obtain ⟨htop, hbelow⟩ := (lawful.accepts_iff hformed).1 ⟨invocation, h⟩
  have hflag : ∀ level : Level, argument ∈ level.flags ++ level.words := fun level =>
    List.mem_append_left _ (Level.setting_mem_flags hglobal level)
  have hdefault := Option.isSome_iff_exists.2 (Argument.exists_defaultWord?_of_setting hglobal)
  obtain ⟨source, word, horigin⟩ := htop.exists_origin? (.inr hdefault)
  obtain ⟨source', word', horigin'⟩ := hbelow.exists_origin? (.inr hdefault)
  obtain ⟨value, hcheck, hchoice⟩ := htop.exists_choice? (hflag _) horigin
  obtain ⟨value', hcheck', hchoice'⟩ := hbelow.exists_choice? (hflag _) horigin'
  exact ⟨_, lawful.shared hformed h hglobal hchoice hchoice',
    Sentence.stronger_origin hglobal horigin horigin' hcheck hcheck'⟩

/-- The settings of a command line that is accepted are those that its sentence chooses. -/
theorem chooses (lawful : reader.Lawful) (hformed : sentence.Formed)
    (h : reader.read environment sentence.words = .ok invocation) :
    ∃ settings, invocation.top.settings = .ok settings ∧
      sentence.Chooses environment settings := by
  obtain ⟨settings, hsettings, hworkspace, horacle, hgopls, hlookahead, htests⟩ :=
    Choices.exists_settings_of_has fun argument hglobal => lawful.has_setting hformed h hglobal
  refine ⟨settings, hsettings, hworkspace, horacle, hgopls, hlookahead, htests.trans ?_⟩
  unfold Sentence.word?
  show ((_ : Option Word).or (Option.or _ (environment.entries.lookup _))).getD _ = _ ↔ _
  rcases flagged?_excludeTests hformed.below with ⟨hmem, hbelow⟩ | ⟨hmem, hbelow⟩
  · rw [hbelow]
    exact iff_of_true rfl (.inr (.inl hmem))
  · rcases flagged?_excludeTests hformed.top with ⟨hmem', htop⟩ | ⟨hmem', htop⟩
    · rw [hbelow, htop]
      exact iff_of_true rfl (.inl hmem')
    · rw [hbelow, htop, Option.none_or, Option.none_or]
      simp only [hmem, hmem', false_or]
      cases environment.entries.lookup "GOLENS_EXCLUDE_TESTS" with
      | some word => exact Option.some_inj.symm
      | none => exact iff_of_false (by decide) nofun

/-- An argument of the command that is not global has the value of its word. -/
theorem has_own (lawful : reader.Lawful) (hformed : sentence.Formed)
    (h : reader.read environment sentence.words = .ok invocation)
    (hglobal : argument ∉ Argument.settings)
    (hargument : argument ∈ (Level.command sentence.verb).flags ++
      (Level.command sentence.verb).words)
    (hrequired : argument ∈ (Level.command sentence.verb).words ∨
      argument.defaultWord?.isSome = true) :
    ∃ word, invocation.below.Has argument word := by
  obtain ⟨-, hbelow⟩ := (lawful.accepts_iff hformed).1 ⟨invocation, h⟩
  obtain ⟨source, word, horigin⟩ := hbelow.exists_origin? hrequired
  obtain ⟨value, hcheck, hchoice⟩ := hbelow.exists_choice? hargument horigin
  exact ⟨word, _, (lawful.own hformed h hglobal hargument).trans hchoice, hcheck⟩

/-- A command line that is accepted asks for a command. -/
theorem exists_command (lawful : reader.Lawful) (hformed : sentence.Formed)
    (h : reader.read environment sentence.words = .ok invocation) :
    ∃ command, invocation.below.command invocation.verb = .ok command := by
  rw [lawful.verb_eq hformed h]
  have hown := fun argument => @has_own reader environment sentence invocation argument lawful
    hformed h
  unfold Choices.command
  generalize sentence.verb = verb at hown
  cases verb with
  | hints =>
    obtain ⟨_, hfile⟩ := hown .file (by decide) (by decide) (by decide)
    obtain ⟨_, hjson⟩ := hown .json (by decide) (by decide) (by decide)
    obtain ⟨_, hset, -⟩ := hjson.get_switch rfl
    rw [hfile.get_path rfl, hset]
    exact ⟨_, rfl⟩
  | scan =>
    obtain ⟨_, hfile⟩ := hown .file (by decide) (by decide) (by decide)
    obtain ⟨_, hjson⟩ := hown .json (by decide) (by decide) (by decide)
    obtain ⟨_, hset, -⟩ := hjson.get_switch rfl
    rw [hfile.get_path rfl, hset]
    exact ⟨_, rfl⟩
  | navigate =>
    obtain ⟨_, hfile⟩ := hown .file (by decide) (by decide) (by decide)
    obtain ⟨_, hline⟩ := hown .line (by decide) (by decide) (by decide)
    obtain ⟨_, hjson⟩ := hown .json (by decide) (by decide) (by decide)
    obtain ⟨_, hcount, -⟩ := hline.get_count rfl
    obtain ⟨_, hset, -⟩ := hjson.get_switch rfl
    rw [hfile.get_path rfl, hcount, hset]
    exact ⟨_, rfl⟩
  | serve =>
    obtain ⟨_, haddr⟩ := hown .addr (by decide) (by decide) (by decide)
    obtain ⟨_, haddress⟩ := haddr.get_address
    rw [haddress]
    exact ⟨_, rfl⟩
  | mcp => exact ⟨_, rfl⟩

end Reader.Lawful

end Wayfinder.CommandLine
