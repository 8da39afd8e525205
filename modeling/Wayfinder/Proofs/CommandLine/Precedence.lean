import Wayfinder.Proofs.CommandLine.Choice
import Wayfinder.Proofs.CommandLine.Lawful

/-!
# Precedence of settings

What is chosen before the command reaches behind it.  So an option that is given once may stand
on either side of the command.

* `Sentence.Moves`: one item stands on another side of the command.
* `Level.acceptsBut_insert_iff`: an item about a setting that is not given can be put in anywhere.
* `settings_precedence`: where settings come from, and that the side does not matter, whatever
  lawful reader takes the command line apart.
-/

namespace Wayfinder.CommandLine

/-! ## One item more -/

namespace Level

/-- A level is accepted, whatever it has for one argument. -/
structure AcceptsBut (level : Level) (environment : Environment) (items : List Item)
    (but : Argument) : Prop where
  once : (items.filterMap Item.argument?).Nodup
  complete : (items.filterMap Item.plain?).length = level.words.length
  readable : ∀ argument ∈ level.flags ++ level.words, argument ≠ but → ∀ source word,
    level.origin? environment items argument = some (source, word) →
      ∃ value, argument.check word = .ok value

section Insert

variable {level : Level} {environment : Environment} {items front back : List Item} {item : Item}
  {argument : Argument}

theorem accepts_iff_but (hargument : argument ∈ level.flags ++ level.words) :
    level.Accepts environment items ↔ level.AcceptsBut environment items argument ∧
      ∀ source word, level.origin? environment items argument = some (source, word) →
        ∃ value, argument.check word = .ok value := by
  constructor
  · intro h
    exact ⟨⟨h.once, h.complete, fun other hother _ => h.readable other hother⟩,
      h.readable argument hargument⟩
  · rintro ⟨h, hreadable⟩
    refine ⟨h.once, h.complete, fun other hother => ?_⟩
    by_cases heq : other = argument
    · exact heq ▸ hreadable
    · exact h.readable other hother heq

theorem filterMap_plain?_insert (hitem : item.argument? = some argument) :
    (front ++ item :: back).filterMap Item.plain? = (front ++ back).filterMap Item.plain? := by
  have hnone : item.plain? = none := by
    cases item with
    | option other value joined => rfl
    | switch other => rfl
    | plain word => cases hitem
  rw [List.filterMap_append, List.filterMap_append, List.filterMap_cons_none hnone]

/-- An item matters to its own argument only. -/
theorem word?_insert (hitem : item.argument? = some argument) {other : Argument}
    (hother : other ≠ argument) :
    level.word? (front ++ item :: back) other = level.word? (front ++ back) other := by
  have hnone : item.wordFor? other = none := by
    refine Item.wordFor?_eq_none ?_
    rw [hitem]
    exact fun heq => hother (Option.some.inj heq).symm
  unfold word?
  rw [filterMap_plain?_insert hitem, flagged?_append, flagged?_append, flagged?_cons, hnone,
    Option.none_or]

/-- An item about a setting that is not given can be put in anywhere. -/
theorem acceptsBut_insert_iff (hitem : item.argument? = some argument)
    (honly : argument ∉ (front ++ back).filterMap Item.argument?) :
    level.AcceptsBut environment (front ++ item :: back) argument ↔
      level.AcceptsBut environment (front ++ back) argument := by
  have honce : ((front ++ item :: back).filterMap Item.argument?).Nodup ↔
      ((front ++ back).filterMap Item.argument?).Nodup := by
    rw [List.filterMap_append] at honly
    rw [List.filterMap_append, List.filterMap_append, List.filterMap_cons_some hitem,
      List.perm_middle.nodup_iff, List.nodup_cons]
    exact and_iff_right honly
  have horigin : ∀ other, other ≠ argument →
      level.origin? environment (front ++ item :: back) other =
        level.origin? environment (front ++ back) other := by
    intro other hother
    rw [origin?, origin?, word?_insert hitem hother]
  constructor
  · intro h
    refine ⟨honce.1 h.once, ?_, fun other hmem hother => ?_⟩
    · rw [← filterMap_plain?_insert hitem]
      exact h.complete
    · rw [← horigin other hother]
      exact h.readable other hmem hother
  · intro h
    refine ⟨honce.2 h.once, ?_, fun other hmem hother => ?_⟩
    · rw [filterMap_plain?_insert hitem]
      exact h.complete
    · rw [horigin other hother]
      exact h.readable other hmem hother

end Insert

end Level

/-- The word that items give to the argument of an item that no other is about. -/
theorem flagged?_insert {front back : List Item} {item : Item} {argument : Argument}
    (honly : argument ∉ (front ++ back).filterMap Item.argument?) :
    flagged? (front ++ item :: back) argument = item.wordFor? argument := by
  rw [List.filterMap_append, List.mem_append, not_or] at honly
  rw [flagged?_append, flagged?_cons, flagged?_eq_none honly.1, flagged?_eq_none honly.2,
    Option.none_or, Option.or_none]

/-! ## The side of the command -/

/-- Two sentences that differ in the side of the command on which an item stands.  It chooses a
setting, and no other item is about the same setting. -/
structure Sentence.Moves (item : Item) (before behind : Sentence) : Prop where
  setting : ∃ argument ∈ Argument.settings, item.argument? = some argument
  top : ∃ front back, before.top = front ++ item :: back ∧ behind.top = front ++ back
  verb : behind.verb = before.verb
  below : ∃ left right, before.below = left ++ right ∧ behind.below = left ++ item :: right
  tail : behind.tail = before.tail
  only : ∀ other ∈ behind.top ++ before.below, other.argument? ≠ item.argument?

/-- An item that chooses a setting fits one level as well as another. -/
theorem Item.fitsOn_of_setting {item : Item} {argument : Argument} {level level' : Level}
    (hsetting : argument ∈ Argument.settings) (hitem : item.argument? = some argument)
    (h : item.FitsOn level) : item.FitsOn level' := by
  have hflags := Level.setting_mem_flags hsetting level'
  cases item with
  | option other value joined =>
    cases hitem
    exact ⟨hflags, h.2⟩
  | switch other =>
    cases hitem
    exact ⟨hflags, h.2⟩
  | plain word => cases hitem

namespace Sentence.Moves

variable {item : Item} {before behind : Sentence} {environment : Environment}
  {argument : Argument}

theorem formed_iff (h : Moves item before behind) : before.Formed ↔ behind.Formed := by
  obtain ⟨argument, hsetting, hargument⟩ := h.setting
  obtain ⟨front, back, hbefore, hbehind⟩ := h.top
  obtain ⟨left, right, hbefore', hbehind'⟩ := h.below
  have hfits : ∀ {level level' : Level}, item.FitsOn level → item.FitsOn level' :=
    Item.fitsOn_of_setting hsetting hargument
  constructor
  · intro hformed
    have htop := hformed.top
    have hbelow := hformed.below
    rw [hbefore, List.forall_mem_append, List.forall_mem_cons] at htop
    rw [hbefore', List.forall_mem_append] at hbelow
    constructor
    · rw [hbehind, List.forall_mem_append]
      exact ⟨htop.1, htop.2.2⟩
    · rw [hbehind', h.verb, List.forall_mem_append, List.forall_mem_cons]
      exact ⟨hbelow.1, hfits htop.2.1, hbelow.2⟩
  · intro hformed
    have htop := hformed.top
    have hbelow := hformed.below
    rw [hbehind, List.forall_mem_append] at htop
    rw [hbehind', h.verb, List.forall_mem_append, List.forall_mem_cons] at hbelow
    constructor
    · rw [hbefore, List.forall_mem_append, List.forall_mem_cons]
      exact ⟨htop.1, hfits hbelow.2.1, htop.2⟩
    · rw [hbefore', List.forall_mem_append]
      exact ⟨hbelow.1, hbelow.2.2⟩

/-- The items that both sentences have on a level are not about the setting that moves. -/
theorem not_mem (h : Moves item before behind) (hitem : item.argument? = some argument) :
    argument ∉ behind.top.filterMap Item.argument? ∧
      argument ∉ before.belowItems.filterMap Item.argument? := by
  have honly := h.only
  rw [List.forall_mem_append, hitem] at honly
  constructor
  · intro hmem
    obtain ⟨other, hother, heq⟩ := List.mem_filterMap.1 hmem
    exact honly.1 other hother heq
  · intro hmem
    obtain ⟨other, hother, heq⟩ := List.mem_filterMap.1 hmem
    rcases List.mem_append.1 hother with hother | hother
    · exact honly.2 other hother heq
    · obtain ⟨word, -, rfl⟩ := List.mem_map.1 hother
      cases heq

/-- Behind the command, too, one sentence has what the other has, and the item. -/
theorem exists_belowItems (h : Moves item before behind) :
    ∃ left right, before.belowItems = left ++ right ∧
      behind.belowItems = left ++ item :: right := by
  obtain ⟨left, right, hbefore, hbehind⟩ := h.below
  refine ⟨left, right ++ (before.tail.getD []).map .plain, ?_, ?_⟩
  · rw [belowItems, hbefore, List.append_assoc]
  · rw [belowItems, hbehind, h.tail, List.append_assoc, List.cons_append]

/-- The levels of one sentence are accepted if those of the other are.  One level has the item and
the other has not, whichever that is. -/
theorem accepts_iff (h : Moves item before behind) :
    (Level.top.Accepts environment before.top ∧
        (Level.command before.verb).Accepts environment before.belowItems) ↔
      Level.top.Accepts environment behind.top ∧
        (Level.command behind.verb).Accepts environment behind.belowItems := by
  obtain ⟨argument, hsetting, hitem⟩ := h.setting
  obtain ⟨front, back, hbefore, hbehind⟩ := h.top
  obtain ⟨left, right, hbefore', hbehind'⟩ := h.exists_belowItems
  obtain ⟨htop, hbelow⟩ := h.not_mem hitem
  rw [hbehind] at htop
  rw [hbefore'] at hbelow
  have hflag : ∀ level : Level, argument ∈ level.flags ++ level.words := fun level =>
    List.mem_append_left _ (Level.setting_mem_flags hsetting level)
  rw [hbefore, hbehind, hbefore', hbehind', h.verb]
  simp only [Level.accepts_iff_but (hflag _), Level.acceptsBut_insert_iff hitem htop,
    Level.acceptsBut_insert_iff hitem hbelow, Level.origin?_of_setting hsetting,
    flagged?_insert htop, flagged?_insert hbelow, flagged?_eq_none htop,
    flagged?_eq_none hbelow]
  constructor
  · rintro ⟨⟨htop, hitem⟩, hbelow, hrest⟩
    exact ⟨⟨htop, hrest⟩, hbelow, hitem⟩
  · rintro ⟨⟨htop, hrest⟩, hbelow, hitem⟩
    exact ⟨⟨htop, hitem⟩, hbelow, hrest⟩

/-- The same word chooses a setting on either side. -/
theorem word?_eq (h : Moves item before behind) (argument : Argument) :
    before.word? environment argument = behind.word? environment argument := by
  obtain ⟨front, back, hbefore, hbehind⟩ := h.top
  obtain ⟨left, right, hbefore', hbehind'⟩ := h.exists_belowItems
  unfold Sentence.word?
  rw [← flagged?_belowItems, ← flagged?_belowItems, hbefore, hbehind, hbefore', hbehind']
  by_cases hitem : item.argument? = some argument
  · obtain ⟨htop, hbelow⟩ := h.not_mem hitem
    rw [hbehind] at htop
    rw [hbefore'] at hbelow
    rw [flagged?_insert htop, flagged?_insert hbelow, flagged?_eq_none htop,
      flagged?_eq_none hbelow, Option.none_or, Option.none_or]
  · simp only [flagged?_append, flagged?_cons, Item.wordFor?_eq_none hitem, Option.none_or]

theorem mem_or_mem_iff (h : Moves item before behind) (other : Item) :
    other ∈ before.top ∨ other ∈ before.below ↔ other ∈ behind.top ∨ other ∈ behind.below := by
  obtain ⟨front, back, hbefore, hbehind⟩ := h.top
  obtain ⟨left, right, hbefore', hbehind'⟩ := h.below
  rw [hbefore, hbehind, hbefore', hbehind']
  simp only [List.mem_append, List.mem_cons]
  tauto

/-- The same settings are chosen on either side. -/
theorem chooses (h : Moves item before behind) {settings : Settings}
    (hchooses : before.Chooses environment settings) :
    behind.Chooses environment settings := by
  refine ⟨?_, ?_, ?_, ?_, hchooses.includeTests.trans ?_⟩
  · rw [← h.word?_eq]
    exact hchooses.workspace
  · rw [← h.word?_eq]
    exact hchooses.oracle
  · rw [← h.word?_eq]
    exact hchooses.gopls
  · rw [← h.word?_eq]
    exact hchooses.lookahead
  · rw [← or_assoc, ← or_assoc, h.mem_or_mem_iff]

/-- The level of the command chooses the same for all arguments that are not global. -/
theorem choice?_eq (h : Moves item before behind) (hglobal : argument ∉ Argument.settings) :
    (Level.command before.verb).choice? environment before.belowItems argument =
      (Level.command behind.verb).choice? environment behind.belowItems argument := by
  obtain ⟨moved, hsetting, hitem⟩ := h.setting
  obtain ⟨left, right, hbefore, hbehind⟩ := h.exists_belowItems
  have hne : argument ≠ moved := by
    rintro rfl
    exact hglobal hsetting
  unfold Level.choice? Level.origin?
  rw [hbefore, hbehind, h.verb, Level.word?_insert hitem hne]

end Sentence.Moves

/-! ## What is asked for -/

/-- Only the arguments of a command matter to it. -/
theorem Choices.command_congr {choices other : Choices} {verb : Verb}
    (h : ∀ argument ∉ Argument.settings,
      argument ∈ (Level.command verb).flags ++ (Level.command verb).words →
        choices.lookup argument = other.lookup argument) :
    choices.command verb = other.command verb := by
  unfold command get get?
  cases verb with
  | hints => rw [h .file (by decide) (by decide), h .json (by decide) (by decide)]
  | scan => rw [h .file (by decide) (by decide), h .json (by decide) (by decide)]
  | navigate =>
    rw [h .file (by decide) (by decide), h .line (by decide) (by decide),
      h .json (by decide) (by decide), h .column (by decide) (by decide)]
  | serve => rw [h .addr (by decide) (by decide)]
  | mcp => rfl

namespace Reader.Lawful

variable {reader : Reader} {environment : Environment} {sentence : Sentence}
  {invocation : Invocation} {request : Request}

/-- What a command line that is accepted asks for. -/
theorem exists_request (lawful : reader.Lawful) (hformed : sentence.Formed)
    (h : reader.read environment sentence.words = .ok invocation) :
    ∃ request, reader.request environment sentence.words = .ok request ∧
      sentence.Chooses environment request.settings ∧
      invocation.below.command sentence.verb = .ok request.command := by
  obtain ⟨settings, hsettings, hchooses⟩ := lawful.chooses hformed h
  obtain ⟨command, hcommand⟩ := lawful.exists_command hformed h
  refine ⟨⟨settings, command⟩, ?_, hchooses, ?_⟩
  · rw [request, h]
    show invocation.request = _
    rw [Invocation.request, hsettings, hcommand]
    rfl
  · rw [← lawful.verb_eq hformed h]
    exact hcommand

theorem chooses_of_request (lawful : reader.Lawful) (hformed : sentence.Formed)
    (h : reader.request environment sentence.words = .ok request) :
    sentence.Chooses environment request.settings := by
  obtain ⟨invocation, hread, -⟩ := exists_of_bind_eq_ok h
  obtain ⟨other, hother, hchooses, -⟩ := lawful.exists_request hformed hread
  rw [h] at hother
  cases hother
  exact hchooses

/-- What is asked for does not depend on the side of the command. -/
theorem request_moves_iff (lawful : reader.Lawful) {item : Item} {before behind : Sentence}
    (hmoves : Sentence.Moves item before behind) (hformed : before.Formed) :
    reader.request environment before.words = .ok request ↔
      reader.request environment behind.words = .ok request := by
  have hformed' := hmoves.formed_iff.1 hformed
  have haccepted : (∃ invocation, reader.read environment before.words = .ok invocation) ↔
      ∃ invocation, reader.read environment behind.words = .ok invocation := by
    rw [lawful.accepts_iff hformed, lawful.accepts_iff hformed', hmoves.accepts_iff]
  -- Two readings ask for the same, so it is enough that both are accepted.
  have hsame : ∀ invocation invocation',
      reader.read environment before.words = .ok invocation →
      reader.read environment behind.words = .ok invocation' →
      reader.request environment before.words = reader.request environment behind.words := by
    intro invocation invocation' hread hread'
    obtain ⟨asked, hasked, hchooses, hcommand⟩ := lawful.exists_request hformed hread
    obtain ⟨asked', hasked', hchooses', hcommand'⟩ := lawful.exists_request hformed' hread'
    have hsettings := (hmoves.chooses hchooses).unique hchooses'
    have hcongr : invocation.below.command before.verb =
        invocation'.below.command behind.verb := by
      rw [hmoves.verb]
      refine Choices.command_congr fun argument hglobal hargument => ?_
      rw [lawful.own hformed hread hglobal hargument, hmoves.choice?_eq hglobal,
        lawful.own hformed' hread' hglobal (hmoves.verb ▸ hargument)]
    rw [hcommand, hcommand'] at hcongr
    rw [hasked, hasked']
    obtain ⟨settings, command⟩ := asked
    cases hsettings
    cases hcongr
    rfl
  constructor
  · intro h
    obtain ⟨invocation, hread, -⟩ := exists_of_bind_eq_ok h
    obtain ⟨invocation', hread'⟩ := haccepted.1 ⟨invocation, hread⟩
    rw [← hsame invocation invocation' hread hread']
    exact h
  · intro h
    obtain ⟨invocation', hread', -⟩ := exists_of_bind_eq_ok h
    obtain ⟨invocation, hread⟩ := haccepted.2 ⟨invocation', hread'⟩
    rw [hsame invocation invocation' hread hread']
    exact h

end Reader.Lawful

/-- Precedence of settings.  The words of a command line that asks for something are those of one
sentence, and each setting is what the sentence chooses: behind the command, else before it, else
by the environment, else by default.  Whatever is accepted asks for something.  And an option that
is given once may stand on either side of the command. -/
theorem settings_precedence {reader : Reader} (lawful : reader.Lawful)
    (environment : Environment) :
    (∀ words request, reader.request environment words = .ok request →
      ∃ sentence : Sentence, sentence.Formed ∧ sentence.words = words ∧
        (∀ other : Sentence, other.Formed → other.words = words → other = sentence) ∧
        sentence.Chooses environment request.settings) ∧
    (∀ words invocation, reader.read environment words = .ok invocation →
      ∃ request, reader.request environment words = .ok request) ∧
    ∀ item before behind, Sentence.Moves item before behind →
      (before.Formed ↔ behind.Formed) ∧
      (before.Formed → ∀ request,
        reader.request environment before.words = .ok request ↔
          reader.request environment behind.words = .ok request) := by
  refine ⟨?_, ?_, ?_⟩
  · intro words request h
    obtain ⟨invocation, hread, -⟩ := exists_of_bind_eq_ok h
    obtain ⟨sentence, hformed, rfl⟩ := lawful.written hread
    refine ⟨sentence, hformed, rfl, ?_, lawful.chooses_of_request hformed h⟩
    intro other hother hwords
    exact hother.eq_of_words_eq hformed hwords
  · intro words invocation h
    obtain ⟨sentence, hformed, rfl⟩ := lawful.written h
    obtain ⟨request, hrequest, -⟩ := lawful.exists_request hformed h
    exact ⟨request, hrequest⟩
  · intro item before behind h
    exact ⟨h.formed_iff, fun hformed request => lawful.request_moves_iff h hformed⟩

/-- A sentence with a workspace that is called like a command, and a file that is called like a
flag. -/
def misnamedSentence : Sentence :=
  { top := [.option .workspace (Text.Utf8.bytes "hints") false,
      .option .gopls (Text.Utf8.bytes "tools/gopls") true]
    verb := .hints
    below := [.switch .excludeTests]
    tail := some [Text.Utf8.bytes "--json"] }

theorem settings_precedence_misnamed :
    let environment : Environment :=
      { entries := [("GOLENS_GOPLS", Text.Utf8.bytes "gopls-dev"),
          ("GOLENS_LOOKAHEAD", Text.Utf8.bytes "5")] }
    let behind : Sentence :=
      { misnamedSentence with
        top := [.option .gopls (Text.Utf8.bytes "tools/gopls") true]
        below := [.switch .excludeTests, .option .workspace (Text.Utf8.bytes "hints") false] }
    let request : Request :=
      { settings :=
          { workspace := Text.Utf8.bytes "hints", gopls := Text.Utf8.bytes "tools/gopls",
            lookahead := 5, includeTests := false }
        command := .hints (Text.Utf8.bytes "--json") false }
    misnamedSentence.words = ["--workspace", "hints", "--gopls=tools/gopls", "hints",
      "--exclude-tests", "--", "--json"].map Text.Utf8.bytes ∧
    behind.words = ["--gopls=tools/gopls", "hints", "--exclude-tests", "--workspace", "hints",
      "--", "--json"].map Text.Utf8.bytes ∧
    Reader.wordByWord.request environment misnamedSentence.words = .ok request ∧
    Reader.wordByWord.request environment behind.words = .ok request := by
  intro environment behind request
  have hmoves : Sentence.Moves (.option .workspace (Text.Utf8.bytes "hints") false)
      misnamedSentence behind :=
    { setting := ⟨.workspace, by decide, rfl⟩
      top := ⟨[], [.option .gopls (Text.Utf8.bytes "tools/gopls") true], rfl, rfl⟩
      verb := rfl
      below := ⟨[.switch .excludeTests], [], rfl, rfl⟩
      tail := rfl
      only := by decide }
  have hformed : misnamedSentence.Formed := by decide
  have hrequest : Reader.wordByWord.request environment misnamedSentence.words =
      .ok request := by
    decide +kernel
  refine ⟨by decide, by decide, hrequest, ?_⟩
  obtain ⟨-, -, hside⟩ := settings_precedence Reader.wordByWord_lawful environment
  exact ((hside _ _ _ hmoves).2 hformed request).1 hrequest

end Wayfinder.CommandLine
