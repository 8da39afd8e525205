import Wayfinder.Proofs.CommandLine.Grammar

/-!
# Command lines as sentences

The words before the command are read as those of a level, and so are the words behind it.

* `parse_words_eq_ok_iff`: when a sentence is accepted, and what it gives.
* `exists_sentence_of_parse` and `Sentence.Formed.eq_of_words_eq`: the words of an accepted
  command line are those of one sentence and no other.
-/

namespace Wayfinder.CommandLine

/-! ## Before the command -/

/-- A word that begins with two dashes is no command. -/
theorem Verb.ofWord?_of_flag {word name : Word} {value : Option Word}
    (h : Token.ofWord word = .flag name value) :
    Verb.ofWord? word = none ∧ (word == Text.Utf8.bytes "help") = false := by
  constructor
  · cases hverb : Verb.ofWord? word with
    | none => rfl
    | some verb =>
      have hplain : Token.ofWord (Text.Utf8.bytes verb.name) = .plain := by cases verb <;> decide
      rw [Verb.ofWord?_eq_some_iff.1 hverb, hplain] at h
      cases h
  · apply beq_false_of_ne
    rintro rfl
    have hplain : Token.ofWord (Text.Utf8.bytes "help") = .plain := by decide
    rw [hplain] at h
    cases h

theorem readLevel_cons_of_read {level : Level} {progress next : Progress} {word : Word}
    {more : List Word} (h : progress.read level word = .ok next) :
    readLevel level progress (word :: more) = readLevel level next more := by
  rw [readLevel, h]
  rfl

/-- The words before a command are those of a level, and leave no value awaited. -/
theorem exists_front_of_readTop {progress next : Progress} {words more : List Word}
    {verb : Verb} (h : readTop progress words = .ok (next, some (verb, more))) :
    ∃ front, words = front ++ Text.Utf8.bytes verb.name :: more ∧
      readLevel .top progress front = .ok next ∧ next.ended = false ∧ next.awaitsValue = false := by
  induction words generalizing progress with
  | nil => cases h
  | cons word rest ih =>
    have hstep : (progress.read .top word >>= fun read => readTop read rest) =
        .ok (next, some (verb, more)) →
        ∃ front, word :: rest = front ++ Text.Utf8.bytes verb.name :: more ∧
          readLevel .top progress front = .ok next ∧ next.ended = false ∧
          next.awaitsValue = false := by
      intro h
      obtain ⟨read, hread, h⟩ := exists_of_bind_eq_ok h
      obtain ⟨front, rfl, hfront, hnext⟩ := ih h
      exact ⟨word :: front, rfl, (readLevel_cons_of_read hread).trans hfront, hnext⟩
    unfold readTop at h
    split at h
    · exact hstep h
    · next hopen =>
      split at h
      · cases h
      · split at h
        · next hverb =>
          cases h
          obtain ⟨hended, hawait⟩ := Bool.or_eq_false_iff.1 (eq_false_of_ne_true hopen)
          exact ⟨[], congrArg (· :: more) (Verb.ofWord?_eq_some_iff.1 hverb), rfl, hended,
            hawait⟩
        · exact hstep h

theorem readTop_verb {progress : Progress} {verb : Verb} {more : List Word}
    (hended : progress.ended = false) (hawait : progress.awaitsValue = false) :
    readTop progress (Text.Utf8.bytes verb.name :: more) = .ok (progress, some (verb, more)) := by
  have hname : Verb.ofWord? (Text.Utf8.bytes verb.name) = some verb :=
    Verb.ofWord?_eq_some_iff.2 rfl
  have hhelp : (Text.Utf8.bytes verb.name == Text.Utf8.bytes "help") = false := by
    cases verb <;> decide
  unfold readTop
  rw [hended, hawait, hhelp, hname]
  rfl

theorem readTop_flag {progress : Progress} {word name : Word} {value : Option Word}
    {more : List Word} (hword : Token.ofWord word = .flag name value) :
    readTop progress (word :: more) =
      progress.read .top word >>= fun next => readTop next more := by
  obtain ⟨hverb, hhelp⟩ := Verb.ofWord?_of_flag hword
  rw [readTop, hverb, hhelp]
  split <;> rfl

theorem readTop_awaited {progress : Progress} {word : Word} {more : List Word}
    (hawait : progress.awaitsValue = true) :
    readTop progress (word :: more) =
      progress.read .top word >>= fun next => readTop next more := by
  rw [readTop, hawait, Bool.or_true]
  rfl

/-- Words before the command are read as those of a level, and leave no value awaited. -/
def ReadsThrough (progress : Progress) (words more : List Word) : Prop :=
  readTop progress (words ++ more) =
      (readLevel .top progress words >>= fun next => readTop next more) ∧
    ∀ next, readLevel .top progress words = .ok next →
      next.ended = false ∧ next.awaitsValue = false

/-- A flag of one word is taken at once. -/
theorem readsThrough_single {progress : Progress} {argument : Argument}
    {value joined : Option Word} {word : Word} {more : List Word}
    (hended : progress.ended = false)
    (hword : Token.ofWord word = .flag (Text.Utf8.bytes argument.flag) joined)
    (hread : progress.read .top word = progress.settle >>= (·.accept argument value)) :
    ReadsThrough progress [word] more := by
  have hlevel : readLevel .top progress [word] = progress.read .top word := by
    rw [readLevel]
    cases progress.read .top word <;> rfl
  unfold ReadsThrough
  rw [hlevel]
  refine ⟨readTop_flag hword, ?_⟩
  intro next hnext
  obtain ⟨hpending, -, hended'⟩ := Progress.settle_accept_eq_ok (hread ▸ hnext)
  exact ⟨hended'.trans hended, Progress.awaitsValue_of_pending_eq_none hpending⟩

/-- A value in a word of its own is no command, even if it is called like one. -/
theorem readsThrough_valued {progress : Progress} {argument : Argument} {value : Word}
    {more : List Word} (hended : progress.ended = false)
    (hflags : argument ∈ Level.top.flags) (htakes : argument.takesValue = true)
    (hplain : Token.ofWord value = .plain) :
    ReadsThrough progress [argument.word, value] more := by
  show readTop progress (_ :: value :: more) = (readLevel .top progress [_, value] >>= _) ∧
    ∀ next, readLevel .top progress [_, value] = _ → _
  rw [readTop_flag (Level.ofWord_word hflags), readLevel,
    Progress.read_valued hended hflags htakes]
  cases hsettle : progress.settle with
  | error rejection =>
    refine ⟨rfl, ?_⟩
    intro next h
    cases h
  | ok settled =>
    have hended' : settled.ended = false := (Progress.settle_eq_ok hsettle).2.2.trans hended
    have hawait : ({ settled with
        pending := some (argument, none) } : Progress).awaitsValue = true := by
      unfold Progress.awaitsValue
      dsimp only
      rw [hended']
      rfl
    have hread : ({ settled with pending := some (argument, none) } : Progress).read .top
        value = .ok { settled with pending := some (argument, some value) } :=
      Progress.read_value hended' rfl hplain
    constructor
    · show readTop { settled with pending := some (argument, none) } (value :: more) =
        (readLevel .top { settled with pending := some (argument, none) } [value] >>= _)
      rw [readTop_awaited hawait, readLevel_cons_of_read hread, hread]
      rfl
    · intro next hnext
      have hnext := (readLevel_cons_of_read hread).symm.trans hnext
      cases hnext
      exact ⟨hended', rfl⟩

theorem readsThrough_item {progress : Progress} {item : Item} (hitem : item.FitsOn .top)
    (hended : progress.ended = false) (more : List Word) :
    ReadsThrough progress item.words more := by
  cases item with
  | option argument value joined =>
    obtain ⟨hflags, htakes, hvalue⟩ := hitem
    cases joined with
    | true =>
      exact readsThrough_single hended (Level.ofWord_joined argument value)
        (Progress.read_joined hended hflags htakes value)
    | false =>
      exact readsThrough_valued hended hflags htakes
        (Token.ofWord_eq_plain_iff.2 (hvalue.resolve_left Bool.false_ne_true))
  | switch argument =>
    obtain ⟨hflags, htakes, hhelp, hversion⟩ := hitem
    exact readsThrough_single hended (Level.ofWord_word hflags)
      (Progress.read_switch hended hflags htakes hhelp hversion)
  | plain word => exact absurd rfl hitem.1

theorem readLevel_append (level : Level) (progress : Progress) (words more : List Word) :
    readLevel level progress (words ++ more) =
      readLevel level progress words >>= fun next => readLevel level next more := by
  induction words generalizing progress with
  | nil => rfl
  | cons word words ih =>
    rw [List.cons_append, readLevel, readLevel]
    cases progress.read level word with
    | error rejection => rfl
    | ok next => exact ih next

/-- The items before the command are read as those of a level. -/
theorem readTop_items {progress next : Progress} {items : List Item} {verb verb' : Verb}
    {more more' : List Word} (hitems : ∀ item ∈ items, item.FitsOn .top)
    (hended : progress.ended = false) (hawait : progress.awaitsValue = false) :
    readTop progress (items.flatMap Item.words ++ Text.Utf8.bytes verb.name :: more) =
        .ok (next, some (verb', more')) ↔
      readLevel .top progress (items.flatMap Item.words) = .ok next ∧ verb' = verb ∧
        more' = more := by
  induction items generalizing progress with
  | nil =>
    show readTop progress (Text.Utf8.bytes verb.name :: more) = _ ↔
      .ok progress = Except.ok next ∧ _
    rw [readTop_verb hended hawait]
    constructor
    · intro h
      cases h
      exact ⟨rfl, rfl, rfl⟩
    · rintro ⟨hnext, rfl, rfl⟩
      cases hnext
      rfl
  | cons item items ih =>
    obtain ⟨hitem, hitems⟩ := List.forall_mem_cons.1 hitems
    obtain ⟨hread, hstate⟩ :=
      readsThrough_item hitem hended (items.flatMap Item.words ++ Text.Utf8.bytes verb.name :: more)
    rw [List.flatMap_cons, List.append_assoc, hread, readLevel_append]
    cases hlevel : readLevel .top progress item.words with
    | error rejection =>
      constructor
      · intro h
        cases h
      · intro h
        cases h.1
    | ok read =>
      obtain ⟨hended', hawait'⟩ := hstate read hlevel
      exact ih hitems hended' hawait'

/-! ## Whole command lines -/

/-- Ends a level on which nothing is pending. -/
def closeLevel (level : Level) (environment : Environment) (progress : Progress) :
    Except Rejection Choices := do
  let given := progress.given.map fun (argument, value) =>
    (argument, { source := .commandLine, value := value : Choice })
  let choices ← fill .environment environment.word? level.flags given
  fill .default Argument.defaultWord? level.flags choices

theorem endLevel_eq (level : Level) (environment : Environment) (progress : Progress) :
    endLevel level environment progress = progress.settle >>= closeLevel level environment := rfl

/-- A command is read if its level is, no required word is missing, and the environment is
right. -/
theorem readCommand_eq_ok_iff {environment : Environment} {verb : Verb} {words : List Word}
    {chosen : Choices} :
    readCommand environment verb words = .ok chosen ↔
      ∃ settled, readToEnd (.command verb) (.start (.command verb)) words = .ok settled ∧
        settled.expected = [] ∧ closeLevel (.command verb) environment settled = .ok chosen := by
  unfold readCommand readToEnd
  simp only [endLevel_eq, bind_eq_ok_iff]
  constructor
  · rintro ⟨progress, hread, found, ⟨settled, hsettle, hclose⟩, h⟩
    split at h
    · next hempty =>
      cases h
      exact ⟨settled, ⟨progress, hread, hsettle⟩,
        (Progress.settle_eq_ok hsettle).2.1.trans (List.isEmpty_iff.1 hempty), hclose⟩
    · cases h
  · rintro ⟨settled, ⟨progress, hread, hsettle⟩, hempty, hclose⟩
    have hempty' : progress.expected.isEmpty = true := by
      rw [← (Progress.settle_eq_ok hsettle).2.1, hempty]
      rfl
    refine ⟨progress, hread, chosen, ⟨settled, hsettle, hclose⟩, ?_⟩
    rw [if_pos hempty']
    rfl

theorem parse_eq_ok_iff {environment : Environment} {words : List Word}
    {invocation : Invocation} :
    parse environment words = .ok invocation ↔
      ∃ progress verb more below top,
        readTop (.start .top) words = .ok (progress, some (verb, more)) ∧
        readCommand environment verb more = .ok below ∧
        endLevel .top environment progress = .ok top ∧
        invocation = ({ top := top, verb := verb, below := below } : Invocation).propagate := by
  unfold parse
  rw [bind_eq_ok_iff]
  constructor
  · rintro ⟨⟨progress, command⟩, hread, h⟩
    cases command with
    | some found =>
      obtain ⟨below, hbelow, h⟩ := exists_of_bind_eq_ok h
      obtain ⟨top, htop, h⟩ := exists_of_bind_eq_ok h
      cases h
      exact ⟨progress, found.1, found.2, below, top, hread, hbelow, htop, rfl⟩
    | none =>
      obtain ⟨top, htop, h⟩ := exists_of_bind_eq_ok h
      split at h <;> cases h
  · rintro ⟨progress, verb, more, below, top, hread, hbelow, htop, rfl⟩
    refine ⟨_, hread, ?_⟩
    dsimp only
    rw [hbelow, htop]
    rfl

/-- What is taken on the two levels of an accepted sentence. -/
structure Sentence.Takes (sentence : Sentence) (top below : Progress) : Prop where
  takeAll_top : takeAll sentence.top (.start .top) = .ok top
  takeAll_below : takeAll sentence.belowItems (.start (.command sentence.verb)) = .ok below
  complete : below.expected = []

/-- A sentence is accepted if its items can be taken, all words that the command requires are
there, and the environment is right on both levels. -/
theorem parse_words_eq_ok_iff {environment : Environment} {sentence : Sentence}
    {invocation : Invocation} (hformed : sentence.Formed) :
    parse environment sentence.words = .ok invocation ↔
      ∃ top below above beneath, sentence.Takes top below ∧
        closeLevel .top environment top = .ok above ∧
        closeLevel (.command sentence.verb) environment below = .ok beneath ∧
        invocation = ({ top := above, verb := sentence.verb, below := beneath } :
          Invocation).propagate := by
  have htop : ∀ settled, readToEnd .top (.start .top) (sentence.top.flatMap Item.words) =
      .ok settled ↔ takeAll sentence.top (.start .top) = .ok settled := by
    intro settled
    have h := @readToEnd_items .top (.start .top) settled sentence.top [] hformed.top rfl rfl
    rw [List.append_nil] at h
    rw [h]
    constructor
    · rintro ⟨next, hnext, hsettle⟩
      have hpending := (pending_takeAll hnext).1
      rw [readToEnd_nil, Progress.settle_of_pending_eq_none hpending] at hsettle
      exact hsettle ▸ hnext
    · intro hnext
      exact ⟨settled, hnext, Progress.settle_of_pending_eq_none (pending_takeAll hnext).1⟩
  have hbelow := fun settled => @readToEnd_tail (.command sentence.verb)
    (.start (.command sentence.verb)) settled sentence.below sentence.tail hformed.below rfl rfl
  rw [parse_eq_ok_iff]
  constructor
  · rintro ⟨progress, verb, more, below, top, hread, hcommand, hend, rfl⟩
    obtain ⟨hlevel, rfl, rfl⟩ := (readTop_items hformed.top rfl rfl).1 hread
    obtain ⟨settled, hsettle, hclose⟩ := exists_of_bind_eq_ok hend
    obtain ⟨_, hsettled, hempty, hcloseBelow⟩ := readCommand_eq_ok_iff.1 hcommand
    obtain ⟨next, hnext, rfl⟩ := (hbelow _).1 hsettled
    exact ⟨settled, next, top, below,
      ⟨(htop settled).1 (bind_eq_ok_iff.2 ⟨progress, hlevel, hsettle⟩), hnext, hempty⟩, hclose,
      hcloseBelow, rfl⟩
  · rintro ⟨top, below, above, beneath, htakes, hclose, hcloseBelow, rfl⟩
    obtain ⟨progress, hlevel, hsettle⟩ := exists_of_bind_eq_ok ((htop top).2 htakes.takeAll_top)
    refine ⟨progress, sentence.verb, sentence.belowWords, beneath, above,
      (readTop_items hformed.top rfl rfl).2 ⟨hlevel, rfl, rfl⟩, ?_,
      bind_eq_ok_iff.2 ⟨top, hsettle, hclose⟩, rfl⟩
    exact readCommand_eq_ok_iff.2 ⟨_, (hbelow _).2 ⟨below, htakes.takeAll_below, rfl⟩,
      htakes.complete, hcloseBelow⟩

/-- The words of an accepted command line are those of a sentence. -/
theorem exists_sentence_of_parse {environment : Environment} {words : List Word}
    {invocation : Invocation} (h : parse environment words = .ok invocation) :
    ∃ sentence : Sentence, sentence.Formed ∧ sentence.words = words := by
  obtain ⟨progress, verb, more, below, top, hread, hcommand, hend, -⟩ := parse_eq_ok_iff.1 h
  obtain ⟨front, rfl, hlevel, hended, -⟩ := exists_front_of_readTop hread
  obtain ⟨settled, hsettle, -⟩ := exists_of_bind_eq_ok hend
  obtain ⟨_, hsettled, -, -⟩ := readCommand_eq_ok_iff.1 hcommand
  have hfront : readToEnd .top (.start .top) front = .ok settled :=
    bind_eq_ok_iff.2 ⟨progress, hlevel, hsettle⟩
  obtain ⟨items, tail, hitems, rfl⟩ := (isPhrase_of_readToEnd rfl (fun _ => rfl) hfront).1 rfl
  obtain ⟨lower, lowerTail, hlower, rfl⟩ :=
    (isPhrase_of_readToEnd rfl (fun heq => by cases heq) hsettled).1 rfl
  -- Two dashes before the command would have ended the flags there.
  have htail : tail = none := by
    obtain ⟨next, -, hnext⟩ := (readToEnd_tail hitems rfl rfl).1 hfront
    have hsame := (Progress.settle_eq_ok hsettle).2.2.trans hended
    rw [hnext] at hsame
    exact Option.isSome_eq_false_iff.1 hsame |> Option.isNone_iff_eq_none.1
  subst htail
  refine ⟨⟨items, verb, lower, lowerTail⟩, ⟨hitems, hlower⟩, ?_⟩
  simp [Sentence.words, Sentence.belowWords, tailWords]

/-! ## One sentence for each command line -/

namespace Item

/-- The shape of the first word of an item. -/
def token : Item → Token
  | .option argument value true => .flag (Text.Utf8.bytes argument.flag) (some value)
  | .option argument _ false => .flag (Text.Utf8.bytes argument.flag) none
  | .switch argument => .flag (Text.Utf8.bytes argument.flag) none
  | .plain _ => .plain

/-- An item begins with a word of its own shape. -/
theorem FitsOn.exists_first {level : Level} {item : Item} (h : item.FitsOn level) :
    ∃ word rest, item.words = word :: rest ∧ Token.ofWord word = item.token := by
  cases item with
  | option argument value joined =>
    cases joined with
    | true =>
      exact ⟨_, [], rfl, Level.ofWord_joined argument value⟩
    | false =>
      exact ⟨_, [value], rfl, Level.ofWord_word h.1⟩
  | switch argument =>
    exact ⟨_, [], rfl, Level.ofWord_word h.1⟩
  | plain word => exact ⟨word, [], rfl, Token.ofWord_eq_plain_iff.2 h.2⟩

/-- The first word tells which item is written, and where it ends. -/
theorem FitsOn.words_append_inj {level : Level} {item other : Item} {more more' : List Word}
    (h : item.FitsOn level) (h' : other.FitsOn level)
    (hwords : item.words ++ more = other.words ++ more') : item = other ∧ more = more' := by
  have htoken : item.token = other.token := by
    obtain ⟨word, rest, hword, htoken⟩ := h.exists_first
    obtain ⟨word', rest', hword', htoken'⟩ := h'.exists_first
    rw [hword, hword'] at hwords
    rw [← htoken, ← htoken', (List.cons.inj hwords).1]
  cases item with
  | option argument value joined =>
    cases joined with
    | true =>
      cases other with
      | option argument' value' joined' =>
        cases joined' with
        | true =>
          injection htoken with hflag hvalue
          cases Level.flag_inj h.1 h'.1 hflag
          cases hvalue
          exact ⟨rfl, (List.cons.inj hwords).2⟩
        | false => simp [token] at htoken
      | switch argument' => simp [token] at htoken
      | plain word' => cases htoken
    | false =>
      cases other with
      | option argument' value' joined' =>
        cases joined' with
        | true => simp [token] at htoken
        | false =>
          injection htoken with hflag
          cases Level.flag_inj h.1 h'.1 hflag
          obtain ⟨rfl, hmore⟩ := List.cons.inj (List.cons.inj hwords).2
          exact ⟨rfl, hmore⟩
      | switch argument' =>
        injection htoken with hflag
        cases Level.flag_inj h.1 h'.1 hflag
        exact absurd (h.2.1.symm.trans h'.2.1) nofun
      | plain word' => cases htoken
  | switch argument =>
    cases other with
    | option argument' value' joined' =>
      cases joined' with
      | true => simp [token] at htoken
      | false =>
        injection htoken with hflag
        cases Level.flag_inj h.1 h'.1 hflag
        exact absurd (h'.2.1.symm.trans h.2.1) nofun
    | switch argument' =>
      injection htoken with hflag
      cases Level.flag_inj h.1 h'.1 hflag
      exact ⟨rfl, (List.cons.inj hwords).2⟩
    | plain word' => cases htoken
  | plain word =>
    cases other with
    | option argument' value' joined' => cases joined' <;> cases htoken
    | switch argument' => cases htoken
    | plain word' =>
      obtain ⟨rfl, hmore⟩ := List.cons.inj hwords
      exact ⟨rfl, hmore⟩

end Item

/-- Words that do not begin with an item of the level. -/
def Stops (level : Level) : List Word → Prop
  | [] => True
  | word :: _ =>
      Token.ofWord word = .terminator ∨ (level = .top ∧ Token.ofWord word = .plain)

theorem Item.FitsOn.not_stops {level : Level} {item : Item} {more : List Word}
    (h : item.FitsOn level) : ¬ Stops level (item.words ++ more) := by
  obtain ⟨word, rest, hword, htoken⟩ := h.exists_first
  rw [hword]
  intro hstops
  change Token.ofWord word = _ ∨ level = _ ∧ Token.ofWord word = _ at hstops
  rw [htoken] at hstops
  cases item with
  | option argument value joined =>
    rcases hstops with hstops | ⟨-, hstops⟩ <;> cases joined <;> cases hstops
  | switch argument =>
    rcases hstops with hstops | ⟨-, hstops⟩ <;> cases hstops
  | plain word =>
    rcases hstops with hstops | ⟨htop, -⟩
    · cases hstops
    · exact h.1 htop

/-- Words are items in one way, up to where the items stop. -/
theorem flatMap_words_append_inj {level : Level} {items others : List Item}
    {more more' : List Word} (hitems : ∀ item ∈ items, item.FitsOn level)
    (hothers : ∀ item ∈ others, item.FitsOn level) (hmore : Stops level more)
    (hmore' : Stops level more')
    (h : items.flatMap Item.words ++ more = others.flatMap Item.words ++ more') :
    items = others ∧ more = more' := by
  induction items generalizing others with
  | nil =>
    cases others with
    | nil => exact ⟨rfl, h⟩
    | cons other others =>
      rw [List.flatMap_cons, List.append_assoc] at h
      rw [List.flatMap_nil, List.nil_append] at h
      exact absurd (h ▸ hmore) (hothers other List.mem_cons_self).not_stops
  | cons item items ih =>
    obtain ⟨hitem, hitems⟩ := List.forall_mem_cons.1 hitems
    rw [List.flatMap_cons, List.append_assoc] at h
    cases others with
    | nil =>
      rw [List.flatMap_nil, List.nil_append] at h
      exact absurd (h ▸ hmore') hitem.not_stops
    | cons other others =>
      obtain ⟨hother, hrest⟩ := List.forall_mem_cons.1 hothers
      rw [List.flatMap_cons, List.append_assoc] at h
      obtain ⟨heq, hwords⟩ := hitem.words_append_inj hother h
      obtain ⟨hsame, hmore⟩ := ih hitems hrest hwords
      exact ⟨congrArg₂ List.cons heq hsame, hmore⟩

theorem stops_tailWords (level : Level) (tail : Option (List Word)) :
    Stops level (tailWords tail) := by
  cases tail with
  | none => trivial
  | some words => exact .inl (by decide)

theorem tailWords_inj {tail tail' : Option (List Word)} (h : tailWords tail = tailWords tail') :
    tail = tail' := by
  cases tail <;> cases tail' <;> cases h <;> rfl

/-- Two sentences with the same words are one. -/
theorem Sentence.Formed.eq_of_words_eq {sentence other : Sentence} (h : sentence.Formed)
    (h' : other.Formed) (hwords : sentence.words = other.words) : sentence = other := by
  have hstops : ∀ (verb : Verb) (more : List Word),
      Stops .top (Text.Utf8.bytes verb.name :: more) := by
    intro verb more
    exact .inr ⟨rfl, by cases verb <;> decide⟩
  obtain ⟨top, verb, below, tail⟩ := sentence
  obtain ⟨top', verb', below', tail'⟩ := other
  obtain ⟨htop, hrest⟩ := flatMap_words_append_inj h.top h'.top (hstops _ _) (hstops _ _) hwords
  obtain ⟨hname, hbelow⟩ := List.cons.inj hrest
  have hverb : verb = verb' := by
    apply Option.some.inj
    rw [← Verb.ofWord?_eq_some_iff.2 hname, Verb.ofWord?_eq_some_iff.2 rfl]
  subst hverb
  obtain ⟨hitems, htail⟩ := flatMap_words_append_inj h.below h'.below (stops_tailWords _ _)
    (stops_tailWords _ _) hbelow
  cases htop
  cases hitems
  cases tailWords_inj htail
  rfl

end Wayfinder.CommandLine
