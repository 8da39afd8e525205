import Wayfinder.Proofs.CommandLine.Pending

/-!
# The items of a level

Seen as a whole, a level is a list of items, possibly with words behind two dashes, and to read
it is to take the items in turn.

* `Item.take` gives an item to a level, `takeAll` one after another.
* `readToEnd_settle`: nothing depends on when a pending value is checked.
* `readToEnd_tail`: reading a level takes its items one after another.
* `isPhrase_of_readToEnd`: what can be read was written as items.
-/

namespace Wayfinder.CommandLine

/-! ## Items -/

namespace Item

/-- The argument that an item gives, with its value if it has one, and the words that can still
be taken behind it. -/
def place : Item → List Argument → Option (Argument × Option Word × List Argument)
  | .option argument value _, expected => some (argument, some value, expected)
  | .switch argument, expected => some (argument, none, expected)
  | .plain word, argument :: more => some (argument, some word, more)
  | .plain _, [] => none

/-- Takes an item. -/
def take (item : Item) (progress : Progress) : Except Rejection Progress :=
  match item.place progress.expected with
  | some (argument, value, more) => ({ progress with expected := more }).accept argument value
  | none => .error .unknownArgument

theorem take_eq_ok_iff {item : Item} {progress next : Progress} :
    item.take progress = .ok next ↔
      ∃ argument value more checked,
        item.place progress.expected = some (argument, value, more) ∧
        progress.given.lookup argument = none ∧ argument.valueOf value = .ok checked ∧
        next = { progress with
          given := progress.given ++ [(argument, checked)], expected := more } := by
  unfold take
  cases hplace : item.place progress.expected with
  | none =>
    constructor
    · intro h
      cases h
    · rintro ⟨_, _, _, _, h, -⟩
      cases h
  | some placed =>
    dsimp only
    rw [Progress.accept_eq_ok_iff]
    constructor
    · rintro ⟨hnew, checked, hchecked, hnext⟩
      exact ⟨_, _, _, checked, rfl, hnew, hchecked, hnext⟩
    · rintro ⟨argument, value, more, checked, h, hnew, hchecked, hnext⟩
      cases h
      exact ⟨hnew, checked, hchecked, hnext⟩

end Item

/-- Takes items one after another. -/
def takeAll (items : List Item) (progress : Progress) : Except Rejection Progress :=
  items.foldlM (fun progress item => item.take progress) progress

theorem takeAll_cons (item : Item) (items : List Item) (progress : Progress) :
    takeAll (item :: items) progress = item.take progress >>= takeAll items := rfl

theorem takeAll_append (items more : List Item) (progress : Progress) :
    takeAll (items ++ more) progress = takeAll items progress >>= takeAll more :=
  List.foldlM_append

/-! ## Reading a level -/

/-- Reads the words of a level and checks what is still pending. -/
def readToEnd (level : Level) (progress : Progress) (words : List Word) :
    Except Rejection Progress :=
  readLevel level progress words >>= Progress.settle

theorem readToEnd_nil (level : Level) (progress : Progress) :
    readToEnd level progress [] = progress.settle := rfl

theorem readToEnd_cons (level : Level) (progress : Progress) (word : Word)
    (more : List Word) :
    readToEnd level progress (word :: more) =
      progress.read level word >>= fun next => readToEnd level next more := by
  unfold readToEnd
  rw [readLevel]
  cases progress.read level word <;> rfl

/-- What is pending may be checked before the words that follow are read. -/
theorem readToEnd_settle {level : Level} {progress result : Progress} {words : List Word}
    (hawait : progress.awaitsValue = false) :
    readToEnd level progress words = .ok result ↔
      ∃ settled, progress.settle = .ok settled ∧ readToEnd level settled words = .ok result := by
  induction words generalizing progress with
  | nil =>
    simp only [readToEnd_nil]
    constructor
    · intro h
      exact ⟨result, h, Progress.settle_of_pending_eq_none (Progress.settle_eq_ok h).1⟩
    · rintro ⟨settled, hsettle, h⟩
      rwa [Progress.settle_of_pending_eq_none (Progress.settle_eq_ok hsettle).1, ← hsettle] at h
  | cons word more ih =>
    by_cases hword : progress.ended = true ∨ Token.ofWord word ≠ .terminator
    · simp only [readToEnd_cons, bind_eq_ok_iff, ← Progress.settle_read hawait hword]
      constructor
      · rintro ⟨next, ⟨settled, hsettle, hread⟩, h⟩
        exact ⟨settled, hsettle, next, hread, h⟩
      · rintro ⟨settled, hsettle, next, hread, h⟩
        exact ⟨next, ⟨settled, hsettle, hread⟩, h⟩
    · -- Two dashes leave what is pending, and no more flags are read behind them.
      obtain ⟨hended, hterminator⟩ := not_or.1 hword
      have hended := eq_false_of_ne_true hended
      have hterminator := not_not.1 hterminator
      have hbehind : ({ progress with ended := true }).awaitsValue = false := by
        unfold Progress.awaitsValue
        split <;> rfl
      rw [readToEnd_cons, Progress.read_terminator hended hterminator]
      show readToEnd level { progress with ended := true } more = _ ↔ _
      rw [ih hbehind]
      constructor
      · rintro ⟨behind, hbehind, h⟩
        obtain ⟨settled, hsettle, rfl⟩ := Progress.settle_ended.1 hbehind
        refine ⟨settled, hsettle, ?_⟩
        rw [readToEnd_cons, Progress.read_terminator
          ((Progress.settle_eq_ok hsettle).2.2.trans hended) hterminator]
        exact h
      · rintro ⟨settled, hsettle, h⟩
        rw [readToEnd_cons, Progress.read_terminator
          ((Progress.settle_eq_ok hsettle).2.2.trans hended) hterminator] at h
        exact ⟨_, Progress.settle_ended.2 ⟨settled, hsettle, rfl⟩, h⟩

/-- What a word that stands for itself gives, where one is expected. -/
theorem readToEnd_plain {level : Level} {progress result : Progress} {word : Word}
    {more : List Word} (hpending : progress.pending = none)
    (hread : progress.read level word = progress.meetWord level word) :
    readToEnd level progress (word :: more) = .ok result ↔
      ∃ next, (Item.plain word).take progress = .ok next ∧
        readToEnd level next more = .ok result := by
  rw [readToEnd_cons, hread]
  cases hexpected : progress.expected with
  | nil =>
    constructor
    · intro h
      obtain ⟨_, h, _⟩ := exists_of_bind_eq_ok h
      exact absurd h (Progress.meetWord_ne_ok hexpected)
    · rintro ⟨next, h, _⟩
      unfold Item.take at h
      rw [hexpected] at h
      cases h
  | cons argument rest =>
    rw [Progress.meetWord_of_expected hexpected, Progress.settle_of_pending_eq_none hpending]
    have htake : ({ progress with
        pending := some (argument, some word), expected := rest } : Progress).settle =
        (Item.plain word).take progress := by
      unfold Item.take Progress.settle
      rw [hexpected]
      simp only [Item.place, hpending]
    rw [← htake]
    exact readToEnd_settle rfl

namespace Progress

variable {level : Level} {progress : Progress} {argument : Argument}

theorem read_joined (hended : progress.ended = false) (hflags : argument ∈ level.flags)
    (htakes : argument.takesValue = true) (value : Word) :
    progress.read level (argument.word ++ equals :: value) =
      progress.settle >>= (·.accept argument (some value)) := by
  rw [read_flag hended (Level.ofWord_joined argument value),
    Level.flag?_flag hflags]
  unfold meetFlag
  dsimp only
  rw [if_pos htakes]

theorem read_valued (hended : progress.ended = false) (hflags : argument ∈ level.flags)
    (htakes : argument.takesValue = true) :
    progress.read level argument.word =
      progress.settle >>= fun settled =>
        .ok { settled with pending := some (argument, none) } := by
  rw [read_flag hended (Level.ofWord_word hflags), Level.flag?_flag hflags]
  unfold meetFlag
  dsimp only
  rw [if_pos htakes]
  rfl

theorem read_switch (hended : progress.ended = false) (hflags : argument ∈ level.flags)
    (htakes : argument.takesValue = false) (hhelp : argument ≠ .help)
    (hversion : argument ≠ .version) :
    progress.read level argument.word =
      progress.settle >>= (·.accept argument none) := by
  rw [read_flag hended (Level.ofWord_word hflags), Level.flag?_flag hflags]
  unfold meetFlag
  dsimp only
  rw [if_neg (by rw [htakes]; exact Bool.false_ne_true), meetSwitch_of_ne hhelp hversion]

end Progress

/-- Reading an item takes it. -/
theorem readToEnd_item {level : Level} {progress result : Progress} {item : Item}
    {more : List Word} (hitem : item.FitsOn level) (hpending : progress.pending = none)
    (hended : progress.ended = false) :
    readToEnd level progress (item.words ++ more) = .ok result ↔
      ∃ next, item.take progress = .ok next ∧ readToEnd level next more = .ok result := by
  have hsettle := Progress.settle_of_pending_eq_none hpending
  cases item with
  | option argument value joined =>
    obtain ⟨hflags, htakes, hvalue⟩ := hitem
    cases joined with
    | true =>
      show readToEnd level progress (_ :: more) = _ ↔ _
      rw [readToEnd_cons, Progress.read_joined hended hflags htakes, hsettle]
      exact bind_eq_ok_iff
    | false =>
      have hplain : Token.ofWord value = .plain :=
        Token.ofWord_eq_plain_iff.2 (hvalue.resolve_left Bool.false_ne_true)
      have hread : ({ progress with pending := some (argument, none) } : Progress).read level
          value = .ok { progress with pending := some (argument, some value) } :=
        Progress.read_value hended rfl hplain
      have htake : ({ progress with
          pending := some (argument, some value) } : Progress).settle =
          (Item.option argument value false).take progress := by
        unfold Item.take Progress.settle
        simp only [Item.place, hpending]
      show readToEnd level progress (_ :: _ :: more) = _ ↔ _
      rw [readToEnd_cons, Progress.read_valued hended hflags htakes, hsettle, ← htake]
      show readToEnd level _ (value :: more) = _ ↔ _
      rw [readToEnd_cons, hread]
      exact readToEnd_settle rfl
  | switch argument =>
    obtain ⟨hflags, htakes, hhelp, hversion⟩ := hitem
    show readToEnd level progress (_ :: more) = _ ↔ _
    rw [readToEnd_cons, Progress.read_switch hended hflags htakes hhelp hversion, hsettle]
    exact bind_eq_ok_iff
  | plain word =>
    exact readToEnd_plain hpending
      (Progress.read_plain hended (Progress.awaitsValue_of_pending_eq_none hpending)
        (Token.ofWord_eq_plain_iff.2 hitem.2))

/-- Taking an item leaves nothing pending. -/
theorem Item.pending_take {item : Item} {progress next : Progress}
    (h : item.take progress = .ok next) :
    next.pending = progress.pending ∧ next.ended = progress.ended := by
  obtain ⟨_, _, _, _, _, _, _, rfl⟩ := Item.take_eq_ok_iff.1 h
  exact ⟨rfl, rfl⟩

theorem pending_takeAll {items : List Item} {progress next : Progress}
    (h : takeAll items progress = .ok next) :
    next.pending = progress.pending ∧ next.ended = progress.ended := by
  induction items generalizing progress with
  | nil =>
    cases h
    exact ⟨rfl, rfl⟩
  | cons item items ih =>
    rw [takeAll_cons] at h
    obtain ⟨taken, htake, h⟩ := exists_of_bind_eq_ok h
    obtain ⟨hpending, hended⟩ := ih h
    exact ⟨hpending.trans (Item.pending_take htake).1, hended.trans (Item.pending_take htake).2⟩

/-- Reading a level takes its items one after another. -/
theorem readToEnd_items {level : Level} {progress result : Progress} {items : List Item}
    {more : List Word} (hitems : ∀ item ∈ items, item.FitsOn level)
    (hpending : progress.pending = none) (hended : progress.ended = false) :
    readToEnd level progress (items.flatMap Item.words ++ more) = .ok result ↔
      ∃ next, takeAll items progress = .ok next ∧ readToEnd level next more = .ok result := by
  induction items generalizing progress with
  | nil =>
    constructor
    · intro h
      exact ⟨progress, rfl, h⟩
    · rintro ⟨next, hnext, h⟩
      cases hnext
      exact h
  | cons item items ih =>
    obtain ⟨hitem, hitems⟩ := List.forall_mem_cons.1 hitems
    rw [List.flatMap_cons, List.append_assoc, readToEnd_item hitem hpending hended, takeAll_cons]
    constructor
    · rintro ⟨taken, htake, h⟩
      obtain ⟨hpending', hended'⟩ := Item.pending_take htake
      obtain ⟨next, hnext, h⟩ :=
        (ih hitems (hpending'.trans hpending) (hended'.trans hended)).1 h
      exact ⟨next, bind_eq_ok_iff.2 ⟨taken, htake, hnext⟩, h⟩
    · rintro ⟨next, hnext, h⟩
      obtain ⟨taken, htake, hnext⟩ := exists_of_bind_eq_ok hnext
      obtain ⟨hpending', hended'⟩ := Item.pending_take htake
      exact ⟨taken, htake,
        (ih hitems (hpending'.trans hpending) (hended'.trans hended)).2 ⟨next, hnext, h⟩⟩

/-- Behind two dashes every word stands for itself. -/
theorem readToEnd_of_ended {level : Level} {progress result : Progress} {words : List Word}
    (hpending : progress.pending = none) (hended : progress.ended = true) :
    readToEnd level progress words = .ok result ↔
      takeAll (words.map .plain) progress = .ok result := by
  induction words generalizing progress with
  | nil =>
    rw [readToEnd_nil, Progress.settle_of_pending_eq_none hpending]
    rfl
  | cons word more ih =>
    rw [readToEnd_plain hpending (Progress.read_of_ended hended), List.map_cons, takeAll_cons,
      bind_eq_ok_iff]
    constructor
    · rintro ⟨next, htake, h⟩
      obtain ⟨hpending', hended'⟩ := Item.pending_take htake
      exact ⟨next, htake, (ih (hpending'.trans hpending) (hended'.trans hended)).1 h⟩
    · rintro ⟨next, htake, h⟩
      obtain ⟨hpending', hended'⟩ := Item.pending_take htake
      exact ⟨next, htake, (ih (hpending'.trans hpending) (hended'.trans hended)).2 h⟩

/-- Items do not look at the dashes before them. -/
theorem Item.take_ended {item : Item} {progress result : Progress} :
    item.take { progress with ended := true } = .ok result ↔
      ∃ next, item.take progress = .ok next ∧ result = { next with ended := true } := by
  simp only [Item.take_eq_ok_iff]
  constructor
  · rintro ⟨argument, value, more, checked, hplace, hnew, hchecked, rfl⟩
    exact ⟨_, ⟨argument, value, more, checked, hplace, hnew, hchecked, rfl⟩, rfl⟩
  · rintro ⟨next, ⟨argument, value, more, checked, hplace, hnew, hchecked, rfl⟩, rfl⟩
    exact ⟨argument, value, more, checked, hplace, hnew, hchecked, rfl⟩

theorem takeAll_ended {items : List Item} {progress result : Progress} :
    takeAll items { progress with ended := true } = .ok result ↔
      ∃ next, takeAll items progress = .ok next ∧ result = { next with ended := true } := by
  induction items generalizing progress with
  | nil =>
    constructor
    · intro h
      exact ⟨progress, rfl, (Except.ok.inj h).symm⟩
    · rintro ⟨next, hnext, rfl⟩
      cases hnext
      rfl
  | cons item items ih =>
    simp only [takeAll_cons, bind_eq_ok_iff, Item.take_ended]
    constructor
    · rintro ⟨_, ⟨taken, htake, rfl⟩, h⟩
      obtain ⟨next, hnext, rfl⟩ := ih.1 h
      exact ⟨next, ⟨taken, htake, hnext⟩, rfl⟩
    · rintro ⟨next, ⟨taken, htake, hnext⟩, rfl⟩
      exact ⟨_, ⟨taken, htake, rfl⟩, ih.2 ⟨next, hnext, rfl⟩⟩

/-- Reading a level with its tail takes the items and then the words of the tail. -/
theorem readToEnd_tail {level : Level} {progress result : Progress} {items : List Item}
    {tail : Option (List Word)} (hitems : ∀ item ∈ items, item.FitsOn level)
    (hpending : progress.pending = none) (hended : progress.ended = false) :
    readToEnd level progress (items.flatMap Item.words ++ tailWords tail) = .ok result ↔
      ∃ next, takeAll (items ++ (tail.getD []).map .plain) progress = .ok next ∧
        result = { next with ended := tail.isSome } := by
  rw [readToEnd_items hitems hpending hended]
  simp only [takeAll_append, bind_eq_ok_iff]
  have hread : ∀ next, takeAll items progress = .ok next →
      (readToEnd level next (tailWords tail) = .ok result ↔
        ∃ last, takeAll ((tail.getD []).map .plain) next = .ok last ∧
          result = { last with ended := tail.isSome }) := by
    intro next hnext
    have hpending' := (pending_takeAll hnext).1.trans hpending
    have hended' := (pending_takeAll hnext).2.trans hended
    cases tail with
    | none =>
      have hsame : ({ next with ended := false } : Progress) = next := by rw [← hended']
      rw [tailWords, readToEnd_nil, Progress.settle_of_pending_eq_none hpending']
      constructor
      · intro h
        exact ⟨next, rfl, (Except.ok.inj h).symm.trans hsame.symm⟩
      · rintro ⟨last, hlast, rfl⟩
        cases hlast
        exact congrArg Except.ok hsame.symm
    | some words =>
      show readToEnd level next ([dash, dash] :: words) = _ ↔ _
      rw [readToEnd_cons, Progress.read_terminator hended' (by decide)]
      show readToEnd level { next with ended := true } words = _ ↔ _
      have hbehind : ({ next with ended := true } : Progress).pending = none := hpending'
      rw [readToEnd_of_ended hbehind rfl, takeAll_ended]
      rfl
  constructor
  · rintro ⟨next, hnext, h⟩
    obtain ⟨last, hlast, h⟩ := (hread next hnext).1 h
    exact ⟨last, ⟨next, hnext, hlast⟩, h⟩
  · rintro ⟨last, ⟨next, hnext, hlast⟩, h⟩
    exact ⟨next, hnext, (hread next hnext).2 ⟨last, hlast, h⟩⟩

/-! ## What is read was written -/

/-- Words that can be written as items, with a tail or without one. -/
def IsPhrase (level : Level) (words : List Word) : Prop :=
  ∃ (items : List Item) (tail : Option (List Word)), (∀ item ∈ items, item.FitsOn level) ∧
    words = items.flatMap Item.words ++ tailWords tail

theorem IsPhrase.cons {level : Level} {words : List Word} (item : Item)
    (hitem : item.FitsOn level) (h : IsPhrase level words) :
    IsPhrase level (item.words ++ words) := by
  obtain ⟨items, tail, hitems, rfl⟩ := h
  refine ⟨item :: items, tail, List.forall_mem_cons.2 ⟨hitem, hitems⟩, ?_⟩
  rw [List.flatMap_cons, List.append_assoc]

/-- An argument without its value is never taken. -/
theorem Progress.settle_ne_ok {progress next : Progress} {argument : Argument}
    (hpending : progress.pending = some (argument, none)) (htakes : argument.takesValue = true) :
    progress.settle ≠ .ok next := by
  intro h
  unfold settle at h
  rw [hpending] at h
  obtain ⟨-, checked, h, -⟩ := accept_eq_ok_iff.1 h
  unfold Argument.valueOf at h
  rw [htakes] at h
  cases h

/-- Behind a flag that takes a value, nothing but a plain word can be read. -/
theorem plain_of_readToEnd {level : Level} {progress result : Progress} {word : Word}
    {more : List Word} {argument : Argument} (hended : progress.ended = false)
    (hpending : progress.pending = some (argument, none)) (htakes : argument.takesValue = true)
    (h : readToEnd level progress (word :: more) = .ok result) :
    Token.ofWord word = .plain := by
  have hsettle : ∀ {α : Type} {next : Progress → Except Rejection α} {last : α},
      progress.settle >>= next ≠ .ok last := by
    intro α next last h
    obtain ⟨settled, hsettled, _⟩ := exists_of_bind_eq_ok h
    exact Progress.settle_ne_ok hpending htakes hsettled
  rw [readToEnd_cons] at h
  obtain ⟨next, hread, h⟩ := exists_of_bind_eq_ok h
  cases htoken : Token.ofWord word with
  | plain => rfl
  | terminator =>
    rw [Progress.read_terminator hended htoken] at hread
    cases hread
    obtain ⟨behind, hbehind, _⟩ := (readToEnd_settle (by
      unfold Progress.awaitsValue
      split <;> rfl)).1 h
    obtain ⟨settled, hsettled, _⟩ := Progress.settle_ended.1 hbehind
    exact absurd hsettled (Progress.settle_ne_ok hpending htakes)
  | flag name value =>
    obtain ⟨other, -, -, hmeet⟩ := Progress.exists_meetFlag_of_read hended htoken hread
    exact absurd ((Progress.meetFlag_settle _ _ _ _).2 hmeet) hsettle
  | letters letter rest => exact absurd hread (Progress.read_letters_ne_ok hended htoken)

theorem Progress.settle_accept_eq_ok {progress next : Progress} {argument : Argument}
    {value : Option Word} (h : progress.settle >>= (·.accept argument value) = .ok next) :
    next.pending = none ∧ next.expected = progress.expected ∧ next.ended = progress.ended := by
  obtain ⟨settled, hsettle, h⟩ := exists_of_bind_eq_ok h
  have hstate := settle_eq_ok hsettle
  obtain ⟨-, checked, -, rfl⟩ := accept_eq_ok_iff.1 h
  exact hstate

/-- What a word can be where no value is awaited: two dashes, an item, or a flag whose value
follows. -/
theorem Progress.read_cases {level : Level} {progress next : Progress} {word : Word}
    (hended : progress.ended = false) (hawait : progress.awaitsValue = false)
    (htop : level = .top → progress.expected = []) (h : progress.read level word = .ok next) :
    word = [dash, dash] ∨
    (next.ended = false ∧ (level = .top → next.expected = []) ∧
      ((∃ item : Item, item.FitsOn level ∧ item.words = [word] ∧ next.awaitsValue = false) ∨
        ∃ argument ∈ level.flags, argument.takesValue = true ∧
          word = argument.word ∧ next.pending = some (argument, none))) := by
  rcases Token.cases_ofWord word with ⟨hword, _⟩ | ⟨name, hword, htoken⟩ |
    ⟨name, value, hword, htoken⟩ | ⟨letter, rest, htoken⟩ | htoken
  · exact .inl hword
  · -- A flag on its own awaits its value, or is a switch.
    obtain ⟨argument, hflags, rfl, hmeet⟩ := exists_meetFlag_of_read hended htoken h
    dsimp only [meetFlag] at hmeet
    split at hmeet
    · next htakes =>
      obtain ⟨settled, hsettle, hnext⟩ := exists_of_bind_eq_ok hmeet
      obtain ⟨-, hexpected, hbehind⟩ := settle_eq_ok hsettle
      cases hnext
      exact .inr ⟨hbehind.trans hended, fun heq => hexpected.trans (htop heq),
        .inr ⟨argument, hflags, htakes, hword, rfl⟩⟩
    · next htakes =>
      obtain ⟨hhelp, hversion⟩ := ne_of_meetSwitch_eq_ok hmeet
      rw [meetSwitch_of_ne hhelp hversion] at hmeet
      obtain ⟨hpending, hexpected, hbehind⟩ := settle_accept_eq_ok hmeet
      exact .inr ⟨hbehind.trans hended, fun heq => hexpected.trans (htop heq),
        .inl ⟨.switch argument, ⟨hflags, eq_false_of_ne_true htakes, hhelp, hversion⟩,
          congrArg (· :: []) hword.symm, awaitsValue_of_pending_eq_none hpending⟩⟩
  · obtain ⟨argument, hflags, rfl, hmeet⟩ := exists_meetFlag_of_read hended htoken h
    dsimp only [meetFlag] at hmeet
    split at hmeet
    · next htakes =>
      obtain ⟨hpending, hexpected, hbehind⟩ := settle_accept_eq_ok hmeet
      exact .inr ⟨hbehind.trans hended, fun heq => hexpected.trans (htop heq),
        .inl ⟨.option argument value true, ⟨hflags, htakes, .inl rfl⟩,
          congrArg (· :: []) hword.symm, awaitsValue_of_pending_eq_none hpending⟩⟩
    · cases hmeet
  · exact absurd h (read_letters_ne_ok hended htoken)
  · rw [read_plain hended hawait htoken] at h
    cases hexpected : progress.expected with
    | nil => exact absurd h (meetWord_ne_ok hexpected)
    | cons argument rest =>
      rw [meetWord_of_expected hexpected] at h
      obtain ⟨settled, hsettle, hnext⟩ := exists_of_bind_eq_ok h
      have hbehind := (settle_eq_ok hsettle).2.2.trans hended
      have hlevel : level ≠ .top := by
        intro heq
        rw [htop heq] at hexpected
        cases hexpected
      cases hnext
      exact .inr ⟨hbehind, fun heq => absurd heq hlevel,
        .inl ⟨.plain word, ⟨hlevel, Token.ofWord_eq_plain_iff.1 htoken⟩, rfl, rfl⟩⟩

/-- What can be read to the end of a level can be written as items.  Where a value is awaited,
it stands first. -/
theorem isPhrase_of_readToEnd {level : Level} {words : List Word} {progress result : Progress}
    (hended : progress.ended = false) (htop : level = .top → progress.expected = [])
    (h : readToEnd level progress words = .ok result) :
    (progress.awaitsValue = false → IsPhrase level words) ∧
    ∀ argument, progress.pending = some (argument, none) → argument.takesValue = true →
      ∃ value more, words = value :: more ∧ Token.ofWord value = .plain ∧
        IsPhrase level more := by
  induction words generalizing progress with
  | nil =>
    constructor
    · intro _
      exact ⟨[], none, nofun, rfl⟩
    · intro argument hpending htakes
      exact absurd h (Progress.settle_ne_ok hpending htakes)
  | cons word more ih =>
    constructor
    · intro hawait
      rw [readToEnd_cons] at h
      obtain ⟨next, hread, hmore⟩ := exists_of_bind_eq_ok h
      rcases Progress.read_cases hended hawait htop hread with rfl | ⟨hended', htop', hcase⟩
      · exact ⟨[], some more, nofun, rfl⟩
      · obtain ⟨hphrase, hvalue⟩ := ih hended' htop' hmore
        rcases hcase with ⟨item, hitem, hword, hawait'⟩ | ⟨argument, hflags, htakes, rfl, hpending⟩
        · have := (hphrase hawait').cons item hitem
          rwa [hword] at this
        · obtain ⟨value, rest, rfl, hplain, hrest⟩ := hvalue argument hpending htakes
          exact hrest.cons (.option argument value false)
            ⟨hflags, htakes, .inr (Token.ofWord_eq_plain_iff.1 hplain)⟩
    · intro argument hpending htakes
      have hplain := plain_of_readToEnd hended hpending htakes h
      rw [readToEnd_cons, Progress.read_value hended hpending hplain] at h
      change readToEnd level { progress with pending := some (argument, some word) } more = _ at h
      refine ⟨word, more, rfl, hplain, (ih ?_ ?_ h).1 rfl⟩
      · exact hended
      · exact htop

end Wayfinder.CommandLine
