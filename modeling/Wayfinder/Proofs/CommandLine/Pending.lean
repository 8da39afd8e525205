import Wayfinder.CommandLine.Parse
import Wayfinder.Proofs.CommandLine.Laws
import Wayfinder.Proofs.FileTree
import Mathlib.Data.List.TakeWhile

/-!
# Pending values

The words of a level are read one by one, and a value is kept pending until the next argument
is met.  Nothing depends on that delay but the order of the rejections.

* `Token.cases_ofWord`: the shapes of a word, with the words that have them.
* `Progress.accept_eq_ok_iff`: when an argument is taken, and what it leaves.
* `Progress.settle_read`: words are read as if what is pending had been checked before.
-/

namespace Wayfinder.CommandLine

/-- Two steps succeed together exactly if each of them does. -/
theorem bind_eq_ok_iff {ε α β : Type} {first : Except ε α} {next : α → Except ε β} {result : β} :
    first >>= next = .ok result ↔ ∃ value, first = .ok value ∧ next value = .ok result := by
  constructor
  · exact exists_of_bind_eq_ok
  · rintro ⟨value, rfl, h⟩
    exact h

/-! ## Words -/

namespace Token

/-- The flag behind two dashes has a value if there is an equals sign. -/
theorem cases_flagOf (rest : Word) :
    flagOf rest = .flag rest none ∨
      ∃ name value, rest = name ++ equals :: value ∧ flagOf rest = .flag name (some value) := by
  have hrest : rest.takeWhile (· != equals) ++ rest.dropWhile (· != equals) = rest :=
    List.takeWhile_append_dropWhile
  unfold flagOf
  dsimp only
  split
  case h_1 first value hdrop =>
    have hfirst : first = equals := by
      have hhead := List.head?_dropWhile_not (· != equals) rest
      rw [hdrop] at hhead
      simpa using hhead
    rw [hdrop, hfirst] at hrest
    exact .inr ⟨_, value, hrest.symm, rfl⟩
  case h_2 hdrop =>
    rw [hdrop, List.append_nil] at hrest
    exact .inl (by rw [hrest])

/-- A word is two dashes, or a flag with or without a value, or letters, or plain. -/
theorem cases_ofWord (word : Word) :
    (word = [dash, dash] ∧ ofWord word = .terminator) ∨
    (∃ name, word = dash :: dash :: name ∧ ofWord word = .flag name none) ∨
    (∃ name value, word = dash :: dash :: (name ++ equals :: value) ∧
      ofWord word = .flag name (some value)) ∨
    (∃ letter more, ofWord word = .letters letter more) ∨
    ofWord word = .plain := by
  unfold ofWord
  split
  case h_1 first second rest =>
    split_ifs with hfirst hsecond hempty
    · exact .inr (.inr (.inr (.inr rfl)))
    · exact .inr (.inr (.inr (.inl ⟨_, _, rfl⟩)))
    · rw [bne_iff_ne, not_not] at hfirst hsecond
      rw [hfirst, hsecond, List.isEmpty_iff.1 hempty]
      exact .inl ⟨rfl, rfl⟩
    · rw [bne_iff_ne, not_not] at hfirst hsecond
      rw [hfirst, hsecond]
      rcases cases_flagOf rest with hflag | ⟨name, value, hrest, hflag⟩
      · exact .inr (.inl ⟨rest, rfl, hflag⟩)
      · exact .inr (.inr (.inl ⟨name, value, by rw [← hrest], hflag⟩))
  case h_2 => exact .inr (.inr (.inr (.inr rfl)))

theorem ofWord_eq_plain_iff {word : Word} : ofWord word = .plain ↔ isPlain word = true := by
  rcases word with _ | ⟨first, _ | ⟨second, rest⟩⟩
  · exact ⟨fun _ => rfl, fun _ => rfl⟩
  · exact ⟨fun _ => rfl, fun _ => rfl⟩
  · unfold ofWord isPlain
    dsimp only
    split_ifs with hfirst hsecond hempty
    · exact ⟨fun _ => hfirst, fun _ => rfl⟩
    · exact ⟨nofun, fun h => absurd h hfirst⟩
    · exact ⟨nofun, fun h => absurd h hfirst⟩
    · refine ⟨fun h => ?_, fun h => absurd h hfirst⟩
      rcases cases_flagOf rest with hflag | ⟨name, value, -, hflag⟩
      · cases hflag.symm.trans h
      · cases hflag.symm.trans h

theorem ofWord_of_ne_nil {rest : Word} (hrest : rest ≠ []) :
    ofWord (dash :: dash :: rest) = flagOf rest := by
  cases rest with
  | nil => exact absurd rfl hrest
  | cons first more => rfl

theorem ofWord_flag {name : Word} (hne : name ≠ []) (hname : equals ∉ name) :
    ofWord (dash :: dash :: name) = .flag name none := by
  have hall : ∀ byte ∈ name, (byte != equals) = true :=
    fun byte hbyte => bne_iff_ne.2 fun heq => hname (heq ▸ hbyte)
  rw [ofWord_of_ne_nil hne, flagOf, List.dropWhile_eq_nil_iff.2 hall,
    List.takeWhile_eq_self_iff.2 hall]

theorem ofWord_joined {name : Word} (hname : equals ∉ name) (value : Word) :
    ofWord (dash :: dash :: (name ++ equals :: value)) = .flag name (some value) := by
  have hall : ∀ byte ∈ name, (byte != equals) = true :=
    fun byte hbyte => bne_iff_ne.2 fun heq => hname (heq ▸ hbyte)
  rw [ofWord_of_ne_nil (by simp), flagOf, List.dropWhile_append_of_pos hall,
    List.takeWhile_append_of_pos hall]
  simp

end Token

theorem Verb.ofWord?_eq_some_iff {word : Word} {verb : Verb} :
    ofWord? word = some verb ↔ word = Text.Utf8.bytes verb.name := by
  constructor
  · intro h
    exact (eq_of_beq (List.find?_some
      (p := fun verb : Verb => Text.Utf8.bytes verb.name == word) h)).symm
  · rintro rfl
    cases verb <;> decide

/-! ## Arguments -/

namespace Level

theorem flag_ne_nil {level : Level} {argument : Argument} (h : argument ∈ level.flags) :
    Text.Utf8.bytes argument.flag ≠ [] := by
  revert argument
  cases level with
  | top => decide
  | command verb => cases verb <;> decide

theorem equals_not_mem_flag (argument : Argument) :
    equals ∉ Text.Utf8.bytes argument.flag := by
  cases argument <;> decide

/-- A flag of a level is written behind two dashes. -/
theorem ofWord_word {level : Level} {argument : Argument} (h : argument ∈ level.flags) :
    Token.ofWord argument.word = .flag (Text.Utf8.bytes argument.flag) none :=
  Token.ofWord_flag (flag_ne_nil h) (equals_not_mem_flag argument)

theorem ofWord_joined (argument : Argument) (value : Word) :
    Token.ofWord (argument.word ++ equals :: value) =
      .flag (Text.Utf8.bytes argument.flag) (some value) :=
  Token.ofWord_joined (equals_not_mem_flag argument) value

/-- No two flags of a level have one name. -/
theorem flag?_flag {level : Level} {argument : Argument} (h : argument ∈ level.flags) :
    level.flag? (Text.Utf8.bytes argument.flag) = some argument := by
  revert argument
  cases level with
  | top => decide
  | command verb => cases verb <;> decide

theorem flag_inj {level : Level} {argument other : Argument} (h : argument ∈ level.flags)
    (h' : other ∈ level.flags)
    (hflag : Text.Utf8.bytes argument.flag = Text.Utf8.bytes other.flag) : argument = other := by
  have hsome := flag?_flag h
  rw [hflag, flag?_flag h'] at hsome
  exact (Option.some.inj hsome).symm

theorem mem_flags_of_flag? {level : Level} {name : Word} {argument : Argument}
    (h : level.flag? name = some argument) :
    argument ∈ level.flags ∧ Text.Utf8.bytes argument.flag = name :=
  ⟨List.mem_of_find?_eq_some h, eq_of_beq (List.find?_some
    (p := fun argument : Argument => Text.Utf8.bytes argument.flag == name) h)⟩

/-- Behind one dash stand only switches that ask for help or for the version. -/
theorem letter?_cases {level : Level} {letter : UInt8} {argument : Argument}
    (h : level.letter? letter = some argument) : argument = .help ∨ argument = .version := by
  unfold letter? at h
  split_ifs at h with h1 h2
  · exact .inl (Option.some.inj h).symm
  · exact .inr (Option.some.inj h).symm

end Level

/-- The value of an argument that is met with a word or without one. -/
def Argument.valueOf (argument : Argument) : Option Word → Except Rejection Value
  | some word => argument.check word
  | none =>
      if argument.takesValue then .error .invalidValue
      else argument.check (Text.Utf8.bytes "true")

namespace Progress

/-- An argument is taken if it is new and its value is right, and is then given. -/
theorem accept_eq_ok_iff {progress next : Progress} {argument : Argument}
    {value : Option Word} :
    progress.accept argument value = .ok next ↔
      progress.given.lookup argument = none ∧ ∃ checked, argument.valueOf value = .ok checked ∧
        next = { progress with given := progress.given ++ [(argument, checked)] } := by
  have hgiven : ∀ text : Word,
      ((if (progress.given.lookup argument).isSome then throw .conflict
        else do
          let checked ← argument.check text
          return { progress with given := progress.given ++ [(argument, checked)] } :
          Except Rejection Progress) = .ok next) ↔
        progress.given.lookup argument = none ∧ ∃ checked, argument.check text = .ok checked ∧
          next = { progress with given := progress.given ++ [(argument, checked)] } := by
    intro text
    cases hlookup : progress.given.lookup argument with
    | some value =>
      constructor
      · intro h
        cases h
      · intro h
        cases h.1
    | none =>
      show (argument.check text >>= _) = _ ↔ _
      rw [bind_eq_ok_iff]
      constructor
      · rintro ⟨checked, hchecked, h⟩
        exact ⟨rfl, checked, hchecked, (Except.ok.inj h).symm⟩
      · rintro ⟨-, checked, hchecked, rfl⟩
        exact ⟨checked, hchecked, rfl⟩
  cases value with
  | some text => exact hgiven text
  | none =>
    unfold accept Argument.valueOf
    cases argument.takesValue with
    | false => exact hgiven (Text.Utf8.bytes "true")
    | true =>
      constructor
      · intro h
        cases h
      · rintro ⟨-, checked, h, -⟩
        cases h

theorem settle_of_pending_eq_none {progress : Progress} (h : progress.pending = none) :
    progress.settle = .ok progress := by
  unfold settle
  rw [h]

/-- Nothing is pending once it is checked, and all but what is given stays. -/
theorem settle_eq_ok {progress next : Progress} (h : progress.settle = .ok next) :
    next.pending = none ∧ next.expected = progress.expected ∧ next.ended = progress.ended := by
  cases hpending : progress.pending with
  | none =>
    rw [settle_of_pending_eq_none hpending] at h
    cases h
    exact ⟨hpending, rfl, rfl⟩
  | some met =>
    unfold settle at h
    rw [hpending] at h
    obtain ⟨-, checked, -, rfl⟩ := accept_eq_ok_iff.1 h
    exact ⟨rfl, rfl, rfl⟩

/-- What is pending is checked in the same way behind two dashes. -/
theorem settle_ended {progress next : Progress} :
    ({ progress with ended := true }).settle = .ok next ↔
      ∃ settled, progress.settle = .ok settled ∧ next = { settled with ended := true } := by
  obtain ⟨given, pending, expected, ended⟩ := progress
  cases pending with
  | none =>
    constructor
    · intro h
      exact ⟨_, rfl, (Except.ok.inj h).symm⟩
    · rintro ⟨settled, h, rfl⟩
      cases h
      rfl
  | some met =>
    simp only [settle, accept_eq_ok_iff]
    constructor
    · rintro ⟨hnew, checked, hchecked, rfl⟩
      exact ⟨_, ⟨hnew, checked, hchecked, rfl⟩, rfl⟩
    · rintro ⟨settled, ⟨hnew, checked, hchecked, rfl⟩, rfl⟩
      exact ⟨hnew, checked, hchecked, rfl⟩

theorem settle_bind_settle (progress : Progress) {α : Type}
    (next : Progress → Except Rejection α) :
    (progress.settle >>= fun settled => settled.settle >>= next) = progress.settle >>= next := by
  cases h : progress.settle with
  | error rejection => rfl
  | ok settled =>
    show settled.settle >>= next = next settled
    rw [settle_of_pending_eq_none (settle_eq_ok h).1]
    rfl

theorem meetWord_of_expected {level : Level} {progress : Progress} {word : Word}
    {argument : Argument} {more : List Argument} (h : progress.expected = argument :: more) :
    progress.meetWord level word = progress.settle >>= fun settled =>
      .ok { settled with pending := some (argument, some word), expected := more } := by
  unfold meetWord
  rw [h]
  rfl

/-- A word that stands for itself is taken only where one is expected. -/
theorem meetWord_ne_ok {level : Level} {progress next : Progress} {word : Word}
    (h : progress.expected = []) : progress.meetWord level word ≠ .ok next := by
  unfold meetWord
  rw [h]
  dsimp only
  split_ifs <;> exact nofun

theorem meetWord_settle (level : Level) (progress next : Progress) (word : Word) :
    (progress.settle >>= fun settled => settled.meetWord level word) = .ok next ↔
      progress.meetWord level word = .ok next := by
  cases hexpected : progress.expected with
  | nil =>
    constructor
    · intro h
      obtain ⟨settled, hsettle, h⟩ := exists_of_bind_eq_ok h
      exact absurd h (meetWord_ne_ok ((settle_eq_ok hsettle).2.1.trans hexpected))
    · intro h
      exact absurd h (meetWord_ne_ok hexpected)
  | cons argument more =>
    rw [meetWord_of_expected hexpected]
    cases hsettle : progress.settle with
    | error rejection => rfl
    | ok settled =>
      show settled.meetWord level word = _ ↔ _
      rw [meetWord_of_expected ((settle_eq_ok hsettle).2.1.trans hexpected),
        settle_of_pending_eq_none (settle_eq_ok hsettle).1]

theorem meetSwitch_of_ne {progress : Progress} {argument : Argument} (hhelp : argument ≠ .help)
    (hversion : argument ≠ .version) :
    progress.meetSwitch argument = progress.settle >>= (·.accept argument none) := by
  unfold meetSwitch
  cases argument with
  | help => exact absurd rfl hhelp
  | version => exact absurd rfl hversion
  | _ => rfl

/-- Nothing is read behind a flag that asks for help or for the version. -/
theorem ne_of_meetSwitch_eq_ok {progress next : Progress} {argument : Argument}
    (h : progress.meetSwitch argument = .ok next) : argument ≠ .help ∧ argument ≠ .version := by
  obtain ⟨settled, _, h⟩ := exists_of_bind_eq_ok h
  constructor <;> rintro rfl <;> cases h

theorem meetSwitch_settle (progress : Progress) (argument : Argument) :
    (progress.settle >>= fun settled => settled.meetSwitch argument) =
      progress.meetSwitch argument :=
  settle_bind_settle progress _

theorem meetFlag_settle (progress next : Progress) (argument : Argument)
    (value : Option Word) :
    (progress.settle >>= fun settled => settled.meetFlag argument value) = .ok next ↔
      progress.meetFlag argument value = .ok next := by
  unfold meetFlag
  split_ifs with htakes
  · rw [settle_bind_settle]
  · cases value with
    | none =>
      dsimp only
      rw [meetSwitch_settle]
    | some text =>
      constructor
      · intro h
        obtain ⟨_, _, h⟩ := exists_of_bind_eq_ok h
        cases h
      · intro h
        cases h

theorem read_of_ended {level : Level} {progress : Progress} {word : Word}
    (hended : progress.ended = true) :
    progress.read level word = progress.meetWord level word := by
  unfold read
  rw [hended]
  rfl

theorem read_terminator {level : Level} {progress : Progress} {word : Word}
    (hended : progress.ended = false) (hword : Token.ofWord word = .terminator) :
    progress.read level word = .ok { progress with ended := true } := by
  unfold read
  rw [hended, hword]
  rfl

theorem read_flag {level : Level} {progress : Progress} {word name : Word}
    {value : Option Word} (hended : progress.ended = false)
    (hword : Token.ofWord word = .flag name value) :
    progress.read level word =
      match level.flag? name with
      | some argument => progress.meetFlag argument value
      | none => .error .unknownArgument := by
  unfold read
  rw [hended, hword]
  rfl

theorem read_letters {level : Level} {progress : Progress} {word : Word} {letter : UInt8}
    {more : List UInt8} (hended : progress.ended = false)
    (hword : Token.ofWord word = .letters letter more) :
    progress.read level word =
      match level.letter? letter with
      | some argument => progress.meetSwitch argument
      | none => .error .unknownArgument := by
  unfold read
  rw [hended, hword]
  rfl

/-- A flag is read only where the level knows it. -/
theorem exists_meetFlag_of_read {level : Level} {progress next : Progress} {word name : Word}
    {value : Option Word} (hended : progress.ended = false)
    (hword : Token.ofWord word = .flag name value) (h : progress.read level word = .ok next) :
    ∃ argument ∈ level.flags, Text.Utf8.bytes argument.flag = name ∧
      progress.meetFlag argument value = .ok next := by
  rw [read_flag hended hword] at h
  cases hflag : level.flag? name with
  | none =>
    rw [hflag] at h
    cases h
  | some argument =>
    obtain ⟨hflags, hname⟩ := Level.mem_flags_of_flag? hflag
    rw [hflag] at h
    exact ⟨argument, hflags, hname, h⟩

/-- Letters end the reading, with help, with the version, or because they are unknown. -/
theorem read_letters_ne_ok {level : Level} {progress next : Progress} {word : Word}
    {letter : UInt8} {more : List UInt8} (hended : progress.ended = false)
    (hword : Token.ofWord word = .letters letter more) : progress.read level word ≠ .ok next := by
  intro h
  rw [read_letters hended hword] at h
  cases hletter : level.letter? letter with
  | none =>
    rw [hletter] at h
    cases h
  | some argument =>
    rw [hletter] at h
    obtain ⟨hhelp, hversion⟩ := ne_of_meetSwitch_eq_ok h
    exact (Level.letter?_cases hletter).elim hhelp hversion

theorem read_plain {level : Level} {progress : Progress} {word : Word}
    (hended : progress.ended = false) (hawait : progress.awaitsValue = false)
    (hword : Token.ofWord word = .plain) :
    progress.read level word = progress.meetWord level word := by
  unfold awaitsValue at hawait
  unfold read
  rw [hended, hword]
  split at hawait
  · rw [hended] at hawait
    cases hawait
  · next hpending =>
    rw [if_neg Bool.false_ne_true]

/-- A plain word behind a flag that takes a value is that value. -/
theorem read_value {level : Level} {progress : Progress} {word : Word} {argument : Argument}
    (hended : progress.ended = false) (hpending : progress.pending = some (argument, none))
    (hword : Token.ofWord word = .plain) :
    progress.read level word =
      .ok { progress with pending := some (argument, some word) } := by
  unfold read
  rw [if_neg (by rw [hended]; exact Bool.false_ne_true), hword, hpending]

theorem awaitsValue_of_pending_eq_none {progress : Progress} (h : progress.pending = none) :
    progress.awaitsValue = false := by
  unfold awaitsValue
  rw [h]

/-- Words other than two dashes are read as if what is pending had been checked before. -/
theorem settle_read {level : Level} {progress next : Progress} {word : Word}
    (hawait : progress.awaitsValue = false)
    (hword : progress.ended = true ∨ Token.ofWord word ≠ .terminator) :
    (progress.settle >>= fun settled => settled.read level word) = .ok next ↔
      progress.read level word = .ok next := by
  have herror : ∀ (rejection : Rejection) (p : Progress),
      (p.settle >>= fun _ => (.error rejection : Except Rejection Progress)) = .ok next ↔
        (.error rejection : Except Rejection Progress) = .ok next := by
    intro rejection p
    cases p.settle with
    | error other => exact ⟨nofun, nofun⟩
    | ok settled => rfl
  -- How a word is met depends on the word and on the dashes before it alone.
  obtain ⟨meet, hmeet, hread⟩ : ∃ meet : Progress → Except Rejection Progress,
      (∀ p : Progress, (p.settle >>= meet) = .ok next ↔ meet p = .ok next) ∧
      ∀ p : Progress, p.ended = progress.ended → p.awaitsValue = false →
        p.read level word = meet p := by
    cases hended : progress.ended with
    | true =>
      exact ⟨_, fun p => meetWord_settle level p next word, fun p hp _ => read_of_ended hp⟩
    | false =>
      cases htoken : Token.ofWord word with
      | terminator =>
        rcases hword with h | h
        · rw [hended] at h
          cases h
        · exact absurd htoken h
      | flag name value =>
        cases hflag : level.flag? name with
        | none =>
          refine ⟨_, herror .unknownArgument, ?_⟩
          intro p hp _
          rw [read_flag hp htoken, hflag]
        | some argument =>
          refine ⟨_, fun p => meetFlag_settle p next argument value, ?_⟩
          intro p hp _
          rw [read_flag hp htoken, hflag]
      | letters letter more =>
        cases hletter : level.letter? letter with
        | none =>
          refine ⟨_, herror .unknownArgument, ?_⟩
          intro p hp _
          rw [read_letters hp htoken, hletter]
        | some argument =>
          refine ⟨(·.meetSwitch argument), fun p => by rw [meetSwitch_settle], ?_⟩
          intro p hp _
          rw [read_letters hp htoken, hletter]
      | plain =>
        exact ⟨_, fun p => meetWord_settle level p next word,
          fun p hp hp' => read_plain hp hp' htoken⟩
  rw [hread progress rfl hawait, ← hmeet]
  cases hsettle : progress.settle with
  | error rejection => rfl
  | ok settled =>
    show settled.read level word = _ ↔ meet settled = _
    obtain ⟨hpending, -, hended⟩ := settle_eq_ok hsettle
    rw [hread settled hended (awaitsValue_of_pending_eq_none hpending)]

end Progress

end Wayfinder.CommandLine
