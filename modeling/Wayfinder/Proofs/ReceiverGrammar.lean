import Wayfinder.Proofs.Heading

/-!
# The grammar of receiver headings

The pattern for a method with a receiver has a reluctant name in front of an optional mark and
optional blanks, so that a line may match it in many ways, and some of them cut a word in two.
This module states the grammar of the heading and shows that the preferred reading is the only
way to take the line apart that keeps words whole.

* `ReceiverHeading` is a heading in its parts, and `ReceiverHeading.Fits` says that a line
  starts with it and that its words are whole.
* `exists_formed_of_read?`: what the pattern reads is such a heading.  A word is cut only where
  nothing can be read without a name, and there the whole word could have been read as the type.
* `ReceiverHeading.Formed.settled_eq`: a line starts with one heading only.
-/

namespace Wayfinder

/-- The columns of a word that stands behind some characters. -/
def Span.behind (front word : List Char) : Span :=
  ⟨front.length, front.length + word.length⟩

namespace Heading

open Pattern

/-! ## Blanks and words -/

/-- Only blanks are among some characters. -/
def AllBlank (text : List Char) : Prop :=
  ∀ c ∈ text, Text.isBlank c = true

/-- Some characters are a word. -/
structure IsWord (text : List Char) : Prop where
  ne_nil : text ≠ []
  chars : ∀ c ∈ text, Text.isWord c = true

/-- A word that stands between other characters and goes on neither in front nor behind. -/
structure WholeWord (front word behind : List Char) : Prop extends IsWord word where
  front_last : ∀ c ∈ front.getLast?, Text.isWord c = false
  behind_head : ∀ c ∈ behind.head?, Text.isWord c = false

section Runs

variable {kind : Char → Bool} {taken taken' rest rest' : List Char}

theorem takeWhile_run (h : ∀ c ∈ taken, kind c = true) (hrest : ∀ c ∈ rest.head?, kind c = false) :
    (taken ++ rest).takeWhile kind = taken := by
  rw [List.takeWhile_append_of_pos h]
  cases rest with
  | nil => exact List.append_nil taken
  | cons c more => rw [List.takeWhile_cons_of_neg (by simp [hrest c rfl]), List.append_nil]

theorem dropWhile_run (h : ∀ c ∈ taken, kind c = true) (hrest : ∀ c ∈ rest.head?, kind c = false) :
    (taken ++ rest).dropWhile kind = rest := by
  rw [List.dropWhile_append_of_pos h]
  cases rest with
  | nil => rfl
  | cons c more => rw [List.dropWhile_cons_of_neg (by simp [hrest c rfl])]

/-- The longest run of one kind at the start of a text is cut off in one way. -/
theorem run_inj (h : ∀ c ∈ taken, kind c = true) (h' : ∀ c ∈ taken', kind c = true)
    (hrest : ∀ c ∈ rest.head?, kind c = false) (hrest' : ∀ c ∈ rest'.head?, kind c = false)
    (heq : taken ++ rest = taken' ++ rest') : taken = taken' ∧ rest = rest' := by
  refine ⟨?_, ?_⟩
  · rw [← takeWhile_run h hrest, heq, takeWhile_run h' hrest']
  · rw [← dropWhile_run h hrest, heq, dropWhile_run h' hrest']

end Runs

theorem IsWord.not_isBlank_head? {word : List Char} (h : IsWord word) (more : List Char) :
    ∀ c ∈ (word ++ more).head?, Text.isBlank c = false := by
  intro c hc
  rw [List.head?_append_of_ne_nil _ h.ne_nil] at hc
  exact Text.not_isBlank_of_isWord (h.chars c (List.mem_of_head? hc))

theorem IsWord.head?_ne {word : List Char} (h : IsWord word) {c : Char}
    (hc : Text.isWord c = false) (more : List Char) : (word ++ more).head? ≠ some c := by
  intro hhead
  rw [List.head?_append_of_ne_nil _ h.ne_nil] at hhead
  rw [h.chars c (List.mem_of_head? hhead)] at hc
  cases hc

/-- Behind blanks and a character that is in no word, no word goes on. -/
theorem AllBlank.not_isWord_head? {text : List Char} (h : AllBlank text) {c : Char}
    (hc : Text.isWord c = false) (more : List Char) :
    ∀ d ∈ (text ++ c :: more).head?, Text.isWord d = false := by
  intro d hd
  cases text with
  | nil =>
    obtain rfl : c = d := by simpa using hd
    exact hc
  | cons e text =>
    obtain rfl : e = d := by simpa using hd
    exact Text.not_isWord_of_isBlank (h e List.mem_cons_self)

/-- In front of what stands behind such a character and blanks, no word ends. -/
theorem AllBlank.not_isWord_getLast? {text : List Char} (h : AllBlank text) {c : Char}
    (hc : Text.isWord c = false) (front : List Char) :
    ∀ d ∈ (front ++ c :: text).getLast?, Text.isWord d = false := by
  intro d hd
  rw [List.getLast?_append_of_ne_nil _ (List.cons_ne_nil c text)] at hd
  rcases List.mem_cons.1 (List.mem_of_getLast? hd) with rfl | hmem
  · exact hc
  · exact Text.not_isWord_of_isBlank (h d hmem)

theorem AllBlank.append {text more : List Char} (h : AllBlank text) (h' : AllBlank more) :
    AllBlank (text ++ more) :=
  List.forall_mem_append.2 ⟨h, h'⟩

theorem not_isWord_closing : Text.isWord ')' = false := by decide

theorem not_isWord_opening : Text.isWord '(' = false := by decide

theorem not_isWord_star : Text.isWord '*' = false := by decide

/-- The characters of the heading that are neither blank nor part of a word. -/
theorem not_isBlank_punctuation {c : Char} (hc : c ∈ ['(', ')', '*']) (more : List Char) :
    ∀ d ∈ (c :: more).head?, Text.isBlank d = false := by
  intro d hd
  obtain rfl : c = d := by simpa using hd
  simp only [List.mem_cons, List.not_mem_nil, or_false] at hc
  rcases hc with rfl | rfl | rfl <;> decide

/-! ## The end of a heading -/

/-- A heading behind its receiver. -/
structure Ending where
  /-- The blanks in front of the closing parenthesis. -/
  behind : List Char
  /-- The blanks in front of the name of the method. -/
  middle : List Char
  name : List Char
  /-- The blanks in front of the parameters. -/
  gap : List Char
  rest : List Char

namespace Ending

/-- What stands in front of the name. -/
def front (ending : Ending) : List Char :=
  ending.behind ++ ')' :: ending.middle

/-- The heading up to the parenthesis that opens the parameters. -/
def taken (ending : Ending) : List Char :=
  ending.front ++ (ending.name ++ (ending.gap ++ ['(']))

def chars (ending : Ending) : List Char :=
  ending.taken ++ ending.rest

theorem chars_eq (ending : Ending) :
    ending.chars = ending.behind ++
      ')' :: (ending.middle ++ (ending.name ++ (ending.gap ++ '(' :: ending.rest))) := by
  simp [chars, taken, front]

structure Formed (ending : Ending) : Prop where
  behind_blank : AllBlank ending.behind
  middle_blank : AllBlank ending.middle
  name_word : IsWord ending.name
  gap_blank : AllBlank ending.gap

/-- The place behind the end of a heading. -/
def reading (ending : Ending) (place : Reading) : Reading :=
  { column := place.column + ending.taken.length
    rest := ending.rest
    groups := place.groups ++ [(3, ⟨place.column + ending.front.length,
      place.column + ending.front.length + ending.name.length⟩)] }

/-- The part of the pattern that reads the end of a heading. -/
def pattern : Pattern :=
  .sequence [blanks, text ")", blanks, .capture 3 word, blanks, text "("]

theorem mem_readings_pattern {place after : Reading} :
    after ∈ pattern.readings place ↔
      ∃ ending : Ending, place.rest = ending.chars ∧ ending.Formed ∧
        after = ending.reading place := by
  simp only [pattern, Pattern.sequence, blanks, word, text, mem_readings_seq, mem_readings_run,
    mem_readings_capture, mem_readings_literal]
  constructor
  · rintro ⟨_, ⟨behind, _, hbehind, _, hbehindBlank, rfl⟩, _, ⟨_, hclose, rfl⟩, _, ⟨middle, _,
      hmiddle, _, hmiddleBlank, rfl⟩, _, ⟨_, ⟨name, _, hname, hlength, hnameWord, rfl⟩, rfl⟩, _,
      ⟨gap, _, hgap, _, hgapBlank, rfl⟩, rest, hrest, rfl⟩
    simp only at hclose hmiddle hname hgap hrest
    refine ⟨⟨behind, middle, name, gap, rest⟩, ?_, ⟨hbehindBlank, hmiddleBlank,
      ⟨List.ne_nil_of_length_pos hlength, hnameWord⟩, hgapBlank⟩, ?_⟩
    · rw [hbehind, hclose, hmiddle, hname, hgap, hrest, chars_eq]
      rfl
    · simp [reading, taken, front, Nat.add_assoc, Nat.add_comm 1]
  · rintro ⟨⟨behind, middle, name, gap, rest⟩, hplace, hformed, rfl⟩
    refine ⟨_, ⟨behind, ')' :: (middle ++ (name ++ (gap ++ '(' :: rest))), ?_, Nat.zero_le _,
      hformed.behind_blank, rfl⟩, _, ⟨_, rfl, rfl⟩, _, ⟨middle, _, rfl, Nat.zero_le _,
      hformed.middle_blank, rfl⟩, _, ⟨_, ⟨name, _, rfl,
      List.length_pos_of_ne_nil hformed.name_word.ne_nil, hformed.name_word.chars, rfl⟩, rfl⟩, _,
      ⟨gap, _, rfl, Nat.zero_le _, hformed.gap_blank, rfl⟩, rest, rfl, ?_⟩
    · rw [hplace, chars_eq]
    · simp [reading, taken, front, Nat.add_assoc, Nat.add_comm 1]

/-- No word goes on into the end of a heading. -/
theorem Formed.not_isWord_head? {ending : Ending} (h : ending.Formed) :
    ∀ c ∈ ending.chars.head?, Text.isWord c = false := by
  rw [chars_eq]
  exact h.behind_blank.not_isWord_head? not_isWord_closing _

/-- There is only one way to take the end of a heading apart. -/
theorem Formed.unique {ending other : Ending} (h : ending.Formed) (h' : other.Formed)
    (heq : ending.chars = other.chars) : ending = other := by
  obtain ⟨behind, middle, name, gap, rest⟩ := ending
  obtain ⟨behind', middle', name', gap', rest'⟩ := other
  simp only [chars_eq] at heq
  obtain ⟨hbehind, hclosing⟩ := run_inj h.behind_blank h'.behind_blank
    (not_isBlank_punctuation (by decide) _) (not_isBlank_punctuation (by decide) _) heq
  obtain ⟨hmiddle, hname⟩ := run_inj h.middle_blank h'.middle_blank
    (h.name_word.not_isBlank_head? _) (h'.name_word.not_isBlank_head? _) (List.cons.inj hclosing).2
  obtain ⟨hname, hgap⟩ := run_inj h.name_word.chars h'.name_word.chars
    (h.gap_blank.not_isWord_head? not_isWord_opening _)
    (h'.gap_blank.not_isWord_head? not_isWord_opening _) hname
  obtain ⟨hgap, hopening⟩ := run_inj h.gap_blank h'.gap_blank
    (not_isBlank_punctuation (by decide) _) (not_isBlank_punctuation (by decide) _) hgap
  simp only at hbehind hmiddle hname hgap
  rw [hbehind, hmiddle, hname, hgap, (List.cons.inj hopening).2]

end Ending

/-! ## The receiver -/

/-- What stands in the parentheses of a receiver. -/
inductive Owner where
  /-- A type, possibly with the mark of a pointer in front. -/
  | bare (star : Bool) (space type : List Char)
  /-- A name and a type, with the mark of a pointer between them. -/
  | pointer (name gap space type : List Char)
  /-- A name and a type, with nothing but blanks between them. -/
  | named (name gap type : List Char)

/-- The mark of a pointer, if it is there. -/
def mark (star : Bool) : List Char :=
  if star then ['*'] else []

@[simp] theorem mark_true : mark true = ['*'] := rfl

@[simp] theorem mark_false : mark false = [] := rfl

namespace Owner

@[simp] def name? : Owner → Option (List Char)
  | .bare .. => none
  | .pointer name .. => some name
  | .named name .. => some name

@[simp] def type : Owner → List Char
  | .bare _ _ type => type
  | .pointer _ _ _ type => type
  | .named _ _ type => type

/-- What stands between the name, if there is one, and the type. -/
def between : Owner → List Char
  | .bare star space _ => mark star ++ space
  | .pointer _ gap space _ => gap ++ '*' :: space
  | .named _ gap _ => gap

/-- What stands in front of the type. -/
def front (owner : Owner) : List Char :=
  owner.name?.getD [] ++ owner.between

@[simp] theorem front_bare (star : Bool) (space type : List Char) :
    (bare star space type).front = mark star ++ space := rfl

@[simp] theorem front_pointer (name gap space type : List Char) :
    (pointer name gap space type).front = name ++ (gap ++ '*' :: space) := rfl

@[simp] theorem front_named (name gap type : List Char) :
    (named name gap type).front = name ++ gap := rfl

/-- The receiver with the rest of the heading. -/
def charsWith (owner : Owner) (ending : Ending) : List Char :=
  owner.front ++ (owner.type ++ ending.chars)

/-- The place behind a heading whose receiver starts at a place. -/
def reading (owner : Owner) (ending : Ending) (place : Reading) : Reading :=
  ending.reading
    { column := place.column + (owner.front ++ owner.type).length
      rest := ending.chars
      groups := place.groups ++ (owner.name?.map fun name =>
          (1, ⟨place.column, place.column + name.length⟩)).toList ++
        [(2, ⟨place.column + owner.front.length,
          place.column + owner.front.length + owner.type.length⟩)] }

/-- Names and types are words, and blanks are what stands between them. -/
def Formed : Owner → Prop
  | .bare _ space type => AllBlank space ∧ IsWord type
  | .pointer name gap space type => IsWord name ∧ AllBlank gap ∧ AllBlank space ∧ IsWord type
  | .named name gap type => IsWord name ∧ AllBlank gap ∧ gap ≠ [] ∧ IsWord type

theorem Formed.type_word {owner : Owner} (h : owner.Formed) : IsWord owner.type := by
  cases owner with
  | bare star space type => exact h.2
  | pointer name gap space type => exact h.2.2.2
  | named name gap type => exact h.2.2.2

theorem Formed.name_word {owner : Owner} (h : owner.Formed) {name : List Char}
    (hname : owner.name? = some name) : IsWord name := by
  cases owner with
  | bare star space type => cases hname
  | pointer first gap space type =>
    obtain rfl : first = name := Option.some.inj hname
    exact h.1
  | named first gap type =>
    obtain rfl : first = name := Option.some.inj hname
    exact h.1

end Owner

/-! ## Headings -/

/-- The heading of a method with a receiver, in its parts. -/
structure ReceiverHeading where
  /-- The blanks behind the keyword. -/
  lead : List Char
  /-- The blanks in front of the receiver. -/
  indent : List Char
  owner : Owner
  ending : Ending

namespace ReceiverHeading

/-- What stands in front of the receiver. -/
def opening (heading : ReceiverHeading) : List Char :=
  "func".toList ++ (heading.lead ++ '(' :: heading.indent)

/-- What stands in front of the type. -/
def typeFront (heading : ReceiverHeading) : List Char :=
  heading.opening ++ heading.owner.front

/-- What stands in front of the name of the method. -/
def nameFront (heading : ReceiverHeading) : List Char :=
  heading.typeFront ++ (heading.owner.type ++ heading.ending.front)

/-- The heading up to the parenthesis that opens the parameters. -/
def taken (heading : ReceiverHeading) : List Char :=
  heading.nameFront ++ (heading.ending.name ++ (heading.ending.gap ++ ['(']))

/-- The heading with all that stands behind it. -/
def chars (heading : ReceiverHeading) : List Char :=
  heading.opening ++ heading.owner.charsWith heading.ending

theorem chars_eq_taken (heading : ReceiverHeading) :
    heading.chars = heading.taken ++ heading.ending.rest := by
  simp [chars, taken, nameFront, typeFront, Owner.charsWith, Ending.chars, Ending.taken]

/-- The line is such a heading, with something behind it. -/
structure Formed (heading : ReceiverHeading) (line : List Char) : Prop where
  line_eq : line = heading.chars
  lead_blank : AllBlank heading.lead
  indent_blank : AllBlank heading.indent
  owner_formed : heading.owner.Formed
  ending_formed : heading.ending.Formed

/-- What the pattern reads of a heading. -/
def reading (heading : ReceiverHeading) : Reading :=
  heading.owner.reading heading.ending
    ⟨heading.opening.length, heading.owner.charsWith heading.ending, []⟩

end ReceiverHeading

/-! ## What the pattern reads -/

/-- The part of the pattern that reads the name of a receiver. -/
def ownerName : Pattern :=
  .seq (.capture 1 word) blanks

/-- The part of the pattern that reads a heading from its receiver on, without the name of the
receiver. -/
def ownerTail : Pattern :=
  .seq (.maybe (text "*") .longest) (.seq blanks (.seq (.capture 2 word) Ending.pattern))

theorem receiver_eq :
    receiver = .seq (text "func") (.seq blanks (.seq (text "(") (.seq blanks
      (.seq (.maybe ownerName .shortest) ownerTail)))) := rfl

theorem mem_readings_ownerTail {place after : Reading} :
    after ∈ ownerTail.readings place ↔
      ∃ star space type, ∃ ending : Ending,
        place.rest = (Owner.bare star space type).charsWith ending ∧ AllBlank space ∧
        IsWord type ∧ ending.Formed ∧
        after = (Owner.bare star space type).reading ending place := by
  simp only [ownerTail, mem_readings_seq, Ending.mem_readings_pattern, blanks, word, text,
    mem_readings_maybe, mem_readings_run, mem_readings_capture, mem_readings_literal]
  constructor
  · rintro ⟨_, hstar, _, ⟨space, _, hspace, _, hblank, rfl⟩, _, ⟨_, ⟨type, _, htype, hlength, hword,
      rfl⟩, rfl⟩, ending, hending, hformed, rfl⟩
    have htypeWord : IsWord type := ⟨List.ne_nil_of_length_pos hlength, hword⟩
    rcases hstar with rfl | ⟨rest, hrest, rfl⟩
    · simp only at hspace htype hending
      refine ⟨false, space, type, ending, ?_, hblank, htypeWord, hformed, ?_⟩
      · rw [hspace, htype, hending]
        rfl
      · simp [Owner.reading, hending, Nat.add_assoc]
    · simp only at hspace htype hending
      refine ⟨true, space, type, ending, ?_, hblank, htypeWord, hformed, ?_⟩
      · rw [hrest, hspace, htype, hending]
        rfl
      · simp [Owner.reading, hending, Nat.add_assoc, Nat.add_comm 1]
  · rintro ⟨star, space, type, ending, hplace, hblank, htypeWord, hformed, rfl⟩
    have hlength := List.length_pos_of_ne_nil htypeWord.ne_nil
    cases star with
    | false =>
      refine ⟨place, Or.inl rfl, _, ⟨space, type ++ ending.chars, hplace, Nat.zero_le _, hblank,
        rfl⟩, _, ⟨_, ⟨type, ending.chars, rfl, hlength, htypeWord.chars, rfl⟩, rfl⟩, ending, rfl,
        hformed, ?_⟩
      simp [Owner.reading, Nat.add_assoc]
    | true =>
      refine ⟨_, Or.inr ⟨_, hplace, rfl⟩, _, ⟨space, type ++ ending.chars, rfl, Nat.zero_le _,
        hblank, rfl⟩, _, ⟨_, ⟨type, ending.chars, rfl, hlength, htypeWord.chars, rfl⟩, rfl⟩, ending,
        rfl, hformed, ?_⟩
      simp [Owner.reading, Nat.add_assoc, Nat.add_comm 1]

theorem mem_readings_ownerName {place after : Reading} :
    after ∈ ownerName.readings place ↔
      ∃ name gap rest, place.rest = name ++ (gap ++ rest) ∧ IsWord name ∧ AllBlank gap ∧
        after = ⟨place.column + (name ++ gap).length, rest,
          place.groups ++ [(1, ⟨place.column, place.column + name.length⟩)]⟩ := by
  simp only [ownerName, blanks, word, mem_readings_seq, mem_readings_run, mem_readings_capture]
  constructor
  · rintro ⟨_, ⟨_, ⟨name, _, hname, hlength, hword, rfl⟩, rfl⟩, gap, rest, hgap, _, hblank, rfl⟩
    simp only at hgap
    refine ⟨name, gap, rest, by rw [hname, hgap], ⟨List.ne_nil_of_length_pos hlength, hword⟩,
      hblank, ?_⟩
    simp [Nat.add_assoc]
  · rintro ⟨name, gap, rest, hplace, hname, hblank, rfl⟩
    refine ⟨_, ⟨_, ⟨name, gap ++ rest, hplace, List.length_pos_of_ne_nil hname.ne_nil, hname.chars,
      rfl⟩, rfl⟩, gap, rest, rfl, Nat.zero_le _, hblank, ?_⟩
    simp [Nat.add_assoc]

/-- The preferred reading of a sequence goes through a place from which it is preferred. -/
theorem exists_place_of_head? {first second : Pattern} {reading after : Reading}
    (h : ((seq first second).readings reading).head? = some after) :
    ∃ place ∈ first.readings reading, (second.readings place).head? = some after := by
  rw [readings, List.head?_flatMap] at h
  exact List.exists_of_findSome?_eq_some h

/-- A reluctant part takes part in the preferred reading only if nothing can be read without it. -/
theorem reluctant_of_head? {inner second : Pattern} {place after : Reading}
    (h : ((seq (maybe inner .shortest) second).readings place).head? = some after) :
    after ∈ second.readings place ∨
      second.readings place = [] ∧ after ∈ (seq inner second).readings place := by
  rw [readings, readings, List.flatMap_cons] at h
  cases hwithout : second.readings place with
  | nil =>
    rw [hwithout, List.nil_append] at h
    exact Or.inr ⟨rfl, List.mem_of_head? h⟩
  | cons first more =>
    rw [hwithout, List.cons_append, List.head?_cons] at h
    exact Or.inl (List.mem_cons.2 (Or.inl (Option.some.inj h).symm))

/-- What is read from the receiver on is a receiver with the rest of a heading. -/
theorem exists_owner_of_head? {place after : Reading}
    (h : ((seq (maybe ownerName .shortest) ownerTail).readings place).head? = some after) :
    ∃ (owner : Owner) (ending : Ending), place.rest = owner.charsWith ending ∧ owner.Formed ∧
      ending.Formed ∧ after = owner.reading ending place := by
  rcases reluctant_of_head? h with hbare | ⟨hnone, hnamed⟩
  · obtain ⟨star, space, type, ending, hplace, hspace, htype, hending, rfl⟩ :=
      mem_readings_ownerTail.1 hbare
    exact ⟨.bare star space type, ending, hplace, ⟨hspace, htype⟩, hending, rfl⟩
  · obtain ⟨_, hmem, htail⟩ := mem_readings_seq.1 hnamed
    obtain ⟨name, gap, rest, hplace, hname, hgap, rfl⟩ := mem_readings_ownerName.1 hmem
    obtain ⟨star, space, type, ending, rfl, hspace, htype, hending, rfl⟩ :=
      mem_readings_ownerTail.1 htail
    cases star with
    | true =>
      refine ⟨.pointer name gap space type, ending, ?_, ⟨hname, hgap, hspace, htype⟩, hending, ?_⟩
      · rw [hplace]
        simp [Owner.charsWith]
      · simp [Owner.reading, Nat.add_assoc]
    | false =>
      by_cases hblank : gap ++ space = []
      · -- the name and the type are one word, which can be read as the type alone
        obtain ⟨rfl, rfl⟩ := List.append_eq_nil_iff.1 hblank
        have hwhole : IsWord (name ++ type) :=
          ⟨by simp [hname.ne_nil], List.forall_mem_append.2 ⟨hname.chars, htype.chars⟩⟩
        have hrest : place.rest = (Owner.bare false [] (name ++ type)).charsWith ending := by
          rw [hplace]
          simp [Owner.charsWith]
        have hmem := mem_readings_ownerTail.2
          ⟨false, [], name ++ type, ending, hrest, hspace, hwhole, hending, rfl⟩
        rw [hnone] at hmem
        cases hmem
      · refine ⟨.named name (gap ++ space) type, ending, ?_,
          ⟨hname, hgap.append hspace, hblank, htype⟩, hending, ?_⟩
        · rw [hplace]
          simp [Owner.charsWith]
        · simp [Owner.reading, Nat.add_assoc]

/-- From a name and what can stand behind it something is read. -/
theorem exists_mem_readings_named {name gap space type : List Char} {star : Bool} {ending : Ending}
    (hname : IsWord name) (hgap : AllBlank gap) (hspace : AllBlank space) (htype : IsWord type)
    (hending : ending.Formed) {place : Reading}
    (hplace : place.rest = name ++ (gap ++ (Owner.bare star space type).charsWith ending)) :
    ∃ after, after ∈ (seq (maybe ownerName .shortest) ownerTail).readings place := by
  have hnamed := mem_readings_ownerName.2 ⟨name, gap, _, hplace, hname, hgap, rfl⟩
  exact ⟨_, mem_readings_seq.2 ⟨_, mem_readings_maybe.2 (Or.inr hnamed),
    mem_readings_ownerTail.2 ⟨star, space, type, ending, rfl, hspace, htype, hending, rfl⟩⟩⟩

/-- From every receiver with the rest of a heading something is read. -/
theorem exists_mem_readings_owner {owner : Owner} {ending : Ending} (howner : owner.Formed)
    (hending : ending.Formed) {place : Reading} (hplace : place.rest = owner.charsWith ending) :
    ∃ after, after ∈ (seq (maybe ownerName .shortest) ownerTail).readings place := by
  cases owner with
  | bare star space type =>
    have htail := mem_readings_ownerTail.2
      ⟨star, space, type, ending, hplace, howner.1, howner.2, hending, rfl⟩
    exact ⟨_, mem_readings_seq.2 ⟨place, mem_readings_maybe.2 (Or.inl rfl), htail⟩⟩
  | pointer name gap space type =>
    obtain ⟨hname, hgap, hspace, htype⟩ := howner
    have hrest : place.rest = name ++ (gap ++ (Owner.bare true space type).charsWith ending) := by
      rw [hplace]
      simp [Owner.charsWith]
    exact exists_mem_readings_named hname hgap hspace htype hending hrest
  | named name gap type =>
    obtain ⟨hname, hgap, _, htype⟩ := howner
    have hrest : place.rest = name ++ (gap ++ (Owner.bare false [] type).charsWith ending) := by
      rw [hplace]
      simp [Owner.charsWith]
    have hnil : AllBlank [] := by simp [AllBlank]
    exact exists_mem_readings_named hname hgap hnil htype hending hrest

/-- The part of the pattern that reads a heading up to its receiver. -/
def openingPattern : Pattern :=
  .sequence [text "func", blanks, text "(", blanks]

theorem readings_receiver (reading : Reading) :
    receiver.readings reading =
      (seq openingPattern (seq (maybe ownerName .shortest) ownerTail)).readings reading := by
  simp only [receiver_eq, openingPattern, Pattern.sequence, readings, List.flatMap_assoc]

variable {line : List Char}

theorem mem_readings_openingPattern {place : Reading} :
    place ∈ openingPattern.readings (Reading.start line) ↔
      ∃ lead indent rest, line = "func".toList ++ (lead ++ '(' :: indent) ++ rest ∧
        AllBlank lead ∧ AllBlank indent ∧
        place = ⟨("func".toList ++ (lead ++ '(' :: indent)).length, rest, []⟩ := by
  simp only [openingPattern, Pattern.sequence, blanks, text, mem_readings_seq, mem_readings_run,
    mem_readings_literal, Reading.start]
  constructor
  · rintro ⟨_, ⟨_, hfunc, rfl⟩, _, ⟨lead, _, hlead, _, hleadBlank, rfl⟩, _, ⟨_, hopen, rfl⟩, indent,
      rest, hindent, _, hindentBlank, rfl⟩
    simp only at hlead hopen hindent
    refine ⟨lead, indent, rest, ?_, hleadBlank, hindentBlank, ?_⟩
    · rw [hfunc, hlead, hopen, hindent]
      simp
    · simp
      omega
  · rintro ⟨lead, indent, rest, rfl, hleadBlank, hindentBlank, rfl⟩
    refine ⟨_, ⟨lead ++ '(' :: (indent ++ rest), by simp, rfl⟩, _, ⟨lead, _, rfl, Nat.zero_le _,
      hleadBlank, rfl⟩, _, ⟨_, rfl, rfl⟩, indent, rest, rfl, Nat.zero_le _, hindentBlank, ?_⟩
    simp
    omega

/-- What the pattern reads is a heading. -/
theorem exists_formed_of_read? {reading : Reading} (h : receiver.read? line = some reading) :
    ∃ heading : ReceiverHeading, heading.Formed line ∧ reading = heading.reading := by
  rw [read?_eq_head?, readings_receiver] at h
  obtain ⟨place, hplace, hhead⟩ := exists_place_of_head? h
  obtain ⟨lead, indent, rest, rfl, hlead, hindent, rfl⟩ := mem_readings_openingPattern.1 hplace
  obtain ⟨owner, ending, hrest, howner, hending, rfl⟩ := exists_owner_of_head? hhead
  simp only at hrest
  subst hrest
  exact ⟨⟨lead, indent, owner, ending⟩, ⟨rfl, hlead, hindent, howner, hending⟩, rfl⟩

/-- A line that starts with a heading is read. -/
theorem ReceiverHeading.Formed.exists_read? {heading : ReceiverHeading} (h : heading.Formed line) :
    ∃ reading, receiver.read? line = some reading := by
  have hplace := mem_readings_openingPattern.2
    ⟨heading.lead, heading.indent, _, h.line_eq, h.lead_blank, h.indent_blank, rfl⟩
  obtain ⟨after, hafter⟩ := exists_mem_readings_owner h.owner_formed h.ending_formed
    (rfl : Reading.rest ⟨heading.opening.length, heading.owner.charsWith heading.ending, []⟩ = _)
  have hne : receiver.readings (Reading.start line) ≠ [] := by
    rw [readings_receiver]
    exact List.ne_nil_of_mem (mem_readings_seq.2 ⟨_, hplace, hafter⟩)
  rw [read?_eq_head?]
  exact Option.isSome_iff_exists.1 (List.isSome_head?.2 hne)

/-! ## There is one heading on a line -/

namespace Owner

/-- No blanks stand in front of a type without a mark; they belong to what is in front of the
receiver. -/
def Settled : Owner → Prop
  | .bare star space _ => star = false → space = []
  | _ => True

/-- The receiver at the start of a text, read from word to word without any choice. -/
def ofChars (text : List Char) : Owner :=
  if text.head? = some '*' then
    .bare true (text.tail.takeWhile Text.isBlank)
      ((text.tail.dropWhile Text.isBlank).takeWhile Text.isWord)
  else
    let first := text.takeWhile Text.isWord
    let behind := text.dropWhile Text.isWord
    let gap := behind.takeWhile Text.isBlank
    let next := behind.dropWhile Text.isBlank
    if next.head? = some ')' then .bare false [] first
    else if next.head? = some '*' then
      .pointer first gap (next.tail.takeWhile Text.isBlank)
        ((next.tail.dropWhile Text.isBlank).takeWhile Text.isWord)
    else .named first gap (next.takeWhile Text.isWord)

variable {owner : Owner} {ending : Ending}

/-- What is in front of the receiver ends where the receiver starts. -/
theorem Formed.not_isBlank_head? (h : owner.Formed) (hsettled : owner.Settled)
    (ending : Ending) : ∀ c ∈ (owner.charsWith ending).head?, Text.isBlank c = false := by
  cases owner with
  | bare star space type =>
    cases star with
    | true =>
      simp only [charsWith, front_bare, mark_true, List.cons_append]
      exact not_isBlank_punctuation (by decide) _
    | false =>
      obtain rfl : space = [] := hsettled rfl
      exact h.2.not_isBlank_head? _
  | pointer name gap space type =>
    simp only [charsWith, front_pointer, List.append_assoc]
    exact h.1.not_isBlank_head? _
  | named name gap type =>
    simp only [charsWith, front_named, List.append_assoc]
    exact h.1.not_isBlank_head? _

/-- The reader without choices finds the receiver. -/
theorem Formed.ofChars_charsWith (h : owner.Formed) (hsettled : owner.Settled)
    (hending : ending.Formed) : ofChars (owner.charsWith ending) = owner := by
  have hbehind := hending.not_isWord_head?
  cases owner with
  | bare star space type =>
    obtain ⟨hspace, htype⟩ := h
    cases star with
    | true =>
      have hchars : (bare true space type).charsWith ending =
          '*' :: (space ++ (type ++ ending.chars)) := by simp [charsWith]
      have hblank := htype.not_isBlank_head? ending.chars
      rw [hchars, ofChars, List.head?_cons, if_pos rfl, List.tail_cons, takeWhile_run hspace hblank,
        dropWhile_run hspace hblank, takeWhile_run htype.chars hbehind]
    | false =>
      obtain rfl : space = [] := hsettled rfl
      have hchars : (bare false [] type).charsWith ending = type ++ ending.chars := rfl
      have hnext : (ending.chars.dropWhile Text.isBlank).head? = some ')' := by
        rw [ending.chars_eq, dropWhile_run hending.behind_blank
          (not_isBlank_punctuation (by decide) _)]
        rfl
      rw [hchars, ofChars, if_neg (htype.head?_ne not_isWord_star _)]
      simp only [takeWhile_run htype.chars hbehind, dropWhile_run htype.chars hbehind,
        if_pos hnext]
  | pointer name gap space type =>
    obtain ⟨hname, hgap, hspace, htype⟩ := h
    have hchars : (pointer name gap space type).charsWith ending =
        name ++ (gap ++ '*' :: (space ++ (type ++ ending.chars))) := by simp [charsWith]
    have hword := hgap.not_isWord_head? not_isWord_star (space ++ (type ++ ending.chars))
    have hstar := not_isBlank_punctuation (by decide : '*' ∈ ['(', ')', '*'])
      (space ++ (type ++ ending.chars))
    have hblank := htype.not_isBlank_head? ending.chars
    rw [hchars, ofChars, if_neg (hname.head?_ne not_isWord_star _)]
    simp only [takeWhile_run hname.chars hword, dropWhile_run hname.chars hword,
      takeWhile_run hgap hstar, dropWhile_run hgap hstar, List.head?_cons, List.tail_cons,
      takeWhile_run hspace hblank, dropWhile_run hspace hblank, takeWhile_run htype.chars hbehind]
    rfl
  | named name gap type =>
    obtain ⟨hname, hgap, hne, htype⟩ := h
    have hchars : (named name gap type).charsWith ending =
        name ++ (gap ++ (type ++ ending.chars)) := by simp [charsWith]
    have hword : ∀ c ∈ (gap ++ (type ++ ending.chars)).head?, Text.isWord c = false := by
      intro c hc
      rw [List.head?_append_of_ne_nil _ hne] at hc
      exact Text.not_isWord_of_isBlank (hgap c (List.mem_of_head? hc))
    have hblank := htype.not_isBlank_head? ending.chars
    rw [hchars, ofChars, if_neg (hname.head?_ne not_isWord_star _)]
    simp only [takeWhile_run hname.chars hword, dropWhile_run hname.chars hword,
      takeWhile_run hgap hblank, dropWhile_run hgap hblank, takeWhile_run htype.chars hbehind,
      if_neg (htype.head?_ne not_isWord_closing _), if_neg (htype.head?_ne not_isWord_star _)]

end Owner

namespace ReceiverHeading

variable {heading other : ReceiverHeading}

/-- The heading with the blanks in front of a type without a mark counted to those in front of the
receiver.  They are one run of blanks, which no line tells apart. -/
def settled (heading : ReceiverHeading) : ReceiverHeading :=
  match heading.owner with
  | .bare false space type =>
      { heading with indent := heading.indent ++ space, owner := .bare false [] type }
  | _ => heading

theorem owner_settled (heading : ReceiverHeading) : heading.settled.owner.Settled := by
  obtain ⟨lead, indent, owner, ending⟩ := heading
  cases owner with
  | bare star space type =>
    cases star with
    | true => rintro ⟨⟩
    | false => exact fun _ => rfl
  | pointer name gap space type => trivial
  | named name gap type => trivial

theorem Formed.settled (h : heading.Formed line) : heading.settled.Formed line := by
  obtain ⟨lead, indent, owner, ending⟩ := heading
  cases owner with
  | bare star space type =>
    cases star with
    | true => exact h
    | false =>
      obtain ⟨hspace, htype⟩ := h.owner_formed
      refine ⟨?_, h.lead_blank, h.indent_blank.append hspace, ⟨by simp [AllBlank], htype⟩,
        h.ending_formed⟩
      rw [h.line_eq]
      simp [chars, opening, Owner.charsWith, ReceiverHeading.settled]
  | pointer name gap space type => exact h
  | named name gap type => exact h

theorem reading_settled (heading : ReceiverHeading) :
    heading.settled.reading = heading.reading := by
  obtain ⟨lead, indent, owner, ending⟩ := heading
  cases owner with
  | bare star space type =>
    cases star with
    | true => rfl
    | false =>
      have hplace : (opening ⟨lead, indent ++ space, .bare false [] type, ending⟩).length =
          (opening ⟨lead, indent, .bare false space type, ending⟩).length + space.length := by
        simp only [opening, List.length_append, List.length_cons]
        omega
      simp [reading, ReceiverHeading.settled, Owner.reading, hplace, Nat.add_assoc]
  | pointer name gap space type => rfl
  | named name gap type => rfl

/-- A line starts with one heading only. -/
theorem Formed.settled_eq (h : heading.Formed line) (h' : other.Formed line) :
    heading.settled = other.settled := by
  have hformed := h.settled
  have hformed' := h'.settled
  have hsettled := heading.owner_settled
  have hsettled' := other.owner_settled
  generalize heading.settled = first at hformed hsettled ⊢
  generalize other.settled = second at hformed' hsettled' ⊢
  obtain ⟨lead, indent, owner, ending⟩ := first
  obtain ⟨lead', indent', owner', ending'⟩ := second
  have heq := hformed.line_eq.symm.trans hformed'.line_eq
  simp only [chars, opening, List.append_assoc, List.cons_append] at heq
  obtain ⟨hlead, hparen⟩ := run_inj hformed.lead_blank hformed'.lead_blank
    (not_isBlank_punctuation (by decide) _) (not_isBlank_punctuation (by decide) _)
    (List.append_cancel_left heq)
  obtain ⟨hindent, hchars⟩ := run_inj hformed.indent_blank hformed'.indent_blank
    (hformed.owner_formed.not_isBlank_head? hsettled _)
    (hformed'.owner_formed.not_isBlank_head? hsettled' _) (List.cons.inj hparen).2
  simp only at hchars
  have howner : owner = owner' :=
    calc owner = Owner.ofChars (owner.charsWith ending) :=
          (hformed.owner_formed.ofChars_charsWith hsettled hformed.ending_formed).symm
      _ = Owner.ofChars (owner'.charsWith ending') := by rw [hchars]
      _ = owner' := hformed'.owner_formed.ofChars_charsWith hsettled' hformed'.ending_formed
  subst howner
  have hending : ending = ending' := by
    apply hformed.ending_formed.unique hformed'.ending_formed
    exact List.append_cancel_left (List.append_cancel_left hchars)
  simp only at hlead hindent
  rw [hlead, hindent, hending]

/-- The pattern reads the heading of a line. -/
theorem Formed.read?_eq (h : heading.Formed line) : receiver.read? line = some heading.reading := by
  obtain ⟨reading, hread⟩ := h.exists_read?
  obtain ⟨other, hother, rfl⟩ := exists_formed_of_read? hread
  rw [hread, ← reading_settled other, hother.settled_eq h, reading_settled]

/-! ## Words stay whole -/

/-- The line starts with the heading, and its names and its type are whole words of the line. -/
structure Fits (heading : ReceiverHeading) (line : List Char) : Prop extends
    Formed heading line where
  name_whole : ∀ name ∈ heading.owner.name?, WholeWord heading.opening name
    (heading.owner.between ++ (heading.owner.type ++ heading.ending.chars))
  type_whole : WholeWord heading.typeFront heading.owner.type heading.ending.chars
  method_whole : WholeWord heading.nameFront heading.ending.name
    (heading.ending.gap ++ '(' :: heading.ending.rest)

theorem Formed.opening_last (h : heading.Formed line) :
    ∀ c ∈ heading.opening.getLast?, Text.isWord c = false := by
  rw [opening, ← List.append_assoc]
  exact h.indent_blank.not_isWord_getLast? not_isWord_opening _

/-- No word goes on into the type of the receiver. -/
theorem Formed.typeFront_last (h : heading.Formed line) :
    ∀ c ∈ heading.typeFront.getLast?, Text.isWord c = false := by
  have hopening := h.opening_last
  have howner := h.owner_formed
  obtain ⟨lead, indent, owner, ending⟩ := heading
  rw [typeFront]
  cases owner with
  | bare star space type =>
    cases star with
    | true => exact howner.1.not_isWord_getLast? not_isWord_star _
    | false =>
      intro c hc
      rcases List.eq_nil_or_concat' space with rfl | ⟨space, last, rfl⟩
      · exact hopening c (by simpa using hc)
      · obtain rfl : last = c := by simpa [← List.append_assoc] using hc
        exact Text.not_isWord_of_isBlank (howner.1 last (by simp))
  | pointer name gap space type =>
    simp only [Owner.front_pointer, ← List.append_assoc]
    exact howner.2.2.1.not_isWord_getLast? not_isWord_star _
  | named name gap type =>
    intro c hc
    simp only [Owner.front_named, ← List.append_assoc] at hc
    rw [List.getLast?_append_of_ne_nil _ howner.2.2.1] at hc
    exact Text.not_isWord_of_isBlank (howner.2.1 c (List.mem_of_getLast? hc))

/-- No word goes on from the name of the receiver. -/
theorem Formed.between_head (h : heading.Formed line) {name : List Char}
    (hname : name ∈ heading.owner.name?) :
    ∀ c ∈ (heading.owner.between ++ (heading.owner.type ++ heading.ending.chars)).head?,
      Text.isWord c = false := by
  have howner := h.owner_formed
  generalize heading.owner = owner at hname howner ⊢
  cases owner with
  | bare star space type => cases hname
  | pointer first gap space type =>
    simp only [Owner.between, List.append_assoc, List.cons_append]
    exact howner.2.1.not_isWord_head? not_isWord_star _
  | named first gap type =>
    intro c hc
    rw [Owner.between, List.head?_append_of_ne_nil _ howner.2.2.1] at hc
    exact Text.not_isWord_of_isBlank (howner.2.1 c (List.mem_of_head? hc))

theorem Formed.nameFront_last (h : heading.Formed line) :
    ∀ c ∈ heading.nameFront.getLast?, Text.isWord c = false := by
  rw [nameFront, Ending.front, ← List.append_assoc, ← List.append_assoc]
  exact h.ending_formed.middle_blank.not_isWord_getLast? not_isWord_closing _

/-- A heading cuts no word of its line in two. -/
theorem Formed.fits (h : heading.Formed line) : heading.Fits line where
  toFormed := h
  name_whole _ hname := ⟨h.owner_formed.name_word hname, h.opening_last, h.between_head hname⟩
  type_whole := ⟨h.owner_formed.type_word, h.typeFront_last, h.ending_formed.not_isWord_head?⟩
  method_whole := ⟨h.ending_formed.name_word, h.nameFront_last,
    h.ending_formed.gap_blank.not_isWord_head? not_isWord_opening _⟩

/-! ## What is captured -/

theorem reading_column (heading : ReceiverHeading) :
    heading.reading.column = heading.taken.length := by
  simp [reading, Owner.reading, Ending.reading, taken, nameFront, typeFront, Ending.taken,
    Nat.add_assoc]

theorem reading_rest (heading : ReceiverHeading) : heading.reading.rest = heading.ending.rest := rfl

theorem reading_groups (heading : ReceiverHeading) :
    heading.reading.groups =
      (heading.owner.name?.map fun name => (1, Span.behind heading.opening name)).toList ++
        [(2, Span.behind heading.typeFront heading.owner.type),
          (3, Span.behind heading.nameFront heading.ending.name)] := by
  simp [reading, Owner.reading, Ending.reading, nameFront, typeFront, Span.behind, Nat.add_assoc]

theorem reading_group?_name (heading : ReceiverHeading) :
    heading.reading.group? 1 = heading.owner.name?.map (Span.behind heading.opening) := by
  rw [Reading.group?, reading_groups]
  cases heading.owner.name? <;> rfl

theorem reading_group?_type (heading : ReceiverHeading) :
    heading.reading.group? 2 = some (Span.behind heading.typeFront heading.owner.type) := by
  rw [Reading.group?, reading_groups]
  cases heading.owner.name? <;> rfl

theorem reading_group?_method (heading : ReceiverHeading) :
    heading.reading.group? 3 = some (Span.behind heading.nameFront heading.ending.name) := by
  rw [Reading.group?, reading_groups]
  cases heading.owner.name? <;> rfl

end ReceiverHeading

/-- The pattern for a method with a receiver matches a line exactly if the line starts with a
heading whose names and type are whole words of it.  It captures these words and ends behind the
parenthesis that opens the parameters, and the line starts with no other heading. -/
theorem receiver_read?_iff_fits (line : List Char) :
    ((∃ reading, receiver.read? line = some reading) ↔
        ∃ heading : ReceiverHeading, heading.Fits line) ∧
      ∀ heading : ReceiverHeading, heading.Fits line →
        line = heading.taken ++ heading.ending.rest ∧
        (∃ reading, receiver.read? line = some reading ∧
          reading.column = heading.taken.length ∧ reading.rest = heading.ending.rest ∧
          reading.group? 1 = heading.owner.name?.map (Span.behind heading.opening) ∧
          reading.group? 2 = some (Span.behind heading.typeFront heading.owner.type) ∧
          reading.group? 3 = some (Span.behind heading.nameFront heading.ending.name)) ∧
        ∀ other : ReceiverHeading, other.Fits line → other.settled = heading.settled := by
  refine ⟨⟨?_, ?_⟩, ?_⟩
  · rintro ⟨reading, hread⟩
    obtain ⟨heading, hformed, _⟩ := exists_formed_of_read? hread
    exact ⟨heading, hformed.fits⟩
  · rintro ⟨heading, hfits⟩
    exact ⟨heading.reading, hfits.toFormed.read?_eq⟩
  · intro heading hfits
    refine ⟨hfits.line_eq.trans heading.chars_eq_taken, ?_, ?_⟩
    · exact ⟨heading.reading, hfits.toFormed.read?_eq, heading.reading_column,
        heading.reading_rest, heading.reading_group?_name, heading.reading_group?_type,
        heading.reading_group?_method⟩
    · intro other hother
      exact hother.toFormed.settled_eq hfits.toFormed

/-- A receiver without a name, whose type could be cut into a name and a type. -/
def namelessHeading : ReceiverHeading where
  lead := [' ']
  indent := []
  owner := .bare false [] "Server".toList
  ending := ⟨[], [' '], "Close".toList, [], ") error \x7b".toList⟩

theorem receiver_read?_iff_fits_nameless :
    namelessHeading.Fits "func (Server) Close() error \x7b".toList ∧
      ∃ reading, receiver.read? "func (Server) Close() error \x7b".toList = some reading ∧
        reading.column = 20 ∧ reading.rest = ") error \x7b".toList ∧
        reading.group? 1 = none ∧ reading.group? 2 = some ⟨6, 12⟩ ∧
        reading.group? 3 = some ⟨14, 19⟩ := by
  have hformed : namelessHeading.Formed "func (Server) Close() error \x7b".toList :=
    { line_eq := by decide +kernel
      lead_blank := List.all_eq_true.1 (by decide)
      indent_blank := List.all_eq_true.1 (by decide)
      owner_formed := ⟨List.all_eq_true.1 (by decide), by decide,
        List.all_eq_true.1 (by decide)⟩
      ending_formed := ⟨List.all_eq_true.1 (by decide),
        List.all_eq_true.1 (by decide),
        ⟨by decide, List.all_eq_true.1 (by decide)⟩,
        List.all_eq_true.1 (by decide)⟩ }
  exact ⟨hformed.fits, ((receiver_read?_iff_fits _).2 namelessHeading hformed.fits).2.1⟩

end Heading

end Wayfinder
