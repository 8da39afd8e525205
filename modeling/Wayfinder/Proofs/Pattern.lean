import Wayfinder.Pattern
import Mathlib.Data.List.Basic

/-!
# Readings of a pattern

A pattern is explored with a continuation, which stops at the first reading that the
rest of the pattern accepts.  Here the readings of a pattern are a list of their own,
in the order of preference.

* `Pattern.readings` is that list.  Exploring a pattern is a search through it
  (`Pattern.explore_eq_findSome?`), so the preferred reading is its first element
  (`Pattern.read?_eq_head?`).
* The membership lemmas say what each kind of pattern reads, without its order:
  which characters it takes, and which group it captures.
-/

namespace Wayfinder

/-- A span has the characters that stand in it. -/
theorem Span.chars_append (lead name rest : List Char) :
    Span.chars ⟨lead.length, lead.length + name.length⟩ (lead ++ (name ++ rest)) = name := by
  simp [Span.chars]

/-- A span has the text that stands in it. -/
theorem Span.text_append (lead name rest : List Char) :
    Span.text ⟨lead.length, lead.length + name.length⟩ (lead ++ (name ++ rest)) =
      String.ofList name := by
  rw [Span.text, Span.chars_append]

namespace Pattern

/-- The readings of a pattern from a place, in the order of preference. -/
def readings : Pattern → Reading → List Reading
  | .literal text, reading =>
      match text.isPrefixOf? reading.rest with
      | some rest => [{ reading with column := reading.column + text.length, rest := rest }]
      | none => []
  | .run kind least preference, reading =>
      preference.arrange ((reading.runs kind).drop least)
  | .capture group inner, reading =>
      (inner.readings reading).map fun after =>
        { after with groups := after.groups ++ [(group, ⟨reading.column, after.column⟩)] }
  | .maybe inner .longest, reading => inner.readings reading ++ [reading]
  | .maybe inner .shortest, reading => reading :: inner.readings reading
  | .seq first second, reading => (first.readings reading).flatMap second.readings
  | .atEnd, reading => if reading.rest.isEmpty then [reading] else []

private theorem findSome?_flatMap {α β γ : Type} (places : List α) (next : α → List β)
    (accept : β → Option γ) :
    (places.flatMap next).findSome? accept =
      places.findSome? fun place => (next place).findSome? accept := by
  induction places with
  | nil => rfl
  | cons place rest ih =>
    rw [List.flatMap_cons, List.findSome?_append, ih, List.findSome?_cons]
    cases (next place).findSome? accept <;> rfl

/-- Exploring a pattern searches its readings in the order of preference. -/
theorem explore_eq_findSome? {α : Type} (pattern : Pattern) (accept : Reading → Option α)
    (reading : Reading) :
    pattern.explore accept reading = (pattern.readings reading).findSome? accept := by
  induction pattern generalizing accept reading with
  | literal text =>
    cases htext : text.isPrefixOf? reading.rest <;> simp [explore, readings, htext]
  | run kind least preference => rfl
  | capture group inner ih =>
    rw [explore, ih, readings, List.findSome?_map]
    rfl
  | maybe inner preference ih =>
    cases preference with
    | longest =>
      rw [explore, ih, readings, List.findSome?_append]
      simp
    | shortest =>
      rw [explore, ih, readings, List.findSome?_cons]
      cases accept reading <;> rfl
  | seq first second ihFirst ihSecond =>
    rw [explore, ihFirst, readings, findSome?_flatMap]
    simp only [ihSecond]
  | atEnd =>
    rw [explore, readings]
    split <;> simp

/-- The preferred reading is the first one. -/
theorem read?_eq_head? (pattern : Pattern) (line : List Char) :
    pattern.read? line = (pattern.readings (Reading.start line)).head? := by
  rw [read?, explore_eq_findSome?]
  cases pattern.readings (Reading.start line) <;> simp

theorem mem_readings_of_read? {pattern : Pattern} {line : List Char} {reading : Reading}
    (h : pattern.read? line = some reading) :
    reading ∈ pattern.readings (Reading.start line) := by
  rw [read?_eq_head?] at h
  exact List.mem_of_head? h

/-! ## What each kind of pattern reads -/

variable {reading after : Reading}

/-- A literal takes its own text. -/
theorem mem_readings_literal {text : List Char} :
    after ∈ (literal text).readings reading ↔
      ∃ rest, reading.rest = text ++ rest ∧
        after = ⟨reading.column + text.length, rest, reading.groups⟩ := by
  rw [readings]
  split
  · rename_i rest hrest
    have hrest := List.isPrefixOf?_eq_some_iff_append_eq.1 hrest
    simp only [List.mem_singleton, ← hrest, List.append_cancel_left_eq, exists_eq_left']
  · rename_i hnone
    refine iff_of_false (List.not_mem_nil) ?_
    rintro ⟨rest, hrest, _⟩
    have hsome := List.isPrefixOf?_eq_some_iff_append_eq.2 hrest.symm
    rw [hnone] at hsome
    cases hsome

/-- The places behind a run of one kind, from a number of characters on. -/
theorem mem_drop_runsFrom {kind : Char → Bool} {groups : List (Nat × Span)} {least column : Nat}
    {text : List Char} :
    after ∈ (Reading.runsFrom kind groups column text).drop least ↔
      ∃ taken rest, text = taken ++ rest ∧ least ≤ taken.length ∧ (∀ c ∈ taken, kind c = true) ∧
        after = ⟨column + taken.length, rest, groups⟩ := by
  induction text generalizing least column with
  | nil =>
    cases least with
    | zero =>
      simp only [Reading.runsFrom, List.drop_zero, List.mem_singleton]
      constructor
      · rintro rfl
        exact ⟨[], [], rfl, Nat.le_refl 0, by simp, rfl⟩
      · rintro ⟨taken, rest, hsplit, _, _, rfl⟩
        obtain ⟨rfl, rfl⟩ := List.append_eq_nil_iff.1 hsplit.symm
        rfl
    | succ least =>
      simp only [Reading.runsFrom, List.drop_succ_cons, List.drop_nil]
      refine iff_of_false List.not_mem_nil ?_
      rintro ⟨taken, rest, hsplit, hleast, _⟩
      obtain ⟨rfl, rfl⟩ := List.append_eq_nil_iff.1 hsplit.symm
      simp at hleast
  | cons c text ih =>
    have htail : ∀ least, after ∈ (if kind c then
          Reading.runsFrom kind groups (column + 1) text else []).drop least ↔
        ∃ taken rest, text = taken ++ rest ∧ least ≤ taken.length ∧
          (∀ d ∈ c :: taken, kind d = true) ∧
          after = ⟨column + (c :: taken).length, rest, groups⟩ := by
      intro least
      by_cases hkind : kind c = true
      · rw [if_pos hkind, ih]
        simp only [List.forall_mem_cons, hkind, true_and, List.length_cons, Nat.add_assoc,
          Nat.add_comm 1]
      · rw [if_neg hkind, List.drop_nil]
        refine iff_of_false List.not_mem_nil ?_
        rintro ⟨taken, rest, _, _, hall, _⟩
        exact hkind (hall c (List.mem_cons_self ..))
    cases least with
    | zero =>
      rw [Reading.runsFrom, List.drop_zero, List.mem_cons, ← List.drop_zero (l := ite _ _ _),
        htail]
      constructor
      · rintro (rfl | ⟨taken, rest, rfl, _, hall, rfl⟩)
        · exact ⟨[], c :: text, rfl, Nat.le_refl 0, by simp, rfl⟩
        · exact ⟨c :: taken, rest, rfl, Nat.zero_le _, hall, rfl⟩
      · rintro ⟨taken, rest, hsplit, _, hall, rfl⟩
        cases taken with
        | nil =>
          left
          rw [hsplit]
          rfl
        | cons d taken =>
          obtain ⟨rfl, rfl⟩ := List.cons.inj hsplit
          exact Or.inr ⟨taken, rest, rfl, Nat.zero_le _, hall, rfl⟩
    | succ least =>
      rw [Reading.runsFrom, List.drop_succ_cons, htail]
      constructor
      · rintro ⟨taken, rest, rfl, hleast, hall, rfl⟩
        exact ⟨c :: taken, rest, rfl, Nat.succ_le_succ hleast, hall, rfl⟩
      · rintro ⟨taken, rest, hsplit, hleast, hall, rfl⟩
        cases taken with
        | nil => simp at hleast
        | cons d taken =>
          obtain ⟨rfl, rfl⟩ := List.cons.inj hsplit
          exact ⟨taken, rest, rfl, Nat.le_of_succ_le_succ hleast, hall, rfl⟩

/-- A run takes characters of its kind, at least as many as it must. -/
theorem mem_readings_run {kind : Char → Bool} {least : Nat} {preference : Preference} :
    after ∈ (run kind least preference).readings reading ↔
      ∃ taken rest, reading.rest = taken ++ rest ∧ least ≤ taken.length ∧
        (∀ c ∈ taken, kind c = true) ∧
        after = ⟨reading.column + taken.length, rest, reading.groups⟩ := by
  show after ∈ preference.arrange ((reading.runs kind).drop least) ↔ _
  rw [← mem_drop_runsFrom, Reading.runs]
  cases preference with
  | longest => exact List.mem_reverse
  | shortest => exact Iff.rfl

/-- A capture reads what its inner pattern reads, and notes the columns. -/
theorem mem_readings_capture {group : Nat} {inner : Pattern} :
    after ∈ (capture group inner).readings reading ↔
      ∃ place ∈ inner.readings reading,
        after = { place with
          groups := place.groups ++ [(group, ⟨reading.column, place.column⟩)] } := by
  show after ∈ List.map _ (inner.readings reading) ↔ _
  simp only [List.mem_map, eq_comm]

/-- An optional part reads nothing, or what its inner pattern reads. -/
theorem mem_readings_maybe {inner : Pattern} {preference : Preference} :
    after ∈ (maybe inner preference).readings reading ↔
      after = reading ∨ after ∈ inner.readings reading := by
  cases preference with
  | longest =>
    show after ∈ inner.readings reading ++ [reading] ↔ _
    rw [List.mem_append, List.mem_singleton, or_comm]
  | shortest => exact List.mem_cons

/-- A sequence reads its second part from a place behind its first part. -/
theorem mem_readings_seq {first second : Pattern} :
    after ∈ (seq first second).readings reading ↔
      ∃ place ∈ first.readings reading, after ∈ second.readings place :=
  List.mem_flatMap

/-- The end of the line takes nothing, and is there only if nothing is left. -/
theorem mem_readings_atEnd :
    after ∈ atEnd.readings reading ↔ reading.rest = [] ∧ after = reading := by
  show after ∈ (if reading.rest.isEmpty then [reading] else []) ↔ _
  by_cases hrest : reading.rest = [] <;> simp [hrest]

end Pattern

end Wayfinder
