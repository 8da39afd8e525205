import Wayfinder.Proofs.Interface.Plain
import Wayfinder.Proofs.Receiver

/-!
# Longer lines

What a scan reads at the start of a line, if more characters stand behind the line.

* `Reading.LeadsTo` says how one gets from a place in a line to another, and a pattern leads to
  each of its readings (`Pattern.leadsTo_of_mem_readings`).
* A pattern finds in a longer line what it finds in the line, if nothing is accepted further
  on (`Pattern.explore_extend`).  All headings end with a bracket, so characters without
  brackets change nothing (`Pattern.read?_append`).
* `Body.ofLine?_longer`, `Draft.ofLine?_longer` and `ReceiverMethod.ofLine?_longer` say so for
  what starts on a line.
-/

namespace Wayfinder

/-! ## Where a pattern leads -/

/-- One can read from a place to another: some characters stand between them, and the groups
captured on the way end before the second place. -/
structure Reading.LeadsTo (reading after : Reading) : Prop where
  exists_taken : ∃ taken, reading.rest = taken ++ after.rest ∧
    after.column = reading.column + taken.length
  stop_le : ∀ entry ∈ after.groups, entry ∈ reading.groups ∨ entry.2.stop ≤ after.column

namespace Reading.LeadsTo

variable {reading place after : Reading}

theorem refl (reading : Reading) : reading.LeadsTo reading :=
  ⟨⟨[], rfl, rfl⟩, fun _ hmem => Or.inl hmem⟩

theorem of_take {taken rest : List Char} (h : reading.rest = taken ++ rest) :
    reading.LeadsTo ⟨reading.column + taken.length, rest, reading.groups⟩ :=
  ⟨⟨taken, h, rfl⟩, fun _ hmem => Or.inl hmem⟩

theorem rest_suffix (h : reading.LeadsTo after) : after.rest <:+ reading.rest := by
  obtain ⟨taken, hrest, _⟩ := h.exists_taken
  exact ⟨taken, hrest.symm⟩

theorem trans (h : reading.LeadsTo place) (h' : place.LeadsTo after) : reading.LeadsTo after := by
  obtain ⟨taken, hrest, hcolumn⟩ := h.exists_taken
  obtain ⟨taken', hrest', hcolumn'⟩ := h'.exists_taken
  refine ⟨⟨taken ++ taken', ?_, ?_⟩, fun entry hmem => ?_⟩
  · rw [hrest, hrest', List.append_assoc]
  · rw [hcolumn', hcolumn, List.length_append, Nat.add_assoc]
  · rcases h'.stop_le entry hmem with hmem | hstop
    · rcases h.stop_le entry hmem with hmem | hstop
      · exact Or.inl hmem
      · right
        omega
    · exact Or.inr hstop

end Reading.LeadsTo

namespace Pattern

/-- A pattern leads from a place to each of its readings. -/
theorem leadsTo_of_mem_readings {pattern : Pattern} {reading after : Reading}
    (h : after ∈ pattern.readings reading) : reading.LeadsTo after := by
  induction pattern generalizing reading after with
  | literal text =>
    obtain ⟨rest, hrest, rfl⟩ := mem_readings_literal.1 h
    exact .of_take hrest
  | run kind least preference =>
    obtain ⟨taken, rest, hrest, _, _, rfl⟩ := mem_readings_run.1 h
    exact .of_take hrest
  | capture group inner ih =>
    obtain ⟨place, hplace, rfl⟩ := mem_readings_capture.1 h
    have hleads := ih hplace
    refine ⟨hleads.exists_taken, fun entry hmem => ?_⟩
    rcases List.mem_append.1 hmem with hmem | hmem
    · exact hleads.stop_le entry hmem
    · rw [List.mem_singleton.1 hmem]
      exact Or.inr (Nat.le_refl _)
  | maybe inner preference ih =>
    rcases mem_readings_maybe.1 h with rfl | hmem
    · exact .refl after
    · exact ih hmem
  | seq first second ihFirst ihSecond =>
    obtain ⟨place, hplace, hafter⟩ := mem_readings_seq.1 h
    exact (ihFirst hplace).trans (ihSecond hafter)
  | atEnd =>
    obtain ⟨_, rfl⟩ := mem_readings_atEnd.1 h
    exact .refl after

end Pattern

/-! ## More characters behind a line -/

/-- The place in a line behind which more characters stand. -/
def Reading.extend (extra : List Char) (reading : Reading) : Reading :=
  { reading with rest := reading.rest ++ extra }

namespace Pattern

variable {α : Type} {accept accept' : Reading → Option α} {reading : Reading} {extra : List Char}

/-- Nothing is found from a place if nothing is accepted there or further on. -/
theorem explore_eq_none (pattern : Pattern)
    (h : ∀ after, after.rest <:+ reading.rest → accept after = none) :
    pattern.explore accept reading = none := by
  rw [explore_eq_findSome?, List.findSome?_eq_none_iff]
  exact fun after hafter => h after (leadsTo_of_mem_readings hafter).rest_suffix

/-- A run in a longer line stops where it did, or behind the line. -/
theorem exists_runsFrom_extend (kind : Char → Bool) (groups : List (Nat × Span)) (column : Nat)
    (text extra : List Char) :
    ∃ beyond, Reading.runsFrom kind groups column (text ++ extra) =
        (Reading.runsFrom kind groups column text).map (Reading.extend extra) ++ beyond ∧
      ∀ after ∈ beyond, after.rest <:+ extra := by
  induction text generalizing column with
  | nil =>
    cases extra with
    | nil => exact ⟨[], rfl, by simp⟩
    | cons c extra =>
      refine ⟨if kind c then Reading.runsFrom kind groups (column + 1) extra else [], rfl, ?_⟩
      intro after hafter
      split at hafter
      · rw [← List.drop_zero (l := Reading.runsFrom _ _ _ _)] at hafter
        obtain ⟨taken, rest, rfl, _, _, rfl⟩ := mem_drop_runsFrom.1 hafter
        exact ⟨c :: taken, rfl⟩
      · cases hafter
  | cons c text ih =>
    rw [List.cons_append, Reading.runsFrom, Reading.runsFrom]
    by_cases hkind : kind c = true
    · obtain ⟨beyond, hruns, hbeyond⟩ := ih (column + 1)
      refine ⟨beyond, ?_, hbeyond⟩
      rw [if_pos hkind, if_pos hkind, hruns]
      rfl
    · refine ⟨[], ?_, by simp⟩
      rw [if_neg hkind, if_neg hkind]
      rfl

/-- A pattern finds the same in a longer line, if nothing is accepted behind the line. -/
theorem explore_extend (pattern : Pattern)
    (hinside : ∀ after, accept (after.extend extra) = accept' after)
    (hbeyond : ∀ after, after.rest <:+ extra → accept after = none) :
    pattern.explore accept (reading.extend extra) = pattern.explore accept' reading := by
  induction pattern generalizing accept accept' reading with
  | literal text =>
    rw [explore, explore]
    cases htext : text.isPrefixOf? reading.rest with
    | some rest =>
      have hrest := List.isPrefixOf?_eq_some_iff_append_eq.1 htext
      have hlonger : text.isPrefixOf? (reading.extend extra).rest = some (rest ++ extra) := by
        rw [List.isPrefixOf?_eq_some_iff_append_eq, ← List.append_assoc, hrest]
        rfl
      rw [hlonger]
      exact hinside ⟨reading.column + text.length, rest, reading.groups⟩
    | none =>
      cases hlonger : text.isPrefixOf? (reading.extend extra).rest with
      | none => rfl
      | some rest =>
        -- the text is found only with characters from behind the line
        refine hbeyond _ ?_
        have hrest := List.isPrefixOf?_eq_some_iff_append_eq.1 hlonger
        rcases List.append_eq_append_iff.1 hrest with ⟨front, htaken, _⟩ | ⟨front, _, hextra⟩
        · rw [List.isPrefixOf?_eq_some_iff_append_eq.2 htaken.symm] at htext
          cases htext
        · exact ⟨front, hextra.symm⟩
  | run kind least preference =>
    obtain ⟨beyond, hruns, hmore⟩ :=
      exists_runsFrom_extend kind reading.groups reading.column reading.rest extra
    have hnone : ∀ places : List Reading, places ⊆ beyond → places.findSome? accept = none := by
      intro places hplaces
      rw [List.findSome?_eq_none_iff]
      exact fun after hafter => hbeyond after (hmore after (hplaces hafter))
    have hruns' : (reading.extend extra).runs kind =
        (reading.runs kind).map (Reading.extend extra) ++ beyond := hruns
    have haccept : accept ∘ Reading.extend extra = accept' := funext hinside
    rw [explore, explore, hruns', List.drop_append, ← List.map_drop]
    cases preference with
    | longest =>
      have hreverse : ∀ count, (beyond.drop count).reverse ⊆ beyond :=
        fun _ _ hmem => List.mem_of_mem_drop (List.mem_reverse.1 hmem)
      rw [Preference.arrange, Preference.arrange, List.reverse_append, List.findSome?_append,
        hnone _ (hreverse _), Option.none_or, ← List.map_reverse, List.findSome?_map, haccept]
    | shortest =>
      rw [Preference.arrange, Preference.arrange, List.findSome?_append,
        hnone _ (List.drop_subset _ _), Option.or_none, List.findSome?_map, haccept]
  | capture group inner ih =>
    exact ih
      (fun after => hinside
        { after with groups := after.groups ++ [(group, ⟨reading.column, after.column⟩)] })
      (fun after hafter => hbeyond _ hafter)
  | maybe inner preference ih =>
    cases preference with
    | longest => rw [explore, explore, ih hinside hbeyond, hinside]
    | shortest => rw [explore, explore, ih hinside hbeyond, hinside]
  | seq first second ihFirst ihSecond =>
    refine ihFirst (fun after => ihSecond hinside hbeyond) (fun after hafter => ?_)
    exact explore_eq_none second fun place hplace => hbeyond place (hplace.trans hafter)
  | atEnd =>
    by_cases hrest : reading.rest = []
    · -- behind the line nothing is accepted, and so nothing is at its end
      have hnone : accept (reading.extend extra) = none :=
        hbeyond _ (by simp [Reading.extend, hrest])
      simp [explore, ← hinside, hnone]
    · simp [explore, Reading.extend, hrest]

/-- A pattern that ends with a character does not read on where there is no such character. -/
theorem explore_sequence_eq_none {last : Char} (front : List Pattern)
    (hlast : last ∉ reading.rest) :
    (sequence (front ++ [literal [last]])).explore accept reading = none := by
  induction front generalizing reading with
  | nil =>
    have hnone : [last].isPrefixOf? reading.rest = none := by
      by_contra hsome
      obtain ⟨rest, hrest⟩ := Option.ne_none_iff_exists'.1 hsome
      rw [← List.isPrefixOf?_eq_some_iff_append_eq.1 hrest] at hlast
      exact hlast List.mem_cons_self
    rw [List.nil_append, sequence, explore, hnone]
  | cons pattern front ih =>
    rw [List.cons_append, sequence.eq_3 _ _ (by simp), explore]
    exact explore_eq_none pattern fun after hafter => ih fun hmem => hlast (hafter.mem hmem)

/-- A pattern that ends with a character finds the same in a line behind which more characters are
put, if that character is not among them. -/
theorem explore_sequence_extend {last : Char} (hlast : last ∉ extra) (front : List Pattern)
    (hinside : ∀ after, accept (after.extend extra) = accept' after) :
    (sequence (front ++ [literal [last]])).explore accept (reading.extend extra) =
      (sequence (front ++ [literal [last]])).explore accept' reading := by
  induction front generalizing reading with
  | nil =>
    cases hrest : reading.rest with
    | nil =>
      rw [explore_sequence_eq_none [] (by simpa [Reading.extend, hrest] using hlast),
        explore_sequence_eq_none [] (by simp [hrest])]
    | cons c rest =>
      by_cases hc : last = c
      · have hfound := hinside ⟨reading.column + 1, rest, reading.groups⟩
        simpa [sequence, explore, Reading.extend, hrest, List.isPrefixOf?, hc] using hfound
      · simp [sequence, explore, Reading.extend, hrest, List.isPrefixOf?, hc]
  | cons pattern front ih =>
    rw [List.cons_append, sequence.eq_3 _ _ (by simp), explore, explore]
    refine explore_extend pattern (fun after => ih) fun after hafter => ?_
    exact explore_sequence_eq_none front fun hmem => hlast (hafter.mem hmem)

/-- What is read at the start of a line is read there also if more characters stand behind the
line. -/
theorem read?_append {last : Char} (hlast : last ∉ extra) (front : List Pattern)
    (line : List Char) :
    (sequence (front ++ [literal [last]])).read? (line ++ extra) =
      ((sequence (front ++ [literal [last]])).read? line).map (Reading.extend extra) := by
  have hextend : (sequence (front ++ [literal [last]])).explore some
        ((Reading.start line).extend extra) =
      (sequence (front ++ [literal [last]])).explore (some ∘ Reading.extend extra)
        (Reading.start line) :=
    explore_sequence_extend hlast front fun _ => rfl
  rw [read?, read?, explore_eq_findSome?, explore_eq_findSome?, List.map_findSome?]
  rw [explore_eq_findSome?, explore_eq_findSome?] at hextend
  exact hextend

end Pattern

/-! ## Captured text -/

/-- A captured group ends inside the line. -/
theorem Pattern.stop_le_length {pattern : Pattern} {line : List Char} {reading : Reading}
    (h : pattern.read? line = some reading) {group : Nat} {span : Span}
    (hgroup : reading.group? group = some span) : span.stop ≤ line.length := by
  have hleads := leadsTo_of_mem_readings (mem_readings_of_read? h)
  obtain ⟨taken, hrest, hcolumn⟩ := hleads.exists_taken
  obtain ⟨front, back, hgroups, _⟩ := List.lookup_eq_some_iff.1 hgroup
  have hstop : span.stop ≤ reading.column :=
    (hleads.stop_le (group, span) (by simp [hgroups])).resolve_left (by simp [Reading.start])
  have hline : line = taken ++ reading.rest := hrest
  have hlength : line.length = taken.length + reading.rest.length := by
    rw [hline, List.length_append]
  simp only [Reading.start] at hcolumn
  omega

/-- What stands behind a line is not part of a span inside it. -/
theorem Span.text_append_left {span : Span} {line : List Char} (h : span.stop ≤ line.length)
    (extra : List Char) : span.text (line ++ extra) = span.text line := by
  rw [Span.text, Span.text, Span.chars, Span.chars]
  congr 1
  by_cases hstart : span.start ≤ line.length
  · rw [List.drop_append_of_le_length hstart, List.take_append_of_le_length]
    rw [List.length_drop]
    omega
  · have hempty : span.stop - span.start = 0 := by omega
    rw [hempty, List.take_zero, List.take_zero]

/-! ## Headings -/

/-- No brackets are among some characters. -/
def Text.BracketFree (text : List Char) : Prop :=
  ∀ c ∈ text, c ∉ ['(', ')', '\x7b', '\x7d']

namespace Text.BracketFree

variable {text : List Char}

theorem not_mem (h : BracketFree text) {c : Char} (hc : c ∈ ['(', ')', '\x7b', '\x7d']) :
    c ∉ text :=
  fun hmem => h c hmem hc

theorem net_eq_zero (h : BracketFree text) {bracket : Bracket}
    (hkind : bracket = .parens ∨ bracket = .braces) : bracket.net text = 0 := by
  rcases hkind with rfl | rfl
  · exact Bracket.net_eq_zero (h.not_mem (by decide)) (h.not_mem (by decide))
  · exact Bracket.net_eq_zero (h.not_mem (by decide)) (h.not_mem (by decide))

theorem feed_append (h : BracketFree text) (depth : Depth)
    (hkind : depth.bracket = .parens ∨ depth.bracket = .braces) (line : List Char) :
    depth.feed (line ++ text) = depth.feed line := by
  have hnet := h.net_eq_zero hkind
  rcases hkind with hkind | hkind
  · rw [hkind] at hnet
    rw [depth.eq_ofCount, hkind, Depth.feed_parens, Depth.feed_parens, Bracket.net_append, hnet,
      Int.add_zero]
  · rw [hkind] at hnet
    rw [depth.eq_ofCount, hkind, Depth.feed_braces, Depth.feed_braces, Bracket.net_append, hnet,
      Int.add_zero]

end Text.BracketFree

/-- The place has the same groups with more characters behind the line. -/
@[simp] theorem Reading.group?_extend (extra : List Char) (reading : Reading) (group : Nat) :
    (reading.extend extra).group? group = reading.group? group := rfl

section LongerLine

variable {line other : Line} {extra : List Char} (hindex : other.index = line.index)
  (hchars : other.chars = line.chars ++ extra) (hextra : Text.BracketFree extra)

include hindex hchars hextra

/-- A line to which characters without brackets have been added opens the same interface. -/
theorem Body.ofLine?_longer (lookahead : Nat) :
    ofLine? lookahead other = ofLine? lookahead line := by
  have hread : Heading.interface.read? other.chars =
      (Heading.interface.read? line.chars).map (Reading.extend extra) := by
    rw [hchars]
    exact Pattern.read?_append (hextra.not_mem (by decide)) [_, _, _, _, _, _] line.chars
  have hbraces : Depth.ofBraces other.chars = Depth.ofBraces line.chars := by
    rw [hchars]
    exact hextra.feed_append _ (Or.inr rfl) line.chars
  simp only [ofLine?_eq, hread, hbraces, hindex]
  cases h : Heading.interface.read? line.chars with
  | none => rfl
  | some reading =>
    cases hgroup : reading.group? 1 with
    | none => simp [hgroup]
    | some span => simp [hgroup, hchars, Span.text_append_left (Pattern.stop_le_length h hgroup)]

/-- It starts the same signature. -/
theorem Draft.ofLine?_longer : ofLine? other = ofLine? line := by
  have hread : Heading.signature.read? other.chars =
      (Heading.signature.read? line.chars).map (Reading.extend extra) := by
    rw [hchars]
    exact Pattern.read?_append (hextra.not_mem (by decide)) [_, _, _] line.chars
  have hparens : Depth.ofParens other.chars = Depth.ofParens line.chars := by
    rw [hchars]
    exact hextra.feed_append _ (Or.inl rfl) line.chars
  cases h : Heading.signature.read? line.chars with
  | none =>
    rw [h] at hread
    rw [ofLine?_eq_none_iff.2 hread, ofLine?_eq_none_iff.2 h]
  | some reading =>
    obtain ⟨lead, text, gap, rest, hparts⟩ := Heading.exists_signatureParts h
    obtain ⟨name, hname⟩ : ∃ name, reading.group? 1 = some name := ⟨_, hparts.group_eq⟩
    rw [h] at hread
    have hother : ofLine? other = some _ :=
      ofLine?_eq_some_iff.2 ⟨reading.extend extra, name, hread, hname, rfl⟩
    have hline : ofLine? line = some _ :=
      ofLine?_eq_some_iff.2 ⟨reading, name, h, hname, rfl⟩
    rw [hother, hline, hindex, hparens, hchars,
      Span.text_append_left (Pattern.stop_le_length h hname)]

/-- It starts the same method with a receiver. -/
theorem ReceiverMethod.ofLine?_longer (following : List Line) :
    ofLine? other following = ofLine? line following := by
  have hread : Heading.receiver.read? other.chars =
      (Heading.receiver.read? line.chars).map (Reading.extend extra) := by
    rw [hchars]
    exact Pattern.read?_append (hextra.not_mem (by decide)) [_, _, _, _, _, _, _, _, _, _, _, _, _]
      line.chars
  cases h : Heading.receiver.read? line.chars with
  | none =>
    rw [h] at hread
    rw [ofLine?_eq_none_iff.2 hread, ofLine?_eq_none_iff.2 h]
  | some reading =>
    have htext : ∀ {group span}, reading.group? group = some span →
        span.text other.chars = span.text line.chars := by
      intro group span hgroup
      rw [hchars, Span.text_append_left (Pattern.stop_le_length h hgroup)]
    have hbraces : Depth.ofBraces (reading.rest ++ extra) = Depth.ofBraces reading.rest :=
      hextra.feed_append _ (Or.inr rfl) reading.rest
    have hend : endLineOf line.index (reading.extend extra).rest following =
        endLineOf line.index reading.rest following := by
      simp only [endLineOf_eq_ite, Reading.extend, hbraces,
        hextra.feed_append (.ofCount .parens 1) (Or.inl rfl)]
    have hreceiver : (reading.group? 1).map (·.text other.chars) =
        (reading.group? 1).map (·.text line.chars) :=
      Option.map_congr fun span hgroup => htext hgroup
    obtain ⟨lead, inner, middle, text, gap, rest, hparts⟩ := Heading.exists_receiverParts h
    obtain ⟨type, htype⟩ := hparts.exists_type
    obtain ⟨name, hname⟩ : ∃ name, reading.group? 3 = some name := ⟨_, hparts.name_group⟩
    rw [h] at hread
    have hother : ofLine? other following = some _ :=
      ofLine?_eq_some_iff.2 ⟨reading.extend extra, type, name, hread, htype, hname, rfl⟩
    have hline : ofLine? line following = some _ :=
      ofLine?_eq_some_iff.2 ⟨reading, type, name, h, htype, hname, rfl⟩
    rw [hother, hline, Reading.group?_extend, hreceiver, hindex, hend, htext htype, htext hname]

end LongerLine

end Wayfinder
