import Wayfinder.Proofs.Alike
import Wayfinder.Proofs.Interface.Completion

/-!
# Code behind the parameters of a signature

Whether code stands behind the last parenthesis of a line matters only where the parameters of a
signature close.  There it decides whether results on later lines still belong to the signature.

* The lines determine the signatures of a body (`Reads.unique`).
* `AddsTail` describes a change of lines that keeps their shape and may put code behind the last
  parenthesis of one line.
* `AddsTail.reads_map`: the changed lines are read as before, unless a signature whose parameters
  close on the changed line goes on behind it (`Signature.GoesOnBehind`).
* `Document.outline_eq_iff`: a text in which code was put behind a line has the same outline
  exactly if no signature goes on behind that line.
-/

namespace Wayfinder

/-! ## The cut is determined by the lines -/

/-- The lines of a signature are those up to its last line. -/
theorem Spans.filter_le {lookahead : Nat} {span rest : List Line} {last : Line}
    (h : Spans lookahead span rest last) (hlines : Ascending (span ++ rest)) :
    (span ++ rest).filter (fun line => line.index ≤ last.index) = span := by
  obtain ⟨front, rfl⟩ := List.getLast?_eq_some_iff.1 h.getLast?
  rw [List.append_assoc, List.singleton_append] at hlines ⊢
  exact hlines.filter_le

/-- A signature takes the same lines in every cut. -/
theorem Spans.unique {lookahead : Nat} {span span' rest rest' : List Line} {last last' : Line}
    (h : Spans lookahead span rest last) (h' : Spans lookahead span' rest' last')
    (heq : span ++ rest = span' ++ rest') (hlines : Ascending (span ++ rest)) :
    span = span' ∧ rest = rest' ∧ last = last' := by
  have hlines' : Ascending (span' ++ rest') := heq ▸ hlines
  have hlast : last = last' := by
    apply Option.some.inj
    rw [← completion?_of_spans h hlines, heq, completion?_of_spans h' hlines']
  have hspan : span = span' := by
    rw [← h.filter_le hlines, heq, hlast, h'.filter_le hlines']
  subst hspan
  exact ⟨rfl, List.append_cancel_left heq, hlast⟩

namespace Reads

variable {lookahead : Nat} {owner : String} {line : Line} {lines rest : List Line}
  {signatures signatures' : List Signature}

/-- What is read from a line and the lines behind it. -/
theorem cases_cons (h : Reads lookahead owner (line :: rest) signatures) :
    Draft.ofLine? line = none ∧ Reads lookahead owner rest signatures ∨
      ∃ draft inner behind last more, Draft.ofLine? line = some draft ∧ rest = inner ++ behind ∧
        Spans lookahead (line :: inner) behind last ∧ Reads lookahead owner behind more ∧
        signatures = draft.signature owner last.index :: more := by
  generalize hlines : line :: rest = lines at h
  cases h with
  | done => cases hlines
  | skip hline hrest =>
    obtain ⟨rfl, rfl⟩ := List.cons.inj hlines
    exact Or.inl ⟨hline, hrest⟩
  | signature hline hspans hrest =>
    obtain ⟨rfl, rfl⟩ := List.cons.inj hlines
    exact Or.inr ⟨_, _, _, _, _, hline, rfl, hspans, hrest, rfl⟩

/-- The signatures of a body are determined by its lines. -/
theorem unique (h : Reads lookahead owner lines signatures)
    (h' : Reads lookahead owner lines signatures') (hlines : Ascending lines) :
    signatures = signatures' := by
  induction h generalizing signatures' with
  | done =>
    cases h'
    rfl
  | skip hline _ ih =>
    rcases h'.cases_cons with ⟨_, hrest'⟩ | ⟨draft, _, _, _, _, hline', _⟩
    · exact ih hrest' hlines.of_cons
    · rw [hline] at hline'
      cases hline'
  | @signature line last inner rest draft signatures hline hspans _ ih =>
    rw [List.cons_append] at h'
    rcases h'.cases_cons with ⟨hline', _⟩ | ⟨draft', _, _, _, _, hline', heq, hspans', hrest', rfl⟩
    · rw [hline] at hline'
      cases hline'
    · obtain rfl : draft = draft' := Option.some.inj (hline.symm.trans hline')
      obtain ⟨_, rfl, rfl⟩ := hspans.unique hspans' (congrArg (line :: ·) heq) hlines
      rw [ih hrest' hlines.of_append_right]

/-- Every signature stands on one of the lines. -/
theorem exists_line (h : Reads lookahead owner lines signatures) {method : Signature}
    (hmethod : method ∈ signatures) : ∃ line ∈ lines, method.line = line.index := by
  obtain ⟨before, line, inner, behind, last, draft, rfl, hdraft, _, rfl⟩ :=
    h.exists_spans_of_mem hmethod
  exact ⟨line, by simp, (Body.reaches_of_ofLine? hdraft).2.1⟩

end Reads

/-! ## Changed lines -/

namespace Bracket

variable {bracket : Bracket} {f : Line → Line} {count : Int} {lines : List Line} {last : Line}

section

variable (hnet : ∀ line, bracket.net (f line).chars = bracket.net line.chars)

include hnet

theorem netOver_map (lines : List Line) :
    bracket.netOver (lines.map f) = bracket.netOver lines := by
  induction lines with
  | nil => rfl
  | cons line more ih => rw [List.map_cons, netOver_cons, netOver_cons, hnet, ih]

theorem StaysOpen.map (h : bracket.StaysOpen count lines) :
    bracket.StaysOpen count (lines.map f) := by
  induction lines generalizing count with
  | nil => trivial
  | cons line more ih =>
    rw [List.map_cons, StaysOpen, hnet]
    exact ⟨h.1, ih h.2⟩

theorem ClosesOn.map (h : bracket.ClosesOn count lines last) :
    bracket.ClosesOn count (lines.map f) (f last) := by
  obtain ⟨before, rfl, hstays, hle⟩ := h
  refine ⟨before.map f, by simp, hstays.map hnet, ?_⟩
  rwa [netOver_map hnet]

/-- The brackets close on the same line as before. -/
theorem firstClosed?_map (hindex : ∀ line, (f line).index = line.index) (counting : Counting)
    (lines : List Line) :
    bracket.firstClosed? counting (lines.map f) = (bracket.firstClosed? counting lines).map f := by
  rw [firstClosed?, firstClosed?, List.find?_map]
  congr 2
  funext line
  have hfilter : (lines.map f).filter (fun other => other.index ≤ (f line).index) =
      (lines.filter fun other => other.index ≤ line.index).map f := by
    rw [List.filter_map]
    simp only [Function.comp_def, hindex]
  simp only [Function.comp_apply, hfilter, netOver_map hnet]

end

end Bracket

/-- A change of lines keeps their shape.  It may put code behind the last parenthesis of the line
with a number, and takes none away. -/
structure AddsTail (f : Line → Line) (index : Nat) : Prop where
  sameShape : ∀ line, (f line).SameShape line
  tail_ne_nil : ∀ line, tailAfterLastParen line.chars ≠ [] → tailAfterLastParen (f line).chars ≠ []
  tail_eq_nil : ∀ line, line.index ≠ index → tailAfterLastParen line.chars = [] →
    tailAfterLastParen (f line).chars = []

/-- The parameters of a signature close on the line with a number, and the signature ends behind
that line. -/
def Signature.GoesOnBehind (signature : Signature) (counting : Counting) (lines : List Line)
    (index : Nat) : Prop :=
  (Bracket.parens.firstClosed? counting (lines.filter fun line =>
      signature.line ≤ line.index)).map Line.index = some index ∧
    index < signature.endLine

/-- Lines in front of a signature do not matter to it. -/
theorem Signature.goesOnBehind_append {signature : Signature} {before lines : List Line}
    (hbefore : ∀ line ∈ before, line.index < signature.line) (counting : Counting) (index : Nat) :
    signature.GoesOnBehind counting (before ++ lines) index ↔
      signature.GoesOnBehind counting lines index := by
  have hnone : before.filter (fun line => signature.line ≤ line.index) = [] := by
    apply List.filter_eq_nil_iff.2
    intro line hline
    have := hbefore line hline
    simpa using this
  rw [GoesOnBehind, GoesOnBehind, List.filter_append, hnone, List.nil_append]

namespace AddsTail

variable {f : Line → Line} {index lookahead : Nat} {owner : String} {lines span rest : List Line}
  {last : Line} {signatures : List Signature}

theorem forall₂_sameShape (hf : AddsTail f index) (lines : List Line) :
    List.Forall₂ Line.SameShape (lines.map f) lines := by
  rw [List.forall₂_map_left_iff, List.forall₂_same]
  exact fun line _ => hf.sameShape line

theorem parens_net (hf : AddsTail f index) (line : Line) :
    Bracket.parens.net (f line).chars = Bracket.parens.net line.chars :=
  (hf.sameShape line).parens_eq

theorem forall_isBlank_map (hf : AddsTail f index) {blanks : List Line}
    (h : ∀ line ∈ blanks, line.isBlank = true) : ∀ line ∈ blanks.map f, line.isBlank = true := by
  rw [List.forall_mem_map]
  intro line hline
  rw [(hf.sameShape line).isBlank_eq, h line hline]

theorem wrapped_map_iff (hf : AddsTail f index) (lines : List Line) :
    Wrapped lookahead (lines.map f) ↔ Wrapped lookahead lines := by
  have hblank : Line.isBlank ∘ f = Line.isBlank := by
    funext line
    exact (hf.sameShape line).isBlank_eq
  rw [wrapped_iff, wrapped_iff, List.takeWhile_map, List.dropWhile_map, hblank, List.length_map,
    List.head?_map]
  cases (lines.dropWhile Line.isBlank).head? with
  | none => rfl
  | some line =>
    apply and_congr_right
    intro _
    exact (hf.sameShape line).opensList_iff

/-- A signature takes the changed lines as before, unless it goes on behind the changed one. -/
theorem spans_map (hf : AddsTail f index) (h : Spans lookahead span rest last)
    (hlines : Ascending (span ++ rest))
    (hkept : (Bracket.parens.firstClosed? .word (span ++ rest)).map Line.index = some index →
      last.index ≤ index) :
    Spans lookahead (span.map f) (rest.map f) (f last) := by
  -- where results follow, the parameters close on a line that has not changed
  have hother : ∀ {parameters behind : List Line} {closing : Line},
      span ++ rest = parameters ++ behind → Bracket.parens.ClosesOn 0 parameters closing →
      last ∈ behind → closing.index ≠ index := by
    intro parameters behind closing hsplit hcloses hmem heq
    rw [hsplit] at hlines hkept
    have hle := hkept (by rw [Bracket.firstClosed?_of_closesOn hlines hcloses, ← heq]; rfl)
    have hlt := hlines.lt_of_append (List.mem_of_getLast? hcloses.getLast?) hmem
    omega
  cases h with
  | unclosed hstays hlast =>
    exact .unclosed (hstays.map hf.parens_net) (by rw [List.getLast?_map, hlast]; rfl)
  | behind hcloses htail => exact .behind (hcloses.map hf.parens_net) (hf.tail_ne_nil last htail)
  | alone hcloses htail hrest =>
    by_cases htail' : tailAfterLastParen (f last).chars = []
    · exact .alone (hcloses.map hf.parens_net) htail' (mt (hf.wrapped_map_iff rest).1 hrest)
    · exact .behind (hcloses.map hf.parens_net) htail'
  | @wrapped parameters blanks results rest closing next last hcloses htail hblanks hbudget hnext
      hresults =>
    have hmem : last ∈ blanks ++ next :: results ++ rest :=
      List.mem_append_left rest
        (List.mem_append_right blanks (List.mem_of_getLast? hresults.getLast?))
    have hne := hother (List.append_assoc ..) hcloses hmem
    simp only [List.map_append, List.map_cons]
    exact .wrapped (hcloses.map hf.parens_net) (hf.tail_eq_nil closing hne htail)
      (hf.forall_isBlank_map hblanks)
      (by rwa [List.length_map]) ((hf.sameShape next).opensList_iff.2 hnext)
      (hresults.map hf.parens_net)
  | @wrappedUnclosed parameters blanks results closing next last hcloses htail hblanks hbudget
      hnext hresults hlast =>
    have hmem : last ∈ blanks ++ next :: results ++ [] :=
      List.mem_append_left [] (List.mem_append_right blanks (List.mem_of_getLast? hlast))
    have hne := hother (List.append_assoc ..) hcloses hmem
    simp only [List.map_append, List.map_cons]
    exact .wrappedUnclosed (hcloses.map hf.parens_net) (hf.tail_eq_nil closing hne htail)
      (hf.forall_isBlank_map hblanks)
      (by rwa [List.length_map]) ((hf.sameShape next).opensList_iff.2 hnext)
      (hresults.map hf.parens_net) (by rw [← List.map_cons, List.getLast?_map, hlast]; rfl)

/-- The changed lines are read as before, unless a signature goes on behind the changed one. -/
theorem reads_map (hf : AddsTail f index) (h : Reads lookahead owner lines signatures)
    (hlines : Ascending lines)
    (hkept : ∀ method ∈ signatures, ¬ method.GoesOnBehind .word lines index) :
    Reads lookahead owner (lines.map f) signatures := by
  induction h with
  | done => exact .done
  | @skip line rest signatures hline hrest ih =>
    refine .skip ((hf.sameShape line).signature_eq.trans hline) (ih hlines.of_cons ?_)
    intro method hmethod hbehind
    obtain ⟨start, hstart, hat⟩ := hrest.exists_line hmethod
    have hbefore : ∀ other ∈ [line], other.index < method.line := by
      intro other hother
      rw [List.mem_singleton.1 hother, hat]
      exact List.rel_of_pairwise_cons hlines hstart
    exact hkept method hmethod ((Signature.goesOnBehind_append hbefore .word index).2 hbehind)
  | @signature line last inner rest draft signatures hline hspans hrest ih =>
    have hstart : draft.line = line.index := (Body.reaches_of_ofLine? hline).2.1
    have hlast : (f last).index = last.index := (hf.sameShape last).index_eq
    have hfrom : (line :: inner ++ rest).filter (fun other => draft.line ≤ other.index) =
        line :: inner ++ rest := by
      have hwhole : Ascending ([] ++ line :: (inner ++ rest)) := hlines
      rw [hstart]
      exact hwhole.filter_ge
    have hfirst := hkept _ (List.mem_cons_self ..)
    have hspans' : Spans lookahead (f line :: inner.map f) (rest.map f) (f last) := by
      apply hf.spans_map hspans hlines
      intro hclosed
      by_contra hlt
      apply hfirst
      exact ⟨by rw [← hclosed]; exact congrArg _ (congrArg _ hfrom), Nat.lt_of_not_le hlt⟩
    rw [List.map_append, List.map_cons, ← hlast]
    refine .signature ((hf.sameShape line).signature_eq.trans hline) hspans'
      (ih hlines.of_append_right ?_)
    intro method hmethod hbehind
    obtain ⟨start, hmem, hat⟩ := hrest.exists_line hmethod
    have hbefore : ∀ other ∈ line :: inner, other.index < method.line := by
      intro other hother
      rw [hat]
      exact hlines.lt_of_append hother hmem
    exact hkept method (List.mem_cons_of_mem _ hmethod)
      ((Signature.goesOnBehind_append hbefore .word index).2 hbehind)

end AddsTail

/-! ## Changed texts -/

namespace Document

/-- The results of a signature whose parameters close on the line with a number stand behind that
line. -/
def ResultsBehind (document : Document) (counting : Counting) (lookahead index : Nat) : Prop :=
  ∃ interface ∈ document.interfaces lookahead, ∃ method ∈ interface.methods,
    method.GoesOnBehind counting (document.bodyLines interface) index

variable {counting : Counting} {text other : String} {f : Line → Line} {index : Nat}

/-- All ways to count that are good enough for a text find the same results. -/
theorem resultsBehind_of_fits (hfits : counting.Fits text) (lookahead index : Nat) :
    (ofText text).ResultsBehind counting lookahead index ↔
      (ofText text).ResultsBehind .word lookahead index := by
  have hclosed : ∀ (interface : Interface) (method : Signature),
      Bracket.parens.firstClosed? counting (((ofText text).bodyLines interface).filter fun line =>
          method.line ≤ line.index) =
        Bracket.parens.firstClosed? .word (((ofText text).bodyLines interface).filter fun line =>
          method.line ≤ line.index) := by
    intro interface method
    exact hfits.firstClosed?_eq (List.filter_sublist.trans (bodyLines_sublist _ _)) .parens
  simp only [ResultsBehind, Signature.GoesOnBehind, hclosed]

theorem bodyLines_map (hf : ∀ line, (f line).SameShape line)
    (hlines : (ofText other).lines = (ofText text).lines.map f) {interface interface' : Interface}
    (hheading : interface'.heading = interface.heading) :
    (ofText other).bodyLines interface' = ((ofText text).bodyLines interface).map f := by
  obtain ⟨_, hstart, hend⟩ : interface'.name = interface.name ∧
      interface'.startLine = interface.startLine ∧ interface'.endLine = interface.endLine := by
    simpa [Interface.heading] using hheading
  simp only [bodyLines, codeLines, hlines, List.filter_map, Function.comp_def, hstart, hend,
    (hf _).isComment_eq, (hf _).index_eq]

/-- An interface is the same in the changed text, unless a signature goes on behind the changed
line. -/
theorem interface_eq (hf : AddsTail f index)
    (hlines : (ofText other).lines = (ofText text).lines.map f) {lookahead : Nat}
    (hkept : ¬ (ofText text).ResultsBehind .word lookahead index) {interface interface' : Interface}
    (hmem : interface ∈ (ofText text).interfaces lookahead)
    (hmem' : interface' ∈ (ofText other).interfaces lookahead)
    (hheading : interface'.heading = interface.heading) : interface' = interface := by
  have hreads := hf.reads_map (reads_methods hmem) (bodyLines_ascending text interface)
    fun method hmethod hbehind => hkept ⟨interface, hmem, method, hmethod, hbehind⟩
  have hreads' := reads_methods hmem'
  have hascending := bodyLines_ascending other interface'
  rw [bodyLines_map hf.sameShape hlines hheading] at hreads' hascending
  obtain ⟨name, start, stop, methods⟩ := interface
  obtain ⟨name', start', stop', methods'⟩ := interface'
  obtain ⟨rfl, rfl, rfl⟩ : name' = name ∧ start' = start ∧ stop' = stop := by
    simpa [Interface.heading] using hheading
  simp only at hreads hreads'
  rw [hreads'.unique hreads hascending]

/-- In the changed text, a signature whose parameters close on the changed line ends there, if code
was put behind the line. -/
theorem endLine_eq (hf : AddsTail f index)
    (hlines : (ofText other).lines = (ofText text).lines.map f)
    (htail : ∀ line ∈ (ofText text).lines, line.index = index →
      tailAfterLastParen (f line).chars ≠ []) {lookahead : Nat} {interface : Interface}
    (hmem : interface ∈ (ofText other).interfaces lookahead) {method : Signature}
    (hmethod : method ∈ interface.methods)
    (hclosed : (Bracket.parens.firstClosed? .word (((ofText text).bodyLines interface).filter
      fun line => method.line ≤ line.index)).map Line.index = some index) :
    method.endLine = index := by
  obtain ⟨before, line, inner, rest, last, draft, hsplit, hdraft, hspans, rfl⟩ :=
    (reads_methods hmem).exists_spans_of_mem hmethod
  obtain ⟨closing, hclosing, hindex⟩ := Option.map_eq_some_iff.1 hclosed
  have hascending := bodyLines_ascending other interface
  rw [hsplit, List.cons_append] at hascending
  have hstart : draft.line = line.index := (Body.reaches_of_ofLine? hdraft).2.1
  -- the lines from the first one of the signature on are the changed lines
  have hfrom : line :: inner ++ rest =
      (((ofText text).bodyLines interface).filter fun line => draft.line ≤ line.index).map f := by
    have hfilter := congrArg (List.filter fun other => draft.line ≤ other.index) hsplit
    rw [bodyLines_map hf.sameShape hlines rfl, List.filter_map, hstart, List.cons_append,
      hascending.filter_ge] at hfilter
    rw [hstart, List.cons_append, ← hfilter]
    simp only [Function.comp_def, (hf.sameShape _).index_eq]
  have hfirst : Bracket.parens.firstClosed? .word (line :: inner ++ rest) =
      some (f closing) := by
    rw [hfrom, Bracket.firstClosed?_map hf.parens_net fun line => (hf.sameShape line).index_eq]
    exact congrArg (Option.map f) hclosing
  have hline : closing ∈ (ofText text).lines := by
    have hbody := List.mem_of_mem_filter (List.mem_of_find?_eq_some hclosing)
    exact (mem_bodyLines.1 hbody).1.1
  have hlast : some (f closing) = some last := by
    rw [← completion?_of_tail hfirst (htail closing hline hindex)]
    exact completion?_of_spans hspans hascending.of_append_right
  rw [← hindex, ← (hf.sameShape closing).index_eq, Option.some.inj hlast]
  rfl

/-- A text in which code was put behind a line has the same outline exactly if no results stand
behind that line. -/
theorem outline_eq_iff (hfits : counting.Fits text) (hf : AddsTail f index)
    (hlines : (ofText other).lines = (ofText text).lines.map f)
    (htail : ∀ line ∈ (ofText text).lines, line.index = index →
      tailAfterLastParen (f line).chars ≠ []) (lookahead : Nat) :
    (ofText other).outline lookahead = (ofText text).outline lookahead ↔
      ¬ (ofText text).ResultsBehind counting lookahead index := by
  rw [resultsBehind_of_fits hfits]
  have hshape : List.Forall₂ Line.SameShape (ofText other).lines (ofText text).lines := by
    rw [hlines]
    exact hf.forall₂_sameShape _
  constructor
  · rintro heq ⟨interface, hmem, method, hmethod, hclosed, hlt⟩
    have hinterfaces : (ofText other).interfaces lookahead = (ofText text).interfaces lookahead :=
      congrArg Outline.interfaces heq
    rw [← hinterfaces] at hmem
    have hend := endLine_eq hf hlines htail hmem hmethod hclosed
    omega
  · intro hkept
    have hheadings := interfaces_map_heading hshape lookahead
    have hinterfaces : (ofText other).interfaces lookahead =
        (ofText text).interfaces lookahead := by
      apply List.ext_getElem (by simpa using congrArg List.length hheadings)
      intro place hplace hplace'
      apply interface_eq hf hlines hkept (List.getElem_mem _) (List.getElem_mem _)
      simpa [hplace, hplace'] using congrArg (·[place]?) hheadings
    rw [outline, outline, hinterfaces, receiverMethods_sameShape hshape]

end Document

end Wayfinder
