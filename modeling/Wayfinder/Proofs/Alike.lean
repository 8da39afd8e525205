import Wayfinder.Outline
import Wayfinder.Proofs.Interface.Segmentation
import Wayfinder.Proofs.Receiver

/-!
# Lines that a scan cannot tell apart

A scan looks at a line in a few ways only: it reads a heading at the start, counts brackets,
and asks whether the line is blank, whether it opens with a parenthesis and whether code
stands behind the last parenthesis.  Lines for which all of this is the same are alike.

* `Line.Alike` lists what a scan asks about a line.  `Line.SameShape` leaves out the code behind
  the last parenthesis, which decides nothing but where a signature ends.
* `Body.Counts` says that an open interface counts curly brackets, and its signature round
  ones.  It holds in every state that a scan reaches.
* One step of the scan for interfaces does the same on alike lines (`Scanner.step_alike`).  The
  scan for methods with a receiver does so on lines of one shape
  (`ReceiverMethod.among_sameShape`).
* `Document.outline_alike`: texts with alike lines have the same outline.
-/

namespace Wayfinder

/-- Two lines about which every question of a scan has the same answer, apart from whether code
stands behind the last parenthesis. -/
structure Line.SameShape (line other : Line) : Prop where
  index_eq : line.index = other.index
  isComment_eq : line.isComment = other.isComment
  isBlank_eq : line.isBlank = other.isBlank
  opensList_iff : line.trimmed.head? = some '(' ↔ other.trimmed.head? = some '('
  parens_eq : Bracket.parens.net line.chars = Bracket.parens.net other.chars
  braces_eq : Bracket.braces.net line.chars = Bracket.braces.net other.chars
  interface_eq : ∀ lookahead, Body.ofLine? lookahead line = Body.ofLine? lookahead other
  signature_eq : Draft.ofLine? line = Draft.ofLine? other
  receiver_eq : ∀ following,
    ReceiverMethod.ofLine? line following = ReceiverMethod.ofLine? other following

/-- Two lines about which every question of a scan has the same answer. -/
structure Line.Alike (line other : Line) : Prop extends Line.SameShape line other where
  tail_eq : (tailAfterLastParen line.chars).isEmpty = (tailAfterLastParen other.chars).isEmpty

namespace Line.SameShape

variable {line other : Line}

theorem refl (line : Line) : line.SameShape line :=
  ⟨rfl, rfl, rfl, Iff.rfl, rfl, rfl, fun _ => rfl, rfl, fun _ => rfl⟩

theorem feed_parens (h : line.SameShape other) {depth : Depth} (hdepth : depth.bracket = .parens) :
    depth.feed line.chars = depth.feed other.chars := by
  rw [depth.eq_ofCount, hdepth, Depth.feed_parens, Depth.feed_parens, h.parens_eq]

theorem feed_braces (h : line.SameShape other) {depth : Depth} (hdepth : depth.bracket = .braces) :
    depth.feed line.chars = depth.feed other.chars := by
  rw [depth.eq_ofCount, hdepth, Depth.feed_braces, Depth.feed_braces, h.braces_eq]

end Line.SameShape

theorem Line.Alike.refl (line : Line) : line.Alike line :=
  ⟨.refl line, rfl⟩

/-! ## What is counted -/

/-- An interface counts curly brackets, and the signature that it reads counts round ones. -/
structure Body.Counts (body : Body) : Prop where
  braces : body.braces.bracket = .braces
  parens : ∀ draft ∈ body.draft, draft.parens.bracket = .parens

namespace Body

variable {body : Body} {draft : Draft} {line : Line}

theorem Counts.read (h : body.Counts) (line : Line) : (body.read line).Counts := by
  refine ⟨?_, ?_⟩
  · rw [read_braces]
    exact h.braces
  · intro kept hkept
    rcases parens_of_mem_readSignatures hkept with hparens | ⟨draft, hdraft, hparens | hparens⟩
    · rw [hparens]
      rfl
    · rw [hparens]
      exact h.parens draft hdraft
    · rw [hparens]
      exact h.parens draft hdraft

theorem counts_of_ofLine? {lookahead : Nat} (h : ofLine? lookahead line = some body) :
    body.Counts := by
  obtain ⟨reading, span, _, _, rfl⟩ := ofLine?_eq_some_iff.1 h
  exact ⟨rfl, by rintro _ ⟨⟩⟩

/-! ## Reading alike lines -/

variable {other : Line}

theorem afterParameters_alike (h : line.Alike other) (body : Body) (draft : Draft) :
    body.afterParameters draft line = body.afterParameters draft other := by
  simp only [afterParameters_eq, h.tail_eq, h.index_eq]

theorem afterResults_alike (h : line.SameShape other) (body : Body) (draft : Draft) :
    body.afterResults draft line = body.afterResults draft other := by
  simp only [afterResults_eq, h.index_eq]

theorem begin_alike (h : line.Alike other) (body : Body) : body.begin line = body.begin other := by
  simp only [begin_eq, h.signature_eq, afterParameters_alike h]

theorem resume_alike (h : line.Alike other) (body : Body)
    (hdraft : draft.parens.bracket = .parens) :
    body.resume draft line = body.resume draft other := by
  have hfresh : Depth.ofParens line.chars = Depth.ofParens other.chars := h.feed_parens rfl
  simp only [resume_eq, h.feed_parens hdraft, hfresh, h.index_eq, h.isBlank_eq, h.opensList_iff,
    afterParameters_alike h, afterResults_alike h.toSameShape]

theorem read_alike (h : line.Alike other) (hcounts : body.Counts) :
    body.read line = body.read other := by
  have hsignatures : body.readSignatures line = body.readSignatures other := by
    simp only [readSignatures_eq, begin_alike h]
    split
    · rfl
    · rename_i draft hdraft
      rw [resume_alike h body (hcounts.parens draft hdraft)]
  rw [read_eq, read_eq, hsignatures,
    h.feed_braces (by rw [readSignatures_braces]; exact hcounts.braces)]

end Body

namespace Scanner

variable {scanner : Scanner} {line other : Line} {lines others : List Line}

/-- The interface that is open counts as it should. -/
def Counts (scanner : Scanner) : Prop :=
  ∀ body ∈ scanner.body, body.Counts

theorem initial_counts : initial.Counts := by
  rintro _ ⟨⟩

theorem Counts.settle {body : Body} (h : body.Counts) (scanner : Scanner) (line : Line) :
    (scanner.settle body line).Counts := by
  rw [Scanner.settle_eq]
  split
  · rintro _ ⟨⟩
  · rintro _ ⟨⟩
    exact h

theorem Counts.step (h : scanner.Counts) (lookahead : Nat) (line : Line) :
    (scanner.step lookahead line).Counts := by
  rw [Scanner.step_eq]
  split
  · exact h
  · split
    · rename_i body hbody
      exact Counts.settle ((h body hbody).read line) scanner line
    · split
      · rename_i body hbody
        exact Counts.settle (Body.counts_of_ofLine? hbody) scanner line
      · exact h

/-- Alike lines take a scanner to the same state. -/
theorem step_alike (h : line.Alike other) (hcounts : scanner.Counts) (lookahead : Nat) :
    scanner.step lookahead line = scanner.step lookahead other := by
  have hsettle : ∀ body : Body, scanner.settle body line = scanner.settle body other := by
    intro body
    simp only [settle_eq, h.index_eq]
  simp only [step_eq, h.isComment_eq, h.interface_eq, hsettle]
  split
  · rfl
  · split
    · rename_i body hbody
      rw [Body.read_alike h (hcounts body hbody)]
    · rfl

/-- So do lists of alike lines. -/
theorem sweep_alike (h : List.Forall₂ Line.Alike lines others) (hcounts : scanner.Counts)
    (lookahead : Nat) :
    sweep (Scanner.step lookahead) scanner lines =
      sweep (Scanner.step lookahead) scanner others := by
  induction h generalizing scanner with
  | nil => rfl
  | cons hline _ ih =>
    rw [sweep_cons, sweep_cons, step_alike hline hcounts]
    exact ih (hcounts.step lookahead _)

/-- Lines of one shape take a scanner to states that cut alike. -/
theorem cut_step_sameShape (h : line.SameShape other) (hcounts : scanner.Counts)
    (lookahead : Nat) :
    (scanner.step lookahead line).cut = (scanner.step lookahead other).cut := by
  have hsettle : ∀ body : Body, scanner.settle body line = scanner.settle body other := by
    intro body
    simp only [settle_eq, h.index_eq]
  simp only [step_eq, h.isComment_eq, h.interface_eq, hsettle]
  split
  · rfl
  · split
    · rename_i body hbody
      apply cut_settle rfl
      rw [Body.frame_read, Body.frame_read, h.feed_braces (hcounts body hbody).braces]
    · rfl

theorem cut_sweep_sameShape (h : List.Forall₂ Line.SameShape lines others) {scanner' : Scanner}
    (hcut : scanner.cut = scanner'.cut) (hcounts : scanner.Counts) (lookahead : Nat) :
    (sweep (Scanner.step lookahead) scanner lines).cut =
      (sweep (Scanner.step lookahead) scanner' others).cut := by
  induction h generalizing scanner scanner' with
  | nil => exact hcut
  | cons hline _ ih =>
    apply ih _ (hcounts.step lookahead _)
    rw [cut_step_sameShape hline hcounts, cut_step hcut]

end Scanner

namespace ReceiverMethod

variable {lines others : List Line}

theorem endFrom_sameShape (h : List.Forall₂ Line.SameShape lines others) {parens braces : Depth}
    (hparens : parens.bracket = .parens) (hbraces : braces.bracket = .braces) (last : Nat) :
    endFrom parens braces last lines = endFrom parens braces last others := by
  induction h generalizing parens braces last with
  | nil => rfl
  | @cons line other lines others hline _ ih =>
    -- a depth that is fed counts the same brackets as before
    have hfed : ∀ last, endFrom (parens.feed other.chars) (braces.feed other.chars) last lines =
        endFrom (parens.feed other.chars) (braces.feed other.chars) last others :=
      ih hparens hbraces
    simp only [endFrom_cons, hline.isComment_eq, hline.index_eq, hline.feed_parens hparens,
      hline.feed_braces hbraces, ih hparens hbraces, hfed]

theorem among_sameShape (h : List.Forall₂ Line.SameShape lines others) :
    among lines = among others := by
  induction h with
  | nil => rfl
  | cons hline hmore ih =>
    rw [among, among, hline.isComment_eq, hline.receiver_eq, ih, ofLine?_congr]
    intro reading _
    simp only [endLineOf_eq_ite]
    rw [endFrom_sameShape hmore rfl rfl]

end ReceiverMethod

namespace Document

/-- Texts with lines of one shape have the same methods with a receiver. -/
theorem receiverMethods_sameShape {text other : String}
    (h : List.Forall₂ Line.SameShape (ofText text).lines (ofText other).lines) :
    (ofText text).receiverMethods = (ofText other).receiverMethods := by
  rw [receiverMethods_eq, receiverMethods_eq, ReceiverMethod.among_sameShape h]

/-- They have the same interfaces, apart from their signatures. -/
theorem interfaces_map_heading {text other : String}
    (h : List.Forall₂ Line.SameShape (ofText text).lines (ofText other).lines) (lookahead : Nat) :
    ((ofText text).interfaces lookahead).map Interface.heading =
      ((ofText other).interfaces lookahead).map Interface.heading := by
  rw [interfaces, interfaces, size, size, h.length_eq]
  exact Scanner.map_heading_finish
    (Scanner.cut_sweep_sameShape h rfl Scanner.initial_counts lookahead) _

/-- Texts with alike lines have the same outline. -/
theorem outline_alike {text other : String}
    (h : List.Forall₂ Line.Alike (ofText text).lines (ofText other).lines) (lookahead : Nat) :
    (ofText text).outline lookahead = (ofText other).outline lookahead := by
  have hinterfaces : (ofText text).interfaces lookahead = (ofText other).interfaces lookahead := by
    rw [interfaces, interfaces, Scanner.sweep_alike h Scanner.initial_counts, size, size,
      h.length_eq]
  have hreceivers := receiverMethods_sameShape (h.imp fun _ _ hline => hline.toSameShape)
  rw [outline, outline, hinterfaces, hreceivers]

end Document

end Wayfinder
