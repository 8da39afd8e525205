import Wayfinder.Text.Lines
import Wayfinder.Proofs.Columns

/-!
# Cutting a text into lines

* `Text.splitLines_cons` is the case of a character that ends no line.
* `Text.splitLines_append` cuts a text at the end of one of its lines.
* `Text.splitLines_of_no_feed`: a text without line feeds is one line, and
  `Text.splitLines_append_feed`: so is what stands in front of the first.
* `Text.FirstLine` takes a text apart into its first line, the ending of that line and the
  rest.  Every text that is not empty has a first line (`Text.exists_firstLine`), so that one
  can go through a text line by line (`Text.byLines`).
* `Text.add_byteSize_le_of_splitLines`: a line and the lines in front of it fit into the text.
-/

namespace Wayfinder.Text

/-- A character that ends no line, alone or together with the next one, belongs to the first
line. -/
theorem splitLines_cons {c : Char} {rest : List Char} (hc : c ≠ '\n')
    (hpair : ∀ behind, c = '\r' → rest ≠ '\n' :: behind) :
    splitLines (c :: rest) =
      match splitLines rest with
      | [] => [[c]]
      | line :: more => (c :: line) :: more :=
  splitLines.eq_4 c rest hc hpair

/-- A text without lines is empty. -/
theorem eq_nil_of_splitLines {text : List Char} (h : splitLines text = []) : text = [] := by
  rw [splitLines.eq_def] at h
  split at h
  · rfl
  · cases h
  · cases h
  · split at h <;> cases h

/-- The lines of two texts of which the first ends with a line. -/
theorem splitLines_append {text : List Char} (more : List Char)
    (h : text = [] ∨ text.getLast? = some '\n') :
    splitLines (text ++ more) = splitLines text ++ splitLines more := by
  -- a last character that ends a line also ends the rest of the text, if there is one
  have hrest : ∀ {c : Char} {rest : List Char},
      (c :: rest = [] ∨ (c :: rest).getLast? = some '\n') →
        rest = [] ∨ rest.getLast? = some '\n' := by
    intro c rest hlast
    rcases List.eq_nil_or_concat' rest with rfl | ⟨front, last, rfl⟩
    · exact Or.inl rfl
    · right
      simpa [List.getLast?_cons] using hlast
  induction text using splitLines.induct with
  | case1 => rfl
  | case2 rest ih =>
    rw [List.cons_append, splitLines, splitLines, ih (hrest h), List.cons_append]
  | case3 rest ih =>
    rw [List.cons_append, List.cons_append, splitLines, splitLines, ih (hrest (hrest h)),
      List.cons_append]
  | case4 c rest hc hpair hnil ih =>
    -- the character would be the last one, and it ends no line
    rw [eq_nil_of_splitLines hnil] at h
    exact absurd (by simpa using h) hc
  | case5 c rest hc hpair line lines hlines ih =>
    have hne : rest ≠ [] := by
      rintro rfl
      cases hlines
    have hpair' : ∀ behind, c = '\r' → rest ++ more ≠ '\n' :: behind := by
      intro behind hreturn heq
      obtain ⟨d, tail, rfl⟩ := List.exists_cons_of_ne_nil hne
      obtain ⟨rfl, _⟩ := List.cons.inj heq
      exact hpair tail hreturn rfl
    rw [List.cons_append, splitLines_cons hc hpair', splitLines_cons hc hpair, ih (hrest h), hlines]
    rfl

/-- A text without line feeds is one line. -/
theorem splitLines_of_no_feed {text : List Char} (hne : text ≠ []) (h : '\n' ∉ text) :
    splitLines text = [text] := by
  induction text with
  | nil => exact absurd rfl hne
  | cons c rest ih =>
    obtain ⟨hc, hrest⟩ := not_or.1 (mt List.mem_cons.2 h)
    have hpair : ∀ behind, c = '\r' → rest ≠ '\n' :: behind := by
      intro behind _ heq
      exact hrest (heq ▸ List.mem_cons_self)
    rw [splitLines_cons (Ne.symm hc) hpair]
    by_cases hnil : rest = []
    · rw [hnil]
      rfl
    · rw [ih hnil hrest]

/-- What stands in front of the first line feed is the first line, unless a carriage return
belongs to the ending. -/
theorem splitLines_append_feed {text : List Char} (h : '\n' ∉ text)
    (hlast : text.getLast? ≠ some '\r') (rest : List Char) :
    splitLines (text ++ '\n' :: rest) = text :: splitLines rest := by
  induction text with
  | nil => rw [List.nil_append, splitLines]
  | cons c tail ih =>
    obtain ⟨hc, htail⟩ := not_or.1 (mt List.mem_cons.2 h)
    have hlastTail : tail.getLast? ≠ some '\r' := by
      intro hreturn
      apply hlast
      rw [List.getLast?_cons, hreturn]
      rfl
    have hpair : ∀ behind, c = '\r' → tail ++ '\n' :: rest ≠ '\n' :: behind := by
      intro behind hreturn heq
      cases tail with
      | nil => exact hlast (congrArg some hreturn)
      | cons d more => exact htail ((List.cons.inj heq).1 ▸ List.mem_cons_self)
    rw [List.cons_append, splitLines_cons (Ne.symm hc) hpair, ih htail hlastTail]

/-- A carriage return in front of the first line feed belongs to the ending. -/
theorem splitLines_append_returnFeed {text : List Char} (h : '\n' ∉ text) (rest : List Char) :
    splitLines (text ++ '\r' :: '\n' :: rest) = text :: splitLines rest := by
  induction text with
  | nil => rw [List.nil_append, splitLines]
  | cons c tail ih =>
    obtain ⟨hc, htail⟩ := not_or.1 (mt List.mem_cons.2 h)
    have hpair : ∀ behind, c = '\r' → tail ++ '\r' :: '\n' :: rest ≠ '\n' :: behind := by
      intro behind _ heq
      cases tail with
      | nil => cases heq
      | cons d more => exact htail ((List.cons.inj heq).1 ▸ List.mem_cons_self)
    rw [List.cons_append, splitLines_cons (Ne.symm hc) hpair, ih htail]

/-! ## Line by line -/

/-- A text is its first line, the ending of that line, and the rest.  A line ends with a line feed,
alone or behind a carriage return, or with the text. -/
inductive FirstLine : List Char → List Char → List Char → List Char → Prop where
  | feed {line rest : List Char} (hline : '\n' ∉ line) (hreturn : line.getLast? ≠ some '\r') :
      FirstLine (line ++ '\n' :: rest) line ['\n'] rest
  | returnFeed {line rest : List Char} (hline : '\n' ∉ line) :
      FirstLine (line ++ '\r' :: '\n' :: rest) line ['\r', '\n'] rest
  | last {line : List Char} (hline : '\n' ∉ line) (hne : line ≠ []) : FirstLine line line [] []

namespace FirstLine

variable {text line ending rest : List Char}

theorem text_eq (h : FirstLine text line ending rest) : text = line ++ (ending ++ rest) := by
  cases h <;> simp

theorem no_feed (h : FirstLine text line ending rest) : '\n' ∉ line := by
  cases h <;> assumption

theorem ending_mem (h : FirstLine text line ending rest) :
    ending ∈ [[], ['\n'], ['\r', '\n']] := by
  cases h <;> simp

theorem splitLines_eq (h : FirstLine text line ending rest) :
    splitLines text = line :: splitLines rest := by
  cases h with
  | feed hline hreturn => exact splitLines_append_feed hline hreturn rest
  | returnFeed hline => exact splitLines_append_returnFeed hline rest
  | last hline hne => exact splitLines_of_no_feed hne hline

theorem length_rest_lt (h : FirstLine text line ending rest) : rest.length < text.length := by
  cases h with
  | feed => simp only [List.length_append, List.length_cons]; omega
  | returnFeed => simp only [List.length_append, List.length_cons]; omega
  | last _ hne => exact List.length_pos_iff.2 hne

/-- A character that ends no line, alone or together with the next one, belongs to the first
line. -/
theorem cons (h : FirstLine text line ending rest) {c : Char} (hc : c ≠ '\n')
    (hpair : ∀ behind, c = '\r' → text ≠ '\n' :: behind) :
    FirstLine (c :: text) (c :: line) ending rest := by
  have hline : '\n' ∉ c :: line := by
    intro hmem
    rcases List.mem_cons.1 hmem with heq | hmem
    · exact hc heq.symm
    · exact h.no_feed hmem
  cases h with
  | feed _ hreturn =>
    refine .feed hline fun hlast => ?_
    cases line with
    | nil => exact hpair rest (Option.some.inj hlast) rfl
    | cons d more => exact hreturn (by rwa [List.getLast?_cons_cons] at hlast)
  | returnFeed => exact .returnFeed hline
  | last => exact .last hline (List.cons_ne_nil c _)

end FirstLine

/-- A text that is not empty has a first line. -/
theorem exists_firstLine {text : List Char} (h : text ≠ []) :
    ∃ line ending rest, FirstLine text line ending rest := by
  induction text using splitLines.induct with
  | case1 => exact absurd rfl h
  | case2 rest _ =>
    have hfirst : FirstLine ([] ++ '\n' :: rest) [] ['\n'] rest := .feed (by simp) (by simp)
    exact ⟨_, _, _, hfirst⟩
  | case3 rest _ =>
    have hfirst : FirstLine ([] ++ '\r' :: '\n' :: rest) [] ['\r', '\n'] rest :=
      .returnFeed (by simp)
    exact ⟨_, _, _, hfirst⟩
  | case4 c rest hc hpair hnil _ =>
    obtain rfl := eq_nil_of_splitLines hnil
    exact ⟨[c], _, _, .last (by simpa using Ne.symm hc) (by simp)⟩
  | case5 c rest hc hpair line lines hlines ih =>
    have hne : rest ≠ [] := by
      rintro rfl
      cases hlines
    obtain ⟨first, ending, behind, hfirst⟩ := ih hne
    exact ⟨c :: first, ending, behind, hfirst.cons hc hpair⟩

/-- What holds of the empty text, and of a text if it holds of what follows its first line, holds
of every text. -/
@[elab_as_elim]
theorem byLines {motive : List Char → Prop} (nil : motive [])
    (line : ∀ text line ending rest, FirstLine text line ending rest → motive rest → motive text)
    (text : List Char) : motive text := by
  induction hlength : text.length using Nat.strongRecOn generalizing text with
  | _ length ih =>
    by_cases hnil : text = []
    · rw [hnil]
      exact nil
    · obtain ⟨first, ending, rest, hfirst⟩ := exists_firstLine hnil
      exact line text first ending rest hfirst (ih _ (hlength ▸ hfirst.length_rest_lt) rest rfl)

/-! ## Sizes -/

/-- Where a line has ended, the lines that follow fit into the rest of the text. -/
private theorem add_byteSize_le_of_ended {rest : List Char} {ending : Nat} (hending : 0 < ending)
    (hrest : ∀ {index line}, (splitLines rest)[index]? = some line →
      index + byteSize line ≤ byteSize rest) {line : List Char} {index : Nat}
    (h : ([] :: splitLines rest)[index]? = some line) :
    index + byteSize line ≤ ending + byteSize rest := by
  cases index with
  | zero =>
    obtain rfl : [] = line := by simpa using h
    simp
  | succ index =>
    have hline := hrest (by simpa using h)
    omega

/-- A line and the lines in front of it, each of which takes at least one byte, fit into the
text. -/
theorem add_byteSize_le_of_splitLines {text line : List Char} {index : Nat}
    (h : (splitLines text)[index]? = some line) : index + byteSize line ≤ byteSize text := by
  have hfeed : 0 < '\n'.utf8Size := Char.utf8Size_pos _
  induction text using splitLines.induct generalizing index line with
  | case1 => simp [splitLines] at h
  | case2 rest ih =>
    rw [splitLines] at h
    exact add_byteSize_le_of_ended hfeed ih h
  | case3 rest ih =>
    rw [splitLines] at h
    rw [byteSize_cons, byteSize_cons, ← Nat.add_assoc]
    exact add_byteSize_le_of_ended (Nat.add_pos_right _ hfeed) ih h
  | case4 c rest hc hpair hnil ih =>
    rw [splitLines_cons hc hpair, hnil] at h
    obtain ⟨rfl, rfl⟩ : index = 0 ∧ [c] = line := by simpa [List.getElem?_singleton] using h
    rw [byteSize_cons, byteSize_cons, byteSize_nil]
    omega
  | case5 c rest hc hpair first more hlines ih =>
    rw [splitLines_cons hc hpair, hlines] at h
    rw [hlines] at ih
    rw [byteSize_cons]
    cases index with
    | zero =>
      obtain rfl : c :: first = line := by simpa using h
      have hfirst : 0 + byteSize first ≤ byteSize rest := ih rfl
      rw [byteSize_cons]
      omega
    | succ index =>
      have hmore : index + 1 + byteSize line ≤ byteSize rest := ih h
      omega

end Wayfinder.Text
