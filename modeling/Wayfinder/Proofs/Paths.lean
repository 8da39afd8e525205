import Wayfinder.Path
import Wayfinder.Proofs.Utf8

/-!
# Names and absolute paths

* A `Name` is neither idle nor leads up, and holds neither a slash nor a zero byte.  So the
  absolute path of names is divided into these names again (`parts_absolute`), and names
  that have one absolute path are the same (`absolute_injective`).
* `Path.shown` is the path that is spelled by the text which shows a path.  The two are
  divided alike, part by part (`parts_shown`), although a part may be another one.
* `Path.IsText`: a path that a text spells.  Only such a path is shown as it is
  (`isText_iff`).
-/

namespace Wayfinder

namespace Name

variable (name : Name)

theorem bytes_injective {name other : Name} (h : name.bytes = other.bytes) : name = other := by
  cases name
  cases other
  cases h
  rfl

theorem map_bytes_injective {names others : List Name}
    (h : names.map Name.bytes = others.map Name.bytes) : names = others :=
  List.map_injective_iff.2 (fun _ _ => bytes_injective) h

theorem isName_cases : Path.isIdle name.bytes = false ∧ Path.leadsUp name.bytes = false ∧
    Path.slash ∉ name.bytes ∧ 0 ∉ name.bytes ∧ name.bytes.length ≤ Path.nameLimit := by
  have h := name.isName
  simp only [Path.isName, Bool.and_eq_true, Bool.not_eq_true', decide_eq_true_eq] at h
  obtain ⟨⟨⟨⟨hidle, hup⟩, hslash⟩, hzero⟩, hlength⟩ := h
  refine ⟨hidle, hup, ?_, ?_, hlength⟩
  · rwa [← List.contains_iff_mem, Bool.not_eq_true]
  · rwa [← List.contains_iff_mem, Bool.not_eq_true]

@[simp] theorem isIdle_bytes : Path.isIdle name.bytes = false :=
  name.isName_cases.1

@[simp] theorem leadsUp_bytes : Path.leadsUp name.bytes = false :=
  name.isName_cases.2.1

theorem no_slash : Path.slash ∉ name.bytes :=
  name.isName_cases.2.2.1

theorem length_le : name.bytes.length ≤ Path.nameLimit :=
  name.isName_cases.2.2.2.2

theorem ne_nil : name.bytes ≠ [] := by
  intro hnil
  have hidle := name.isIdle_bytes
  rw [hnil] at hidle
  cases hidle

@[simp] theorem isAbsolute_bytes : Path.isAbsolute name.bytes = false := by
  unfold Path.isAbsolute
  rw [beq_eq_false_iff_ne]
  intro hhead
  exact name.no_slash (List.mem_of_mem_head? hhead)

/-- Bytes spell a name if it has these bytes. -/
theorem ofBytes?_eq_some_iff {bytes : List UInt8} {name : Name} :
    ofBytes? bytes = some name ↔ name.bytes = bytes := by
  unfold ofBytes?
  constructor
  · intro h
    split at h
    · rw [← Option.some.inj h]
    · cases h
  · rintro rfl
    rw [dif_pos name.isName]

end Name

namespace Path

/-! ## Absolute paths -/

theorem isAbsolute_absolute (names : List Name) : isAbsolute (absolute names) = true := by
  rfl

/-- An absolute path stands for itself everywhere. -/
theorem join_of_isAbsolute {path : Path} (h : isAbsolute path = true) (base : Path) :
    join base path = path := by
  rw [join, h, Bool.true_or, if_pos rfl]

/-- The parts of an absolute path of names are an empty one and the names. -/
theorem parts_absolute {names : List Name} (hne : names ≠ []) :
    parts (absolute names) = [] :: names.map Name.bytes := by
  rw [parts, absolute, List.splitOn_cons_eq_if_modifyHead, if_pos (beq_self_eq_true _),
    List.splitOn_intercalate]
  · intro part hpart
    obtain ⟨name, _, rfl⟩ := List.mem_map.1 hpart
    exact name.no_slash
  · simpa using hne

theorem parts_absolute_nil : parts (absolute []) = [[], []] := by
  decide

/-- No part of an absolute path leads up. -/
theorem leadsUp_of_mem_parts_absolute {names : List Name} {part : List UInt8}
    (h : part ∈ parts (absolute names)) : leadsUp part = false := by
  by_cases hne : names = []
  · rw [hne, parts_absolute_nil] at h
    simp only [List.mem_cons, List.not_mem_nil, or_false, or_self] at h
    rw [h]
    rfl
  · rw [parts_absolute hne] at h
    rcases List.mem_cons.1 h with rfl | h
    · rfl
    · obtain ⟨name, _, rfl⟩ := List.mem_map.1 h
      exact name.leadsUp_bytes

/-- Paths with the same parts are the same. -/
theorem parts_injective {path other : Path} (h : parts path = parts other) : path = other := by
  have hparts := congrArg [slash].intercalate h
  rwa [parts, parts, List.intercalate_splitOn, List.intercalate_splitOn] at hparts

/-- An absolute path is a slash and a name, over and over. -/
theorem absolute_eq_flatMap {names : List Name} (hne : names ≠ []) :
    absolute names = names.flatMap fun name => slash :: name.bytes := by
  unfold absolute
  induction names with
  | nil => exact absurd rfl hne
  | cons name more ih =>
    cases more with
    | nil => simp
    | cons next rest =>
      rw [List.flatMap_cons, ← ih (List.cons_ne_nil _ _)]
      simp [List.intercalate_cons_cons]

/-- The names of an absolute path. -/
theorem names_absolute (names : List Name) :
    Path.names (absolute names) = names.map Name.bytes := by
  unfold Path.names
  by_cases hne : names = []
  · rw [hne, parts_absolute_nil]
    rfl
  · rw [parts_absolute hne, List.filter_cons_of_neg (by decide), List.filter_eq_self]
    intro part hpart
    obtain ⟨name, _, rfl⟩ := List.mem_map.1 hpart
    rw [name.isIdle_bytes, Bool.not_false]

/-- An entry of a directory is named by one more name. -/
theorem join_absolute (names : List Name) (name : Name) :
    join (absolute names) name.bytes = absolute (names ++ [name]) := by
  rcases List.eq_nil_or_concat' names with rfl | ⟨front, last, rfl⟩
  · have hroot : absolute [] = [slash] := by decide
    rw [hroot, join, name.isAbsolute_bytes]
    simp [absolute]
  · -- The base ends with the last name, which is not empty and holds no slash.
    have hend : ((absolute (front ++ [last])).getLast? == some slash) = false := by
      rw [beq_eq_false_iff_ne, absolute_eq_flatMap (by simp), List.flatMap_append,
        List.flatMap_singleton, ← List.singleton_append, ← List.append_assoc,
        List.getLast?_append_of_ne_nil _ last.ne_nil]
      intro hend
      exact last.no_slash (List.mem_of_getLast? hend)
    have hempty : (absolute (front ++ [last])).isEmpty = false := rfl
    rw [join, name.isAbsolute_bytes, hempty, hend]
    simp only [Bool.or_self, Bool.false_eq_true, if_false]
    rw [absolute_eq_flatMap (by simp), absolute_eq_flatMap (by simp)]
    simp

/-! ## What is shown of a path -/

/-- The path that is spelled by the text which shows a path. -/
def shown (path : Path) : Path :=
  ofText (display path)

theorem display_ofText (text : String) : display (ofText text) = text := by
  rw [display, ofText, Text.Utf8.bytes, Text.Utf8.decodeLossy_encode, String.ofList_toList]

theorem shown_ofText (text : String) : shown (ofText text) = ofText text := by
  rw [shown, display_ofText]

theorem ofText_injective {text other : String} (h : ofText text = ofText other) :
    text = other := by
  rw [← display_ofText text, h, display_ofText]

/-- Slashes stay where they are. -/
theorem shown_append_slash (front back : Path) :
    shown (front ++ slash :: back) = shown front ++ slash :: shown back := by
  have hslash : Text.Utf8.encode [Char.ofNat slash.toNat] = [slash] := by decide
  have hsmall : slash.toNat < 0x80 := by decide
  unfold shown ofText display Text.Utf8.bytes
  rw [Text.Utf8.decodeLossy_append_cons hsmall, String.toList_append, String.toList_append,
    String.toList_ofList, Text.Utf8.encode_append, Text.Utf8.encode_append, hslash,
    List.append_assoc, List.singleton_append]

/-- What shows a part without a slash has none. -/
theorem slash_not_mem_shown {part : List UInt8} (h : slash ∉ part) : slash ∉ shown part := by
  intro hmem
  obtain ⟨char, hchar, hsmall, hslash⟩ :=
    Text.Utf8.exists_of_mem_encode hmem (by decide)
  rw [hslash] at h
  exact h (Text.Utf8.mem_of_mem_decodeLossy hchar hsmall)

/-- The parts of what shows a path are what shows its parts. -/
theorem parts_shown (path : Path) : parts (shown path) = (parts path).map shown := by
  by_cases hslash : slash ∈ path
  · obtain ⟨front, back, rfl⟩ := List.append_of_mem hslash
    have hfront := parts_shown front
    have hback := parts_shown back
    unfold parts at hfront hback ⊢
    rw [shown_append_slash, List.splitOn_append_cons_self, List.splitOn_append_cons_self,
      hfront, hback, List.map_append]
  · unfold parts
    rw [List.splitOn_eq_singleton hslash, List.splitOn_eq_singleton (slash_not_mem_shown hslash),
      List.map_singleton]
termination_by path.length
decreasing_by
  all_goals
    subst_vars
    rw [List.length_append, List.length_cons]
    omega

/-- A text of characters below 128 shows only the path that it spells. -/
theorem shown_eq_ofText_iff {path : Path} (text : String)
    (htext : ∀ char ∈ text.toList, char.toNat < 0x80) :
    shown path = ofText text ↔ path = ofText text := by
  constructor
  · intro h
    have hdisplay : display path = text := ofText_injective h
    rw [← hdisplay] at htext ⊢
    exact Text.Utf8.eq_encode_of_decodeLossy htext
  · rintro rfl
    exact shown_ofText text

theorem shown_eq_nil_iff {path : Path} : shown path = [] ↔ path = [] :=
  shown_eq_ofText_iff "" (Text.Utf8.small_of_all (by decide))

theorem isIdle_shown (part : List UInt8) : isIdle (shown part) = isIdle part := by
  have hdot : shown part = [dot] ↔ part = [dot] :=
    shown_eq_ofText_iff "." (Text.Utf8.small_of_all (by decide))
  rw [Bool.eq_iff_iff]
  simp only [isIdle, Bool.or_eq_true, List.isEmpty_iff, beq_iff_eq, shown_eq_nil_iff, hdot]

theorem leadsUp_shown (part : List UInt8) : leadsUp (shown part) = leadsUp part := by
  have hdots : shown part = [dot, dot] ↔ part = [dot, dot] :=
    shown_eq_ofText_iff ".." (Text.Utf8.small_of_all (by decide))
  rw [Bool.eq_iff_iff]
  simp only [leadsUp, beq_iff_eq, hdots]

theorem names_shown (path : Path) : Path.names (shown path) = (Path.names path).map shown := by
  unfold Path.names
  rw [parts_shown, List.filter_map]
  simp only [Function.comp_def, isIdle_shown]

/-- An absolute path is shown by the path of other names where these show its own. -/
theorem shown_absolute {names others : List Name}
    (h : others.map Name.bytes = (names.map Name.bytes).map shown) :
    shown (absolute names) = absolute others := by
  have hnil : shown [] = [] := shown_eq_nil_iff.2 rfl
  apply parts_injective
  rw [parts_shown]
  by_cases hne : names = []
  · have hothers : others = [] := by simpa [hne] using h
    rw [hne, hothers, parts_absolute_nil, List.map_cons, List.map_cons, hnil, List.map_nil]
  · have hothers : others ≠ [] := by
      rintro rfl
      simp [hne] at h
    rw [parts_absolute hne, parts_absolute hothers, h, List.map_cons, hnil]

theorem isAbsolute_shown {path : Path} (h : isAbsolute path = true) :
    isAbsolute (shown path) = true := by
  obtain ⟨rest, rfl⟩ := List.head?_eq_some_iff.1 (eq_of_beq h)
  have hshown := shown_append_slash [] rest
  rw [shown_eq_nil_iff.2 rfl] at hshown
  simp only [List.nil_append] at hshown
  rw [hshown]
  rfl

end Path

end Wayfinder
