import Wayfinder.Document
import Wayfinder.Proofs.Text
import Wayfinder.Proofs.Utf8

/-!
# Classifying a line by its characters

A line is classified byte by byte.  Every byte that the classification looks for is a
character of its own, and the bytes of all other characters are told apart from those.  So
the bytes of a line say the same as its characters.

* `classifyFrom` classifies the characters of a line.
* `classifyBytes_encode`: the bytes of a text are classified like its characters.
* `classify_eq_classifyFrom`: so are those of a line.
-/

namespace Wayfinder

/-- Whether a character opens a literal: a string, a rune or a raw string. -/
def isQuote (c : Char) : Bool :=
  c == '"' || c == '\'' || c == '\x60'

/-- The verdict on the rest of a line, given what was seen before it: some comment, and some
code. -/
def classifyFrom : Zone Char → Bool → Bool → List Char → Verdict
  | zone, comment, code, [] => { isComment := comment && !code, inBlock := zone == .block }
  | .block, comment, code, '*' :: '/' :: rest => classifyFrom .code comment code rest
  | .block, comment, code, _ :: rest => classifyFrom .block comment code rest
  | .literal quote, comment, code, '\\' :: c :: rest =>
      if quote = '\x60' then classifyFrom (.literal quote) comment code (c :: rest)
      else classifyFrom (.literal quote) comment code rest
  | .literal quote, comment, code, c :: rest =>
      if c = quote then classifyFrom .code comment code rest
      else classifyFrom (.literal quote) comment code rest
  | .code, _, code, '/' :: '/' :: _ => { isComment := !code, inBlock := false }
  | .code, _, code, '/' :: '*' :: rest => classifyFrom .block true code rest
  | .code, comment, code, c :: rest =>
      if isQuote c then classifyFrom (.literal c) comment true rest
      else classifyFrom .code comment (code || !Text.isAsciiBlank c) rest

/-- A zone of a text of characters as one of its bytes. -/
def Zone.inBytes : Zone Char → Zone UInt8
  | .code => .code
  | .block => .block
  | .literal quote => .literal (UInt8.ofNat quote.toNat)

/-- The quote of a literal is one that opens literals. -/
def Zone.Proper : Zone Char → Prop
  | .literal quote => isQuote quote = true
  | _ => True

theorem isQuote_iff {c : Char} : isQuote c = true ↔ c = '"' ∨ c = '\'' ∨ c = '\x60' := by
  simp only [isQuote, Bool.or_eq_true, beq_iff_eq, or_assoc]

/-! ## Single bytes -/

section Bytes

variable {c : Char} {byte quote : UInt8} {bytes rest : List UInt8} {comment code : Bool}

theorem toNat_lt_of_isQuote (h : isQuote c = true) : c.toNat < 0x80 := by
  rcases isQuote_iff.1 h with rfl | rfl | rfl <;> decide

theorem toNat_lt_of_isAsciiBlank (h : Text.isAsciiBlank c = true) : c.toNat < 0x80 := by
  simp only [Text.isAsciiBlank, Bool.or_eq_true, beq_iff_eq] at h
  rcases h with (((rfl | rfl) | rfl) | rfl) | rfl <;> decide

theorem ofNat_toNat_beq (hc : c.toNat < 0x80) {d : Char} (hd : d.toNat < 0x80) :
    (UInt8.ofNat c.toNat == UInt8.ofNat d.toNat) = (c == d) :=
  decide_eq_decide.2 (Text.Utf8.ofNat_toNat_eq_iff hc hd)

theorem isQuoteByte_eq (h : c.toNat < 0x80) : isQuoteByte (UInt8.ofNat c.toNat) = isQuote c := by
  have hdouble := ofNat_toNat_beq h (by decide : '"'.toNat < 0x80)
  have hsingle := ofNat_toNat_beq h (by decide : '\''.toNat < 0x80)
  have hback := ofNat_toNat_beq h (by decide : '\x60'.toNat < 0x80)
  rw [isQuote, ← hdouble, ← hsingle, ← hback]
  rfl

theorem isBlankByte_eq (h : c.toNat < 0x80) :
    isBlankByte (UInt8.ofNat c.toNat) = Text.isAsciiBlank c := by
  have hspace := ofNat_toNat_beq h (by decide : ' '.toNat < 0x80)
  have htab := ofNat_toNat_beq h (by decide : '\t'.toNat < 0x80)
  have hfeed := ofNat_toNat_beq h (by decide : '\n'.toNat < 0x80)
  have hform := ofNat_toNat_beq h (by decide : '\x0C'.toNat < 0x80)
  have hreturn := ofNat_toNat_beq h (by decide : '\r'.toNat < 0x80)
  rw [Text.isAsciiBlank, ← hspace, ← htab, ← hfeed, ← hform, ← hreturn]
  rfl

/-- No byte from 128 on is a quote, a blank, or part of a mark. -/
theorem ne_of_large (hlarge : 0x80 ≤ byte.toNat) {small : UInt8} (hsmall : small.toNat < 0x80) :
    byte ≠ small := by
  rintro rfl
  omega

theorem isQuoteByte_of_large (hlarge : 0x80 ≤ byte.toNat) : isQuoteByte byte = false := by
  simp [isQuoteByte, ne_of_large hlarge]

theorem isBlankByte_of_large (hlarge : 0x80 ≤ byte.toNat) : isBlankByte byte = false := by
  simp [isBlankByte, ne_of_large hlarge]

/-! ## One byte -/

/-- A byte of a block comment that does not start its end is passed over. -/
theorem classifyBytes_block (h : ∀ more, byte = 0x2A → rest = 0x2F :: more → False) :
    classifyBytes .block comment code (byte :: rest) = classifyBytes .block comment code rest := by
  rw [classifyBytes]
  exact h

/-- A backslash in a literal that is not raw hides the byte behind it. -/
theorem classifyBytes_escape (hraw : quote ≠ 0x60) :
    classifyBytes (.literal quote) comment code (0x5C :: byte :: rest) =
      classifyBytes (.literal quote) comment code rest := by
  rw [classifyBytes, if_neg hraw]

/-- Any other byte of a literal closes it or is passed over. -/
theorem classifyBytes_literal (h : ∀ next more, byte = 0x5C → rest = next :: more → False) :
    classifyBytes (.literal quote) comment code (byte :: rest) =
      if byte = quote then classifyBytes .code comment code rest
      else classifyBytes (.literal quote) comment code rest := by
  rw [classifyBytes]
  exact h

/-- A byte of code that starts no comment opens a literal or is code or a blank. -/
theorem classifyBytes_code (hline : ∀ more, byte = 0x2F → rest = 0x2F :: more → False)
    (hblock : ∀ more, byte = 0x2F → rest = 0x2A :: more → False) :
    classifyBytes .code comment code (byte :: rest) =
      if isQuoteByte byte then classifyBytes (.literal byte) comment true rest
      else classifyBytes .code comment (code || !isBlankByte byte) rest := by
  rw [classifyBytes]
  · exact hline
  · exact hblock

/-! ## Bytes that are passed over -/

theorem classifyBytes_block_large (hlarge : ∀ byte ∈ bytes, 0x80 ≤ byte.toNat) :
    classifyBytes .block comment code (bytes ++ rest) = classifyBytes .block comment code rest := by
  induction bytes with
  | nil => rfl
  | cons byte more ih =>
    have hbyte := hlarge byte List.mem_cons_self
    rw [List.cons_append, classifyBytes_block]
    · exact ih fun other hother => hlarge other (List.mem_cons_of_mem byte hother)
    · exact fun _ hstar => absurd hstar (ne_of_large hbyte (by decide))

theorem classifyBytes_literal_large (hquote : quote.toNat < 0x80)
    (hlarge : ∀ byte ∈ bytes, 0x80 ≤ byte.toNat) :
    classifyBytes (.literal quote) comment code (bytes ++ rest) =
      classifyBytes (.literal quote) comment code rest := by
  induction bytes with
  | nil => rfl
  | cons byte more ih =>
    have hbyte := hlarge byte List.mem_cons_self
    rw [List.cons_append, classifyBytes_literal, if_neg (ne_of_large hbyte hquote)]
    · exact ih fun other hother => hlarge other (List.mem_cons_of_mem byte hother)
    · exact fun _ _ hslash => absurd hslash (ne_of_large hbyte (by decide))

theorem classifyBytes_code_large (hne : bytes ≠ [])
    (hlarge : ∀ byte ∈ bytes, 0x80 ≤ byte.toNat) :
    classifyBytes .code comment code (bytes ++ rest) = classifyBytes .code comment true rest := by
  induction bytes generalizing code with
  | nil => exact absurd rfl hne
  | cons byte more ih =>
    have hbyte := hlarge byte List.mem_cons_self
    have hmore : ∀ other ∈ more, 0x80 ≤ other.toNat :=
      fun other hother => hlarge other (List.mem_cons_of_mem byte hother)
    have hstep : classifyBytes .code comment code (byte :: (more ++ rest)) =
        classifyBytes .code comment true (more ++ rest) := by
      rw [classifyBytes_code, if_neg (by simp [isQuoteByte_of_large hbyte]),
        isBlankByte_of_large hbyte, Bool.not_false, Bool.or_true]
      · exact fun _ hslash => absurd hslash (ne_of_large hbyte (by decide))
      · exact fun _ hslash => absurd hslash (ne_of_large hbyte (by decide))
    rw [List.cons_append, hstep]
    cases more with
    | nil => rfl
    | cons next more => exact ih (List.cons_ne_nil next more) hmore

end Bytes

/-! ## The bytes of a text -/

section Text

open Text.Utf8

variable {c : Char} {rest : List Char} {comment code : Bool}

/-- Characters that are no mark of two characters are none in bytes. -/
theorem no_mark {first second : Char} (hfirst : first.toNat < 0x80) (hsecond : second.toNat < 0x80)
    (hc : c.toNat < 0x80) (h : ∀ more, c = first → rest = second :: more → False)
    (bytes : List UInt8) (hbyte : UInt8.ofNat c.toNat = UInt8.ofNat first.toNat)
    (hrest : encode rest = UInt8.ofNat second.toNat :: bytes) : False := by
  obtain ⟨more, hmore, _⟩ := head_of_encode_eq_cons hrest hsecond rfl
  exact h more ((ofNat_toNat_eq_iff hc hfirst).1 hbyte) hmore

/-- A character of a block comment that does not start its end is passed over. -/
theorem classifyBytes_block_cons (h : ∀ more, c = '*' → rest = '/' :: more → False) :
    classifyBytes .block comment code (encode (c :: rest)) =
      classifyBytes .block comment code (encode rest) := by
  by_cases hc : c.toNat < 0x80
  · rw [encode_cons_of_lt hc, classifyBytes_block]
    exact no_mark (by decide) (by decide) hc h
  · rw [encode_cons, classifyBytes_block_large (encodeChar_of_le (Nat.le_of_not_lt hc)).2]

/-- A backslash in a literal that is not raw hides the character behind it, with all its bytes. -/
theorem classifyBytes_literal_escape {quote : Char} (hquote : quote.toNat < 0x80)
    (hback : quote ≠ '\x60') :
    classifyBytes (.literal (UInt8.ofNat quote.toNat)) comment code (encode ('\\' :: c :: rest)) =
      classifyBytes (.literal (UInt8.ofNat quote.toNat)) comment code (encode rest) := by
  have hraw : UInt8.ofNat quote.toNat ≠ 0x60 :=
    mt (ofNat_toNat_eq_iff hquote (by decide : '\x60'.toNat < 0x80)).1 hback
  have hslash : encode ('\\' :: c :: rest) = 0x5C :: encode (c :: rest) := rfl
  by_cases hc : c.toNat < 0x80
  · rw [hslash, encode_cons_of_lt hc, classifyBytes_escape hraw]
  · obtain ⟨hne, hlarge⟩ := encodeChar_of_le (Nat.le_of_not_lt hc)
    obtain ⟨first, more, hfirst⟩ := List.exists_cons_of_ne_nil hne
    rw [hfirst] at hlarge
    rw [hslash, encode_cons, hfirst, List.cons_append, classifyBytes_escape hraw,
      classifyBytes_literal_large]
    · rwa [toNat_ofNat (by omega)]
    · exact fun byte hbyte => hlarge byte (List.mem_cons_of_mem first hbyte)

/-- Any other character of a literal closes it or is passed over. -/
theorem classifyBytes_literal_cons {quote : Char} (hquote : quote.toNat < 0x80)
    (h : ∀ d more, c = '\\' → rest = d :: more → False) :
    classifyBytes (.literal (UInt8.ofNat quote.toNat)) comment code (encode (c :: rest)) =
      if c = quote then classifyBytes .code comment code (encode rest)
      else classifyBytes (.literal (UInt8.ofNat quote.toNat)) comment code (encode rest) := by
  by_cases hc : c.toNat < 0x80
  · rw [encode_cons_of_lt hc, classifyBytes_literal]
    · simp only [ofNat_toNat_eq_iff hc hquote]
    · intro byte bytes hslash hrest
      have hc := (ofNat_toNat_eq_iff hc (by decide : '\\'.toNat < 0x80)).1 hslash
      cases rest with
      | nil => cases hrest
      | cons d more => exact h d more hc rfl
  · have hne : c ≠ quote := by
      rintro rfl
      exact hc hquote
    rw [if_neg hne, encode_cons,
      classifyBytes_literal_large _ (encodeChar_of_le (Nat.le_of_not_lt hc)).2]
    rwa [toNat_ofNat (by omega)]

/-- A character of code that starts no comment opens a literal or is code or a blank. -/
theorem classifyBytes_code_cons (hline : ∀ more, c = '/' → rest = '/' :: more → False)
    (hblock : ∀ more, c = '/' → rest = '*' :: more → False) :
    classifyBytes .code comment code (encode (c :: rest)) =
      if isQuote c then
        classifyBytes (.literal (UInt8.ofNat c.toNat)) comment true (encode rest)
      else classifyBytes .code comment (code || !Text.isAsciiBlank c) (encode rest) := by
  by_cases hc : c.toNat < 0x80
  · rw [encode_cons_of_lt hc, classifyBytes_code, isQuoteByte_eq hc, isBlankByte_eq hc]
    · exact no_mark (by decide) (by decide) hc hline
    · exact no_mark (by decide) (by decide) hc hblock
  · obtain ⟨hne, hlarge⟩ := encodeChar_of_le (Nat.le_of_not_lt hc)
    have hquote : isQuote c = false := by
      rw [Bool.eq_false_iff]
      exact fun hquote => hc (toNat_lt_of_isQuote hquote)
    have hblank : Text.isAsciiBlank c = false := by
      rw [Bool.eq_false_iff]
      exact fun hblank => hc (toNat_lt_of_isAsciiBlank hblank)
    rw [encode_cons, classifyBytes_code_large hne hlarge, hquote, hblank, Bool.not_false,
      Bool.or_true]
    rfl

/-- The bytes of a text are classified like its characters. -/
theorem classifyBytes_encode (text : List Char) (zone : Zone Char) (hzone : zone.Proper)
    (comment code : Bool) :
    classifyBytes zone.inBytes comment code (encode text) =
      classifyFrom zone comment code text := by
  fun_induction classifyFrom zone comment code text with
  | case1 zone comment code =>
    rw [encode_nil, classifyBytes]
    cases zone <;> rfl
  | case2 comment code rest ih => exact ih trivial
  | case3 comment code c rest hother ih => exact (classifyBytes_block_cons hother).trans (ih hzone)
  | case4 comment code c rest ih =>
    obtain ⟨first, more, hfirst⟩ := List.exists_cons_of_ne_nil (encode_ne_nil c rest)
    have hslash : encode ('\\' :: c :: rest) = 0x5C :: encode (c :: rest) := rfl
    rw [← ih hzone, hslash, hfirst, Zone.inBytes, classifyBytes]
    exact if_pos rfl
  | case5 quote comment code c rest hback ih =>
    exact (classifyBytes_literal_escape (toNat_lt_of_isQuote hzone) hback).trans (ih hzone)
  | case6 comment code c rest hother ih =>
    rw [Zone.inBytes, classifyBytes_literal_cons (toNat_lt_of_isQuote hzone) hother, if_pos rfl]
    exact ih trivial
  | case7 quote comment code c rest hother hne ih =>
    rw [Zone.inBytes, classifyBytes_literal_cons (toNat_lt_of_isQuote hzone) hother, if_neg hne]
    exact ih hzone
  | case8 comment code rest => rfl
  | case9 comment code rest ih => exact ih trivial
  | case10 comment code c rest hline hblock hquote ih =>
    rw [Zone.inBytes, classifyBytes_code_cons hline hblock, if_pos hquote]
    exact ih hquote
  | case11 comment code c rest hline hblock hquote ih =>
    rw [Zone.inBytes, classifyBytes_code_cons hline hblock, if_neg hquote]
    exact ih trivial

end Text

/-- A line is classified by its characters. -/
theorem classify_eq_classifyFrom (inBlock : Bool) (line : List Char) :
    classify inBlock line =
      classifyFrom (if inBlock then .block else .code) inBlock false line := by
  cases inBlock
  · exact classifyBytes_encode line .code trivial false false
  · exact classifyBytes_encode line .block trivial true false

end Wayfinder
