import Wayfinder.Text.Utf8
import Mathlib.Data.List.Basic

/-!
# Writing and reading UTF-8

* A character below 128 is written as one byte, which is its code, and the bytes of any
  other character are all at least 128 (`encodeChar_of_lt`, `encodeChar_of_le`).  So a byte
  below 128 shows the character that it is (`head_of_encode_eq_cons`).
* `decode_encode`: what is written is read back, character by character and without a
  fault.
* `decode_append_cons`: bytes are read apart at every byte below 128.  A fault never covers
  one.
* `eq_encode_of_decodeLossy`: a text of characters below 128 shows no other bytes than its
  own.
-/

namespace Wayfinder.Text.Utf8

/-! ## The bytes of a character -/

theorem toNat_ofNat {n : Nat} (h : n < 256) : (UInt8.ofNat n).toNat = n := by
  rw [UInt8.toNat_ofNat']
  exact Nat.mod_eq_of_lt h

/-- A character of the first 128 is its own byte. -/
theorem encodeChar_of_lt {c : Char} (h : c.toNat < 0x80) :
    String.utf8EncodeChar c = [UInt8.ofNat c.toNat] := by
  rw [String.utf8EncodeChar]
  exact if_pos (Nat.le_of_lt_succ h)

/-- The bytes of the other characters are not below 128, and there are some. -/
theorem encodeChar_of_le {c : Char} (h : 0x80 ≤ c.toNat) :
    String.utf8EncodeChar c ≠ [] ∧ ∀ byte ∈ String.utf8EncodeChar c, 0x80 ≤ byte.toNat := by
  have hlarge : ¬ c.val.toNat ≤ 0x7f := by
    have : c.toNat = c.val.toNat := rfl
    omega
  simp only [String.utf8EncodeChar, if_neg hlarge]
  split_ifs
  all_goals
    refine ⟨List.cons_ne_nil _ _, ?_⟩
    simp only [List.mem_cons, List.not_mem_nil, or_false, forall_eq_or_imp, forall_eq]
    repeat rw [toNat_ofNat (by omega)]
    omega

/-- Characters of the first 128 have the same byte only if they are the same. -/
theorem ofNat_toNat_eq_iff {c d : Char} (hc : c.toNat < 0x80) (hd : d.toNat < 0x80) :
    UInt8.ofNat c.toNat = UInt8.ofNat d.toNat ↔ c = d := by
  rw [← UInt8.toNat_inj, toNat_ofNat (by omega), toNat_ofNat (by omega)]
  exact Char.toNat_inj

/-! ## The bytes of a text -/

@[simp] theorem encode_nil : encode [] = [] := rfl

theorem encode_cons (c : Char) (text : List Char) :
    encode (c :: text) = String.utf8EncodeChar c ++ encode text := rfl

theorem encode_ne_nil (c : Char) (text : List Char) : encode (c :: text) ≠ [] := by
  rw [encode_cons]
  by_cases h : c.toNat < 0x80
  · rw [encodeChar_of_lt h]
    exact List.cons_ne_nil _ _
  · exact List.append_ne_nil_of_left_ne_nil (encodeChar_of_le (Nat.le_of_not_lt h)).1 _

theorem encode_cons_of_lt {c : Char} (h : c.toNat < 0x80) (text : List Char) :
    encode (c :: text) = UInt8.ofNat c.toNat :: encode text := by
  rw [encode_cons, encodeChar_of_lt h, List.singleton_append]

theorem encode_append (text other : List Char) :
    encode (text ++ other) = encode text ++ encode other :=
  List.flatMap_append

/-- A byte below 128 among the bytes of a text is the byte of a character. -/
theorem exists_of_mem_encode {text : List Char} {byte : UInt8} (h : byte ∈ encode text)
    (hbyte : byte.toNat < 0x80) : ∃ c ∈ text, c.toNat < 0x80 ∧ byte = UInt8.ofNat c.toNat := by
  obtain ⟨c, hc, hmem⟩ := List.mem_flatMap.1 h
  refine ⟨c, hc, ?_⟩
  by_cases hsmall : c.toNat < 0x80
  · rw [encodeChar_of_lt hsmall, List.mem_singleton] at hmem
    exact ⟨hsmall, hmem⟩
  · have hlarge := (encodeChar_of_le (Nat.le_of_not_lt hsmall)).2 byte hmem
    omega

/-- A text whose first byte is below 128 starts with the character that this byte is. -/
theorem head_of_encode_eq_cons {text : List Char} {byte : UInt8} {bytes : List UInt8}
    (h : encode text = byte :: bytes) {c : Char} (hc : c.toNat < 0x80)
    (hbyte : byte = UInt8.ofNat c.toNat) : ∃ rest, text = c :: rest ∧ encode rest = bytes := by
  have hsmall : byte.toNat = c.toNat := by rw [hbyte, toNat_ofNat (by omega)]
  cases text with
  | nil => cases h
  | cons d rest =>
    by_cases hd : d.toNat < 0x80
    · rw [encode_cons_of_lt hd] at h
      obtain ⟨hfirst, hrest⟩ := List.cons.inj h
      rw [hbyte, ofNat_toNat_eq_iff hd hc] at hfirst
      exact ⟨rest, by rw [hfirst], hrest⟩
    · obtain ⟨hne, hlarge⟩ := encodeChar_of_le (Nat.le_of_not_lt hd)
      obtain ⟨first, more, hfirst⟩ := List.exists_cons_of_ne_nil hne
      rw [encode_cons, hfirst] at h
      have hle := hlarge first (by rw [hfirst]; exact List.mem_cons_self)
      rw [(List.cons.inj h).1] at hle
      omega

/-! ## Reading what was written -/

theorem isContinuation_iff {byte : UInt8} :
    isContinuation byte = true ↔ 0x80 ≤ byte.toNat ∧ byte.toNat ≤ 0xBF := by
  rw [isContinuation, Bool.and_eq_true, decide_eq_true_iff, decide_eq_true_iff,
    UInt8.le_iff_toNat_le, UInt8.le_iff_toNat_le]
  rfl

variable {lead b c d : UInt8} {code : Nat} {rest : List UInt8}

theorem readTwo_eq (hlead : lead.toNat = code / 64 + 0xC0) (hb : b.toNat = code % 64 + 0x80) :
    readTwo lead (b :: rest) = (some (Char.ofNat code), rest) := by
  have hcontinues : isContinuation b = true := isContinuation_iff.2 (by omega)
  have hcode : append (lead.toNat - 0xC0) b = code := by
    unfold append
    omega
  rw [readTwo, if_pos hcontinues, hcode]

theorem readThree_eq (hlead : lead.toNat = code / 4096 + 0xE0)
    (hb : b.toNat = code / 64 % 64 + 0x80) (hc : c.toNat = code % 64 + 0x80)
    (hlarge : 0x800 ≤ code) (hsurrogate : code < 0xD800 ∨ 0xDFFF < code) :
    readThree lead (b :: c :: rest) = (some (Char.ofNat code), rest) := by
  have hsecond : continuesThree lead b = true := by
    rw [continuesThree]
    split_ifs with hE0 hED
    · have hvalue : lead.toNat = 0xE0 := congrArg UInt8.toNat hE0
      simp only [Bool.and_eq_true, decide_eq_true_eq, UInt8.le_iff_toNat_le]
      exact ⟨show 0xA0 ≤ b.toNat by omega, show b.toNat ≤ 0xBF by omega⟩
    · have hvalue : lead.toNat = 0xED := congrArg UInt8.toNat hED
      simp only [Bool.and_eq_true, decide_eq_true_eq, UInt8.le_iff_toNat_le]
      exact ⟨show 0x80 ≤ b.toNat by omega, show b.toNat ≤ 0x9F by omega⟩
    · exact isContinuation_iff.2 (by omega)
  have hthird : isContinuation c = true := isContinuation_iff.2 (by omega)
  have hcode : append (append (lead.toNat - 0xE0) b) c = code := by
    unfold append
    omega
  simp only [readThree, if_pos hsecond, if_pos hthird, hcode]

theorem readFour_eq (hlead : lead.toNat = code / 262144 + 0xF0)
    (hb : b.toNat = code / 4096 % 64 + 0x80) (hc : c.toNat = code / 64 % 64 + 0x80)
    (hd : d.toNat = code % 64 + 0x80) (hlarge : 0x10000 ≤ code) (hlimit : code < 0x110000) :
    readFour lead (b :: c :: d :: rest) = (some (Char.ofNat code), rest) := by
  have hsecond : continuesFour lead b = true := by
    rw [continuesFour]
    split_ifs with hF0 hF4
    · have hvalue : lead.toNat = 0xF0 := congrArg UInt8.toNat hF0
      simp only [Bool.and_eq_true, decide_eq_true_eq, UInt8.le_iff_toNat_le]
      exact ⟨show 0x90 ≤ b.toNat by omega, show b.toNat ≤ 0xBF by omega⟩
    · have hvalue : lead.toNat = 0xF4 := congrArg UInt8.toNat hF4
      simp only [Bool.and_eq_true, decide_eq_true_eq, UInt8.le_iff_toNat_le]
      exact ⟨show 0x80 ≤ b.toNat by omega, show b.toNat ≤ 0x8F by omega⟩
    · exact isContinuation_iff.2 (by omega)
  have hthird : isContinuation c = true := isContinuation_iff.2 (by omega)
  have hfourth : isContinuation d = true := isContinuation_iff.2 (by omega)
  have hcode : append (append (append (lead.toNat - 0xF0) b) c) d = code := by
    unfold append
    omega
  simp only [readFour, if_pos hsecond, if_pos hthird, if_pos hfourth, hcode]

/-- A lead byte says how many bytes are read. -/
theorem readOne_eq (lead : UInt8) (rest : List UInt8) :
    readOne lead rest =
      if lead.toNat < 0x80 then (some (Char.ofNat lead.toNat), rest)
      else if 0xC2 ≤ lead.toNat ∧ lead.toNat ≤ 0xDF then readTwo lead rest
      else if 0xE0 ≤ lead.toNat ∧ lead.toNat ≤ 0xEF then readThree lead rest
      else if 0xF0 ≤ lead.toNat ∧ lead.toNat ≤ 0xF4 then readFour lead rest
      else (none, rest) := by
  simp only [readOne, UInt8.lt_iff_toNat_lt, UInt8.le_iff_toNat_le, Bool.and_eq_true,
    decide_eq_true_eq]
  rfl

/-- The bytes of a character are read as that character. -/
theorem decode_encodeChar (char : Char) (rest : List UInt8) :
    decode (String.utf8EncodeChar char ++ rest) = some char :: decode rest := by
  have hchar : Char.ofNat char.val.toNat = char := Char.ofNat_toNat char
  have hvalid : char.val.toNat < 0xD800 ∨ 0xDFFF < char.val.toNat ∧ char.val.toNat < 0x110000 :=
    char.valid
  simp only [String.utf8EncodeChar]
  generalize char.val.toNat = code at hchar hvalid
  split_ifs with hone htwo hthree
  · have hlead : (UInt8.ofNat code).toNat = code := toNat_ofNat (by omega)
    rw [List.singleton_append, decode, readOne_eq, hlead, if_pos (by omega), hchar]
  · have hlead : (UInt8.ofNat (code / 64 % 0x20 + 0xc0)).toNat = code / 64 + 0xC0 := by
      rw [toNat_ofNat (by omega)]
      omega
    rw [List.cons_append, decode, readOne_eq, hlead, if_neg (by omega), if_pos (by omega),
      List.singleton_append, readTwo_eq hlead (toNat_ofNat (by omega)), hchar]
  · have hlead : (UInt8.ofNat (code / 4096 % 0x10 + 0xe0)).toNat = code / 4096 + 0xE0 := by
      rw [toNat_ofNat (by omega)]
      omega
    rw [List.cons_append, decode, readOne_eq, hlead, if_neg (by omega), if_neg (by omega),
      if_pos (by omega), List.cons_append, List.singleton_append,
      readThree_eq hlead (toNat_ofNat (by omega)) (toNat_ofNat (by omega)) (by omega) (by omega),
      hchar]
  · have hlead : (UInt8.ofNat (code / 262144 % 0x08 + 0xf0)).toNat = code / 262144 + 0xF0 := by
      rw [toNat_ofNat (by omega)]
      omega
    rw [List.cons_append, decode, readOne_eq, hlead, if_neg (by omega), if_neg (by omega),
      if_neg (by omega), if_pos (by omega), List.cons_append, List.cons_append,
      List.singleton_append,
      readFour_eq hlead (toNat_ofNat (by omega)) (toNat_ofNat (by omega))
        (toNat_ofNat (by omega)) (by omega) (by omega), hchar]

/-- What is written is read back. -/
theorem decode_encode (text : List Char) : decode (encode text) = text.map some := by
  induction text with
  | nil => rw [encode_nil, decode, List.map_nil]
  | cons char rest ih => rw [encode_cons, decode_encodeChar, ih, List.map_cons]

theorem decodeLossy_encode (text : List Char) :
    decodeLossy (encode text) = String.ofList text := by
  rw [decodeLossy, decode_encode, List.map_map]
  exact congrArg String.ofList (List.map_id text)

/-! ## Bytes below 128 among others -/

/-- A byte below 128 continues nothing. -/
theorem not_continues {byte : UInt8} (h : byte.toNat < 0x80) (lead : UInt8) :
    isContinuation byte = false ∧ continuesThree lead byte = false ∧
      continuesFour lead byte = false := by
  have hlow : ∀ bound : UInt8, 0x80 ≤ bound.toNat → decide (bound ≤ byte) = false := by
    intro bound hbound
    rw [decide_eq_false_iff_not, UInt8.le_iff_toNat_le]
    omega
  have hcontinuation : isContinuation byte = false := by
    rw [isContinuation, hlow 0x80 (by decide), Bool.false_and]
  refine ⟨hcontinuation, ?_, ?_⟩
  · rw [continuesThree, hcontinuation, hlow 0xA0 (by decide), hlow 0x80 (by decide)]
    split_ifs <;> rfl
  · rw [continuesFour, hcontinuation, hlow 0x90 (by decide), hlow 0x80 (by decide)]
    split_ifs <;> rfl

/-- What is read at a lead byte does not reach beyond a byte below 128. -/
theorem readOne_append {byte : UInt8} (h : byte.toNat < 0x80) (lead : UInt8)
    (rest more : List UInt8) :
    readOne lead (rest ++ byte :: more) =
      ((readOne lead rest).1, (readOne lead rest).2 ++ byte :: more) := by
  obtain ⟨hcontinuation, hthree, hfour⟩ := not_continues h lead
  have htwo : readTwo lead (rest ++ byte :: more) =
      ((readTwo lead rest).1, (readTwo lead rest).2 ++ byte :: more) := by
    cases rest with
    | nil => simp [readTwo, hcontinuation]
    | cons b rest =>
      simp only [List.cons_append, readTwo]
      split_ifs <;> rfl
  have hreadThree : readThree lead (rest ++ byte :: more) =
      ((readThree lead rest).1, (readThree lead rest).2 ++ byte :: more) := by
    rcases rest with _ | ⟨b, _ | ⟨c, rest⟩⟩
    · simp [readThree, hthree]
    · simp only [List.cons_append, List.nil_append, readThree, hcontinuation]
      split_ifs <;> simp_all
    · simp only [List.cons_append, readThree]
      split_ifs <;> rfl
  have hreadFour : readFour lead (rest ++ byte :: more) =
      ((readFour lead rest).1, (readFour lead rest).2 ++ byte :: more) := by
    rcases rest with _ | ⟨b, _ | ⟨c, _ | ⟨d, rest⟩⟩⟩
    · simp [readFour, hfour]
    · simp only [List.cons_append, List.nil_append, readFour, hcontinuation]
      split_ifs <;> simp_all
    · simp only [List.cons_append, List.nil_append, readFour, hcontinuation]
      split_ifs <;> simp_all
    · simp only [List.cons_append, readFour]
      split_ifs <;> rfl
  rw [readOne_eq, readOne_eq, htwo, hreadThree, hreadFour]
  split_ifs <;> rfl

/-- Bytes are read apart at a byte below 128. -/
theorem decode_append_cons {byte : UInt8} (h : byte.toNat < 0x80) (front more : List UInt8) :
    decode (front ++ byte :: more) =
      decode front ++ some (Char.ofNat byte.toNat) :: decode more := by
  induction front using decode.induct with
  | case1 =>
    have hnil : decode [] = [] := by rw [decode]
    rw [hnil, List.nil_append, decode, readOne_eq, if_pos h, List.nil_append]
  | case2 lead rest ih =>
    rw [List.cons_append, decode, readOne_append h, ih, decode, List.cons_append]

theorem decodeLossy_append_cons {byte : UInt8} (h : byte.toNat < 0x80)
    (front more : List UInt8) : decodeLossy (front ++ byte :: more) =
      decodeLossy front ++ String.ofList [Char.ofNat byte.toNat] ++ decodeLossy more := by
  rw [← String.toList_inj]
  simp [decodeLossy, decode_append_cons h]

/-- The code of a character that has one. -/
theorem toNat_char_ofNat {code : Nat} (h : code < 0xD800 ∨ 0xDFFF < code ∧ code < 0x110000) :
    (Char.ofNat code).toNat = code := by
  rw [Char.ofNat, dif_pos h]
  rfl

theorem of_continuesThree {lead second : UInt8} (h : continuesThree lead second = true) :
    0x80 ≤ second.toNat ∧ second.toNat ≤ 0xBF ∧ (lead.toNat = 0xE0 → 0xA0 ≤ second.toNat) ∧
      (lead.toNat = 0xED → second.toNat ≤ 0x9F) := by
  rw [continuesThree] at h
  split_ifs at h with hE0 hED
  · rw [Bool.and_eq_true, decide_eq_true_iff, decide_eq_true_iff, UInt8.le_iff_toNat_le,
      UInt8.le_iff_toNat_le] at h
    have hlow : 0xA0 ≤ second.toNat := h.1
    have hhigh : second.toNat ≤ 0xBF := h.2
    have hlead : lead.toNat = 0xE0 := congrArg UInt8.toNat hE0
    omega
  · rw [Bool.and_eq_true, decide_eq_true_iff, decide_eq_true_iff, UInt8.le_iff_toNat_le,
      UInt8.le_iff_toNat_le] at h
    have hlow : 0x80 ≤ second.toNat := h.1
    have hhigh : second.toNat ≤ 0x9F := h.2
    have hlead : lead.toNat = 0xED := congrArg UInt8.toNat hED
    omega
  · have hne : ∀ byte : UInt8, lead ≠ byte → lead.toNat ≠ byte.toNat :=
      fun byte hbyte heq => hbyte (UInt8.toNat_inj.1 heq)
    have hE0 : lead.toNat ≠ 0xE0 := hne 0xE0 hE0
    have hED : lead.toNat ≠ 0xED := hne 0xED hED
    rw [isContinuation_iff] at h
    omega

theorem of_continuesFour {lead second : UInt8} (h : continuesFour lead second = true) :
    0x80 ≤ second.toNat ∧ second.toNat ≤ 0xBF ∧ (lead.toNat = 0xF0 → 0x90 ≤ second.toNat) ∧
      (lead.toNat = 0xF4 → second.toNat ≤ 0x8F) := by
  rw [continuesFour] at h
  split_ifs at h with hF0 hF4
  · rw [Bool.and_eq_true, decide_eq_true_iff, decide_eq_true_iff, UInt8.le_iff_toNat_le,
      UInt8.le_iff_toNat_le] at h
    have hlow : 0x90 ≤ second.toNat := h.1
    have hhigh : second.toNat ≤ 0xBF := h.2
    have hlead : lead.toNat = 0xF0 := congrArg UInt8.toNat hF0
    omega
  · rw [Bool.and_eq_true, decide_eq_true_iff, decide_eq_true_iff, UInt8.le_iff_toNat_le,
      UInt8.le_iff_toNat_le] at h
    have hlow : 0x80 ≤ second.toNat := h.1
    have hhigh : second.toNat ≤ 0x8F := h.2
    have hlead : lead.toNat = 0xF4 := congrArg UInt8.toNat hF4
    omega
  · have hne : ∀ byte : UInt8, lead ≠ byte → lead.toNat ≠ byte.toNat :=
      fun byte hbyte heq => hbyte (UInt8.toNat_inj.1 heq)
    have hF0 : lead.toNat ≠ 0xF0 := hne 0xF0 hF0
    have hF4 : lead.toNat ≠ 0xF4 := hne 0xF4 hF4
    rw [isContinuation_iff] at h
    omega

theorem le_toNat_of_readTwo {lead : UInt8} {rest : List UInt8} {char : Char}
    (hlead : 0xC2 ≤ lead.toNat ∧ lead.toNat ≤ 0xDF) (h : (readTwo lead rest).1 = some char) :
    0x80 ≤ char.toNat := by
  cases rest with
  | nil => simp [readTwo] at h
  | cons b rest =>
    rw [readTwo] at h
    split_ifs at h with hb
    rw [isContinuation_iff] at hb
    have hchar : char.toNat = append (lead.toNat - 0xC0) b := by
      rw [← Option.some.inj h]
      exact toNat_char_ofNat (by unfold append; omega)
    unfold append at hchar
    omega

theorem le_toNat_of_readThree {lead : UInt8} {rest : List UInt8} {char : Char}
    (hlead : 0xE0 ≤ lead.toNat ∧ lead.toNat ≤ 0xEF) (h : (readThree lead rest).1 = some char) :
    0x80 ≤ char.toNat := by
  rcases rest with _ | ⟨b, _ | ⟨c, rest⟩⟩
  · simp [readThree] at h
  · rw [readThree] at h
    split_ifs at h
  · rw [readThree] at h
    split_ifs at h with hb hc
    have hb := of_continuesThree hb
    rw [isContinuation_iff] at hc
    have hchar : char.toNat = append (append (lead.toNat - 0xE0) b) c := by
      rw [← Option.some.inj h]
      exact toNat_char_ofNat (by unfold append; omega)
    unfold append at hchar
    omega

theorem le_toNat_of_readFour {lead : UInt8} {rest : List UInt8} {char : Char}
    (hlead : 0xF0 ≤ lead.toNat ∧ lead.toNat ≤ 0xF4) (h : (readFour lead rest).1 = some char) :
    0x80 ≤ char.toNat := by
  rcases rest with _ | ⟨b, _ | ⟨c, _ | ⟨d, rest⟩⟩⟩
  · simp [readFour] at h
  · rw [readFour] at h
    split_ifs at h
  · rw [readFour] at h
    split_ifs at h
  · rw [readFour] at h
    split_ifs at h with hb hc hd
    have hb := of_continuesFour hb
    rw [isContinuation_iff] at hc hd
    have hchar : char.toNat = append (append (append (lead.toNat - 0xF0) b) c) d := by
      rw [← Option.some.inj h]
      exact toNat_char_ofNat (by unfold append; omega)
    unfold append at hchar
    omega

/-- A character that is read from several bytes is not below 128. -/
theorem le_toNat_of_readOne {lead : UInt8} {rest : List UInt8} {char : Char}
    (hlead : ¬ lead.toNat < 0x80) (h : (readOne lead rest).1 = some char) :
    0x80 ≤ char.toNat := by
  rw [readOne_eq] at h
  split_ifs at h with htwo hthree hfour
  · exact le_toNat_of_readTwo htwo h
  · exact le_toNat_of_readThree hthree h
  · exact le_toNat_of_readFour hfour h

/-- A character below 128 is read from one byte only, the one that it is. -/
theorem readOne_eq_of_lt {lead : UInt8} {rest : List UInt8} {char : Char}
    (h : (readOne lead rest).1 = some char) (hchar : char.toNat < 0x80) :
    readOne lead rest = (some char, rest) ∧ lead = UInt8.ofNat char.toNat := by
  have hlead : lead.toNat < 0x80 := by
    by_contra hlarge
    have hlarge := le_toNat_of_readOne hlarge h
    omega
  rw [readOne_eq, if_pos hlead] at h ⊢
  obtain rfl := Option.some.inj h
  refine ⟨rfl, ?_⟩
  rw [toNat_char_ofNat (by omega), UInt8.ofNat_toNat]

theorem readOne_suffix (lead : UInt8) (rest : List UInt8) : (readOne lead rest).2 <:+ rest := by
  have htwo : (readTwo lead rest).2 <:+ rest := by
    unfold readTwo
    split
    · split_ifs
      · exact List.suffix_cons _ _
      · exact List.suffix_refl _
    · exact List.suffix_refl _
  have hthree : (readThree lead rest).2 <:+ rest := by
    unfold readThree
    repeat' split
    all_goals simp [List.suffix_cons_iff]
  have hfour : (readFour lead rest).2 <:+ rest := by
    unfold readFour
    repeat' split
    all_goals simp [List.suffix_cons_iff]
  rw [readOne_eq]
  split_ifs
  · exact List.suffix_refl _
  · exact htwo
  · exact hthree
  · exact hfour
  · exact List.suffix_refl _

/-- A character below 128 is shown only for its own byte. -/
theorem mem_of_mem_decodeLossy {bytes : List UInt8} {char : Char}
    (h : char ∈ (decodeLossy bytes).toList) (hchar : char.toNat < 0x80) :
    UInt8.ofNat char.toNat ∈ bytes := by
  rw [decodeLossy, String.toList_ofList] at h
  induction bytes using decode.induct with
  | case1 =>
    rw [decode] at h
    cases h
  | case2 lead rest ih =>
    rw [decode, List.map_cons, List.mem_cons] at h
    rcases h with hfirst | hrest
    · cases hread : (readOne lead rest).1 with
      | none =>
        rw [hread, Option.getD_none] at hfirst
        rw [hfirst] at hchar
        exact absurd hchar (by decide)
      | some other =>
        rw [hread, Option.getD_some] at hfirst
        rw [hfirst] at hchar ⊢
        rw [(readOne_eq_of_lt hread hchar).2]
        exact List.mem_cons_self
    · exact List.mem_cons_of_mem _ ((readOne_suffix lead rest).subset (ih hrest))

/-- Bytes that show characters below 128 only are the bytes of these characters. -/
theorem eq_encode_of_decodeLossy {bytes : List UInt8}
    (h : ∀ char ∈ (decodeLossy bytes).toList, char.toNat < 0x80) :
    bytes = encode (decodeLossy bytes).toList := by
  rw [decodeLossy, String.toList_ofList] at h ⊢
  induction bytes using decode.induct with
  | case1 => rw [decode, List.map_nil, encode_nil]
  | case2 lead rest ih =>
    rw [decode, List.map_cons, List.forall_mem_cons] at h
    obtain ⟨hfirst, hrest⟩ := h
    rw [decode, List.map_cons]
    cases hread : (readOne lead rest).1 with
    | none =>
      rw [hread] at hfirst
      exact absurd hfirst (by decide)
    | some char =>
      rw [hread, Option.getD_some] at hfirst
      obtain ⟨hone, hlead⟩ := readOne_eq_of_lt hread hfirst
      rw [hone] at ih hrest ⊢
      rw [Option.getD_some, encode_cons_of_lt hfirst, ← ih hrest, hlead]

/-- A character below 128 is shown first exactly if its byte stands first. -/
theorem head?_decodeLossy_eq_some_iff {bytes : List UInt8} {char : Char} (h : char.toNat < 0x80) :
    (decodeLossy bytes).toList.head? = some char ↔
      bytes.head? = some (UInt8.ofNat char.toNat) := by
  have hchar : char ≠ '\uFFFD' := by
    rintro rfl
    exact absurd h (by decide)
  rw [decodeLossy, String.toList_ofList]
  cases bytes with
  | nil =>
    rw [decode]
    simp
  | cons lead rest =>
    rw [decode, List.map_cons, List.head?_cons, List.head?_cons, Option.some_inj, Option.some_inj]
    constructor
    · intro hfirst
      cases hread : (readOne lead rest).1 with
      | none =>
        rw [hread, Option.getD_none] at hfirst
        exact absurd hfirst.symm hchar
      | some other =>
        rw [hread, Option.getD_some] at hfirst
        exact (readOne_eq_of_lt (hfirst ▸ hread) h).2
    · intro hlead
      have hsmall : lead.toNat = char.toNat := by rw [hlead, toNat_ofNat (by omega)]
      rw [readOne_eq, if_pos (by omega), Option.getD_some, hsmall, Char.ofNat_toNat]

theorem small_of_all {text : List Char} (h : text.all (·.toNat < 0x80) = true) :
    ∀ char ∈ text, char.toNat < 0x80 := by
  simpa using h

/-- Characters below 128 are shown last exactly if their bytes stand last. -/
theorem suffix_decodeLossy_iff {text : List Char} (h : ∀ char ∈ text, char.toNat < 0x80)
    {bytes : List UInt8} : text <:+ (decodeLossy bytes).toList ↔ encode text <:+ bytes := by
  constructor
  · intro hsuffix
    induction bytes using decode.induct with
    | case1 =>
      rw [decodeLossy, decode, List.map_nil, String.toList_ofList, List.suffix_nil] at hsuffix
      rw [hsuffix]
      exact List.nil_suffix
    | case2 lead rest ih =>
      rw [decodeLossy, decode, String.toList_ofList, List.map_cons, List.suffix_cons_iff]
        at hsuffix
      rcases hsuffix with hall | hrest
      · have hshown : (decodeLossy (lead :: rest)).toList = text := by
          rw [decodeLossy, decode, String.toList_ofList, List.map_cons, hall]
        have hbytes := eq_encode_of_decodeLossy (hshown.symm ▸ h)
        rw [hshown] at hbytes
        exact hbytes ▸ List.suffix_refl (lead :: rest)
      · rw [decodeLossy, String.toList_ofList] at ih
        exact (ih hrest).trans ((readOne_suffix lead rest).trans (List.suffix_cons _ _))
  · rintro ⟨front, rfl⟩
    cases text with
    | nil => exact List.nil_suffix
    | cons char more =>
      have hchar := h char List.mem_cons_self
      have hbyte : (UInt8.ofNat char.toNat).toNat = char.toNat := toNat_ofNat (by omega)
      refine ⟨(decodeLossy front).toList, ?_⟩
      rw [encode_cons_of_lt hchar, decodeLossy_append_cons (by omega), hbyte, Char.ofNat_toNat,
        decodeLossy_encode]
      simp

end Wayfinder.Text.Utf8
