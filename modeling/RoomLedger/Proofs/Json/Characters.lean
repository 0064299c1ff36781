import RoomLedger.Proofs.Json.Grammar
import RoomLedger.Proofs.Text.ByteOrder

/-!
Contract: texts and natural numbers keep their value as JSON text.

Owns:
- `CharacterIsSpelled`, the spellings of a character in a string;
- `Token.isSpelled_text`, by which a string whose characters are spelled is the token of its
  text;
- `Token.isSpelled_writeString` and `Token.isSpelled_asciiBytes`, by which what is written is
  one of the spellings.

Does not own: strings that spell no text.
-/

namespace RoomLedger.Json

open RoomLedger.Text (Bytes)

/-! ## Characters -/

/-- The spellings of a character in a string: itself, a short escape, its number, or the two
halves of a surrogate pair. -/
inductive CharacterIsSpelled : Char → Bytes → Prop
  | itself {character : Char} (visible : 0x20 ≤ character.toNat) (noQuote : character.toNat ≠ 0x22)
      (noBackslash : character.toNat ≠ 0x5C) :
      CharacterIsSpelled character (String.utf8EncodeChar character)
  | short {character : Char} {letter value : UInt8} (listed : (letter, value) ∈ shortEscapes)
      (same : character.toNat = value.toNat) :
      CharacterIsSpelled character [0x5C, letter]
  | unit {character : Char} {first second third fourth : UInt8}
      (digits : fourHexDigits? first second third fourth = some character.toNat) :
      CharacterIsSpelled character [0x5C, 0x75, first, second, third, fourth]
  | pair {character : Char} {first second third fourth fifth sixth seventh eighth : UInt8}
      {high low : Nat}
      (highDigits : fourHexDigits? first second third fourth = some (0xD800 + high))
      (lowDigits : fourHexDigits? fifth sixth seventh eighth = some (0xDC00 + low))
      (highFits : high < 1024) (lowFits : low < 1024)
      (same : character.toNat = 0x10000 + 1024 * high + low) :
      CharacterIsSpelled character
        [0x5C, 0x75, first, second, third, fourth, 0x5C, 0x75, fifth, sixth, seventh, eighth]

/-- The bytes of every other character stand for themselves in a string. -/
theorem plain_of_mem_utf8EncodeChar {character : Char} (visible : 0x20 ≤ character.toNat)
    (noQuote : character.toNat ≠ 0x22) (noBackslash : character.toNat ≠ 0x5C) {byte : UInt8}
    (member : byte ∈ String.utf8EncodeChar character) :
    byte ≠ 0x22 ∧ byte ≠ 0x5C ∧ 0x20 ≤ byte := by
  have bound : character.toNat < 0x110000 := Text.toNat_val_lt character
  unfold String.utf8EncodeChar at member
  change 0x20 ≤ character.val.toNat at visible
  change character.val.toNat ≠ 0x22 at noQuote
  change character.val.toNat ≠ 0x5C at noBackslash
  change character.val.toNat < 0x110000 at bound
  generalize character.val.toNat = code at *
  have inNumbers : byte.toNat ≠ 0x22 ∧ byte.toNat ≠ 0x5C ∧ 0x20 ≤ byte.toNat := by
    dsimp only at member
    split_ifs at member
    all_goals
      simp only [List.mem_cons, List.not_mem_nil, or_false, ← UInt8.toNat_inj,
        UInt8.toNat_ofNat'] at member
      omega
  refine ⟨?_, ?_, UInt8.le_iff_toNat_le.mpr inNumbers.2.2⟩
  · rintro rfl
    exact inNumbers.1 rfl
  · rintro rfl
    exact inNumbers.2.1 rfl

/-- Bytes that stand for themselves are pieces of their own. -/
theorem forall₂_isSpelled_of_plain {bytes : Bytes}
    (plain : ∀ byte ∈ bytes, byte ≠ 0x22 ∧ byte ≠ 0x5C ∧ 0x20 ≤ byte) :
    List.Forall₂ Piece.IsSpelled (bytes.map .byte) (bytes.map fun byte => [byte]) := by
  induction bytes with
  | nil => exact .nil
  | cons byte others inductionHypothesis =>
      obtain ⟨noQuote, noBackslash, visible⟩ := plain byte List.mem_cons_self
      exact .cons (.plain noQuote noBackslash visible)
        (inductionHypothesis fun other member => plain other (List.mem_cons_of_mem _ member))

private theorem pieceBytes?_map_byte_append (bytes : Bytes) (rest : List Piece) :
    pieceBytes? (bytes.map .byte ++ rest) = (pieceBytes? rest).map (bytes ++ ·) := by
  induction bytes with
  | nil => simp
  | cons byte others inductionHypothesis =>
      rw [List.map_cons, List.cons_append, pieceBytes?, inductionHypothesis, Option.map_map]
      rfl

private theorem codePointBytes_toNat (character : Char) :
    codePointBytes character.toNat = String.utf8EncodeChar character := by
  rw [codePointBytes, Char.ofNat_toNat]

/-- A spelled character is made of spelled pieces, and these stand for its bytes. -/
theorem CharacterIsSpelled.exists_pieces {character : Char} {body : Bytes}
    (spelled : CharacterIsSpelled character body) :
    ∃ pieces letters, List.Forall₂ Piece.IsSpelled pieces letters ∧ letters.flatten = body ∧
      ∀ rest, pieceBytes? (pieces ++ rest) =
        (pieceBytes? rest).map (String.utf8EncodeChar character ++ ·) := by
  cases spelled with
  | itself visible noQuote noBackslash =>
      refine ⟨_, _, forall₂_isSpelled_of_plain fun byte member =>
        plain_of_mem_utf8EncodeChar visible noQuote noBackslash member, ?_,
        pieceBytes?_map_byte_append _⟩
      exact List.flatMap_singleton' _
  | @short letter value listed same =>
      have each : shortEscapes.all (fun escape =>
          decide (codePointBytes escape.2.toNat = [escape.2])) = true := by decide
      have ascii := of_decide_eq_true (List.all_eq_true.mp each _ listed)
      refine ⟨[.byte value], [[0x5C, letter]], .cons (.short listed) .nil, rfl, fun rest => ?_⟩
      rw [← codePointBytes_toNat, same, ascii]
      rfl
  | @unit first second third fourth digits =>
      refine ⟨[.unit character.toNat], [[0x5C, 0x75, first, second, third, fourth]],
        .cons (.unit digits) .nil, rfl, fun rest => ?_⟩
      have valid : character.toNat < 0xD800 ∨ 0xE000 ≤ character.toNat := by
        rcases character.valid with low | high
        · exact .inl low
        · exact .inr (Nat.le_of_lt_succ (Nat.succ_lt_succ high.1))
      rw [List.singleton_append, pieceBytes?.eq_def]
      simp only [valid, if_true, codePointBytes_toNat]
  | @pair first second third fourth fifth sixth seventh eighth high low highDigits lowDigits
      highFits lowFits same =>
      refine ⟨[.unit (0xD800 + high), .unit (0xDC00 + low)],
        [[0x5C, 0x75, first, second, third, fourth], [0x5C, 0x75, fifth, sixth, seventh, eighth]],
        .cons (.unit highDigits) (.cons (.unit lowDigits) .nil), rfl, fun rest => ?_⟩
      have surrogate : ¬ (0xD800 + high < 0xD800 ∨ 0xE000 ≤ 0xD800 + high) := by omega
      have paired : 0xD800 + high < 0xDC00 ∧ 0xDC00 ≤ 0xDC00 + low ∧ 0xDC00 + low < 0xE000 := by
        omega
      have code : 0x10000 + 1024 * (0xD800 + high - 0xD800) + (0xDC00 + low - 0xDC00) =
          character.toNat := by omega
      show pieceBytes? (.unit (0xD800 + high) :: .unit (0xDC00 + low) :: rest) = _
      rw [pieceBytes?.eq_def]
      simp only [surrogate, if_false, paired, and_self, if_true, code, codePointBytes_toNat]

/-! ## Texts -/

/-- A string whose characters are spelled is the token of its text. -/
theorem Token.isSpelled_text {text : String} {bodies : List Bytes}
    (spelled : List.Forall₂ CharacterIsSpelled text.toList bodies) :
    Token.IsSpelled (.text (some text)) (0x22 :: bodies.flatten ++ [0x22]) := by
  have whole : ∀ {characters : List Char} {bodies : List Bytes},
      List.Forall₂ CharacterIsSpelled characters bodies →
      ∃ pieces letters, List.Forall₂ Piece.IsSpelled pieces letters ∧
        letters.flatten = bodies.flatten ∧
        pieceBytes? pieces = some (characters.flatMap String.utf8EncodeChar) := by
    intro characters bodies spelled
    induction spelled with
    | nil => exact ⟨[], [], .nil, rfl, rfl⟩
    | cons first _ inductionHypothesis =>
        obtain ⟨pieces, letters, spelledPieces, shape, bytes⟩ := first.exists_pieces
        obtain ⟨laterPieces, laterLetters, later, laterShape, laterBytes⟩ := inductionHypothesis
        refine ⟨pieces ++ laterPieces, letters ++ laterLetters,
          List.rel_append spelledPieces later, ?_, ?_⟩
        · rw [List.flatten_append, List.flatten_cons, shape, laterShape]
        · rw [bytes, laterBytes]
          rfl
  obtain ⟨pieces, letters, spelledPieces, shape, bytes⟩ := whole spelled
  have content : pieceText? pieces = some text := by
    rw [pieceText?, bytes, ← Text.bytes_eq_flatMap, Option.bind_some, Text.ofBytes?_bytes]
  have token := Token.IsSpelled.text spelledPieces
  rwa [content, shape] at token

/-! ## What is written -/

private theorem escapeByte_of_plain {byte : UInt8} (noQuote : byte ≠ 0x22)
    (noBackslash : byte ≠ 0x5C) (visible : 0x20 ≤ byte) :
    escapeByte byte = [byte] := by
  have apart : ∀ control : UInt8, control < 0x20 → byte ≠ control := by
    rintro control below rfl
    exact UInt8.not_lt.mpr visible below
  simp [escapeByte, noQuote, noBackslash, UInt8.not_lt.mpr visible, apart 0x08 (by decide),
    apart 0x0C (by decide), apart 0x0A (by decide), apart 0x0D (by decide),
    apart 0x09 (by decide)]

/-- A written character is spelled by itself, by a short escape or by its number. -/
theorem characterIsSpelled_flatMap_escapeByte (character : Char) :
    CharacterIsSpelled character ((String.utf8EncodeChar character).flatMap escapeByte) := by
  by_cases plain : 0x20 ≤ character.toNat ∧ character.toNat ≠ 0x22 ∧ character.toNat ≠ 0x5C
  · obtain ⟨visible, noQuote, noBackslash⟩ := plain
    have same : ∀ byte ∈ String.utf8EncodeChar character, escapeByte byte = [byte] := by
      intro byte member
      obtain ⟨quote, backslash, noControl⟩ :=
        plain_of_mem_utf8EncodeChar visible noQuote noBackslash member
      exact escapeByte_of_plain quote backslash noControl
    rw [List.flatMap_congr same, List.flatMap_singleton']
    exact .itself visible noQuote noBackslash
  · have each : ∀ code : Fin 0x5D, (0x20 ≤ code.val ∧ code.val ≠ 0x22 ∧ code.val ≠ 0x5C) ∨
        (∃ escape ∈ shortEscapes, code.val = escape.2.toNat ∧
          (codePointBytes code.val).flatMap escapeByte = [0x5C, escape.1]) ∨
        (fourHexDigits? 0x30 0x30 (Text.hexDigitByte (code.val / 16))
            (Text.hexDigitByte (code.val % 16)) = some code.val ∧
          (codePointBytes code.val).flatMap escapeByte =
            [0x5C, 0x75, 0x30, 0x30, Text.hexDigitByte (code.val / 16),
              Text.hexDigitByte (code.val % 16)]) := by
      decide +kernel
    have small : character.toNat < 0x5D := by omega
    rw [← codePointBytes_toNat]
    rcases each ⟨character.toNat, small⟩ with isPlain | ⟨escape, listed, same, written⟩ |
      ⟨digits, written⟩
    · exact absurd isPlain plain
    · rw [written]
      exact .short listed same
    · rw [written]
      exact .unit digits

/-- A text without quotes, backslashes and controls is written as its bytes between quotes. -/
theorem writeString_of_plain {text : String}
    (plain : ∀ character ∈ text.toList,
      0x20 ≤ character.toNat ∧ character.toNat ≠ 0x22 ∧ character.toNat ≠ 0x5C) :
    writeString text = 0x22 :: (Text.bytes text ++ [0x22]) := by
  have same : ∀ byte ∈ Text.bytes text, escapeByte byte = [byte] := by
    intro byte member
    rw [Text.bytes_eq_flatMap] at member
    obtain ⟨character, isCharacter, member⟩ := List.mem_flatMap.mp member
    obtain ⟨visible, noQuote, noBackslash⟩ := plain character isCharacter
    obtain ⟨quote, backslash, noControl⟩ :=
      plain_of_mem_utf8EncodeChar visible noQuote noBackslash member
    exact escapeByte_of_plain quote backslash noControl
  rw [writeString, List.flatMap_congr same, List.flatMap_singleton', List.cons_append]

theorem Token.isSpelled_writeString (text : String) :
    Token.IsSpelled (.text (some text)) (writeString text) := by
  have written : (Text.bytes text).flatMap escapeByte =
      (text.toList.map fun character =>
        (String.utf8EncodeChar character).flatMap escapeByte).flatten := by
    rw [Text.bytes_eq_flatMap, List.flatMap_assoc, List.flatMap_def]
  rw [writeString, written]
  apply Token.isSpelled_text
  rw [List.forall₂_map_right_iff, List.forall₂_same]
  exact fun character _ => characterIsSpelled_flatMap_escapeByte character

theorem Token.isSpelled_asciiBytes (number : Nat) :
    Token.IsSpelled (.number (Numeral.ofNat number)) (Decimal.asciiBytes number) := by
  obtain ⟨first, others, equation, alone⟩ := digits_eq_cons number
  apply Token.IsSpelled.number
  refine ⟨Decimal.digits_ne_nil number, ?zeroAlone, ?digits, [], .absent, ?shape⟩
  case zeroAlone =>
    intro behind leading
    have same := List.cons.inj (equation.symm.trans leading)
    rw [← same.2]
    exact alone same.1
  case digits =>
    intro digit member
    rw [Numeral.ofNat, List.append_nil] at member
    exact Decimal.lt_ten_of_mem_digits member
  case shape => simp [Numeral.mantissa, Numeral.ofNat, Decimal.asciiBytes]

end RoomLedger.Json
