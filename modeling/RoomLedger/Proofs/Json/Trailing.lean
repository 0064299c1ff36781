import RoomLedger.Proofs.Json.Numerals
import RoomLedger.Proofs.Json.Strings

/-!
Contract: white space at the end of JSON text leaves no trace.

Owns:
- for every scanner, what it makes of bytes with one of white space behind them;
- `lex_concat_space`, by which the tokens are the same.

A scanner either stops before the end, and then the byte is a part of what is left, or it
runs out of bytes, and then white space is none that it could go on with.

Does not own: white space between tokens.
-/

namespace RoomLedger.Json

open RoomLedger.Text (Bytes)
open RoomLedger.Decimal (digitOfByte?)

/-- What was scanned, with a byte behind the bytes that are left. -/
def withTrailing {α : Type} (byte : UInt8) (scanned : α × Bytes) : α × Bytes :=
  (scanned.1, scanned.2 ++ [byte])

private theorem isSpace_cases {space : UInt8} (white : isSpace space = true) :
    space = 0x20 ∨ space = 0x0A ∨ space = 0x09 ∨ space = 0x0D := by
  simpa [isSpace, or_assoc] using white

/-- White space is nothing that a number goes on with. -/
theorem endsNumber_space {space : UInt8} (white : isSpace space = true) (rest : Bytes) :
    EndsNumber (space :: rest) := by
  intro byte member
  cases member
  rcases isSpace_cases white with rfl | rfl | rfl | rfl <;> decide

private theorem lex_of_no_token {byte : UInt8} {rest : Bytes} (visible : isSpace byte = false)
    (stuck : scanToken (byte :: rest) = none) :
    Token.lex (byte :: rest) = [.broken] := by
  rw [Token.lex]
  simp only [visible, Bool.false_eq_true, if_false]
  split
  · rename_i found
    rw [stuck] at found
    cases found
  · rfl

section

variable {space : UInt8} (white : isSpace space = true)

include white

/-! ## Numbers -/

private theorem scanDigits_concat (bytes : Bytes) :
    scanDigits (bytes ++ [space]) = withTrailing space (scanDigits bytes) := by
  induction bytes with
  | nil => exact scanDigits_of_endsNumber (endsNumber_space white [])
  | cons byte rest inductionHypothesis =>
      rw [List.cons_append, scanDigits, scanDigits]
      cases digitOfByte? byte with
      | none => rfl
      | some digit =>
          rw [inductionHypothesis]
          rfl

private theorem scanSomeDigits_concat (bytes : Bytes) :
    scanSomeDigits (bytes ++ [space]) = (scanSomeDigits bytes).map (withTrailing space) := by
  unfold scanSomeDigits
  rw [scanDigits_concat white]
  rcases scanDigits bytes with ⟨_ | ⟨digit, run⟩, left⟩ <;> rfl

private theorem scanWhole_concat (bytes : Bytes) :
    scanWhole (bytes ++ [space]) = (scanWhole bytes).map (withTrailing space) := by
  unfold scanWhole
  rw [scanDigits_concat white]
  rcases scanDigits bytes with ⟨_ | ⟨_ | digit, _ | ⟨next, run⟩⟩, left⟩ <;> rfl

private theorem scanDecimals_concat (bytes : Bytes) :
    scanDecimals (bytes ++ [space]) = (scanDecimals bytes).map (withTrailing space) := by
  cases bytes with
  | nil => exact scanDecimals_of_endsNumber (endsNumber_space white [])
  | cons byte rest =>
      by_cases point : byte = 0x2E
      · subst point
        exact scanSomeDigits_concat white rest
      · simp [scanDecimals, point, withTrailing]

private theorem scanExponentSign_concat (bytes : Bytes) :
    scanExponentSign (bytes ++ [space]) = withTrailing space (scanExponentSign bytes) := by
  cases bytes with
  | nil => rcases isSpace_cases white with rfl | rfl | rfl | rfl <;> rfl
  | cons byte rest =>
      by_cases plus : byte = 0x2B
      · subst plus
        rfl
      · by_cases minus : byte = 0x2D
        · subst minus
          rfl
        · simp [scanExponentSign, plus, minus, withTrailing]

private theorem scanExponent_concat (bytes : Bytes) :
    scanExponent (bytes ++ [space]) = (scanExponent bytes).map (withTrailing space) := by
  cases bytes with
  | nil => exact scanExponent_of_endsNumber (endsNumber_space white [])
  | cons byte rest =>
      rw [List.cons_append, scanExponent, scanExponent]
      split
      · simp only [scanExponentSign_concat white, withTrailing, scanSomeDigits_concat white,
          Option.map_map]
        rfl
      · rfl

private theorem scanUnsigned_concat (negative : Bool) (bytes : Bytes) :
    scanUnsigned negative (bytes ++ [space]) =
      (scanUnsigned negative bytes).map (withTrailing space) := by
  rw [scanUnsigned, scanUnsigned, scanWhole_concat white]
  cases scanWhole bytes with
  | none => rfl
  | some found =>
      simp only [Option.map_some, withTrailing, scanDecimals_concat white]
      cases scanDecimals found.2 with
      | none => rfl
      | some found =>
          simp only [Option.map_some, withTrailing, scanExponent_concat white]
          cases scanExponent found.2 with
          | none => rfl
          | some found => rfl

private theorem scanNumber_concat (bytes : Bytes) :
    scanNumber (bytes ++ [space]) = (scanNumber bytes).map (withTrailing space) := by
  cases bytes with
  | nil => rcases isSpace_cases white with rfl | rfl | rfl | rfl <;> rfl
  | cons byte rest =>
      by_cases minus : byte = 0x2D
      · subst minus
        exact scanUnsigned_concat white true rest
      · have unsigned : ∀ others,
            scanNumber (byte :: others) = scanUnsigned false (byte :: others) := by
          intro others
          simp [scanNumber, minus]
        rw [List.cons_append, unsigned, unsigned, ← List.cons_append]
        exact scanUnsigned_concat white false (byte :: rest)

/-! ## Strings and words -/

/-- White space is no digit of a unit. -/
theorem fourHexDigits?_space (first second third : UInt8) :
    fourHexDigits? first second third space = none := by
  have noDigit : Text.hexDigitOf? space = none := by
    rcases isSpace_cases white with rfl | rfl | rfl | rfl <;> decide
  simp [fourHexDigits?, noDigit]

/-- A unit that lacks a digit is none with white space behind it. -/
theorem scanString_unit_concat {rest : Bytes}
    (noDigits : ∀ first second third fourth others,
      rest ≠ first :: second :: third :: fourth :: others) :
    scanString (0x5C :: 0x75 :: (rest ++ [space])) = none := by
  rcases rest with _ | ⟨first, _ | ⟨second, _ | ⟨third, _ | ⟨fourth, others⟩⟩⟩⟩
  · rfl
  · rfl
  · rfl
  · show scanString [0x5C, 0x75, first, second, third, space] = none
    rw [scanString, fourHexDigits?_space white]
  · exact absurd rfl (noDigits first second third fourth others)

private theorem scanString_concat (bytes : Bytes) :
    scanString (bytes ++ [space]) = (scanString bytes).map (withTrailing space) := by
  fun_induction scanString bytes with
  | case1 => rcases isSpace_cases white with rfl | rfl | rfl | rfl <;> rfl
  | case2 rest => rfl
  | case3 first second third fourth rest noUnit =>
      simp only [List.cons_append]
      rw [scanString, noUnit]
      rfl
  | case4 first second third fourth rest value unit inductionHypothesis =>
      simp only [List.cons_append]
      rw [scanString, unit, inductionHypothesis]
      simp only [Option.map_map]
      rfl
  | case5 letter rest noDigits noEscape =>
      simp only [List.cons_append]
      by_cases isUnit : letter = 0x75
      · subst isUnit
        exact scanString_unit_concat white fun _ _ _ _ _ => noDigits _ _ _ _ _ rfl
      · rw [scanString_escape isUnit, noEscape]
        rfl
  | case6 letter rest noDigits value escape inductionHypothesis =>
      have isUnit : letter ≠ 0x75 := by
        rintro rfl
        cases escape
      simp only [List.cons_append]
      rw [scanString_escape isUnit, escape, inductionHypothesis]
      simp only [Option.map_map]
      rfl
  | case7 byte rest noQuote noDigits noEscape control =>
      have noBackslash : byte ≠ 0x5C := by
        rintro rfl
        exact absurd control (by decide)
      rw [List.cons_append, scanString_byte noQuote noBackslash, if_pos control]
      rfl
  | case8 byte rest noQuote noDigits noEscape visible inductionHypothesis =>
      rw [List.cons_append]
      by_cases backslash : byte = 0x5C
      · -- A backslash that ends the string's bytes names nothing, and neither does white space.
        subst backslash
        cases rest with
        | nil => rcases isSpace_cases white with rfl | rfl | rfl | rfl <;> rfl
        | cons letter others => exact absurd rfl (noEscape letter others rfl)
      · rw [scanString_byte noQuote backslash, if_neg visible, inductionHypothesis, Option.map_map,
          Option.map_map]
        rfl

/-- What ends with white space and begins with a word that does not goes on with white
space behind that word. -/
theorem behind_word (word : Bytes) {rest bytes : Bytes} {last : UInt8}
    (shown : isSpace last = false) (split : bytes ++ [space] = word ++ last :: rest) :
    ∃ front, rest = front ++ [space] ∧ bytes = word ++ last :: front := by
  rcases List.eq_nil_or_concat rest with rfl | ⟨front, final, rfl⟩
  · have same := (List.append_singleton_inj.mp split).2
    rw [same, shown] at white
    cases white
  · rw [List.concat_eq_append, ← List.cons_append, ← List.append_assoc] at split
    obtain ⟨before, rfl⟩ := List.append_singleton_inj.mp split
    exact ⟨front, List.concat_eq_append .., before⟩

private theorem scanWord_concat (bytes : Bytes) :
    scanWord (bytes ++ [space]) = (scanWord bytes).map (withTrailing space) := by
  cases found : scanWord bytes with
  | some scanned =>
      unfold scanWord at found
      split at found <;> cases found <;> rfl
  | none =>
      unfold scanWord
      split
      · rename_i rest word
        obtain ⟨front, -, rfl⟩ := behind_word white [0x6E, 0x75, 0x6C] (by decide) word
        cases found
      · rename_i rest word
        obtain ⟨front, -, rfl⟩ := behind_word white [0x74, 0x72, 0x75] (by decide) word
        cases found
      · rename_i rest word
        obtain ⟨front, -, rfl⟩ := behind_word white [0x66, 0x61, 0x6C, 0x73] (by decide) word
        cases found
      · rfl

/-! ## Tokens -/

private theorem scanToken_concat (byte : UInt8) (rest : Bytes) :
    scanToken (byte :: (rest ++ [space])) =
      (scanToken (byte :: rest)).map (withTrailing space) := by
  rw [scanToken, scanToken]
  split
  · rfl
  · split
    · rw [scanString_concat white]
      rcases scanString rest with _ | ⟨pieces, left⟩ <;> rfl
    · split
      · rw [← List.cons_append, scanNumber_concat white]
        rcases scanNumber (byte :: rest) with _ | ⟨numeral, left⟩ <;> rfl
      · rw [← List.cons_append, scanWord_concat white]

/-- A byte of white space at the end of a text leaves no trace. -/
theorem lex_concat_space (bytes : Bytes) : Token.lex (bytes ++ [space]) = Token.lex bytes := by
  have nothing : Token.lex [] = [] := by rw [Token.lex]
  fun_induction Token.lex bytes with
  | case1 => rw [List.nil_append, Token.lex_cons_of_isSpace [] white, nothing]
  | case2 byte rest leading inductionHypothesis =>
      rw [List.cons_append, Token.lex_cons_of_isSpace _ leading, inductionHypothesis]
  | case3 byte rest visible token left scanned inductionHypothesis =>
      have further : scanToken (byte :: (rest ++ [space])) = some (token, left ++ [space]) := by
        rw [scanToken_concat white, scanned]
        rfl
      rw [List.cons_append, Token.lex_of_scanToken (by simpa using visible) further,
        inductionHypothesis]
  | case4 byte rest visible stuck =>
      have further : scanToken (byte :: (rest ++ [space])) = none := by
        rw [scanToken_concat white, stuck]
        rfl
      rw [List.cons_append, lex_of_no_token (by simpa using visible) further]

end

end RoomLedger.Json
