import Mathlib.Data.List.Chain
import Mathlib.Data.List.Forall2
import RoomLedger.Proofs.Json.Trailing

/-!
Contract: every spelling of tokens is read as those tokens.

Owns:
- `Token.IsSpelled`, the spellings of a token, and those of the pieces of a string and of
  the parts of a number;
- `LaysOut`, by which bytes are tokens one after another with white space anywhere;
- `Divided`, by which no two tokens stand side by side that could run together;
- `lex_of_laysOut`.

The spellings are given from the token's side. Only a number needs to know what follows it,
and between divided tokens that is a mark or white space.

Does not own: which sequences of tokens are values.
-/

namespace RoomLedger.Json

open RoomLedger.Text (Bytes)
open RoomLedger.Decimal (digitByte digitOfByte?)

/-! ## Strings -/

/-- The letters of the short escapes, each with the byte that it stands for. -/
def shortEscapes : List (UInt8 × UInt8) :=
  [(0x22, 0x22), (0x5C, 0x5C), (0x2F, 0x2F), (0x62, 0x08), (0x66, 0x0C), (0x6E, 0x0A),
    (0x72, 0x0D), (0x74, 0x09)]

/-- The spellings of a piece inside a string. -/
inductive Piece.IsSpelled : Piece → Bytes → Prop
  | plain {byte : UInt8} (noQuote : byte ≠ 0x22) (noBackslash : byte ≠ 0x5C)
      (visible : 0x20 ≤ byte) :
      IsSpelled (.byte byte) [byte]
  | short {letter value : UInt8} (listed : (letter, value) ∈ shortEscapes) :
      IsSpelled (.byte value) [0x5C, letter]
  | unit {first second third fourth : UInt8} {value : Nat}
      (digits : fourHexDigits? first second third fourth = some value) :
      IsSpelled (.unit value) [0x5C, 0x75, first, second, third, fourth]

private theorem Piece.IsSpelled.scanString_append {piece : Piece} {bytes : Bytes}
    (spelled : piece.IsSpelled bytes) (rest : Bytes) :
    scanString (bytes ++ rest) = (scanString rest).map piece.inFront := by
  cases spelled with
  | plain noQuote noBackslash visible =>
      exact scanString_plain rest noQuote noBackslash (UInt8.not_lt.mpr visible)
  | @short letter value listed =>
      have each : shortEscapes.all (fun escape =>
          decide (escape.1 ≠ 0x75 ∧ shortEscape? escape.1 = some escape.2)) = true := by decide
      obtain ⟨isLetter, escape⟩ := of_decide_eq_true (List.all_eq_true.mp each _ listed)
      show scanString (0x5C :: letter :: rest) = _
      rw [scanString_escape isLetter, escape]
      rfl
  | @unit first second third fourth value digits =>
      show scanString (0x5C :: 0x75 :: first :: second :: third :: fourth :: rest) = _
      rw [scanString, digits]

/-- Spelled pieces are scanned up to the closing quote. -/
theorem scanString_flatten {pieces : List Piece} {letters : List Bytes}
    (spelled : List.Forall₂ Piece.IsSpelled pieces letters) (rest : Bytes) :
    scanString (letters.flatten ++ 0x22 :: rest) = some (pieces, rest) := by
  induction spelled with
  | nil => rfl
  | cons first _ inductionHypothesis =>
      rw [List.flatten_cons, List.append_assoc, first.scanString_append, inductionHypothesis]
      rfl

/-! ## Numbers -/

/-- The spellings of an exponent; without a sign it is positive. -/
inductive ExponentIsSpelled : Option (Bool × List Nat) → Bytes → Prop
  | absent : ExponentIsSpelled none []
  | written {letter : UInt8} {negative : Bool} {sign : Bytes} {run : List Nat}
      (isLetter : letter ∈ [0x65, 0x45])
      (isSign : (negative, sign) ∈ [(false, []), (false, [0x2B]), (true, [0x2D])])
      (present : run ≠ []) (small : ∀ digit ∈ run, digit < 10) :
      ExponentIsSpelled (some (negative, run)) (letter :: (sign ++ run.map digitByte))

namespace Numeral

/-- A number before its exponent. -/
def mantissa (numeral : Numeral) : Bytes :=
  (if numeral.negative then [0x2D] else []) ++ numeral.whole.map digitByte ++
    if numeral.decimals = [] then [] else 0x2E :: numeral.decimals.map digitByte

/-- The spellings of a number. -/
structure IsSpelled (numeral : Numeral) (bytes : Bytes) : Prop where
  whole : numeral.whole ≠ []
  /-- A zero in front of the point stands alone. -/
  zeroAlone : ∀ others, numeral.whole = 0 :: others → others = []
  digits : ∀ digit ∈ numeral.whole ++ numeral.decimals, digit < 10
  shape : ∃ exponent,
    ExponentIsSpelled numeral.exponent exponent ∧ bytes = numeral.mantissa ++ exponent

end Numeral

/-- A digit is no sign, no point and no letter of an exponent. -/
theorem digitByte_ne {digit : Nat} (small : digit < 10) :
    digitByte digit ≠ 0x2B ∧ digitByte digit ≠ 0x2D ∧ digitByte digit ≠ 0x2E := by
  have each : ∀ digit : Fin 10,
      digitByte digit ≠ 0x2B ∧ digitByte digit ≠ 0x2D ∧ digitByte digit ≠ 0x2E := by decide
  exact each ⟨digit, small⟩

private theorem scanSomeDigits_append {run : List Nat} {rest : Bytes} (present : run ≠ [])
    (small : ∀ digit ∈ run, digit < 10) (stops : scanDigits rest = ([], rest)) :
    scanSomeDigits (run.map digitByte ++ rest) = some (run, rest) := by
  unfold scanSomeDigits
  rw [scanDigits_append small stops]
  split
  · rename_i none
    exact absurd (congrArg Prod.fst none) present
  · rfl

private theorem scanExponentSign_append {negative : Bool} {sign rest : Bytes} {run : List Nat}
    (isSign : (negative, sign) ∈ [(false, []), (false, [0x2B]), (true, [0x2D])])
    (present : run ≠ []) (small : ∀ digit ∈ run, digit < 10) :
    scanExponentSign (sign ++ (run.map digitByte ++ rest)) =
      (negative, run.map digitByte ++ rest) := by
  simp only [List.mem_cons, Prod.mk.injEq, List.not_mem_nil, or_false] at isSign
  rcases isSign with ⟨rfl, rfl⟩ | ⟨rfl, rfl⟩ | ⟨rfl, rfl⟩
  · obtain ⟨digit, others, rfl⟩ := List.exists_cons_of_ne_nil present
    obtain ⟨noPlus, noMinus, -⟩ := digitByte_ne (small digit List.mem_cons_self)
    simp [scanExponentSign, noPlus, noMinus]
  · rfl
  · rfl

private theorem ExponentIsSpelled.scanExponent_append {exponent : Option (Bool × List Nat)}
    {bytes rest : Bytes} (spelled : ExponentIsSpelled exponent bytes) (ends : EndsNumber rest) :
    scanExponent (bytes ++ rest) = some (exponent, rest) := by
  cases spelled with
  | absent => exact scanExponent_of_endsNumber ends
  | @written letter negative sign run isLetter isSign present small =>
      have letters : (letter == 0x65 || letter == 0x45) = true := by simpa using isLetter
      have scanned := scanSomeDigits_append present small (scanDigits_of_endsNumber ends)
      rw [List.cons_append, List.append_assoc, scanExponent, if_pos letters]
      simp only [scanExponentSign_append isSign present small, scanned, Option.map_some]

/-- An exponent, or what ends a number, is no digit and no point. -/
theorem ExponentIsSpelled.stops {exponent : Option (Bool × List Nat)} {bytes rest : Bytes}
    (spelled : ExponentIsSpelled exponent bytes) (ends : EndsNumber rest) :
    scanDigits (bytes ++ rest) = ([], bytes ++ rest) ∧
      scanDecimals (bytes ++ rest) = some ([], bytes ++ rest) := by
  cases spelled with
  | absent => exact ⟨scanDigits_of_endsNumber ends, scanDecimals_of_endsNumber ends⟩
  | written isLetter isSign present small =>
      simp only [List.mem_cons, List.not_mem_nil, or_false] at isLetter
      rcases isLetter with rfl | rfl
      · exact ⟨rfl, rfl⟩
      · exact ⟨rfl, rfl⟩

private theorem Numeral.IsSpelled.scanNumber_append {numeral : Numeral} {bytes rest : Bytes}
    (spelled : numeral.IsSpelled bytes) (ends : EndsNumber rest) :
    scanNumber (bytes ++ rest) = some (numeral, rest) := by
  obtain ⟨negative, whole, decimals, exponent⟩ := numeral
  obtain ⟨present, alone, small, exponentBytes, exponentSpelled, rfl⟩ := spelled
  dsimp only at present alone small exponentSpelled
  have smallWhole : ∀ digit ∈ whole, digit < 10 :=
    fun digit member => small digit (by simp [member])
  have smallDecimals : ∀ digit ∈ decimals, digit < 10 :=
    fun digit member => small digit (by simp [member])
  obtain ⟨stops, noPoint⟩ := exponentSpelled.stops ends
  -- The minus is taken off first, so what follows it is scanned in the same way with either sign.
  have scanned : ∀ sign : Bool,
      scanUnsigned sign (whole.map digitByte ++
        ((if decimals = [] then [] else 0x2E :: decimals.map digitByte) ++
          (exponentBytes ++ rest))) = some (⟨sign, whole, decimals, exponent⟩, rest) := by
    intro sign
    by_cases point : decimals = []
    · subst point
      rw [if_pos rfl, List.nil_append, scanUnsigned,
        scanWhole_append present alone smallWhole stops]
      simp only [noPoint, exponentSpelled.scanExponent_append ends]
    · have front : scanDecimals (0x2E :: (decimals.map digitByte ++ (exponentBytes ++ rest))) =
          some (decimals, exponentBytes ++ rest) :=
        scanSomeDigits_append point smallDecimals stops
      rw [if_neg point, List.cons_append, scanUnsigned,
        scanWhole_append present alone smallWhole rfl]
      simp only [front, exponentSpelled.scanExponent_append ends]
  cases negative with
  | true =>
      simp only [mantissa, if_true, List.append_assoc, List.cons_append, List.nil_append]
      exact scanned true
  | false =>
      obtain ⟨digit, others, rfl⟩ := List.exists_cons_of_ne_nil present
      have noSign := (digitByte_ne (smallWhole digit List.mem_cons_self)).2.1
      have unsigned : ∀ behind, scanNumber (digitByte digit :: behind) =
          scanUnsigned false (digitByte digit :: behind) := by
        intro behind
        simp [scanNumber, noSign]
      have found := scanned false
      simp only [mantissa, Bool.false_eq_true, if_false, List.append_assoc, List.nil_append,
        List.map_cons, List.cons_append] at found ⊢
      rw [unsigned, found]

/-- A number begins with a digit or with a minus. -/
theorem Numeral.IsSpelled.head {numeral : Numeral} {bytes : Bytes}
    (spelled : numeral.IsSpelled bytes) :
    ∃ byte rest, bytes = byte :: rest ∧
      (byte = 0x2D ∨ ∃ digit, digit < 10 ∧ byte = digitByte digit) := by
  obtain ⟨digit, others, equation⟩ := List.exists_cons_of_ne_nil spelled.whole
  have small : digit < 10 := spelled.digits digit (by simp [equation])
  obtain ⟨exponent, -, rfl⟩ := spelled.shape
  rw [mantissa, equation]
  cases numeral.negative with
  | true => exact ⟨_, _, rfl, .inl rfl⟩
  | false => exact ⟨_, _, rfl, .inr ⟨digit, small, rfl⟩⟩

/-! ## Tokens -/

/-- The marks around and between values. -/
def marks : List (Token × UInt8) :=
  [(.openBrace, 0x7B), (.closeBrace, 0x7D), (.openBracket, 0x5B), (.closeBracket, 0x5D),
    (.colon, 0x3A), (.comma, 0x2C)]

def words : List (Token × Bytes) :=
  [(.null, Text.bytes "null"), (.boolean true, Text.bytes "true"),
    (.boolean false, Text.bytes "false")]

/-- The spellings of a token. A string is the token of the text that its pieces stand for. -/
inductive Token.IsSpelled : Token → Bytes → Prop
  | mark {token : Token} {byte : UInt8} (listed : (token, byte) ∈ marks) : IsSpelled token [byte]
  | word {token : Token} {bytes : Bytes} (listed : (token, bytes) ∈ words) : IsSpelled token bytes
  | number {numeral : Numeral} {bytes : Bytes} (spelled : numeral.IsSpelled bytes) :
      IsSpelled (.number numeral) bytes
  | text {pieces : List Piece} {letters : List Bytes}
      (spelled : List.Forall₂ Piece.IsSpelled pieces letters) :
      IsSpelled (.text (pieceText? pieces)) (0x22 :: letters.flatten ++ [0x22])

def Token.isMark (token : Token) : Bool :=
  decide (token ∈ marks.map Prod.fst)

/-- A spelled token is scanned up to its end, whatever follows it; a number must not go on. -/
theorem Token.IsSpelled.lex_append {token : Token} {bytes rest : Bytes}
    (spelled : token.IsSpelled bytes) (ends : token.isMark = false → EndsNumber rest) :
    Token.lex (bytes ++ rest) = token :: Token.lex rest := by
  cases spelled with
  | @mark token byte listed =>
      have each : ∀ mark ∈ marks, isSpace mark.2 = false ∧ punctuation? mark.2 = some mark.1 := by
        decide
      obtain ⟨visible, found⟩ := each _ listed
      apply Token.lex_of_scanToken visible
      rw [scanToken]
      simp only [found]
      rfl
  | word listed =>
      simp only [words, List.mem_cons, Prod.mk.injEq, List.not_mem_nil, or_false] at listed
      rcases listed with ⟨rfl, rfl⟩ | ⟨rfl, rfl⟩ | ⟨rfl, rfl⟩
      · exact Token.lex_of_scanToken rfl rfl
      · exact Token.lex_of_scanToken rfl rfl
      · exact Token.lex_of_scanToken rfl rfl
  | @number numeral bytes spelled =>
      have scanned := spelled.scanNumber_append (ends rfl)
      obtain ⟨byte, others, rfl, start⟩ := spelled.head
      have shown : isSpace byte = false ∧ punctuation? byte = none ∧ (byte == 0x22) = false ∧
          (byte == 0x2D || (digitOfByte? byte).isSome) = true := by
        rcases start with rfl | ⟨digit, small, rfl⟩
        · decide
        · have each : ∀ digit : Fin 10, isSpace (digitByte digit) = false ∧
              punctuation? (digitByte digit) = none ∧ (digitByte digit == 0x22) = false ∧
              (digitByte digit == 0x2D || (digitOfByte? (digitByte digit)).isSome) = true := by
            decide
          exact each ⟨digit, small⟩
      obtain ⟨visible, noMark, noQuote, starts⟩ := shown
      rw [List.cons_append] at scanned ⊢
      apply Token.lex_of_scanToken visible
      simp only [scanToken, noMark, noQuote, starts, scanned, Bool.false_eq_true, if_false, if_true]
  | @text pieces letters spelled =>
      have scanned := scanString_flatten spelled rest
      simp only [List.cons_append, List.append_assoc, List.nil_append]
      apply Token.lex_of_scanToken rfl
      simp [scanToken, punctuation?, scanned]

/-! ## Layout -/

/-- The bytes are spellings of the tokens one after another, with white space anywhere before,
between and behind them. -/
inductive LaysOut : List Token → Bytes → Prop
  | nil : LaysOut [] []
  | space {space : UInt8} {tokens : List Token} {rest : Bytes}
      (white : space ∈ [0x20, 0x09, 0x0D, 0x0A]) (later : LaysOut tokens rest) :
      LaysOut tokens (space :: rest)
  | token {token : Token} {tokens : List Token} {bytes rest : Bytes}
      (spelled : token.IsSpelled bytes) (later : LaysOut tokens rest) :
      LaysOut (token :: tokens) (bytes ++ rest)

/-- Of two tokens side by side, one is a mark. -/
def Divided (tokens : List Token) : Prop :=
  tokens.IsChain fun left right => left.isMark || right.isMark

/-- Tokens are divided by a mark if they are on either side of it. -/
theorem divided_append_mark_iff {mark : Token} (isMark : mark.isMark = true)
    (left right : List Token) :
    Divided (left ++ mark :: right) ↔ Divided left ∧ Divided right := by
  simp [Divided, List.isChain_append, List.isChain_cons, isMark]

private theorem isSpace_of_mem {space : UInt8} (white : space ∈ [0x20, 0x09, 0x0D, 0x0A]) :
    isSpace space = true := by
  have each : ([0x20, 0x09, 0x0D, 0x0A] : Bytes).all isSpace = true := by decide
  exact List.all_eq_true.mp each space white

/-- A number does not go on behind its token, if a mark comes next or nothing does. -/
theorem LaysOut.endsNumber {tokens : List Token} {bytes : Bytes} (laysOut : LaysOut tokens bytes)
    (marked : ∀ next ∈ tokens.head?, next.isMark = true) :
    EndsNumber bytes := by
  cases laysOut with
  | nil =>
      intro byte member
      cases member
  | space white later => exact endsNumber_space (isSpace_of_mem white) _
  | token spelled later =>
      have isMark := marked _ rfl
      cases spelled with
      | mark listed =>
          have each : ∀ mark ∈ marks, digitOfByte? mark.2 = none ∧ mark.2 ≠ 0x2E ∧
              mark.2 ≠ 0x65 ∧ mark.2 ≠ 0x45 := by decide
          intro byte member
          cases member
          exact each _ listed
      | word listed =>
          have each : ∀ word ∈ words, word.1.isMark = false := by decide
          rw [each _ listed] at isMark
          cases isMark
      | number spelled => cases isMark
      | text spelled => cases isMark

/-- Divided tokens are read from every layout of theirs. -/
theorem lex_of_laysOut {tokens : List Token} {bytes : Bytes} (laysOut : LaysOut tokens bytes)
    (divided : Divided tokens) :
    Token.lex bytes = tokens := by
  induction laysOut with
  | nil => rw [Token.lex]
  | space white later inductionHypothesis =>
      rw [Token.lex_cons_of_isSpace _ (isSpace_of_mem white), inductionHypothesis divided]
  | @token token tokens bytes rest spelled later inductionHypothesis =>
      obtain ⟨apart, others⟩ := List.isChain_cons.mp divided
      have ends : token.isMark = false → EndsNumber rest := by
        intro noMark
        apply later.endsNumber
        intro next member
        simpa [noMark] using apart next member
      rw [spelled.lex_append ends, inductionHypothesis others]

end RoomLedger.Json
