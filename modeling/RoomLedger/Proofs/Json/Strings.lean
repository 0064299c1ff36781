import RoomLedger.Json.Token

/-!
Contract: what the scanner of strings does with one letter.

Owns:
- `scanString_escape` and `scanString_byte`, for a short escape and for a byte that stands
  for itself;
- `space_le_of_mem_writeString`, by which a written string holds no control, so
  no end of a line.

Does not own: whole strings and the texts that they spell.
-/

namespace RoomLedger.Json

open RoomLedger.Text (Bytes)

/-! ## Scanning -/

theorem scanString_escape {letter : UInt8} (isLetter : letter ≠ 0x75) (rest : Bytes) :
    scanString (0x5C :: letter :: rest) =
      (shortEscape? letter).bind fun value =>
        (scanString rest).map (Piece.byte value).inFront := by
  rw [scanString]
  · cases shortEscape? letter <;> rfl
  · exact fun _ _ _ _ _ same _ => isLetter same

theorem scanString_byte {byte : UInt8} (noQuote : byte ≠ 0x22) (noBackslash : byte ≠ 0x5C)
    (rest : Bytes) :
    scanString (byte :: rest) =
      if byte < 0x20 then none else (scanString rest).map (Piece.byte byte).inFront := by
  rw [scanString]
  · exact fun same => noQuote same
  · exact fun _ _ _ _ _ same _ => noBackslash same
  · exact fun _ _ same _ => noBackslash same

theorem scanString_plain {byte : UInt8} (rest : Bytes) (noQuote : byte ≠ 0x22)
    (noBackslash : byte ≠ 0x5C) (visible : ¬ byte < 0x20) :
    scanString (byte :: rest) = (scanString rest).map (Piece.byte byte).inFront := by
  rw [scanString_byte noQuote noBackslash, if_neg visible]

/-! ## No controls -/

private theorem space_le_of_mem_escapeByte {byte other : UInt8} (member : other ∈ escapeByte byte) :
    0x20 ≤ other := by
  have each : ∀ code : Fin 256,
      (escapeByte (UInt8.ofNat code.val)).all (fun other => decide (0x20 ≤ other)) = true := by
    decide +kernel
  have bound := byte.toNat_lt
  have found := each ⟨byte.toNat, bound⟩
  simp only [UInt8.ofNat_toNat] at found
  exact of_decide_eq_true (List.all_eq_true.mp found other member)

/-- A written string holds no control. -/
theorem space_le_of_mem_writeString {text : String} {byte : UInt8}
    (member : byte ∈ writeString text) :
    0x20 ≤ byte := by
  simp only [writeString, List.cons_append, List.mem_cons, List.mem_append, List.mem_flatMap,
    List.not_mem_nil, or_false] at member
  rcases member with rfl | ⟨source, -, escaped⟩ | rfl
  · decide
  · exact space_le_of_mem_escapeByte escaped
  · decide

end RoomLedger.Json
