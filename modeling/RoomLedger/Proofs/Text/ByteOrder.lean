import Mathlib.Data.String.Basic
import Mathlib.Tactic.SplitIfs
import RoomLedger.Text.Bytes

/-!
Contract: the order of texts is the order of their bytes.

Owns:
- `utf8EncodeChar_append_lt`, by which the bytes of two characters differ before either of
  them ends, and the lesser character has the lesser byte there;
- `bytes_lt_iff`, by which texts are ordered as their bytes are.

Does not own: where texts are ordered.
-/

namespace RoomLedger.Text

/-! ## Characters -/

theorem toNat_val_lt (character : Char) : character.val.toNat < 0x110000 := by
  rcases character.valid with low | high
  · omega
  · exact high.2

private theorem cons_ofNat_lt {low high : Nat} (below : low < high) (isByte : high < 256)
    (left right : Bytes) :
    UInt8.ofNat low :: left < UInt8.ofNat high :: right := by
  refine List.cons_lt_cons_iff.mpr (Or.inl ?_)
  rw [UInt8.lt_iff_toNat_lt, UInt8.toNat_ofNat', UInt8.toNat_ofNat']
  omega

/-- The bytes of the lesser of two characters come first, whatever follows them. -/
theorem utf8EncodeChar_append_lt {first second : Char} (less : first < second)
    (left right : Bytes) :
    String.utf8EncodeChar first ++ left < String.utf8EncodeChar second ++ right := by
  have below : first.val.toNat < second.val.toNat := less
  have bound := toNat_val_lt second
  unfold String.utf8EncodeChar
  generalize first.val.toNat = low at below
  generalize second.val.toNat = high at below bound
  dsimp only
  by_cases narrow : low ≤ 0xFFFF
  · split_ifs
    all_goals
      simp only [List.cons_append, List.nil_append, List.cons_lt_cons_iff, UInt8.lt_iff_toNat_lt,
        ← UInt8.toNat_inj, UInt8.toNat_ofNat']
      omega
  · -- Both have four bytes, and the first place in which the numbers differ decides.
    have places : low / 262144 < high / 262144 ∨ low / 262144 = high / 262144 ∧
        (low / 4096 % 64 < high / 4096 % 64 ∨ low / 4096 % 64 = high / 4096 % 64 ∧
          (low / 64 % 64 < high / 64 % 64 ∨ low / 64 % 64 = high / 64 % 64 ∧
            low % 64 < high % 64)) := by
      omega
    rw [if_neg (by omega), if_neg (by omega), if_neg narrow, if_neg (by omega),
      if_neg (by omega), if_neg (by omega)]
    simp only [List.cons_append, List.nil_append]
    rcases places with lead | ⟨sameLead, second | ⟨sameSecond, third | ⟨sameThird, last⟩⟩⟩
    · exact cons_ofNat_lt (by omega) (by omega) _ _
    · rw [sameLead]
      exact .cons (cons_ofNat_lt (by omega) (by omega) _ _)
    · rw [sameLead, sameSecond]
      exact .cons (.cons (cons_ofNat_lt (by omega) (by omega) _ _))
    · rw [sameLead, sameSecond, sameThird]
      exact .cons (.cons (.cons (cons_ofNat_lt (by omega) (by omega) _ _)))

/-! ## Texts -/

theorem bytes_eq_flatMap (text : String) :
    bytes text = text.toList.flatMap String.utf8EncodeChar := by
  have spelled : String.ofList text.toList = text := String.ofList_toList
  calc
    bytes text
    _ = bytes (String.ofList text.toList) := by rw [spelled]
    _ = text.toList.flatMap String.utf8EncodeChar := by
      rw [bytes, String.toByteArray_ofList, List.utf8Encode]
      exact List.toList_data_toByteArray

private theorem flatMap_utf8EncodeChar_lt {left right : List Char} (less : left < right) :
    left.flatMap String.utf8EncodeChar < right.flatMap String.utf8EncodeChar := by
  induction less with
  | @nil character rest =>
      cases spelled : (character :: rest).flatMap String.utf8EncodeChar with
      | nil => simp [String.utf8EncodeChar_ne_nil] at spelled
      | cons byte others => exact .nil
  | rel less => exact utf8EncodeChar_append_lt less _ _
  | cons _ inductionHypothesis => exact List.append_left_lt inductionHypothesis

private theorem bytes_lt_of_lt {left right : String} (less : left < right) :
    bytes left < bytes right := by
  rw [bytes_eq_flatMap, bytes_eq_flatMap]
  exact flatMap_utf8EncodeChar_lt (String.lt_iff_toList_lt.mp less)

/-- The bytes of texts are ordered as the texts are. -/
theorem bytes_lt_iff (left right : String) : bytes left < bytes right ↔ left < right := by
  refine ⟨fun less => ?_, bytes_lt_of_lt⟩
  rcases lt_trichotomy left right with before | same | behind
  · exact before
  · rw [same] at less
    exact absurd less (List.lt_irrefl _)
  · exact absurd (bytes_lt_of_lt behind) (List.lt_asymm less)

end RoomLedger.Text
