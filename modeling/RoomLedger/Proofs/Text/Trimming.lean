import RoomLedger.Text.Blank

/-!
Contract: trimming takes the white space at both ends and nothing else.

Owns:
- `trim_between`, by which white space around a text leaves no trace in what is trimmed;
- `trim_of_visible`, by which a text without white space is kept as it is.

Does not own: what is read from a trimmed text.
-/

namespace RoomLedger.Text

private theorem trimStart_append_of_blank {before : List Char}
    (isSpace : ∀ character ∈ before, isBlank character = true) (characters : List Char) :
    trimStart (before ++ characters) = trimStart characters :=
  List.dropWhile_append_of_pos isSpace

private theorem trimStart_of_visible {characters : List Char}
    (visible : ∀ character ∈ characters, isBlank character = false) :
    trimStart characters = characters := by
  cases characters with
  | nil => rfl
  | cons character rest => exact trimStart_cons_of_not_blank rest (visible character (by simp))

private theorem trim_append_of_blank {after : List Char}
    (isSpace : ∀ character ∈ after, isBlank character = true) (characters : List Char) :
    trim (characters ++ after) = trim characters := by
  have behind : trimStart after = [] := by
    have dropped := trimStart_append_of_blank isSpace []
    rwa [List.append_nil] at dropped
  have isSpaceBackwards : ∀ character ∈ after.reverse, isBlank character = true :=
    fun character member => isSpace character (List.mem_reverse.mp member)
  have front : trimStart (characters ++ after) =
      if (trimStart characters).isEmpty then trimStart after else trimStart characters ++ after :=
    List.dropWhile_append
  rw [trim, trim, front, behind]
  split
  · rename_i nothing
    rw [List.isEmpty_iff.mp nothing]
  · rw [List.reverse_append, trimStart_append_of_blank isSpaceBackwards]

/-- White space around a text leaves no trace in what is trimmed. -/
theorem trim_between {before after : List Char}
    (isSpaceBefore : ∀ character ∈ before, isBlank character = true)
    (isSpaceAfter : ∀ character ∈ after, isBlank character = true) (characters : List Char) :
    trim (before ++ characters ++ after) = trim characters := by
  rw [trim_append_of_blank isSpaceAfter, trim, trimStart_append_of_blank isSpaceBefore]
  rfl

/-- A text without white space is kept as it is. -/
theorem trim_of_visible {characters : List Char}
    (visible : ∀ character ∈ characters, isBlank character = false) :
    trim characters = characters := by
  have backwards : ∀ character ∈ characters.reverse, isBlank character = false :=
    fun character member => visible character (List.mem_reverse.mp member)
  rw [trim, trimStart_of_visible visible, trimStart_of_visible backwards, List.reverse_reverse]

end RoomLedger.Text
