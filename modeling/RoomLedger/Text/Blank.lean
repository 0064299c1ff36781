/-!
Contract: the white space of Unicode and the trimming of text by it.

Owns:
- the class `isBlank` of white-space characters;
- trimming at the front and at both ends;
- `Blank`, the texts that hold nothing but white space.

Does not own: the white space of a data format, which is a smaller class that
each format states for itself.
-/

namespace RoomLedger.Text

/-- A character with the Unicode property White_Space. -/
def isBlank (character : Char) : Bool :=
  let code := character.toNat
  (9 ≤ code && code ≤ 13) || code == 0x20 || code == 0x85 || code == 0xA0 ||
    code == 0x1680 || (0x2000 ≤ code && code ≤ 0x200A) || code == 0x2028 ||
    code == 0x2029 || code == 0x202F || code == 0x205F || code == 0x3000

/-- The text without its leading white space. -/
def trimStart (characters : List Char) : List Char :=
  characters.dropWhile isBlank

/-- The text without its leading and trailing white space. -/
def trim (characters : List Char) : List Char :=
  (trimStart (trimStart characters).reverse).reverse

/-- The text holds nothing but white space; the empty text is blank. -/
def blank (text : String) : Bool :=
  text.toList.all isBlank

@[simp] theorem trimStart_nil : trimStart [] = [] := rfl

/-- A character outside the class stops the trimming at the front. -/
@[simp] theorem trimStart_cons_of_not_blank {character : Char} (characters : List Char)
    (visible : isBlank character = false) :
    trimStart (character :: characters) = character :: characters := by
  simp [trimStart, visible]

/-- A white-space character in front is dropped. -/
@[simp] theorem trimStart_cons_of_blank {character : Char} (characters : List Char)
    (isSpace : isBlank character = true) :
    trimStart (character :: characters) = trimStart characters := by
  simp [trimStart, isSpace]

end RoomLedger.Text
