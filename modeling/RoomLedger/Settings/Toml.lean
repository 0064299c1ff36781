import RoomLedger.Decimal.Power

/-!
Contract: flat TOML documents, with a text or a whole number for every key.

Owns:
- `Toml.Scalar`, the values;
- `Toml.pairs?`, the keys of a document with their values, in order.

Comments, empty lines, quoted keys, the four kinds of strings and the four bases
of numbers are read. Tables, arrays, dotted keys and values of other types are
refused like text that is no TOML. Keys may repeat here.

Does not own: which keys there are.
-/

namespace RoomLedger.Toml

/-- A value. -/
inductive Scalar where
  | text (value : String)
  | whole (value : Int)
deriving DecidableEq, Repr

/-- What a scanner takes off the front of a text, and what is left. -/
abbrev Scanned (α : Type) := Option (α × List Char)

/-! ## Characters -/

def isBlank (character : Char) : Bool :=
  character == ' ' || character == '\t'

/-- A character that comments and strings may hold as it is: the tab, and all
that is no control of ASCII. -/
def isPlain (character : Char) : Bool :=
  character == '\t' || (0x20 ≤ character.toNat && character.toNat != 0x7F)

def isBare (character : Char) : Bool :=
  character.isAlphanum || character == '_' || character == '-'

/-- The text after white space within a line. -/
def skipBlanks (characters : List Char) : List Char :=
  characters.dropWhile isBlank

def newline? : List Char → Option (List Char)
  | '\n' :: rest => some rest
  | '\r' :: '\n' :: rest => some rest
  | _ => none

/-- The text after a first end of line, if there is one. -/
def skipNewline (characters : List Char) : List Char :=
  (newline? characters).getD characters

/-- The text after white space and ends of lines. -/
def skipLines : (fuel : Nat) → List Char → List Char
  | 0, characters => characters
  | fuel + 1, characters =>
      let rest := skipBlanks characters
      match newline? rest with
      | some following => skipLines fuel following
      | none => rest

/-! ## Strings -/

def hexDigit? (character : Char) : Option Nat :=
  if character.isDigit then some (character.toNat - 48)
  else if 'a' ≤ character ∧ character ≤ 'f' then some (character.toNat - 87)
  else if 'A' ≤ character ∧ character ≤ 'F' then some (character.toNat - 55)
  else none

/-- The character whose number so many hexadecimal digits give. -/
def codePoint? : (width number : Nat) → List Char → Scanned Char
  | 0, number, characters =>
      if number.isValidChar then some (Char.ofNat number, characters) else none
  | _ + 1, _, [] => none
  | width + 1, number, character :: rest =>
      match hexDigit? character with
      | none => none
      | some digit => codePoint? width (16 * number + digit) rest

/-- The character of an escape, whose backslash has been read. -/
def escape? : List Char → Scanned Char
  | 'b' :: rest => some ('\x08', rest)
  | 't' :: rest => some ('\t', rest)
  | 'n' :: rest => some ('\n', rest)
  | 'f' :: rest => some ('\x0c', rest)
  | 'r' :: rest => some ('\r', rest)
  | '"' :: rest => some ('"', rest)
  | '\\' :: rest => some ('\\', rest)
  | 'u' :: rest => codePoint? 4 0 rest
  | 'U' :: rest => codePoint? 8 0 rest
  | _ => none

/-- A character in front of what a scanner took. -/
def prepend (character : Char) : Scanned (List Char) → Scanned (List Char)
  | none => none
  | some (content, rest) => some (character :: content, rest)

/-- A string on one line, whose first quote has been read. In a string between
single quotes a backslash is a character as any other. -/
def lineString (quote : Char) : (fuel : Nat) → List Char → Scanned (List Char)
  | 0, _ => none
  | _ + 1, [] => none
  | fuel + 1, character :: rest =>
      if character = quote then some ([], rest)
      else if character = '\\' ∧ quote = '"' then
        match escape? rest with
        | none => none
        | some (meant, following) => prepend meant (lineString quote fuel following)
      else if isPlain character then prepend character (lineString quote fuel rest)
      else none

/-- The end of a string on several lines, whose three quotes have been read: one
or two quotes more belong to the content. -/
def closing (quote : Char) : List Char → List Char × List Char
  | first :: second :: rest =>
      if first = quote ∧ second = quote then ([first, second], rest)
      else if first = quote then ([first], second :: rest)
      else ([], first :: second :: rest)
  | [first] => if first = quote then ([first], []) else ([], [first])
  | [] => ([], [])

def isDelimiter (quote : Char) (characters : List Char) : Bool :=
  characters.take 3 == [quote, quote, quote]

/-- The text after a backslash that ends a line, and after all white space that
follows. -/
def continued? (characters : List Char) : Option (List Char) :=
  match newline? (skipBlanks characters) with
  | none => none
  | some rest => some (skipLines rest.length rest)

/-- A string on several lines, whose first quotes have been read. Ends of lines
are kept as newlines. -/
def blockString (quote : Char) : (fuel : Nat) → List Char → Scanned (List Char)
  | 0, _ => none
  | _ + 1, [] => none
  | fuel + 1, character :: rest =>
      if isDelimiter quote (character :: rest) then some (closing quote (rest.drop 2))
      else
        match newline? (character :: rest) with
        | some following => prepend '\n' (blockString quote fuel following)
        | none =>
            if character = '\\' ∧ quote = '"' then
              match continued? rest with
              | some following => blockString quote fuel following
              | none =>
                  match escape? rest with
                  | none => none
                  | some (meant, following) => prepend meant (blockString quote fuel following)
            else if isPlain character then prepend character (blockString quote fuel rest)
            else none

def string? (characters : List Char) : Scanned String :=
  let fuel := characters.length + 1
  let found :=
    match characters with
    | '"' :: '"' :: '"' :: rest => blockString '"' fuel (skipNewline rest)
    | '\'' :: '\'' :: '\'' :: rest => blockString '\'' fuel (skipNewline rest)
    | '"' :: rest => lineString '"' fuel rest
    | '\'' :: rest => lineString '\'' fuel rest
    | _ => none
  found.map fun scanned => (String.ofList scanned.1, scanned.2)

/-! ## Numbers -/

def digit? (base : Nat) (character : Char) : Option Nat :=
  match hexDigit? character with
  | none => none
  | some digit => if digit < base then some digit else none

/-- Digits after the first one; single underscores may stand between digits. -/
def moreDigits (base : Nat) : (number : Nat) → List Char → Nat × List Char
  | number, '_' :: character :: rest =>
      match digit? base character with
      | some digit => moreDigits base (base * number + digit) rest
      | none => (number, '_' :: character :: rest)
  | number, character :: rest =>
      match digit? base character with
      | some digit => moreDigits base (base * number + digit) rest
      | none => (number, character :: rest)
  | number, [] => (number, [])

def digits? (base : Nat) : List Char → Scanned Nat
  | [] => none
  | character :: rest =>
      match digit? base character with
      | none => none
      | some digit => some (moreDigits base digit rest)

/-- A number in base ten without a sign. Only zero itself begins with a zero. -/
def decimal? : List Char → Scanned Nat
  | '0' :: rest => some (0, rest)
  | characters => digits? 10 characters

/-- A number of any base that fits into sixty-four bits with a sign. -/
def whole? (characters : List Char) : Scanned Int :=
  let found : Scanned Int :=
    match characters with
    | '0' :: 'x' :: rest => (digits? 16 rest).map fun scanned => ((scanned.1 : Int), scanned.2)
    | '0' :: 'o' :: rest => (digits? 8 rest).map fun scanned => ((scanned.1 : Int), scanned.2)
    | '0' :: 'b' :: rest => (digits? 2 rest).map fun scanned => ((scanned.1 : Int), scanned.2)
    | '+' :: rest => (decimal? rest).map fun scanned => ((scanned.1 : Int), scanned.2)
    | '-' :: rest => (decimal? rest).map fun scanned => (-(scanned.1 : Int), scanned.2)
    | _ => (decimal? characters).map fun scanned => ((scanned.1 : Int), scanned.2)
  match found with
  | none => none
  | some (number, rest) =>
      if -(Decimal.signedLimit64 : Int) ≤ number ∧ number < Decimal.signedLimit64 then
        some (number, rest)
      else none

/-! ## Documents -/

def scalar? (characters : List Char) : Scanned Scalar :=
  match characters with
  | '"' :: _ => (string? characters).map fun scanned => (.text scanned.1, scanned.2)
  | '\'' :: _ => (string? characters).map fun scanned => (.text scanned.1, scanned.2)
  | _ => (whole? characters).map fun scanned => (.whole scanned.1, scanned.2)

/-- A key, with quotes on one line or without quotes. -/
def key? (characters : List Char) : Scanned String :=
  let fuel := characters.length + 1
  let found : Scanned (List Char) :=
    match characters with
    | '"' :: rest => lineString '"' fuel rest
    | '\'' :: rest => lineString '\'' fuel rest
    | _ =>
        let name := characters.takeWhile isBare
        if name.isEmpty then none else some (name, characters.dropWhile isBare)
  found.map fun scanned => (String.ofList scanned.1, scanned.2)

/-- The text after white space, a comment and the end of the line. -/
def lineEnd? (characters : List Char) : Option (List Char) :=
  let rest :=
    match skipBlanks characters with
    | '#' :: comment => comment.dropWhile isPlain
    | rest => rest
  if rest.isEmpty then some [] else newline? rest

/-- A key with its value, up to the end of the line. -/
def pair? (characters : List Char) : Scanned (String × Scalar) :=
  match key? characters with
  | none => none
  | some (key, afterKey) =>
      match skipBlanks afterKey with
      | '=' :: content =>
          match scalar? (skipBlanks content) with
          | none => none
          | some (value, afterValue) =>
              match lineEnd? afterValue with
              | none => none
              | some rest => some ((key, value), rest)
      | _ => none

def lines? : (fuel : Nat) → List Char → Option (List (String × Scalar))
  | 0, _ => none
  | fuel + 1, characters =>
      let content := skipBlanks characters
      if content.isEmpty then some []
      else
        match newline? content with
        | some rest => lines? fuel rest
        | none =>
            if content.head? = some '#' then
              match lineEnd? content with
              | none => none
              | some rest => lines? fuel rest
            else
              match pair? content with
              | none => none
              | some (pair, rest) =>
                  match lines? fuel rest with
                  | none => none
                  | some pairs => some (pair :: pairs)

/-- The pairs of a document, which may begin with a byte order mark. -/
def pairs? (text : String) : Option (List (String × Scalar)) :=
  match text.toList with
  | '\uFEFF' :: rest => lines? (rest.length + 1) rest
  | characters => lines? (characters.length + 1) characters

end RoomLedger.Toml
