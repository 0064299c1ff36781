/-!
Contract: text that a terminal shows in colour.

Owns:
- `Style`, the codes of a terminal, and the styles that are used;
- `Style.paint`, a text with its style switched on before it and off after it.

A text may switch styles off itself; the style is then switched on again.

Does not own: whether the terminal shows colours.
-/

namespace RoomLedger.CommandLine

abbrev Style := List Nat

namespace Style

def bold : Style := [1]

def dimmed : Style := [2]

def green : Style := [32]

def yellow : Style := [33]

def magenta : Style := [35]

def cyan : Style := [36]

def sequence (codes : String) : String :=
  "\x1b[" ++ codes ++ "m"

def reset : String := sequence "0"

def start (style : Style) : String :=
  sequence (";".intercalate (style.map toString))

/-- The characters of a text, with more of them after every reset. -/
def afterResets (more : List Char) : List Char → List Char
  | '\x1b' :: '[' :: '0' :: 'm' :: rest =>
      ['\x1b', '[', '0', 'm'] ++ more ++ afterResets more rest
  | character :: rest => character :: afterResets more rest
  | [] => []

/-- A text in a style, where colours are shown. -/
def paint (style : Style) (colours : Bool) (text : String) : String :=
  if colours then
    style.start ++ String.ofList (afterResets style.start.toList text.toList) ++ reset
  else text

@[simp] theorem paint_plain (style : Style) (text : String) : style.paint false text = text := rfl

end Style

end RoomLedger.CommandLine
