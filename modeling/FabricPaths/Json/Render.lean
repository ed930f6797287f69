import FabricPaths.Json.Basic
import FabricPaths.Number.Layout
import FabricPaths.Text.Quoted

/-!
# Writing documents

Documents are written one member a line, two blanks deeper at each level. Texts
are written in ASCII: other characters are escaped as one or two units of
sixteen bits.
-/

namespace FabricPaths.Json

/-- Doubles are positional from `1e-4` up to but not including `1e16`; an
exponent has two digits at least. -/
def numberLayout : Number.Layout :=
  { positionalFrom := -4, positionalBelow := 16, exponentDigits := 2
    infinity := "Infinity", undefined := "NaN" }

/-- A unit of sixteen bits as an escape. -/
def unitEscape (n : Nat) : List Char := '\\' :: 'u' :: Text.hexDigits 4 n

/-- A character of a text. -/
def writeChar (c : Char) : List Char :=
  if c == '"' then ['\\', '"']
  else if c == '\\' then ['\\', '\\']
  else if c == '\n' then ['\\', 'n']
  else if c == '\r' then ['\\', 'r']
  else if c == '\t' then ['\\', 't']
  else if c == '\x08' then ['\\', 'b']
  else if c == '\x0c' then ['\\', 'f']
  else if 0x20 ≤ c.toNat && c.toNat ≤ 0x7e then [c]
  else if c.toNat < 0x10000 then unitEscape c.toNat
  else
    unitEscape (0xd800 + (c.toNat - 0x10000) / 0x400) ++
      unitEscape (0xdc00 + (c.toNat - 0x10000) % 0x400)

/-- A text between quotes. -/
def writeString (s : String) : String :=
  String.ofList ('"' :: (s.toList.flatMap writeChar ++ ['"']))

/-- The end of a line and the margin of the next. -/
def newLine (depth : Nat) : String :=
  String.ofList ('\n' :: List.replicate (2 * depth) ' ')

mutual

/-- A value at a depth. -/
def renderAt (depth : Nat) : Json → String
  | .null => "null"
  | .bool true => "true"
  | .bool false => "false"
  | .int n => toString n
  | .float x => numberLayout.write x
  | .str s => writeString s
  | .arr [] => "[]"
  | .arr (j :: js) =>
    "[" ++ newLine (depth + 1) ++ renderAt (depth + 1) j ++ renderItems (depth + 1) js ++
      newLine depth ++ "]"
  | .obj [] => "\x7b\x7d"
  | .obj ((k, j) :: ms) =>
    "\x7b" ++ newLine (depth + 1) ++ writeString k ++ ": " ++ renderAt (depth + 1) j ++
      renderMembers (depth + 1) ms ++ newLine depth ++ "\x7d"

/-- The further items of a list. -/
def renderItems (depth : Nat) : List Json → String
  | [] => ""
  | j :: js => "," ++ newLine depth ++ renderAt depth j ++ renderItems depth js

/-- The further members of an object. -/
def renderMembers (depth : Nat) : List (String × Json) → String
  | [] => ""
  | (k, j) :: ms =>
    "," ++ newLine depth ++ writeString k ++ ": " ++ renderAt depth j ++ renderMembers depth ms

end

/-- The text of a document. -/
def render (j : Json) : String := renderAt 0 j

end FabricPaths.Json
