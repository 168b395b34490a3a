import LogCensus.Decimal.Layout
import LogCensus.Json.Basic

/-!
# Writing JSON texts

A compact form on one line and an indented form with two blanks per level. Only what JSON requires
is escaped. Numbers are written in the layout `Layout.json`.
-/

namespace LogCensus.Json

namespace Printer

/-- A hexadecimal digit. -/
def hexDigit (n : Nat) : Char :=
  if n < 10 then Char.ofNat (48 + n) else Char.ofNat (87 + n)

/-- A character inside a string. -/
def escaped (c : Char) : List Char :=
  match c with
  | '"' => ['\\', '"']
  | '\\' => ['\\', '\\']
  | '\x08' => ['\\', 'b']
  | '\x0c' => ['\\', 'f']
  | '\n' => ['\\', 'n']
  | '\r' => ['\\', 'r']
  | '\t' => ['\\', 't']
  | c =>
    if c.toNat < 0x20 then ['\\', 'u', '0', '0', hexDigit (c.toNat / 16), hexDigit (c.toNat % 16)]
    else [c]

/-- A quoted string. -/
def quoted (text : String) : String :=
  "\"" ++ String.ofList (text.toList.flatMap escaped) ++ "\""

/-- A number, a constant or a string; arrays and objects have no text of their own. -/
def scalar : Json → String
  | .bool true => "true"
  | .bool false => "false"
  | .int value => toString value
  | .float value => if value.isFinite then Layout.json.text value else "null"
  | .string value => quoted value
  | _ => "null"

/-- A list of texts in brackets. -/
def enclosed (opening closing : String) (parts : List String) : String :=
  opening ++ String.intercalate "," parts ++ closing

/-- The start of a line at an indentation level. -/
def newline (level : Nat) : String :=
  "\n" ++ String.ofList (List.replicate (2 * level) ' ')

/-- A list of texts in brackets, each on a line of its own; an empty list takes no line. -/
def enclosedLines (opening closing : String) (level : Nat) (parts : List String) : String :=
  if parts.isEmpty then opening ++ closing
  else
    opening ++ String.intercalate "," (parts.map (newline (level + 1) ++ ·)) ++ newline level ++
      closing

end Printer

open Printer

mutual
/-- The value on one line. -/
def compact : Json → String
  | .array items => enclosed "[" "]" (compactItems items)
  | .object members => enclosed "\x7b" "\x7d" (compactMembers members)
  | value => scalar value
/-- The items of an array, each on one line. -/
def compactItems : List Json → List String
  | [] => []
  | item :: rest => item.compact :: compactItems rest
/-- The members of an object, each on one line. -/
def compactMembers : List (String × Json) → List String
  | [] => []
  | (key, value) :: rest => (quoted key ++ ":" ++ value.compact) :: compactMembers rest
end

mutual
/-- The value with its parts on lines of their own, inside `level` levels. -/
def indented (level : Nat) : Json → String
  | .array items => enclosedLines "[" "]" level (indentedItems (level + 1) items)
  | .object members => enclosedLines "\x7b" "\x7d" level (indentedMembers (level + 1) members)
  | value => scalar value
/-- The items of an array. -/
def indentedItems (level : Nat) : List Json → List String
  | [] => []
  | item :: rest => indented level item :: indentedItems level rest
/-- The members of an object. -/
def indentedMembers (level : Nat) : List (String × Json) → List String
  | [] => []
  | (key, value) :: rest =>
    (quoted key ++ ": " ++ indented level value) :: indentedMembers level rest
end

/-- The value in the indented form. -/
def pretty (value : Json) : String :=
  indented 0 value

end LogCensus.Json
