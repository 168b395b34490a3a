import LogCensus.Json.Number

/-!
# Reading JSON texts

A strict reader: one value, with blanks around it and nothing else. There are no comments, no
trailing commas and no leading zeros, and a string holds no raw control character. The reader keeps
repeated keys and sets no limit on nesting; both are decided by whoever reads the value.
-/

namespace LogCensus.Json

namespace Parser

/-- The four blanks of JSON. -/
def isBlank (c : Char) : Bool :=
  c == ' ' || c == '\n' || c == '\t' || c == '\r'

/-- The rest of the text after blanks. -/
def skipBlanks (text : List Char) : List Char :=
  text.dropWhile isBlank

/-- The value of a decimal digit. -/
def digit? (c : Char) : Option Nat :=
  if '0' ≤ c ∧ c ≤ '9' then some (c.toNat - 48) else none

/-- The value of a hexadecimal digit. -/
def hexDigit? (c : Char) : Option Nat :=
  if '0' ≤ c ∧ c ≤ '9' then some (c.toNat - 48)
  else if 'a' ≤ c ∧ c ≤ 'f' then some (c.toNat - 87)
  else if 'A' ≤ c ∧ c ≤ 'F' then some (c.toNat - 55)
  else none

/-- The value of four hexadecimal digits. -/
def hex4? (a b c d : Char) : Option Nat := do
  return (((← hexDigit? a) * 16 + (← hexDigit? b)) * 16 + (← hexDigit? c)) * 16 + (← hexDigit? d)

/-- One element of a string: a character, or a 16-bit unit written as an escape. -/
inductive Element where
  | char (c : Char)
  | unit (code : Nat)
deriving DecidableEq

/-- The character of a one-letter escape. -/
def escape? : Char → Option Char
  | '"' => some '"'
  | '\\' => some '\\'
  | '/' => some '/'
  | 'b' => some '\x08'
  | 'f' => some '\x0c'
  | 'n' => some '\n'
  | 'r' => some '\r'
  | 't' => some '\t'
  | _ => none

/-- The elements of a string up to its closing quote, and the text after it. -/
def elements : List Char → Option (List Element × List Char)
  | [] => none
  | '"' :: rest => some ([], rest)
  | '\\' :: 'u' :: a :: b :: c :: d :: rest => do
    let code ← hex4? a b c d
    let (more, after) ← elements rest
    return (.unit code :: more, after)
  | '\\' :: c :: rest => do
    let escaped ← escape? c
    let (more, after) ← elements rest
    return (.char escaped :: more, after)
  | c :: rest =>
    if c.toNat < 0x20 then none
    else do
      let (more, after) ← elements rest
      return (.char c :: more, after)

/-- Whether a unit is the first half of a pair. -/
def isHigh (code : Nat) : Bool :=
  0xD800 ≤ code && code < 0xDC00

/-- Whether a unit is the second half of a pair. -/
def isLow (code : Nat) : Bool :=
  0xDC00 ≤ code && code < 0xE000

/-- The characters of a string; none when half of a pair stands alone. -/
def characters : List Element → Option (List Char)
  | [] => some []
  | .char c :: rest => (characters rest).map (c :: ·)
  | .unit high :: .unit low :: rest =>
    if isHigh high then
      if isLow low then
        (characters rest).map
          (Char.ofNat (0x10000 + (high - 0xD800) * 0x400 + (low - 0xDC00)) :: ·)
      else none
    else if isLow high then none
    -- the first unit is a character by itself, and the second may still start a pair
    else (characters (.unit low :: rest)).map (Char.ofNat high :: ·)
  | .unit code :: rest =>
    if isHigh code || isLow code then none
    else (characters rest).map (Char.ofNat code :: ·)

/-- A string after its opening quote: its text, if it has one, and the rest. -/
def string (text : List Char) : Option (Option String × List Char) := do
  let (found, rest) ← elements text
  return ((characters found).map String.ofList, rest)

/-- The digits at the start of a text, and the rest. -/
def digits : List Char → List Nat × List Char
  | [] => ([], [])
  | c :: rest =>
    match digit? c with
    | some d => let (more, after) := digits rest; (d :: more, after)
    | none => ([], c :: rest)

/-- At least one digit. -/
def digits1 (text : List Char) : Option (List Nat × List Char) :=
  match digits text with
  | ([], _) => none
  | found => some found

/-- The digits in front of the point: a zero alone, or no leading zero. -/
def whole (text : List Char) : Option (List Nat × List Char) :=
  match text with
  | '0' :: rest => some ([0], rest)
  | _ => digits1 text

/-- The digits after a point, if there is one. -/
def fraction (text : List Char) : Option (List Nat × List Char) :=
  match text with
  | '.' :: rest => digits1 rest
  | _ => some ([], text)

/-- The exponent, if there is one. -/
def exponent (text : List Char) : Option (Option (Bool × List Nat) × List Char) :=
  match text with
  | c :: rest =>
    if c = 'e' ∨ c = 'E' then
      let (down, rest) := match rest with
        | '+' :: rest => (false, rest)
        | '-' :: rest => (true, rest)
        | _ => (false, rest)
      (digits1 rest).map fun (found, rest) => (some (down, found), rest)
    else some (none, text)
  | [] => some (none, [])

/-- A number literal. -/
def literal (text : List Char) : Option (Literal × List Char) := do
  let (negative, text) := match text with
    | '-' :: rest => (true, rest)
    | _ => (false, text)
  let (whole, text) ← whole text
  let (fraction, text) ← fraction text
  let (exponent, text) ← exponent text
  return (⟨negative, whole, fraction, exponent⟩, text)

mutual
/-- One value at the start of a text, after blanks. Each nested value uses up one unit of `fuel`. -/
def value : Nat → List Char → Option (Json × List Char)
  | 0, _ => none
  | fuel + 1, text =>
    match skipBlanks text with
    | 'n' :: 'u' :: 'l' :: 'l' :: rest => some (.null, rest)
    | 't' :: 'r' :: 'u' :: 'e' :: rest => some (.bool true, rest)
    | 'f' :: 'a' :: 'l' :: 's' :: 'e' :: rest => some (.bool false, rest)
    | '"' :: rest => (string rest).map fun
      | (some found, rest) => (.string found, rest)
      | (none, rest) => (.unreadable, rest)
    | '[' :: rest =>
      match skipBlanks rest with
      | ']' :: rest => some (.array [], rest)
      | rest => (items fuel rest).map fun (found, rest) => (.array found, rest)
    | '{' :: rest =>
      match skipBlanks rest with
      | '}' :: rest => some (.object [], rest)
      | rest => (members fuel rest).map fun
        | (some found, rest) => (.object found, rest)
        | (none, rest) => (.unreadable, rest)
    | rest => (literal rest).map fun (found, rest) => (found.value, rest)
/-- The items of an array up to its closing bracket. -/
def items : Nat → List Char → Option (List Json × List Char)
  | 0, _ => none
  | fuel + 1, text => do
    let (item, rest) ← value fuel text
    match skipBlanks rest with
    | ',' :: rest =>
      let (more, rest) ← items fuel rest
      return (item :: more, rest)
    | ']' :: rest => return ([item], rest)
    | _ => none
/-- The members of an object up to its closing brace; none of them when a key has no text. -/
def members : Nat → List Char → Option (Option (List (String × Json)) × List Char)
  | 0, _ => none
  | fuel + 1, text =>
    match skipBlanks text with
    | '"' :: rest => do
      let (key, rest) ← string rest
      match skipBlanks rest with
      | ':' :: rest =>
        let (member, rest) ← value fuel rest
        match skipBlanks rest with
        | ',' :: rest =>
          let (more, rest) ← members fuel rest
          return (do return (← key, member) :: (← more), rest)
        | '}' :: rest => return (do return [(← key, member)], rest)
        | _ => none
      | _ => none
    | _ => none
end

end Parser

/-- The value of a JSON text; none when the text is not well formed. A text of `n` characters nests
fewer than `n` values and lists, so the fuel never runs out. -/
def parse? (text : String) : Option Json := do
  let characters := text.toList
  let (found, rest) ← Parser.value (2 * characters.length + 2) characters
  guard (Parser.skipBlanks rest).isEmpty
  return found

end LogCensus.Json
