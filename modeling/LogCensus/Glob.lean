/-!
# Glob patterns

Patterns over texts with `?` for any character, `*` for any sequence, `**` for any number of whole
path components, and bracketed classes of characters. A `/` is an ordinary character except next to
`**`, which has to be a component of its own; the separator after it belongs to it.

* `Glob.parse`: reads a pattern, or says where it is malformed.
* `Glob.literal?`, `Glob.isRecursive`, `Glob.hasWildcard`: kinds of patterns.
-/

namespace LogCensus

/-- Part of a class of characters. -/
inductive CharRange where
  | single (c : Char)
  /-- All characters between two, ends included; none when the first is the larger one. -/
  | between (low high : Char)
deriving DecidableEq

/-- Whether a character lies in a range. -/
def CharRange.contains : CharRange → Char → Bool
  | .single expected, c => c == expected
  | .between low high, c => decide (low ≤ c) && decide (c ≤ high)

/-- A piece of a pattern. -/
inductive GlobToken where
  | char (c : Char)
  | anyChar
  | anySequence
  /-- Any number of whole path components. -/
  | anyComponents
  | within (ranges : List CharRange)
  | except (ranges : List CharRange)
deriving DecidableEq

namespace GlobToken

/-- Whether a token for a single character accepts a character. -/
def accepts : GlobToken → Char → Bool
  | .char expected, c => c == expected
  | .anyChar, _ => true
  | .within ranges, c => ranges.any fun range => range.contains c
  | .except ranges, c => !ranges.any fun range => range.contains c
  | .anySequence, _ => false
  | .anyComponents, _ => false

end GlobToken

/-- A pattern. -/
structure Glob where
  tokens : List GlobToken
deriving DecidableEq

/-- What is wrong with a pattern. -/
inductive GlobFault where
  /-- Three or more stars in a row. -/
  | tooManyStars
  /-- A double star that is not a component of its own. -/
  | partialComponent
  /-- A class that is not closed. -/
  | openClass
deriving DecidableEq

/-- Where a pattern is malformed, counted in characters, and why. -/
structure GlobError where
  position : Nat
  fault : GlobFault
deriving DecidableEq

namespace GlobError

/-- The wording of a fault. -/
def faultText : GlobFault → String
  | .tooManyStars => "wildcards are either regular `*` or recursive `**`"
  | .partialComponent => "recursive wildcards must form a single path component"
  | .openClass => "invalid range pattern"

/-- The wording of an error. -/
def message (error : GlobError) : String :=
  "Pattern syntax error near position " ++ toString error.position ++ ": " ++ faultText error.fault

end GlobError

namespace Glob

/-! ## Reading patterns -/

/-- The ranges that the characters of a class stand for; a dash between two characters makes a
range. -/
def ranges : List Char → List CharRange
  | low :: '-' :: high :: rest => .between low high :: ranges rest
  | c :: rest => .single c :: ranges rest
  | [] => []

/-- Where the reader of a pattern stands. -/
inductive Mode where
  /-- Outside of any class. -/
  | outside
  /-- Right after the bracket at a position. -/
  | opened (start : Nat)
  /-- Right after the bracket and the mark of negation. -/
  | negated (start : Nat)
  /-- Inside a class, with its characters so far, the last one first. -/
  | inside (start : Nat) (negated : Bool) (members : List Char)

/-- The token of a class. -/
def classToken (negated : Bool) (members : List Char) : GlobToken :=
  let ranges := ranges members.reverse
  if negated then .except ranges else .within ranges

/-- Adds a double star to the tokens so far, the last one first. It is not repeated, except that a
pattern may start with two. -/
def pushComponents : List GlobToken → List GlobToken
  | .anyComponents :: token :: rest => .anyComponents :: token :: rest
  | tokens => .anyComponents :: tokens

/-- Whether a path component may start after a character or at the start of the pattern. -/
def startsComponent : Option Char → Bool
  | none => true
  | some c => c == '/'

/-- Reads the rest of a pattern from a position, after the character before it, with the tokens so
far, the last one first. -/
def read (mode : Mode) (position : Nat) (previous : Option Char) (tokens : List GlobToken) :
    List Char → Except GlobError (List GlobToken)
  | [] =>
    match mode with
    | .outside => .ok tokens.reverse
    | .opened start => .error ⟨start, .openClass⟩
    | .negated start => .error ⟨start, .openClass⟩
    | .inside start _ _ => .error ⟨start, .openClass⟩
  | c :: rest =>
    match mode with
    | .opened start =>
      if c = '!' then read (.negated start) (position + 1) (some c) tokens rest
      else
        -- whatever follows the bracket is a member, a closing bracket too
        read (.inside start false [c]) (position + 1) (some c) tokens rest
    | .negated start => read (.inside start true [c]) (position + 1) (some c) tokens rest
    | .inside start negated members =>
      if c = ']' then
        read .outside (position + 1) (some c) (classToken negated members :: tokens) rest
      else read (.inside start negated (c :: members)) (position + 1) (some c) tokens rest
    | .outside =>
      match c, rest with
      | '?', rest => read .outside (position + 1) (some '?') (.anyChar :: tokens) rest
      | '[', rest => read (.opened position) (position + 1) (some '[') tokens rest
      | '*', '*' :: '*' :: _ => .error ⟨position + 2, .tooManyStars⟩
      | '*', '*' :: after =>
        if startsComponent previous then
          match after with
          | [] => .ok (pushComponents tokens).reverse
          | '/' :: after => read .outside (position + 3) (some '/') (pushComponents tokens) after
          | _ => .error ⟨position + 2, .partialComponent⟩
        else
          -- the fault is the character in front of the stars
          .error ⟨position - 1, .partialComponent⟩
      | '*', rest => read .outside (position + 1) (some '*') (.anySequence :: tokens) rest
      | c, rest => read .outside (position + 1) (some c) (.char c :: tokens) rest

/-- Reads a pattern. -/
def parse (pattern : String) : Except GlobError Glob :=
  (read .outside 0 none [] pattern.toList).map Glob.mk

/-! ## Kinds of patterns -/

/-- The text of a pattern without wildcards and classes. -/
def literal? (glob : Glob) : Option String :=
  let char? : GlobToken → Option Char := fun token =>
    match token with
    | .char c => some c
    | _ => none
  (glob.tokens.mapM char?).map String.ofList

/-- Whether a pattern has a double star. -/
def isRecursive (glob : Glob) : Bool :=
  glob.tokens.contains .anyComponents

/-- Whether a text has a wildcard; a text without one is taken literally. -/
def hasWildcard (pattern : String) : Bool :=
  pattern.toList.any fun c => c == '*' || c == '?'

end Glob

end LogCensus
