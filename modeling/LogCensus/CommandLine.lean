import LogCensus.Path

/-!
# The command line

What a command line asks for. Tokens are read from left to right and the first one that cannot be
accepted decides; a request for help or for the version counts like a fault at its place, so what
stands after it does not matter. A token that starts with a dash is never the value of the option
before it, unless it is a single dash. After `--` every token is a path.

* `CommandLine.parse`: the request of a command line.
-/

namespace LogCensus

/-- The form of a report. -/
inductive OutputFormat where
  | text
  | json
deriving DecidableEq

/-- What an extraction is asked to do. -/
structure ExtractArguments where
  /-- A directory to search for snapshots, or one snapshot file. -/
  path : Path := ⟨"."⟩
  format : OutputFormat := .text
  /-- A file to write the report to. -/
  output : Option Path := none
  /-- The length of the ranking of names. -/
  top : Option Nat := none
  /-- The number of workers. -/
  threads : Option Nat := none
  failOnInconsistency : Bool := false
  verbose : Bool := false
deriving DecidableEq

/-- What a command line asks for. -/
inductive Request where
  /-- No command is given. -/
  | overview
  | extract (arguments : ExtractArguments)
  | init
deriving DecidableEq

/-- Whether diagnostics of all levels are wanted. -/
def Request.verbose : Request → Bool
  | .extract arguments => arguments.verbose
  | _ => false

/-- Why a command line leads to no request. -/
inductive Refusal where
  | help
  | version
  /-- A token cannot be accepted. -/
  | usage
deriving DecidableEq

namespace CommandLine

/-- The name of the program. -/
def programName : String := "logscan"

/-- The name of the variable that gives the number of workers. -/
def threadsVariable : String := "LOGSCAN_THREADS"

/-! ## Tokens -/

/-- What a token looks like. -/
inductive Token where
  /-- Two dashes alone. -/
  | escape
  /-- Two dashes, a name, and a value after an equals sign, if there is one. -/
  | long (name : String) (value : Option String)
  /-- A dash and at least one character. -/
  | short (flags : List Char)
  /-- Anything else, a single dash and the empty text included. -/
  | plain (text : String)
deriving DecidableEq

/-- The name and the value of a long option. -/
def splitLong (text : List Char) : Token :=
  let name := text.takeWhile (· != '=')
  match text.dropWhile (· != '=') with
  | [] => .long (String.ofList name) none
  | _ :: value => .long (String.ofList name) (some (String.ofList value))

/-- What a token looks like. -/
def Token.ofText (text : String) : Token :=
  match text.toList with
  | ['-', '-'] => .escape
  | '-' :: '-' :: rest => splitLong rest
  | '-' :: c :: rest => .short (c :: rest)
  | _ => .plain text

/-- Whether a token cannot be the value of the option before it. -/
def Token.isFlag : Token → Bool
  | .plain _ => false
  | _ => true

/-! ## Values -/

/-- The value of a digit. -/
def digit? (c : Char) : Option Nat :=
  if c.isDigit then some (c.toNat - '0'.toNat) else none

/-- A number below 2^64 in decimal digits, which a plus may precede. -/
def word? (text : String) : Option Nat := do
  let digits ←
    match text.toList with
    | '+' :: rest => rest.mapM digit?
    | all => all.mapM digit?
  if digits.isEmpty then none
  else
    let value := digits.foldl (fun value digit => 10 * value + digit) 0
    if value < UInt64.size then some value else none

/-- The format with a name. -/
def format? : String → Option OutputFormat
  | "text" => some .text
  | "json" => some .json
  | _ => none

/-- A path, which must not be empty. -/
def path? (text : String) : Option Path :=
  if text.isEmpty then none else some ⟨text⟩

/-! ## Options of an extraction -/

/-- The options of an extraction that take a value. -/
inductive ValueOption where
  | format
  | output
  | top
  | threads
deriving DecidableEq

/-- The options of an extraction that take none. -/
inductive Switch where
  | failOnInconsistency
  | verbose
  | help
deriving DecidableEq

/-- The options given so far. -/
structure Draft where
  path : Option Path := none
  format : Option OutputFormat := none
  output : Option Path := none
  top : Option Nat := none
  threads : Option Nat := none
  failOnInconsistency : Bool := false
  verbose : Bool := false
deriving DecidableEq

/-- A value for an option that has none yet. -/
def fresh (current : Option α) (value : Option α) : Except Refusal (Option α) :=
  match current, value with
  | none, some value => .ok (some value)
  | _, _ => .error .usage

namespace Draft

/-- Sets an option to the value that a text stands for. -/
def setValue (draft : Draft) (option : ValueOption) (text : String) : Except Refusal Draft :=
  match option with
  | .format => (fresh draft.format (format? text)).map fun value => { draft with format := value }
  | .output => (fresh draft.output (path? text)).map fun value => { draft with output := value }
  | .top => (fresh draft.top (word? text)).map fun value => { draft with top := value }
  | .threads => (fresh draft.threads (word? text)).map fun value => { draft with threads := value }

/-- Sets the path. -/
def setPath (draft : Draft) (text : String) : Except Refusal Draft :=
  (fresh draft.path (path? text)).map fun value => { draft with path := value }

/-- Turns a switch on; none may be turned on twice. -/
def setSwitch (draft : Draft) : Switch → Except Refusal Draft
  | .help => .error .help
  | .failOnInconsistency =>
    if draft.failOnInconsistency then .error .usage
    else .ok { draft with failOnInconsistency := true }
  | .verbose => if draft.verbose then .error .usage else .ok { draft with verbose := true }

/-- The arguments of an extraction. The number of workers comes from the environment when no option
gives it. -/
def arguments (draft : Draft) (environment : Option String) : Except Refusal ExtractArguments := do
  let threads ←
    match draft.threads, environment with
    | some threads, _ => pure (some threads)
    | none, none => pure none
    | none, some text =>
      match word? text with
      | some threads => pure (some threads)
      | none => throw .usage
  return {
    path := draft.path.getD ⟨"."⟩
    format := draft.format.getD .text
    output := draft.output
    top := draft.top
    threads := threads
    failOnInconsistency := draft.failOnInconsistency
    verbose := draft.verbose }

end Draft

/-- The option with a long name. -/
def longOption? : String → Option (ValueOption ⊕ Switch)
  | "format" => some (.inl .format)
  | "output" => some (.inl .output)
  | "top" => some (.inl .top)
  | "threads" => some (.inl .threads)
  | "fail-on-inconsistency" => some (.inr .failOnInconsistency)
  | "verbose" => some (.inr .verbose)
  | "help" => some (.inr .help)
  | _ => none

/-- The option with a short name. -/
def shortOption? : Char → Option (ValueOption ⊕ Switch)
  | 'o' => some (.inl .output)
  | 'v' => some (.inr .verbose)
  | 'h' => some (.inr .help)
  | _ => none

/-- Reads a long option. Returns the option that waits for its value, if one does. -/
def readLong (draft : Draft) (name : String) (value : Option String) :
    Except Refusal (Draft × Option ValueOption) :=
  match longOption? name, value with
  | some (.inl option), some text => (draft.setValue option text).map fun draft => (draft, none)
  | some (.inl option), none => .ok (draft, some option)
  | some (.inr switch), none => (draft.setSwitch switch).map fun draft => (draft, none)
  | some (.inr _), some _ => .error .usage
  | none, _ => .error .usage

/-- Reads short options that stand together. An option with a value takes all that follows it,
without an equals sign. Returns the option that waits for its value, if one does. -/
def readShort (draft : Draft) : List Char → Except Refusal (Draft × Option ValueOption)
  | [] => .ok (draft, none)
  | flag :: rest =>
    match shortOption? flag with
    | none => .error .usage
    | some (.inr switch) =>
      match draft.setSwitch switch with
      | .ok draft => readShort draft rest
      | .error refusal => .error refusal
    | some (.inl option) =>
      match rest with
      | [] => .ok (draft, some option)
      | '=' :: value =>
        (draft.setValue option (String.ofList value)).map fun draft => (draft, none)
      | value => (draft.setValue option (String.ofList value)).map fun draft => (draft, none)

/-- Reads the tokens after `extract`, with an option that waits for its value, if one does. -/
def readOptions (draft : Draft) (waiting : Option ValueOption) :
    List String → Except Refusal Draft
  | [] => if waiting.isSome then .error .usage else .ok draft
  | text :: rest =>
    match waiting with
    | some option =>
      if (Token.ofText text).isFlag then .error .usage
      else
        match draft.setValue option text with
        | .ok draft => readOptions draft none rest
        | .error refusal => .error refusal
    | none =>
      match Token.ofText text with
      | .escape => rest.foldlM Draft.setPath draft
      | .plain text =>
        match draft.setPath text with
        | .ok draft => readOptions draft none rest
        | .error refusal => .error refusal
      | .long name value =>
        match readLong draft name value with
        | .ok (draft, waiting) => readOptions draft waiting rest
        | .error refusal => .error refusal
      | .short flags =>
        match readShort draft flags with
        | .ok (draft, waiting) => readOptions draft waiting rest
        | .error refusal => .error refusal

/-! ## Commands -/

/-- Reads the tokens after `init`, which takes no arguments. -/
def readInit : List String → Except Refusal Request
  | [] => .ok .init
  | text :: rest =>
    match Token.ofText text with
    | .escape => if rest.isEmpty then .ok .init else .error .usage
    | .long "help" none => .error .help
    | .short ('h' :: _) => .error .help
    | _ => .error .usage

/-- Reads the tokens after `help`, which names at most one command. -/
def readHelp : List String → Except Refusal Request
  | [] => .error .help
  | ["extract"] => .error .help
  | ["init"] => .error .help
  | ["help"] => .error .help
  | _ => .error .usage

/-- The request of a command line, given the tokens after the name of the program and the number of
workers from the environment. -/
def parse (environment : Option String) : List String → Except Refusal Request
  | [] => .ok .overview
  | "extract" :: rest => do
    let draft ← readOptions {} none rest
    return .extract (← draft.arguments environment)
  | "init" :: rest => readInit rest
  | "help" :: rest => readHelp rest
  | text :: rest =>
    match Token.ofText text with
    | .escape => if rest.isEmpty then .ok .overview else .error .usage
    | .long "help" none => .error .help
    | .long "version" none => .error .version
    | .short ('h' :: _) => .error .help
    | .short ('V' :: _) => .error .version
    | _ => .error .usage

end CommandLine

end LogCensus
