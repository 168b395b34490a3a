import LogCensus.Constant
import LogCensus.Text.Caseless

/-!
# Severities

The severity of a logging call. Constants of the framework's enumeration arrive as integers or as
names; a method such as `LogWarning` implies its severity.
-/

namespace LogCensus

/-- The severity of a logging call, in ascending order. -/
inductive Severity where
  | trace
  | debug
  | information
  | warning
  | error
  | critical
  | none
deriving DecidableEq

namespace Severity

/-- All severities, in ascending order. -/
def all : List Severity :=
  [.trace, .debug, .information, .warning, .error, .critical, .none]

/-- The value of a severity in the framework's enumeration. -/
def value : Severity → Nat
  | .trace => 0
  | .debug => 1
  | .information => 2
  | .warning => 3
  | .error => 4
  | .critical => 5
  | .none => 6

/-- The name of a severity. -/
def name : Severity → String
  | .trace => "Trace"
  | .debug => "Debug"
  | .information => "Information"
  | .warning => "Warning"
  | .error => "Error"
  | .critical => "Critical"
  | .none => "None"

/-- The severity with an enumeration value. -/
def ofValue? (value : Int64) : Option Severity :=
  all.find? fun severity => (severity.value : Int) == value.toInt

/-- The severity with a name, in any case of ASCII letters. -/
def ofName? (name : String) : Option Severity :=
  all.find? fun severity => Text.eqIgnoringCase severity.name name

/-- The severity that a constant stands for. -/
def ofConstant? : Constant → Option Severity
  | .int value => ofValue? value
  | .string name => ofName? name
  | _ => Option.none

/-- The severity implied by the name of an extension method. -/
def ofMethod? (method : String) : Option Severity :=
  [trace, debug, information, warning, error, critical].find? fun severity =>
    "Log" ++ severity.name == method

/-- The JSON form. -/
def toJson (severity : Severity) : Json :=
  .string severity.name

/-- Reads a severity by its exact name. -/
def ofJson? : Json → Option Severity :=
  Json.choice? name all

end Severity

end LogCensus
