import LogCensus.Extraction.AnonymousObject
import LogCensus.Extraction.KeyValue

/-!
# State objects

A single object that carries the values of a scope or of a log call. A collection of pairs is tried
first, then an anonymous object; a constant text is a template without values.
-/

namespace LogCensus

/-- The parameters of a state object; none when its shape is not known. -/
def Outcome.ofState? (table : WellKnown) (state : Operation) : Option Outcome :=
  let pairs := KeyValue.extract table state
  if pairs.recognized then some pairs
  else
    let members := AnonymousObject.extract state
    if members.recognized then some members else none

end LogCensus
