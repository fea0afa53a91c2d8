import RecordQuery.Predicate.Evaluation
import RecordQuery.Predicate.PredicateJson
import RecordQuery.Query.Parser

/-!
# Searching

A search reads a query and translates it; a blank query asks for no filter. `search` reports the
first error, and `Outcome.ofQuery` is what a host does with a query that users type: no filter for
a blank query, and for a wrong one no records and a warning.
-/

namespace RecordQuery

/-- **Why a query has no predicate.** -/
inductive QueryError where
  /-- A malformed token. -/
  | lex (e : LexError)
  /-- A token out of place. -/
  | parse (e : ParseError)
  /-- A path that does not resolve. -/
  | schema (e : SchemaError)
  /-- A comparison that does not fit its field. -/
  | translation (e : TranslationError)
  deriving DecidableEq

namespace QueryError

/-- An error in the text of a query. -/
def ofSyntax : SyntaxError → QueryError
  | .lex e => .lex e
  | .parse e => .parse e

/-- An error in the meaning of a query. -/
def ofMeaning : MeaningError → QueryError
  | .schema e => .schema e
  | .translation e => .translation e

/-- The message. -/
def message : QueryError → String
  | .lex e => e.message
  | .parse e => e.message
  | .schema e => e.message
  | .translation e => e.message

/-- **Where in the query the error lies.** -/
def offset? : QueryError → Option Nat
  | .lex e => some e.offset
  | .parse e => some e.offset
  | .schema e => e.offset
  | .translation e => some e.offset

end QueryError

/-- Whether a query is blank. -/
def isBlankQuery (query : String) : Bool := query.toList.all Text.isBlank

/-- **The predicate of a query on a schema**; a blank query has none. -/
def search (s : Schema) (query : String) : Except QueryError (Option Predicate) :=
  if isBlankQuery query then .ok none
  else
    match parse query with
    | .error e => .error (.ofSyntax e)
    | .ok e =>
      match translate s e with
      | .error e => .error (.ofMeaning e)
      | .ok p => .ok (some p)

/-- **What a host does with a query.** -/
inductive Outcome where
  /-- Every record is shown. -/
  | all
  /-- The records that match are shown. -/
  | matching (p : Predicate)
  /-- No record is shown, and a warning is. -/
  | noResults (e : QueryError)
  deriving DecidableEq

namespace Outcome

/-- What follows from a search. -/
def ofSearch : Except QueryError (Option Predicate) → Outcome
  | .ok none => .all
  | .ok (some p) => .matching p
  | .error e => .noResults e

/-- **What a host does with a query on a schema.** -/
def ofQuery (s : Schema) (query : String) : Outcome := ofSearch (search s query)

/-- The warning that is shown. -/
def warning? : Outcome → Option String
  | .noResults e => some e.message
  | _ => none

/-- The filter that is applied. -/
def predicate? : Outcome → Option Predicate
  | .matching p => some p
  | _ => none

/-- Whether a record is shown. -/
def shows (record : Json) : Outcome → Bool
  | .all => true
  | .matching p => p.holds record
  | .noResults _ => false

/-- **The records that are shown**, in order. -/
def filter (o : Outcome) (records : List Json) : List Json := records.filter (shows · o)

/-- The positions of the records that are shown, in order. -/
def positions (o : Outcome) (records : List Json) : List Nat :=
  (records.zipIdx.filter fun x => shows x.1 o).map Prod.snd

/-- The JSON form. -/
def toJson : Outcome → Json
  | .all => .object [("outcome", .string "all")]
  | .matching p => .object [("outcome", .string "matching"), ("predicate", p.toJson)]
  | .noResults e => .object [("outcome", .string "no_results"), ("warning", .string e.message)]

end Outcome
end RecordQuery
