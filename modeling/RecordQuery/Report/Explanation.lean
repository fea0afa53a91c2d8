import RecordQuery.Predicate.Basic

/-!
# Explaining a predicate

The answer to the check of a query is its predicate as a text. On request the lookups of the
fields that stand on the left of its comparisons are listed too, each once, in the order of their
first use. A field that stands on the right of a comparison alone is not listed.
-/

namespace RecordQuery

/-- The fields on the left of comparisons and in null checks, from left to right. -/
def Predicate.subjects : Predicate → List FieldRef
  | .compare field _ _ => [field]
  | .isNull field _ => [field]
  | .nothing => []
  | .and left right | .or left right => left.subjects ++ right.subjects
  | .not operand => operand.subjects

/-- **The lookups that are listed with a predicate.** -/
def Predicate.listedLookups (p : Predicate) : List String :=
  (p.subjects.map FieldRef.lookup).eraseDups

/-- **The answer to the check of a query.** -/
def explain (verbose : Bool) : Option Predicate → String
  | none => "(no filter: every record matches)"
  | some p =>
    if verbose then p.render ++ "\n\nlookups: " ++ String.intercalate ", " p.listedLookups
    else p.render

end RecordQuery
