import RecordQuery.Predicate.Basic
import RecordQuery.Schema.Resolve

/-!
# Translating expressions

An expression becomes a predicate when every name resolves and every comparison is one that the
type of its field allows; otherwise the first error from the left is reported. A comparison is
checked in this order: its field, null, the operator, and then the operand.

**Null is apart from the types**: every field may be tested for it with `=` and `!=`, and with no
other operator. A list needs an operator that takes one; an empty list matches nothing, or
everything when negated. A literal is brought to the type of the field by `coerce`: numbers, dates
and datetimes may be given as texts, and a value of a choice by its label or, when it is written
in digits, as an integer.
-/

namespace RecordQuery

/-! ## Errors -/

/-- Why a comparison does not fit its field. -/
inductive TranslationError.Cause where
  /-- Null with an operator other than `=` and `!=`. -/
  | nullOperator (op : Operator)
  /-- An operator that the type does not have. -/
  | unsupported (op : Operator) (type : FieldType) (field : String)
  /-- A list with an operator that takes none. -/
  | listRefused (op : Operator)
  /-- Null in a list. -/
  | nullInList
  /-- A literal with an operator that takes a list. -/
  | listRequired (op : Operator)
  /-- A name with an operator that takes a list. -/
  | listRequiredNotField (op : Operator) (other : String)
  /-- Two fields whose types differ. -/
  | incomparable (type : FieldType) (field : String) (otherType : FieldType) (other : String)
  /-- A literal that is not of the type. -/
  | mismatch (type : FieldType) (field : String) (literal : LiteralValue)
  /-- A text that is no value of a choice. -/
  | notAChoice (input field : String) (allowed : List String)
  /-- A relation compared with a literal. -/
  | relation (field : String)
  deriving DecidableEq

/-- **An error in a comparison.** -/
structure TranslationError where
  /-- What is wrong. -/
  cause : TranslationError.Cause
  /-- The path of the field. -/
  path : String
  /-- The offset of the part that does not fit. -/
  offset : Nat
  deriving DecidableEq

/-- What a literal must be to have a type. -/
def FieldType.expectation : FieldType → String
  | .text => "a quoted string"
  | .number => "a number"
  | .boolean => "true or false"
  | .date => "a date like \"2024-01-31\""
  | .datetime => "a datetime like \"2024-01-31 13:45:00\""
  | .choice => "one of its declared values"
  | .relation => ""

/-- What is wrong, in words. -/
def TranslationError.Cause.describe : TranslationError.Cause → String
  | .nullOperator op => "null can only be compared with '=' or '!=', not '" ++ op.symbol ++ "'"
  | .unsupported op type field =>
    "operator '" ++ op.symbol ++ "' not supported for " ++ type.name ++ " field '" ++ field ++ "'"
  | .listRefused op => "operator '" ++ op.symbol ++ "' does not accept a list"
  | .nullInList => "null is not allowed in a list; use '= null' instead"
  | .listRequired op => "operator '" ++ op.symbol ++ "' requires a list such as [1, 2]"
  | .listRequiredNotField op other =>
    "operator '" ++ op.symbol ++ "' requires a list, not the field '" ++ other ++ "'"
  | .incomparable type field otherType other =>
    "cannot compare " ++ type.name ++ " field '" ++ field ++ "' with " ++ otherType.name
      ++ " field '" ++ other ++ "'"
  | .mismatch type field literal =>
    type.name ++ " field '" ++ field ++ "' expects " ++ type.expectation ++ ", got "
      ++ literal.render
  | .notAChoice input field allowed =>
    "'" ++ input ++ "' is not a valid value for '" ++ field ++ "'; expected one of: "
      ++ String.intercalate ", " allowed
  | .relation field => "relation '" ++ field ++ "' cannot be compared directly"

/-- The message. -/
def TranslationError.message (e : TranslationError) : String := e.cause.describe

/-- **Why an expression has no predicate**: a path does not resolve, or a comparison does not
fit. -/
inductive MeaningError where
  /-- A path that does not resolve. -/
  | schema (e : SchemaError)
  /-- A comparison that does not fit. -/
  | translation (e : TranslationError)
  deriving DecidableEq

/-! ## Literals -/

/-- **Reads a number from a text**: an integer of 64 bits, or else a finite decimal. -/
def typedNumber? (s : String) : Option Scalar :=
  let cs := Text.trim s.toList
  match readInt64? cs with
  | some n => some (.int n)
  | none => (readBinary64? cs).map .float

/-- The value of a choice for what was typed. -/
def coerceChoice (f : Field) (input : String) : Except TranslationError.Cause Scalar :=
  match f.choiceValue? input with
  | some v => .ok (.text v)
  | none => .error (.notAChoice input f.dotted (f.definition.suggestions.map (·.value)))

/-- **A literal as a value of a field's type.** -/
def coerce (f : Field) (l : LiteralValue) : Except TranslationError.Cause Scalar :=
  let read (v : Option Scalar) : Except TranslationError.Cause Scalar :=
    match v with
    | some v => .ok v
    | none => .error (.mismatch f.type f.dotted l)
  match f.type, l with
  | .number, .int n => .ok (.int n)
  | .number, .float x => .ok (.float x)
  | .number, .string s => read (typedNumber? s)
  | .boolean, .bool b => .ok (.bool b)
  | .text, .string s => .ok (.text s)
  | .choice, .string s => coerceChoice f s
  | .choice, .int n => coerceChoice f (String.ofList (intText n))
  | .date, .string s => read ((readDate? s.toList).map .date)
  | .datetime, .string s => read ((readDateTime? s.toList).map .datetime)
  | .relation, _ => .error (.relation f.dotted)
  | _, _ => .error (.mismatch f.type f.dotted l)

/-! ## Comparisons -/

/-- The field as predicates name it. -/
def Field.ref (f : Field) : FieldRef := ⟨f.path, f.type⟩

/-- An error about a field. -/
def translationError {α : Type} (f : Field) (offset : Nat) (cause : TranslationError.Cause) :
    Except MeaningError α :=
  .error (.translation ⟨cause, f.dotted, offset⟩)

/-- The value of a literal for a field. -/
def coerceAt (f : Field) (l : Literal) : Except MeaningError Scalar :=
  match coerce f l.value with
  | .ok v => .ok v
  | .error cause => translationError f l.offset cause

/-- The value of an item of a list for a field. -/
def coerceItem (f : Field) (l : Literal) : Except MeaningError Scalar :=
  if l.value = .null then translationError f l.offset .nullInList else coerceAt f l

/-- A comparison with a list. -/
def translateList (f : Field) (op : Operator) (items : List Literal) (offset : Nat) :
    Except MeaningError Predicate :=
  if !op.takesList then translationError f offset (.listRefused op)
  else if items = [] then .ok (if op = .notIn then .not .nothing else .nothing)
  else
    match items.mapM (coerceItem f) with
    | .ok vs => .ok (.compare f.ref op (.list vs))
    | .error e => .error e

/-- A comparison with a literal that is not null. -/
def translateLiteral (f : Field) (op : Operator) (l : Literal) : Except MeaningError Predicate :=
  if op.takesList then translationError f l.offset (.listRequired op)
  else
    match coerceAt f l with
    | .ok v => .ok (.compare f.ref op (.scalar v))
    | .error e => .error e

/-- A comparison with null. -/
def translateNull (f : Field) (op : Operator) (offset : Nat) : Except MeaningError Predicate :=
  if op = .equal then .ok (.isNull f.ref false)
  else if op = .notEqual then .ok (.isNull f.ref true)
  else translationError f offset (.nullOperator op)

/-- The field of a path, with the path's offset in an error. -/
def Schema.resolveAt (s : Schema) (p : NamePath) : Except MeaningError Field :=
  match s.resolve p.segments with
  | .ok f => .ok f
  | .error e => .error (.schema (e.atOffset p.offset))

/-- A comparison with another field. -/
def translateName (s : Schema) (f : Field) (op : Operator) (p : NamePath) :
    Except MeaningError Predicate :=
  if op.takesList then translationError f p.offset (.listRequiredNotField op (dotted p.segments))
  else
    match s.resolveAt p with
    | .error e => .error e
    | .ok other =>
      if f.type.comparableWith other.type then .ok (.compare f.ref op (.field other.ref))
      else translationError f p.offset (.incomparable f.type f.dotted other.type other.dotted)

/-- A comparison of a field that has been resolved. -/
def translateOperand (s : Schema) (f : Field) (c : Comparison) : Except MeaningError Predicate :=
  match c.value with
  | .literal ⟨.null, offset⟩ => translateNull f c.op offset
  | operand =>
    if c.op ∉ f.type.operators then
      translationError f c.offset (.unsupported c.op f.type f.dotted)
    else
      match operand with
      | .list items offset => translateList f c.op items offset
      | .literal l => translateLiteral f c.op l
      | .name p => translateName s f c.op p

/-- **The predicate of a comparison.** -/
def translateComparison (s : Schema) (c : Comparison) : Except MeaningError Predicate :=
  match s.resolveAt c.field with
  | .error e => .error e
  | .ok f => translateOperand s f c

/-- The predicate of two joined expressions. -/
def Connective.join : Connective → Predicate → Predicate → Predicate
  | .and => .and
  | .or => .or

/-- **The predicate of an expression.** -/
def translate (s : Schema) : Expr → Except MeaningError Predicate
  | .logical op left right =>
    match translate s left with
    | .error e => .error e
    | .ok l =>
      match translate s right with
      | .error e => .error e
      | .ok r => .ok (op.join l r)
  | .not operand _ =>
    match translate s operand with
    | .error e => .error e
    | .ok p => .ok (.not p)
  | .comparison c => translateComparison s c

end RecordQuery
