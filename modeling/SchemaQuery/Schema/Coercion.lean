import SchemaQuery.Calendar.Instant
import SchemaQuery.Filter.ValueOrder
import SchemaQuery.Json.Number
import SchemaQuery.Json.Printer
import SchemaQuery.Schema.Model
import SchemaQuery.Diagnostics.Signal

/-!
# Coercion

A document is cut down to the declared properties, and each value is brought to the type of its property.
Null is kept unless the property is required; a value that has no form in the type is dropped.
-/

namespace SchemaQuery

namespace Json

/-- Whether a value counts as true: all but null, `false`, zero and the empty string. -/
def isTruthy : Json → Bool
  | .null => false
  | .bool b => b
  | .int n => n.val ≠ 0
  | .float x => !x.isZero
  | .str s => s ≠ ""
  | .arr _ | .obj _ => true

/-- A value as text: a string as it is, anything else as JSON. -/
def asText : Json → String
  | .str s => s
  | value => value.compact

end Json

namespace Decimal

/-- Splits a sign off. -/
def splitSign : List Char → Bool × List Char
  | '-' :: rest => (true, rest)
  | '+' :: rest => (false, rest)
  | cs => (false, cs)

/-- Reads a number in decimal notation, sign first: digits with at most one point, at least one digit,
and perhaps an exponent. -/
def read? (cs : List Char) : Option (Bool × Decimal) :=
  let (negative, cs) := splitSign cs
  let (whole, cs) := NumberLiteral.spanDigits cs
  let (fraction, cs) := match cs with
    | '.' :: rest => NumberLiteral.spanDigits rest
    | _ => ([], cs)
  if whole = [] ∧ fraction = [] then none
  else
    (NumberLiteral.readExponent? cs).map fun exponent =>
      (negative, ⟨NumberLiteral.natOfDigits (whole ++ fraction), exponent.getD 0 - fraction.length⟩)

/-- The beginnings of a text, the longest first. -/
def beginnings (cs : List Char) : List (List Char) :=
  (List.range (cs.length + 1)).reverse.map cs.take

/-- The longest number at the start of a text, of the characters that numbers are made of. -/
def leading? (cs : List Char) : Option (Bool × Decimal) :=
  let run := cs.takeWhile fun c => c.isDigit || c = '+' || c = '-' || c = '.' || c = 'e' || c = 'E'
  (beginnings run).findSome? read?

end Decimal

/-- A number as a value: whole numbers below 2⁶³ are integers. -/
def Binary64.toJson (x : Binary64) : Json :=
  if x.isWhole ∧ (x.truncate.natAbs : Int) < Whole.signedLimit then .ofInt x.truncate else .float x

/-- The number at the start of a text, behind blanks; zero if there is none or it has no finite value. -/
def numberOfText (text : String) : Json :=
  match Decimal.leading? (Text.trimLeft text.toList) with
  | none => .ofInt 0
  | some (negative, d) =>
    match d.nearest? negative with
    | none => .ofInt 0
    | some x => x.toJson

/-- The whole number of milliseconds that a number means; a float is cut, and held within 64 bits. -/
def millisOf? : Json → Option Int
  | .int n => some (min n.val (Whole.signedLimit - 1))
  | .float x => some (max Whole.least (min x.truncate (Whole.signedLimit - 1)))
  | _ => none

/-- The instant that a value means: a text, or milliseconds since 1970. -/
def instantOf? : Json → Option Calendar.Instant
  | .str text => Calendar.Instant.ofText? text
  | value => (millisOf? value).bind Calendar.Instant.ofMillis?

namespace PropertyType

/-- The form of a value in a type. A text that is no number gives zero; other values that are no number or
no date have no form. -/
def coerce? : PropertyType → Json → Option Json
  | .string, value => some (.str value.asText)
  | .number, .int n => some (.int n)
  | .number, .float x => some (.float x)
  | .number, .str text => some (numberOfText text)
  | .number, _ => none
  | .boolean, value => some (.bool value.isTruthy)
  | .date, value => (instantOf? value).map fun t => .str t.toText
  | .unknown, value => some value

end PropertyType

namespace DefaultValue

/-- The value of a default at a time. -/
def resolve (now : Calendar.Instant) : DefaultValue → Json
  | .literal value => value
  | .now => .str now.toText

end DefaultValue

/-- What becomes of a property of a document. -/
inductive Coerced where
  /-- The document says nothing of it. -/
  | absent
  | kept (value : Json)
  | dropped (reason : String)

/-- What becomes of one property of a document. -/
def Property.coerce (p : Property) : Option Json → Coerced
  | none => .absent
  | some .null => if p.required then .dropped "required property is null" else .kept .null
  | some value =>
    match p.kind.coerce? value with
    | some coerced => .kept coerced
    | none => .dropped ("cannot convert " ++ value.compact ++ " to " ++ p.kind.name)

namespace Model

/-- What becomes of each declared property of a document. -/
def coercions (m : Model) (doc : Members) : List (String × Coerced) :=
  m.properties.entries.map fun entry => (entry.1, entry.2.coerce (doc.get? entry.1))

/-- The declared properties of a document, each in its type. -/
def coerce (m : Model) (doc : Members) : Reported Members :=
  let results := m.coercions doc
  { value := results.filterMap fun (name, result) =>
      match result with
      | .kept value => some (name, value)
      | _ => none
    signals := results.filterMap fun (name, result) =>
      match result with
      | .dropped reason =>
        some (.event .propertyCoercion
          [("model", m.name), ("property", name), ("reason", reason)])
      | _ => none }

/-- Gives the declared properties that a row lacks their defaults. -/
def fillDefaults (m : Model) (now : Calendar.Instant) (row : Members) : Members :=
  m.properties.entries.foldl
    (fun row entry =>
      match entry.2.fallback with
      | some fallback =>
        if row.contains entry.1 then row else row.insert entry.1 (fallback.resolve now)
      | none => row)
    row

end Model

end SchemaQuery
