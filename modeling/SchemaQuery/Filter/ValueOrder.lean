import SchemaQuery.Json.Value

/-!
# Comparing column values

Numbers compare by value, whether integer or float, and a boolean counts as 0 or 1. Strings compare by
code point. Null equals nothing, itself included.
-/

namespace SchemaQuery

namespace Json

/-- The value as a float: a boolean counts as 0 or 1. -/
def asNumber? : Json → Option Binary64
  | .int n => some (Binary64.ofInt n.val)
  | .float x => some x
  | .bool true => some (Binary64.ofInt 1)
  | .bool false => some (Binary64.ofInt 0)
  | _ => none

/-- Whether a column with the first value equals the second. -/
def equals (a b : Json) : Bool :=
  if a.isNull || b.isNull then false
  else
    match a.asNumber?, b.asNumber? with
    | some x, some y => x.sameValue y
    | _, _ => a.same b

/-- The order of two strings, or of two numbers. -/
def compareValues? : Json → Json → Option Ordering
  | .str a, .str b => some (compare a b)
  | a, b =>
    match a.asNumber?, b.asNumber? with
    | some x, some y => some (x.compareValue y)
    | _, _ => none

end Json

end SchemaQuery
