import SchemaQuery.Json.Decode

/-!
# Pages

A page is a range of rows of fixed length. Numbers stay within 64 bits: where a product or a sum would leave
them it is the greatest number.
-/

namespace SchemaQuery

/-- The page length when none is asked for. -/
def defaultPageLimit : Nat := 10

/-- The page that a user asks for. -/
structure Pagination where
  page : Option Int
  limit : Option Int
  deriving DecidableEq

/-- What is told about a page: its number, its length, and the count of all rows. -/
structure PageInfo where
  page : Nat
  limit : Nat
  count : Nat
  deriving DecidableEq

namespace Pagination

/-- A number that is asked for, if it is positive. -/
def positive? (n : Option Int) : Option Nat :=
  n.bind fun n => if 0 < n then some n.toNat else none

/-- The number and the length of the page, with defaults for what is missing or not positive. -/
def resolve (p : Pagination) (defaultLimit : Nat) : Nat × Nat :=
  let fallback := if defaultLimit = 0 then defaultPageLimit else defaultLimit
  ((positive? p.page).getD 1, (positive? p.limit).getD fallback)

/-- The places of the first and the last row of a page. -/
def range (page limit : Nat) : Nat × Nat :=
  let start := min ((page - 1) * limit) Whole.greatest
  (start, min (start + (limit - 1)) Whole.greatest)

/-- A number that may be missing, as JSON. -/
def optionToJson (n : Option Int) : Json :=
  match n with
  | none => .null
  | some n => .ofInt n

/-- A page request as JSON. -/
def toJson (p : Pagination) : Json :=
  .obj [("page", optionToJson p.page), ("limit", optionToJson p.limit)]

/-- Reads a page request. -/
def ofDocument? (d : Document) : Option Pagination := do
  match ← d.fields? [["page"], ["limit"]] with
  | [page, limit] =>
    let page ← Document.optional? Document.asInt? page
    let limit ← Document.optional? Document.asInt? limit
    return { page, limit }
  | _ => none

end Pagination

namespace PageInfo

/-- What is told about a page, as JSON. -/
def toJson (p : PageInfo) : Json :=
  .obj [("page", .ofNat p.page), ("limit", .ofNat p.limit), ("count", .ofNat p.count)]

/-- Reads what is told about a page. -/
def ofDocument? (d : Document) : Option PageInfo := do
  match ← d.fields? [["page"], ["limit"], ["count"]] with
  | [page, limit, count] =>
    let page ← Document.required? Document.asNat? page
    let limit ← Document.required? Document.asNat? limit
    let count ← Document.required? Document.asNat? count
    return { page, limit, count }
  | _ => none

end PageInfo

end SchemaQuery
