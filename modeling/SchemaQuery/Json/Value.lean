import SchemaQuery.Json.Binary64

/-!
# JSON values

Whole numbers of 64 bits, signed or not, are kept apart from floats: `1` and `1.0` are two values. The
members of an object keep the order in which their names first came.
-/

namespace SchemaQuery

/-- The greatest number of 64 bits: 2⁶⁴ - 1. -/
def Whole.greatest : Nat := 0xFFFFFFFFFFFFFFFF

/-- The least number that has no signed form of 64 bits: 2⁶³. -/
def Whole.signedLimit : Int := 0x8000000000000000

/-- The least number of 64 bits: -2⁶³. -/
def Whole.least : Int := -0x8000000000000000

/-- A whole number that fits 64 bits, signed or unsigned. -/
structure Whole where
  val : Int
  lower : Whole.least ≤ val
  upper : val ≤ Whole.greatest
  deriving DecidableEq

/-- A JSON value. -/
inductive Json where
  | null
  | bool (value : Bool)
  | int (value : Whole)
  | float (value : Binary64)
  | str (value : String)
  | arr (items : List Json)
  | obj (members : List (String × Json))

namespace Json

instance : Inhabited Json := ⟨.null⟩

/-- A whole number as a value: an integer in the 64-bit range, the nearest float beyond it. -/
def ofInt (n : Int) : Json :=
  if h : Whole.least ≤ n ∧ n ≤ Whole.greatest then .int ⟨n, h.1, h.2⟩ else .float (Binary64.ofInt n)

/-- A count as a value. -/
def ofNat (n : Nat) : Json :=
  ofInt n

/-- Whether the value is `null`. -/
def isNull : Json → Bool
  | .null => true
  | _ => false

/-- Whether the value is an array or an object. -/
def isContainer : Json → Bool
  | .arr _ | .obj _ => true
  | _ => false

/-- The characters of a string value. -/
def asString? : Json → Option String
  | .str s => some s
  | _ => none

/-- The items of an array value. -/
def asArray? : Json → Option (List Json)
  | .arr items => some items
  | _ => none

/-- The value of a whole number that is not negative. -/
def asNat? : Json → Option Nat
  | .int n => if 0 ≤ n.val then some n.val.toNat else none
  | _ => none

end Json

/-- Named values in order: the members of an object, the columns of a row. -/
abbrev Members := List (String × Json)

namespace Members

/-- The value of a name. -/
def get? : Members → String → Option Json
  | [], _ => none
  | (name, value) :: rest, wanted => if name = wanted then some value else get? rest wanted

/-- The value of a name, `null` when it is missing. -/
def getD (m : Members) (name : String) : Json :=
  (m.get? name).getD .null

/-- Whether the name has a value. -/
def contains (m : Members) (name : String) : Bool :=
  (m.get? name).isSome

/-- Gives a name a value. A name that is present keeps its place, a new one comes last. -/
def insert : Members → String → Json → Members
  | [], name, value => [(name, value)]
  | (other, old) :: rest, name, value =>
    if other = name then (other, value) :: rest else (other, old) :: insert rest name value

/-- The members without the first one of a name. -/
def erase : Members → String → Members
  | [], _ => []
  | (other, value) :: rest, name =>
    if other = name then rest else (other, value) :: erase rest name

/-- Inserts every member of `more`, in order. -/
def extend (m more : Members) : Members :=
  more.foldl (fun acc entry => acc.insert entry.1 entry.2) m

/-- The members inserted one by one: of a repeated name, the first place and the last value. -/
def ofEntries (entries : List (String × Json)) : Members :=
  extend [] entries

/-- The names in order. -/
def names (m : Members) : List String :=
  m.map Prod.fst

/-- The values in order. -/
def values (m : Members) : List Json :=
  m.map Prod.snd

end Members

mutual

/-- Equality of values. Integers and floats differ, and the order of an object's members is no part of it. -/
def Json.same : Json → Json → Bool
  | .null, .null => true
  | .bool a, .bool b => a == b
  | .int a, .int b => a.val == b.val
  | .float a, .float b => a.sameValue b
  | .str a, .str b => a == b
  | .arr a, .arr b => sameItems a b
  | .obj a, .obj b => sameMembers a b
  | _, _ => false

/-- Equality of arrays, item by item. -/
def sameItems : List Json → List Json → Bool
  | [], [] => true
  | a :: as, b :: bs => a.same b && sameItems as bs
  | _, _ => false

/-- Equality of objects: each member of the first takes one of the same name and an equal value out of
the second, and none is left. -/
def sameMembers : List (String × Json) → Members → Bool
  | [], other => other.isEmpty
  | (name, value) :: rest, other =>
    match other.get? name with
    | some found => value.same found && sameMembers rest (other.erase name)
    | none => false

end

end SchemaQuery
