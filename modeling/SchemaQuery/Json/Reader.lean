import SchemaQuery.Json.Token

/-!
# Reading JSON text

The tokens of a text are put together by a machine with a stack of open containers. A container inside
127 others is well written, but unreadable.
-/

namespace SchemaQuery

namespace Document

/-- A container that has begun; what it holds so far comes last first. -/
inductive Open where
  | arr (items : List Document)
  /-- An object whose next value belongs to `name`. -/
  | obj (members : List (Option String × Document)) (name : Option String)

/-- What the machine waits for. The first container of a stack is the innermost. -/
inductive State where
  | value (stack : List Open)
  /-- The first item of an array, or its end. -/
  | firstItem (stack : List Open)
  /-- The first name of an object, or its end. -/
  | firstName (stack : List Open)
  | name (members : List (Option String × Document)) (stack : List Open)
  | colon (members : List (Option String × Document)) (name : Option String) (stack : List Open)
  /-- A value is complete. -/
  | after (value : Document) (stack : List Open)

/-- How many containers may be nested. -/
def depthLimit : Nat := 127

/-- A container that has ended inside those of a stack. -/
def finish (stack : List Open) (container : Document) : State :=
  .after (if stack.length < depthLimit then container else .unreadable) stack

/-- Takes a token where a value must come. -/
def beginValue (stack : List Open) : Token → Option State
  | .beginArray => some (.firstItem stack)
  | .beginObject => some (.firstName stack)
  | .text (some s) => some (.after (.str s) stack)
  | .text none => some (.after .unreadable stack)
  | .word value => some (.after value stack)
  | _ => none

/-- Takes one token. -/
def step : State → Token → Option State
  | .value stack, token => beginValue stack token
  | .firstItem stack, .endArray => some (finish stack (.arr []))
  | .firstItem stack, token => beginValue (.arr [] :: stack) token
  | .firstName stack, .endObject => some (finish stack (.obj []))
  | .firstName stack, .text name => some (.colon [] name stack)
  | .name members stack, .text name => some (.colon members name stack)
  | .colon members name stack, .colon => some (.value (.obj members name :: stack))
  | .after value (.arr items :: stack), .comma => some (.value (.arr (value :: items) :: stack))
  | .after value (.arr items :: stack), .endArray =>
    some (finish stack (.arr (value :: items).reverse))
  | .after value (.obj members name :: stack), .comma =>
    some (.name ((name, value) :: members) stack)
  | .after value (.obj members name :: stack), .endObject =>
    some (finish stack (.obj ((name, value) :: members).reverse))
  | _, _ => none

/-- Takes tokens in order. -/
def run : State → List Token → Option State
  | state, [] => some state
  | state, token :: rest =>
    match step state token with
    | some next => run next rest
    | none => none

/-- The document of a row of tokens. -/
def ofTokens? (tokens : List Token) : Option Document :=
  match run (.value []) tokens with
  | some (.after value []) => some value
  | _ => none

/-- The document of a text. -/
def ofText? (text : String) : Option Document :=
  (Token.scan text.toList).bind ofTokens?

end Document

/-- The value of a JSON text. -/
def Json.ofText? (text : String) : Option Json :=
  (Document.ofText? text).bind Document.toJson?

end SchemaQuery
