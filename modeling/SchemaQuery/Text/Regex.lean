import SchemaQuery.Text.Folding

/-!
# Regular expressions

The expressions that are bound to both ends of a text and made of characters, dots and starred dots. They are
matched without case, and a dot stands for any character, the end of a line too. An expression has a greatest size,
which tens of thousands of characters reach; one beyond it is not built.
-/

namespace SchemaQuery.Regex

/-- A part of an expression. -/
inductive Piece where
  | anyText
  | anyChar
  | char (c : Char)
  deriving DecidableEq

/-- Whether a character has a sense of its own in an expression, so that a backslash before it takes that away. -/
def isMeta (c : Char) : Bool :=
  match c with
  | '\\' | '.' | '+' | '*' | '?' | '(' | ')' | '|' | '[' | ']' | '{' | '}' | '^' | '$' | '#' | '&' | '-' | '~' => true
  | _ => false

/-- The expression that stands for a character. -/
def escape (c : Char) : List Char :=
  if isMeta c then ['\\', c] else [c]

/-- The parts of an expression, behind the mark for the beginning of a text and up to that for its end. -/
def readParts : List Char → Option (List Piece)
  | ['$'] => some []
  | '.' :: '*' :: rest => (.anyText :: ·) <$> readParts rest
  | '.' :: rest => (.anyChar :: ·) <$> readParts rest
  | '\\' :: c :: rest => if isMeta c then (.char c :: ·) <$> readParts rest else none
  | c :: rest => if isMeta c then none else (.char c :: ·) <$> readParts rest
  | [] => none

/-- The parts of an expression. -/
def read : List Char → Option (List Piece)
  | '^' :: rest => readParts rest
  | _ => none

/-- What a piece adds to the size of an expression: a dot stands for every form that a character has in
bytes, a letter for both its cases, another character for its own bytes. -/
def Piece.size : Piece → Nat
  | .anyText => 1004
  | .anyChar => 964
  | .char c => if c.isAlpha then 80 else 32 * c.utf8Size

/-- The size of an expression; its two ends count too. -/
def size (pieces : List Piece) : Nat :=
  pieces.foldr (fun piece rest => piece.size + rest) 128

/-- The greatest size of an expression that is built. -/
def sizeLimit : Nat := 10485760

/-- The parts of an expression that is read and not too large. -/
def build (expression : List Char) : Option (List Piece) :=
  (read expression).filter (size · ≤ sizeLimit)

/-- At each place, whether there or at a later place the list holds. -/
def laterOn : List Bool → List Bool
  | [] => []
  | here :: rest =>
    let later := laterOn rest
    (here || later.headD false) :: later

/-- At each place of a text, whether a character stands there that is asked for and the list holds behind it. -/
def behind (asked : Char → Bool) (cs : List Char) (places : List Bool) : List Bool :=
  List.zipWith (fun c fit => asked c && fit) cs places.tail ++ [false]

/-- For every rest of a text, from the whole text to the empty one, whether the parts match it. -/
def matchRests : List Piece → List Char → List Bool
  | [], cs => cs.map (fun _ => false) ++ [true]
  | .anyText :: rest, cs => laterOn (matchRests rest cs)
  | .anyChar :: rest, cs => behind (fun _ => true) cs (matchRests rest cs)
  | .char c :: rest, cs => behind (Text.sameFold c) cs (matchRests rest cs)

/-- Whether the parts of an expression match a text. -/
def isMatch (pieces : List Piece) (text : List Char) : Bool :=
  (matchRests pieces text).headD false

end SchemaQuery.Regex
