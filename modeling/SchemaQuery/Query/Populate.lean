import SchemaQuery.Json.Decode
import SchemaQuery.Query.Error

/-!
# Populate expressions

An expression names the relations to load with each row: `books`, `books.author` for the author of each
book, `[books,author]` for both. It denotes a forest of names, in which siblings of one name are one.
-/

namespace SchemaQuery

/-- What to load, as a user says it. -/
inductive Populate where
  | expression (text : String)
  | list (items : List Populate)
  | path (path : String)
  | nested (path : String) (below : Populate)

mutual

/-- What to load as one expression. -/
def Populate.toExpression : Populate → String
  | .expression text => text
  | .list items => "[" ++ Sql.join "," (expressionsOf items) ++ "]"
  | .path path => path
  | .nested path below => path ++ "." ++ below.toExpression

/-- The expressions of a list. -/
def expressionsOf : List Populate → List String
  | [] => []
  | item :: rest => item.toExpression :: expressionsOf rest

end

/-- A relation to load, with those to load below it. -/
inductive PopulateNode where
  | node (name : String) (children : List PopulateNode)

namespace PopulateNode

/-- The name of the relation. -/
def name : PopulateNode → String
  | node name _ => name

/-- The relations to load below. -/
def children : PopulateNode → List PopulateNode
  | node _ children => children

mutual

/-- Decides whether two relations to load are one. -/
def decEq : (first second : PopulateNode) → Decidable (first = second)
  | node name children, node other others =>
    have := decEqAll children others
    decidable_of_iff (name = other ∧ children = others) (by simp)

/-- Decides whether two forests are one. -/
def decEqAll : (first second : List PopulateNode) → Decidable (first = second)
  | [], [] => isTrue rfl
  | [], _ :: _ | _ :: _, [] => isFalse nofun
  | first :: rest, second :: others =>
    have := decEq first second
    have := decEqAll rest others
    decidable_of_iff (first = second ∧ rest = others) (by simp)

end

instance : DecidableEq PopulateNode := decEq

/-- Changes what is below a name, which comes last if it is new. -/
def growAt (name : String) (f : List PopulateNode → List PopulateNode) :
    List PopulateNode → List PopulateNode
  | [] => [node name (f [])]
  | node other children :: rest =>
    if other = name then node other (f children) :: rest
    else node other children :: growAt name f rest

mutual

/-- Adds a relation to a forest; what it has below is added below the name. -/
def graft : PopulateNode → List PopulateNode → List PopulateNode
  | node name children, forest => growAt name (fun old => graftAll children old) forest

/-- Adds relations to a forest, in order. -/
def graftAll : List PopulateNode → List PopulateNode → List PopulateNode
  | [], forest => forest
  | first :: rest, forest => graftAll rest (graft first forest)

end

/-- A forest in which siblings of one name are one, at the place of the first. -/
def merge (forest : List PopulateNode) : List PopulateNode :=
  graftAll forest []

end PopulateNode

namespace Populate

/-- What encloses the part of an expression that is being read. -/
inductive Frame where
  /-- A bracket, with the relations read in it so far. -/
  | bracket (done : List PopulateNode)
  /-- A name and a dot. -/
  | dot (name : String)

/-- Where the reader of an expression stands. The first frame is the innermost. -/
inductive State where
  | start (frames : List Frame)
  /-- Inside a name, of which the characters read come last first. -/
  | word (read : List Char) (frames : List Frame)
  /-- Behind relations that are complete. -/
  | after (done : List PopulateNode) (frames : List Frame)

/-- Whether a character can stand in a name. -/
def isNameChar (c : Char) : Bool :=
  c.isAlphanum || c = '_' || c = '$'

/-- Puts complete relations below the names that wait for them. -/
def complete (done : List PopulateNode) : List Frame → State
  | .dot name :: frames => complete [.node name done] frames
  | frames => .after done frames

/-- Takes a character behind complete relations. -/
def stepAfter (c : Char) : State → Option State
  | .after done (.bracket before :: frames) =>
    if c = ',' then some (.start (.bracket (before ++ done) :: frames))
    else if c = ']' then some (complete (before ++ done) frames)
    else none
  | _ => none

/-- Takes a character. -/
def step (c : Char) : State → Option State
  | .start frames =>
    if c = '[' then some (.start (.bracket [] :: frames))
    else if isNameChar c then some (.word [c] frames)
    else none
  | .word read frames =>
    if isNameChar c then some (.word (c :: read) frames)
    else if c = '.' then some (.start (.dot (String.ofList read.reverse) :: frames))
    else stepAfter c (complete [.node (String.ofList read.reverse) []] frames)
  | .after done frames => stepAfter c (.after done frames)

/-- The relations of an expression that ends here. -/
def finish : State → Option (List PopulateNode)
  | .start _ => none
  | .word read frames =>
    match complete [.node (String.ofList read.reverse) []] frames with
    | .after done [] => some done
    | _ => none
  | .after done [] => some done
  | .after _ _ => none

/-- Reads characters; what fails is told with the number of characters before it. -/
def readFrom : List Char → (offset : Nat) → State → Except Nat (List PopulateNode)
  | [], offset, state =>
    match finish state with
    | some done => .ok done
    | none => .error offset
  | c :: rest, offset, state =>
    match step c state with
    | some next => readFrom rest (offset + 1) next
    | none => .error offset

/-- The relations of an expression, in which blanks do not count. -/
def parse (p : Populate) : Except QueryError (List PopulateNode) :=
  let compact := p.toExpression.toList.filter fun c => !Text.isBlank c
  match readFrom compact 0 (.start []) with
  | .ok forest => .ok (PopulateNode.merge forest)
  | .error offset => .error (.invalid (.populateExpression (String.ofList compact) offset))

end Populate

mutual

/-- What to load as JSON. -/
def Populate.toJson : Populate → Json
  | .expression text => .str text
  | .list items => .arr (populatesToJson items)
  | .path path => .obj [("path", .str path)]
  | .nested path below => .obj [("path", .str path), ("populate", below.toJson)]

/-- A list of what to load as JSON. -/
def populatesToJson : List Populate → List Json
  | [] => []
  | item :: rest => item.toJson :: populatesToJson rest

end

/-- Reads a path with what is below it, given each member and what it says to load. -/
def Populate.ofMembers? (members : List (Option String × Document × Option Populate)) :
    Option Populate := do
  if members.any fun member => member.1.isNone then none
  let (name, _) ← ← Document.field? ["path"] members
  let name ← name.asString?
  match ← Document.field? ["populate"] members with
  | none => return .path name
  | some (.null, _) => return .path name
  | some (_, below) => return .nested name (← below)

mutual

/-- Reads what to load. -/
def Populate.ofDocument? : Document → Option Populate
  | .str text => some (.expression text)
  | .arr items => (populatesOfDocuments? items).map .list
  | .obj members => Populate.ofMembers? (populateMembers members)
  | _ => none

/-- Reads a list of what to load. -/
def populatesOfDocuments? : List Document → Option (List Populate)
  | [] => some []
  | d :: rest =>
    match Populate.ofDocument? d, populatesOfDocuments? rest with
    | some item, some items => some (item :: items)
    | _, _ => none

/-- Members with what each says to load. -/
def populateMembers : List (Option String × Document) →
    List (Option String × Document × Option Populate)
  | [] => []
  | (name, d) :: rest => (name, d, Populate.ofDocument? d) :: populateMembers rest

end

end SchemaQuery
