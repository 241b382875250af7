import SchemaQuery.Json.Value
import SchemaQuery.Json.Decimal
import SchemaQuery.Json.Quoted

/-!
# Printing JSON

One printer serves both layouts: a layout says which blanks come before the items of a container and
after the colon of a member.
-/

namespace SchemaQuery

/-- Where blanks are written. -/
structure Layout where
  /-- The blanks before an item or a closing bracket at a depth. -/
  lineBreak : Nat → List Char
  colon : List Char

namespace Layout

/-- No blanks at all. -/
def compact : Layout :=
  ⟨fun _ => [], [':']⟩

/-- Each item on its own line, two blanks deeper than its container. -/
def indented : Layout :=
  ⟨fun depth => '\n' :: List.replicate (2 * depth) ' ', [':', ' ']⟩

end Layout

mutual

/-- The characters of a value at a depth. -/
def Json.print (layout : Layout) (depth : Nat) : Json → List Char
  | .null => "null".toList
  | .bool true => "true".toList
  | .bool false => "false".toList
  | .int n => (toString n.val).toList
  | .float x => x.toText.toList
  | .str s => Quoted.quote s.toList
  | .arr [] => ['[', ']']
  | .arr (item :: rest) =>
    '[' :: layout.lineBreak (depth + 1) ++ item.print layout (depth + 1) ++
      printItems layout depth rest ++ layout.lineBreak depth ++ [']']
  | .obj [] => ['{', '}']
  | .obj ((name, value) :: rest) =>
    '{' :: layout.lineBreak (depth + 1) ++ Quoted.quote name.toList ++ layout.colon ++
      value.print layout (depth + 1) ++
      printMembers layout depth rest ++ layout.lineBreak depth ++ ['}']

/-- The items after the first, each after a comma. -/
def printItems (layout : Layout) (depth : Nat) : List Json → List Char
  | [] => []
  | item :: rest =>
    ',' :: layout.lineBreak (depth + 1) ++ item.print layout (depth + 1) ++
      printItems layout depth rest

/-- The members after the first, each after a comma. -/
def printMembers (layout : Layout) (depth : Nat) : List (String × Json) → List Char
  | [] => []
  | (name, value) :: rest =>
    ',' :: layout.lineBreak (depth + 1) ++ Quoted.quote name.toList ++ layout.colon ++
      value.print layout (depth + 1) ++ printMembers layout depth rest

end

/-- The text of a value without blanks. -/
def Json.compact (v : Json) : String :=
  String.ofList (v.print .compact 0)

/-- The text of a value with one item on a line. -/
def Json.pretty (v : Json) : String :=
  String.ofList (v.print .indented 0)

end SchemaQuery
