import SchemaQuery.Text.Regex

/-!
# The `like` pattern

`%` stands for any text, `_` for one character, a backslash takes its special sense from the character
behind it. Letters are compared without case. A pattern is matched as a regular expression; one whose expression
is not built fits no text.
-/

namespace SchemaQuery

namespace Like

/-- The expression for a pattern, between the marks for the ends of a text. A backslash at the end stands for
nothing. -/
def translate : List Char → List Char
  | [] => []
  | '%' :: rest => '.' :: '*' :: translate rest
  | '_' :: rest => '.' :: translate rest
  | '\\' :: c :: rest => Regex.escape c ++ translate rest
  | ['\\'] => []
  | c :: rest => Regex.escape c ++ translate rest

/-- The expression for a pattern. -/
def expression (pattern : List Char) : List Char :=
  '^' :: translate pattern ++ ['$']

end Like

/-- Whether a text fits a `like` pattern. -/
def likeMatches (text pattern : String) : Bool :=
  ((Regex.build (Like.expression pattern.toList)).map (Regex.isMatch · text.toList)).getD false

end SchemaQuery
