import SchemaQuery.Json.Number
import SchemaQuery.Json.Quoted

/-!
# Tokens of JSON text

Reading goes through the text once, character by character. A word is a longest row of letters, digits,
signs and points, so that words that run together are refused.
-/

namespace SchemaQuery

/-- The least part of a JSON text with a meaning of its own. -/
inductive Token where
  | beginArray
  | endArray
  | beginObject
  | endObject
  | comma
  | colon
  /-- A string, of which the characters may be unreadable. -/
  | text (content : Option String)
  /-- A literal name or a number. -/
  | word (value : Document)

namespace Token

/-- Where the reader stands: what has been read of an unfinished token comes last character first. -/
inductive Mode where
  | between
  | inWord (read : List Char)
  | inText (read : List Char)
  /-- Behind a backslash. -/
  | inEscape (read : List Char)

/-- The blanks of the format. -/
def isBlank (c : Char) : Bool :=
  c = ' ' || c = '\t' || c = '\n' || c = '\r'

/-- Whether a character can stand in a literal name or a number. -/
def isWordChar (c : Char) : Bool :=
  c.isAlphanum || c = '-' || c = '+' || c = '.'

/-- The token of a finished word. -/
def ofWord? (cs : List Char) : Option Token :=
  if cs = "null".toList then some (.word .null)
  else if cs = "true".toList then some (.word (.bool true))
  else if cs = "false".toList then some (.word (.bool false))
  else (NumberLiteral.read? cs).map fun n => .word n.value

/-- The token of what stands between two quotes. -/
def ofQuoted? (cs : List Char) : Option Token :=
  (Quoted.decode cs).map fun content => .text (content.map String.ofList)

/-- What a character does between tokens: the token it is, if it is one, and where it leads. -/
def enter? (c : Char) : Option (Option Token × Mode) :=
  if isBlank c then some (none, .between)
  else if c = '[' then some (some .beginArray, .between)
  else if c = ']' then some (some .endArray, .between)
  else if c = '{' then some (some .beginObject, .between)
  else if c = '}' then some (some .endObject, .between)
  else if c = ',' then some (some .comma, .between)
  else if c = ':' then some (some .colon, .between)
  else if c = '"' then some (none, .inText [])
  else if isWordChar c then some (none, .inWord [c])
  else none

/-- Reads the tokens of a text; `found` are those before it, last first. -/
def scanFrom : List Char → Mode → (found : List Token) → Option (List Token)
  | [], .between, found => some found.reverse
  | [], .inWord read, found =>
    match ofWord? read.reverse with
    | some token => some (token :: found).reverse
    | none => none
  | [], _, _ => none
  | c :: rest, .between, found =>
    match enter? c with
    | some (token, mode) => scanFrom rest mode (token.toList ++ found)
    | none => none
  | c :: rest, .inWord read, found =>
    if isWordChar c then scanFrom rest (.inWord (c :: read)) found
    else
      match ofWord? read.reverse, enter? c with
      | some before, some (token, mode) => scanFrom rest mode (token.toList ++ before :: found)
      | _, _ => none
  | c :: rest, .inText read, found =>
    if c = '"' then
      match ofQuoted? read.reverse with
      | some token => scanFrom rest .between (token :: found)
      | none => none
    else if c = '\\' then scanFrom rest (.inEscape (c :: read)) found
    else scanFrom rest (.inText (c :: read)) found
  | c :: rest, .inEscape read, found => scanFrom rest (.inText (c :: read)) found

/-- The tokens of a text. -/
def scan (cs : List Char) : Option (List Token) :=
  scanFrom cs .between []

end Token

end SchemaQuery
