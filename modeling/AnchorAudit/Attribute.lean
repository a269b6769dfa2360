import AnchorAudit.Source
import AnchorAudit.Text.Blank
import AnchorAudit.Text.Word

/-! Attributes such as `#[account(mut)]`, split into a name and the tokens after it. -/
namespace AnchorAudit

structure Attribute where
  /-- The path of the attribute, empty if its text does not begin with one. -/
  name : String
  /-- What stands between the delimiters, or after the equals sign. -/
  tokens : String
  /-- The text between the square brackets. -/
  text : String
  deriving DecidableEq

namespace Attribute

def closing? (c : Char) : Option Char :=
  if c = '(' then some ')'
  else if c = '[' then some ']'
  else if c = '\x7b' then some '\x7d'
  else none

def opensName (c : Char) : Bool := c.isAlpha || c == '_'

def continuesName (c : Char) : Bool := Text.isWord c || c == ':'

def splitName? (cs : List Char) : Option (List Char × List Char) :=
  match Text.trimLeft cs with
  | c :: rest =>
    if opensName c then
      some (c :: rest.takeWhile continuesName, Text.trim (rest.dropWhile continuesName))
    else none
  | [] => none

/-- The tokens of an attribute, given the trimmed text after its name. -/
def tokensOf : List Char → List Char
  | [] => []
  | c :: rest =>
    if (closing? c).isSome && (c :: rest).getLast? == closing? c then Text.trim rest.dropLast
    else if c = '=' then Text.trim rest
    else c :: rest

/-- Splits the text between the square brackets of an attribute. -/
def ofText (cs : List Char) : Attribute :=
  let text := String.ofList cs
  match splitName? cs with
  | some (name, rest) => ⟨.ofList name, .ofList (tokensOf rest), text⟩
  | none => ⟨"", text, text⟩

def isMark (c : Char) : Bool := c == '#' || c == '!'

/-- The text of an attribute without its marks and square brackets. -/
def unwrap (cs : List Char) : List Char :=
  let inner := Text.trim ((Text.trim cs).dropWhile isMark)
  if inner.head? = some '[' ∧ inner.getLast? = some ']' then inner.tail.dropLast else inner

/-- The attribute that a node holds. A node that holds none is read by its text. -/
def ofNode (source : Source) (n : Node) : Attribute :=
  match n.namedChildren.find? (·.kind == "attribute") with
  | some inner => ofText (source.textOf inner).toList
  | none => ofText (unwrap (source.textOf n).toList)

end Attribute

structure Field where
  name : String
  typeText : String
  attributes : List Attribute
  deriving DecidableEq

/-- The constraints that a field puts on its account. -/
def Field.accountAttributes (f : Field) : List Attribute :=
  f.attributes.filter (·.name == "account")

end AnchorAudit
