import AnchorAudit.Text.Encoding

/-! JSON values and their text. -/
namespace AnchorAudit

open Text (Point Points)

/-- A JSON value. A number with a point or an exponent is kept as it is written. -/
inductive Json where
  | null
  | bool (b : Bool)
  | int (n : Int)
  | real (literal : String)
  | string (s : Points)
  | array (items : List Json)
  | object (members : List (Points × Json))

namespace Json

/-- The members of an object with one more. A member of the same name is replaced in its place. -/
def insert (name : Points) (value : Json) : List (Points × Json) → List (Points × Json)
  | [] => [(name, value)]
  | (n, v) :: rest => if n == name then (n, value) :: rest else (n, v) :: insert name value rest

def member? (name : Points) : Json → Option Json
  | .object members => members.lookup name
  | _ => none

def escapeUnit (n : Nat) : List Char := '\\' :: 'u' :: Text.hex 4 n

/-- How one character is written in a JSON string. Only printable characters of ASCII stand for
themselves. -/
def escape (c : Char) : List Char :=
  let n := c.toNat
  if c = '"' ∨ c = '\\' then ['\\', c]
  else if c = '\n' then ['\\', 'n']
  else if c = '\r' then ['\\', 'r']
  else if c = '\t' then ['\\', 't']
  else if 0x20 ≤ n ∧ n < 0x7F then [c]
  else if n < 0x10000 then escapeUnit n
  else
    escapeUnit (0xD800 + (n - 0x10000) / 0x400) ++ escapeUnit (0xDC00 + (n - 0x10000) % 0x400)

def escapePoint : Point → List Char
  | .char c => escape c
  | .surrogate offset => escapeUnit (Point.surrogate offset).code

def renderString (s : Points) : String := .ofList ('"' :: s.flatMap escapePoint ++ ['"'])

mutual

/-- The text of a value, without any white space. -/
def render : Json → String
  | .null => "null"
  | .bool b => if b then "true" else "false"
  | .int n => toString n
  | .real literal => literal
  | .string s => renderString s
  | .array items => "[" ++ ",".intercalate (renderAll items) ++ "]"
  | .object members => "\x7b" ++ ",".intercalate (renderMembers members) ++ "\x7d"

def renderAll : List Json → List String
  | [] => []
  | v :: rest => render v :: renderAll rest

def renderMembers : List (Points × Json) → List String
  | [] => []
  | (name, v) :: rest => (renderString name ++ ":" ++ render v) :: renderMembers rest

end

def text (s : String) : Json := .string s

def texts (items : List String) : Json := .array (items.map text)

def optional {α : Type} (write : α → Json) : Option α → Json
  | some a => write a
  | none => .null

end Json

end AnchorAudit
