/-! References to variables in the values of other variables. -/
namespace AnchorAudit.Dotenv

/-- Variables with their values. A variable that is only named has none. -/
abbrev Bindings := List (String × Option String)

inductive Piece where
  | char (c : Char)
  /-- A reference to a variable, with the text that stands in for one that is not set. -/
  | reference (name : String) (fallback : String)
  deriving DecidableEq

def endsReference (c : Char) : Bool := c == '\x7d' || c == ':'

/-- The reference whose text follows the opening brace, and the rest. -/
def reference? (cs : List Char) : Option (Piece × List Char) :=
  let name := String.ofList (cs.takeWhile (!endsReference ·))
  match cs.dropWhile (!endsReference ·) with
  | '\x7d' :: rest => some (.reference name "", rest)
  | ':' :: '-' :: rest =>
    let fallback := String.ofList (rest.takeWhile (· != '\x7d'))
    match rest.dropWhile (· != '\x7d') with
    | _ :: after => some (.reference name fallback, after)
    | [] => none
  | _ => none

/-- The parts of a value. Each step of the fuel takes at least one character. -/
def piecesOf : Nat → List Char → List Piece
  | 0, _ => []
  | _ + 1, [] => []
  | fuel + 1, c :: cs =>
    match c, cs with
    | '$', '\x7b' :: rest =>
      match reference? rest with
      | some (piece, after) => piece :: piecesOf fuel after
      | none => .char c :: piecesOf fuel cs
    | _, _ => .char c :: piecesOf fuel cs

/-- The text that a part of a value stands for. A variable that is only named stands for nothing. -/
def Piece.resolve (known : Bindings) : Piece → String
  | .char c => c.toString
  | .reference name fallback =>
    match known.lookup name with
    | some value => value.getD ""
    | none => fallback

/-- A value in which every reference is replaced by what it stands for. -/
def expand (known : Bindings) (value : String) : String :=
  String.join ((piecesOf value.length value.toList).map (·.resolve known))

/-- The variables with one more. A variable of the same name is replaced in its place. -/
def assign (name : String) (value : Option String) : Bindings → Bindings
  | [] => [(name, value)]
  | (n, v) :: rest => if n == name then (n, value) :: rest else (n, v) :: assign name value rest

/-- The variables after some lines that set them, one after the other. A value may refer to the
variables before it and to those of the environment, which count less. -/
def bindAll (environment : Bindings) (lines : Bindings) : Bindings :=
  lines.foldl (fun vars (name, value) => assign name (value.map (expand (vars ++ environment))) vars) []

end AnchorAudit.Dotenv
