import AnchorAudit.Json.Basic
import AnchorAudit.Path
import AnchorAudit.Schema.IntegerText
import AnchorAudit.Schema.Issue

/-! Reading values of a fixed shape out of JSON. All issues are collected, in the order of the
shape's fields. -/
namespace AnchorAudit.Schema

open Text (Points)

/-- A value, or everything that is wrong with it. -/
abbrev Checked (α : Type) := Except (List Issue) α

abbrev Reader (α : Type) := Json → Checked α

def reject {α : Type} (cause : Cause) : Checked α := .error [⟨[], cause⟩]

/-- The issues of a part, seen from the whole. -/
def inside {α : Type} (step : Step) (c : Checked α) : Checked α :=
  c.mapError fun issues => issues.map fun i => { i with path := step :: i.path }

def both {α β : Type} (a : Checked α) (b : Checked β) : Checked (α × β) :=
  match a, b with
  | .ok x, .ok y => .ok (x, y)
  | .error i, .error j => .error (i ++ j)
  | .error i, .ok _ => .error i
  | .ok _, .error j => .error j

def all {α : Type} : List (Checked α) → Checked (List α)
  | [] => .ok []
  | c :: cs => (both c (all cs)).map fun (x, xs) => x :: xs

/-- The members of an object; anything else is rejected for the given cause. -/
def members (cause : Cause) : Reader (List (Points × Json))
  | .object ms => .ok ms
  | _ => reject cause

def required {α : Type} (ms : List (Points × Json)) (name : Points) (read : Reader α) : Checked α :=
  inside (.field name) (match ms.lookup name with
    | some v => read v
    | none => reject .missing)

def defaulted {α : Type} (ms : List (Points × Json)) (name : Points) (value : α) (read : Reader α) :
    Checked α :=
  match ms.lookup name with
  | some v => inside (.field name) (read v)
  | none => .ok value

def nullable {α : Type} (read : Reader α) : Reader (Option α)
  | .null => .ok none
  | v => (read v).map some

def points : Reader Points
  | .string s => .ok s
  | _ => reject .notString

/-- The text that a string is. One with a lone surrogate is none. -/
def textOf (s : Points) : Checked String :=
  match s.text? with
  | some text => .ok text
  | none => reject .notText

def string : Reader String
  | .string s => textOf s
  | _ => reject .notString

/-- The double that a number written with a point or an exponent denotes. -/
def realOf (literal : String) : Double := (Numeral.readReal? literal.toList).getD (.nan false)

/-- Integers of sixty-four bits with a sign lie below this number and not below its negative. -/
def wordBound : Int := 0x8000000000000000

/-- The integer that a double stands for. It has to fit into sixty-four bits, the bounds excluded. -/
def integerOfDouble (d : Double) : Checked Int :=
  match d with
  | .finite _ _ _ =>
    match d.toInt? with
    | some n => if -wordBound < n ∧ n < wordBound then .ok n else reject .integerTooLong
    | none => reject .integerFraction
  | _ => reject .notFinite

def integerOfText (text : String) : Checked Int :=
  match IntegerText.read text with
  | .ok n => .ok n
  | .error .unreadable => reject .integerUnreadable
  | .error .tooLong => reject .integerTooLong

/-- An integer. Truth values count as zero and one, and a number without fraction counts as the
integer that it is. -/
def integer : Reader Int
  | .int n => .ok n
  | .bool b => .ok (if b then 1 else 0)
  | .real literal => integerOfDouble (realOf literal)
  | .string s => do integerOfText (← textOf s)
  | _ => reject .notInteger

def integerFrom (least : Int) : Reader Int := fun v => do
  let n ← integer v
  if n < least then reject .belowMinimum else return n

/-- Characters that are a number and nothing else, all of them in ASCII. -/
def isRealNumeral (cs : List Char) : Bool :=
  cs.all (fun c => c.toNat < 128 && !Numeral.isNumberBlank c) && (Numeral.readReal? cs).isSome

/-- A text that holds a number: with white space around it, or with underscores in it. -/
def isRealText (text : String) : Bool :=
  isRealNumeral (Numeral.body text.toList) ||
    ((IntegerText.joinGroups? text.toList).map isRealNumeral).getD false

/-- A number of any kind; only its being one is checked. An integer has to be in the range of the
finite doubles. -/
def real : Reader Unit
  | .int n => if (Double.ofInt n).isInfinite then reject .notReal else .ok ()
  | .bool _ => .ok ()
  | .real _ => .ok ()
  | .string s => do if isRealText (← textOf s) then .ok () else reject .realUnreadable
  | _ => reject .notReal

def yesWords : List String := ["1", "t", "y", "on", "yes", "true"]

def noWords : List String := ["0", "f", "n", "no", "off", "false"]

/-- Zero and one as truth values. A number that does not fit into sixty-four bits is none at all. -/
def boolOfInt (n : Int) : Checked Bool :=
  if n = 1 then .ok true
  else if n = 0 then .ok false
  else if -wordBound ≤ n ∧ n < wordBound then reject .boolUnreadable
  else reject .notBool

/-- Zero and one as truth values, for a number that counts as an integer. -/
def boolOfDouble (d : Double) : Checked Bool :=
  match integerOfDouble d with
  | .ok n => boolOfInt n
  | .error _ => reject .notBool

/-- A truth value, by itself or as a number or word that stands for one. -/
def boolean : Reader Bool
  | .bool b => .ok b
  | .int n => boolOfInt n
  | .real literal => boolOfDouble (realOf literal)
  | .string s => do
    let word := String.ofList ((← textOf s).toList.map Char.toLower)
    if yesWords.contains word then .ok true
    else if noWords.contains word then .ok false
    else reject .boolUnreadable
  | _ => reject .notBool

def choice {α : Type} (cause : Cause) (ofName? : String → Option α) : Reader α
  | .string s =>
    match s.text?.bind ofName? with
    | some a => .ok a
    | none => reject cause
  | _ => reject cause

/-- The items of an array; anything else is rejected for the given cause. -/
def items {α : Type} (cause : Cause) (read : Reader α) : Reader (List α)
  | .array vs => all (vs.mapIdx fun i v => inside (.index i) (read v))
  | _ => reject cause

def list {α : Type} (read : Reader α) : Reader (List α) := items .notList read

/-- An array whose repetitions do not count. -/
def set {α : Type} [BEq α] (read : Reader α) : Reader (List α) := fun v =>
  (items .notSet read v).map List.eraseDups

/-- The entries of an object. Each name and each value is checked. -/
def map {α β : Type} (ofName? : String → Option α) (read : Reader β) : Reader (List (α × β))
  | .object ms => all (ms.map fun (name, v) =>
      inside (.field name) (both (inside .key (choice .notChoice ofName? (.string name))) (read v)))
  | _ => reject .notMap

def path : Reader Path
  | .string s => (textOf s).map .ofString
  | _ => reject .notPath

end AnchorAudit.Schema
