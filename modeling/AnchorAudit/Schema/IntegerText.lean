import AnchorAudit.Numeral

/-! Integers written as text: with zeros in front of them and after a point, and with underscores
between their digits. -/
namespace AnchorAudit.Schema.IntegerText

inductive Flaw where
  | unreadable
  | tooLong
  deriving DecidableEq

/-- A character that begins an integer without leading zeros. -/
def beginsNumber (c : Char) : Bool := ('1' ≤ c && c ≤ '9') || c == '-'

/-- What follows leading zeros and underscores, the last of which is given. That one stays when
nothing or a point follows. -/
def afterZeros? (last : Char) : List Char → Option (List Char)
  | [] => some [last]
  | c :: cs =>
    if c = '0' ∨ c = '_' then afterZeros? c cs
    else if c = '.' then some (last :: c :: cs)
    else if beginsNumber c then some (c :: cs)
    else none

/-- A text without leading zeros, if it can hold an integer at all. -/
def dropZeros? : List Char → Option (List Char)
  | [] => none
  | c :: cs =>
    if c = '0' then afterZeros? c cs else if beginsNumber c then some (c :: cs) else none

/-- A text without a point and the zeros after it. There has to be a zero, and nothing else. -/
def dropFraction (cs : List Char) : List Char :=
  match cs.dropWhile (· ≠ '.') with
  | _ :: d :: ds => if (d :: ds).all (· == '0') then cs.takeWhile (· ≠ '.') else cs
  | _ => cs

/-- The text without single underscores between its other characters. -/
def joinGroups? (cs : List Char) : Option (List Char) :=
  let groups := Text.pieces (· == '_') cs
  if groups.any List.isEmpty then none else some groups.flatten

def dropPlus : List Char → List Char
  | ['+'] => []
  | '+' :: c :: cs => if c = '-' then '+' :: c :: cs else c :: cs
  | cs => cs

/-- What is left of a text when all that says nothing is taken away. -/
def clean? (cs : List Char) : Option (List Char) :=
  (dropZeros? (dropPlus (Numeral.body cs))).map fun rest =>
    let whole := dropFraction rest
    (joinGroups? whole).getD whole

/-- An integer in digits, with a minus sign if it is negative and no zero in front of other digits. -/
def readDigits (cs : List Char) : Except Flaw Int :=
  let (negative, digits) := match cs with
    | '-' :: rest => (true, rest)
    | rest => (false, rest)
  let run := digits.takeWhile Char.isDigit
  if run.head? = some '0' ∧ 1 < run.length then .error .unreadable
  else if Numeral.digitLimit < run.length + negative.toNat then .error .tooLong
  else if run.length < digits.length then .error .unreadable
  else match Numeral.readNat? 10 run with
    | some n => .ok (if negative then -(n : Int) else n)
    | none => .error .unreadable

def read (text : String) : Except Flaw Int :=
  match clean? text.toList with
  | some cs => readDigits cs
  | none => .error .unreadable

end AnchorAudit.Schema.IntegerText
