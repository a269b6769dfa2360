import AnchorAudit.Double
import AnchorAudit.Text.Blank

/-! Numeric literals and the doubles that they denote. -/
namespace AnchorAudit.Numeral

/-- The digit zero of each script (Unicode 14). The nine digits after it follow in order. -/
def zeros : List Nat :=
  [0x30, 0x660, 0x6F0, 0x7C0, 0x966, 0x9E6, 0xA66, 0xAE6, 0xB66, 0xBE6, 0xC66, 0xCE6, 0xD66,
   0xDE6, 0xE50, 0xED0, 0xF20, 0x1040, 0x1090, 0x17E0, 0x1810, 0x1946, 0x19D0, 0x1A80, 0x1A90,
   0x1B50, 0x1BB0, 0x1C40, 0x1C50, 0xA620, 0xA8D0, 0xA900, 0xA9D0, 0xA9F0, 0xAA50, 0xABF0, 0xFF10,
   0x104A0, 0x10D30, 0x11066, 0x110F0, 0x11136, 0x111D0, 0x112F0, 0x11450, 0x114D0, 0x11650,
   0x116C0, 0x11730, 0x118E0, 0x11950, 0x11C50, 0x11D50, 0x11DA0, 0x16A60, 0x16AC0, 0x16B50,
   0x1D7CE, 0x1D7D8, 0x1D7E2, 0x1D7EC, 0x1D7F6, 0x1E140, 0x1E2F0, 0x1E950, 0x1FBF0]

def digitValue? (c : Char) : Option Nat :=
  (zeros.find? fun z => z ≤ c.toNat && c.toNat ≤ z + 9).map (c.toNat - ·)

/-- White space that may surround a number. The information separators may not. -/
def isNumberBlank (c : Char) : Bool := Text.isBlank c && !(0x1C ≤ c.toNat && c.toNat ≤ 0x1F)

def body (cs : List Char) : List Char :=
  ((cs.dropWhile isNumberBlank).reverse.dropWhile isNumberBlank).reverse

/-- The value of a digit in any base up to sixteen. Letters are of either case. -/
def hexValue? (c : Char) : Option Nat :=
  match digitValue? c with
  | some d => some d
  | none =>
    if 'a' ≤ c ∧ c ≤ 'f' then some (c.toNat - 'a'.toNat + 10)
    else if 'A' ≤ c ∧ c ≤ 'F' then some (c.toNat - 'A'.toNat + 10)
    else none

def digit? (base : Nat) (c : Char) : Option Nat := (hexValue? c).filter (· < base)

/-- The number that digits denote, most significant first. -/
def ofDigits (base : Nat) (digits : List Nat) : Nat :=
  digits.foldl (fun n d => n * base + d) 0

/-- The number that a run of digits denotes. There has to be one, and nothing else. -/
def readNat? (base : Nat) (cs : List Char) : Option Nat :=
  if cs.isEmpty then none else (cs.mapM (digit? base)).map (ofDigits base)

def splitSign : List Char → Bool × List Char
  | '-' :: cs => (true, cs)
  | '+' :: cs => (false, cs)
  | cs => (false, cs)

/-- Decimal integers with more digits than this are not read. -/
def digitLimit : Nat := 4300

def readInt? (cs : List Char) : Option Int :=
  let (negative, digits) := splitSign (body cs)
  if digitLimit < digits.length then none
  else (readNat? 10 digits).map fun n => if negative then -(n : Int) else n

/-- The base that the second character of a literal announces after a zero. -/
def radix? : List Char → Option Nat
  | '0' :: c :: _ =>
    if c = 'x' ∨ c = 'X' then some 16
    else if c = 'o' ∨ c = 'O' then some 8
    else if c = 'b' ∨ c = 'B' then some 2
    else none
  | _ => none

/-- The digits of a number up to the point, after it, and the exponent. -/
structure Scientific where
  whole : List Nat
  fraction : List Nat
  exponent : Int
  deriving DecidableEq

/-- The leading decimal digits of a text, with their values, and the rest. -/
def spanDigits : List Char → List Nat × List Char
  | [] => ([], [])
  | c :: cs =>
    match digitValue? c with
    | some d => ((spanDigits cs).map (d :: ·) id)
    | none => ([], c :: cs)

/-- The exponent after its mark, if that is all that follows. -/
def readExponent? : List Char → Option Int
  | [] => some 0
  | c :: cs =>
    if c = 'e' ∨ c = 'E' then
      let (negative, digits) := splitSign cs
      (readNat? 10 digits).map fun n => if negative then -(n : Int) else n
    else none

/-- A decimal number without a sign: digits, a point and an exponent, the last two optional. -/
def readScientific? (cs : List Char) : Option Scientific :=
  let (whole, rest) := spanDigits cs
  let (fraction, rest) := match rest with
    | '.' :: rest => spanDigits rest
    | rest => ([], rest)
  if whole.isEmpty && fraction.isEmpty then none
  else (readExponent? rest).map (⟨whole, fraction, ·⟩)

def Scientific.toDouble (negative : Bool) (s : Scientific) : Double :=
  let digits := (s.whole ++ s.fraction).dropWhile (· == 0)
  .ofDecimal negative (ofDigits 10 digits) digits.length (s.exponent - s.fraction.length)

/-- The names of the numbers that have no digits, in lower case. -/
def named? (negative : Bool) (cs : List Char) : Option Double :=
  let name := String.ofList (cs.map Char.toLower)
  if name = "nan" then some (.nan negative)
  else if name = "inf" ∨ name = "infinity" then some (.infinite negative)
  else none

/-- A decimal number, infinity or not-a-number, with an optional sign. -/
def readReal? (cs : List Char) : Option Double :=
  let (negative, rest) := splitSign (body cs)
  match named? negative rest with
  | some d => some d
  | none => (readScientific? rest).map (·.toDouble negative)

def integerTypes : List String :=
  ["i8", "i16", "i32", "i64", "i128", "isize", "u8", "u16", "u32", "u64", "u128", "usize"]

def floatTypes : List String := ["f32", "f64"]

/-- The text without the type at its end, if it has one of these. A last line feed stays. -/
def dropType (types : List String) (cs : List Char) : List Char :=
  let (core, tail) := if cs.getLast? = some '\n' then (cs.dropLast, ['\n']) else (cs, [])
  match types.find? (·.toList.isSuffixOf core) with
  | some t => core.take (core.length - t.length) ++ tail
  | none => cs

/-- An integer is too large to be rounded to a finite double. -/
inductive TooLarge where
  | tooLarge
  deriving DecidableEq

def finite (n : Int) : Except TooLarge Double :=
  let d := Double.ofInt n
  if d.isInfinite then .error .tooLarge else .ok d

/-- The integer of a literal whose base is announced. White space may follow the digits. -/
def readRadix? (base : Nat) (cs : List Char) : Option Nat := readNat? base ((body cs).drop 2)

/-- The value of a numeric literal, with or without a type at its end, and with underscores
anywhere. `none` means that the text is not a literal of its kind. -/
def value (text : String) (isFloat : Bool) : Except TooLarge (Option Double) :=
  let cleaned := text.toList.filter (· ≠ '_')
  match radix? cleaned with
  | some base =>
    match readRadix? base (dropType integerTypes cleaned) with
    | some n => (finite n).map some
    | none => .ok none
  | none =>
    let plain := dropType floatTypes (dropType integerTypes cleaned)
    if isFloat then .ok (readReal? plain)
    else match readInt? plain with
      | some n => (finite n).map some
      | none => .ok none

/-- Whether a numeric literal is different from zero. `none` means that it cannot be read. -/
def nonzero? (text : String) (isFloat : Bool) : Except TooLarge (Option Bool) :=
  (value text isFloat).map (·.map (!·.isZero))

end AnchorAudit.Numeral
