import AnchorAudit.Json.Basic
import AnchorAudit.Numeral

/-! Reading JSON text, with the cause and the position of the first error. -/
namespace AnchorAudit.Json

open Text (Point Points)

inductive Cause where
  | expectingValue
  | expectingName
  | expectingColon
  | expectingComma
  | extraData
  | unterminatedString
  | controlCharacter
  | invalidEscape
  | invalidUnicodeEscape
  | integerTooLong
  deriving DecidableEq

def Cause.message : Cause → String
  | .expectingValue => "Expecting value"
  | .expectingName => "Expecting property name enclosed in double quotes"
  | .expectingColon => "Expecting ':' delimiter"
  | .expectingComma => "Expecting ',' delimiter"
  | .extraData => "Extra data"
  | .unterminatedString => "Unterminated string starting at"
  | .controlCharacter => "Invalid control character at"
  | .invalidEscape => "Invalid \\escape"
  | .invalidUnicodeEscape => "Invalid \\uXXXX escape"
  | .integerTooLong => "Exceeds the limit for integer string conversion"

/-- An error, with the number of points from its place to the end of the text. -/
structure Failure where
  cause : Cause
  remaining : Nat

/-- What is read from the front of a text, and the rest. -/
abbrev Reading (α : Type) := Except Failure (α × Points)

def fail {α : Type} (cause : Cause) (at' : Points) : Reading α := .error ⟨cause, at'.length⟩

def isSpace (c : Char) : Bool := c == ' ' || c == '\t' || c == '\n' || c == '\r'

def skipSpace (ps : Points) : Points := ps.dropWhile (·.is isSpace)

def isHexDigit (c : Char) : Bool := c.isDigit || ('a' ≤ c && c ≤ 'f') || ('A' ≤ c && c ≤ 'F')

def unit? (digits : Points) : Option Nat :=
  if digits.all (·.is isHexDigit) then Numeral.readNat? 16 (digits.map Point.shown) else none

def simpleEscape? (c : Char) : Option Char :=
  if c = '"' ∨ c = '\\' ∨ c = '/' then some c
  else if c = 'b' then some '\x08'
  else if c = 'f' then some '\x0c'
  else if c = 'n' then some '\n'
  else if c = 'r' then some '\r'
  else if c = 't' then some '\t'
  else none

/-- The point that an escape after `\u` denotes, and the rest. A surrogate without its other half stands
for itself. -/
def readUnit (at' ps : Points) : Reading Point :=
  if (ps.drop 4).isEmpty then fail .invalidUnicodeEscape at'
  else match unit? (ps.take 4) with
    | none => fail .invalidUnicodeEscape at'
    | some n =>
      let rest := ps.drop 4
      if Text.isHighSurrogate n && !(rest.drop 6).isEmpty &&
          [.char '\\', .char 'u'].isPrefixOf rest then
        match unit? ((rest.drop 2).take 4) with
        | none => fail .invalidUnicodeEscape rest.tail
        | some m =>
          if Text.isLowSurrogate m then .ok (.ofPair n m, rest.drop 6) else .ok (.ofUnit n, rest)
      else .ok (.ofUnit n, rest)

/-- The rest of a string after its opening quote, which stands at `start`. Each step of the fuel
takes at least one point. -/
def readString (start : Points) : Nat → Points → Points → Reading Points
  | 0, _, _ => fail .unterminatedString start
  | _ + 1, _, [] => fail .unterminatedString start
  | fuel + 1, acc, .surrogate offset :: ps => readString start fuel (.surrogate offset :: acc) ps
  | fuel + 1, acc, .char c :: ps =>
    if c = '"' then .ok (acc.reverse, ps)
    else if c = '\\' then
      match ps with
      | [] => fail .unterminatedString start
      | .char 'u' :: rest =>
        match readUnit ps rest with
        | .error e => .error e
        | .ok (p, rest) => readString start fuel (p :: acc) rest
      | .char d :: rest =>
        match simpleEscape? d with
        | some e => readString start fuel (.char e :: acc) rest
        | none => fail .invalidEscape (.char c :: ps)
      | .surrogate _ :: _ => fail .invalidEscape (.char c :: ps)
    else if c.toNat < 0x20 then fail .controlCharacter (.char c :: ps)
    else readString start fuel (.char c :: acc) ps

/-- The digits of the whole part of a number: one zero, or digits that do not begin with zero. -/
def wholeDigits : List Char → List Char × List Char
  | '0' :: cs => (['0'], cs)
  | cs => cs.span Char.isDigit

def fractionDigits : List Char → List Char × List Char
  | '.' :: cs =>
    let (digits, rest) := cs.span Char.isDigit
    if digits.isEmpty then ([], '.' :: cs) else ('.' :: digits, rest)
  | cs => ([], cs)

def exponentDigits : List Char → List Char × List Char
  | [] => ([], [])
  | c :: cs =>
    if c = 'e' ∨ c = 'E' then
      let (sign, rest) := match cs with
        | '-' :: rest => (['-'], rest)
        | '+' :: rest => (['+'], rest)
        | rest => ([], rest)
      let (digits, rest) := rest.span Char.isDigit
      if digits.isEmpty then ([], c :: cs) else (c :: sign ++ digits, rest)
    else ([], c :: cs)

def readNumber (cs : List Char) : Except Cause (Json × List Char) :=
  let (sign, unsigned) := match cs with
    | '-' :: rest => (['-'], rest)
    | rest => ([], rest)
  let (whole, rest) := wholeDigits unsigned
  if whole.isEmpty then .error .expectingValue
  else
    let (fraction, rest) := fractionDigits rest
    let (exponent, rest) := exponentDigits rest
    if fraction.isEmpty && exponent.isEmpty then
      match Numeral.readInt? (sign ++ whole) with
      | some n => .ok (.int n, rest)
      | none => .error .integerTooLong
    else .ok (.real (.ofList (sign ++ whole ++ fraction ++ exponent)), rest)

def literals : List (String × Json) :=
  [("null", .null), ("true", .bool true), ("false", .bool false), ("NaN", .real "NaN"),
   ("Infinity", .real "Infinity"), ("-Infinity", .real "-Infinity")]

def isAtomic (c : Char) : Bool := c.isAlphanum || c == '+' || c == '-' || c == '.'

def readAtom (ps : Points) : Reading Json :=
  let (front, after) := ps.span (·.is isAtomic)
  let cs := front.map Point.shown
  match literals.find? (·.1.toList.isPrefixOf cs) with
  | some (word, value) => .ok (value, ps.drop word.length)
  | none =>
    match readNumber cs with
    | .error cause => fail cause ps
    | .ok (value, rest) => .ok (value, rest.map .char ++ after)

mutual

/-- The value at the front of a text. Two steps of the fuel for each character are enough. -/
def readValue : Nat → Points → Reading Json
  | 0, ps => fail .expectingValue ps
  | _ + 1, [] => fail .expectingValue []
  | fuel + 1, p :: ps =>
    if p = .char '"' then (readString (p :: ps) fuel [] ps).map fun (s, rest) => (.string s, rest)
    else if p = .char '[' then
      match skipSpace ps with
      | .char ']' :: rest => .ok (.array [], rest)
      | rest => readItems fuel [] rest
    else if p = .char '\x7b' then
      match skipSpace ps with
      | .char '\x7d' :: rest => .ok (.object [], rest)
      | rest => readMembers fuel [] rest
    else readAtom (p :: ps)

/-- The items of an array that has begun, the latest first. -/
def readItems : Nat → List Json → Points → Reading Json
  | 0, _, ps => fail .expectingValue ps
  | fuel + 1, acc, ps =>
    match readValue fuel ps with
    | .error e => .error e
    | .ok (item, rest) =>
      match skipSpace rest with
      | .char ']' :: rest => .ok (.array (item :: acc).reverse, rest)
      | .char ',' :: rest => readItems fuel (item :: acc) (skipSpace rest)
      | rest => fail .expectingComma rest

def readMembers : Nat → List (Points × Json) → Points → Reading Json
  | 0, _, ps => fail .expectingValue ps
  | fuel + 1, acc, ps =>
    match ps with
    | .char '"' :: rest =>
      match readString ps fuel [] rest with
      | .error e => .error e
      | .ok (name, rest) =>
        match skipSpace rest with
        | .char ':' :: rest =>
          match readValue fuel (skipSpace rest) with
          | .error e => .error e
          | .ok (value, rest) =>
            match skipSpace rest with
            | .char '\x7d' :: rest => .ok (.object (insert name value acc), rest)
            | .char ',' :: rest => readMembers fuel (insert name value acc) (skipSpace rest)
            | rest => fail .expectingComma rest
        | rest => fail .expectingColon rest
    | _ => fail .expectingName ps

end

/-- A text that is not JSON: the cause, and the points before its place. -/
structure ReadError where
  cause : Cause
  position : Nat
  deriving DecidableEq

/-- The value that a text holds, with white space around it and nothing else. -/
def read (ps : Points) : Except ReadError Json :=
  let start := skipSpace ps
  match readValue (2 * ps.length + 2) start with
  | .error e => .error ⟨e.cause, ps.length - e.remaining⟩
  | .ok (value, rest) =>
    match skipSpace rest with
    | [] => .ok value
    | rest => .error ⟨.extraData, ps.length - rest.length⟩

end AnchorAudit.Json
