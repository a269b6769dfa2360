import AnchorAudit.Text.Quoted

/-! UTF-8: the octets of a text, and the text that a run of octets shows. -/
namespace AnchorAudit.Utf8

def encodeChar (c : Char) : List UInt8 :=
  let n := c.toNat
  if n < 0x80 then [.ofNat n]
  else if n < 0x800 then [.ofNat (0xC0 + n / 64), .ofNat (0x80 + n % 64)]
  else if n < 0x10000 then
    [.ofNat (0xE0 + n / 4096), .ofNat (0x80 + n / 64 % 64), .ofNat (0x80 + n % 64)]
  else
    [.ofNat (0xF0 + n / 262144), .ofNat (0x80 + n / 4096 % 64), .ofNat (0x80 + n / 64 % 64),
     .ofNat (0x80 + n % 64)]

def encode (cs : List Char) : List UInt8 := cs.flatMap encodeChar

inductive Flaw where
  /-- No character begins with this octet. -/
  | badStart
  /-- The next octet does not belong to the character that has begun. -/
  | badContinuation
  /-- The octets end inside a character. -/
  | cutShort
  deriving DecidableEq

/-- What stands at the front of some octets, with the number of octets after the first that belong
to it. A flaw covers the octets that could still have become a character. -/
inductive Chunk where
  | char (c : Char) (extra : Nat)
  | flaw (flaw : Flaw) (extra : Nat)
  deriving DecidableEq

def Chunk.size : Chunk → Nat
  | .char _ extra => extra + 1
  | .flaw _ extra => extra + 1

/-- Reads the owed continuation octets. The next one has to lie between `lo` and `hi`. -/
def tails (lo hi value taken : Nat) : Nat → List UInt8 → Chunk
  | 0, _ => .char (Char.ofNat value) taken
  | _ + 1, [] => .flaw .cutShort taken
  | owed + 1, b :: rest =>
    if lo ≤ b.toNat ∧ b.toNat ≤ hi then
      tails 0x80 0xBF (value * 64 + (b.toNat - 0x80)) (taken + 1) owed rest
    else .flaw .badContinuation taken

/-- What the first octet begins. Overlong forms, surrogates and values past the last code point are
excluded by the range of the second octet. -/
def first (b : UInt8) (rest : List UInt8) : Chunk :=
  let n := b.toNat
  if n < 0x80 then .char (Char.ofNat n) 0
  else if n < 0xC2 then .flaw .badStart 0
  else if n < 0xE0 then tails 0x80 0xBF (n - 0xC0) 0 1 rest
  else if n < 0xF0 then
    tails (if n = 0xE0 then 0xA0 else 0x80) (if n = 0xED then 0x9F else 0xBF) (n - 0xE0) 0 2 rest
  else if n < 0xF5 then
    tails (if n = 0xF0 then 0x90 else 0x80) (if n = 0xF4 then 0x8F else 0xBF) (n - 0xF0) 0 3 rest
  else .flaw .badStart 0

/-- The chunks of some octets, after skipping those that the chunk before has taken. -/
def chunks : Nat → List UInt8 → List Chunk
  | _, [] => []
  | skip + 1, _ :: rest => chunks skip rest
  | 0, b :: rest =>
    let chunk := first b rest
    chunk :: chunks (chunk.size - 1) rest

def replacement : Char := '�'

def Chunk.shown : Chunk → Char
  | .char c _ => c
  | .flaw _ _ => replacement

/-- The text of some octets, with one replacement character for each flaw. -/
def decode (bytes : List UInt8) : List Char := (chunks 0 bytes).map Chunk.shown

/-- The first flaw of some octets and the octets that it covers. -/
structure DecodeError where
  flaw : Flaw
  position : Nat
  covered : List UInt8
  deriving DecidableEq

def Flaw.reason : Flaw → String
  | .badStart => "invalid start byte"
  | .badContinuation => "invalid continuation byte"
  | .cutShort => "unexpected end of data"

def DecodeError.message (e : DecodeError) : String :=
  let place := match e.covered with
    | [b] => "byte 0x" ++ .ofList (Text.hex 2 b.toNat) ++ " in position " ++ toString e.position
    | bytes =>
      "bytes in position " ++ toString e.position ++ "-" ++ toString (e.position + bytes.length - 1)
  "'utf-8' codec can't decode " ++ place ++ ": " ++ e.flaw.reason

/-- The first flaw among the chunks of `bytes`, which begin at `position`. -/
def firstFlaw? (position : Nat) (bytes : List UInt8) : List Chunk → Option DecodeError
  | [] => none
  | .flaw flaw extra :: _ => some ⟨flaw, position, bytes.take (extra + 1)⟩
  | .char _ extra :: rest => firstFlaw? (position + extra + 1) (bytes.drop (extra + 1)) rest

/-- The text of some octets, if they are the form of a text. -/
def decode? (bytes : List UInt8) : Except DecodeError (List Char) :=
  match firstFlaw? 0 bytes (chunks 0 bytes) with
  | some error => .error error
  | none => .ok (decode bytes)

end AnchorAudit.Utf8
