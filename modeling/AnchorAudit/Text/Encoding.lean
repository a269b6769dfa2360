import AnchorAudit.Utf8

/-! The encoding forms of Unicode, and which of them some octets are in. -/
namespace AnchorAudit.Text

def isHighSurrogate (n : Nat) : Bool := 0xD800 ≤ n && n ≤ 0xDBFF

def isLowSurrogate (n : Nat) : Bool := 0xDC00 ≤ n && n ≤ 0xDFFF

/-- A code point: a character, or a surrogate that belongs to none. -/
inductive Point where
  | char (c : Char)
  | surrogate (offset : Fin 2048)
  deriving DecidableEq

namespace Point

def isChar : Point → Bool
  | .char _ => true
  | .surrogate _ => false

def is (test : Char → Bool) : Point → Bool
  | .char c => test c
  | .surrogate _ => false

def code : Point → Nat
  | .char c => c.toNat
  | .surrogate offset => 0xD800 + offset

/-- The point of a code unit that stands alone. -/
def ofUnit (n : Nat) : Point :=
  if h : 0xD800 ≤ n ∧ n < 0xE000 then .surrogate ⟨n - 0xD800, by omega⟩ else .char (Char.ofNat n)

/-- The point of a pair of surrogates. -/
def ofPair (high low : Nat) : Point :=
  .char (Char.ofNat (0x10000 + (high - 0xD800) * 1024 + (low - 0xDC00)))

def shown : Point → Char
  | .char c => c
  | .surrogate _ => Utf8.replacement

end Point

/-- A string that may hold surrogates on their own, and so need not be a text. -/
abbrev Points := List Point

/-- Surrogates that have no octets, and the number of points before them. -/
structure EncodeError where
  position : Nat
  covered : List Nat
  deriving DecidableEq

def EncodeError.message (e : EncodeError) : String :=
  let place := match e.covered with
    | [n] => "character '\\u" ++ .ofList (hex 4 n) ++ "' in position " ++ toString e.position
    | ns => "characters in position " ++ toString e.position ++ "-" ++
      toString (e.position + ns.length - 1)
  "'utf-8' codec can't encode " ++ place ++ ": surrogates not allowed"

namespace Points

def ofString (s : String) : Points := s.toList.map .char

instance : Coe String Points := ⟨ofString⟩

def isText (ps : Points) : Bool := ps.all Point.isChar

/-- The text that the points are. A surrogate is shown by the replacement character. -/
def text (ps : Points) : String := .ofList (ps.map Point.shown)

def text? (ps : Points) : Option String := if ps.isText then some ps.text else none

/-- Why the points have no octets, if so. -/
def encodeError? (ps : Points) : Option EncodeError :=
  (ps.findIdx? (!·.isChar)).map fun i =>
    ⟨i, ((ps.drop i).takeWhile (!·.isChar)).map Point.code⟩

end Points

def ofUnits : List Nat → Points
  | [] => []
  | [u] => [.ofUnit u]
  | u :: v :: rest =>
    if isHighSurrogate u && isLowSurrogate v then .ofPair u v :: ofUnits rest
    else .ofUnit u :: ofUnits (v :: rest)

/-- Which octet of a code unit comes first. -/
inductive ByteOrder where
  | highFirst
  | lowFirst
  deriving DecidableEq

inductive Encoding where
  | utf8
  | utf16 (order : ByteOrder)
  | utf32 (order : ByteOrder)
  deriving DecidableEq

def ByteOrder.value (order : ByteOrder) (bytes : List UInt8) : Nat :=
  let highFirst := match order with
    | .highFirst => bytes
    | .lowFirst => bytes.reverse
  highFirst.foldl (fun n b => n * 256 + b.toNat) 0

/-- The units of sixteen bits that octets denote. There is no half of one. -/
def units16? (order : ByteOrder) : List UInt8 → Option (List Nat)
  | [] => some []
  | a :: b :: rest => (units16? order rest).map (order.value [a, b] :: ·)
  | _ => none

/-- The units of thirty-two bits that octets denote. There is no part of one. -/
def units32? (order : ByteOrder) : List UInt8 → Option (List Nat)
  | [] => some []
  | a :: b :: c :: d :: rest => (units32? order rest).map (order.value [a, b, c, d] :: ·)
  | _ => none

namespace Encoding

/-- The encoding of a text that begins with characters of ASCII. It shows in the zeros among the
first octets. -/
def detect : List UInt8 → Encoding
  | [a, b] => if a = 0 then .utf16 .highFirst else if b = 0 then .utf16 .lowFirst else .utf8
  | a :: b :: c :: d :: _ =>
    if a = 0 then if b = 0 then .utf32 .highFirst else .utf16 .highFirst
    else if b = 0 then if c = 0 ∧ d = 0 then .utf32 .lowFirst else .utf16 .lowFirst
    else .utf8
  | _ => .utf8

/-- The points of some octets, if they are the form of any. -/
def decode? (e : Encoding) (bytes : List UInt8) : Option Points :=
  match e with
  | .utf8 => (Utf8.decode? bytes).toOption.map (·.map .char)
  | .utf16 order => (units16? order bytes).map ofUnits
  | .utf32 order =>
    (units32? order bytes).bind fun us =>
      if us.all (· ≤ 0x10FFFF) then some (us.map .ofUnit) else none

end Encoding

def dropMark : List Char → List Char
  | '\uFEFF' :: cs => cs
  | cs => cs

end AnchorAudit.Text
