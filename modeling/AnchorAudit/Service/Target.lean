import AnchorAudit.Numeral
import AnchorAudit.Path
import AnchorAudit.Utf8

/-! The targets of requests: the path that a text refers to, seen from the root of the service. -/
namespace AnchorAudit.Service

inductive TargetError where
  | controlCharacter (c : Char) (position : Nat)
  | doubledSlash
  deriving DecidableEq

def TargetError.message : TargetError → String
  | .controlCharacter c position =>
    "Invalid non-printable ASCII character in URL, " ++ Text.quoted c.toString ++ " at position " ++
      toString position ++ "."
  | .doubledSlash => "Relative URLs cannot have a path starting with '//'"

def isControl (c : Char) : Bool := c.toNat < 0x20 || c.toNat == 0x7F

def beforeQuery (cs : List Char) : List Char := cs.takeWhile fun c => c != '?' && c != '#'

/-- A text without the name of a host at its front, and whether it names one. -/
def dropHost : List Char → Bool × List Char
  | '/' :: '/' :: cs =>
    (!(cs.takeWhile (!Path.isSlash ·)).isEmpty, cs.dropWhile (!Path.isSlash ·))
  | cs => (false, cs)

/-- The segments that are left when dots are followed. Two dots take the segment before them away,
except for the empty one at the front. -/
def followDots (kept : List (List Char)) : List (List Char) → List (List Char)
  | [] => kept
  | segment :: rest =>
    if segment = ['.'] then followDots kept rest
    else if segment = ['.', '.'] then followDots (if kept = [[]] then kept else kept.dropLast) rest
    else followDots (kept ++ [segment]) rest

def withoutDots (cs : List Char) : List Char :=
  ['/'].intercalate (followDots [] (Text.pieces Path.isSlash cs))

/-- The octet of two hexadecimal digits after a percent sign. -/
def percentOctet? (a b : UInt8) : Option UInt8 :=
  let digit := fun (x : UInt8) =>
    if x.toNat < 0x80 then Numeral.digit? 16 (Char.ofNat x.toNat) else none
  match digit a, digit b with
  | some high, some low => some (.ofNat (high * 16 + low))
  | _, _ => none

/-- Octets in which each percent sign with two digits is replaced by the octet that it stands for. -/
def percentDecode : List UInt8 → List UInt8
  | [] => []
  | [a] => [a]
  | [a, b] => [a, b]
  | p :: a :: b :: rest =>
    if p = 0x25 then match percentOctet? a b with
      | some octet => octet :: percentDecode rest
      | none => p :: percentDecode (a :: b :: rest)
    else p :: percentDecode (a :: b :: rest)

def unquote (cs : List Char) : List Char := Utf8.decode (percentDecode (Utf8.encode cs))

/-- The path that a text refers to. Percent signs are decoded on the way to the service and once
more when they arrive. -/
def targetPath (text : String) : Except TargetError String :=
  let cs := text.toList
  match cs.findIdx? isControl with
  | some position => .error (.controlCharacter (cs.getD position ' ') position)
  | none =>
    let (named, path) := dropHost (beforeQuery cs)
    if !named && ['/', '/'].isPrefixOf path then .error .doubledSlash
    else
      let absolute := '/' :: path.dropWhile Path.isSlash
      .ok (.ofList (unquote (unquote (withoutDots absolute))))

end AnchorAudit.Service
