import AnchorAudit.Utf8
import AnchorAudit.Node

/-! Source texts, addressed by octets. -/
namespace AnchorAudit

structure Source where
  bytes : List UInt8
  deriving DecidableEq

/-- A place in a text. Lines count from one, columns count characters from zero. -/
structure Position where
  line : Nat
  column : Nat
  deriving DecidableEq

namespace Source

def ofText (text : String) : Source := ⟨Utf8.encode text.toList⟩

/-- The text of the source. What is not UTF-8 shows as the replacement character. -/
def text (s : Source) : String := .ofList (Utf8.decode s.bytes)

def between (s : Source) (start stop : Nat) : String :=
  .ofList (Utf8.decode ((s.bytes.take stop).drop start))

def textOf (s : Source) (n : Node) : String := s.between n.label.start n.label.stop

def lastLine (bytes : List UInt8) : List UInt8 :=
  (bytes.reverse.takeWhile (· != 10)).reverse

/-- The place of an octet offset: one line for each line feed before it, one column for each
character between it and the last of them. -/
def position (s : Source) (offset : Nat) : Position where
  line := (s.bytes.take offset).count 10 + 1
  column := (Utf8.decode (lastLine (s.bytes.take offset))).length

end Source

end AnchorAudit
