import AnchorAudit.Source

/-! Stretches of a text by line and column. -/
namespace AnchorAudit

/-- Lines count from one and columns from zero. A start line of zero means that the position is
not known. Spans from outside may hold any integers. -/
structure Span where
  startLine : Int
  startColumn : Int
  endLine : Int
  endColumn : Int
  deriving DecidableEq

namespace Span

def unknown : Span := ⟨0, 0, 0, 0⟩

def isKnown (s : Span) : Bool := 0 < s.startLine && 0 < s.endLine

def between (source : Source) (start stop : Nat) : Span :=
  let p := source.position start
  let q := source.position stop
  ⟨p.line, p.column, q.line, q.column⟩

def ofNode (source : Source) (n : Node) : Span := between source n.label.start n.label.stop

end Span

end AnchorAudit
