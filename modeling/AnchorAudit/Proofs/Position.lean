import AnchorAudit.Proofs.Snippet
import Mathlib.Data.Prod.Lex
import Mathlib.Order.Monotone.Basic

/-! Places in a text come in the order of their offsets, and so do the locations that are reported
for them. -/
namespace AnchorAudit
open Text

/-- The place in the lexicographic order: lines count first, and columns within a line. -/
def Position.lex (p : Position) : ℕ ×ₗ ℕ := toLex (p.line, p.column)

/-- An offset further on is a place further on. -/
theorem Source.strictMonoOn_position (text : String) :
    StrictMonoOn (fun offset => ((ofText text).position offset).lex)
      {offset | Utf8.IsBoundary text.toList offset} := by
  intro a ha b hb hlt
  obtain ⟨front, mid, rest, h, rfl, rfl⟩ := Utf8.IsBoundary.cut ha hb hlt.le
  have hstart := position_front (h.trans (List.append_assoc front mid rest))
  have hstop := position_front h
  dsimp only
  rw [hstart, hstop, Position.lex, Position.lex, Prod.Lex.toLex_lt_toLex]
  dsimp only
  by_cases hmid : '\n' ∈ mid
  · left
    have hcount := List.count_pos_iff.mpr hmid
    rw [List.count_append]
    omega
  · right
    have hne : mid ≠ [] := by
      intro hnil
      rw [hnil, List.append_nil] at hlt
      exact hlt.false
    have hlength := List.length_pos_iff.mpr hne
    rw [List.count_append, List.count_eq_zero.mpr hmid, begun_append hmid, List.length_append]
    exact ⟨rfl, Nat.lt_add_of_pos_right hlength⟩

namespace Location

def start? (l : Location) : Option (ℤ ×ₗ ℤ) := l.column.map fun column => toLex (l.line, column)

def stop? (l : Location) : Option (ℤ ×ₗ ℤ) :=
  l.endLine.bind fun line => l.endColumn.map fun column => toLex (line, column)

/-- The first location begins before the second, and ends where that one begins or before. -/
def Precedes (l m : Location) : Prop :=
  ∃ start stop next, l.start? = some start ∧ l.stop? = some stop ∧ m.start? = some next ∧
    start < next ∧ stop ≤ next

theorem Precedes.ne {l m : Location} (h : l.Precedes m) : l ≠ m := by
  obtain ⟨start, stop, next, hl, -, hm, hlt, -⟩ := h
  intro heq
  rw [← heq, hl] at hm
  exact hlt.ne (Option.some.inj hm)

end Location

namespace SourceLines
variable (s : SourceLines) (source : Source) (n : Node)

theorem location_ofNode : s.location (.ofNode source n) =
    { file := s.path
      line := (source.position n.label.start).line
      column := some ((source.position n.label.start).column + 1)
      endLine := some (source.position n.label.stop).line
      endColumn := some ((source.position n.label.stop).column + 1) } := by
  have hstart : 0 < (Span.ofNode source n).startLine := Int.natCast_pos.mpr (Nat.succ_pos _)
  unfold location
  rw [if_pos hstart]
  rfl

end SourceLines

/-- The order does not depend on the number from which columns count: zero in a place and in a span, one
in a location. -/
theorem Position.toLex_cast_lt (first : ℤ) {p q : Position} (h : p.lex < q.lex) :
    (toLex ((p.line : ℤ), (p.column : ℤ) + first) : ℤ ×ₗ ℤ) <
      toLex ((q.line : ℤ), (q.column : ℤ) + first) := by
  unfold lex at h
  rw [Prod.Lex.toLex_lt_toLex] at h ⊢
  dsimp only at h ⊢
  omega

/-- Of two nodes that cover text, one after the other, the first is located before the second. -/
theorem SourceLines.location_precedes (s : SourceLines) {text : String} {m n : Node}
    (hm : m.label.start < m.label.stop) (hmn : m.label.stop ≤ n.label.start)
    (hmstart : Utf8.IsBoundary text.toList m.label.start)
    (hmstop : Utf8.IsBoundary text.toList m.label.stop)
    (hnstart : Utf8.IsBoundary text.toList n.label.start) :
    (s.location (.ofNode (.ofText text) m)).Precedes (s.location (.ofNode (.ofText text) n)) := by
  have hmono := Source.strictMonoOn_position text
  have hstart := hmono hmstart hnstart (Nat.lt_of_lt_of_le hm hmn)
  rw [location_ofNode, location_ofNode]
  refine ⟨_, _, _, rfl, rfl, rfl, Position.toLex_cast_lt 1 hstart, ?_⟩
  obtain heq | hlt := hmn.eq_or_lt
  · rw [heq]
  · exact (Position.toLex_cast_lt 1 (hmono hmstop hnstart hlt)).le

end AnchorAudit
