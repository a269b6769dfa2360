import AnchorAudit.Proofs.Position
import Mathlib.Order.Hom.Basic

/-! Spans are ordered like the stretches of octets that they stand for. The offsets between the
characters of a text are embedded into its lines and columns, so a span gives away the octets that it
was made from, and a part of a stretch gets a part of its span. -/
namespace AnchorAudit
open Text

namespace Span

/-- Where a span starts. Lines count first, and columns within a line. -/
def start (s : Span) : ℤ ×ₗ ℤ := toLex (s.startLine, s.startColumn)

def stop (s : Span) : ℤ ×ₗ ℤ := toLex (s.endLine, s.endColumn)

/-- The first span starts where the second does or later, and ends where it does or earlier. -/
def Within (inner outer : Span) : Prop := outer.start ≤ inner.start ∧ inner.stop ≤ outer.stop

theorem eq_iff_ends {s t : Span} : s = t ↔ s.start = t.start ∧ s.stop = t.stop := by
  cases s with
  | mk startLine startColumn endLine endColumn =>
    cases t with
    | mk startLine' startColumn' endLine' endColumn' =>
      simp only [start, stop, toLex_inj, Prod.mk.injEq, mk.injEq, and_assoc]

end Span

/-- A node that begins and ends between two characters of a text. -/
structure Node.Aligned (text : List Char) (n : Node) : Prop where
  start : Utf8.IsBoundary text n.label.start
  stop : Utf8.IsBoundary text n.label.stop

def Position.signed (p : Position) : ℤ ×ₗ ℤ := toLex ((p.line : ℤ), (p.column : ℤ))

namespace Source
variable (text : String)

theorem exists_embedding :
    ∃ place : {offset // Utf8.IsBoundary text.toList offset} ↪o ℤ ×ₗ ℤ,
      ∀ offset, place offset = ((ofText text).position offset).signed := by
  have hmono : StrictMono fun offset : {offset // Utf8.IsBoundary text.toList offset} =>
      ((ofText text).position offset).signed := by
    intro a b hlt
    have hpositions := strictMonoOn_position text a.property b.property hlt
    have hcast := Position.toLex_cast_lt 0 hpositions
    simp only [Int.add_zero] at hcast
    exact hcast
  exact ⟨OrderEmbedding.ofStrictMono _ hmono, fun _ => rfl⟩

/-- Lines are counted by the line feeds before the offset, and columns by the characters since the
last of them. -/
theorem signed_position {front : List Char} (h : front <+: text.toList) :
    ((ofText text).position (Utf8.encode front).length).signed =
      toLex ((front.count '\n' : ℤ) + 1, ((begun front).length : ℤ)) := by
  obtain ⟨rest, hrest⟩ := h
  rw [position_front hrest.symm]
  rfl

end Source

/-- The offsets between characters are embedded, in their order, into lines and columns, and the span
of a node that begins and ends at such offsets is made of their images. So nodes that cover different
stretches have different spans, and one node covers a part of another exactly when its span lies in the
span of the other. -/
theorem Span.ofNode_orderEmbedding (text : String) :
    ∃ place : {offset // Utf8.IsBoundary text.toList offset} ↪o ℤ ×ₗ ℤ,
      (∀ front (h : front <+: text.toList),
        place ⟨(Utf8.encode front).length, front, h, rfl⟩ =
          toLex ((front.count '\n' : ℤ) + 1, ((begun front).length : ℤ))) ∧
      (∀ n (hn : n.Aligned text.toList),
        (ofNode (.ofText text) n).start = place ⟨n.label.start, hn.start⟩ ∧
        (ofNode (.ofText text) n).stop = place ⟨n.label.stop, hn.stop⟩) ∧
      ∀ m n : Node, m.Aligned text.toList → n.Aligned text.toList →
        (ofNode (.ofText text) m = ofNode (.ofText text) n ↔
          m.label.start = n.label.start ∧ m.label.stop = n.label.stop) ∧
        ((ofNode (.ofText text) m).Within (ofNode (.ofText text) n) ↔
          n.label.start ≤ m.label.start ∧ m.label.stop ≤ n.label.stop) := by
  obtain ⟨place, hplace⟩ := Source.exists_embedding text
  have hends (n : Node) (hn : n.Aligned text.toList) :
      (ofNode (.ofText text) n).start = place ⟨n.label.start, hn.start⟩ ∧
        (ofNode (.ofText text) n).stop = place ⟨n.label.stop, hn.stop⟩ := by
    rw [hplace, hplace]
    exact ⟨rfl, rfl⟩
  refine ⟨place, ?_, hends, ?_⟩
  · intro front h
    rw [hplace, Source.signed_position text h]
  · intro m n hm hn
    obtain ⟨hmstart, hmstop⟩ := hends m hm
    obtain ⟨hnstart, hnstop⟩ := hends n hn
    constructor
    · rw [eq_iff_ends, hmstart, hmstop, hnstart, hnstop, place.eq_iff_eq, place.eq_iff_eq,
        Subtype.mk.injEq, Subtype.mk.injEq]
    · rw [Within, hmstart, hmstop, hnstart, hnstop, place.le_iff_le, place.le_iff_le,
        Subtype.mk_le_mk, Subtype.mk_le_mk]

/-- A letter of four octets on the second line of a text, and the line in which it stands: the letter
takes one column. -/
theorem Span.ofNode_orderEmbedding_two_lines :
    let text := "é\r\n(😀)"
    let letter : Node := .mk ⟨"identifier", true, false, false, none, 5, 9⟩ []
    let line : Node := .mk ⟨"call_expression", true, false, false, none, 4, 10⟩ [letter]
    letter.Aligned text.toList ∧ line.Aligned text.toList ∧
      (ofNode (.ofText text) letter).Within (ofNode (.ofText text) line) ∧
      ofNode (.ofText text) letter ≠ ofNode (.ofText text) line ∧
      ofNode (.ofText text) letter = ⟨2, 1, 2, 2⟩ := by
  intro text letter line
  have hletter : letter.Aligned text.toList :=
    ⟨⟨['é', '\r', '\n', '('], by decide, by decide⟩, ⟨['é', '\r', '\n', '(', '😀'], by decide, by decide⟩⟩
  have hline : line.Aligned text.toList :=
    ⟨⟨['é', '\r', '\n'], by decide, by decide⟩, ⟨['é', '\r', '\n', '(', '😀', ')'], by decide, by decide⟩⟩
  obtain ⟨place, hplace, hends, hnodes⟩ := Span.ofNode_orderEmbedding text
  obtain ⟨heq, hwithin⟩ := hnodes letter line hletter hline
  refine ⟨hletter, hline, hwithin.mpr (by decide), ?_, ?_⟩
  · intro hsame
    exact absurd (heq.mp hsame) (by decide)
  · obtain ⟨hstart, hstop⟩ := hends letter hletter
    rw [eq_iff_ends, hstart, hstop]
    exact ⟨hplace ['é', '\r', '\n', '('] (by decide), hplace ['é', '\r', '\n', '(', '😀'] (by decide)⟩

end AnchorAudit
