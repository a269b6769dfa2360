import AnchorAudit.Proofs.Decimal
import AnchorAudit.SourceLines
import Mathlib.Tactic.SplitIfs

/-! The texts of locations. The end of a span is left out where it says nothing new, and still no two
spans of a file share a text. -/
namespace AnchorAudit
open Text

namespace Span

/-- Lines count from one and columns from zero. -/
structure Counted (s : Span) : Prop where
  startLine : 1 ≤ s.startLine
  startColumn : 0 ≤ s.startColumn
  endLine : 1 ≤ s.endLine
  endColumn : 0 ≤ s.endColumn

def marks (s : Span) : List (Char × Nat) :=
  (':', s.startLine.toNat) :: (':', (s.startColumn + 1).toNat) ::
    if s.endLine ≠ s.startLine then [('-', s.endLine.toNat), (':', (s.endColumn + 1).toNat)]
    else if s.endColumn ≠ s.startColumn then [('-', (s.endColumn + 1).toNat)]
    else []

theorem isDigit_eq_false_of_mem_marks (s : Span) : ∀ mark ∈ s.marks, mark.1.isDigit = false := by
  unfold marks
  split_ifs <;> simp

/-- How many numbers there are tells what was left out. -/
theorem Counted.eq_of_marks {s t : Span} (hs : s.Counted) (ht : t.Counted) (h : s.marks = t.marks) :
    s = t := by
  obtain ⟨hs₁, hs₂, hs₃, hs₄⟩ := hs
  obtain ⟨ht₁, ht₂, ht₃, ht₄⟩ := ht
  have hfields : s.startLine = t.startLine ∧ s.startColumn = t.startColumn ∧
      s.endLine = t.endLine ∧ s.endColumn = t.endColumn := by
    unfold marks at h
    split_ifs at h <;>
      simp only [List.cons.injEq, Prod.mk.injEq, reduceCtorEq, and_false, true_and, and_true] at h <;>
      omega
  cases s
  cases t
  simpa only [mk.injEq] using hfields

end Span

theorem Location.toList_render_fallback (path : String) :
    (fallback path).render.toList = path.toList ++ signed [(':', 1)] := by
  have hline : (toString (1 : Int)).toList = Nat.toDigits 10 1 := toList_toString_of_nonneg (by decide)
  unfold fallback render
  rw [String.toList_append, String.toList_append, hline, List.append_assoc]
  rfl

namespace SourceLines

theorem toList_render_location (lines : SourceLines) {s : Span} (hs : s.Counted) :
    (lines.location s).render.toList = lines.path.toList ++ signed s.marks := by
  obtain ⟨hstartLine, hstartColumn, hendLine, hendColumn⟩ := hs
  have hlocation : lines.location s = ⟨lines.path, s.startLine, some (s.startColumn + 1),
      some s.endLine, some (s.endColumn + 1)⟩ := if_pos hstartLine
  have hcolumns : s.endColumn + 1 ≠ s.startColumn + 1 ↔ s.endColumn ≠ s.startColumn := by omega
  have hcolon : ":".toList = [':'] := rfl
  have hdash : "-".toList = ['-'] := rfl
  rw [hlocation]
  unfold Location.render Span.marks
  simp only [hcolumns]
  split_ifs <;>
    simp (disch := omega) only [String.toList_append, toList_toString_of_nonneg, hcolon, hdash, signed_cons,
      signed_nil, List.append_assoc, List.cons_append, List.nil_append, List.append_nil]

/-- Within a file the text of a location tells the span, and it is never the text of an unknown place. -/
theorem render_location_eq_iff (lines : SourceLines) {s t : Span} (hs : s.Counted) (ht : t.Counted) :
    ((lines.location s).render = (lines.location t).render ↔ s = t) ∧
      (lines.location s).render ≠ (Location.fallback lines.path).render ∧
      (lines.location t).render ≠ (Location.fallback lines.path).render := by
  have hfallback {u : Span} (hu : u.Counted) :
      (lines.location u).render ≠ (Location.fallback lines.path).render := by
    intro h
    have htexts := congrArg String.toList h
    rw [toList_render_location lines hu, Location.toList_render_fallback] at htexts
    have hmarks : u.marks = [(':', 1)] :=
      signed_injective u.isDigit_eq_false_of_mem_marks (by decide) (List.append_cancel_left htexts)
    exact List.cons_ne_nil _ _ (List.cons.inj hmarks).2
  refine ⟨⟨?_, fun h => h ▸ rfl⟩, hfallback hs, hfallback ht⟩
  intro h
  have htexts := congrArg String.toList h
  rw [toList_render_location lines hs, toList_render_location lines ht] at htexts
  have hmarks : s.marks = t.marks :=
    signed_injective s.isDigit_eq_false_of_mem_marks t.isDigit_eq_false_of_mem_marks
      (List.append_cancel_left htexts)
  exact hs.eq_of_marks ht hmarks

/-- A path that looks like a location, and two spans whose texts go the same way for five characters. -/
theorem render_location_eq_iff_prolonged :
    let lines : SourceLines := ⟨"a:1:2-3", []⟩
    let s : Span := ⟨1, 1, 1, 2⟩
    let t : Span := ⟨1, 1, 3, 0⟩
    s.Counted ∧ t.Counted ∧ (lines.location s).render = "a:1:2-3:1:2-3" ∧
      (lines.location t).render = "a:1:2-3:1:2-3:1" ∧
      (lines.location s).render ≠ (lines.location t).render ∧
      (lines.location s).render ≠ (Location.fallback lines.path).render := by
  intro lines s t
  have hs : s.Counted := ⟨by decide, by decide, by decide, by decide⟩
  have ht : t.Counted := ⟨by decide, by decide, by decide, by decide⟩
  obtain ⟨hsame, hunknown, -⟩ := render_location_eq_iff lines hs ht
  have hne : s ≠ t := by decide
  exact ⟨hs, ht, by decide +kernel, by decide +kernel, mt hsame.mp hne, hunknown⟩

end SourceLines

end AnchorAudit
