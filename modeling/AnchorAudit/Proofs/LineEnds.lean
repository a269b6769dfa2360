import AnchorAudit.Proofs.Lines

/-! The lines of a text put together again. What splitting a text into lines takes from it are its line
feeds, which come back between the lines, and the carriage returns that stand at the end of a line. -/
namespace AnchorAudit.Text

/-- There is a carriage return at the index, and a line feed or the end of the text comes right after
it. -/
def LineEndReturn (cs : List Char) (i : Nat) : Prop :=
  cs[i]? = some '\r' ∧ (cs[i + 1]? = some '\n' ∨ i + 1 = cs.length)

instance (cs : List Char) (i : Nat) : Decidable (LineEndReturn cs i) :=
  inferInstanceAs (Decidable (_ ∧ _))

/-- The characters at all indices but those of the carriage returns at line ends. -/
def withoutReturns (cs : List Char) : List Char :=
  (cs.zipIdx.filter fun p => ¬LineEndReturn cs p.2).map Prod.fst

theorem endsLine_iff {rest : List Char} :
    endsLine rest = true ↔ rest[0]? = some '\n' ∨ rest.length = 0 := by
  cases rest with
  | nil => simp [endsLine]
  | cons c rest => simp [endsLine, isNewline]

/-- Whether a return goes can be told from what follows it. -/
theorem lineEndReturn_append {front rest : List Char} {c : Char} :
    LineEndReturn (front ++ c :: rest) front.length ↔ c = '\r' ∧ endsLine rest = true := by
  have hhere : (front ++ c :: rest)[front.length]? = some c := by
    rw [List.getElem?_append_right (Nat.le_refl _), Nat.sub_self]
    rfl
  have hnext : (front ++ c :: rest)[front.length + 1]? = rest[0]? := by
    rw [List.getElem?_append_right (Nat.le_add_right _ _), Nat.add_sub_cancel_left]
    rfl
  have hend : front.length + 1 = (front ++ c :: rest).length ↔ rest.length = 0 := by
    rw [List.length_append, List.length_cons]
    omega
  rw [LineEndReturn, hhere, hnext, hend, endsLine_iff, Option.some.injEq]

theorem withoutReturns_eq (cs : List Char) : withoutReturns cs = dropReturns [] cs := by
  have hback (front back : List Char) (hcs : cs = front ++ back) :
      ((back.zipIdx front.length).filter fun p => ¬LineEndReturn cs p.2).map Prod.fst =
        dropReturns [] back := by
    induction back generalizing front with
    | nil => rfl
    | cons c back ih =>
      have hrest := ih (front ++ [c]) (by rw [hcs, List.append_assoc]; rfl)
      rw [List.length_append, List.length_singleton] at hrest
      have hgoes : LineEndReturn cs front.length ↔ c = '\r' ∧ endsLine (back ++ []) = true := by
        rw [hcs, List.append_nil]
        exact lineEndReturn_append
      rw [List.zipIdx_cons, List.filter_cons, dropReturns]
      simp only [hgoes, decide_not, Bool.not_eq_true', decide_eq_false_iff_not] at hrest ⊢
      split_ifs with hc
      · exact hrest
      · rw [List.map_cons, hrest]
  exact hback [] cs rfl

theorem intercalate_concat_nil {lines : List (List Char)} (h : lines ≠ []) :
    ['\n'].intercalate (lines ++ [[]]) = ['\n'].intercalate lines ++ ['\n'] := by
  cases lines with
  | nil => exact absurd rfl h
  | cons line lines =>
    rw [List.cons_append, intercalate_cons_eq, intercalate_cons_eq, List.flatMap_append,
      List.append_assoc]
    rfl

/-- Splitting undone: the line feeds are put back between the lines, and behind the last one if the text
ends with one. -/
theorem intercalate_splitLines (cs : List Char) :
    ['\n'].intercalate (splitLines cs) ++ (if cs.getLast? = some '\n' then ['\n'] else []) =
      dropReturns [] cs := by
  have hjoin := intercalate_completed [] cs
  rw [splitLines_eq]
  split_ifs with hlast
  · have hne : (completed cs).map dropReturn ≠ [] := by
      have hcount := List.count_pos_iff.mpr (List.mem_of_getLast? hlast)
      rw [← length_completed, ← List.length_map dropReturn] at hcount
      exact List.ne_nil_of_length_pos hcount
    rw [begun_eq_nil hlast, dropReturns, intercalate_concat_nil hne] at hjoin
    rw [List.append_nil]
    exact hjoin
  · have hend : endsLine [] = true := rfl
    rw [dropReturns_of_not_mem (newline_not_mem_begun cs), if_pos hend] at hjoin
    rw [List.append_nil, List.map_append]
    exact hjoin

/-- The lines of a text are free of line feeds, there is one for each line feed of the text and one for
what follows the last of them, if anything does, and put together again they give the text without the
carriage returns at its line ends. -/
theorem splitLines_restores (cs : List Char) :
    (∀ line ∈ splitLines cs, '\n' ∉ line) ∧
      (splitLines cs).length = cs.count '\n' + 1 - (if cs.getLast? = some '\n' then 1 else 0) ∧
      ['\n'].intercalate (splitLines cs) ++ (if cs.getLast? = some '\n' then ['\n'] else []) =
        withoutReturns cs := by
  refine ⟨fun line hline => newline_not_mem_of_mem_splitLines hline, ?_, ?_⟩
  · rw [length_splitLines]
    split_ifs <;> rfl
  · rw [withoutReturns_eq, intercalate_splitLines]

/-- Of two returns before a line feed only the second goes, a return inside a line stays, and one behind
the last line feed leaves an empty line. -/
theorem splitLines_restores_returns :
    let cs := "a\r\r\n\rb\n\r".toList
    splitLines cs = ["a\r".toList, "\rb".toList, []] ∧ '\n' ∉ "\rb".toList ∧
      cs.count '\n' + 1 = 3 ∧ ['\n'].intercalate (splitLines cs) = "a\r\n\rb\n".toList := by
  intro cs
  have hlines : splitLines cs = ["a\r".toList, "\rb".toList, []] := by decide
  obtain ⟨hfree, hlength, hrestored⟩ := splitLines_restores cs
  rw [if_neg (by decide)] at hlength hrestored
  refine ⟨hlines, hfree _ ?_, ?_, ?_⟩
  · rw [hlines]
    decide
  · rw [← Nat.sub_zero (cs.count '\n' + 1), ← hlength, hlines]
    rfl
  · rw [List.append_nil] at hrestored
    rw [hrestored]
    decide

end AnchorAudit.Text
