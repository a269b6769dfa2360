import AnchorAudit.Proofs.Snippet

/-! The shape of snippets. A span between two lines of a text may have any columns: its snippet is cut out
of those lines, and has a line feed only where one line follows another. -/
namespace AnchorAudit.SourceLines
open Text

/-- A number in range tells a line from those before it and those after it. -/
theorem exists_line {lines : List (List Char)} {number : Int} (hfirst : 1 ≤ number)
    (hlast : number ≤ lines.length) :
    ∃ before line after, lines = before ++ line :: after ∧ number = (before.length + 1 : Nat) := by
  have hindex : (number - 1).toNat < lines.length := by omega
  have hlines : lines = lines.take (number - 1).toNat ++
      lines[(number - 1).toNat] :: lines.drop ((number - 1).toNat + 1) := by
    rw [← List.drop_eq_getElem_cons hindex, List.take_append_drop]
  have hlength : (lines.take (number - 1).toNat).length = (number - 1).toNat :=
    List.length_take_of_le (Nat.le_of_lt hindex)
  exact ⟨_, _, _, hlines, by omega⟩

theorem toList_snippet {s : SourceLines} {span : Span} (hknown : 1 ≤ span.startLine ∧ 1 ≤ span.endLine)
    (hin : span.startLine ≤ s.lines.length ∧ span.endLine ≤ s.lines.length) :
    (s.snippet span).toList = ['\n'].intercalate (s.cut span) := by
  have hpast : ¬((s.lines.length : Int) < span.startLine ∨ (s.lines.length : Int) < span.endLine) := by
    omega
  rw [snippet_of_known (Span.isKnown_iff.mpr hknown), if_neg hpast, String.toList_ofList]

section Shape
variable {text : String} {span : Span}

theorem splitOn_snippet (path : String) {before between after : List (List Char)}
    {first last : List Char}
    (hlines : splitLines text.toList = before ++ first :: (between ++ last :: after))
    (hstart : span.startLine = (before.length + 1 : Nat))
    (hend : span.endLine = (before.length + between.length + 2 : Nat)) :
    ((ofText text path).snippet span).toList.splitOn '\n' =
      first.drop (clampPosition first.length span.startColumn) :: between ++
        [last.take (clampPosition last.length span.endColumn)] := by
  have hlength : (splitLines text.toList).length = before.length + between.length + after.length + 2 := by
    simp only [hlines, List.length_append, List.length_cons]
    omega
  have hclear {line : List Char} (hline : line ∈ before ++ first :: (between ++ last :: after)) :
      '\n' ∉ line := by
    rw [← hlines] at hline
    exact newline_not_mem_of_mem_splitLines hline
  have hfirst : '\n' ∉ first := hclear (by simp)
  have hlast : '\n' ∉ last := hclear (by simp)
  have hbetween : ∀ line ∈ between, '\n' ∉ line := fun line hline => hclear (by simp [hline])
  have hquoted : ((ofText text path).snippet span).toList =
      ['\n'].intercalate ((ofText text path).cut span) :=
    toList_snippet (by omega) (by unfold ofText; dsimp only; omega)
  rw [hquoted, cut_across hlines hstart hend, cutHead_eq, cutTail_eq]
  apply List.splitOn_intercalate
  · intro piece hpiece
    rcases List.mem_append.mp hpiece with hpiece | hpiece
    · rcases List.mem_cons.mp hpiece with rfl | hpiece
      · exact fun hc => hfirst ((List.drop_suffix _ _).subset hc)
      · exact hbetween piece hpiece
    · rw [List.mem_singleton.mp hpiece]
      exact fun hc => hlast ((List.take_prefix _ _).subset hc)
  · exact List.cons_ne_nil _ _

theorem toList_snippet_within (path : String) {before after : List (List Char)} {line : List Char}
    (hlines : splitLines text.toList = before ++ line :: after)
    (hstart : span.startLine = (before.length + 1 : Nat)) (hend : 1 ≤ span.endLine)
    (hle : span.endLine ≤ span.startLine) :
    ((ofText text path).snippet span).toList = cutLine line span.startColumn span.endColumn := by
  have hlength : (splitLines text.toList).length = before.length + after.length + 1 := by
    simp only [hlines, List.length_append, List.length_cons]
    omega
  have hquoted : ((ofText text path).snippet span).toList =
      ['\n'].intercalate ((ofText text path).cut span) :=
    toList_snippet (by omega) (by unfold ofText; dsimp only; omega)
  rw [hquoted, cut_within hlines hstart hle, List.intercalate_singleton]

end Shape

theorem isInfix_cutLine (line : List Char) (a b : Int) : cutLine line a b <:+: line := by
  rw [cutLine_eq]
  exact (List.drop_suffix _ _).isInfix.trans (List.take_prefix _ _).isInfix

/-- The snippet of a span between two lines of a text. Over several lines it has one piece for each of them:
the first line from the start column on, the lines between, and the last line up to the end column. On one
line, and when the end line comes before the start line, it is a stretch of the start line. A negative column
counts from the end of its line. -/
theorem snippet_shape (text path : String) {span : Span}
    (hstart : 1 ≤ span.startLine ∧ span.startLine ≤ (splitLines text.toList).length)
    (hend : 1 ≤ span.endLine ∧ span.endLine ≤ (splitLines text.toList).length) :
    let quoted := ((ofText text path).snippet span).toList
    (span.startLine < span.endLine → ∃ before first between last after,
      splitLines text.toList = before ++ first :: (between ++ last :: after) ∧
      span.startLine = (before.length + 1 : Nat) ∧
      span.endLine = (before.length + between.length + 2 : Nat) ∧
      let opening := first.drop (clampPosition first.length span.startColumn)
      let closing := last.take (clampPosition last.length span.endColumn)
      opening <:+ first ∧ closing <+: last ∧
      quoted.splitOn '\n' = opening :: between ++ [closing] ∧
      ((quoted.splitOn '\n').length : Int) = span.endLine - span.startLine + 1) ∧
    (span.endLine ≤ span.startLine → ∃ before line after,
      splitLines text.toList = before ++ line :: after ∧
      span.startLine = (before.length + 1 : Nat) ∧
      let start := clampPosition line.length span.startColumn
      let stop := clampPosition line.length (max span.endColumn (min span.startColumn line.length))
      quoted = (line.take stop).drop start ∧ quoted <:+: line ∧ '\n' ∉ quoted) := by
  intro quoted
  constructor
  · intro hlt
    obtain ⟨front, last, after, hlines, hlast⟩ := exists_line hend.1 hend.2
    have hfront : span.startLine ≤ front.length := by omega
    obtain ⟨before, first, between, rfl, hfirst⟩ := exists_line hstart.1 hfront
    rw [List.append_assoc, List.cons_append] at hlines
    rw [List.length_append, List.length_cons] at hlast
    have hnumber : span.endLine = (before.length + between.length + 2 : Nat) := by omega
    have hpieces := splitOn_snippet path hlines hfirst hnumber
    have hcount : ((quoted.splitOn '\n').length : Int) = span.endLine - span.startLine + 1 := by
      rw [hpieces, List.length_append, List.length_cons, List.length_singleton]
      omega
    exact ⟨before, first, between, last, after, hlines, hfirst, hnumber, List.drop_suffix _ _,
      List.take_prefix _ _, hpieces, hcount⟩
  · intro hle
    obtain ⟨before, line, after, hlines, hfirst⟩ := exists_line hstart.1 hstart.2
    have hcut : quoted = cutLine line span.startColumn span.endColumn :=
      toList_snippet_within path hlines hfirst hend.1 hle
    have hinside : quoted <:+: line := hcut ▸ isInfix_cutLine line span.startColumn span.endColumn
    have hline : line ∈ splitLines text.toList := by
      rw [hlines]
      exact List.mem_append_right _ List.mem_cons_self
    have hclear : '\n' ∉ quoted := fun hc =>
      newline_not_mem_of_mem_splitLines hline (hinside.subset hc)
    exact ⟨before, line, after, hlines, hfirst, hcut.trans (cutLine_eq _ _ _), hinside, hclear⟩

/-- Columns that count from the ends of their lines, with an empty line between the two. -/
theorem snippet_shape_negative_columns :
    let text := "abc\r\n\ndéf"
    let span : Span := ⟨1, -2, 3, -1⟩
    let quoted := ((ofText text "lib.rs").snippet span).toList
    (1 ≤ span.startLine ∧ span.startLine ≤ (splitLines text.toList).length) ∧
      (1 ≤ span.endLine ∧ span.endLine ≤ (splitLines text.toList).length) ∧
      quoted = "bc\n\ndé".toList ∧ ((quoted.splitOn '\n').length : Int) = 3 := by
  intro text span quoted
  have hstart : 1 ≤ span.startLine ∧ span.startLine ≤ (splitLines text.toList).length := by decide
  have hend : 1 ≤ span.endLine ∧ span.endLine ≤ (splitLines text.toList).length := by decide
  obtain ⟨before, first, between, last, after, -, -, -, -, -, -, hcount⟩ :=
    (snippet_shape text "lib.rs" hstart hend).1 (by decide)
  exact ⟨hstart, hend, by decide +kernel, hcount⟩

end AnchorAudit.SourceLines
