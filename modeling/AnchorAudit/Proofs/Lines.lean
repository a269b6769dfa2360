import AnchorAudit.Text.Blank
import Mathlib.Tactic.SplitIfs

/-! Pieces between separators, and lines, which are the pieces between line feeds. Every text is a last
line without line feeds, or a line, its line feed and a text after it; facts about lines go by
induction along this form. -/
namespace AnchorAudit.Text

theorem pieces_eq_splitOnP (isSep : Char → Bool) (cs : List Char) :
    pieces isSep cs = cs.splitOnP isSep := by
  induction cs with
  | nil => simp [pieces]
  | cons c cs ih =>
    rw [pieces, List.splitOnP_cons_eq_if_modifyHead, ih]
    split_ifs
    · rfl
    · cases h : cs.splitOnP isSep with
      | nil => exact absurd h (List.splitOnP_ne_nil isSep cs)
      | cons p ps => rfl

section Pieces
variable {isSep : Char → Bool}

theorem pieces_of_forall {x : List Char} (hx : ∀ c ∈ x, isSep c = false) : pieces isSep x = [x] := by
  rw [pieces_eq_splitOnP, List.splitOnP_eq_singleton hx]

theorem pieces_append_cons {c : Char} (hc : isSep c = true) (x y : List Char) :
    pieces isSep (x ++ c :: y) = pieces isSep x ++ pieces isSep y := by
  simp only [pieces_eq_splitOnP, List.splitOnP_append_cons x y hc]

/-- Every text is a last piece, or a piece, the separator behind it and a text after that. -/
@[elab_as_elim]
theorem pieceInduction (isSep : Char → Bool) {motive : List Char → Prop}
    (last : ∀ x, (∀ c ∈ x, isSep c = false) → motive x)
    (piece : ∀ x c y, (∀ d ∈ x, isSep d = false) → isSep c = true → motive y → motive (x ++ c :: y))
    (cs : List Char) : motive cs := by
  induction h : cs.length using Nat.strongRecOn generalizing cs with
  | ind n ih =>
    cases hfind : cs.find? isSep with
    | none => exact last cs (by simpa using hfind)
    | some c =>
      obtain ⟨hc, x, y, rfl, hx⟩ := List.find?_eq_some_iff_append.mp hfind
      refine piece x c y (by simpa using hx) hc (ih y.length ?_ y rfl)
      rw [← h, List.length_append, List.length_cons]
      omega

theorem isSep_of_mem_pieces {cs piece : List Char} (hpiece : piece ∈ pieces isSep cs) :
    ∀ c ∈ piece, isSep c = false := by
  induction cs using pieceInduction isSep with
  | last x hx =>
    rw [pieces_of_forall hx, List.mem_singleton] at hpiece
    rwa [hpiece]
  | piece x c y hx hc ih =>
    rw [pieces_append_cons hc, pieces_of_forall hx, List.singleton_append, List.mem_cons] at hpiece
    rcases hpiece with rfl | hpiece
    · exact hx
    · exact ih hpiece

end Pieces

/-- A run of characters of one kind ends where another character follows. -/
theorem run_append {isKind : Char → Bool} {run after : List Char} (hrun : ∀ c ∈ run, isKind c = true)
    (hafter : after.head?.all (!isKind ·) = true) :
    (run ++ after).takeWhile isKind = run ∧ (run ++ after).dropWhile isKind = after := by
  rw [List.takeWhile_append_of_pos hrun, List.dropWhile_append_of_pos hrun]
  cases after with
  | nil => exact ⟨List.append_nil run, rfl⟩
  | cons c after =>
    have hc : ¬isKind c = true := by simpa using hafter
    rw [List.takeWhile_cons_of_neg hc, List.dropWhile_cons_of_neg hc, List.append_nil]
    exact ⟨rfl, rfl⟩

/-- Texts with a separator between them: all but the first have it in front of them. -/
theorem intercalate_cons_eq (sep : Char) (x : List Char) (xs : List (List Char)) :
    [sep].intercalate (x :: xs) = x ++ xs.flatMap (sep :: ·) := by
  induction xs generalizing x with
  | nil => rw [List.intercalate_singleton, List.flatMap_nil, List.append_nil]
  | cons y xs ih =>
    rw [List.intercalate_cons_cons, ih, List.flatMap_cons, List.append_assoc]
    rfl

theorem forall_isNewline_iff {x : List Char} : (∀ c ∈ x, isNewline c = false) ↔ '\n' ∉ x := by
  constructor
  · intro h hmem
    exact absurd (h '\n' hmem) (by decide)
  · intro h c hc
    exact beq_eq_false_iff_ne.mpr fun he => h (he ▸ hc)

theorem pieces_of_not_mem {x : List Char} (hx : '\n' ∉ x) : pieces isNewline x = [x] :=
  pieces_of_forall (forall_isNewline_iff.mpr hx)

theorem pieces_line (x y : List Char) :
    pieces isNewline (x ++ '\n' :: y) = pieces isNewline x ++ pieces isNewline y :=
  pieces_append_cons rfl x y

@[elab_as_elim]
theorem lineInduction {motive : List Char → Prop} (last : ∀ x, '\n' ∉ x → motive x)
    (line : ∀ x y, '\n' ∉ x → motive y → motive (x ++ '\n' :: y)) (cs : List Char) :
    motive cs := by
  induction cs using pieceInduction isNewline with
  | last x hx => exact last x (forall_isNewline_iff.mp hx)
  | piece x c y hx hc ih =>
    rw [eq_of_beq hc]
    exact line x y (forall_isNewline_iff.mp hx) ih

theorem pieces_ne_nil (cs : List Char) : pieces isNewline cs ≠ [] := by
  rw [pieces_eq_splitOnP]
  exact List.splitOnP_ne_nil isNewline cs

def completed (cs : List Char) : List (List Char) := (pieces isNewline cs).dropLast

def begun (cs : List Char) : List Char := (pieces isNewline cs).getLast (pieces_ne_nil cs)

theorem pieces_eq (cs : List Char) : pieces isNewline cs = completed cs ++ [begun cs] :=
  (List.dropLast_concat_getLast (pieces_ne_nil cs)).symm

theorem completed_of_not_mem {x : List Char} (hx : '\n' ∉ x) : completed x = [] := by
  rw [completed, pieces_of_not_mem hx]
  rfl

theorem begun_of_not_mem {x : List Char} (hx : '\n' ∉ x) : begun x = x := by
  simp only [begun, pieces_of_not_mem hx, List.getLast_singleton]

theorem completed_line {x : List Char} (hx : '\n' ∉ x) (y : List Char) :
    completed (x ++ '\n' :: y) = x :: completed y := by
  rw [completed, pieces_line, pieces_of_not_mem hx, List.dropLast_append_of_ne_nil (pieces_ne_nil y)]
  rfl

theorem begun_line (x y : List Char) : begun (x ++ '\n' :: y) = begun y := by
  simp only [begun, pieces_line, List.getLast_append_of_ne_nil _ (pieces_ne_nil y)]

theorem length_completed (cs : List Char) : (completed cs).length = cs.count '\n' := by
  induction cs using lineInduction with
  | last x hx => rw [completed_of_not_mem hx, List.count_eq_zero.mpr hx]; rfl
  | line x y hx ih =>
    rw [completed_line hx, List.length_cons, ih, List.count_append, List.count_cons_self,
      List.count_eq_zero.mpr hx]
    omega

/-- Lines that are each ended by a line feed are the lines completed, and none is begun. -/
theorem pieces_flatMap_newline {lines : List (List Char)} (h : ∀ line ∈ lines, '\n' ∉ line) :
    pieces isNewline (lines.flatMap (· ++ ['\n'])) = lines ++ [[]] := by
  induction lines with
  | nil => rfl
  | cons line lines ih =>
    rw [List.forall_mem_cons] at h
    rw [List.flatMap_cons, List.append_assoc, List.singleton_append, pieces_line,
      pieces_of_not_mem h.1, ih h.2]
    rfl

theorem intercalate_pieces (cs : List Char) : ['\n'].intercalate (pieces isNewline cs) = cs := by
  induction cs using lineInduction with
  | last x hx => rw [pieces_of_not_mem hx, List.intercalate_singleton]
  | line x y hx ih =>
    rw [pieces_line, pieces_of_not_mem hx, List.singleton_append,
      List.intercalate_cons_of_ne_nil (pieces_ne_nil y), ih]
    simp

theorem newline_not_mem_begun (cs : List Char) : '\n' ∉ begun cs := by
  induction cs using lineInduction with
  | last x hx => rwa [begun_of_not_mem hx]
  | line x y _ ih => rwa [begun_line]

theorem begun_eq_nil {cs : List Char} (h : cs.getLast? = some '\n') : begun cs = [] := by
  obtain ⟨front, rfl⟩ := List.getLast?_eq_some_iff.mp h
  rw [begun_line, begun_of_not_mem (by simp)]

theorem mem_of_mem_pieces {cs line : List Char} {c : Char} (hline : line ∈ pieces isNewline cs)
    (hc : c ∈ line) : c ∈ cs := by
  induction cs using lineInduction with
  | last x hx =>
    rw [pieces_of_not_mem hx, List.mem_singleton] at hline
    exact hline ▸ hc
  | line x y hx ih =>
    rw [pieces_line, pieces_of_not_mem hx, List.singleton_append, List.mem_cons] at hline
    rcases hline with rfl | hline
    · exact List.mem_append_left _ hc
    · exact List.mem_append_right _ (List.mem_cons_of_mem _ (ih hline))

theorem newline_not_mem_of_mem_pieces {cs line : List Char} (hline : line ∈ pieces isNewline cs) :
    '\n' ∉ line :=
  forall_isNewline_iff.mp (isSep_of_mem_pieces hline)

/-- A text goes on where its front has broken off. -/
theorem pieces_append (front rest : List Char) :
    pieces isNewline (front ++ rest) = completed front ++ pieces isNewline (begun front ++ rest) := by
  induction front using lineInduction with
  | last x hx => rw [completed_of_not_mem hx, begun_of_not_mem hx]; rfl
  | line x y hx ih =>
    rw [List.append_assoc, List.cons_append, pieces_line, ih, completed_line hx, begun_line,
      pieces_of_not_mem hx]
    rfl

theorem pieces_append_of_not_mem {mid : List Char} (hmid : '\n' ∉ mid) (front : List Char) :
    pieces isNewline (front ++ mid) = completed front ++ [begun front ++ mid] := by
  have h : '\n' ∉ begun front ++ mid := by
    rw [List.mem_append]
    exact fun hc => hc.elim (newline_not_mem_begun front) hmid
  rw [pieces_append, pieces_of_not_mem h]

theorem pieces_append_line {x tail : List Char} (hx : '\n' ∉ x) (htail : '\n' ∉ tail)
    (front y : List Char) :
    pieces isNewline (front ++ (x ++ '\n' :: y) ++ tail) =
      completed front ++ (begun front ++ x) :: (completed y ++ [begun y ++ tail]) := by
  have hassoc : front ++ (x ++ '\n' :: y) ++ tail = (front ++ x) ++ '\n' :: (y ++ tail) := by
    simp only [List.append_assoc, List.cons_append]
  rw [hassoc, pieces_line, pieces_append_of_not_mem hx, pieces_append_of_not_mem htail,
    List.append_assoc, List.singleton_append]

theorem begun_append {mid : List Char} (hmid : '\n' ∉ mid) (front : List Char) :
    begun (front ++ mid) = begun front ++ mid := by
  simp only [begun.eq_1 (front ++ mid), pieces_append_of_not_mem hmid, List.getLast_concat]

@[simp] theorem dropReturn_nil : dropReturn [] = [] := rfl

theorem dropReturn_append {y : List Char} (hy : y ≠ []) (x : List Char) :
    dropReturn (x ++ y) = x ++ dropReturn y := by
  unfold dropReturn
  rw [List.getLast?_append, List.getLast?_eq_some_getLast hy, Option.some_or]
  split_ifs
  · rw [List.dropLast_append_of_ne_nil hy]
  · rfl

theorem mem_of_mem_dropReturn {line : List Char} {c : Char} (hc : c ∈ dropReturn line) : c ∈ line := by
  unfold dropReturn at hc
  split_ifs at hc
  · exact (List.dropLast_sublist line).subset hc
  · exact hc

theorem length_dropReturn_le (x : List Char) : (dropReturn x).length ≤ x.length := by
  unfold dropReturn
  split_ifs
  · rw [List.length_dropLast]
    omega
  · exact Nat.le_refl _

/-- What follows ends the line: a line feed, or nothing. -/
def endsLine (rest : List Char) : Bool := rest.head?.all isNewline

/-- The characters of a text that goes on with `rest`, without the carriage returns just before a
line feed or at the very end. -/
def dropReturns (rest : List Char) : List Char → List Char
  | [] => []
  | c :: cs =>
    if c = '\r' ∧ endsLine (cs ++ rest) then dropReturns rest cs else c :: dropReturns rest cs

theorem dropReturns_append (rest xs ys : List Char) :
    dropReturns rest (xs ++ ys) = dropReturns (ys ++ rest) xs ++ dropReturns rest ys := by
  induction xs with
  | nil => rfl
  | cons x xs ih =>
    simp only [List.cons_append, dropReturns, List.append_assoc, ih]
    split_ifs <;> rfl

theorem dropReturns_eq_self {cs : List Char} (h : '\r' ∉ cs) (rest : List Char) :
    dropReturns rest cs = cs := by
  induction cs with
  | nil => rfl
  | cons c cs ih =>
    rw [List.mem_cons, not_or] at h
    rw [dropReturns, if_neg (fun hc => h.1 hc.1.symm), ih h.2]

/-- Within one line only its last character can be a carriage return that goes. -/
theorem dropReturns_of_not_mem {x : List Char} (hx : '\n' ∉ x) (rest : List Char) :
    dropReturns rest x = if endsLine rest then dropReturn x else x := by
  induction x with
  | nil => simp [dropReturns]
  | cons c x ih =>
    rw [List.mem_cons, not_or] at hx
    rw [dropReturns, ih hx.2]
    cases x with
    | nil =>
      by_cases hc : c = '\r' <;> by_cases hr : endsLine rest <;> simp [hc, hr, dropReturn]
    | cons d x =>
      have hd : endsLine (d :: x ++ rest) = false := by
        rw [List.mem_cons, not_or] at hx
        simpa [endsLine, isNewline] using fun h => hx.2.1 h.symm
      rw [hd]
      have hdrop := dropReturn_append (List.cons_ne_nil d x) [c]
      rw [List.singleton_append] at hdrop
      split_ifs <;> simp_all

theorem dropReturns_line {x : List Char} (hx : '\n' ∉ x) (rest y : List Char) :
    dropReturns rest (x ++ '\n' :: y) = dropReturn x ++ '\n' :: dropReturns rest y := by
  have hend : endsLine ('\n' :: y ++ rest) = true := rfl
  have hne : ¬('\n' = '\r' ∧ endsLine (y ++ rest)) := fun h => absurd h.1 (by decide)
  rw [dropReturns_append, dropReturns_of_not_mem hx, if_pos hend, dropReturns, if_neg hne]

/-- A text without its line end returns is the lines that it completes, each without its return, and
the line that it begins. -/
theorem intercalate_completed (rest cs : List Char) :
    ['\n'].intercalate ((completed cs).map dropReturn ++ [dropReturns rest (begun cs)]) =
      dropReturns rest cs := by
  induction cs using lineInduction with
  | last x hx =>
    rw [completed_of_not_mem hx, begun_of_not_mem hx]
    exact List.intercalate_singleton
  | line x y hx ih =>
    rw [completed_line hx, begun_line, dropReturns_line hx, List.map_cons, List.cons_append,
      List.intercalate_cons_of_ne_nil (by simp), ih]
    simp

theorem splitLines_eq (cs : List Char) :
    splitLines cs =
      (completed cs ++ if cs.getLast? = some '\n' then [] else [begun cs]).map dropReturn := by
  unfold splitLines
  dsimp only
  rw [pieces_eq]
  split_ifs
  · rw [List.map_append, List.map_singleton, List.dropLast_concat, List.append_nil]
  · rfl

theorem length_splitLines (cs : List Char) :
    (splitLines cs).length = cs.count '\n' + if cs.getLast? = some '\n' then 0 else 1 := by
  rw [splitLines_eq, List.length_map, List.length_append, length_completed]
  split_ifs <;> rfl

theorem length_splitLines_pos (cs : List Char) : 0 < (splitLines cs).length := by
  rw [length_splitLines]
  split_ifs with hlast
  · have hmem : '\n' ∈ cs := List.mem_of_getLast? hlast
    exact Nat.add_pos_left (List.count_pos_iff.mpr hmem) 0
  · exact Nat.succ_pos _

/-- A text has at most one line more than characters. -/
theorem length_splitLines_le (cs : List Char) : (splitLines cs).length ≤ cs.length + 1 := by
  have hcount : cs.count '\n' ≤ cs.length := List.count_le_length
  rw [length_splitLines]
  split_ifs <;> omega

theorem exists_piece_of_mem_splitLines {cs line : List Char} (hline : line ∈ splitLines cs) :
    ∃ piece ∈ pieces isNewline cs, line = dropReturn piece := by
  rw [splitLines_eq] at hline
  obtain ⟨piece, hpiece, rfl⟩ := List.mem_map.mp hline
  refine ⟨piece, ?_, rfl⟩
  rw [pieces_eq]
  split_ifs at hpiece
  · exact List.mem_append_left _ (List.append_nil (completed cs) ▸ hpiece)
  · exact hpiece

theorem mem_of_mem_splitLines {cs line : List Char} {c : Char} (hline : line ∈ splitLines cs)
    (hc : c ∈ line) : c ∈ cs := by
  obtain ⟨piece, hpiece, rfl⟩ := exists_piece_of_mem_splitLines hline
  exact mem_of_mem_pieces hpiece (mem_of_mem_dropReturn hc)

theorem newline_not_mem_of_mem_splitLines {cs line : List Char} (hline : line ∈ splitLines cs) :
    '\n' ∉ line := by
  obtain ⟨piece, hpiece, rfl⟩ := exists_piece_of_mem_splitLines hline
  exact fun hc => newline_not_mem_of_mem_pieces hpiece (mem_of_mem_dropReturn hc)

theorem mem_of_getLast?_append {front rest : List Char} {c : Char} (hrest : rest ≠ [])
    (h : (front ++ rest).getLast? = some c) : c ∈ rest := by
  rw [List.getLast?_append, List.getLast?_eq_some_getLast hrest, Option.some_or,
    Option.some.injEq] at h
  exact h ▸ List.getLast_mem hrest

theorem endsLine_append {x rest : List Char} (hx : '\n' ∉ x) (hrest : endsLine rest) :
    endsLine (x ++ rest) = true ↔ x = [] := by
  cases x with
  | nil => simpa using hrest
  | cons c x =>
    rw [List.mem_cons, not_or] at hx
    simpa [endsLine, isNewline] using fun h => hx.1 h.symm

/-- The lines of a text up to a place in it: those of the front, the last of them completed by what
follows on the same line. The place must not lie behind the line feed that ends the text. -/
theorem splitLines_append {front rest : List Char}
    (h : ¬(rest = [] ∧ (front ++ rest).getLast? = some '\n')) :
    ∃ tail others, (tail = [] ↔ endsLine rest) ∧ '\n' ∉ tail ∧
      splitLines (front ++ rest) = (pieces isNewline (front ++ tail)).map dropReturn ++ others := by
  by_cases hrest : '\n' ∈ rest
  · obtain ⟨x, y, rfl, hx⟩ := List.eq_append_cons_of_mem hrest
    have hy : (pieces isNewline y).map dropReturn ≠ [] := by
      simpa using pieces_ne_nil y
    refine ⟨x, if (front ++ x ++ '\n' :: y).getLast? = some '\n' then
      ((pieces isNewline y).map dropReturn).dropLast else (pieces isNewline y).map dropReturn,
      (endsLine_append hx rfl).symm, hx, ?_⟩
    unfold splitLines
    dsimp only
    rw [← List.append_assoc, pieces_line, List.map_append]
    split_ifs
    · exact List.dropLast_append_of_ne_nil hy
    · rfl
  · have hlast : (front ++ rest).getLast? ≠ some '\n' := by
      intro hl
      by_cases hnil : rest = []
      · exact h ⟨hnil, hl⟩
      · exact hrest (mem_of_getLast?_append hnil hl)
    have hend := endsLine_append hrest (rfl : endsLine [] = true)
    rw [List.append_nil] at hend
    refine ⟨rest, [], hend.symm, hrest, ?_⟩
    unfold splitLines
    dsimp only
    rw [if_neg hlast, List.append_nil]

end AnchorAudit.Text
