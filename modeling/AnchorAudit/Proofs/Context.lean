import AnchorAudit.Proofs.Decimal
import AnchorAudit.Proofs.Lookup
import Mathlib.Data.List.Infix

/-! Contexts. A context can be read back line by line, and a wider one goes on in both directions. -/
namespace AnchorAudit
open Text

/-- A line of a context: whether it is marked, its number and its text. -/
structure ShownLine where
  marked : Bool
  number : Nat
  text : List Char
  deriving DecidableEq

namespace ShownLine

def marked? (marker : Char) : Option Bool :=
  if marker = '→' then some true else if marker = ' ' then some false else none

/-- Reads a line: a marker, a number that is filled up with spaces, a bar and the text. -/
def read? : List Char → Option ShownLine
  | marker :: ' ' :: entry =>
    let field := leadingNumber (entry.dropWhile (· == ' '))
    match marked? marker, field.2 with
    | some marked, ' ' :: '|' :: ' ' :: text => some ⟨marked, field.1, text⟩
    | _, _ => none
  | _ => none

def readAll? (text : String) : Option (List ShownLine) :=
  if begun text.toList = [] then (completed text.toList).mapM read? else none

theorem dropWhile_padNumber (n : Nat) (rest : List Char) :
    (SourceLines.padNumber n ++ rest).dropWhile (· == ' ') = Nat.toDigits 10 n ++ rest := by
  have hfill : ∀ c ∈ List.replicate (3 - (Nat.toDigits 10 n).length) ' ', (c == ' ') = true := by
    intro c hc
    rw [List.eq_of_mem_replicate hc]
    rfl
  cases hdigits : Nat.toDigits 10 n with
  | nil => exact absurd hdigits Nat.toDigits_ne_nil
  | cons c cs =>
    have hc : c.isDigit = true :=
      Nat.isDigit_of_mem_toDigits (by decide) (by decide) (hdigits ▸ List.mem_cons_self)
    have hspace : ¬(c == ' ') = true := by
      intro h
      rw [eq_of_beq h] at hc
      cases hc
    unfold SourceLines.padNumber
    dsimp only
    rw [List.append_assoc, List.dropWhile_append_of_pos hfill, hdigits]
    exact List.dropWhile_cons_of_neg hspace

theorem read?_entry {marker : Char} {marked : Bool} (hmarker : marked? marker = some marked) (n : Nat)
    (text : List Char) :
    read? (marker :: ' ' :: SourceLines.padNumber n ++ [' ', '|', ' '] ++ text) =
      some ⟨marked, n, text⟩ := by
  have hfield : leadingNumber ((SourceLines.padNumber n ++ ([' ', '|', ' '] ++ text)).dropWhile (· == ' ')) =
      (n, ' ' :: '|' :: ' ' :: text) := by
    rw [dropWhile_padNumber]
    exact leadingNumber_toDigits rfl n
  simp only [List.cons_append, List.append_assoc] at hfield ⊢
  simp only [read?, hfield, hmarker]

end ShownLine

namespace SourceLines

def shownLine (s : SourceLines) (span : Span) (number : Nat) : ShownLine :=
  ⟨span.startLine ≤ number ∧ number ≤ span.endLine, number, s.lineAt (number - 1)⟩

def contextEntry (s : SourceLines) (span : Span) (number : Nat) : List Char :=
  (if span.startLine ≤ number ∧ number ≤ span.endLine then '→' else ' ') :: ' ' ::
    padNumber number ++ [' ', '|', ' '] ++ s.lineAt (number - 1)

theorem read?_contextEntry (s : SourceLines) (span : Span) (number : Nat) :
    ShownLine.read? (s.contextEntry span number) = some (s.shownLine span number) := by
  apply ShownLine.read?_entry
  by_cases hin : span.startLine ≤ number ∧ number ≤ span.endLine
  · rw [if_pos hin, decide_eq_true hin]
    rfl
  · rw [if_neg hin, decide_eq_false hin]
    rfl

theorem newline_not_mem_lineAt {s : SourceLines} (h : ∀ line ∈ s.lines, '\n' ∉ line) (index : Nat) :
    '\n' ∉ s.lineAt index := by
  unfold lineAt
  cases hline : s.lines[index]? with
  | none => exact List.not_mem_nil
  | some line => exact h line (List.mem_of_getElem? hline)

theorem newline_not_mem_contextEntry {s : SourceLines} (h : ∀ line ∈ s.lines, '\n' ∉ line) (span : Span)
    (number : Nat) : '\n' ∉ s.contextEntry span number := by
  have hmarker : '\n' ≠ if span.startLine ≤ number ∧ number ≤ span.endLine then '→' else ' ' := by
    split_ifs <;> decide
  have hpad : '\n' ∉ padNumber number := by
    intro hc
    rcases List.mem_append.mp hc with hfill | hdigit
    · exact absurd (List.eq_of_mem_replicate hfill) (by decide)
    · have hisDigit := Nat.isDigit_of_mem_toDigits (by decide) (by decide) hdigit
      cases hisDigit
  have hline := newline_not_mem_lineAt h (number - 1)
  unfold contextEntry
  simp [hmarker, hpad, hline]

/-- A context shows the lines with the numbers in its range, each with its number and text. -/
theorem readAll?_context {s : SourceLines} (h : ∀ line ∈ s.lines, '\n' ∉ line) {span : Span}
    (hknown : span.isKnown = true) (around : Int) :
    ShownLine.readAll? (s.context span around) =
      some ((s.contextNumbers span around).map (s.shownLine span)) := by
  have htext : (s.context span around).toList =
      ((s.contextNumbers span around).map (s.contextEntry span)).flatMap (· ++ ['\n']) := by
    have hline : s.contextLine span = fun number => s.contextEntry span number ++ ['\n'] := by
      funext number
      have hindex : ((number : Int) - 1).toNat = number - 1 := by omega
      unfold contextLine contextLineBy contextEntry lineOrEmpty
      rw [hindex]
      rfl
    rw [context_of_known hknown, String.toList_ofList, List.flatMap_map, hline]
  have hpieces : pieces isNewline (s.context span around).toList =
      (s.contextNumbers span around).map (s.contextEntry span) ++ [[]] := by
    rw [htext]
    apply pieces_flatMap_newline
    intro entry hentry
    obtain ⟨number, -, rfl⟩ := List.mem_map.mp hentry
    exact newline_not_mem_contextEntry h span number
  have hbegun : begun (s.context span around).toList = [] := by
    simp only [begun, hpieces, List.getLast_concat]
  have hcompleted : completed (s.context span around).toList =
      (s.contextNumbers span around).map (s.contextEntry span) := by
    rw [completed, hpieces, List.dropLast_concat]
  have hread : ShownLine.read? ∘ s.contextEntry span = fun number => pure (s.shownLine span number) :=
    funext (read?_contextEntry s span)
  unfold ShownLine.readAll?
  rw [if_pos hbegun, hcompleted, List.mapM_map, hread, List.mapM_pure]
  rfl

/-- Numbers in a row, with a shorter row inside. -/
theorem range'_eq_append {a b c d : Nat} (hca : c ≤ a) (hab : a ≤ b) (hbd : b ≤ d) :
    List.range' c (d - c) =
      List.range' c (a - c) ++ List.range' a (b - a) ++ List.range' b (d - b) := by
  obtain ⟨i, rfl⟩ := Nat.exists_eq_add_of_le hca
  obtain ⟨j, rfl⟩ := Nat.exists_eq_add_of_le hab
  obtain ⟨k, rfl⟩ := Nat.exists_eq_add_of_le hbd
  have htotal : c + i + j + k - c = i + j + k := by omega
  rw [htotal, Nat.add_sub_cancel_left, Nat.add_sub_cancel_left, Nat.add_sub_cancel_left,
    List.range'_append_1, Nat.add_assoc c, List.range'_append_1]

theorem contextNumbers_isInfix (s : SourceLines) (span : Span) {around wider : Int}
    (h : around ≤ wider) : s.contextNumbers span around <:+: s.contextNumbers span wider := by
  unfold contextNumbers
  dsimp only
  generalize hfirst : (max (span.startLine - around) 1).toNat = first
  generalize hlast : (min (span.endLine + around) (s.lines.length : Int)).toNat = last
  generalize hfirst' : (max (span.startLine - wider) 1).toNat = first'
  generalize hlast' : (min (span.endLine + wider) (s.lines.length : Int)).toNat = last'
  by_cases hempty : last + 1 ≤ first
  · rw [Nat.sub_eq_zero_of_le hempty]
    exact List.nil_infix
  · have hrow := range'_eq_append (show first' ≤ first by omega) (show first ≤ last + 1 by omega)
      (show last + 1 ≤ last' + 1 by omega)
    exact ⟨_, _, hrow.symm⟩

/-- When the text goes as far as the span, the numbers of the span are all there. -/
theorem filter_contextNumbers {s : SourceLines} {span : Span} (hknown : span.isKnown = true)
    (horder : span.startLine ≤ span.endLine) (hin : span.endLine ≤ s.lines.length) {around : Int}
    (haround : 0 ≤ around) :
    (s.contextNumbers span around).filter
        (fun number : Nat => decide (span.startLine ≤ number ∧ number ≤ span.endLine)) =
      s.contextNumbers span 0 := by
  have hpos := Span.isKnown_iff.mp hknown
  have hstart : (max (span.startLine - 0) 1).toNat = span.startLine.toNat := by omega
  have hend : (min (span.endLine + 0) (s.lines.length : Int)).toNat = span.endLine.toNat := by omega
  unfold contextNumbers
  dsimp only
  rw [hstart, hend]
  generalize hfirst : (max (span.startLine - around) 1).toNat = first
  generalize hlast : (min (span.endLine + around) (s.lines.length : Int)).toNat = last
  have hrow := range'_eq_append (show first ≤ span.startLine.toNat by omega)
    (show span.startLine.toNat ≤ span.endLine.toNat + 1 by omega)
    (show span.endLine.toNat + 1 ≤ last + 1 by omega)
  rw [hrow, List.filter_append, List.filter_append, List.filter_eq_nil_iff.mpr, List.filter_eq_self.mpr,
    List.filter_eq_nil_iff.mpr, List.nil_append, List.append_nil]
  all_goals
    intro number hnumber
    rw [List.mem_range'_1] at hnumber
    rw [decide_eq_true_eq]
    omega

/-- What a context shows. Around a span that lies in the text these are the lines from `around` lines before
it to `around` lines behind it, as far as the text goes, and the lines of the span are marked. Whether the
span lies in the text or not, a wider context goes on in both directions. -/
theorem context_window (text path : String) {span : Span} (hknown : span.isKnown = true) :
    let s := ofText text path
    let lines := splitLines text.toList
    (∀ around : Int, 0 ≤ around → span.startLine ≤ span.endLine → span.endLine ≤ lines.length →
      ∃ shown, ShownLine.readAll? (s.context span around) = some shown ∧
        shown.map (fun line => (line.number : Int)) =
          Int.range (max 1 (span.startLine - around))
            (min (lines.length : Int) (span.endLine + around) + 1) ∧
        (∀ line ∈ shown, lines[line.number - 1]? = some line.text) ∧
        (shown.filter (·.marked)).map (fun line => (line.number : Int)) =
          Int.range span.startLine (span.endLine + 1) ∧
        ((shown.filter (·.marked)).length : Int) = span.endLine - span.startLine + 1) ∧
    ∀ around wider : Int, around ≤ wider →
      (s.context span around).toList <:+: (s.context span wider).toList ∧
      ∃ inner outer, ShownLine.readAll? (s.context span around) = some inner ∧
        ShownLine.readAll? (s.context span wider) = some outer ∧ inner <:+: outer := by
  intro s lines
  have hpos := Span.isKnown_iff.mp hknown
  have hclear : ∀ line ∈ s.lines, '\n' ∉ line := fun line => newline_not_mem_of_mem_splitLines
  have hread (around : Int) := readAll?_context hclear hknown around
  constructor
  · intro around haround horder hin
    have hmarked : ((s.contextNumbers span around).map (s.shownLine span)).filter (·.marked) =
        (s.contextNumbers span 0).map (s.shownLine span) := by
      rw [List.filter_map]
      exact congrArg _ (filter_contextNumbers hknown horder hin haround)
    have hnumbers : (s.contextNumbers span 0).map Nat.cast = Int.range span.startLine (span.endLine + 1) := by
      have hfirst : max (span.startLine - 0) 1 = span.startLine := by omega
      have hlast : min (span.endLine + 0) (s.lines.length : Int) = span.endLine := by
        rw [Int.add_zero]
        exact min_eq_left hin
      rw [map_contextNumbers, hfirst, hlast]
    have hcount := congrArg List.length hnumbers
    rw [Int.range, List.length_map, List.length_map, List.length_range] at hcount
    refine ⟨_, hread around, ?_, ?_, ?_, ?_⟩
    · rw [List.map_map, max_comm, min_comm]
      exact map_contextNumbers s span around
    · intro line hline
      obtain ⟨number, hnumber, rfl⟩ := List.mem_map.mp hline
      have hbounds := bounds_of_mem_contextNumbers hnumber
      have hindex : number - 1 < s.lines.length := by omega
      exact getElem?_lines hindex
    · rw [hmarked, List.map_map]
      exact hnumbers
    · rw [hmarked, List.length_map, hcount]
      omega
  · intro around wider hwider
    have hnumbers := contextNumbers_isInfix s span hwider
    refine ⟨?_, _, _, hread around, hread wider, hnumbers.map _⟩
    rw [context_of_known hknown, context_of_known hknown, String.toList_ofList, String.toList_ofList]
    exact hnumbers.flatMap _

/-- A span of two lines in a text of four lines, the last of them empty. -/
theorem context_window_four_lines :
    let text := "use a;\nfn f() \x7b\n\x7d\n\n"
    let s := ofText text "lib.rs"
    let span : Span := ⟨2, 0, 3, 1⟩
    span.isKnown = true ∧ span.startLine ≤ span.endLine ∧
      span.endLine ≤ (splitLines text.toList).length ∧
      s.context span 1 = "    1 | use a;\n→   2 | fn f() \x7b\n→   3 | \x7d\n    4 | \n" ∧
      (∃ shown, ShownLine.readAll? (s.context span 1) = some shown ∧
        shown.map (fun line => (line.number : Int)) = [1, 2, 3, 4] ∧
        (shown.filter (·.marked)).map (fun line => (line.number : Int)) = [2, 3]) ∧
      (s.context span 0).toList <:+: (s.context span 1).toList := by
  intro text s span
  have hknown : span.isKnown = true := by decide
  have horder : span.startLine ≤ span.endLine := by decide
  have hin : span.endLine ≤ (splitLines text.toList).length := by decide
  obtain ⟨hwindow, hwider⟩ := context_window text "lib.rs" hknown
  obtain ⟨shown, hread, hnumbers, -, hmarked, -⟩ := hwindow 1 (by decide) horder hin
  exact ⟨hknown, horder, hin, by decide +kernel, ⟨shown, hread, hnumbers.trans (by decide),
    hmarked.trans (by decide)⟩, (hwider 0 1 (by decide)).1⟩

end SourceLines

end AnchorAudit
