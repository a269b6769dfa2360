import AnchorAudit.Proofs.Catalogue
import AnchorAudit.Proofs.Registry
import AnchorAudit.Proofs.Snippet
import AnchorAudit.Proofs.Translation.Check

/-! What is reported about a text that comes later in a longer one, after whole lines: the same
findings, on later lines. -/
namespace AnchorAudit
open Text

def Span.later (lines : Nat) (s : Span) : Span :=
  { s with startLine := s.startLine + lines, endLine := s.endLine + lines }

def Location.later (lines : Nat) (l : Location) : Location :=
  { l with line := l.line + lines, endLine := l.endLine.map (· + (lines : Int)) }

def Finding.later (lines : Nat) (f : Finding) : Finding :=
  { f with location := f.location.later lines }

def SourceLines.below (above : List (List Char)) (s : SourceLines) : SourceLines :=
  { s with lines := above ++ s.lines }

section Positions
variable {front : List UInt8} (hfront : front.getLast? = some 10)
include hfront

theorem Source.position_after (s : Source) (offset : Nat) :
    (s.after front).position (offset + front.length) =
      ⟨(s.position offset).line + front.count 10, (s.position offset).column⟩ := by
  obtain ⟨whole, rfl⟩ := List.getLast?_eq_some_iff.mp hfront
  have hlast (rest : List UInt8) : lastLine (whole ++ [10] ++ rest) = lastLine rest := by
    rw [List.append_assoc, List.singleton_append, lastLine_newline]
  unfold position
  rw [take_after, hlast, List.count_append, Nat.add_comm (List.count _ _), Nat.add_right_comm]

theorem Span.ofNode_after (s : Source) (n : Node) :
    ofNode (s.after front) (n.shift front.length) = (ofNode s n).later (front.count 10) := by
  unfold ofNode between
  rw [Node.label_shift, Label.shift]
  dsimp only
  rw [Source.position_after hfront, Source.position_after hfront]
  simp [later]

end Positions

namespace SourceLines
variable (above : List (List Char)) (s : SourceLines)

theorem lineAt_below (index : Nat) : (s.below above).lineAt (index + above.length) = s.lineAt index := by
  unfold lineAt below
  dsimp only
  rw [List.getElem?_append_right (Nat.le_add_left _ _), Nat.add_sub_cancel]

theorem slice_below {start stop : Int} (hstart : 0 ≤ start) (hstop : 0 ≤ stop) :
    slice (s.below above).lines (start + above.length) (stop + above.length) =
      slice s.lines start stop := by
  obtain ⟨a, rfl⟩ := Int.eq_ofNat_of_zero_le hstart
  obtain ⟨b, rfl⟩ := Int.eq_ofNat_of_zero_le hstop
  rw [← Int.natCast_add, ← Int.natCast_add, slice_natCast, slice_natCast, below, Nat.add_comm a,
    Nat.add_comm b, List.take_length_add_append, List.drop_length_add_append]

theorem cut_below {span : Span} (hstart : 0 < span.startLine) (hend : 0 < span.endLine) :
    (s.below above).cut (span.later above.length) = s.cut span := by
  have hfirst : (span.startLine + above.length - 1).toNat =
      (span.startLine - 1).toNat + above.length := by omega
  have hlast : (span.endLine + above.length - 1).toNat =
      (span.endLine - 1).toNat + above.length := by omega
  have hstop : span.endLine + above.length - 1 = span.endLine - 1 + above.length := by omega
  rw [cut_eq, cut_eq, Span.later]
  dsimp only
  rw [hfirst, hlast, hstop, lineAt_below, lineAt_below, slice_below above s (by omega) (by omega)]
  simp only [Int.add_le_add_iff_right]

theorem snippet_below {span : Span} (hstart : 0 < span.startLine) (hend : 0 < span.endLine) :
    (s.below above).snippet (span.later above.length) = s.snippet span := by
  have hknown : span.isKnown = true := Span.isKnown_iff.mpr ⟨hstart, hend⟩
  have hlater : (span.later above.length).isKnown = true := by
    rw [Span.isKnown_iff, Span.later]
    dsimp only
    omega
  have hlength : ((s.below above).lines.length : Int) = s.lines.length + above.length := by
    rw [below, List.length_append]
    omega
  rw [snippet_of_known hknown, snippet_of_known hlater, cut_below above s hstart hend, hlength,
    Span.later]
  simp only [Int.add_lt_add_iff_right]

theorem location_below {span : Span} (hstart : 0 < span.startLine) :
    (s.below above).location (span.later above.length) = (s.location span).later above.length := by
  have hlater : 0 < (span.later above.length).startLine := by
    unfold Span.later
    dsimp only
    omega
  unfold location
  rw [if_pos hstart, if_pos hlater]
  rfl

end SourceLines

theorem Text.splitLines_below {above rest : List Char} (habove : above.getLast? = some '\n')
    (hrest : rest ≠ []) :
    splitLines (above ++ rest) = (completed above).map dropReturn ++ splitLines rest := by
  obtain ⟨whole, rfl⟩ := List.getLast?_eq_some_iff.mp habove
  have hbegun : begun (whole ++ ['\n']) = [] := by
    rw [begun_line]
    exact begun_of_not_mem List.not_mem_nil
  have hlast : (whole ++ ['\n'] ++ rest).getLast? = rest.getLast? := by
    rw [List.getLast?_append, List.getLast?_eq_some_getLast hrest, Option.some_or]
  have hpieces : (pieces isNewline rest).map dropReturn ≠ [] := by
    simpa using pieces_ne_nil rest
  unfold splitLines
  dsimp only
  rw [hlast, pieces_append, hbegun, List.nil_append, List.map_append]
  split_ifs
  · exact List.dropLast_append_of_ne_nil hpieces
  · rfl

theorem Rule.report_after {front : List UInt8} (hfront : front.getLast? = some 10)
    {above : List (List Char)} (hlines : above.length = front.count 10) (r : Rule) (path : String)
    (lines : SourceLines) {s : Subject} (hs : s.IsPlaced) :
    r.report path (lines.below above) (s.after front) =
      (r.report path lines s).later above.length := by
  obtain ⟨role, p, rfl⟩ := hs
  have hname := Subject.name?_after front (.placed role p)
  have hspan : ((Subject.placed role p).after front).span? = some (p.span.later above.length) := by
    rw [hlines]
    exact congrArg some (Span.ofNode_after hfront p.source p.node)
  have hstart : 0 < p.span.startLine := Int.natCast_pos.mpr (Nat.succ_pos _)
  have hend : 0 < p.span.endLine := Int.natCast_pos.mpr (Nat.succ_pos _)
  unfold report Query.findingOf
  rw [hname, hspan]
  dsimp only [Subject.span?]
  rw [SourceLines.location_below above lines hstart, SourceLines.snippet_below above lines hstart hend]
  rfl

namespace Catalogue

/-- A selection that follows the text when more is put in front of it, and selects nothing but
subjects that stand in it. -/
structure Steady (select : Query → Except Fault Query) : Prop where
  follows (front : List UInt8) (file : SyntaxFile) :
    select (.ofFile .solana (file.after front)) = (select (.ofFile .solana file)).map (.after front)
  placed (file : SyntaxFile) (q : Query) : select (.ofFile .solana file) = .ok q → q.Placed

theorem steady_usesUnsafe : Steady fun q => .ok q.functions.usesUnsafe where
  follows front file := by
    rw [Query.functions_after, Query.usesUnsafe_after]
    rfl
  placed file q hq := by
    cases hq
    exact fun s hs => Query.placed_functions _ s (List.mem_filter.mp hs).1

theorem steady_functions (check : Check) : Steady fun q => q.functions.having check where
  follows front file := by
    rw [Query.functions_after, Query.having_after]
  placed file q hq := (Query.placed_functions _).having hq

theorem steady_structs (first second : Check) :
    Steady fun q => do (← q.structs.having first).having second where
  follows front file := by
    rw [Query.structs_after, Query.having_after]
    cases (Query.ofFile .solana file).structs.having first with
    | error fault => rfl
    | ok q => exact Query.having_after front second q
  placed file q hq := by
    obtain ⟨r, hr, hq⟩ := bind_eq_ok_iff.mp hq
    exact ((Query.placed_structs _).having hr).having hq

theorem exists_steady {r : Rule} (hr : r ∈ rules) :
    ∃ select, r.detector = detector select ∧ Steady select :=
  exists_select steady_usesUnsafe steady_functions steady_structs hr

/-- Every rule of the catalogue finds the same in a text that comes later, on later lines. -/
theorem found_after {r : Rule} (hr : r ∈ rules) {front : List UInt8}
    (hfront : front.getLast? = some 10) {above : List (List Char)}
    (hlines : above.length = front.count 10) (file : SyntaxFile) {path text text' : String}
    (htext : SourceLines.ofText text' path = (SourceLines.ofText text path).below above) :
    r.found (file.after front) path text' =
      (r.found file path text).map (.later above.length) := by
  obtain ⟨select, hdetector, hsteady⟩ := exists_steady hr
  have hplain := plain_of_mem hr
  unfold Rule.found
  rw [hplain.check_of_query (file.after front) path text' hdetector,
    hplain.check_of_query file path text hdetector, hsteady.follows front file, htext]
  cases hq : select (.ofFile .solana file) with
  | error fault => rfl
  | ok q =>
    have hreport : ∀ s ∈ q.subjects,
        r.report path ((SourceLines.ofText text path).below above) (s.after front) =
          (r.report path (SourceLines.ofText text path) s).later above.length :=
      fun s hs => r.report_after hfront hlines path _ (hsteady.placed file q hq s hs)
    simp only [Except.map, Query.after, List.map_map]
    exact List.map_congr_left hreport

end Catalogue

theorem SyntaxFile.text_withTree (path text : String) (root : Node) :
    (withTree path text root).text = text := by
  unfold SyntaxFile.text withTree Source.text Source.ofText
  rw [Utf8.decode_encode, String.ofList_toList]

/-- To put whole lines in front of a text moves every finding down by as many lines and changes
nothing else about it. -/
theorem Registry.execute_below (s : Selection) (filePath path : String) (root : Node)
    {above text : String} (habove : above.toList.getLast? = some '\n') (htext : text ≠ "") :
    let g := (Registry.new s).loadCatalogue.registry
    let file := SyntaxFile.withTree filePath text root
    let moved := SyntaxFile.withTree filePath (above ++ text)
      (root.shift (Utf8.encode above.toList).length)
    ∃ findings, (g.execute file path file.text).answer = .ok findings ∧
      (g.execute moved path moved.text).answer =
        .ok (findings.map (.later (above.toList.count '\n'))) := by
  intro g file moved
  have hmoved : moved = file.after (Utf8.encode above.toList) := by
    simp [moved, file, SyntaxFile.withTree, SyntaxFile.after, Source.ofText, Source.after]
  have hrules : ∀ r ∈ g.rules, r ∈ Catalogue.rules := by
    intro r hr
    have hg : g.rules = Catalogue.rules.filter s.accepts :=
      congrArg Registry.rules (loadCatalogue_open (g := new s) rfl)
    rw [hg] at hr
    exact (List.mem_filter.mp hr).1
  have hanswer (file : SyntaxFile) (text : String) : (g.execute file path text).answer =
      .ok (g.rules.flatMap (·.found file path text)) := by
    rw [execute_answer]
    exact run_findings file path text fun r hr =>
      (Catalogue.plain_of_mem (hrules r hr)).check_ne_none file path text
  have hfront : (Utf8.encode above.toList).getLast? = some 10 := by
    obtain ⟨whole, hwhole⟩ := List.getLast?_eq_some_iff.mp habove
    rw [hwhole, Utf8.encode_append]
    exact List.getLast?_concat
  have hcount : ((completed above.toList).map dropReturn).length =
      (Utf8.encode above.toList).count 10 := by
    rw [List.length_map, length_completed, Utf8.count_newline_encode]
  have hlines : SourceLines.ofText (above ++ text) path =
      (SourceLines.ofText text path).below ((completed above.toList).map dropReturn) := by
    have hrest : text.toList ≠ [] := by simpa using htext
    unfold SourceLines.ofText SourceLines.below
    rw [String.toList_append, splitLines_below habove hrest]
  refine ⟨_, hanswer file file.text, ?_⟩
  rw [hanswer, SyntaxFile.text_withTree, SyntaxFile.text_withTree, hmoved, List.map_flatMap,
    ← Utf8.count_newline_encode, ← hcount]
  refine congrArg Except.ok (List.flatMap_congr fun r hr => ?_)
  exact Catalogue.found_after (hrules r hr) hfront hcount file hlines

/-- A line that ends in a carriage return and holds a character of two octets, put in front of a
function that divides by a parameter. -/
theorem Registry.execute_below_line :
    let above := "é\r\n"
    let text := "fn f(y: u8) \x7b 1 / y \x7d"
    let node (kind : String) (field : Option String) (start stop : Nat) (children : List Node) :=
      Node.mk ⟨kind, true, false, false, field, start, stop⟩ children
    let root := node "source_file" none 0 21
      [node "function_item" none 0 21
        [node "identifier" (some "name") 3 4 [],
          node "block" (some "body") 12 21
            [node "binary_expression" none 14 19
              [node "integer_literal" (some "left") 14 15 [],
                node "/" (some "operator") 16 17 [],
                node "identifier" (some "right") 18 19 []]]]]
    let g := (Registry.new { ignoredRules := ["solana-unsafe-code"] }).loadCatalogue.registry
    let file := SyntaxFile.withTree "lib.rs" text root
    let moved := SyntaxFile.withTree "lib.rs" (above ++ text) (root.shift 4)
    above.toList.getLast? = some '\n' ∧ text ≠ "" ∧
      ∃ findings, findings.map (·.location.line) = [1] ∧
        (g.execute file "lib.rs" file.text).answer = .ok findings ∧
        (g.execute moved "lib.rs" moved.text).answer = .ok (findings.map (.later 1)) := by
  intro above text node root g file moved
  have habove : above.toList.getLast? = some '\n' := by decide
  have htext : text ≠ "" := by decide
  obtain ⟨findings, hfile, hmoved⟩ :=
    execute_below { ignoredRules := ["solana-unsafe-code"] } "lib.rs" "lib.rs" root habove htext
  have hlines : (g.execute file "lib.rs" file.text).answer.map
      (fun found => found.map (·.location.line)) = .ok [1] := by decide +kernel
  have hoctets : (Utf8.encode above.toList).length = 4 := by decide
  have hcount : above.toList.count '\n' = 1 := by decide
  rw [hoctets, hcount] at hmoved
  rw [hfile] at hlines
  exact ⟨habove, htext, findings, Except.ok.inj hlines, hfile, hmoved⟩

end AnchorAudit
