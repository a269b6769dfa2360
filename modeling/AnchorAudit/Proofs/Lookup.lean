import AnchorAudit.Proofs.Snippet
import AnchorAudit.Schema.Models
import Mathlib.Data.Int.Range

/-! Lines looked up by number. A number may lead to no line, and a location may break its schema: no
snippet, context or location comes to that, and a signature does for numbers far enough below zero. -/
namespace AnchorAudit
open Text

namespace Text
variable {α : Type} {xs : List α}

theorem exists_signedGet_iff {i : Int} (hbound : (xs.length : Int) ≤ positionBound) :
    (∃ x, signedGet xs i = .ok x) ↔ -(xs.length : Int) ≤ i ∧ i < xs.length := by
  unfold signedGet
  by_cases hreach : i < -positionBound ∨ positionBound ≤ i
  · rw [if_pos hreach]
    constructor
    · rintro ⟨x, hx⟩
      cases hx
    · intro hi
      omega
  · rw [if_neg hreach]
    dsimp only
    generalize hj : (if i < 0 then i + (xs.length : Int) else i) = j
    have hinside : 0 ≤ j ∧ j < xs.length ↔ -(xs.length : Int) ≤ i ∧ i < xs.length := by
      rw [← hj]
      split_ifs <;> omega
    rw [← hinside]
    by_cases hsign : 0 ≤ j
    · rw [if_pos hsign]
      cases hget : xs[j.toNat]? with
      | none =>
        have hlen : xs.length ≤ j.toNat := List.getElem?_eq_none_iff.mp hget
        constructor
        · rintro ⟨x, hx⟩
          cases hx
        · intro hlt
          omega
      | some x =>
        have hlen : j.toNat < xs.length := (List.getElem?_eq_some_iff.mp hget).1
        exact ⟨fun _ => ⟨hsign, by omega⟩, fun _ => ⟨x, rfl⟩⟩
    · rw [if_neg hsign]
      constructor
      · rintro ⟨x, hx⟩
        cases hx
      · exact fun hlt => absurd hlt.1 hsign

theorem signedGet_eq_ok {n : Nat} {x : α} (hx : xs[n]? = some x)
    (hbound : (xs.length : Int) ≤ positionBound) : signedGet xs n = .ok x := by
  have hn : n < xs.length := (List.getElem?_eq_some_iff.mp hx).1
  have hreach : ¬((n : Int) < -positionBound ∨ positionBound ≤ n) := by
    unfold positionBound at hbound ⊢
    omega
  have hsign : ¬(n : Int) < 0 := by omega
  have hpos : (0 : Int) ≤ n := by omega
  unfold signedGet
  rw [if_neg hreach]
  simp only [if_neg hsign, if_pos hpos, Int.toNat_natCast, hx]

theorem mapM_eq_ok {ε β : Type} {f : α → Except ε β} {g : α → β} (h : ∀ x ∈ xs, f x = .ok (g x)) :
    xs.mapM f = .ok (xs.map g) := by
  induction xs with
  | nil => rfl
  | cons x xs ih =>
    rw [List.mapM_cons, h x List.mem_cons_self, ih fun y hy => h y (List.mem_cons_of_mem x hy)]
    rfl

end Text

theorem Schema.string_ofString (s : String) : string (.string (Points.ofString s)) = .ok s := by
  unfold string textOf
  dsimp only
  rw [Points.text?_ofString]

theorem Schema.nullable_optional (n : Option Int) :
    nullable integer (.optional .int n) = .ok n := by
  cases n <;> rfl

/-- The schema asks of a location that its lines count from one, and nothing else. -/
theorem Location.read_write {l : Location} (h : 1 ≤ l.line) : Location.read l.write = .ok l := by
  have hline : Schema.integerFrom 1 (.int l.line) = .ok l.line := if_neg (Int.not_lt.mpr h)
  have hfile : Schema.string (.string l.file) = .ok l.file := Schema.string_ofString l.file
  simp [Location.read, Location.write, Schema.members, Schema.required, Schema.defaulted, Schema.both,
    Schema.inside, List.lookup_cons, Except.mapError, bind, Except.bind, pure, Except.pure, hfile, hline,
    Schema.nullable_optional]

namespace SourceLines

def contextLine (s : SourceLines) (span : Span) (number : Nat) : List Char :=
  (contextLineBy s.lineOrEmpty span number).run

theorem context_of_known {s : SourceLines} {span : Span} (hknown : span.isKnown = true) (around : Int) :
    s.context span around =
      .ofList ((s.contextNumbers span around).flatMap (s.contextLine span)) := by
  have hlines : contextLineBy s.lineOrEmpty span = fun number => pure (s.contextLine span number) := rfl
  unfold context contextBy
  rw [hknown, if_neg (by decide), hlines, List.mapM_pure, List.flatMap_def]
  rfl

theorem map_contextNumbers (s : SourceLines) (span : Span) (around : Int) :
    (s.contextNumbers span around).map Nat.cast =
      Int.range (max (span.startLine - around) 1)
        (min (span.endLine + around) s.lines.length + 1) := by
  generalize hfirst : max (span.startLine - around) 1 = first
  generalize hlast : min (span.endLine + around) (s.lines.length : Int) = last
  have hlength : last.toNat + 1 - first.toNat = (last + 1 - first).toNat := by omega
  have hcast : ((first.toNat : Nat) : Int) = first := by omega
  simp only [contextNumbers, Int.range, hfirst, hlast, hlength, List.range'_eq_map_range,
    List.map_map, Function.comp_def, Int.natCast_add, hcast]

theorem getElem?_lines {s : SourceLines} {index : Nat} (h : index < s.lines.length) :
    s.lines[index]? = some (s.lineAt index) := by
  rw [lineAt, List.getElem?_eq_getElem h]
  rfl

theorem bounds_of_mem_contextNumbers {s : SourceLines} {span : Span} {around : Int} {number : Nat}
    (h : number ∈ s.contextNumbers span around) : 1 ≤ number ∧ number ≤ s.lines.length := by
  have hmem : (number : Int) ∈ (s.contextNumbers span around).map Nat.cast := List.mem_map_of_mem h
  rw [map_contextNumbers, Int.mem_range_iff] at hmem
  omega

section Bounded
variable {s : SourceLines} {span : Span} (hbound : (s.lines.length : Int) ≤ positionBound)
include hbound

theorem lineNumbered_eq_ok {number : Int} (hfirst : 1 ≤ number) (hlast : number ≤ s.lines.length) :
    s.lineNumbered number = .ok (s.lineAt (number - 1).toNat) := by
  obtain ⟨n, hn⟩ := Int.eq_ofNat_of_zero_le (show 0 ≤ number - 1 by omega)
  have hline : s.lines[n]? = some (s.lineAt n) := getElem?_lines (by omega)
  rw [lineNumbered, hn, Int.toNat_natCast]
  exact signedGet_eq_ok hline hbound

theorem cutBy_eq_ok (hknown : span.isKnown = true) (hstart : span.startLine ≤ s.lines.length)
    (hend : span.endLine ≤ s.lines.length) : s.cutBy s.lineNumbered span = .ok (s.cut span) := by
  have hpos := Span.isKnown_iff.mp hknown
  rw [cut_eq]
  unfold cutBy
  rw [lineNumbered_eq_ok hbound hpos.1 hstart, lineNumbered_eq_ok hbound hpos.2 hend]
  split_ifs <;> rfl

theorem lookupSnippet_eq_ok : s.lookupSnippet span = .ok (s.snippet span) := by
  cases hknown : span.isKnown with
  | false =>
    unfold lookupSnippet snippet snippetBy
    rw [hknown]
    rfl
  | true =>
    rw [snippet_of_known hknown]
    unfold lookupSnippet snippetBy
    rw [hknown, if_neg (by decide)]
    split_ifs with hin
    · rfl
    · rw [not_or] at hin
      rw [cutBy_eq_ok hbound hknown (by omega) (by omega)]
      rfl

theorem contextLineBy_eq_ok {number : Nat} (hfirst : 1 ≤ number) (hlast : number ≤ s.lines.length) :
    contextLineBy s.lineNumbered span number = .ok (s.contextLine span number) := by
  unfold contextLineBy
  rw [lineNumbered_eq_ok hbound (by omega) (by omega)]
  rfl

theorem lookupContext_eq_ok (around : Int) :
    s.lookupContext span around = .ok (s.context span around) := by
  cases hknown : span.isKnown with
  | false =>
    unfold lookupContext context contextBy
    rw [hknown]
    rfl
  | true =>
    have hentries : (s.contextNumbers span around).mapM (contextLineBy s.lineNumbered span) =
        .ok ((s.contextNumbers span around).map (s.contextLine span)) := by
      apply mapM_eq_ok
      intro number hnumber
      obtain ⟨hfirst, hlast⟩ := bounds_of_mem_contextNumbers hnumber
      exact contextLineBy_eq_ok hbound hfirst hlast
    rw [context_of_known hknown]
    unfold lookupContext contextBy
    rw [hknown, if_neg (by decide), hentries, List.flatMap_def]
    rfl

theorem exists_signature_iff (hlines : 0 < s.lines.length) :
    (∃ header, s.signature span = .ok header) ↔ 1 - (s.lines.length : Int) ≤ span.startLine := by
  unfold signature
  split_ifs with hzero hpast
  · exact ⟨fun _ => by omega, fun _ => ⟨_, rfl⟩⟩
  · exact ⟨fun _ => by omega, fun _ => ⟨_, rfl⟩⟩
  · have hline := exists_signedGet_iff (i := span.startLine - 1) hbound
    cases hget : signedGet s.lines (span.startLine - 1) with
    | error e =>
      rw [hget] at hline
      constructor
      · rintro ⟨header, h⟩
        cases h
      · intro hle
        obtain ⟨line, h⟩ := hline.mpr (by omega)
        cases h
    | ok line =>
      have hinside := hline.mp ⟨line, hget⟩
      exact ⟨fun _ => by omega, fun _ => ⟨_, rfl⟩⟩

end Bounded

theorem one_le_line_location (s : SourceLines) (span : Span) : 1 ≤ (s.location span).line := by
  unfold location
  split_ifs with hpos
  · exact hpos
  · exact Int.le_refl 1

/-- Locations, snippets and contexts are there for every span. A signature is there exactly when the
start line, counted from the end of the text if it is below zero, leads to a line. -/
theorem answers_iff (text path : String) (hsize : (text.length : Int) < positionBound)
    (target : Option Span) (around : Int) :
    let s := ofText text path
    let span := target.getD .unknown
    Location.read (s.location span).write = .ok (s.location span) ∧
      s.lookupSnippet span = .ok (s.snippet span) ∧
      s.lookupContext span around = .ok (s.context span around) ∧
      ((∃ header, s.signature span = .ok header) ↔ 1 - (s.lines.length : Int) ≤ span.startLine) := by
  intro s span
  have hlength : s.lines.length ≤ text.length + 1 := length_splitLines_le text.toList
  have hbound : (s.lines.length : Int) ≤ positionBound := by omega
  exact ⟨Location.read_write (one_le_line_location s span), lookupSnippet_eq_ok hbound,
    lookupContext_eq_ok hbound around, exists_signature_iff hbound (length_splitLines_pos text.toList)⟩

/-- Minus one is one line before the last of two, which is the first. -/
theorem answers_iff_two_lines :
    let text := "use a;\nfn f() \x7b\x7d"
    let s := ofText text "lib.rs"
    let span : Span := ⟨-1, -4, 9, 2⟩
    (text.length : Int) < positionBound ∧ s.lookupSnippet span = .ok snippetUnavailable ∧
      s.lookupContext span (-3) = .ok contextUnavailable ∧ ∃ header, s.signature span = .ok header := by
  intro text s span
  have hsize : (text.length : Int) < positionBound := by decide
  obtain ⟨-, hsnippet, hcontext, hsignature⟩ := answers_iff text "lib.rs" hsize (some span) (-3)
  exact ⟨hsize, hsnippet, hcontext, hsignature.mpr (by decide)⟩

/-- Minus one leads to no line of a text of one line. -/
theorem signature_fails_below_zero :
    (ofText "fn f() \x7b\x7d" "lib.rs").signature ⟨-1, 0, -1, 0⟩ = .error .outside := by
  decide +kernel

end SourceLines

end AnchorAudit
