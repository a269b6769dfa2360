import AnchorAudit.Attribute
import AnchorAudit.Proofs.Blank
import AnchorAudit.Proofs.Lines

/-! Attributes as they are written: a name, and behind it tokens between delimiters, tokens behind an
equals sign, or nothing. Name and tokens are read back, whatever characters the tokens consist of. -/
namespace AnchorAudit

namespace Text

/-- Tables whose ranges lie apart have no code point in common. -/
theorem inRanges_eq_false {xs ys : List (Nat × Nat)}
    (h : ∀ r ∈ xs, ∀ s ∈ ys, r.2 < s.1 ∨ s.2 < r.1) {n : Nat} (hn : inRanges xs n = true) :
    inRanges ys n = false := by
  obtain ⟨r, hr, hbounds⟩ := List.any_eq_true.mp hn
  simp only [Bool.and_eq_true, decide_eq_true_eq] at hbounds
  refine List.any_eq_false.mpr fun s hs => ?_
  simp only [Bool.and_eq_true, decide_eq_true_eq]
  have hapart := h r hr s hs
  omega

/-- White space ends a word. -/
theorem isWord_eq_false_of_isBlank {c : Char} (hc : isBlank c = true) : isWord c = false := by
  have hapart : ∀ r ∈ blankRanges, ∀ s ∈ wordRanges, r.2 < s.1 ∨ s.2 < r.1 := by decide +kernel
  exact inRanges_eq_false hapart hc

end Text

open Text

namespace Attribute

abbrev Gap := { cs : List Char // Blank cs }

/-- A letter from A to Z of either case or an underscore, then characters of words and colons. -/
structure Name where
  first : Char
  rest : List Char
  opens : 'A' ≤ first ∧ first ≤ 'Z' ∨ 'a' ≤ first ∧ first ≤ 'z' ∨ first = '_'
  continues : rest.all (fun c => isWord c || c == ':') = true

def Name.chars (name : Name) : List Char := name.first :: name.rest

inductive Delimiter where
  | round
  | square
  | curly

namespace Delimiter

def opening : Delimiter → Char
  | round => '('
  | square => '['
  | curly => '\x7b'

def closing : Delimiter → Char
  | round => ')'
  | square => ']'
  | curly => '\x7d'

end Delimiter

/-- What stands behind the name. The tokens may be any text, with delimiters, equals signs and white
space in it and at its ends. -/
inductive Argument where
  | delimited (before : Gap) (d : Delimiter) (tokens : List Char) (after : Gap)
  | assigned (before : Gap) (tokens : List Char)
  | absent (after : Gap)

namespace Argument

def chars : Argument → List Char
  | delimited before d tokens after => before.1 ++ d.opening :: (tokens ++ d.closing :: after.1)
  | assigned before tokens => before.1 ++ '=' :: tokens
  | absent after => after.1

def tokens : Argument → List Char
  | delimited _ _ tokens _ => tokens
  | assigned _ tokens => tokens
  | absent _ => []

end Argument

/-- An attribute as it is written, without its square brackets. -/
structure Written where
  lead : Gap
  name : Name
  argument : Argument

def Written.chars (w : Written) : List Char := w.lead.1 ++ (w.name.chars ++ w.argument.chars)

/-- The trimmed text begins with marks, and `inner` is what follows them, trimmed again. -/
def Unmarked (text inner : List Char) : Prop :=
  ∃ marks rest, trim text = marks ++ rest ∧ trim rest = inner ∧
    (∀ c ∈ marks, c = '#' ∨ c = '!') ∧ ∀ c ∈ rest.head?, c ≠ '#' ∧ c ≠ '!'

/-- The text inside an attribute item: that of the attribute it holds. If it holds none, it is the text
of the item without its marks and without square brackets, where it has them. -/
inductive InnerText (source : Source) (n : Node) (cs : List Char) : Prop where
  | held {a : Node} (held : n.namedChildren.find? (·.kind == "attribute") = some a)
      (text : (source.textOf a).toList = cs)
  | bracketed (bare : ∀ a ∈ n.namedChildren, a.kind ≠ "attribute")
      (text : Unmarked (source.textOf n).toList ('[' :: (cs ++ [']'])))
  | plain (bare : ∀ a ∈ n.namedChildren, a.kind ≠ "attribute")
      (text : Unmarked (source.textOf n).toList cs) (outside : ∀ inside, cs ≠ '[' :: (inside ++ [']']))

/-- No character comes first that would continue a name. -/
def endsName (after : List Char) : Bool := after.head?.all (!continuesName ·)

namespace Delimiter
variable (d : Delimiter)

theorem closing?_opening : closing? d.opening = some d.closing := by
  cases d <;> rfl

theorem isBlank_opening : isBlank d.opening = false := by
  cases d <;> rfl

theorem isBlank_closing : isBlank d.closing = false := by
  cases d <;> rfl

theorem continuesName_opening : continuesName d.opening = false := by
  cases d <;> decide +kernel

theorem trim_delimited (before after : Gap) (tokens : List Char) :
    trim (before.1 ++ d.opening :: (tokens ++ d.closing :: after.1)) =
      d.opening :: (tokens ++ [d.closing]) := by
  have hopening : trimLeft (d.opening :: tokens) = d.opening :: tokens :=
    trimLeft_around d.isBlank_opening [] tokens
  calc trim (before.1 ++ d.opening :: (tokens ++ d.closing :: after.1))
      = trim (d.opening :: (tokens ++ d.closing :: after.1)) := trim_append_left before.2 _
    _ = trim ((d.opening :: tokens ++ [d.closing]) ++ after.1) := by simp
    _ = trim (d.opening :: tokens ++ [d.closing]) := trim_append_right after.2 _
    _ = trimLeft (d.opening :: tokens) ++ [d.closing] := trim_around d.isBlank_closing _ []
    _ = d.opening :: (tokens ++ [d.closing]) := by rw [hopening, List.cons_append]

theorem tokensOf_delimited (tokens : List Char) :
    tokensOf (d.opening :: (tokens ++ [d.closing])) = trim tokens := by
  have hlast : (d.opening :: (tokens ++ [d.closing])).getLast? = some d.closing := by
    rw [← List.cons_append, List.getLast?_concat]
  rw [tokensOf, hlast, d.closing?_opening, List.dropLast_concat]
  simp

end Delimiter

namespace Name
variable (name : Name)

theorem opensName_first : opensName name.first = true := by
  have halpha : name.first.isAlpha = (decide ('A' ≤ name.first ∧ name.first ≤ 'Z') ||
      decide ('a' ≤ name.first) && decide (name.first ≤ 'z')) := rfl
  rw [opensName, halpha]
  simpa [or_assoc] using name.opens

theorem isBlank_first : isBlank name.first = false := by
  have hbounds : 0x41 ≤ name.first.toNat ∧ name.first.toNat ≤ 0x7A := by
    have h := name.opens
    simp only [Char.le_def, UInt32.le_iff_toNat_le] at h
    rcases h with h | h | h
    · change 0x41 ≤ name.first.toNat ∧ name.first.toNat ≤ 0x5A at h
      omega
    · change 0x61 ≤ name.first.toNat ∧ name.first.toNat ≤ 0x7A at h
      omega
    · rw [h]
      decide
  have hapart : ∀ r ∈ [(0x41, 0x7A)], ∀ s ∈ blankRanges, r.2 < s.1 ∨ s.2 < r.1 := by decide
  exact inRanges_eq_false hapart (by simp [inRanges, hbounds])

theorem continuesName_of_mem {c : Char} (hc : c ∈ name.rest) : continuesName c = true :=
  List.all_eq_true.mp name.continues c hc

theorem splitName?_append (lead : Gap) {after : List Char} (hafter : endsName after = true) :
    splitName? (lead.1 ++ (name.chars ++ after)) = some (name.chars, trim after) := by
  have hfront : trimLeft (lead.1 ++ (name.chars ++ after)) = name.first :: (name.rest ++ after) := by
    rw [trimLeft_append lead.2]
    exact trimLeft_around name.isBlank_first [] (name.rest ++ after)
  obtain ⟨hname, hrest⟩ := run_append (fun _ => name.continuesName_of_mem) hafter
  unfold splitName?
  rw [hfront]
  simp only [name.opensName_first, if_true, hname, hrest]
  rfl

end Name

theorem continuesName_eq_false_of_isBlank {c : Char} (hc : isBlank c = true) : continuesName c = false := by
  have hcolon : c ≠ ':' := by
    rintro rfl
    cases hc
  simp [continuesName, isWord_eq_false_of_isBlank hc, hcolon]

/-- White space ends a name, and without it what follows has to. -/
theorem Gap.endsName_append (gap : Gap) {after : List Char} (hafter : endsName after = true) :
    endsName (gap.1 ++ after) = true := by
  obtain ⟨cs, hcs⟩ := gap
  cases cs with
  | nil => exact hafter
  | cons c cs => simp [endsName, continuesName_eq_false_of_isBlank (hcs c List.mem_cons_self)]

namespace Argument

theorem endsName_chars (a : Argument) : endsName a.chars = true := by
  cases a with
  | delimited before d tokens after =>
    exact before.endsName_append (by simp [endsName, d.continuesName_opening])
  | assigned before tokens =>
    have hequals : continuesName '=' = false := by decide +kernel
    exact before.endsName_append (by simp [endsName, hequals])
  | absent after =>
    have hend : endsName [] = true := rfl
    have hgap := after.endsName_append hend
    rwa [List.append_nil] at hgap

/-- The tokens that were written come back trimmed. -/
theorem tokensOf_trim_chars (a : Argument) : tokensOf (trim a.chars) = trim a.tokens := by
  cases a with
  | delimited before d tokens after =>
    rw [chars, d.trim_delimited, d.tokensOf_delimited]
    rfl
  | assigned before tokens =>
    have hequals : isBlank '=' = false := rfl
    have htrim : trim ('=' :: tokens) = '=' :: trimRight tokens := trim_around hequals [] tokens
    rw [chars, trim_append_left before.2, htrim]
    exact trim_trimRight tokens
  | absent after =>
    rw [chars, trim_of_blank after.2]
    rfl

end Argument

theorem ofText_written (w : Written) :
    ofText w.chars =
      ⟨.ofList w.name.chars, .ofList (trim w.argument.tokens), .ofList w.chars⟩ := by
  unfold ofText
  rw [Written.chars, w.name.splitName?_append w.lead w.argument.endsName_chars]
  simp only [w.argument.tokensOf_trim_chars]

theorem isMark_iff {c : Char} : isMark c = true ↔ c = '#' ∨ c = '!' := by
  simp [isMark]

theorem unmarked_iff {text inner : List Char} :
    Unmarked text inner ↔ trim ((trim text).dropWhile isMark) = inner := by
  constructor
  · rintro ⟨marks, rest, htext, hinner, hmarks, hrest⟩
    have hstop : rest.head?.all (!isMark ·) = true := by
      rw [Option.all_eq_true]
      intro c hc
      simpa [isMark] using hrest c hc
    rw [htext, (run_append (fun c hc => isMark_iff.mpr (hmarks c hc)) hstop).2, hinner]
  · intro h
    refine ⟨(trim text).takeWhile isMark, _, List.takeWhile_append_dropWhile.symm, h, ?_, ?_⟩
    · intro c hc
      exact isMark_iff.mp (List.mem_takeWhile_imp hc)
    · intro c hc
      have hnot := List.head?_dropWhile_not isMark (trim text)
      rw [Option.mem_def.mp hc] at hnot
      simpa [isMark] using hnot

theorem bracketed_iff {cs : List Char} :
    cs.head? = some '[' ∧ cs.getLast? = some ']' ↔ ∃ inside, cs = '[' :: (inside ++ [']']) := by
  constructor
  · rintro ⟨hfirst, hlast⟩
    obtain ⟨front, rfl⟩ := List.getLast?_eq_some_iff.mp hlast
    cases front with
    | nil => cases hfirst
    | cons c inside =>
      obtain rfl : c = '[' := Option.some.inj hfirst
      exact ⟨inside, rfl⟩
  · rintro ⟨inside, rfl⟩
    exact ⟨rfl, by rw [← List.cons_append, List.getLast?_concat]⟩

theorem unwrap_eq_iff {text cs : List Char} :
    unwrap text = cs ↔ Unmarked text ('[' :: (cs ++ [']'])) ∨
      Unmarked text cs ∧ ∀ inside, cs ≠ '[' :: (inside ++ [']']) := by
  rw [unmarked_iff, unmarked_iff]
  unfold unwrap
  generalize trim ((trim text).dropWhile isMark) = inner
  dsimp only
  split_ifs with hinner <;> rw [bracketed_iff] at hinner
  · obtain ⟨inside, rfl⟩ := hinner
    rw [List.tail_cons, List.dropLast_concat]
    constructor
    · rintro rfl
      exact Or.inl rfl
    · rintro (h | ⟨h, hnot⟩)
      · exact List.append_cancel_right (List.cons.inj h).2
      · exact absurd h.symm (hnot inside)
  · constructor
    · rintro rfl
      exact Or.inr ⟨rfl, not_exists.mp hinner⟩
    · rintro (h | ⟨h, -⟩)
      · exact absurd ⟨cs, h⟩ hinner
      · exact h

theorem ofText_text (cs : List Char) : (ofText cs).text = .ofList cs := by
  unfold ofText
  split <;> rfl

namespace InnerText
variable {source : Source} {n : Node} {cs : List Char}

theorem find?_eq_none_iff : n.namedChildren.find? (·.kind == "attribute") = none ↔
    ∀ a ∈ n.namedChildren, a.kind ≠ "attribute" := by
  simp only [List.find?_eq_none, beq_iff_eq, ne_eq]

theorem ofNode_eq (h : InnerText source n cs) : ofNode source n = ofText cs := by
  unfold ofNode
  cases h with
  | held hheld htext => rw [hheld, ← htext]
  | bracketed hbare htext =>
    rw [find?_eq_none_iff.mpr hbare, ← unwrap_eq_iff.mpr (Or.inl htext)]
  | plain hbare htext houtside =>
    rw [find?_eq_none_iff.mpr hbare, ← unwrap_eq_iff.mpr (Or.inr ⟨htext, houtside⟩)]

/-- Every node has one inner text, and its attribute keeps it. -/
theorem iff_text : InnerText source n cs ↔ (ofNode source n).text = .ofList cs := by
  constructor
  · intro h
    rw [h.ofNode_eq, ofText_text]
  · intro h
    unfold ofNode at h
    cases hheld : n.namedChildren.find? (·.kind == "attribute") with
    | some a =>
      rw [hheld, ofText_text, String.ofList_inj] at h
      exact .held hheld h
    | none =>
      have hbare := find?_eq_none_iff.mp hheld
      rw [hheld, ofText_text, String.ofList_inj] at h
      rcases unwrap_eq_iff.mp h with htext | ⟨htext, houtside⟩
      · exact .bracketed hbare htext
      · exact .plain hbare htext houtside

end InnerText

/-- What is written in an attribute is read back from its node: the name, and the tokens without the
white space at their two ends. From no other text does the node get this attribute. -/
theorem ofNode_written_iff (source : Source) (n : Node) (w : Written) :
    InnerText source n w.chars ↔
      ofNode source n =
        ⟨.ofList w.name.chars, .ofList (trim w.argument.tokens), .ofList w.chars⟩ := by
  constructor
  · intro h
    rw [h.ofNode_eq, ofText_written]
  · intro h
    exact InnerText.iff_text.mpr (congrArg Attribute.text h)

/-- An item that holds no attribute, with an equals sign and unmatched delimiters among its tokens, and an
item that holds one, with a closing bracket in the text that it assigns. -/
theorem ofNode_written_iff_items :
    let source := Source.ofText "#![ a::é\n[ (x] = ] ] #[doc = \"]\"]"
    let node (kind : String) (start stop : Nat) (children : List Node) :=
      Node.mk ⟨kind, true, false, false, none, start, stop⟩ children
    let listed := node "attribute_item" 0 21 []
    let assigned := node "attribute_item" 22 34 [node "attribute" 24 33 []]
    let w : Written := {
      lead := ⟨[' '], by decide⟩
      name := ⟨'a', [':', ':', 'é'], by decide, by decide +kernel⟩
      argument := .delimited ⟨['\n'], by decide⟩ .square " (x] = ".toList ⟨[' '], by decide⟩ }
    let v : Written := {
      lead := ⟨[], by decide⟩
      name := ⟨'d', ['o', 'c'], by decide, by decide +kernel⟩
      argument := .assigned ⟨[' '], by decide⟩ " \"]\"".toList }
    InnerText source listed w.chars ∧ InnerText source assigned v.chars ∧
      ofNode source listed = ⟨"a::é", "(x] =", " a::é\n[ (x] = ] "⟩ ∧
      ofNode source assigned = ⟨"doc", "\"]\"", "doc = \"]\""⟩ := by
  intro source node listed assigned w v
  have hlisted : InnerText source listed w.chars :=
    .bracketed (by decide) (unmarked_iff.mpr (by decide +kernel))
  have hassigned : InnerText source assigned v.chars := .held rfl (by decide +kernel)
  refine ⟨hlisted, hassigned, ?_, ?_⟩
  · rw [(ofNode_written_iff source listed w).mp hlisted]
    decide +kernel
  · rw [(ofNode_written_iff source assigned v).mp hassigned]
    decide +kernel

end Attribute

end AnchorAudit
