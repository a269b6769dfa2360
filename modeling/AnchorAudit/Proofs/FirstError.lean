import AnchorAudit.Proofs.Node
import AnchorAudit.SyntaxFile

/-! Syntax errors. The search for the first one passes over the trees that are not flagged; where every
tree with an error in it is flagged, it finds what a walk through all nodes finds. -/
namespace AnchorAudit

namespace Node

/-- Every node of a tree that has an error in its own tree is flagged. -/
def Flagged (root : Node) : Prop :=
  ∀ n ∈ root.subtree, (∃ e ∈ n.subtree, e.isError = true) → n.hasError = true

theorem self_mem_preorder (n : Node) : n ∈ n.preorder := by
  cases n with
  | mk l cs =>
    rw [preorder]
    exact List.mem_cons_self

theorem Flagged.child {l : Label} {cs : List Node} (h : Flagged (mk l cs)) {c : Node} (hc : c ∈ cs) :
    Flagged c := by
  intro n hn
  apply h
  rw [subtree_eq, preorder]
  rw [subtree_eq] at hn
  exact List.mem_cons_of_mem _ (mem_preorderAll.mpr ⟨c, hc, hn⟩)

/-- A tree that is not flagged can be passed over. -/
theorem Flagged.find?_eq_none {n : Node} (h : n.Flagged) (hfree : n.hasError = false) :
    n.preorder.find? isError = none := by
  rw [List.find?_eq_none]
  intro e he herror
  rw [← subtree_eq] at he
  have hself : n ∈ n.subtree := by
    rw [subtree_eq]
    exact self_mem_preorder n
  have hflag := h n hself ⟨e, he, herror⟩
  rw [hfree] at hflag
  cases hflag

theorem firstErrorAmong?_eq {cs : List Node} (hflagged : ∀ c ∈ cs, c.Flagged)
    (hfirst : ∀ c ∈ cs, c.firstError? = c.preorder.find? isError) :
    firstErrorAmong? cs = (preorderAll cs).find? isError := by
  induction cs with
  | nil => rw [firstErrorAmong?, preorderAll, List.find?_nil]
  | cons c cs ih =>
    rw [List.forall_mem_cons] at hflagged hfirst
    have hrest := ih hflagged.2 hfirst.2
    rw [firstErrorAmong?, preorderAll, List.find?_append, hrest]
    cases hc : c.hasError with
    | true => rw [if_pos rfl, hfirst.1]
    | false =>
      rw [if_neg Bool.false_ne_true, hflagged.1.find?_eq_none hc]
      exact Option.none_or.symm

theorem firstError?_eq {n : Node} (h : n.Flagged) : n.firstError? = n.preorder.find? isError := by
  induction n using treeInduction with
  | mk l cs ih =>
    have hflagged (c : Node) (hc : c ∈ cs) : c.Flagged := h.child hc
    have hamong := firstErrorAmong?_eq hflagged fun c hc => ih c hc (hflagged c hc)
    rw [firstError?, preorder, List.find?_cons, hamong]
    cases isError (mk l cs) with
    | true => rfl
    | false => rfl

end Node

namespace SyntaxFile

theorem syntaxErrorReason_of_some {source : Source} {root n : Node} (h : root.firstError? = some n) :
    syntaxErrorReason source root =
      "syntax error near line " ++ toString (source.position n.label.start).line := by
  unfold syntaxErrorReason
  rw [h, ← String.append_assoc]
  rfl

theorem syntaxErrorReason_of_none {source : Source} {root : Node} (h : root.firstError? = none) :
    syntaxErrorReason source root = "syntax error near unknown position" := by
  unfold syntaxErrorReason
  rw [h]
  rfl

theorem line_ne_unknown (line : String) :
    "syntax error near line " ++ line ≠ "syntax error near unknown position" := by
  intro h
  have hletter := congrArg (·.toList[18]?) h
  simp only [String.toList_append] at hletter
  cases hletter

/-- A text is refused when its tree is flagged, and for no other reason. -/
theorem load_eq_error_iff {path text : String} {root : Node} {e : ParseError} :
    load path text root = .error e ↔
      root.hasError = true ∧ e = ⟨path, syntaxErrorReason (.ofText text) root⟩ := by
  unfold load
  dsimp only
  constructor
  · intro h
    split at h
    · rename_i hflag
      cases h
      exact ⟨hflag, rfl⟩
    · cases h
  · intro h
    rw [if_pos h.1, h.2]

/-- Where every tree with an error in it is flagged, the first error of a tree is the first node of a walk
through it that marks one. A text is refused when its tree is flagged, with the line of that node, and the
position is unknown only when there is none. -/
theorem load_names_first_error {root : Node} (h : root.Flagged) :
    root.firstError? = root.subtree.find? Node.isError ∧
    (root.firstError? = none ↔ ∀ n ∈ root.subtree, n.isError = false) ∧
    ∀ path text,
      ((∃ e, load path text root = .error e) ↔ root.hasError = true) ∧
      ∀ e, load path text root = .error e →
        e.path = path ∧
        (∀ n, root.subtree.find? Node.isError = some n → e.reason =
          "syntax error near line " ++ toString ((Source.ofText text).position n.label.start).line) ∧
        (e.reason = "syntax error near unknown position" ↔
          ∀ n ∈ root.subtree, n.isError = false) := by
  have hfirst : root.firstError? = root.subtree.find? Node.isError := by
    rw [Node.firstError?_eq h, Node.subtree_eq]
  have hnone : root.firstError? = none ↔ ∀ n ∈ root.subtree, n.isError = false := by
    rw [hfirst, List.find?_eq_none]
    simp only [Bool.not_eq_true]
  refine ⟨hfirst, hnone, fun path text => ⟨?_, ?_⟩⟩
  · simp only [load_eq_error_iff, exists_and_left, exists_eq, and_true]
  · intro e he
    obtain ⟨-, rfl⟩ := load_eq_error_iff.mp he
    refine ⟨rfl, ?_, ?_⟩
    · intro n hn
      exact syntaxErrorReason_of_some (hfirst.trans hn)
    · rw [← hnone]
      constructor
      · intro hunknown
        cases hsearch : root.firstError? with
        | none => rfl
        | some n =>
          have hline : syntaxErrorReason (.ofText text) root = _ :=
            syntaxErrorReason_of_some hsearch
          exact absurd (hline.symm.trans hunknown) (line_ne_unknown _)
      · exact syntaxErrorReason_of_none

/-- A flagged tree without an error in it comes first, and the error is a semicolon that is missing. -/
theorem load_names_first_error_missing :
    let node (kind : String) (isMissing hasError : Bool) (start stop : Nat) (children : List Node) :=
      Node.mk ⟨kind, true, isMissing, hasError, none, start, stop⟩ children
    let root := node "source_file" false true 0 17
      [node "function_item" false true 0 7 [node "block" false false 5 7 []],
       node "struct_item" false true 8 17 [node "identifier" false false 15 16 [], node ";" true true 16 16 []],
       node "ERROR" false true 16 17 []]
    root.Flagged ∧ ∃ e, load "lib.rs" "fn f \x7b\x7d\nstruct\nS \x7d" root = .error e ∧ e.path = "lib.rs" ∧
      e.reason = "syntax error near line 3" := by
  intro node root
  have hflagged : root.Flagged := by
    unfold Node.Flagged
    simp only [Node.subtree_eq]
    decide
  obtain ⟨-, -, hload⟩ := load_names_first_error hflagged
  obtain ⟨hrefused, hnamed⟩ := hload "lib.rs" "fn f \x7b\x7d\nstruct\nS \x7d"
  obtain ⟨e, he⟩ := hrefused.mpr rfl
  obtain ⟨hpath, hline, -⟩ := hnamed e he
  have hfirst : root.subtree.find? Node.isError = some (node ";" true true 16 16 []) := by
    rw [Node.subtree_eq]
    rfl
  refine ⟨hflagged, e, he, hpath, ?_⟩
  rw [hline _ hfirst]
  decide +kernel

end SyntaxFile

end AnchorAudit
