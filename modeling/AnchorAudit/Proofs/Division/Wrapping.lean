import AnchorAudit.Check.Division
import Mathlib.Data.List.Basic

/-! Parentheses and casts around a divisor. The search looks through them to the first thing inside, and
a comment in front of the expression is taken for the expression. -/
namespace AnchorAudit.Division

/-- A cast, or parentheses with comments before and behind the expression. -/
inductive Layer (inner : Node) : List Node → Node → Prop where
  | parentheses {whole : Node} {before behind : List Node}
      (hkind : whole.kind = "parenthesized_expression")
      (hinside : whole.namedChildren = before ++ inner :: behind)
      (hbefore : ∀ c ∈ before, Place.isComment c = true)
      (hbehind : ∀ c ∈ behind, Place.isComment c = true) : Layer inner before whole
  | cast {whole : Node} (hkind : whole.kind = "type_cast_expression")
      (hvalue : whole.child? "value" = some inner) : Layer inner [] whole

/-- Any number of layers around an expression, with the comments that stand before it. -/
inductive Wrapping (e : Node) : List Node → Node → Prop where
  | bare : Wrapping e [] e
  | layer {inner whole : Node} {before comments : List Node} (hinner : Wrapping e comments inner)
      (hlayer : Layer inner before whole) : Wrapping e (before ++ comments) whole

theorem unwrap_parentheses {n first : Node} {others : List Node}
    (hkind : n.kind = "parenthesized_expression") (h : n.namedChildren = first :: others) :
    unwrap n = unwrap first := by
  have hfirst (whole : Node) (cs : List Node) (hcs : cs.filter Node.isNamed = first :: others) :
      unwrapFirst whole cs = unwrap first := by
    induction cs with
    | nil => cases hcs
    | cons c cs ih =>
      rw [unwrapFirst]
      cases hc : c.isNamed with
      | true =>
        rw [List.filter_cons_of_pos hc] at hcs
        cases hcs
        rfl
      | false =>
        rw [List.filter_cons_of_neg (by simp [hc])] at hcs
        exact ih hcs
  cases n with
  | mk l cs =>
    have hl : l.kind = "parenthesized_expression" := hkind
    rw [unwrap, hl]
    exact hfirst (.mk l cs) cs h

theorem unwrap_cast {n value : Node} (hkind : n.kind = "type_cast_expression")
    (h : n.child? "value" = some value) : unwrap n = unwrap value := by
  have hvalue (whole : Node) (cs : List Node)
      (hcs : cs.find? (·.label.field == some "value") = some value) :
      unwrapValue whole cs = unwrap value := by
    induction cs with
    | nil => cases hcs
    | cons c cs ih =>
      rw [unwrapValue]
      rw [List.find?_cons] at hcs
      cases hc : c.label.field == some "value" with
      | true =>
        rw [hc] at hcs
        cases hcs
        rfl
      | false =>
        rw [hc] at hcs
        exact ih hcs
  cases n with
  | mk l cs =>
    have hl : l.kind = "type_cast_expression" := hkind
    rw [unwrap, hl]
    exact hvalue (.mk l cs) cs h

section Risk
variable {source : Source} {safe : List String}

theorem isRisky_congr {n m : Node} (h : unwrap n = unwrap m) :
    isRisky source safe n = isRisky source safe m := by
  unfold isRisky
  rw [h]

theorem isRisky_comment {n : Node} (h : Place.isComment n = true) :
    isRisky source safe n = .ok false := by
  have hkind : n.kind = "line_comment" ∨ n.kind = "block_comment" := by
    simpa [Place.isComment] using h
  have hunwrap : unwrap n = n := by
    cases n with
    | mk l cs =>
      have hl : l.kind = "line_comment" ∨ l.kind = "block_comment" := hkind
      rw [unwrap]
      rcases hl with hl | hl <;> simp [hl]
  unfold isRisky
  rw [hunwrap]
  rcases hkind with hkind | hkind <;> simp [isNumber, hkind]

theorem Layer.isRisky_eq {inner whole : Node} {before : List Node} (h : Layer inner before whole) :
    isRisky source safe whole = if before = [] then isRisky source safe inner else .ok false := by
  cases h with
  | parentheses hkind hinside hbefore hbehind =>
    cases before with
    | nil => exact isRisky_congr (unwrap_parentheses hkind hinside)
    | cons comment rest =>
      rw [isRisky_congr (unwrap_parentheses hkind hinside), if_neg (List.cons_ne_nil comment rest)]
      exact isRisky_comment (hbefore comment List.mem_cons_self)
  | cast hkind hvalue => exact isRisky_congr (unwrap_cast hkind hvalue)

theorem Wrapping.isRisky_eq {e whole : Node} {comments : List Node} (h : Wrapping e comments whole) :
    isRisky source safe whole = if comments = [] then isRisky source safe e else .ok false := by
  induction h with
  | bare => rfl
  | @layer inner whole before comments hinner hlayer ih =>
    rw [hlayer.isRisky_eq, ih]
    cases before <;> rfl

/-- Layers around a divisor make no difference to its risk exactly when no comment stands before it, or
when it is no risk by itself. Behind a comment every divisor passes for harmless. -/
theorem isRisky_wrapping_iff {e whole : Node} {comments : List Node}
    (h : Wrapping e comments whole) :
    (isRisky source safe whole = isRisky source safe e ↔
        comments = [] ∨ isRisky source safe e = .ok false) ∧
      (comments ≠ [] → isRisky source safe whole = .ok false) := by
  rw [h.isRisky_eq]
  by_cases hcomments : comments = []
  · simp [hcomments]
  · simp [hcomments, eq_comm]

end Risk

/-- In `((0 /* c */) as u64)` the comment stands behind the zero and does no harm. -/
theorem isRisky_wrapping_trailing :
    let source := Source.ofText "((0 /* c */) as u64)"
    let node (kind : String) (field : Option String) (start stop : Nat) (children : List Node) :=
      Node.mk ⟨kind, true, false, false, field, start, stop⟩ children
    let zero := node "integer_literal" none 2 3 []
    let inner := node "parenthesized_expression" (some "value") 1 12
      [zero, node "block_comment" none 4 11 []]
    let cast := node "type_cast_expression" none 1 19
      [inner, node "primitive_type" (some "type") 16 19 []]
    let whole := node "parenthesized_expression" none 0 20 [cast]
    Wrapping zero [] whole ∧ isRisky source [] zero = .ok true ∧
      isRisky source [] whole = isRisky source [] zero := by
  intro source node zero inner cast whole
  have hinside : inner.namedChildren = [] ++ zero :: [node "block_comment" none 4 11 []] := rfl
  have hinner : Layer zero [] inner := .parentheses rfl hinside (by simp) (by decide)
  have hcast : Layer inner [] cast := .cast rfl rfl
  have hwhole : Layer cast [] whole := .parentheses rfl rfl (by simp) (by simp)
  have hwrapping : Wrapping zero [] whole := .layer (.layer (.layer .bare hinner) hcast) hwhole
  have hzero : isRisky source [] zero = .ok true := by decide +kernel
  exact ⟨hwrapping, hzero, (isRisky_wrapping_iff hwrapping).1.mpr (.inl rfl)⟩

/-- In `fn f(x: u64) { x / (/* c */ 0) }` the comment hides the zero, and the function passes. -/
theorem isRisky_hidden_by_comment :
    let source := Source.ofText "fn f(x: u64) \x7b x / (/* c */ 0) \x7d"
    let node (kind : String) (field : Option String) (start stop : Nat) (children : List Node) :=
      Node.mk ⟨kind, true, false, false, field, start, stop⟩ children
    let comment := node "block_comment" none 20 27 []
    let zero := node "integer_literal" none 28 29 []
    let whole := node "parenthesized_expression" (some "right") 19 30 [comment, zero]
    let quotient := node "binary_expression" none 15 30
      [node "identifier" (some "left") 15 16 [], node "/" (some "operator") 17 18 [], whole]
    let function := node "function_item" none 0 32
      [node "identifier" (some "name") 3 4 [], node "block" (some "body") 13 32 [quotient]]
    Wrapping zero [comment] whole ∧ isRisky source [] zero = .ok true ∧
      isRisky source [] whole = .ok false ∧
      riskyDivision (.placed .function ⟨source, function, []⟩) = .ok false := by
  intro source node comment zero whole quotient function
  have hinside : whole.namedChildren = [comment] ++ zero :: [] := rfl
  have hlayer : Layer zero [comment] whole := .parentheses rfl hinside (by decide) (by simp)
  have hwrapping : Wrapping zero [comment] whole := .layer .bare hlayer
  refine ⟨hwrapping, ?_, ?_, ?_⟩
  · decide +kernel
  · decide +kernel
  · decide +kernel

end AnchorAudit.Division
