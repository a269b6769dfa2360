import AnchorAudit.Check
import AnchorAudit.Proofs.Node

/-! What lies in the body of a subject. Unsafe code, calls and owner checks are looked for in all of a
body, so what a function or a block in the body of a function shows, the function shows too. -/
namespace AnchorAudit

namespace Subject

/-- The nodes at any depth in the body of a subject, the body itself among them. -/
def Encloses (s : Subject) (n : Node) : Prop :=
  ∃ body path, s.body? = some body ∧ body.at? path = some n

theorem exists_at?_of_body? {role : Role} {p : Place} {body : Node}
    (h : (placed role p).body? = some body) : ∃ path, p.node.at? path = some body := by
  cases role with
  | block => exact ⟨[], h⟩
  | expression => exact ⟨[], h⟩
  | _ => exact Node.exists_at?_of_child? h

theorem Encloses.trans {s : Subject} {role : Role} {p : Place} {n : Node} (hp : s.Encloses p.node)
    (hn : (placed role p).Encloses n) : s.Encloses n := by
  obtain ⟨outer, above, houter, habove⟩ := hp
  obtain ⟨inner, below, hinner, hbelow⟩ := hn
  obtain ⟨between, hbetween⟩ := exists_at?_of_body? hinner
  refine ⟨outer, above ++ (between ++ below), houter, ?_⟩
  rw [Node.at?_append, habove, Option.bind_some, Node.at?_append, hbetween, Option.bind_some, hbelow]

/-- A walk through the body of a subject comes to what the subject encloses. -/
theorem exists_encloses_iff {s : Subject} {P : Node → Prop} :
    (∃ n, s.Encloses n ∧ P n) ↔ ∃ body, s.body? = some body ∧ ∃ n ∈ body.subtree, P n := by
  simp only [Node.mem_subtree_iff]
  constructor
  · intro h
    obtain ⟨n, ⟨body, path, hbody, hpath⟩, hn⟩ := h
    exact ⟨body, hbody, n, ⟨path, hpath⟩, hn⟩
  · intro h
    obtain ⟨body, hbody, n, ⟨path, hpath⟩, hn⟩ := h
    exact ⟨n, ⟨body, path, hbody, hpath⟩, hn⟩

theorem body_any_iff {s : Subject} {test : Node → Bool} :
    s.body?.any (·.subtree.any test) = true ↔ ∃ n, s.Encloses n ∧ test n = true := by
  rw [exists_encloses_iff]
  simp only [Option.any_eq_true, List.any_eq_true]

end Subject

namespace Owner

/-- A function checks an owner when a node in its body gives evidence of it. -/
theorem ownerCheck_iff {role : Role} (hrole : role.isFunction = true) (p : Place) :
    ownerCheck (.placed role p) = true ↔
      ∃ n, (Subject.placed role p).Encloses n ∧ (ownerEvidence? p.source n).isSome = true := by
  have hstruct : (Subject.placed role p).isStruct = false := by
    cases role with
    | struct => cases hrole
    | _ => rfl
  have hfunction : (Subject.placed role p).isFunction = true := hrole
  rw [Subject.exists_encloses_iff]
  unfold ownerCheck bodyEvidence ownerEvidence
  rw [hstruct, if_neg Bool.false_ne_true, hfunction, Bool.true_and]
  cases (Subject.placed role p).body? with
  | none =>
    simp only [List.isEmpty_nil, Bool.not_true, Bool.false_eq_true, reduceCtorEq, false_and,
      exists_false]
  | some body =>
    simp only [Bool.not_eq_true', List.isEmpty_eq_false_iff_exists_mem, List.mem_filterMap,
      Option.isSome_iff_exists, Option.some.injEq, exists_eq_left']
    constructor
    · intro h
      obtain ⟨evidence, n, hn, hevidence⟩ := h
      exact ⟨n, hn, evidence, hevidence⟩
    · intro h
      obtain ⟨n, hn, evidence, hevidence⟩ := h
      exact ⟨evidence, n, hn, hevidence⟩

end Owner

def Role.HoldsCode (role : Role) : Prop := role = .block ∨ role.isFunction = true

namespace Query

/-- A stage keeps a subject when it leaves it in every query that has it. -/
def Keeps (stage : Query → Query) (s : Subject) : Prop :=
  ∀ q : Query, s ∈ q.subjects → s ∈ (stage q).subjects

theorem keeps_narrow_iff {test : Subject → Bool} {s : Subject} :
    Keeps (narrow test) s ↔ test s = true := by
  unfold Keeps narrow
  constructor
  · intro h
    have hkept := h ⟨.general, [s]⟩ List.mem_cons_self
    exact (List.mem_filter.mp hkept).2
  · intro h q hs
    exact List.mem_filter.mpr ⟨hs, h⟩

/-- A function item that is declared unsafe, or an unsafe block. -/
def IsUnsafe (source : Source) (n : Node) : Prop :=
  n.kind = "unsafe_block" ∨ n.kind = "function_item" ∧ hasUnsafeModifier source n = true

theorem keeps_usesUnsafe_iff {role : Role} (hrole : role.HoldsCode) (p : Place) :
    Keeps usesUnsafe (.placed role p) ↔
      role.isFunction = true ∧ hasUnsafeModifier p.source p.node = true ∨
        ∃ n, (Subject.placed role p).Encloses n ∧ IsUnsafe p.source n := by
  have hkeeps : Keeps usesUnsafe (.placed role p) ↔ usesUnsafeCode (.placed role p) = true :=
    keeps_narrow_iff
  have hcode : usesUnsafeCode (.placed role p) =
      (role.isFunction && hasUnsafeModifier p.source p.node ||
        (Subject.placed role p).body?.any (containsUnsafe p.source)) := by
    rcases hrole with rfl | hfunction
    · rfl
    · cases role with
      | function => rfl
      | associatedFunction => rfl
      | _ => cases hfunction
  have hbody : (Subject.placed role p).body?.any (containsUnsafe p.source) = true ↔
      ∃ n, (Subject.placed role p).Encloses n ∧ IsUnsafe p.source n := by
    unfold containsUnsafe IsUnsafe
    rw [Subject.body_any_iff]
    simp only [Bool.or_eq_true, Bool.and_eq_true, beq_iff_eq]
  rw [hkeeps, hcode, Bool.or_eq_true, Bool.and_eq_true, hbody]

theorem keeps_callsTo_iff {role : Role} (hrole : role.HoldsCode) (p : Place) (name : String) :
    Keeps (callsTo name) (.placed role p) ↔ ∃ n, (Subject.placed role p).Encloses n ∧
      n.kind = "call_expression" ∧ calleeName? p.source n = some name := by
  have hkeeps : Keeps (callsTo name) (.placed role p) ↔ callsFunction name (.placed role p) = true :=
    keeps_narrow_iff
  have hcode : (role.isFunction || role == .block) = true := by
    rcases hrole with rfl | hfunction
    · rfl
    · rw [hfunction]
      rfl
  have hbody : callsFunction name (.placed role p) =
      (Subject.placed role p).body?.any (hasCallTo p.source name) := by
    unfold callsFunction
    dsimp only
    rw [hcode, Bool.true_and]
    rfl
  unfold hasCallTo at hbody
  rw [hkeeps, hbody, Subject.body_any_iff]
  simp only [Bool.and_eq_true, beq_iff_eq]

/-- What a function or a block shows, every function shows that has it somewhere in its body: unsafe code,
the call of a name, the check of an owner. A function shows what some node of its body shows by itself, and
unsafe code also when it is declared unsafe. -/
theorem keeps_of_encloses {role inner : Role} {f : Place} {n : Node} (hrole : role.isFunction = true)
    (hinner : inner = .block ∨ inner.isFunction = true ∧ n.kind = "function_item")
    (hin : (Subject.placed role f).Encloses n) (before : List Node) :
    let outside := Subject.placed role f
    let inside := Subject.placed inner ⟨f.source, n, before⟩
    (Keeps usesUnsafe inside → Keeps usesUnsafe outside) ∧
    (∀ name, Keeps (callsTo name) inside → Keeps (callsTo name) outside) ∧
    (Owner.ownerCheck inside = true → Owner.ownerCheck outside = true) ∧
    (Keeps usesUnsafe outside ↔ hasUnsafeModifier f.source f.node = true ∨
      ∃ d, outside.Encloses d ∧ IsUnsafe f.source d) ∧
    (∀ name, Keeps (callsTo name) outside ↔ ∃ d, outside.Encloses d ∧
      d.kind = "call_expression" ∧ calleeName? f.source d = some name) ∧
    (Owner.ownerCheck outside = true ↔
      ∃ d, outside.Encloses d ∧ (Owner.ownerEvidence? f.source d).isSome = true) := by
  intro outside inside
  have houter : role.HoldsCode := .inr hrole
  have hcode : inner.HoldsCode := hinner.imp_right And.left
  have hbelow {P : Node → Prop} (h : ∃ d, inside.Encloses d ∧ P d) :
      ∃ d, outside.Encloses d ∧ P d := by
    obtain ⟨d, hd, hP⟩ := h
    exact ⟨d, hin.trans hd, hP⟩
  refine ⟨?_, ?_, ?_, ?_, keeps_callsTo_iff houter f, Owner.ownerCheck_iff hrole f⟩
  · rw [keeps_usesUnsafe_iff houter, keeps_usesUnsafe_iff hcode]
    intro h
    right
    rcases h with ⟨hfunction, hunsafe⟩ | hunsafe
    · rcases hinner with rfl | ⟨-, hkind⟩
      · cases hfunction
      · exact ⟨n, hin, .inr ⟨hkind, hunsafe⟩⟩
    · exact hbelow hunsafe
  · intro name
    rw [keeps_callsTo_iff houter, keeps_callsTo_iff hcode]
    exact hbelow
  · intro h
    rcases hinner with rfl | ⟨hfunction, -⟩
    · cases h
    · rw [Owner.ownerCheck_iff hfunction] at h
      exact (Owner.ownerCheck_iff hrole f).mpr (hbelow h)
  · have hunsafe := keeps_usesUnsafe_iff houter f
    rw [hrole] at hunsafe
    simpa only [true_and] using hunsafe

/-- An unsafe function with a call and a comparison, in a block in the body of another function. -/
theorem keeps_of_encloses_nested :
    let node (kind : String) (field : Option String) (start stop : Nat) (children : List Node) :=
      Node.mk ⟨kind, true, false, false, field, start, stop⟩ children
    let source := Source.ofText "fn f() \x7b \x7b unsafe fn g() \x7b h(a == owner) \x7d \x7d \x7d"
    let comparison := node "binary_expression" none 29 39
      [node "identifier" (some "left") 29 30 [], node "==" (some "operator") 31 33 [],
       node "identifier" (some "right") 34 39 []]
    let call := node "call_expression" none 27 40
      [node "identifier" (some "function") 27 28 [],
       node "arguments" (some "arguments") 28 40 [comparison]]
    let inner := node "function_item" none 11 42
      [node "function_modifiers" none 11 17 [], node "block" (some "body") 25 42 [call]]
    let outer := node "function_item" none 0 46
      [node "block" (some "body") 7 46 [node "block" none 9 44 [inner]]]
    let outside := Subject.placed .function ⟨source, outer, []⟩
    let inside := Subject.placed .function ⟨source, inner, []⟩
    outside.Encloses inner ∧
    Keeps usesUnsafe inside ∧ Keeps usesUnsafe outside ∧
    Keeps (callsTo "h") inside ∧ Keeps (callsTo "h") outside ∧
    Owner.ownerCheck inside = true ∧ Owner.ownerCheck outside = true := by
  intro node source comparison call inner outer outside inside
  have hin : outside.Encloses inner := ⟨_, [0, 0], rfl, rfl⟩
  have hitem : Role.function = .block ∨ Role.function.isFunction = true ∧ inner.kind = "function_item" :=
    .inr ⟨rfl, rfl⟩
  have hcall : inside.Encloses call := ⟨_, [0], rfl, rfl⟩
  have hcomparison : inside.Encloses comparison := ⟨_, [0, 1, 0], rfl, rfl⟩
  have hunsafe : Keeps usesUnsafe inside :=
    (keeps_usesUnsafe_iff (.inr rfl) _).mpr (.inl ⟨rfl, by decide +kernel⟩)
  have hcalls : Keeps (callsTo "h") inside :=
    (keeps_callsTo_iff (.inr rfl) _ "h").mpr ⟨call, hcall, rfl, by decide +kernel⟩
  have howner : Owner.ownerCheck inside = true :=
    (Owner.ownerCheck_iff rfl _).mpr ⟨comparison, hcomparison, by decide +kernel⟩
  obtain ⟨hunsafeOutside, hcallsOutside, hownerOutside, -⟩ :=
    keeps_of_encloses rfl hitem hin []
  exact ⟨hin, hunsafe, hunsafeOutside hunsafe, hcalls, hcallsOutside "h" hcalls, howner,
    hownerOutside howner⟩

end Query

end AnchorAudit
