import AnchorAudit.Proofs.Identity
import AnchorAudit.Proofs.Query

/-! The algebra of queries. A stage treats the subjects of a query one by one and in their order, so it
can be applied to the parts of a query, and stages that narrow a query can change places. Subjects count
as the same when their keys agree, which is an equivalence, so queries meet as sets of keys do. -/
namespace AnchorAudit

namespace Query

/-- The stages that keep some subjects of a query and drop the others. -/
inductive Narrowing where
  | withName (name : String)
  | publicFunctions
  | usesUnsafe
  | callsTo (name : String)
  | passing (test : Subject → Except Fault Bool)
  | having (check : Check)
  | both (other : Query)

inductive Stage where
  | functions
  | structs
  | narrowing (narrowing : Narrowing)

def Narrowing.apply (q : Query) : Narrowing → Except Fault Query
  | withName name => .ok (q.withName name)
  | publicFunctions => .ok q.publicFunctions
  | usesUnsafe => .ok q.usesUnsafe
  | callsTo name => .ok (q.callsTo name)
  | passing test => q.narrowM test
  | having check => q.having check
  | both other => .ok (q.both other)

def Stage.apply (q : Query) : Stage → Except Fault Query
  | functions => .ok q.functions
  | structs => .ok q.structs
  | narrowing n => n.apply q

def Narrowing.test : Narrowing → Subject → Except Fault Bool
  | withName name, s => .ok (s.name? == some name)
  | publicFunctions, s => .ok (s.isFunction && s.isPublic)
  | usesUnsafe, s => .ok (usesUnsafeCode s)
  | callsTo name, s => .ok (callsFunction name s)
  | passing test, s => test s
  | having check, s => check.verdict s
  | both other, s => .ok (other.keys.contains s.key)

theorem exists_of_filterM_eq_ok {ε α : Type} {test : α → Except ε Bool} {l found : List α}
    (h : l.filterM test = .ok found) : ∀ x ∈ l, ∃ passes, test x = .ok passes := by
  induction l generalizing found with
  | nil => simp
  | cons x l ih =>
    rw [filterM_cons, bind_eq_ok_iff] at h
    obtain ⟨passes, hpasses, h⟩ := h
    obtain ⟨rest, hrest, -⟩ := bind_eq_ok_iff.mp h
    rw [List.forall_mem_cons]
    exact ⟨⟨passes, hpasses⟩, ih hrest⟩

section Verdicts
variable {q : Query} {test : Subject → Except Fault Bool}

theorem narrowM_eq_ok {verdict : Subject → Bool} (h : ∀ s ∈ q.subjects, test s = .ok (verdict s)) :
    q.narrowM test = .ok (q.narrow verdict) := by
  unfold narrowM
  rw [filterM_eq_ok h]
  rfl

/-- A test that has not failed on a query has a verdict on each of its subjects. -/
theorem exists_verdict {found : Query} (h : q.narrowM test = .ok found) :
    ∃ verdict : Subject → Bool,
      (∀ s ∈ q.subjects, test s = .ok (verdict s)) ∧ found = q.narrow verdict := by
  have hall : ∀ s ∈ q.subjects, test s = .ok ((test s).toOption.getD false) := by
    intro s hs
    unfold narrowM at h
    cases hkept : q.subjects.filterM test with
    | error fault =>
      rw [hkept] at h
      cases h
    | ok kept =>
      obtain ⟨passes, hpasses⟩ := exists_of_filterM_eq_ok hkept s hs
      rw [hpasses]
      rfl
  rw [narrowM_eq_ok hall] at h
  cases h
  exact ⟨_, hall, rfl⟩

end Verdicts

theorem Narrowing.apply_eq (n : Narrowing) (q : Query) : n.apply q = q.narrowM n.test := by
  cases n with
  | passing test => rfl
  | having check => rfl
  | _ => exact (narrowM_eq_ok fun _ _ => rfl).symm

theorem narrow_narrow (q : Query) (first second : Subject → Bool) :
    (q.narrow first).narrow second = q.narrow fun s => first s && second s := by
  unfold narrow
  simp only [List.filter_filter, Bool.and_comm]

/-- Narrowings that do not fail on a query do not fail on a part of it, and can change places. -/
theorem apply_comm {m n : Narrowing} {q x y : Query} (hx : m.apply q = .ok x)
    (hy : n.apply q = .ok y) : ∃ z, n.apply x = .ok z ∧ m.apply y = .ok z := by
  rw [Narrowing.apply_eq] at hx hy
  obtain ⟨first, hfirst, rfl⟩ := exists_verdict hx
  obtain ⟨second, hsecond, rfl⟩ := exists_verdict hy
  have hn : n.apply (q.narrow first) = .ok ((q.narrow first).narrow second) := by
    rw [Narrowing.apply_eq]
    apply narrowM_eq_ok
    intro s hs
    exact hsecond s (List.mem_filter.mp hs).1
  have hm : m.apply (q.narrow second) = .ok ((q.narrow second).narrow first) := by
    rw [Narrowing.apply_eq]
    apply narrowM_eq_ok
    intro s hs
    exact hfirst s (List.mem_filter.mp hs).1
  have hcomm : (q.narrow second).narrow first = (q.narrow first).narrow second := by
    simp only [narrow_narrow, Bool.and_comm]
  exact ⟨_, hn, hcomm ▸ hm⟩

theorem apply_apply (n : Narrowing) (q : Query) : n.apply q >>= n.apply = n.apply q := by
  cases h : n.apply q with
  | error fault => rfl
  | ok found =>
    rw [Narrowing.apply_eq] at h
    obtain ⟨verdict, hverdict, rfl⟩ := exists_verdict h
    have hagain : (q.narrow verdict).narrowM n.test = .ok ((q.narrow verdict).narrow verdict) := by
      apply narrowM_eq_ok
      intro s hs
      exact hverdict s (List.mem_filter.mp hs).1
    rw [narrow_narrow] at hagain
    change n.apply (q.narrow verdict) = .ok (q.narrow verdict)
    rw [Narrowing.apply_eq, hagain]
    simp only [Bool.and_self]

theorem fromFiles_either (find : Source → Node → List Subject) (a b : Query) :
    (a.either b).fromFiles find = (a.fromFiles find).either (b.fromFiles find) := by
  unfold fromFiles either
  simp only [List.flatMap_append]

theorem narrowM_either (test : Subject → Except Fault Bool) (a b : Query) :
    (a.either b).narrowM test = do
      let x ← a.narrowM test
      let y ← b.narrowM test
      return x.either y := by
  unfold narrowM either
  dsimp only
  rw [filterM_append]
  cases a.subjects.filterM test with
  | error fault => rfl
  | ok kept =>
    cases b.subjects.filterM test with
    | error fault => rfl
    | ok others => rfl

theorem apply_either (stage : Stage) (a b : Query) :
    stage.apply (a.either b) = do
      let x ← stage.apply a
      let y ← stage.apply b
      return x.either y := by
  cases stage with
  | functions => exact congrArg Except.ok (fromFiles_either functionsIn a b)
  | structs => exact congrArg Except.ok (fromFiles_either structsIn a b)
  | narrowing n =>
    unfold Stage.apply
    simp only [Narrowing.apply_eq]
    exact narrowM_either n.test a b

def has (q : Query) (s : Subject) : Bool := q.subjects.any (s == ·)

theorem has_iff {q : Query} {s : Subject} : q.has s = true ↔ ∃ t ∈ q.subjects, s.key = t.key := by
  unfold has
  simp only [List.any_eq_true, Subject.beq_iff]

/-- The table of keys says what a search through the subjects says. -/
theorem contains_keys (q : Query) (s : Subject) : q.keys.contains s.key = q.has s := by
  unfold keys
  rw [Std.HashSet.contains_ofList, Bool.eq_iff_iff, has_iff, List.contains_iff_mem, List.mem_map]
  simp only [eq_comm]

theorem both_eq (a b : Query) : a.both b = a.narrow b.has := by
  unfold both
  simp only [contains_keys]

theorem has_either (a b : Query) (s : Subject) : (a.either b).has s = (a.has s || b.has s) :=
  List.any_append

/-- This is where it counts that two subjects which are the same as a third are the same. -/
theorem has_both (a b : Query) (s : Subject) : (a.both b).has s = (a.has s && b.has s) := by
  rw [Bool.eq_iff_iff, Bool.and_eq_true, both_eq, has_iff, has_iff, has_iff]
  unfold narrow
  simp only [List.mem_filter, has_iff]
  constructor
  · intro h
    obtain ⟨t, ⟨ht, u, hu, htu⟩, hst⟩ := h
    exact ⟨⟨t, ht, hst⟩, u, hu, hst.trans htu⟩
  · intro h
    obtain ⟨⟨t, ht, hst⟩, u, hu, hsu⟩ := h
    exact ⟨t, ⟨ht, u, hu, hst.symm.trans hsu⟩, hst⟩

theorem both_self (q : Query) : q.both q = q := by
  have hall : q.subjects.filter q.has = q.subjects := by
    apply List.filter_eq_self.mpr
    intro s hs
    exact has_iff.mpr ⟨s, hs, rfl⟩
  rw [both_eq]
  unfold narrow
  rw [hall]

theorem both_both (a b c : Query) : (a.both b).both c = a.both (b.both c) := by
  rw [both_eq a b, both_eq _ c, both_eq a, narrow_narrow]
  congr 1
  funext s
  exact (has_both b c s).symm

theorem both_right_comm (a b c : Query) : (a.both b).both c = (a.both c).both b := by
  simp only [both_eq, narrow_narrow, Bool.and_comm]

/-- The laws of queries. Every stage can be applied to the parts of a union one after the other, and fails
where it fails on a part. Narrowings that do not fail can change places, and doing one twice is doing it
once. Meeting a query is idempotent and associative, two meetings can change places, and meeting a union
keeps what meeting either part keeps. A meeting keeps, in order, what is the same as a subject of the
other query. -/
theorem stage_laws (a b c : Query) :
    (∀ stage : Stage, stage.apply (a.either b) = do
      let x ← stage.apply a
      let y ← stage.apply b
      return x.either y) ∧
    (∀ (m n : Narrowing) (x y : Query), m.apply a = .ok x → n.apply a = .ok y →
      ∃ z, n.apply x = .ok z ∧ m.apply y = .ok z) ∧
    (∀ n : Narrowing, n.apply a >>= n.apply = n.apply a) ∧
    a.both a = a ∧
    (a.both b).both c = a.both (b.both c) ∧
    (a.both b).both c = (a.both c).both b ∧
    (a.both (b.either c)).subjects = a.subjects.filter (fun s => b.has s || c.has s) ∧
    (∀ s, s ∈ (a.both (b.either c)).subjects ↔
      s ∈ (a.both b).subjects ∨ s ∈ (a.both c).subjects) ∧
    a.both b = { a with subjects := a.subjects.filter fun s => b.subjects.any (s == ·) } := by
  have hunion : (a.both (b.either c)).subjects = a.subjects.filter (fun s => b.has s || c.has s) := by
    simp only [both_eq, narrow, ← has_either]
  refine ⟨fun stage => apply_either stage a b, fun m n x y => apply_comm,
    fun n => apply_apply n a, both_self a, both_both a b c, both_right_comm a b c, hunion, ?_,
    both_eq a b⟩
  intro s
  rw [hunion, both_eq, both_eq]
  unfold narrow
  simp only [List.mem_filter, Bool.or_eq_true]
  exact and_or_left

end Query

end AnchorAudit
