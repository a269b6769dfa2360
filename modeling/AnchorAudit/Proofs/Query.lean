import AnchorAudit.Check
import AnchorAudit.Proofs.Rule

/-! Narrowing a query by a test that may fail. -/
namespace AnchorAudit.Query

section Narrowing
variable {ε α : Type} {test : α → Except ε Bool}

theorem filterAuxM_eq (l kept : List α) :
    l.filterAuxM test kept = (l.filterM test).map (·.reverse ++ kept) := by
  induction l generalizing kept with
  | nil => rfl
  | cons x l ih =>
    unfold List.filterM List.filterAuxM
    cases test x with
    | error fault => rfl
    | ok passes =>
      change l.filterAuxM test (cond passes (x :: kept) kept) =
        (l.filterAuxM test (cond passes [x] []) >>= fun kept => pure kept.reverse).map
          (·.reverse ++ kept)
      rw [ih, ih]
      cases l.filterM test with
      | error fault => rfl
      | ok found => cases passes <;> simp [Except.map, bind, Except.bind, pure, Except.pure]

theorem filterM_cons (x : α) (l : List α) :
    (x :: l).filterM test = do
      let passes ← test x
      let found ← l.filterM test
      return if passes then x :: found else found := by
  rw [List.filterM, List.filterAuxM]
  cases test x with
  | error fault => rfl
  | ok passes =>
    change (l.filterAuxM test (cond passes [x] []) >>= fun kept => pure kept.reverse) = _
    rw [filterAuxM_eq]
    cases l.filterM test with
    | error fault => rfl
    | ok found => cases passes <;> simp [Except.map, bind, Except.bind, pure, Except.pure]

theorem filterM_map {β : Type} (f : β → α) (l : List β) :
    (l.map f).filterM test = (l.filterM (test ∘ f)).map (List.map f) := by
  induction l with
  | nil => rfl
  | cons x l ih =>
    rw [List.map_cons, filterM_cons, filterM_cons, ih]
    change test (f x) >>= _ = Except.map _ (test (f x) >>= _)
    cases test (f x) with
    | error fault => rfl
    | ok passes =>
      cases l.filterM (test ∘ f) with
      | error fault => rfl
      | ok found => cases passes <;> rfl

theorem filterM_append (xs ys : List α) :
    (xs ++ ys).filterM test = do
      let kept ← xs.filterM test
      let others ← ys.filterM test
      return kept ++ others := by
  induction xs with
  | nil =>
    change ys.filterM test = ys.filterM test >>= pure
    cases ys.filterM test <;> rfl
  | cons x xs ih =>
    rw [List.cons_append, filterM_cons, filterM_cons, ih]
    cases test x with
    | error fault => rfl
    | ok passes =>
      cases xs.filterM test with
      | error fault => rfl
      | ok kept =>
        cases ys.filterM test with
        | error fault => rfl
        | ok others => cases passes <;> rfl

theorem sublist_of_filterM_eq_ok {l found : List α} (h : l.filterM test = .ok found) :
    found.Sublist l := by
  induction l generalizing found with
  | nil =>
    cases h
    exact List.Sublist.refl []
  | cons x l ih =>
    rw [filterM_cons, bind_eq_ok_iff] at h
    obtain ⟨passes, -, h⟩ := h
    obtain ⟨rest, hrest, h⟩ := bind_eq_ok_iff.mp h
    have hsublist := ih hrest
    cases h
    cases passes with
    | true => exact hsublist.cons_cons x
    | false => exact hsublist.cons x

theorem filterM_eq_ok {verdict : α → Bool} {l : List α}
    (h : ∀ x ∈ l, test x = .ok (verdict x)) : l.filterM test = .ok (l.filter verdict) := by
  induction l with
  | nil => rfl
  | cons x l ih =>
    obtain ⟨hx, hl⟩ := List.forall_mem_cons.mp h
    rw [filterM_cons, hx, ih hl]
    cases hv : verdict x <;> simp [hv, bind, Except.bind, pure, Except.pure]

/-- Where a test can fail in one way only, it does not matter which subject fails first. -/
theorem filterM_eq_error_iff {fault : ε} (honly : ∀ x fault', test x = .error fault' → fault' = fault)
    (l : List α) : l.filterM test = .error fault ↔ ∃ x ∈ l, test x = .error fault := by
  induction l with
  | nil => simp [List.filterM, List.filterAuxM, bind, Except.bind, pure, Except.pure]
  | cons x l ih =>
    simp only [filterM_cons, List.mem_cons, exists_eq_or_imp]
    cases hx : test x with
    | error fault' =>
      obtain rfl := honly x fault' hx
      simp [bind, Except.bind]
    | ok passes =>
      rw [← ih]
      cases l.filterM test <;> simp [bind, Except.bind, pure, Except.pure]

end Narrowing

theorem sublist_of_having_eq_ok {check : Check} {q found : Query} (h : q.having check = .ok found) :
    found.subjects.Sublist q.subjects := by
  unfold having narrowM at h
  cases hkept : q.subjects.filterM check.verdict with
  | error fault =>
    rw [hkept] at h
    cases h
  | ok kept =>
    rw [hkept] at h
    cases h
    exact sublist_of_filterM_eq_ok hkept

end AnchorAudit.Query
