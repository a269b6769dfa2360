import AnchorAudit.Registry

/-! An open registry holds the accepted ones of the rules that it was offered, in their order. -/
namespace AnchorAudit

namespace Selection

/-- The three tests that a selection puts to a rule. -/
def Admits (s : Selection) (r : Rule) : Prop :=
  r.severity ∉ s.ignoredSeverities ∧ ↑r.id ∉ s.ignoredRules ∧ r.ruleType ∈ s.includedTypes

instance (s : Selection) (r : Rule) : Decidable (s.Admits r) := inferInstanceAs (Decidable (_ ∧ _))

theorem accepts_eq (s : Selection) (r : Rule) : s.accepts r = decide (s.Admits r) := by
  unfold accepts refusal?
  simp only [List.contains_iff_mem, Bool.not_eq_true', ← Bool.not_eq_true]
  by_cases hs : r.severity ∈ s.ignoredSeverities
  · simp [Admits, hs]
  by_cases hi : ↑r.id ∈ s.ignoredRules
  · simp [Admits, hs, hi]
  by_cases ht : r.ruleType ∈ s.includedTypes <;> simp [Admits, hs, hi, ht]

end Selection

namespace Registry

/-- A registry that was given rules, and closed or not. -/
def holding (selection : Selection) (rules : List Rule) : Bool → Registry
  | false => ⟨selection, rules, none⟩
  | true => ⟨selection, [], some rules⟩

@[simp] theorem rules_holding (s : Selection) (rules : List Rule) (frozen : Bool) :
    (holding s rules frozen).rules = rules := by
  cases frozen <;> rfl

@[simp] theorem frozen_holding (s : Selection) (rules : List Rule) (frozen : Bool) :
    (holding s rules frozen).frozen = frozen := by
  cases frozen <;> rfl

theorem eq_holding {g : Registry} (h : g.frozen = false) :
    g = holding g.selection g.rules false := by
  obtain ⟨selection, pending, closed⟩ := g
  cases closed with
  | none => rfl
  | some rules => cases h

@[simp] theorem rules_freeze (g : Registry) : g.freeze.registry.rules = g.rules := by
  obtain ⟨selection, pending, closed⟩ := g
  cases closed <;> rfl

theorem freeze_answer (g : Registry) : g.freeze.answer = .ok g.rules := by
  obtain ⟨selection, pending, closed⟩ := g
  cases closed <;> rfl

theorem execute_answer (g : Registry) (file : SyntaxFile) (path text : String) :
    (g.execute file path text).answer = (run file path text g.rules).findings := by
  unfold execute
  dsimp only
  rw [rules_freeze]

theorem add_open {g : Registry} (h : g.frozen = false) (rule : Rule) :
    (g.add rule).registry =
        holding g.selection (g.rules ++ [rule].filter g.selection.accepts) false ∧
      (g.add rule).answer = .ok (g.selection.accepts rule) := by
  rw [eq_holding h]
  generalize g.selection = selection, g.rules = held
  cases hr : selection.refusal? rule with
  | none =>
    have ha : selection.accepts rule = true := by rw [Selection.accepts, hr]; rfl
    simp [add, holding, frozen, rules, hr, ha]
  | some reason =>
    have ha : selection.accepts rule = false := by rw [Selection.accepts, hr]; rfl
    simp [add, holding, frozen, rules, hr, ha]

theorem addAll_open {g : Registry} (h : g.frozen = false) (rules : List Rule) :
    (g.addAll rules).registry =
        holding g.selection (g.rules ++ rules.filter g.selection.accepts) false ∧
      (g.addAll rules).answer = .ok () := by
  induction rules generalizing g with
  | nil => simpa [addAll] using eq_holding h
  | cons rule rules ih =>
    obtain ⟨hregistry, hanswer⟩ := add_open h rule
    obtain ⟨hrest, hrestAnswer⟩ := ih (g := (g.add rule).registry) (by rw [hregistry]; rfl)
    have hselection : (g.add rule).registry.selection = g.selection := by rw [hregistry]; rfl
    have hrules : (g.add rule).registry.rules = g.rules ++ [rule].filter g.selection.accepts := by
      rw [hregistry, rules_holding]
    unfold addAll
    dsimp only
    rw [hanswer]
    dsimp only
    rw [hrest, hrestAnswer, hselection, hrules, List.append_assoc, ← List.filter_append,
      List.singleton_append]
    exact ⟨rfl, rfl⟩

theorem loadCatalogue_open {g : Registry} (h : g.frozen = false) :
    g.loadCatalogue.registry =
      holding g.selection (g.rules ++ Catalogue.rules.filter g.selection.accepts) false := by
  obtain ⟨hregistry, hanswer⟩ := addAll_open h Catalogue.rules
  unfold loadCatalogue
  dsimp only
  rw [hanswer]
  exact hregistry

end Registry

end AnchorAudit
