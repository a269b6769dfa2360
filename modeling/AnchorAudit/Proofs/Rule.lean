import AnchorAudit.Rule.Basic

/-! What a rule makes of a file: findings, a fault, or nothing at all. -/
namespace AnchorAudit

theorem bind_eq_ok_iff {ε α β : Type} {x : Except ε α} {f : α → Except ε β} {b : β} :
    x >>= f = .ok b ↔ ∃ a, x = .ok a ∧ f a = .ok b := by
  cases x with
  | error e =>
    constructor
    · intro h
      cases h
    · rintro ⟨a, h, -⟩
      cases h
  | ok a =>
    constructor
    · exact fun h => ⟨a, rfl, h⟩
    · rintro ⟨a', h, hf⟩
      cases h
      exact hf

namespace Rule

theorem walkThrough_ne_none (findings : Option (List Finding))
    (work : List Finding → Except Fault (List Finding)) :
    (do return some (← work (← walkThrough findings))) ≠ (.ok none : Except Fault _) := by
  intro h
  obtain ⟨walked, -, h⟩ := bind_eq_ok_iff.mp h
  obtain ⟨worked, -, h⟩ := bind_eq_ok_iff.mp h
  cases h

/-- Steps that walk through the findings let nothing at all pass only when there are no steps. -/
theorem foldlM_eq_ok_none_iff {α : Type}
    {step : Option (List Finding) → α → Except Fault (Option (List Finding))}
    (hstep : ∀ findings a, step findings a ≠ .ok none) (as : List α)
    (findings : Option (List Finding)) :
    as.foldlM step findings = .ok none ↔ as = [] ∧ findings = none := by
  induction as generalizing findings with
  | nil =>
    constructor
    · intro h
      cases h
      exact ⟨rfl, rfl⟩
    · rintro ⟨-, rfl⟩
      rfl
  | cons a as ih =>
    rw [List.foldlM_cons, bind_eq_ok_iff]
    constructor
    · rintro ⟨next, hnext, h⟩
      obtain ⟨-, rfl⟩ := (ih next).mp h
      exact absurd hnext (hstep findings a)
    · rintro ⟨h, -⟩
      cases h

theorem process_eq_ok_none_iff (r : Rule) (findings : Option (List Finding)) :
    r.process findings = .ok none ↔ r.transforms = [] ∧ r.filters = [] ∧ findings = none := by
  have htransforms (before) : r.transforms.foldlM transformStep before = .ok none ↔
      r.transforms = [] ∧ before = none :=
    foldlM_eq_ok_none_iff (fun before f => walkThrough_ne_none before (·.mapM f)) _ _
  have hfilters (before) : r.filters.foldlM filterStep before = .ok none ↔
      r.filters = [] ∧ before = none :=
    foldlM_eq_ok_none_iff (fun before keep => walkThrough_ne_none before (·.filterM keep)) _ _
  unfold process
  rw [bind_eq_ok_iff]
  constructor
  · rintro ⟨transformed, ht, hf⟩
    obtain ⟨hnoFilter, rfl⟩ := (hfilters transformed).mp hf
    obtain ⟨hnoTransform, hnone⟩ := (htransforms findings).mp ht
    exact ⟨hnoTransform, hnoFilter, hnone⟩
  · rintro ⟨ht, hf, hnone⟩
    exact ⟨none, (htransforms findings).mpr ⟨ht, hnone⟩, (hfilters none).mpr ⟨hf, rfl⟩⟩

/-- The rule is enabled and has no step that would notice that its detector gives nothing. -/
def GivesNothing (r : Rule) (file : SyntaxFile) (path text : String) : Prop :=
  r.enabled = true ∧ r.transforms = [] ∧ r.filters = [] ∧
    r.detect file path (.ofText text path) = .ok none

theorem check_eq_ok_none_iff (r : Rule) (file : SyntaxFile) (path text : String) :
    r.check file path text = .ok none ↔ r.GivesNothing file path text := by
  have hfindings : r.findings file path text = .ok none ↔ r.transforms = [] ∧ r.filters = [] ∧
      r.detect file path (.ofText text path) = .ok none := by
    unfold findings
    rw [bind_eq_ok_iff]
    constructor
    · rintro ⟨detected, hd, hp⟩
      obtain ⟨ht, hf, rfl⟩ := (process_eq_ok_none_iff r detected).mp hp
      exact ⟨ht, hf, hd⟩
    · rintro ⟨ht, hf, hd⟩
      exact ⟨none, hd, (process_eq_ok_none_iff r none).mpr ⟨ht, hf, rfl⟩⟩
  unfold check GivesNothing
  rw [← hfindings, bind_eq_ok_iff]
  constructor
  · rintro ⟨found, hfound, h⟩
    by_cases he : r.enabled = true
    · rw [if_pos he] at h
      cases h
      exact ⟨he, hfound⟩
    · rw [if_neg he] at h
      cases found with
      | none => cases h
      | some fs => cases h
  · rintro ⟨he, hfound⟩
    exact ⟨none, hfound, by rw [if_pos he]; rfl⟩

end Rule

end AnchorAudit
