import AnchorAudit.Proofs.Isolation
import Mathlib.Data.List.Nodup

/-! The rules of the catalogue are plain queries under names of their own, so each of their findings
can be traced back to its rule. -/
namespace AnchorAudit

/-- The finding by which a rule reports a subject. -/
def Rule.report (r : Rule) (path : String) (lines : SourceLines) (s : Subject) : Finding :=
  r.sign (Query.findingOf r.severity r.title r.description path lines s)

namespace Catalogue

/-- A rule that reports what a query selects, with nothing done to the findings afterwards. -/
structure Plain (r : Rule) : Prop where
  query : ∃ run, r.detector = .query run
  transforms : r.transforms = []
  filters : r.filters = []
  enabled : r.enabled = true

theorem plain_of_mem {r : Rule} (hr : r ∈ rules) : Plain r := by
  simp only [rules, List.mem_cons, List.not_mem_nil, or_false] at hr
  rcases hr with rfl | rfl | rfl | rfl | rfl | rfl | rfl
  all_goals exact ⟨⟨_, rfl⟩, rfl, rfl, rfl⟩

/-- The rules of the catalogue select in three ways. What holds of all three holds of every rule. -/
theorem exists_select {motive : (Query → Except Fault Query) → Prop}
    (usesUnsafe : motive fun q => .ok q.functions.usesUnsafe)
    (functions : ∀ check, motive fun q => q.functions.having check)
    (structs : ∀ first second, motive fun q => do (← q.structs.having first).having second)
    {r : Rule} (hr : r ∈ rules) : ∃ select, r.detector = detector select ∧ motive select := by
  simp only [rules, List.mem_cons, List.not_mem_nil, or_false] at hr
  rcases hr with rfl | rfl | rfl | rfl | rfl | rfl | rfl
  · exact ⟨_, rfl, usesUnsafe⟩
  · exact ⟨_, rfl, structs _ _⟩
  · exact ⟨_, rfl, structs _ _⟩
  · exact ⟨_, rfl, functions _⟩
  · exact ⟨_, rfl, structs _ _⟩
  · exact ⟨_, rfl, functions _⟩
  · exact ⟨_, rfl, functions _⟩

theorem nodup_ids : (rules.map Rule.id).Nodup := by decide

theorem eq_of_id_eq {r s : Rule} (hr : r ∈ rules) (hs : s ∈ rules) (h : r.id = s.id) : r = s :=
  List.inj_on_of_nodup_map nodup_ids hr hs h

section Findings
variable {r : Rule} (hr : Plain r) (file : SyntaxFile) (path text : String)
include hr

theorem Plain.check_of_query {run : SyntaxFile → String → SourceLines → Except Fault Query}
    (hrun : r.detector = .query run) :
    r.check file path text = (run file path (.ofText text path)).map fun q =>
      some (q.subjects.map (r.report path (.ofText text path))) := by
  have hreport (q : Query) :
      (q.toLocatedFindings r.severity r.title r.description path (.ofText text path)).map r.sign =
        q.subjects.map (r.report path (.ofText text path)) := List.map_map
  obtain ⟨-, ht, hf, he⟩ := hr
  unfold Rule.check Rule.findings Rule.detect Rule.process
  rw [hrun, ht, hf, he]
  simp only [hreport]
  cases run file path (.ofText text path) <;> rfl

theorem Plain.check_eq : ∃ result : Except Fault Query,
    r.check file path text = result.map fun q =>
      some (q.subjects.map (r.report path (.ofText text path))) := by
  obtain ⟨run, hrun⟩ := hr.query
  exact ⟨run file path (.ofText text path), hr.check_of_query file path text hrun⟩

theorem Plain.check_ne_none : r.check file path text ≠ .ok none := by
  obtain ⟨result, hcheck⟩ := hr.check_eq file path text
  rw [hcheck]
  intro hc
  cases result with
  | error fault => cases hc
  | ok q => cases hc

/-- A finding bears the marks of its rule. -/
theorem Plain.marks {f : Finding} (hf : f ∈ r.found file path text) :
    f.ruleId = r.id ∧ f.severity = r.severity ∧ f.title = r.title ∧
      f.recommendations = r.recommendations := by
  obtain ⟨result, hcheck⟩ := hr.check_eq file path text
  unfold Rule.found at hf
  rw [hcheck] at hf
  cases result with
  | error fault => cases hf
  | ok q =>
    obtain ⟨subject, -, rfl⟩ := List.mem_map.mp hf
    exact ⟨rfl, rfl, rfl, rfl⟩

end Findings

end Catalogue

end AnchorAudit
