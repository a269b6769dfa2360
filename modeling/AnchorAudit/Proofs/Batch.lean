import AnchorAudit.Proofs.Analyzer
import Mathlib.Algebra.BigOperators.Group.List.Basic
import Mathlib.Algebra.Ring.Int.Defs

/-! The accounts of an analysis. Every file is analysed or fails by itself, so two batches of files can
be analysed one after the other or as one. -/
namespace AnchorAudit

section Tally
variable (findings : List Finding)

theorem tally_eq : tally findings =
    (Severity.ordered.filter fun s => occurrences findings s ≠ 0).map fun s =>
      (s, (occurrences findings s : Int)) := by
  have htally : tally findings = Severity.ordered.filterMap fun s =>
      if occurrences findings s = 0 then none
      else some (s, (occurrences findings s : Int)) := rfl
  rw [htally]
  generalize Severity.ordered = severities
  induction severities with
  | nil => rfl
  | cons s severities ih =>
    rw [List.filterMap_cons, ih, List.filter_cons]
    by_cases hs : occurrences findings s = 0
    · rw [if_pos hs, if_neg (by simp [hs])]
    · rw [if_neg hs, if_pos (by simp [hs])]
      rfl

theorem mem_tally {severity : Severity} {n : Int} :
    (severity, n) ∈ tally findings ↔ n = occurrences findings severity ∧ n ≠ 0 := by
  have hordered : severity ∈ Severity.ordered := by cases severity <;> decide
  rw [tally_eq, List.mem_map]
  constructor
  · rintro ⟨s, hs, heq⟩
    cases heq
    have hne := of_decide_eq_true (List.mem_filter.mp hs).2
    exact ⟨rfl, Int.natCast_ne_zero.mpr hne⟩
  · rintro ⟨rfl, hne⟩
    have hoccurs := Int.natCast_ne_zero.mp hne
    exact ⟨severity, List.mem_filter.mpr ⟨hordered, decide_eq_true hoccurs⟩, rfl⟩

theorem nodup_keys_tally : ((tally findings).map Prod.fst).Nodup := by
  have hordered : Severity.ordered.Nodup := by decide
  rw [tally_eq, List.map_map]
  apply List.Nodup.map_on
  · exact fun _ _ _ _ heq => heq
  · exact hordered.filter _

theorem sum_occurrences :
    (Severity.ordered.map fun s => (occurrences findings s : Int)).sum = findings.length := by
  induction findings with
  | nil => rfl
  | cons f findings ih =>
    have hcons (s : Severity) : (occurrences (f :: findings) s : Int) =
        occurrences findings s + if f.severity == s then 1 else 0 := by
      unfold occurrences
      rw [List.countP_cons]
      split_ifs <;> rfl
    have hone : (Severity.ordered.map fun s => if f.severity == s then (1 : Int) else 0).sum = 1 := by
      cases f.severity <;> rfl
    simp only [hcons]
    rw [List.sum_map_add, ih, hone, List.length_cons]
    rfl

theorem getD_lookup_tally (severity : Severity) :
    ((tally findings).lookup severity).getD 0 = occurrences findings severity := by
  rw [lookup_tally]
  split_ifs with hs
  · rw [hs]
    rfl
  · rfl

end Tally

namespace Analyzer
variable (a : Analyzer)

def contribution (f : String × SyntaxFile) : List Finding :=
  (a.analyzeFile f.1 f.2).toOption.getD []

def fails (f : String × SyntaxFile) : Bool := !(a.analyzeFile f.1 f.2).isOk

theorem analyzeAll_accounts (files : List (String × SyntaxFile)) :
    (a.analyzeAll files).findings = files.flatMap a.contribution ∧
      (a.analyzeAll files).failed = files.countP a.fails := by
  induction files with
  | nil => exact ⟨rfl, rfl⟩
  | cons f files ih =>
    obtain ⟨path, file⟩ := f
    obtain ⟨hfindings, hfailed⟩ := ih
    rw [List.flatMap_cons, List.countP_cons, analyzeAll, ← hfindings, ← hfailed]
    cases hfile : a.analyzeFile path file with
    | error fault => simp [contribution, fails, hfile, Except.toOption, Except.isOk, Except.toBool]
    | ok found => simp [contribution, fails, hfile, Except.toOption, Except.isOk, Except.toBool]

/-- A file fails when a rule gives nothing at all on it; a rule that fails by itself is passed over. -/
theorem fails_iff (f : String × SyntaxFile) :
    a.fails f ↔ ∃ r ∈ a.registry.rules, r.check f.2 f.1 f.2.text = .ok none := by
  unfold fails analyzeFile
  by_cases h : ∃ r ∈ a.registry.rules, r.check f.2 f.1 f.2.text = .ok none
  · rw [Registry.run_nothing f.2 f.1 f.2.text h]
    exact iff_of_true rfl h
  · have hall : ∀ r ∈ a.registry.rules, r.check f.2 f.1 f.2.text ≠ .ok none :=
      fun r hr hnone => h ⟨r, hr, hnone⟩
    rw [Registry.run_findings f.2 f.1 f.2.text hall]
    exact iff_of_false Bool.false_ne_true h

theorem contribution_of_fails {f : String × SyntaxFile} (h : a.fails f = true) :
    a.contribution f = [] := by
  unfold fails at h
  unfold contribution
  cases hfile : a.analyzeFile f.1 f.2 with
  | error fault => rfl
  | ok found =>
    rw [hfile] at h
    cases h

theorem not_ignored_of_mem_contribution {f : String × SyntaxFile} {finding : Finding}
    (h : finding ∈ a.contribution f) : finding.severity ∉ a.selection.ignoredSeverities := by
  unfold contribution analyzeFile at h
  cases hrun : (Registry.run f.2 f.1 f.2.text a.registry.rules).findings with
  | error fault =>
    rw [hrun] at h
    cases h
  | ok found =>
    rw [hrun] at h
    have hreports := (List.mem_filter.mp h).2
    unfold reports at hreports
    rw [Bool.not_eq_true', ← Bool.not_eq_true, List.contains_iff_mem] at hreports
    exact hreports

section
variable (files : List (String × SyntaxFile))

theorem analyze_findings : (a.analyze files).findings = files.flatMap a.contribution :=
  (a.analyzeAll_accounts files).1

theorem analyze_filesFailed : (a.analyze files).stats.filesFailed = files.countP a.fails := by
  rw [← (a.analyzeAll_accounts files).2]
  rfl

theorem analyze_filesAnalyzed_add :
    (a.analyze files).stats.filesAnalyzed + (a.analyze files).stats.filesFailed = files.length :=
  Int.sub_add_cancel _ _

theorem getD_analyze_count? (severity : Severity) :
    ((a.analyze files).stats.count? severity).getD 0 =
      occurrences (a.analyze files).findings severity :=
  getD_lookup_tally _ severity

end

/-- Two batches that are analysed as one give the findings of the first and then those of the second,
and all their numbers add up. In any batch every file is counted once, as analysed or as failed, the
findings are those of the files that have not failed, and every finding is counted under its
severity. -/
theorem analyze_append (xs ys : List (String × SyntaxFile)) :
    (a.analyze (xs ++ ys)).findings = (a.analyze xs).findings ++ (a.analyze ys).findings ∧
      (a.analyze (xs ++ ys)).stats.filesAnalyzed =
        (a.analyze xs).stats.filesAnalyzed + (a.analyze ys).stats.filesAnalyzed ∧
      (a.analyze (xs ++ ys)).stats.filesFailed =
        (a.analyze xs).stats.filesFailed + (a.analyze ys).stats.filesFailed ∧
      (∀ severity, ((a.analyze (xs ++ ys)).stats.count? severity).getD 0 =
        ((a.analyze xs).stats.count? severity).getD 0 +
          ((a.analyze ys).stats.count? severity).getD 0) ∧
      (a.analyze (xs ++ ys)).stats.rulesExecuted = (a.analyze xs).stats.rulesExecuted ∧
      (a.analyze (xs ++ ys)).stats.rulesExecuted = (a.analyze ys).stats.rulesExecuted ∧
      ∀ files, let result := a.analyze files
        result.stats.filesAnalyzed + result.stats.filesFailed = files.length ∧
        result.stats.filesFailed = files.countP a.fails ∧
        (∀ f ∈ files, a.fails f ↔ ∃ r ∈ a.registry.rules, r.check f.2 f.1 f.2.text = .ok none) ∧
        result.findings = files.flatMap a.contribution ∧
        (∀ f ∈ files, a.fails f → a.contribution f = []) ∧
        (result.stats.bySeverity.map Prod.fst).Nodup ∧
        (∀ severity n, (severity, n) ∈ result.stats.bySeverity ↔
          n = result.findings.countP (·.severity == severity) ∧ n ≠ 0) ∧
        ∀ f ∈ result.findings, f.severity ∉ a.selection.ignoredSeverities := by
  have hfindings : (a.analyze (xs ++ ys)).findings =
      (a.analyze xs).findings ++ (a.analyze ys).findings := by
    simp only [analyze_findings, List.flatMap_append]
  have hfailed : (a.analyze (xs ++ ys)).stats.filesFailed =
      (a.analyze xs).stats.filesFailed + (a.analyze ys).stats.filesFailed := by
    simp only [analyze_filesFailed, List.countP_append, Int.natCast_add]
  have hanalyzed : (a.analyze (xs ++ ys)).stats.filesAnalyzed =
      (a.analyze xs).stats.filesAnalyzed + (a.analyze ys).stats.filesAnalyzed := by
    have hx := a.analyze_filesAnalyzed_add xs
    have hy := a.analyze_filesAnalyzed_add ys
    have hxy := a.analyze_filesAnalyzed_add (xs ++ ys)
    rw [List.length_append, Int.natCast_add] at hxy
    omega
  refine ⟨hfindings, hanalyzed, hfailed, ?_, rfl, rfl, ?_⟩
  · intro severity
    rw [getD_analyze_count?, getD_analyze_count?, getD_analyze_count?, hfindings]
    exact congrArg Int.ofNat List.countP_append
  · intro files result
    refine ⟨a.analyze_filesAnalyzed_add files, a.analyze_filesFailed files,
      fun f _ => a.fails_iff f, a.analyze_findings files, fun f _ => a.contribution_of_fails,
      nodup_keys_tally _, fun severity n => mem_tally _, ?_⟩
    intro finding hfinding
    rw [analyze_findings] at hfinding
    obtain ⟨f, -, hf⟩ := List.mem_flatMap.mp hfinding
    exact a.not_ignored_of_mem_contribution hf

end Analyzer

end AnchorAudit
