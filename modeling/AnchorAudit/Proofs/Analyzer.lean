import AnchorAudit.Analyzer
import AnchorAudit.Proofs.Catalogue
import AnchorAudit.Proofs.FileTree
import AnchorAudit.Proofs.Registry

/-! To select rules before an analysis is to select findings after it. -/
namespace AnchorAudit

theorem flatMap_filter_eq {α β : Type} {l : List α} {g : α → List β} {p : α → Bool} {q : β → Bool}
    (h : ∀ a ∈ l, ∀ b ∈ g a, q b = p a) : (l.filter p).flatMap g = (l.flatMap g).filter q := by
  induction l with
  | nil => rfl
  | cons a l ih =>
    have hl := ih fun a' ha' => h a' (List.mem_cons_of_mem a ha')
    have ha := h a List.mem_cons_self
    rw [List.flatMap_cons, List.filter_append, ← hl]
    cases hp : p a with
    | true =>
      have hkeep : (g a).filter q = g a := List.filter_eq_self.mpr fun b hb => by rw [ha b hb, hp]
      rw [List.filter_cons_of_pos hp, List.flatMap_cons, hkeep]
    | false =>
      have hdrop : (g a).filter q = [] :=
        List.filter_eq_nil_iff.mpr fun b hb => by rw [ha b hb, hp]; exact Bool.false_ne_true
      rw [List.filter_cons_of_neg (by rw [hp]; exact Bool.false_ne_true), hdrop, List.nil_append]

def occurrences (findings : List Finding) (severity : Severity) : Nat :=
  findings.countP (·.severity == severity)

theorem lookup_filterMap_occurrences (findings : List Finding) (severity : Severity)
    (severities : List Severity) :
    (severities.filterMap fun s =>
      if occurrences findings s = 0 then none
      else some (s, (occurrences findings s : Int))).lookup severity =
      if severity ∈ severities ∧ occurrences findings severity ≠ 0 then
        some (occurrences findings severity : Int)
      else none := by
  induction severities with
  | nil => simp
  | cons s severities ih =>
    rw [List.filterMap_cons]
    by_cases hs : severity = s
    · subst hs
      by_cases hn : occurrences findings severity = 0
      · simp [hn, ih]
      · simp [hn]
    · have hbeq : (severity == s) = false := beq_eq_false_iff_ne.mpr hs
      by_cases hn : occurrences findings s = 0
      · simp [hn, hs, ih]
      · simp [hn, hs, ih, List.lookup_cons, hbeq]

theorem lookup_tally (findings : List Finding) (severity : Severity) :
    (tally findings).lookup severity =
      if occurrences findings severity = 0 then none
      else some (occurrences findings severity : Int) := by
  have hmem : severity ∈ Severity.ordered := by cases severity <;> decide
  have hlookup := lookup_filterMap_occurrences findings severity Severity.ordered
  have htally : tally findings = Severity.ordered.filterMap fun s =>
      if occurrences findings s = 0 then none
      else some (s, (occurrences findings s : Int)) := rfl
  rw [htally, hlookup]
  by_cases hn : occurrences findings severity = 0 <;> simp [hmem, hn]

/-- The findings that a selection is meant to leave. -/
def Selection.Keeps (s : Selection) (f : Finding) : Prop :=
  f.severity ∉ s.ignoredSeverities ∧ ↑f.ruleId ∉ s.ignoredRules ∧
    ∃ r ∈ Catalogue.rules, r.id = f.ruleId ∧ r.ruleType ∈ s.includedTypes

instance (s : Selection) (f : Finding) : Decidable (s.Keeps f) :=
  inferInstanceAs (Decidable (_ ∧ _ ∧ _))

/-- A selection keeps the findings of the rules that it admits, and no others. -/
theorem Selection.keeps_iff_admits (s : Selection) {r : Rule} (hr : r ∈ Catalogue.rules)
    {file : SyntaxFile} {path text : String} {f : Finding} (hf : f ∈ r.found file path text) :
    s.Keeps f ↔ s.Admits r := by
  obtain ⟨hid, hseverity, -, -⟩ := (Catalogue.plain_of_mem hr).marks file path text hf
  unfold Keeps Admits
  rw [hid, hseverity]
  constructor
  · rintro ⟨hs, hi, r', hr', hid', htype⟩
    obtain rfl := Catalogue.eq_of_id_eq hr' hr hid'
    exact ⟨hs, hi, htype⟩
  · rintro ⟨hs, hi, htype⟩
    exact ⟨hs, hi, r, hr, rfl, htype⟩

namespace Analyzer

theorem new_rules (s : Selection) :
    (new s).registry.rules = Catalogue.rules.filter (s.Admits ·) := by
  have hload := Registry.loadCatalogue_open (g := Registry.new s) rfl
  have haccepts : (fun r => decide (s.Admits r)) = s.accepts :=
    funext fun r => (s.accepts_eq r).symm
  unfold new
  rw [Registry.rules_freeze, hload, haccepts]
  rfl

def catalogued (path : String) (file : SyntaxFile) : List Finding :=
  Catalogue.rules.flatMap (·.found file path file.text)

theorem filter_catalogued (s : Selection) (path : String) (file : SyntaxFile) :
    (Catalogue.rules.filter (s.Admits ·)).flatMap (·.found file path file.text) =
      (catalogued path file).filter (s.Keeps ·) := by
  apply flatMap_filter_eq
  intro r hr f hf
  exact decide_eq_decide.mpr (s.keeps_iff_admits hr hf)

/-- No file fails, and the second look at the severities takes nothing away. -/
theorem analyzeFile_new (s : Selection) (path : String) (file : SyntaxFile) :
    (new s).analyzeFile path file = .ok ((catalogued path file).filter (s.Keeps ·)) := by
  have hrun : ∀ r ∈ (new s).registry.rules, r.check file path file.text ≠ .ok none := by
    intro r hr
    rw [new_rules] at hr
    exact (Catalogue.plain_of_mem (List.mem_of_mem_filter hr)).check_ne_none file path file.text
  have hreports : ∀ f ∈ (catalogued path file).filter (s.Keeps ·), (new s).reports f = true := by
    intro f hf
    obtain ⟨hseverity, -⟩ := of_decide_eq_true (List.mem_filter.mp hf).2
    unfold reports
    rw [Bool.not_eq_true', ← Bool.not_eq_true, List.contains_iff_mem]
    exact hseverity
  unfold analyzeFile
  rw [Registry.run_findings file path file.text hrun, new_rules, filter_catalogued]
  exact congrArg Except.ok (List.filter_eq_self.mpr hreports)

theorem build_eq_error_iff {s : Selection} {here : FileTree.Site} {e : FileTree.PathError} :
    build s here = .error e ↔ ∃ path, s.templatesPath = some path ∧
      FileTree.isDirectory here path = .error e := by
  unfold build
  cases s.templatesPath with
  | none => simp [bind, Except.bind, pure, Except.pure]
  | some path =>
    simp only [Option.some.injEq, exists_eq_left']
    cases FileTree.isDirectory here path with
    | error e' => simp [bind, Except.bind]
    | ok found => cases found <;> simp [bind, Except.bind, pure, Except.pure]

end Analyzer

end AnchorAudit
