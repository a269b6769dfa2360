import AnchorAudit.Proofs.Rule
import AnchorAudit.Registry
import AnchorAudit.Rule.Draft
import AnchorAudit.Proofs.Registry

/-! A run of rules is a concatenation: rules that fail drop out of it and leave a warning. The one
way to lose findings of other rules is a rule that gives nothing at all. -/
namespace AnchorAudit

def Log.warnings (log : Log) : Log := log.filter (·.level = .warning)

namespace Rule

def found (r : Rule) (file : SyntaxFile) (path text : String) : List Finding :=
  match r.check file path text with
  | .ok (some found) => found
  | _ => []

section
variable {r : Rule} {file : SyntaxFile} {path text : String}

theorem found_eq_of_check {found : List Finding} (h : r.check file path text = .ok (some found)) :
    r.found file path text = found := by
  unfold Rule.found
  rw [h]

/-- A rule that gives findings has not failed. -/
theorem check_ne_error_of_found_ne_nil (h : r.found file path text ≠ []) (fault : Fault) :
    r.check file path text ≠ .error fault := by
  intro hcheck
  apply h
  unfold found
  rw [hcheck]

end

def warning? (r : Rule) (file : SyntaxFile) (path text : String) : Option Log.Entry :=
  match r.check file path text with
  | .error fault => some (Log.warning
      ("Error executing rule " ++ r.id ++ ": " ++ fault.kind ++ ": " ++ fault.message))
  | .ok _ => none

end Rule

namespace Registry

section Run
variable (file : SyntaxFile) (path text : String)

/-- What one rule adds to a run, unless it gives nothing at all: its findings in front of the others,
or a warning and no finding. -/
theorem run_cons {r : Rule} (hr : r.check file path text ≠ .ok none) (rules : List Rule) :
    (run file path text (r :: rules)).findings =
        (run file path text rules).findings.map (r.found file path text ++ ·) ∧
      Log.warnings (run file path text (r :: rules)).log =
        (r.warning? file path text).toList ++ Log.warnings (run file path text rules).log := by
  rw [run, Rule.found, Rule.warning?]
  cases hc : r.check file path text with
  | error fault =>
    refine ⟨?_, rfl⟩
    dsimp only
    cases (run file path text rules).findings <;> rfl
  | ok outcome =>
    cases outcome with
    | none => exact absurd hc hr
    | some found => exact ⟨rfl, rfl⟩

theorem run_cons_nothing {r : Rule} (hr : r.check file path text = .ok none) (rules : List Rule) :
    (run file path text (r :: rules)).findings = .error .nothingToCount := by
  rw [run, hr]

variable {rules : List Rule}

theorem run_findings (h : ∀ r ∈ rules, r.check file path text ≠ .ok none) :
    (run file path text rules).findings = .ok (rules.flatMap (·.found file path text)) := by
  induction rules with
  | nil => rfl
  | cons r rules ih =>
    have hrules := ih fun r' hr' => h r' (List.mem_cons_of_mem r hr')
    rw [(run_cons file path text (h r List.mem_cons_self) rules).1, hrules, List.flatMap_cons]
    rfl

theorem run_warnings (h : ∀ r ∈ rules, r.check file path text ≠ .ok none) :
    Log.warnings (run file path text rules).log =
      rules.filterMap (·.warning? file path text) := by
  induction rules with
  | nil => rfl
  | cons r rules ih =>
    have hrules := ih fun r' hr' => h r' (List.mem_cons_of_mem r hr')
    rw [(run_cons file path text (h r List.mem_cons_self) rules).2, hrules, List.filterMap_cons]
    cases r.warning? file path text <;> rfl

theorem run_nothing (h : ∃ r ∈ rules, r.check file path text = .ok none) :
    (run file path text rules).findings = .error .nothingToCount := by
  induction rules with
  | nil =>
    obtain ⟨r, hr, -⟩ := h
    cases hr
  | cons r rules ih =>
    by_cases hr : r.check file path text = .ok none
    · exact run_cons_nothing file path text hr rules
    · obtain ⟨r', hmem, hr'⟩ := h
      have hrules : r' ∈ rules := by
        rcases List.mem_cons.mp hmem with rfl | hrules
        · exact absurd hr' hr
        · exact hrules
      rw [(run_cons file path text hr rules).1, ih ⟨r', hrules, hr'⟩]
      rfl

/-- A rule that fails can stand anywhere in a run, or not at all. -/
theorem run_insert_failing {broken : Rule} {fault : Fault}
    (hb : broken.check file path text = .error fault) (before after : List Rule) :
    (run file path text (before ++ broken :: after)).findings =
      (run file path text (before ++ after)).findings := by
  induction before with
  | nil => rw [List.nil_append, List.nil_append, run, hb]
  | cons r before ih =>
    rw [List.cons_append, List.cons_append]
    by_cases hr : r.check file path text = .ok none
    · rw [run_cons_nothing file path text hr, run_cons_nothing file path text hr]
    · rw [(run_cons file path text hr _).1, (run_cons file path text hr _).1, ih]

theorem execute_warnings (g : Registry) :
    Log.warnings (g.execute file path text).log =
      Log.warnings (run file path text g.rules).log := by
  have hfreeze : Log.warnings g.freeze.log = [] := by
    unfold freeze
    split <;> rfl
  have happend (xs ys : Log) : Log.warnings (xs ++ ys) = Log.warnings xs ++ Log.warnings ys :=
    List.filter_append xs ys
  unfold execute
  dsimp only
  rw [happend, hfreeze, rules_freeze]
  rfl

end Run

/-- Rules that fail are passed over with one warning each, and change nothing else: any other registry
with one failing rule more or less gives the same answer. -/
theorem execute_isolates (g : Registry) (file : SyntaxFile) (path text : String)
    (h : ∀ r ∈ g.rules, r.check file path text ≠ .ok none) :
    (g.execute file path text).answer = .ok (g.rules.flatMap (·.found file path text)) ∧
      (∀ before broken after fault, broken.check file path text = .error fault →
        g.rules = before ++ after →
        ∀ other : Registry, other.rules = before ++ broken :: after →
          (other.execute file path text).answer = (g.execute file path text).answer) ∧
      (∀ before broken after fault, broken.check file path text = .error fault →
        g.rules = before ++ broken :: after →
        ∀ other : Registry, other.rules = before ++ after →
          (other.execute file path text).answer = (g.execute file path text).answer) ∧
      Log.warnings (g.execute file path text).log =
        g.rules.filterMap (·.warning? file path text) := by
  rw [execute_answer]
  refine ⟨run_findings file path text h, ?_, ?_, ?_⟩
  · intro before broken after fault hb hg other hother
    rw [execute_answer, hother, run_insert_failing file path text hb, ← hg]
  · intro before broken after fault hb hg other hother
    rw [execute_answer, hother, ← run_insert_failing file path text hb, ← hg]
  · rw [execute_warnings, run_warnings file path text h]

theorem execute_isolates_one_failure :
    let issue : Finding :=
      { description := "minor", severity := .low, location := .fallback "lib.rs" }
    let sound : Rule :=
      { id := "sound", title := "", description := "", severity := .low, ruleType := .solana
        detector := .raw fun _ => .ok (some [issue]) }
    let broken : Rule :=
      { sound with
        id := "broken", detector := .raw fun _ => .error (.raised "RuntimeError" "query failed") }
    let file : SyntaxFile := .withTree "lib.rs" "" .empty
    let g : Registry := ⟨{}, [sound, broken, sound], none⟩
    (∀ r ∈ g.rules, r.check file "lib.rs" "" ≠ .ok none) ∧
      (g.execute file "lib.rs" "").answer = .ok [issue, issue] ∧
      Log.warnings (g.execute file "lib.rs" "").log =
        [Log.warning "Error executing rule broken: RuntimeError: query failed"] := by
  intro issue sound broken file g
  have h : ∀ r ∈ g.rules, r.check file "lib.rs" "" ≠ .ok none := by
    intro r hr
    simp only [g, rules, Option.getD_none, List.mem_cons, List.not_mem_nil, or_false] at hr
    rcases hr with rfl | rfl | rfl
    all_goals
      intro hc
      cases hc
  obtain ⟨hanswer, -, -, hlog⟩ := execute_isolates g file "lib.rs" "" h
  exact ⟨h, hanswer, hlog⟩

/-- A run fails as a whole exactly when an enabled rule without transforms and filters has a detector
that gives nothing at all; otherwise every finding of every rule is there. -/
theorem execute_answer_iff (g : Registry) (file : SyntaxFile) (path text : String) :
    ((g.execute file path text).answer = .error .nothingToCount ↔
        ∃ r ∈ g.rules, r.GivesNothing file path text) ∧
      ((g.execute file path text).answer = .ok (g.rules.flatMap (·.found file path text)) ↔
        ∀ r ∈ g.rules, ¬r.GivesNothing file path text) := by
  simp only [← Rule.check_eq_ok_none_iff, execute_answer]
  by_cases h : ∃ r ∈ g.rules, r.check file path text = .ok none
  · have hanswer := run_nothing file path text h
    rw [hanswer]
    refine ⟨⟨fun _ => h, fun _ => rfl⟩, ?_⟩
    constructor
    · intro hc
      cases hc
    · intro hall
      obtain ⟨r, hr, hn⟩ := h
      exact absurd hn (hall r hr)
  · have hall : ∀ r ∈ g.rules, r.check file path text ≠ .ok none := fun r hr hn => h ⟨r, hr, hn⟩
    have hanswer := run_findings file path text hall
    rw [hanswer]
    refine ⟨?_, ⟨fun _ => hall, fun _ => rfl⟩⟩
    constructor
    · intro hc
      cases hc
    · exact fun hc => absurd hc h

/-- A rule of a single setting besides its name takes the findings of the rule before it away. -/
theorem execute_loses_findings :
    let issue : Finding :=
      { description := "minor", severity := .low, location := .fallback "lib.rs" }
    let file : SyntaxFile := .withTree "lib.rs" "" .empty
    ∃ sound mute : Rule,
      Rule.ofSettings [.id "sound", .detector (.raw fun _ => .ok (some [issue]))] = .ok sound ∧
      Rule.ofSettings [.id "mute", .detector (.raw fun _ => .ok none)] = .ok mute ∧
      sound.check file "lib.rs" "" = .ok (some [issue]) ∧
      (((Registry.new {}).addAll [sound, mute]).registry.execute file "lib.rs" "").answer =
        .error .nothingToCount :=
  ⟨_, _, rfl, rfl, rfl, rfl⟩

end Registry

end AnchorAudit
