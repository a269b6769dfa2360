import AnchorAudit.Proofs.Lookup
import AnchorAudit.Proofs.Query
import AnchorAudit.Rule.Draft
import Mathlib.Data.List.Induction

/-! Rules from settings. What a draft says of one matter hangs on the settings about that matter in their
order and on no others; and a rule treats every finding by itself, first by all its transforms and then
by all its filters. -/
namespace AnchorAudit

namespace Setting

inductive Matter where
  | id
  | title
  | description
  | severity
  | ruleType
  | tags
  | references
  | recommendations
  | enabled
  | detector
  | transform
  | filter
  deriving DecidableEq

def Matter.Value : Matter → Type
  | id | title | description => String
  | severity => Severity
  | ruleType => RuleType
  | tags | references | recommendations => List String
  | enabled => Bool
  | detector => Detector
  | transform => Finding → Except Fault Finding
  | filter => Finding → Except Fault Bool

def matter : Setting → Matter
  | id _ => .id
  | title _ => .title
  | description _ => .description
  | severity _ => .severity
  | ruleType _ => .ruleType
  | tags _ => .tags
  | references _ => .references
  | recommendations _ => .recommendations
  | enabled _ => .enabled
  | detector _ => .detector
  | transform _ => .transform
  | filter _ => .filter

def value : (s : Setting) → s.matter.Value
  | id x => x
  | title x => x
  | description x => x
  | severity x => x
  | ruleType x => x
  | tags xs => xs
  | references xs => xs
  | recommendations xs => xs
  | enabled x => x
  | detector x => x
  | transform x => x
  | filter x => x

def valueOf? (m : Matter) (s : Setting) : Option m.Value :=
  if h : s.matter = m then some (h ▸ s.value) else none

def values (settings : List Setting) (m : Matter) : List m.Value := settings.filterMap (valueOf? m)

/-- What is said about each matter when one more setting follows. -/
def join (s : Setting) (values : (m : Matter) → List m.Value) (m : Matter) : List m.Value :=
  match s.valueOf? m with
  | some v => values m ++ [v]
  | none => values m

theorem values_concat (settings : List Setting) (s : Setting) :
    values (settings ++ [s]) = s.join (values settings) := by
  funext m
  unfold values join
  rw [List.filterMap_append]
  cases hs : s.valueOf? m with
  | some v => simp [hs]
  | none => simp [hs]

/-- The same settings, and those about one matter in the same order. -/
def SameOrders (settings others : List Setting) : Prop :=
  ∀ m, settings.filter (·.matter = m) = others.filter (·.matter = m)

theorem values_filter (settings : List Setting) (m : Matter) :
    values (settings.filter (·.matter = m)) m = values settings m := by
  unfold values
  rw [List.filterMap_filter]
  congr 1
  funext s
  unfold valueOf?
  by_cases h : s.matter = m
  · simp [h]
  · simp [h]

theorem SameOrders.values_eq {settings others : List Setting} (h : SameOrders settings others) :
    values others = values settings := by
  funext m
  rw [← values_filter others, ← h m, values_filter]

end Setting

namespace Draft

/-- The draft that holds what is said about each matter: the last word where there is room for one, and
everything in its order where there is room for many. -/
def described (values : (m : Setting.Matter) → List m.Value) : Draft where
  id := (values .id).getLastD ""
  title := (values .title).getLastD ""
  description := (values .description).getLastD ""
  severity := (values .severity).getLastD .medium
  ruleType := (values .ruleType).getLastD .solana
  tags := (values .tags).flatten
  references := (values .references).flatten
  recommendations := (values .recommendations).flatten
  enabled := (values .enabled).getLastD true
  detectors := values .detector
  transforms := values .transform
  filters := values .filter

/-- One more setting adds to what is said about its own matter and changes nothing else. -/
theorem described_set (values : (m : Setting.Matter) → List m.Value) (s : Setting) :
    (described values).set s = described (s.join values) := by
  cases s with
  | id x => exact congrArg ({ described values with id := · }) List.getLastD_concat.symm
  | title x => exact congrArg ({ described values with title := · }) List.getLastD_concat.symm
  | description x =>
    exact congrArg ({ described values with description := · }) List.getLastD_concat.symm
  | severity x => exact congrArg ({ described values with severity := · }) List.getLastD_concat.symm
  | ruleType x => exact congrArg ({ described values with ruleType := · }) List.getLastD_concat.symm
  | tags xs => exact congrArg ({ described values with tags := · }) List.flatten_concat.symm
  | references xs =>
    exact congrArg ({ described values with references := · }) List.flatten_concat.symm
  | recommendations xs =>
    exact congrArg ({ described values with recommendations := · }) List.flatten_concat.symm
  | enabled x => exact congrArg ({ described values with enabled := · }) List.getLastD_concat.symm
  | detector x => rfl
  | transform x => rfl
  | filter x => rfl

theorem ofSettings_eq (settings : List Setting) :
    ofSettings settings = described (Setting.values settings) := by
  induction settings using List.reverseRecOn with
  | nil => rfl
  | append_singleton settings s ih =>
    have hset : ofSettings (settings ++ [s]) = (ofSettings settings).set s := List.foldl_append
    rw [hset, ih, described_set, Setting.values_concat]

theorem build_eq_error_iff {d : Draft} :
    (∃ e, d.build = .error e) ↔ d.id = "" ∨ d.detectors.length ≠ 1 := by
  unfold build
  by_cases hid : d.id = ""
  · simp [hid]
  · match d.detectors with
    | [] => simp [hid]
    | [detector] => simp [hid]
    | _ :: _ :: _ => simp [hid]

theorem build_eq_ok {d : Draft} {r : Rule} (h : d.build = .ok r) :
    ∃ detector, d.detectors = [detector] ∧ r =
      { id := d.id
        title := d.title
        description := d.description
        severity := d.severity
        ruleType := d.ruleType
        detector
        transforms := d.transforms
        filters := d.filters
        recommendations := d.recommendations
        references := d.references
        tags := d.tags
        enabled := d.enabled } := by
  unfold build at h
  split at h
  · cases h
  · split at h
    · cases h
    · rename_i detector hdetector
      cases h
      exact ⟨detector, hdetector, rfl⟩
    · cases h

end Draft

namespace Rule

section Stages
variable {ε α β γ : Type}

theorem exists_mapM_of_bind {first : α → Except ε β} {second : β → Except ε γ} {l : List α}
    {found : List γ} (h : l.mapM (fun x => first x >>= second) = .ok found) :
    ∃ between, l.mapM first = .ok between ∧ between.mapM second = .ok found := by
  induction l generalizing found with
  | nil =>
    cases h
    exact ⟨[], rfl, rfl⟩
  | cons x l ih =>
    rw [List.mapM_cons, bind_eq_ok_iff] at h
    obtain ⟨z, hz, h⟩ := h
    obtain ⟨y, hy, hyz⟩ := bind_eq_ok_iff.mp hz
    obtain ⟨rest, hrest, h⟩ := bind_eq_ok_iff.mp h
    obtain ⟨between, hfirst, hsecond⟩ := ih hrest
    cases h
    refine ⟨y :: between, ?_, ?_⟩
    · rw [List.mapM_cons, hy, hfirst]
      rfl
    · rw [List.mapM_cons, hyz, hsecond]
      rfl

theorem exists_filterM_of_both {first second : α → Except ε Bool} {l found : List α}
    (h : l.filterM (fun x => do if ← first x then second x else return false) = .ok found) :
    ∃ between, l.filterM first = .ok between ∧ between.filterM second = .ok found := by
  induction l generalizing found with
  | nil =>
    cases h
    exact ⟨[], rfl, rfl⟩
  | cons x l ih =>
    rw [Query.filterM_cons, bind_eq_ok_iff] at h
    obtain ⟨passes, hpasses, h⟩ := h
    obtain ⟨rest, hrest, h⟩ := bind_eq_ok_iff.mp h
    obtain ⟨b, hb, hpasses⟩ := bind_eq_ok_iff.mp hpasses
    obtain ⟨between, hfirst, hsecond⟩ := ih hrest
    cases h
    cases b with
    | true =>
      refine ⟨x :: between, ?_, ?_⟩
      · rw [Query.filterM_cons, hb, hfirst]
        rfl
      · have hx : second x = .ok passes := hpasses
        rw [Query.filterM_cons, hx, hsecond]
        rfl
    | false =>
      cases hpasses
      refine ⟨between, ?_, hsecond⟩
      rw [Query.filterM_cons, hb, hfirst]
      rfl

end Stages

def transformed (transforms : List (Finding → Except Fault Finding)) (f : Finding) :
    Except Fault Finding :=
  transforms.foldlM (fun g transform => transform g) f

/-- Whether all filters accept a finding. After the first that does not, no other is asked. -/
def accepted : List (Finding → Except Fault Bool) → Finding → Except Fault Bool
  | [], _ => .ok true
  | keep :: filters, f => do if ← keep f then accepted filters f else return false

theorem eq_true_of_accepted_iff {filters : List (Finding → Except Fault Bool)} {f : Finding}
    {verdict : Bool} (h : accepted filters f = .ok verdict) :
    verdict = true ↔ ∀ keep ∈ filters, keep f = .ok true := by
  induction filters with
  | nil =>
    cases h
    simp
  | cons keep filters ih =>
    obtain ⟨b, hb, h⟩ := bind_eq_ok_iff.mp h
    rw [List.forall_mem_cons, hb]
    cases b with
    | true =>
      have hrest : accepted filters f = .ok verdict := h
      simpa using ih hrest
    | false =>
      cases h
      simp

theorem foldlM_transformStep {transforms : List (Finding → Except Fault Finding)}
    {found images : List Finding} (h : found.mapM (transformed transforms) = .ok images) :
    transforms.foldlM transformStep (some found) = .ok (some images) := by
  induction transforms generalizing found with
  | nil =>
    have hsame : found.mapM (transformed []) = .ok (found.map fun f => f) :=
      Text.mapM_eq_ok fun _ _ => rfl
    rw [hsame, List.map_id'] at h
    cases h
    rfl
  | cons transform transforms ih =>
    obtain ⟨between, hfirst, hrest⟩ := exists_mapM_of_bind h
    have hstep : transformStep (some found) transform = .ok (some between) := by
      change (do return some (← found.mapM transform)) = Except.ok (some between)
      rw [hfirst]
      rfl
    rw [List.foldlM_cons, hstep]
    exact ih hrest

theorem foldlM_filterStep {filters : List (Finding → Except Fault Bool)}
    {found kept : List Finding} (h : found.filterM (accepted filters) = .ok kept) :
    filters.foldlM filterStep (some found) = .ok (some kept) := by
  induction filters generalizing found with
  | nil =>
    have hall : found.filterM (accepted []) = .ok (found.filter fun _ => true) :=
      Query.filterM_eq_ok fun _ _ => rfl
    rw [hall, List.filter_eq_self.mpr fun _ _ => rfl] at h
    cases h
    rfl
  | cons keep filters ih =>
    obtain ⟨between, hfirst, hrest⟩ := exists_filterM_of_both h
    have hstep : filterStep (some found) keep = .ok (some between) := by
      change (do return some (← found.filterM keep)) = Except.ok (some between)
      rw [hfirst]
      rfl
    rw [List.foldlM_cons, hstep]
    exact ih hrest

/-- The subjects of a query become findings in the name of the rule. -/
theorem detect_query {r : Rule} {run : SyntaxFile → String → SourceLines → Except Fault Query}
    (hdetector : r.detector = .query run) {file : SyntaxFile} {path : String} {lines : SourceLines}
    {q : Query} (hq : run file path lines = .ok q) :
    r.detect file path lines = .ok (some (q.subjects.map fun s =>
      r.sign (Query.findingOf r.severity r.title r.description path lines s))) := by
  unfold detect
  rw [hdetector]
  dsimp only
  rw [hq]
  dsimp only [bind, Except.bind, Query.toLocatedFindings]
  rw [List.map_map]
  rfl

theorem check_of_detect {r : Rule} {file : SyntaxFile} {path text : String} {found : List Finding}
    {image : Finding → Finding} {accepts : Finding → Bool}
    (hfound : r.detect file path (.ofText text path) = .ok (some found))
    (himage : ∀ f ∈ found, transformed r.transforms f = .ok (image f))
    (haccepts : ∀ f ∈ found, accepted r.filters (image f) = .ok (accepts (image f))) :
    r.check file path text =
      .ok (some (if r.enabled then (found.map image).filter accepts else [])) := by
  have htransforms := foldlM_transformStep (Text.mapM_eq_ok himage)
  have hkept : (found.map image).filterM (accepted r.filters) =
      .ok ((found.map image).filter accepts) := by
    apply Query.filterM_eq_ok
    intro g hg
    obtain ⟨f, hf, rfl⟩ := List.mem_map.mp hg
    exact haccepts f hf
  have hfindings : r.findings file path text = .ok (some ((found.map image).filter accepts)) := by
    unfold findings process
    rw [hfound]
    change r.transforms.foldlM transformStep (some found) >>= r.filters.foldlM filterStep = _
    rw [htransforms]
    exact foldlM_filterStep hkept
  unfold check
  rw [hfindings]
  cases r.enabled <;> rfl

/-- Settings in another order give the same rule as long as those about one matter keep their order. There
is no rule when the last id is empty or absent, or when there is not exactly one detector. The rule checks
a file by its detector: the first two kinds give findings, the third gives subjects, which are reported in
the name of the rule. Where nothing fails on these findings, the answer is the findings after all transforms
in their order, as far as all filters accept them; a rule that is not enabled answers nothing. -/
theorem ofSettings_reordered {settings others : List Setting}
    (h : Setting.SameOrders settings others) :
    Rule.ofSettings others = Rule.ofSettings settings ∧
    (Draft.ofSettings others).buildLog = (Draft.ofSettings settings).buildLog ∧
    let said := Setting.values settings
    ((∃ e, Rule.ofSettings settings = .error e) ↔
      (said .id).getLastD "" = "" ∨ (said .detector).length ≠ 1) ∧
    ∀ r, Rule.ofSettings settings = .ok r → ∃ detector, said .detector = [detector] ∧
      r = { id := (said .id).getLastD ""
            title := (said .title).getLastD ""
            description := (said .description).getLastD ""
            severity := (said .severity).getLastD .medium
            ruleType := (said .ruleType).getLastD .solana
            detector
            transforms := said .transform
            filters := said .filter
            recommendations := (said .recommendations).flatten
            references := (said .references).flatten
            tags := (said .tags).flatten
            enabled := (said .enabled).getLastD true } ∧
      ∀ file path text found,
        (match detector with
          | .raw run => run file = .ok (some found)
          | .visitor run => run file path (.ofText text path) = .ok (some found)
          | .query run => ∃ q, run file path (.ofText text path) = .ok q ∧
              found = q.subjects.map fun s =>
                { Query.findingOf r.severity r.title r.description path (.ofText text path) s with
                  ruleId := r.id, title := r.title, recommendations := r.recommendations }) →
        ∀ (image : Finding → Finding) (accepts : Finding → Bool),
          (∀ f ∈ found, transformed (said .transform) f = .ok (image f)) →
          (∀ f ∈ found, accepted (said .filter) (image f) = .ok (accepts (image f))) →
          (∀ f ∈ found, accepts (image f) = true ↔ ∀ keep ∈ said .filter, keep (image f) = .ok true) ∧
          r.check file path text =
            .ok (some (if r.enabled then (found.map image).filter accepts else [])) := by
  have hdraft : Draft.ofSettings others = Draft.ofSettings settings := by
    rw [Draft.ofSettings_eq, Draft.ofSettings_eq, h.values_eq]
  refine ⟨congrArg Draft.build hdraft, congrArg Draft.buildLog hdraft, ?_⟩
  intro said
  have hbuild : Rule.ofSettings settings = (Draft.described said).build :=
    congrArg Draft.build (Draft.ofSettings_eq settings)
  rw [hbuild]
  constructor
  · exact Draft.build_eq_error_iff
  · intro r hr
    obtain ⟨detector, hdetector, rfl⟩ := Draft.build_eq_ok hr
    refine ⟨detector, hdetector, rfl, ?_⟩
    intro file path text found hfound image accepts himage haccepts
    refine ⟨fun f hf => eq_true_of_accepted_iff (haccepts f hf), ?_⟩
    refine check_of_detect ?_ himage haccepts
    cases detector with
    | raw run => exact hfound
    | visitor run => exact hfound
    | query run =>
      obtain ⟨q, hq, rfl⟩ := hfound
      exact detect_query rfl hq

/-- The id comes last or early, the filter last or first, and a transform fails on findings that the
detector does not give. -/
theorem ofSettings_reordered_filter_first :
    let note (description : String) (severity : Severity) : Finding :=
      { description, severity, location := .fallback "lib.rs" }
    let detector : Setting := .detector (.raw fun _ => .ok (some [note "a" .low, note "b" .low]))
    let raise : Setting := .transform fun f =>
      .ok (if f.description = "a" then { f with severity := .high } else f)
    let exclaim : Setting := .transform fun f =>
      if f.description = "c" then .error .nothingToWalk
      else .ok { f with description := f.description ++ "!" }
    let grave : Setting := .filter fun f => .ok (f.severity == .high)
    let settings : List Setting := [.id "first", detector, raise, exclaim, .id "last", grave]
    let others : List Setting := [grave, raise, .id "first", .id "last", exclaim, detector]
    Setting.SameOrders settings others ∧ ∃ r, Rule.ofSettings others = .ok r ∧ r.id = "last" ∧
      ∀ file, r.check file "lib.rs" "" = .ok (some [note "a!" .high]) := by
  intro note detector raise exclaim grave settings others
  have horders : Setting.SameOrders settings others := by
    intro m
    cases m <;> rfl
  obtain ⟨hsame, -, -, hrules⟩ := ofSettings_reordered horders
  obtain ⟨r, hr⟩ : ∃ r, Rule.ofSettings settings = .ok r := ⟨_, rfl⟩
  obtain ⟨found, hfound, hrule, hcheck⟩ := hrules r hr
  cases hfound
  refine ⟨horders, r, hsame.trans hr, by rw [hrule]; rfl, ?_⟩
  intro file
  have henabled : r.enabled = true := by
    rw [hrule]
    rfl
  let image (f : Finding) : Finding :=
    { f with
      description := f.description ++ "!"
      severity := if f.description = "a" then .high else f.severity }
  have hanswer := (hcheck file "lib.rs" "" _ rfl image (·.severity == .high) ?_ ?_).2
  · rw [hanswer, henabled]
    rfl
  · exact List.forall_mem_cons.mpr ⟨rfl, List.forall_mem_singleton.mpr rfl⟩
  · exact List.forall_mem_cons.mpr ⟨rfl, List.forall_mem_singleton.mpr rfl⟩

end Rule

end AnchorAudit
