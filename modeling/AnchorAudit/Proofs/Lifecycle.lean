import AnchorAudit.Proofs.Registry

/-! The life of a registry under requests of every kind, in any order and number. Up to the first
request that closes it, it gathers what it is offered and its selection admits; from then on
nothing changes it. -/
namespace AnchorAudit.Registry

inductive Request where
  | add (rule : Rule)
  | loadCatalogue
  | loadTemplates (path : String)
  | freeze
  | execute (file : SyntaxFile) (path text : String)

namespace Request

def offers : Request → List Rule
  | add rule => [rule]
  | loadCatalogue => Catalogue.rules
  | _ => []

/-- Requests after which a registry takes no more rules. To run the rules is one of them. -/
def closes : Request → Bool
  | freeze => true
  | execute _ _ _ => true
  | _ => false

end Request

def handle (g : Registry) : Request → Registry
  | .add rule => (g.add rule).registry
  | .loadCatalogue => g.loadCatalogue.registry
  | .loadTemplates path => (g.loadTemplates path).registry
  | .freeze => g.freeze.registry
  | .execute file path text => (g.execute file path text).registry

def after (g : Registry) (requests : List Request) : Registry := requests.foldl handle g

section Frozen
variable {g : Registry} (hg : g.frozen = true)
include hg

theorem add_frozen (rule : Rule) :
    (g.add rule).registry = g ∧ (g.add rule).answer = .error ⟨rule.id⟩ := by
  unfold add
  rw [if_pos hg]
  exact ⟨rfl, rfl⟩

/-- The first rule of the catalogue is refused, and with it the whole request. -/
theorem loadCatalogue_frozen :
    g.loadCatalogue.registry = g ∧
      g.loadCatalogue.answer = .error ⟨Catalogue.unsafeCode.id⟩ := by
  obtain ⟨hregistry, hanswer⟩ := add_frozen hg Catalogue.unsafeCode
  have hload : (g.addAll Catalogue.rules).registry = g ∧
      (g.addAll Catalogue.rules).answer = .error ⟨Catalogue.unsafeCode.id⟩ := by
    unfold Catalogue.rules addAll
    dsimp only
    rw [hanswer]
    exact ⟨hregistry, rfl⟩
  unfold loadCatalogue
  dsimp only
  rw [hload.2]
  exact ⟨hload.1, rfl⟩

theorem freeze_frozen : g.freeze.registry = g := by
  obtain ⟨selection, pending, closed⟩ := g
  cases closed with
  | none => cases hg
  | some rules => rfl

theorem handle_frozen (request : Request) : g.handle request = g := by
  cases request with
  | add rule => exact (add_frozen hg rule).1
  | loadCatalogue => exact (loadCatalogue_frozen hg).1
  | loadTemplates path => rfl
  | freeze => exact freeze_frozen hg
  | execute file path text => exact freeze_frozen hg

theorem after_frozen (requests : List Request) : g.after requests = g := by
  induction requests with
  | nil => rfl
  | cons request requests ih =>
    have hstep : g.after (request :: requests) = (g.handle request).after requests := rfl
    rw [hstep, handle_frozen hg, ih]

end Frozen

theorem freeze_open {g : Registry} (hg : g.frozen = false) :
    g.freeze.registry = holding g.selection g.rules true := by
  rw [eq_holding hg]
  rfl

theorem handle_open {g : Registry} (hg : g.frozen = false) (request : Request) :
    g.handle request =
      holding g.selection (g.rules ++ request.offers.filter g.selection.accepts) request.closes := by
  cases request with
  | add rule => exact (add_open hg rule).1
  | loadCatalogue => exact loadCatalogue_open hg
  | loadTemplates path => simpa [handle, loadTemplates, Request.offers, Request.closes] using eq_holding hg
  | freeze => simpa [handle, Request.offers, Request.closes] using freeze_open hg
  | execute file path text => simpa [handle, execute, Request.offers, Request.closes] using freeze_open hg

/-- The rules that are offered before the first request that closes the registry, one by one in
their order. -/
def gathered (requests : List Request) : List Rule :=
  (requests.takeWhile (!·.closes)).flatMap Request.offers

theorem after_open {g : Registry} (hg : g.frozen = false) (requests : List Request) :
    g.after requests =
      holding g.selection (g.rules ++ (gathered requests).filter g.selection.accepts)
        (requests.any (·.closes)) := by
  induction requests generalizing g with
  | nil => simpa [after, gathered] using eq_holding hg
  | cons request requests ih =>
    have hstep : g.after (request :: requests) = (g.handle request).after requests := rfl
    rw [hstep, handle_open hg]
    cases hc : request.closes with
    | true =>
      have hoffers : request.offers = [] := by
        cases request with
        | freeze => rfl
        | execute file path text => rfl
        | _ => cases hc
      rw [after_frozen rfl]
      simp [gathered, hc, hoffers]
    | false =>
      rw [ih rfl]
      simp [gathered, hc, List.append_assoc, holding, rules]

/-- After any requests a new registry holds the rules that it was offered before it was closed and
that its selection admits, in the order of the offers and as often as they were offered. Once it is
closed no request changes it, and offers are refused. -/
theorem after_new (s : Selection) (requests : List Request) :
    let g := (new s).after requests
    g.rules = (gathered requests).filter (s.Admits ·) ∧
      g.frozen = requests.any (·.closes) ∧
      g.freeze.answer = .ok g.rules ∧
      ((∃ request ∈ requests, request.closes = true) →
        (∀ more, (new s).after (requests ++ more) = g ∧
          ((new s).after (requests ++ more)).count = g.count ∧
          ∀ id, ((new s).after (requests ++ more)).get? id = g.get? id) ∧
        (∀ rule, (g.add rule).registry = g ∧ (g.add rule).answer = .error ⟨rule.id⟩) ∧
        g.loadCatalogue.registry = g ∧
        g.loadCatalogue.answer = .error ⟨Catalogue.unsafeCode.id⟩ ∧
        g.freeze.registry = g) := by
  intro g
  have hg : g = holding s ((gathered requests).filter s.accepts) (requests.any (·.closes)) :=
    after_open (g := new s) rfl requests
  have haccepts : (fun r => decide (s.Admits r)) = s.accepts :=
    funext fun r => (s.accepts_eq r).symm
  refine ⟨?_, ?_, freeze_answer g, ?_⟩
  · rw [hg, haccepts, rules_holding]
  · rw [hg, frozen_holding]
  · rintro ⟨request, hmem, hcloses⟩
    have hfrozen : g.frozen = true := by
      rw [hg, frozen_holding]
      exact List.any_eq_true.mpr ⟨request, hmem, hcloses⟩
    have hmore (more : List Request) : (new s).after (requests ++ more) = g := by
      have happend : (new s).after (requests ++ more) = g.after more := List.foldl_append
      rw [happend, after_frozen hfrozen]
    refine ⟨fun more => ?_, add_frozen hfrozen, (loadCatalogue_frozen hfrozen).1,
      (loadCatalogue_frozen hfrozen).2, freeze_frozen hfrozen⟩
    rw [hmore]
    exact ⟨rfl, rfl, fun _ => rfl⟩

/-- A run that ends in a fault closes the registry all the same, and the rule that was offered twice
before it stands there twice. -/
theorem after_new_faulty_run :
    let mute : Rule :=
      { id := "mute", title := "", description := "", severity := .low, ruleType := .solana
        detector := .raw fun _ => .ok none }
    let grave : Rule := { mute with id := "grave", severity := .high }
    let file : SyntaxFile := .withTree "lib.rs" "" .empty
    let requests : List Request :=
      [.add mute, .add grave, .loadTemplates "rules", .add mute, .execute file "lib.rs" "", .add mute]
    let g := (new { ignoredSeverities := [.high] }).after requests
    (∃ request ∈ requests, request.closes = true) ∧ g.rules = [mute, mute] ∧
      (g.add grave).registry = g ∧ (g.add grave).answer = .error ⟨"grave"⟩ ∧
      (g.execute file "lib.rs" "").answer = .error .nothingToCount := by
  intro mute grave file requests g
  have hcloses : ∃ request ∈ requests, request.closes = true :=
    ⟨.execute file "lib.rs" "", by simp [requests], rfl⟩
  obtain ⟨hrules, -, -, hclosed⟩ := after_new { ignoredSeverities := [.high] } requests
  obtain ⟨-, hadd, -⟩ := hclosed hcloses
  exact ⟨hcloses, hrules, (hadd grave).1, (hadd grave).2, rfl⟩

end AnchorAudit.Registry
