import AnchorAudit.Catalogue
import AnchorAudit.Severity

/-! The registry of rules: open for more rules until it is frozen, then run on files. -/
namespace AnchorAudit

namespace Selection

inductive Refusal where
  | severity
  | id
  | ruleType
  deriving DecidableEq

def refusal? (s : Selection) (r : Rule) : Option Refusal :=
  if s.ignoredSeverities.contains r.severity then some .severity
  else if s.ignoredRules.contains r.id then some .id
  else if !s.includedTypes.contains r.ruleType then some .ruleType
  else none

def accepts (s : Selection) (r : Rule) : Bool := (s.refusal? r).isNone

end Selection

/-- What is logged when a rule is offered. -/
def Rule.offerLog (r : Rule) : Option Selection.Refusal → Log.Entry
  | some .severity => Log.debug ("Ignoring rule " ++ r.id ++ " due to severity " ++ r.severity.name)
  | some .id => Log.debug ("Ignoring rule " ++ r.id ++ " due to ID match")
  | some .ruleType => Log.debug ("Ignoring rule " ++ r.id ++ " due to rule type " ++ r.ruleType.name)
  | none => Log.debug ("Adding rule: " ++ r.id)

structure Registry where
  selection : Selection
  /-- The rules that were accepted so far, in the order in which they were offered. -/
  pending : List Rule
  /-- The rules that the registry was closed with. -/
  closed : Option (List Rule)

/-- A rule was offered to a registry that is frozen. -/
structure FrozenError where
  id : String
  deriving DecidableEq

def FrozenError.message (e : FrozenError) : String :=
  "Cannot add rule " ++ e.id ++ ": registry is frozen"

namespace Registry

def new (selection : Selection) : Registry := ⟨selection, [], none⟩

def frozen (r : Registry) : Bool := r.closed.isSome

def rules (r : Registry) : List Rule := r.closed.getD r.pending

def count (r : Registry) : Nat := r.rules.length

def get? (r : Registry) (id : String) : Option Rule := r.rules.find? (·.id == id)

/-- What a request to a registry leads to: the registry after it, the answer and the log. -/
structure Reply (ε α : Type) where
  registry : Registry
  answer : Except ε α
  log : Log

/-- Offers a rule. The answer tells whether it was accepted. -/
def add (r : Registry) (rule : Rule) : Reply FrozenError Bool :=
  if r.frozen then ⟨r, .error ⟨rule.id⟩, []⟩
  else
    let refusal := r.selection.refusal? rule
    let next := if refusal.isNone then { r with pending := r.pending ++ [rule] } else r
    ⟨next, .ok refusal.isNone, [rule.offerLog refusal]⟩

/-- Offers rules one after the other, until one cannot be taken. -/
def addAll (r : Registry) : List Rule → Reply FrozenError Unit
  | [] => ⟨r, .ok (), []⟩
  | rule :: rest =>
    let first := r.add rule
    match first.answer with
    | .error e => ⟨first.registry, .error e, first.log⟩
    | .ok _ =>
      let others := addAll first.registry rest
      { others with log := first.log ++ others.log }

def loadCatalogue (r : Registry) : Reply FrozenError Unit :=
  let loaded := r.addAll Catalogue.rules
  let start := Log.debug "Loading built-in rules"
  match loaded.answer with
  | .error _ => { loaded with log := start :: loaded.log }
  | .ok _ =>
    let stop := Log.info ("Loaded " ++ toString loaded.registry.count ++ " built-in rules")
    { loaded with log := start :: loaded.log ++ [stop] }

/-- Rule templates are not supported: nothing is added. -/
def loadTemplates (r : Registry) (path : String) : Reply FrozenError Unit :=
  ⟨r, .ok (), [Log.debug ("Loading YAML rules from " ++ path),
    Log.info "YAML rule loading not implemented yet"]⟩

/-- Closes the registry. The answer is the list of its rules. -/
def freeze (r : Registry) : Reply FrozenError (List Rule) :=
  match r.closed with
  | some rules => ⟨r, .ok rules, []⟩
  | none =>
    ⟨{ r with pending := [], closed := some r.pending }, .ok r.pending,
      [Log.debug ("Rule registry frozen with " ++ toString r.pending.length ++ " rules")]⟩

/-- What came of running rules: their findings, unless one of them gave nothing at all. -/
structure Run where
  findings : Except Fault (List Finding)
  log : Log

/-- Runs rules one after the other. A rule that fails is logged and passed over. -/
def run (file : SyntaxFile) (path text : String) : List Rule → Run
  | [] => ⟨.ok [], []⟩
  | r :: rest =>
    match r.check file path text with
    | .error fault =>
      let others := run file path text rest
      { others with
        log := Log.warning ("Error executing rule " ++ r.id ++ ": " ++ fault.kind ++ ": " ++
          fault.message) :: others.log }
    | .ok none => ⟨.error .nothingToCount, []⟩
    | .ok (some found) =>
      let others := run file path text rest
      ⟨others.findings.map (found ++ ·),
        Log.debug ("Rule " ++ r.id ++ " found " ++ toString found.length ++ " issues") :: others.log⟩

/-- Runs all rules on a file, after closing the registry. -/
def execute (r : Registry) (file : SyntaxFile) (path text : String) :
    Reply Fault (List Finding) :=
  let closed := r.freeze
  let outcome := run file path text closed.registry.rules
  ⟨closed.registry, outcome.findings,
    closed.log ++
      Log.debug ("Executing " ++ toString closed.registry.count ++ " rules on " ++ path) :: outcome.log⟩

end Registry

end AnchorAudit
