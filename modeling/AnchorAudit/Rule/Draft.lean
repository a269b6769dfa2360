import AnchorAudit.Rule.Basic

/-! Drafts: rules in the making, put together from single settings. -/
namespace AnchorAudit

/-- One statement about a rule in the making. -/
inductive Setting where
  | id (id : String)
  | title (title : String)
  | description (description : String)
  | severity (severity : Severity)
  | ruleType (ruleType : RuleType)
  | tags (tags : List String)
  | references (references : List String)
  | recommendations (recommendations : List String)
  | enabled (enabled : Bool)
  | detector (detector : Detector)
  | transform (transform : Finding → Except Fault Finding)
  | filter (keep : Finding → Except Fault Bool)

structure Draft where
  id : String := ""
  title : String := ""
  description : String := ""
  severity : Severity := .medium
  ruleType : RuleType := .solana
  tags : List String := []
  references : List String := []
  recommendations : List String := []
  enabled : Bool := true
  detectors : List Detector := []
  transforms : List (Finding → Except Fault Finding) := []
  filters : List (Finding → Except Fault Bool) := []

inductive DraftError where
  | noId
  | noDetector (id : String)
  | severalDetectors (id : String)
  deriving DecidableEq

def DraftError.message : DraftError → String
  | .noId => "Rule id is required"
  | .noDetector id => "Rule '" ++ id ++ "' has no query"
  | .severalDetectors id => "Rule '" ++ id ++ "' has more than one query"

namespace Draft

/-- A later setting replaces an earlier one where there is room for one, and is added to it where
there is room for many. -/
def set (d : Draft) : Setting → Draft
  | .id id => { d with id }
  | .title title => { d with title }
  | .description description => { d with description }
  | .severity severity => { d with severity }
  | .ruleType ruleType => { d with ruleType }
  | .tags tags => { d with tags := d.tags ++ tags }
  | .references references => { d with references := d.references ++ references }
  | .recommendations recommendations =>
    { d with recommendations := d.recommendations ++ recommendations }
  | .enabled enabled => { d with enabled }
  | .detector detector => { d with detectors := d.detectors ++ [detector] }
  | .transform transform => { d with transforms := d.transforms ++ [transform] }
  | .filter keep => { d with filters := d.filters ++ [keep] }

def ofSettings (settings : List Setting) : Draft := settings.foldl set {}

/-- The rule that a draft describes. It needs an id and exactly one detector. -/
def build (d : Draft) : Except DraftError Rule :=
  if d.id.isEmpty then .error .noId
  else match d.detectors with
    | [] => .error (.noDetector d.id)
    | [detector] =>
      .ok { id := d.id
            title := d.title
            description := d.description
            severity := d.severity
            ruleType := d.ruleType
            detector
            transforms := d.transforms
            filters := d.filters
            recommendations := d.recommendations
            references := d.references
            tags := d.tags
            enabled := d.enabled }
    | _ => .error (.severalDetectors d.id)

def buildLog (d : Draft) : Log :=
  Log.debug ("Building rule: " ++ d.id) ::
    match d.build with
    | .error _ => []
    | .ok _ =>
      (if d.references.isEmpty then []
        else [Log.debug ("References for rule " ++ d.id ++ ": " ++ Text.quotedList d.references)]) ++
      (if d.tags.isEmpty then []
        else [Log.debug ("Tags for rule " ++ d.id ++ ": " ++ Text.quotedList d.tags)]) ++
      if d.enabled then [] else [Log.info ("Rule " ++ d.id ++ " is disabled by default")]

end Draft

/-- The rule that settings describe, one after the other. -/
def Rule.ofSettings (settings : List Setting) : Except DraftError Rule :=
  (Draft.ofSettings settings).build

end AnchorAudit
