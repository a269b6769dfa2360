import AnchorAudit.Log
import AnchorAudit.Query

/-! Rules: a detector with what is known about it and what is done to its findings. -/
namespace AnchorAudit

/-- How a rule finds issues in a file. A detector may end in a fault. The first two kinds may also
give nothing at all instead of findings. -/
inductive Detector where
  /-- Findings straight from the file. -/
  | raw (run : SyntaxFile → Except Fault (Option (List Finding)))
  /-- Findings from the file, the path to report and the lines to quote. -/
  | visitor (run : SyntaxFile → String → SourceLines → Except Fault (Option (List Finding)))
  /-- Subjects, each of which the rule reports in its own words. -/
  | query (run : SyntaxFile → String → SourceLines → Except Fault Query)

structure Rule where
  id : String
  title : String
  description : String
  severity : Severity
  ruleType : RuleType
  detector : Detector
  transforms : List (Finding → Except Fault Finding) := []
  filters : List (Finding → Except Fault Bool) := []
  recommendations : List String := []
  references : List String := []
  tags : List String := []
  enabled : Bool := true

namespace Rule

/-- A finding in the name of the rule. -/
def sign (r : Rule) (f : Finding) : Finding :=
  { f with ruleId := r.id, title := r.title, recommendations := r.recommendations }

def detect (r : Rule) (file : SyntaxFile) (path : String) (lines : SourceLines) :
    Except Fault (Option (List Finding)) :=
  match r.detector with
  | .raw run => run file
  | .visitor run => run file path lines
  | .query run => do
    let q ← run file path lines
    return some ((q.toLocatedFindings r.severity r.title r.description path lines).map r.sign)

/-- The findings of a step that has to walk through them. -/
def walkThrough (findings : Option (List Finding)) : Except Fault (List Finding) :=
  match findings with
  | some fs => .ok fs
  | none => .error .nothingToWalk

def transformStep (findings : Option (List Finding)) (f : Finding → Except Fault Finding) :
    Except Fault (Option (List Finding)) := do
  return some (← (← walkThrough findings).mapM f)

def filterStep (findings : Option (List Finding)) (keep : Finding → Except Fault Bool) :
    Except Fault (Option (List Finding)) := do
  return some (← (← walkThrough findings).filterM keep)

/-- The findings after all transforms and then all filters, each in its order. -/
def process (r : Rule) (findings : Option (List Finding)) :
    Except Fault (Option (List Finding)) := do
  r.filters.foldlM filterStep (← r.transforms.foldlM transformStep findings)

/-- The findings of a rule before it is asked whether the rule is enabled. -/
def findings (r : Rule) (file : SyntaxFile) (path text : String) :
    Except Fault (Option (List Finding)) := do
  r.process (← r.detect file path (.ofText text path))

/-- The findings of a rule on a file, whose lines are quoted from the given text. A rule that is
not enabled does its work and then drops what it has found. -/
def check (r : Rule) (file : SyntaxFile) (path text : String) :
    Except Fault (Option (List Finding)) := do
  let found ← r.findings file path text
  if r.enabled then return found
  else match found with
    | some _ => return some []
    | none => throw .nothingToCount

def checkLog (r : Rule) (file : SyntaxFile) (path text : String) : Log :=
  Log.debug ("Executing rule " ++ r.id ++ " in " ++ path) ::
    if r.enabled then []
    else match r.findings file path text with
      | .ok (some found) =>
        [Log.debug ("Rule " ++ r.id ++ " is disabled, " ++ toString found.length ++
          " findings discarded")]
      | _ => []

end Rule

end AnchorAudit
