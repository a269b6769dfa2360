import AnchorAudit.Severity

/-! What an analysis reports: findings, where they are, and their numbers. -/
namespace AnchorAudit

/-- A place in a source file. Lines and columns count from one. -/
structure Location where
  file : String
  line : Int
  column : Option Int := none
  endLine : Option Int := none
  endColumn : Option Int := none
  deriving DecidableEq

namespace Location

/-- The place of something whose position is not known. -/
def fallback (file : String) : Location := { file, line := 1 }

/-- The end is left out when it says nothing new. -/
def render (l : Location) : String :=
  let start := l.file ++ ":" ++ toString l.line
  match l.column with
  | none => start
  | some column =>
    let place := start ++ ":" ++ toString column
    match l.endLine, l.endColumn with
    | some endLine, some endColumn =>
      if endLine ≠ l.line then place ++ "-" ++ toString endLine ++ ":" ++ toString endColumn
      else if endColumn ≠ column then place ++ "-" ++ toString endColumn
      else place
    | none, some endColumn =>
      if endColumn ≠ column then place ++ "-" ++ toString endColumn else place
    | _, none => place

end Location

structure Finding where
  description : String
  severity : Severity
  location : Location
  snippet : Option String := none
  ruleId : String := ""
  title : String := ""
  recommendations : List String := []
  deriving DecidableEq

structure Stats where
  filesAnalyzed : Int := 0
  filesFailed : Int := 0
  rulesExecuted : Int := 0
  bySeverity : List (Severity × Int) := []
  deriving DecidableEq

def Stats.count? (s : Stats) (severity : Severity) : Option Int := s.bySeverity.lookup severity

structure AnalysisResult where
  findings : List Finding := []
  stats : Stats := {}
  deriving DecidableEq

/-- The number of findings of each severity that occurs, the gravest first. -/
def tally (findings : List Finding) : List (Severity × Int) :=
  Severity.ordered.filterMap fun s =>
    let n := findings.countP (·.severity == s)
    if n = 0 then none else some (s, (n : Int))

end AnchorAudit
