import AnchorAudit.Finding

/-! Reports: the findings of an analysis as text, the gravest first. -/
namespace AnchorAudit.Report

/-- The findings of each severity that occurs, the gravest first. -/
def groups (findings : List Finding) : List (Severity × List Finding) :=
  Severity.ordered.filterMap fun s =>
    match findings.filter (·.severity == s) with
    | [] => none
    | fs => some (s, fs)

/-- The findings of one severity under their numbers. -/
structure Section where
  severity : Severity
  entries : List (Nat × Finding)

/-- Numbers the findings of some groups from the given number on. -/
def number (next : Nat) : List (Severity × List Finding) → List Section
  | [] => []
  | (s, fs) :: rest => ⟨s, fs.mapIdx fun i f => (next + i, f)⟩ :: number (next + fs.length) rest

/-- The sections of a report. The numbers run through all of them. -/
def sections (findings : List Finding) : List Section := number 1 (groups findings)

namespace Console

def summary (stats : Stats) : List String :=
  Severity.ordered.filterMap fun s =>
    match stats.count? s with
    | some n => if n = 0 then none else some ("- " ++ s.title ++ ": " ++ toString n)
    | none => none

def entry (numbered : Nat × Finding) : String :=
  toString numbered.1 ++ ".\t" ++ numbered.2.description ++ " (" ++ numbered.2.location.render ++ ")"

def sectionLines (s : Section) : List String :=
  ("----- " ++ s.severity.title ++ " Severity Findings -----") :: s.entries.map entry

def body (findings : List Finding) : List String :=
  if findings.isEmpty then ["No vulnerabilities found"]
  else ("Found " ++ toString findings.length ++ " vulnerabilities:") ::
    (sections findings).flatMap sectionLines

def messages (findings : List Finding) (stats : Stats) : List String :=
  summary stats ++ body findings

def render (findings : List Finding) (stats : Stats) : String :=
  "\n".intercalate (messages findings stats)

end Console

namespace Markdown

def header (target time : String) (findings : List Finding) (stats : Stats) : List String :=
  ["# SolGuard Security Report", ""] ++
  (if target.isEmpty then [] else ["**Target:** `" ++ target ++ "`  "]) ++
  ["**Generated:** " ++ time ++ "  ",
   "**Files analyzed:** " ++ toString stats.filesAnalyzed ++ "  ",
   "**Rules executed:** " ++ toString stats.rulesExecuted ++ "  ",
   "**Total findings:** " ++ toString findings.length, ""]

def summaryRow (stats : Stats) (s : Severity) : String :=
  "| " ++ s.title ++ " | " ++ toString ((stats.count? s).getD 0) ++ " |"

def summary (stats : Stats) : List String :=
  ["## Summary", "", "| Severity | Count |", "|----------|-------|"] ++
  Severity.ordered.map (summaryRow stats) ++ [""]

/-- The heading of a finding: its title, or else the id of its rule. -/
def heading (f : Finding) : String :=
  if !f.title.isEmpty then f.title else if !f.ruleId.isEmpty then f.ruleId else "Finding"

def ruleLines (f : Finding) : List String :=
  if f.ruleId.isEmpty then [] else ["**Rule:** `" ++ f.ruleId ++ "`  "]

def snippetLines (f : Finding) : List String :=
  match f.snippet with
  | none => []
  | some code => if code.isEmpty then [] else ["```rust", code, "```", ""]

def recommendationLines (f : Finding) : List String :=
  if f.recommendations.isEmpty then []
  else ["**Recommendations:**", ""] ++ f.recommendations.map ("- " ++ ·) ++ [""]

def entry (numbered : Nat × Finding) : List String :=
  let f := numbered.2
  ["### " ++ toString numbered.1 ++ ". " ++ heading f, ""] ++ ruleLines f ++
  ["**Location:** `" ++ f.location.render ++ "`", "", f.description, ""] ++ snippetLines f ++
  recommendationLines f

def sectionLines (s : Section) : List String :=
  ["## " ++ s.severity.title ++ " Severity", ""] ++ s.entries.flatMap entry

def body (findings : List Finding) : List String :=
  if findings.isEmpty then ["No vulnerabilities found.", ""]
  else (sections findings).flatMap sectionLines

def lines (target time : String) (findings : List Finding) (stats : Stats) : List String :=
  header target time findings stats ++ summary stats ++ body findings

/-- The report on a target, with the time at which it was made. -/
def render (target time : String) (findings : List Finding) (stats : Stats) : String :=
  "\n".intercalate (lines target time findings stats)

end Markdown

end AnchorAudit.Report
