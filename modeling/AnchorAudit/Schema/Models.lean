import AnchorAudit.Finding
import AnchorAudit.Schema.Reader
import AnchorAudit.Severity

/-! The JSON form of findings, numbers and selections. -/
namespace AnchorAudit

open Schema

def Location.read : Reader Location := fun v => do
  let ms ← members .notModel v
  let (file, line, column, endLine, endColumn) ←
    both (required ms "file" string) <|
    both (required ms "line" (integerFrom 1)) <|
    both (defaulted ms "column" none (nullable integer)) <|
    both (defaulted ms "end_line" none (nullable integer))
      (defaulted ms "end_column" none (nullable integer))
  return { file, line, column, endLine, endColumn }

def Location.write (l : Location) : Json :=
  .object [("file", .string l.file), ("line", .int l.line), ("column", .optional .int l.column),
    ("end_line", .optional .int l.endLine), ("end_column", .optional .int l.endColumn)]

def Finding.read : Reader Finding := fun v => do
  let ms ← members .notModel v
  let (description, severity, location, snippet, ruleId, title, recommendations) ←
    both (required ms "description" string) <|
    both (required ms "severity" (choice .notChoice Severity.ofName?)) <|
    both (required ms "location" Location.read) <|
    both (defaulted ms "code_snippet" none (nullable string)) <|
    both (defaulted ms "rule_id" "" string) <|
    both (defaulted ms "title" "" string) (defaulted ms "recommendations" [] (list string))
  return { description, severity, location, snippet, ruleId, title, recommendations }

def Finding.write (f : Finding) : Json :=
  .object [("description", .string f.description), ("severity", .string f.severity.name),
    ("location", f.location.write), ("code_snippet", .optional .text f.snippet),
    ("rule_id", .string f.ruleId), ("title", .string f.title),
    ("recommendations", .texts f.recommendations)]

/-- The time that an analysis took is checked and not kept. -/
def Stats.read : Reader Stats := fun v => do
  let ms ← members .notModel v
  let (filesAnalyzed, filesFailed, rulesExecuted, _, bySeverity) ←
    both (defaulted ms "files_analyzed" 0 integer) <|
    both (defaulted ms "files_failed" 0 integer) <|
    both (defaulted ms "rules_executed" 0 integer) <|
    both (defaulted ms "total_time_ms" () real)
      (defaulted ms "findings_by_severity" [] (map Severity.ofName? integer))
  return { filesAnalyzed, filesFailed, rulesExecuted, bySeverity }

def Stats.write (s : Stats) : Json :=
  .object [("files_analyzed", .int s.filesAnalyzed), ("files_failed", .int s.filesFailed),
    ("rules_executed", .int s.rulesExecuted),
    ("findings_by_severity", .object (s.bySeverity.map fun (k, n) => (k.name, .int n)))]

def AnalysisResult.read : Reader AnalysisResult := fun v => do
  let ms ← members .notModel v
  let (findings, stats) ←
    both (defaulted ms "findings" [] (list Finding.read)) (defaulted ms "stats" {} Stats.read)
  return { findings, stats }

def AnalysisResult.write (r : AnalysisResult) : Json :=
  .object [("findings", .array (r.findings.map Finding.write)), ("stats", r.stats.write)]

def Selection.read : Reader Selection := fun v => do
  let ms ← members .notModel v
  let (ignoredSeverities, ignoredRules, includedTypes, templatesPath) ←
    both (defaulted ms "ignore_severities" [] (set (choice .notChoice Severity.ofName?))) <|
    both (defaulted ms "ignore_rules" [] (set points)) <|
    both (defaulted ms "include_rule_types" RuleType.all (set (choice .notChoice RuleType.ofName?)))
      (defaulted ms "custom_templates_path" none (nullable path))
  return { ignoredSeverities, ignoredRules, includedTypes, templatesPath }

/-- The names in a set, in the order of their points. -/
def sortedNames (names : List Text.Points) : List Text.Points :=
  names.mergeSort fun a b => !(b.map Text.Point.code).lex (a.map Text.Point.code) Nat.blt

def Json.names (names : List Text.Points) : Json := .array ((sortedNames names).map .string)

def Selection.write (s : Selection) : Json :=
  .object [("ignore_severities", .names (s.ignoredSeverities.map fun v => v.name)),
    ("ignore_rules", .names s.ignoredRules),
    ("include_rule_types", .names (s.includedTypes.map fun t => t.name)),
    ("custom_templates_path", .optional (.text ∘ Path.render) s.templatesPath)]

end AnchorAudit
