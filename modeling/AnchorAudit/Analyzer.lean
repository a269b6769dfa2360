import AnchorAudit.Listing
import AnchorAudit.Registry

/-! Analysis of many files. A file that cannot be analysed is counted and passed over. -/
namespace AnchorAudit

/-- A selection and the closed registry of the rules that it accepts. -/
structure Analyzer where
  selection : Selection
  registry : Registry

namespace Analyzer

def new (selection : Selection) : Analyzer :=
  ⟨selection, (Registry.new selection).loadCatalogue.registry.freeze.registry⟩

def ofRules (selection : Selection) (rules : List Rule) : Analyzer :=
  ⟨selection, ((Registry.new selection).addAll rules).registry.freeze.registry⟩

/-- An analyser that was made, with what was logged on the way by itself and by its registry. -/
structure Built where
  analyzer : Analyzer
  log : Log
  registryLog : Log

/-- An analyser with the rules of the catalogue and the rule templates. It is not made when nothing can
be said about the path of the templates. -/
def build (selection : Selection) (here : FileTree.Site) : Except FileTree.PathError Built := do
  let loaded := (Registry.new selection).loadCatalogue
  let (registry, log, registryLog) ← match selection.templatesPath with
    | none => pure (loaded.registry, [], loaded.log)
    | some path => do
      if ← FileTree.isDirectory here path then
        let templates := loaded.registry.loadTemplates path.render
        pure (templates.registry, [], loaded.log ++ templates.log)
      else
        pure (loaded.registry, [Log.warning
          ("Custom templates path does not exist or is not a directory: " ++ path.render)], loaded.log)
  let closed := registry.freeze
  return ⟨⟨selection, closed.registry⟩, log, registryLog ++ closed.log⟩

/-- A finding that the selection lets through. -/
def reports (a : Analyzer) (f : Finding) : Bool := !a.selection.ignoredSeverities.contains f.severity

def analyzeFile (a : Analyzer) (path : String) (file : SyntaxFile) :
    Except Fault (List Finding) :=
  (Registry.run file path file.text a.registry.rules).findings.map (·.filter a.reports)

/-- The findings in some files, with the number of files that failed and the warnings. -/
structure Batch where
  findings : List Finding
  failed : Nat
  log : Log

/-- Goes through files in their order. -/
def analyzeAll (a : Analyzer) : List (String × SyntaxFile) → Batch
  | [] => ⟨[], 0, []⟩
  | (path, file) :: rest =>
    let others := analyzeAll a rest
    match a.analyzeFile path file with
    | .ok found => { others with findings := found ++ others.findings }
    | .error fault =>
      { others with
        failed := others.failed + 1
        log := Log.warning ("Error analyzing " ++ path ++ ": " ++ fault.message) :: others.log }

def analyze (a : Analyzer) (files : List (String × SyntaxFile)) : AnalysisResult :=
  let batch := a.analyzeAll files
  { findings := batch.findings
    stats :=
      { filesAnalyzed := (files.length : Int) - batch.failed
        filesFailed := batch.failed
        rulesExecuted := a.registry.count
        bySeverity := tally batch.findings } }

def analyzeLog (a : Analyzer) (files : List (String × SyntaxFile)) : Log := (a.analyzeAll files).log

end Analyzer

def AnalysisResult.addFailed (r : AnalysisResult) (n : Nat) : AnalysisResult :=
  { r with stats := { r.stats with filesFailed := r.stats.filesFailed + n } }

/-- The findings in a listing. Files that could not be loaded count as failed. -/
def Analyzer.analyzeListing (a : Analyzer) (listing : Listing) : AnalysisResult :=
  (a.analyze listing.files).addFailed listing.errors.length

end AnchorAudit
