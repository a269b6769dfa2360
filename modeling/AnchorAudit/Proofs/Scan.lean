import AnchorAudit.Proofs.Batch
import AnchorAudit.Scan

/-! The accounts of a scan. Every file that is sent in is rejected for a reason or analysed, and a
rejected file changes nothing for the others. What is not a text stands in the way of a response where the
response would have to show it, and in the content of a file always. -/
namespace AnchorAudit

namespace Scan

/-- A file that is sent in and not analysed. -/
def Rejected (limit : Int) (f : FileInput × Node) : Prop :=
  limit < size f.1 ∨ f.2.hasError = true

instance (limit : Int) (f : FileInput × Node) : Decidable (Rejected limit f) :=
  inferInstanceAs (Decidable (_ ∨ _))

/-- Why a file is rejected. Nothing is said of the syntax of a file that is too large. -/
def reason (limit : Int) (f : FileInput × Node) : String :=
  if limit < size f.1 then "File exceeds maximum size of " ++ toString limit ++ " bytes"
  else SyntaxFile.syntaxErrorReason (.ofText f.1.content.text) f.2

def sourceFile (f : FileInput × Node) : String × SyntaxFile :=
  (f.1.path.text, .withTree f.1.path.text f.1.content.text f.2)

def remaining (limit : Int) (files : List (FileInput × Node)) : List (String × SyntaxFile) :=
  (files.filter (¬ Rejected limit ·)).map sourceFile

section
variable {limit : Int} {f : FileInput × Node}

end

/-- A response that accounts for every file that was sent in. -/
structure Accounted (settings : Settings) (files : List (FileInput × Node))
    (response : ScanResponse) : Prop where
  message : response.message = .complete
  errors : response.errors.map (fun e => ((e.path : Text.Points), e.reason)) =
    (files.filter (Rejected settings.maxFileSize ·)).map fun f =>
      (f.1.path, reason settings.maxFileSize f)
  findings : response.findings = ((Analyzer.new settings.selection).analyze
    (remaining settings.maxFileSize files)).findings
  stats : ∃ stats, response.stats = some stats ∧ stats.filesFailed = response.errors.length ∧
    stats.filesAnalyzed + stats.filesFailed = files.length ∧
    (stats.bySeverity.map Prod.snd).sum = response.findings.length

theorem length_remaining_add (limit : Int) (files : List (FileInput × Node)) :
    (remaining limit files).length + (files.filter (Rejected limit ·)).length = files.length := by
  have hpartition := List.length_eq_length_filter_add (l := files) (Rejected limit ·)
  unfold remaining
  rw [List.length_map]
  simp only [decide_not]
  omega

/-- The path of a file is shown in a report on all files, in an error or in a finding. -/
def ShowsPath (settings : Settings) (markdownReport : Bool) (f : FileInput × Node) : Prop :=
  markdownReport = true ∨ Rejected settings.maxFileSize f ∨
    ((Analyzer.new settings.selection).analyze [sourceFile f]).findings ≠ []

/-- Nothing stands in the way of a response: the path of the rule templates can be asked about, all
contents are texts, and so are all paths that are shown. -/
structure Answerable (settings : Settings) (here : FileTree.Site) (files : List (FileInput × Node))
    (markdownReport : Bool) : Prop where
  templates : ∀ path, settings.templatesPath = some path → FileTree.Askable here path
  contents : ∀ f ∈ files, f.1.content.isText = true
  paths : ∀ f ∈ files, ShowsPath settings markdownReport f → f.1.path.isText = true

section Run
variable (settings : Settings) (here : FileTree.Site) (time : String) {files : List (FileInput × Node)}
  (hfiles : files ≠ []) (markdownReport : Bool)

include hfiles

end Run

section
variable {settings : Settings} {files : List (FileInput × Node)} {response : ScanResponse}

theorem Accounted.filesAnalyzed_eq (h : Accounted settings files response) :
    response.stats.map Stats.filesAnalyzed =
      some ((remaining settings.maxFileSize files).length : Int) := by
  obtain ⟨stats, hstats, hfailed, hsum, -⟩ := h.stats
  have hlength := length_remaining_add settings.maxFileSize files
  have herrors := congrArg List.length h.errors
  rw [List.length_map, List.length_map] at herrors
  rw [hstats, Option.map_some, Option.some.injEq]
  omega

theorem remaining_eraseIdx {limit : Int} {i : Nat} {f : FileInput × Node}
    (hf : files[i]? = some f) (hrejected : Rejected limit f) :
    remaining limit (files.eraseIdx i) = remaining limit files := by
  obtain ⟨hi, rfl⟩ := List.getElem?_eq_some_iff.mp hf
  have hsplit : files.take i ++ files[i] :: files.drop (i + 1) = files := by
    rw [List.getElem_cons_drop, List.take_append_drop]
  have hfilter : (files.eraseIdx i).filter (¬ Rejected limit ·) =
      files.filter (¬ Rejected limit ·) := by
    rw [List.eraseIdx_eq_take_drop_succ, List.filter_append]
    calc _ = (files.take i ++ files[i] :: files.drop (i + 1)).filter (¬ Rejected limit ·) := by
          rw [List.filter_append, List.filter_cons_of_neg (by simpa using hrejected)]
      _ = _ := by rw [hsplit]
  exact congrArg (List.map sourceFile) hfilter

theorem Answerable.eraseIdx {here : FileTree.Site} {markdownReport : Bool}
    (h : Answerable settings here files markdownReport) (i : Nat) :
    Answerable settings here (files.eraseIdx i) markdownReport :=
  ⟨h.templates, fun f hf => h.contents f (List.mem_of_mem_eraseIdx hf),
    fun f hf => h.paths f (List.mem_of_mem_eraseIdx hf)⟩

/-- A scan without one of the rejected files finds the same, in as many files. -/
theorem Accounted.eraseIdx (h : Accounted settings files response) {i : Nat} {f : FileInput × Node}
    (hf : files[i]? = some f) (hrejected : Rejected settings.maxFileSize f)
    {response' : ScanResponse} (h' : Accounted settings (files.eraseIdx i) response') :
    response'.findings = response.findings ∧
      response'.stats.map Stats.filesAnalyzed = response.stats.map Stats.filesAnalyzed := by
  have hremaining := remaining_eraseIdx hf hrejected
  constructor
  · rw [h'.findings, h.findings, hremaining]
  · rw [h'.filesAnalyzed_eq, h.filesAnalyzed_eq, hremaining]

end

end Scan

end AnchorAudit
