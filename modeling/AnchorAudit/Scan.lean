import AnchorAudit.Analyzer
import AnchorAudit.Report
import AnchorAudit.Schema.Models
import AnchorAudit.Settings

/-! Scans: the analysis of files that were sent in. -/
namespace AnchorAudit

open Schema

/-- A file that was sent in. Neither its path nor its content need be a text. -/
structure FileInput where
  path : Text.Points
  content : Text.Points
  deriving DecidableEq

structure ScanRequest where
  files : List FileInput := []
  markdownReport : Bool := false
  deriving DecidableEq

structure ScanError where
  path : String
  reason : String
  deriving DecidableEq

inductive ScanMessage where
  | complete
  | error
  deriving DecidableEq

def ScanMessage.name : ScanMessage → String
  | .complete => "scan_complete"
  | .error => "error"

def ScanMessage.ofName? (s : String) : Option ScanMessage :=
  [.complete, .error].find? (·.name == s)

structure ScanResponse where
  message : ScanMessage
  findings : List Finding := []
  stats : Option Stats := none
  errors : List ScanError := []
  report : Option String := none
  detail : String := ""
  deriving DecidableEq

/-- Values that are no objects are rejected for the given cause. -/
def FileInput.read (cause : Cause) : Reader FileInput := fun v => do
  let ms ← members cause v
  let (path, content) ← both (required ms "path" points) (required ms "content" points)
  return { path, content }

def FileInput.write (f : FileInput) : Json :=
  .object [("path", .string f.path), ("content", .string f.content)]

/-- Values that are no objects are rejected for the given cause. -/
def ScanRequest.read (cause : Cause) : Reader ScanRequest := fun v => do
  let ms ← members cause v
  let (files, markdownReport) ←
    both (defaulted ms "files" [] (list (FileInput.read cause)))
      (defaulted ms "markdown_report" false boolean)
  return { files, markdownReport }

def ScanRequest.write (r : ScanRequest) : Json :=
  .object [("files", .array (r.files.map FileInput.write)),
    ("markdown_report", .bool r.markdownReport)]

def ScanError.read : Reader ScanError := fun v => do
  let ms ← members .notModel v
  let (path, reason) ← both (required ms "path" string) (required ms "reason" string)
  return { path, reason }

def ScanError.write (e : ScanError) : Json :=
  .object [("path", .string e.path), ("reason", .string e.reason)]

def ScanResponse.read : Reader ScanResponse := fun v => do
  let ms ← members .notModel v
  let (message, findings, stats, errors, report, detail) ←
    both (required ms "message" (choice .notLiteral ScanMessage.ofName?)) <|
    both (defaulted ms "findings" [] (list Finding.read)) <|
    both (defaulted ms "stats" none (nullable Stats.read)) <|
    both (defaulted ms "errors" [] (list ScanError.read)) <|
    both (defaulted ms "report" none (nullable string)) (defaulted ms "detail" "" string)
  return { message, findings, stats, errors, report, detail }

def ScanResponse.write (r : ScanResponse) : Json :=
  .object [("message", .string r.message.name), ("findings", .array (r.findings.map Finding.write)),
    ("stats", .optional Stats.write r.stats), ("errors", .array (r.errors.map ScanError.write)),
    ("report", .optional .text r.report), ("detail", .string r.detail)]

namespace Scan

def size (f : FileInput) : Nat := (Utf8.encode f.content.text.toList).length

inductive Rejection where
  | tooLarge (file : FileInput)
  | unparsed (error : ParseError)

def Rejection.error (limit : Int) : Rejection → ScanError
  | .tooLarge f => ⟨f.path.text, "File exceeds maximum size of " ++ toString limit ++ " bytes"⟩
  | .unparsed e => ⟨e.path, e.reason⟩

def Rejection.note : Rejection → Log.Entry
  | .tooLarge f => Log.warning ("Rejected " ++ f.path.text ++ ": " ++ toString (size f) ++ " bytes")
  | .unparsed e => Log.warning e.message

/-- The source file that was sent in, with its syntax tree. -/
def accept (limit : Int) (f : FileInput) (tree : Node) : Except Rejection SyntaxFile :=
  if limit < size f then .error (.tooLarge f)
  else (SyntaxFile.load f.path.text f.content.text tree).mapError .unparsed

/-- Sorts what was sent in into source files and rejections, each in their order. -/
def sift (limit : Int) : List (FileInput × Node) → List (String × SyntaxFile) × List Rejection
  | [] => ([], [])
  | (f, tree) :: rest =>
    let (files, rejections) := sift limit rest
    match accept limit f tree with
    | .ok file => ((f.path.text, file) :: files, rejections)
    | .error r => (files, r :: rejections)

def report (time : String) (files : List FileInput) (result : AnalysisResult) : String :=
  Report.Markdown.render (", ".intercalate (files.map (·.path.text))) time result.findings
    result.stats

/-- Whether a response shows the path of a file: in the report, among the errors or in a finding. -/
def showsPath (a : Analyzer) (limit : Int) (markdownReport : Bool) (f : FileInput × Node) : Bool :=
  markdownReport || match accept limit f.1 f.2 with
    | .error _ => true
    | .ok file => !(a.analyze [(f.1.path.text, file)]).findings.isEmpty

/-- Why a scan gets no response. -/
inductive Failure where
  | content (error : Text.EncodeError)
  | templates (error : FileTree.PathError)
  /-- The response would show a path that is no text. -/
  | path

/-- The findings of an analyser in some files, each with its syntax tree. -/
def respond (a : Analyzer) (limit : Int) (time : String) (files : List (FileInput × Node))
    (markdownReport : Bool) : ScanResponse × Log :=
  let (parsed, rejections) := sift limit files
  let result := (a.analyze parsed).addFailed rejections.length
  ({ message := .complete
     findings := result.findings
     stats := some result.stats
     errors := rejections.map (·.error limit)
     report := if markdownReport then some (report time (files.map Prod.fst) result) else none },
   Log.info ("Scan request: " ++ toString files.length ++ " files") :: rejections.map Rejection.note)

def run (settings : Settings) (here : FileTree.Site) (time : String) (files : List (FileInput × Node))
    (markdownReport : Bool) : Except Failure (ScanResponse × Log) :=
  if files.isEmpty then .ok ({ message := .error, detail := "No files provided" }, [])
  else match files.findSome? (·.1.content.encodeError?) with
    | some e => .error (.content e)
    | none =>
      match Analyzer.build settings.selection here with
      | .error e => .error (.templates e)
      | .ok built =>
        let hidden := fun f =>
          !showsPath built.analyzer settings.maxFileSize markdownReport f || f.1.path.isText
        if files.all hidden then
          .ok (respond built.analyzer settings.maxFileSize time files markdownReport)
        else .error .path

end Scan

end AnchorAudit
