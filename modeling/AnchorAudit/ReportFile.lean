import AnchorAudit.FileTree
import AnchorAudit.Log

/-! Reports as files. -/
namespace AnchorAudit.ReportFile

inductive SaveError where
  | noName (path : Path)
  | unwritable (error : FileTree.PathError)

def SaveError.message : SaveError → String
  | .noName path => path.noNameMessage
  | .unwritable e => e.message

def suffixes : List String := [".md", ".markdown"]

/-- The path under which a report is saved: another ending is replaced. -/
def target (path : Path) : Except SaveError Path :=
  if suffixes.contains path.suffix then .ok path
  else match path.withSuffix? ".md" with
    | some p => .ok p
    | none => .error (.noName path)

structure Saved where
  path : Path
  bytes : List UInt8
  log : Log

def save (here : FileTree.Site) (path : Path) (report : String) : Except SaveError Saved := do
  let path ← target path
  match FileTree.writeError? here path with
  | some e => throw (.unwritable e)
  | none =>
    return ⟨path, Utf8.encode report.toList, [Log.info ("Markdown report saved to: " ++ path.render)]⟩

end AnchorAudit.ReportFile
