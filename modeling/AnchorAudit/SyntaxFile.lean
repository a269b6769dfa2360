import AnchorAudit.Source

/-! Source files with their syntax trees. -/
namespace AnchorAudit

/-- A source file without syntax errors. -/
structure SyntaxFile where
  path : String
  source : Source
  root : Node

structure ParseError where
  path : String
  reason : String
  deriving DecidableEq

def ParseError.message (e : ParseError) : String := "Failed to parse " ++ e.path ++ ": " ++ e.reason

namespace SyntaxFile

/-- The file name of a text that comes from no file. -/
def memoryPath : String := "<memory>"

def syntaxErrorReason (source : Source) (root : Node) : String :=
  "syntax error near " ++ match root.firstError? with
    | some n => "line " ++ toString (source.position n.label.start).line
    | none => "unknown position"

/-- The file with the given tree, whether or not the tree has syntax errors. -/
def withTree (path text : String) (root : Node) : SyntaxFile := ⟨path, .ofText text, root⟩

/-- The file with the given tree, unless the tree has a syntax error. -/
def load (path text : String) (root : Node) : Except ParseError SyntaxFile :=
  let source := Source.ofText text
  if root.hasError then .error ⟨path, syntaxErrorReason source root⟩ else .ok ⟨path, source, root⟩

def text (f : SyntaxFile) : String := f.source.text

end SyntaxFile

end AnchorAudit
