import AnchorAudit.Schema.Issue
import AnchorAudit.Text.Quoted
import AnchorAudit.Text.Slice

/-! What can go wrong while a rule looks at a file. -/
namespace AnchorAudit

inductive Fault where
  /-- An integer literal has no nearest finite double. -/
  | numberTooLarge
  /-- A line number leads to no line. -/
  | noSuchLine (error : Text.PositionError)
  /-- A detector gave no findings, not even an empty list, and they were to be walked through. -/
  | nothingToWalk
  /-- A detector gave no findings, not even an empty list, and they were to be counted. -/
  | nothingToCount
  /-- A detector looked up a key that is not there. -/
  | missingKey (key : String)
  /-- A detector built a value that breaks its schema. -/
  | invalid (issues : List Schema.Issue)
  /-- A failure that a detector describes itself. -/
  | raised (kind message : String)
  deriving DecidableEq

namespace Fault

def kind : Fault → String
  | numberTooLarge => "OverflowError"
  | noSuchLine _ => "IndexError"
  | nothingToWalk => "TypeError"
  | nothingToCount => "TypeError"
  | missingKey _ => "KeyError"
  | invalid _ => "ValidationError"
  | raised kind _ => kind

def message : Fault → String
  | numberTooLarge => "int too large to convert to float"
  | noSuchLine e => e.message
  | nothingToWalk => "'NoneType' object is not iterable"
  | nothingToCount => "object of type 'NoneType' has no len()"
  | missingKey key => Text.quoted key
  | invalid _ => ""
  | raised _ message => message

end Fault

end AnchorAudit
