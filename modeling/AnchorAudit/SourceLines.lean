import AnchorAudit.Finding
import AnchorAudit.Span
import AnchorAudit.Text.Blank
import AnchorAudit.Text.Search
import AnchorAudit.Text.Slice

/-! Quoting from a source text: locations, snippets, surroundings and declaration headers. -/
namespace AnchorAudit

structure SourceLines where
  path : String
  lines : List (List Char)
  deriving DecidableEq

namespace SourceLines

def ofText (text path : String) : SourceLines := ⟨path, Text.splitLines text.toList⟩

/-- The place where a span starts and ends, or the first line if it is not known. -/
def location (s : SourceLines) (span : Span) : Location :=
  if 0 < span.startLine then
    { file := s.path
      line := span.startLine
      column := some (span.startColumn + 1)
      endLine := some span.endLine
      endColumn := some (span.endColumn + 1) }
  else .fallback s.path

def snippetUnavailable : String := "// Code snippet unavailable"

def snippetOutOfBounds : String := "// Code snippet out of bounds"

def contextUnavailable : String := "// Context unavailable"

def signatureUnavailable : String := "// Signature unavailable"

def signatureOutOfBounds : String := "// Signature out of bounds"

/-- The line at an index, empty if there is none. -/
def lineAt (s : SourceLines) (index : Nat) : List Char := (s.lines[index]?).getD []

/-- The stretch of one line between two columns. A negative column counts from the end. -/
def cutLine (line : List Char) (startColumn endColumn : Int) : List Char :=
  let start := min startColumn line.length
  Text.slice line start (min (max endColumn start) line.length)

def cutHead (line : List Char) (column : Int) : List Char :=
  Text.slice line (min column line.length) line.length

def cutTail (line : List Char) (column : Int) : List Char :=
  Text.slice line 0 (min column line.length)

/-- A number filled with spaces on its left to three places. -/
def padNumber (n : Nat) : List Char :=
  let digits := Nat.toDigits 10 n
  List.replicate (3 - digits.length) ' ' ++ digits

/-- The numbers of the lines of a span with some lines around them. -/
def contextNumbers (s : SourceLines) (span : Span) (around : Int) : List Nat :=
  let first := (max (span.startLine - around) 1).toNat
  let last := (min (span.endLine + around) s.lines.length).toNat
  List.range' first (last + 1 - first)

section Lookup
variable {m : Type → Type} [Monad m] (line : Int → m (List Char))

/-- The lines that a span covers. The first and the last of them are looked up by number and cut. -/
def cutBy (s : SourceLines) (span : Span) : m (List (List Char)) := do
  let first ← line span.startLine
  if span.endLine ≤ span.startLine then
    return [cutLine first span.startColumn span.endColumn]
  else
    let last ← line span.endLine
    return cutHead first span.startColumn ::
      Text.slice s.lines span.startLine (span.endLine - 1) ++ [cutTail last span.endColumn]

def snippetBy (s : SourceLines) (span : Span) : m String :=
  if !span.isKnown then pure snippetUnavailable
  else if (s.lines.length : Int) < span.startLine ∨ (s.lines.length : Int) < span.endLine then
    pure snippetOutOfBounds
  else do return .ofList (['\n'].intercalate (← s.cutBy line span))

/-- A numbered line. An arrow marks the lines of the span. -/
def contextLineBy (span : Span) (number : Nat) : m (List Char) := do
  let marker := if span.startLine ≤ number ∧ number ≤ span.endLine then '→' else ' '
  return marker :: ' ' :: padNumber number ++ [' ', '|', ' '] ++ (← line number) ++ ['\n']

def contextBy (s : SourceLines) (span : Span) (around : Int) : m String :=
  if !span.isKnown then pure contextUnavailable
  else do
    return .ofList (← (s.contextNumbers span around).mapM (contextLineBy line span)).flatten

end Lookup

def lineNumbered (s : SourceLines) (number : Int) : Except Text.PositionError (List Char) :=
  Text.signedGet s.lines (number - 1)

/-- The line with a number, empty if there is none. -/
def lineOrEmpty (s : SourceLines) (number : Int) : Id (List Char) := s.lineAt (number - 1).toNat

def snippet (s : SourceLines) (span : Span) : String := (s.snippetBy s.lineOrEmpty span).run

def context (s : SourceLines) (span : Span) (around : Int) : String :=
  (s.contextBy s.lineOrEmpty span around).run

def lookupSnippet (s : SourceLines) (span : Span) : Except Text.PositionError String :=
  s.snippetBy s.lineNumbered span

def lookupContext (s : SourceLines) (span : Span) (around : Int) : Except Text.PositionError String :=
  s.contextBy s.lineNumbered span around

def isBrace (c : Char) : Bool := c == '\x7b'

def endsHeader (c : Char) : Bool := isBrace c || c == ';'

def beforeBrace (cs : List Char) : List Char := Text.trim (cs.takeWhile (!isBrace ·))

/-- A header with the lines that continue it, up to the one that ends it. -/
def extendHeader (header : List Char) : List (List Char) → List Char
  | [] => header
  | line :: rest =>
    let longer := header ++ ' ' :: Text.trim line
    if line.any endsHeader then longer else extendHeader longer rest

def functionOpenings : List String :=
  ["pub fn", "fn", "pub(crate) fn", "unsafe fn", "pub unsafe fn"]

def structOpenings : List String := ["struct", "pub struct"]

def opensWith (openings : List String) (cs : List Char) : Bool :=
  openings.any (·.toList.isPrefixOf cs)

/-- The header of the declaration on a line, given the three lines after it. -/
def headerOf (line : List Char) (following : List (List Char)) : List Char :=
  let stripped := Text.trim line
  if opensWith functionOpenings stripped then
    beforeBrace (if stripped.getLast?.any endsHeader then stripped
      else extendHeader stripped following)
  else if opensWith structOpenings stripped then beforeBrace stripped
  else stripped

/-- The declaration that starts on the first line of a span, without its body. -/
def signature (s : SourceLines) (span : Span) : Except Text.PositionError String :=
  if span.startLine = 0 then .ok signatureUnavailable
  else if (s.lines.length : Int) < span.startLine then .ok signatureOutOfBounds
  else do
    let line ← Text.signedGet s.lines (span.startLine - 1)
    let following := Text.slice s.lines span.startLine (span.startLine + 3)
    return .ofList (headerOf line following)

end SourceLines

end AnchorAudit
