import AnchorAudit.Text.Blank
import AnchorAudit.Text.Quoted

/-! File paths, kept in a normal form. -/
namespace AnchorAudit

/-- A path: the slashes at its front, and its names. Empty names and single dots are left out, two
dots stay. -/
structure Path where
  root : String
  names : List String
  deriving DecidableEq

namespace Path

def isSlash (c : Char) : Bool := c == '/'

/-- Exactly two slashes at the front stay two; any other number counts as one. -/
def rootOf (cs : List Char) : String :=
  match (cs.takeWhile isSlash).length with
  | 0 => ""
  | 2 => "//"
  | _ => "/"

def namesOf (text : String) : List String :=
  ((Text.pieces isSlash text.toList).map String.ofList).filter fun n => n != "" && n != "."

def ofString (text : String) : Path := ⟨rootOf text.toList, namesOf text⟩

def render (p : Path) : String :=
  if p.root == "" && p.names.isEmpty then "." else p.root ++ "/".intercalate p.names

def child (p : Path) (name : String) : Path := ⟨p.root, p.names ++ [name]⟩

def name (p : Path) : String := p.names.getLast?.getD ""

/-- A name up to its last dot, and from there. A dot at either end of the name does not count. -/
def splitSuffix (name : String) : String × String :=
  let cs := name.toList
  let tail := (cs.reverse.takeWhile (· != '.')).reverse
  let stem := cs.take (cs.length - tail.length - 1)
  if tail.length = cs.length ∨ tail.isEmpty ∨ stem.isEmpty then (name, "")
  else (.ofList stem, .ofList ('.' :: tail))

def suffix (p : Path) : String := (splitSuffix p.name).2

/-- The path with another ending. A path without a last name has none. -/
def withSuffix? (p : Path) (suffix : String) : Option Path :=
  if p.names.isEmpty then none
  else some ⟨p.root, p.names.dropLast ++ [(splitSuffix p.name).1 ++ suffix]⟩

def noNameMessage (p : Path) : String := "PosixPath(" ++ Text.quoted p.render ++ ") has an empty name"

end Path

end AnchorAudit
