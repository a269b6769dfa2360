import AnchorAudit.FileTree
import AnchorAudit.Log

/-! Walks through directories: all files below a directory, and those of them that are source
files. A directory's files come before its subdirectories, each in the order of their names. -/
namespace AnchorAudit

namespace FileTree

/-- A file that a walk meets, under its path. It can be that nothing can be said about the path. -/
abbrev Candidate := Path × Except Failure File

inductive Visit where
  | file (candidate : Candidate)
  | directory (candidates : List Candidate)
  | nothing

def Visit.file? : Visit → Option Candidate
  | .file candidate => some candidate
  | _ => none

def Visit.below : Visit → List Candidate
  | .directory candidates => candidates
  | _ => []

/-- The files of one directory: its own, then those of its subdirectories. -/
def gather (visits : List (String × Visit)) : List Candidate :=
  let sorted := visits.mergeSort fun a b => decide (a.1 ≤ b.1)
  sorted.filterMap (·.2.file?) ++ sorted.flatMap (·.2.below)

structure Stop where
  site : Site
  path : Path
  /-- The number of octets in the text of the path of something here, before its name. -/
  lead : Nat

def Stop.isTooLong (s : Stop) (name : String) : Bool := pathLimit ≤ s.lead + octets name

/-- The file at a path in the directory, when it is asked whether there is one. -/
def Stop.ask (s : Stop) (path : Path) (f : File) : Except Failure File :=
  if pathLimit ≤ octets path.render then .error .nameTooLong
  else if !s.site.access.search then .error .accessDenied
  else .ok f

def Stop.enter (s : Stop) (name : String) (site : Site) : Stop :=
  ⟨site, s.path.child name, s.lead + octets name + 1⟩

/-- What a walk meets behind a link with a name at a stop, when a number of links may still be
followed. -/
abbrev Follow := Nat → Stop → String → String → Visit

mutual

def visit (follow : Follow) (budget : Nat) (stop : Stop) (name : String) : Entry → Visit
  | .file f => .file (stop.path.child name, stop.ask (stop.path.child name) f)
  | .directory access entries =>
    if stop.isTooLong name || !stop.site.access.search || !access.list then .nothing
    else .directory (gather
      (visitAll follow budget (stop.enter name (⟨name, access, entries⟩ :: stop.site)) entries))
  | .link target =>
    let path := stop.path.child name
    if pathLimit ≤ octets path.render then .file (path, .error .nameTooLong)
    else if !stop.site.access.search then .file (path, .error .accessDenied)
    else follow budget stop name target

def visitAll (follow : Follow) (budget : Nat) (stop : Stop) :
    List (String × Entry) → List (String × Visit)
  | [] => []
  | (name, e) :: rest => (name, visit follow budget stop name e) :: visitAll follow budget stop rest

end

/-- Follows links. Each link on the way costs one of the links that may be followed, so their
number also bounds how deep a walk can go in a circle. -/
def follow : Nat → Follow
  | 0, _, _, _, _ => .nothing
  | depth + 1, budget, stop, name, target =>
    match budget with
    | 0 => .nothing
    | left + 1 =>
      match resolve .reading left (start stop.site target) (steps target) with
      | .ok (.file _ _ f, _) => .file (stop.path.child name, .ok f)
      | .ok (.directory inner, remaining) =>
        if stop.isTooLong name || !inner.access.list then .nothing
        else .directory (gather
          (visitAll (follow depth) remaining (stop.enter name inner) inner.entries))
      | .error failure =>
        if failure.isAbsence then .nothing else .file (stop.path.child name, .error failure)
      | _ => .nothing

def Stop.first (root : String) (site : Site) : Stop :=
  ⟨site, .ofString root, octets root + if root.toList.getLast? = some '/' then 0 else 1⟩

def candidates (here : Site) (root : String) : List Candidate :=
  if root.isEmpty ∨ pathLimit ≤ octets root then []
  else match resolve .reading linkLimit (start here root) (steps root) with
    | .ok (.directory site, budget) =>
      if site.access.list then
        gather (visitAll (follow linkLimit) budget (.first root site) site.entries)
      else []
    | _ => []

end FileTree

/-- The source files below a directory and the errors of those that cannot be analysed. -/
structure Listing where
  parsed : List (Path × SyntaxFile)
  errors : List ParseError
  log : Log

namespace Listing

/-- Loads files one after the other. -/
def ofFiles : List (Path × File) → Listing
  | [] => ⟨[], [], []⟩
  | (path, f) :: rest =>
    let others := ofFiles rest
    match f.load path with
    | .ok file =>
      { others with
        parsed := (path, file) :: others.parsed
        log := Log.info ("Successfully parsed file " ++ path.render) :: others.log }
    | .error e =>
      { others with errors := e :: others.errors, log := Log.error e.message :: others.log }

def sources (here : FileTree.Site) (root extension : String) :
    Except FileTree.PathError (List (Path × File)) :=
  if root.toList.contains '\x00' then .error .nullCharacter
  else
    let chosen := (FileTree.candidates here root).filter (·.1.suffix == extension)
    chosen.mapM fun (path, f) => (f.map (path, ·)).mapError (.failure · path)

/-- Loads the files below a directory whose ending is the given one. -/
def walk (here : FileTree.Site) (root extension : String) : Except FileTree.PathError Listing := do
  let listing := ofFiles (← sources here root extension)
  return { listing with
    log := listing.log ++ [Log.info ("Processed " ++ toString listing.parsed.length ++
      " Rust files, " ++ toString listing.errors.length ++ " failed")] }

def files (l : Listing) : List (String × SyntaxFile) := l.parsed.map fun (p, f) => (p.render, f)

end Listing

end AnchorAudit
