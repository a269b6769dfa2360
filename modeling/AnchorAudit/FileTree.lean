import AnchorAudit.Path
import AnchorAudit.SyntaxFile
import AnchorAudit.Text.Blank
import AnchorAudit.Utf8

/-! File systems of files, directories and symbolic links, and what paths lead to in them. -/
namespace AnchorAudit

/-- The octets of a file and the syntax tree of its text. The tree is of no account when the octets
are no text. -/
structure File where
  bytes : List UInt8
  tree : Node
  readable : Bool := true
  writable : Bool := true

/-- What may be done with a directory: to list its names, to go on from it to what stands under them,
and to put something under a new one. -/
structure Access where
  list : Bool := true
  search : Bool := true
  write : Bool := true
  deriving DecidableEq

inductive Entry where
  | file (file : File)
  | directory (access : Access) (entries : List (String × Entry))
  | link (target : String)

abbrev Directory := List (String × Entry)

namespace FileTree

inductive Failure where
  | notFound
  | accessDenied
  | notDirectory
  | isDirectory
  | nameTooLong
  | tooManyLinks
  deriving DecidableEq

def Failure.number : Failure → Nat
  | .notFound => 2
  | .accessDenied => 13
  | .notDirectory => 20
  | .isDirectory => 21
  | .nameTooLong => 36
  | .tooManyLinks => 40

def Failure.reason : Failure → String
  | .notFound => "No such file or directory"
  | .accessDenied => "Permission denied"
  | .notDirectory => "Not a directory"
  | .isDirectory => "Is a directory"
  | .nameTooLong => "File name too long"
  | .tooManyLinks => "Too many levels of symbolic links"

/-- Why nothing can be done with a path. -/
inductive PathError where
  /-- No path holds a null character. -/
  | nullCharacter
  | failure (failure : Failure) (path : Path)
  deriving DecidableEq

def PathError.message : PathError → String
  | .nullCharacter => "embedded null byte"
  | .failure f path =>
    "[Errno " ++ toString f.number ++ "] " ++ f.reason ++ ": " ++ Text.quoted path.render

structure Level where
  name : String
  access : Access
  entries : Directory

/-- An open directory and the directories around it, the innermost first. The last is the root of the
file system. -/
abbrev Site := List Level

/-- A directory that stands in an otherwise empty file system. -/
def within (top : Directory) : Site := [⟨"", {}, top⟩, ⟨"", {}, []⟩]

namespace Site

def access (site : Site) : Access := (site.head?.map Level.access).getD {}

def entries (site : Site) : Directory := (site.head?.map Level.entries).getD []

/-- The directory around a directory. That of the root is the root. -/
def up : Site → Site
  | _ :: outer :: rest => outer :: rest
  | site => site

def root (site : Site) : Site := site.getLast?.toList

end Site

def entry? (site : Site) (name : String) : Option Entry := site.entries.lookup name

inductive Target where
  | file (site : Site) (name : String) (file : File)
  | directory (site : Site)
  /-- Nothing, in a directory where something could be put. -/
  | absent (site : Site) (name : String)

def linkLimit : Nat := 40

def nameLimit : Nat := 255

/-- The number of octets that the text of a path has to stay below. -/
def pathLimit : Nat := 4096

def octets (text : String) : Nat := (Utf8.encode text.toList).length

/-- The names in the text of a path. A slash at the end is followed by an empty name. -/
def steps (text : String) : List String :=
  let names := ((Text.pieces Path.isSlash text.toList).map String.ofList).filter (· != "")
  if text.toList.getLast? = some '/' then names ++ [""] else names

/-- The site where the text of a path begins. -/
def start (site : Site) (text : String) : Site :=
  if text.toList.head? = some '/' then site.root else site

inductive Purpose where
  | reading
  | writing
  deriving DecidableEq

/-- Follows names from a site on, and counts down the links that may still be followed. An empty name
stands for the directory itself; no file can be written under a name before a last empty one. -/
def resolve (purpose : Purpose) (budget : Nat) (site : Site) (names : List String) :
    Except Failure (Target × Nat) :=
  match names with
  | [] => .ok (.directory site, budget)
  | name :: rest =>
    if name = "" then resolve purpose budget site rest
    else if !site.access.search then .error .accessDenied
    else if name = "." then resolve purpose budget site rest
    else if name = ".." then resolve purpose budget site.up rest
    else if purpose = .writing ∧ rest = [""] then .error .isDirectory
    else if nameLimit < octets name then .error .nameTooLong
    else match entry? site name with
      | none => if rest.isEmpty then .ok (.absent site name, budget) else .error .notFound
      | some (.file f) =>
        if rest.isEmpty then .ok (.file site name f, budget) else .error .notDirectory
      | some (.directory access entries) =>
        resolve purpose budget (⟨name, access, entries⟩ :: site) rest
      | some (.link target) =>
        match budget with
        | 0 => .error .tooManyLinks
        | left + 1 => resolve purpose left (start site target) (steps target ++ rest)
termination_by (budget, names.length)

def find (purpose : Purpose) (here : Site) (path : Path) : Except PathError Target :=
  if path.render.toList.contains '\x00' then .error .nullCharacter
  else if pathLimit ≤ octets path.render then .error (.failure .nameTooLong path)
  else
    let found := resolve purpose linkLimit (if path.root.isEmpty then here else here.root) path.names
    (found.map Prod.fst).mapError (.failure · path)

/-- A path that fails so leads nowhere. With another failure nothing can be said about it. -/
def Failure.isAbsence : Failure → Bool
  | .notFound | .notDirectory | .tooManyLinks => true
  | _ => false

def isDirectory (here : Site) (path : Path) : Except PathError Bool :=
  match find .reading here path with
  | .ok (.directory _) => .ok true
  | .error (.failure f p) => if f.isAbsence then .ok false else .error (.failure f p)
  | _ => .ok false

def file (here : Site) (path : Path) : Except PathError File := do
  match ← find .reading here path with
  | .file _ _ f => return f
  | .directory _ => throw (.failure .isDirectory path)
  | .absent _ _ => throw (.failure .notFound path)

/-- Why nothing can be written under a path, if so. -/
def writeError? (here : Site) (path : Path) : Option PathError :=
  match find .writing here path with
  | .ok (.directory _) => some (.failure .isDirectory path)
  | .ok (.file _ _ f) => if f.writable then none else some (.failure .accessDenied path)
  | .ok (.absent site _) => if site.access.write then none else some (.failure .accessDenied path)
  | .error e => some e

end FileTree

def ParseError.unreadable (path : Path) (reason : String) : ParseError :=
  ⟨path.render, "could not read file: " ++ reason⟩

/-- The source file in a file. All line ends become line feeds. -/
def File.load (path : Path) (f : File) : Except ParseError SyntaxFile :=
  if !f.readable then
    .error (.unreadable path (FileTree.PathError.failure .accessDenied path).message)
  else match Utf8.decode? f.bytes with
    | .error e => .error (.unreadable path e.message)
    | .ok cs => SyntaxFile.load path.render (.ofList (Text.unifyLineEnds cs)) f.tree

/-- Why a path leads to no source file. -/
inductive LoadError where
  | nullCharacter
  | parse (error : ParseError)

def FileTree.load (here : Site) (path : Path) : Except LoadError SyntaxFile :=
  match FileTree.file here path with
  | .error .nullCharacter => .error .nullCharacter
  | .error e => .error (.parse (.unreadable path e.message))
  | .ok f => (f.load path).mapError .parse

end AnchorAudit
