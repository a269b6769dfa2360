import AnchorAudit.FileTree

/-! Adding to a directory in an otherwise empty file system. Links on the way to the place of an entry
are followed. -/
namespace AnchorAudit.FileTree

/-- The names from the top to a name in the open directory, unless that is the root. -/
def namesTo? (site : Site) (name : String) : Option (List String) :=
  if site.length < 2 then none else some (((site.map Level.name).reverse.drop 2) ++ [name])

/-- Puts an entry under names, none of which is a link, and makes the directories on the way. -/
def put (entry : Entry) : List String → Directory → Directory
  | [], top => top
  | [name], top => top.filter (·.1 != name) ++ [(name, entry)]
  | name :: rest, top =>
    let inner := match top.lookup name with
      | some (.directory _ entries) => entries
      | _ => []
    top.filter (·.1 != name) ++ [(name, .directory {} (put entry rest inner))]

/-- Puts an entry under a name in the open directory. -/
def putAt (entry : Entry) (site : Site) (name : String) (top : Directory) : Directory :=
  match namesTo? site name with
  | some names => put entry names top
  | none => top

/-- Makes the directory that names lead to, if there is nothing yet. -/
def makeDirectory (top : Directory) (names : List String) : Directory :=
  match resolve .reading linkLimit (within top) names with
  | .ok (.absent site name, _) => putAt (.directory {} []) site name top
  | _ => top

def addDirectory (names : List String) (top : Directory) : Directory :=
  ((List.range names.length).map fun i => names.take (i + 1)).foldl makeDirectory top

/-- Writes a file where names lead to, and makes the directories on the way. -/
def addFile (file : File) (names : List String) (top : Directory) : Directory :=
  let top := addDirectory names.dropLast top
  match resolve .writing linkLimit (within top) names with
  | .ok (.absent site name, _) => putAt (.file file) site name top
  | .ok (.file site name _, _) => putAt (.file file) site name top
  | _ => top

/-- Makes a link under the last of some names, and the directories on the way. -/
def addLink (target : String) (names : List String) (top : Directory) : Directory :=
  let top := addDirectory names.dropLast top
  match resolve .reading linkLimit (within top) names.dropLast, names.getLast? with
  | .ok (.directory site, _), some name => putAt (.link target) site name top
  | _, _ => top

end AnchorAudit.FileTree
