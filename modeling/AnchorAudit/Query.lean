import Std.Data.HashSet
import AnchorAudit.Fault
import AnchorAudit.SourceLines
import AnchorAudit.Subject
import AnchorAudit.SyntaxFile

/-! Queries: ordered selections of subjects, with repetitions. -/
namespace AnchorAudit

inductive Query.Dialect where
  | general
  | solana
  deriving DecidableEq

def Query.Dialect.label : Query.Dialect → String
  | .general => "AstQuery"
  | .solana => "SolanaQuery"

structure Query where
  dialect : Query.Dialect
  subjects : List Subject

namespace Query

def ofFile (dialect : Dialect) (file : SyntaxFile) : Query :=
  ⟨dialect, [.placed .file ⟨file.source, file.root, []⟩]⟩

def count (q : Query) : Nat := q.subjects.length

def isEmpty (q : Query) : Bool := q.subjects.isEmpty

def render (q : Query) : String :=
  let items := q.subjects.map fun s => s.category ++ ":" ++ s.displayName
  q.dialect.label ++ "([" ++ ", ".intercalate items ++ "])"

/-- The functions that stand directly in an implementation block. -/
def methodsAmong (places : List Place) : List Subject :=
  (places.filter fun p => p.node.isNamed && p.node.kind == "function_item").map
    (.placed .associatedFunction)

def methodsOf (source : Source) (item : Node) : List Subject :=
  match item.child? "body" with
  | some body => methodsAmong (Place.side source [] body.children)
  | none => []

mutual

/-- The functions of a container: its own, those of its implementation blocks and those of the
modules that are written out in it. -/
def functionsIn (source : Source) : Node → List Subject
  | .mk _ cs => functionsAmong source [] cs

/-- The functions that items stand for, one after the other. -/
def functionsAmong (source : Source) (before : List Node) : List Node → List Subject
  | [] => []
  | c :: cs =>
    (if !c.isNamed then []
      else if c.kind == "function_item" then [.placed .function ⟨source, c, before⟩]
      else if c.kind == "mod_item" then functionsOfModule source c
      else if c.kind == "impl_item" then methodsOf source c
      else []) ++ functionsAmong source (c :: before) cs

/-- The functions of a module. A module that is only named lives in another file. -/
def functionsOfModule (source : Source) : Node → List Subject
  | .mk _ cs => functionsOfBody source cs

/-- The functions in the first of the nodes that is a body. -/
def functionsOfBody (source : Source) : List Node → List Subject
  | [] => []
  | c :: cs =>
    if c.label.field == some "body" then functionsIn source c else functionsOfBody source cs

end

def structsIn (source : Source) (container : Node) : List Subject :=
  ((Place.side source [] container.children).filter fun p =>
    p.node.isNamed && p.node.kind == "struct_item").map (.placed .struct)

/-- What a step from whole files finds. Other subjects have no parts. -/
def fromFiles (find : Source → Node → List Subject) (q : Query) : Query :=
  { q with subjects := q.subjects.flatMap fun s => match s with
      | .placed .file p => find p.source p.node
      | _ => [] }

def functions (q : Query) : Query := q.fromFiles functionsIn

def structs (q : Query) : Query := q.fromFiles structsIn

/-- The subjects that pass a test. The first test that fails ends the search. -/
def narrowM (test : Subject → Except Fault Bool) (q : Query) : Except Fault Query :=
  (q.subjects.filterM test).map fun subjects => { q with subjects }

/-- The subjects that pass a test that cannot fail. -/
def narrow (test : Subject → Bool) (q : Query) : Query :=
  { q with subjects := q.subjects.filter test }

def withName (name : String) (q : Query) : Query := q.narrow (·.name? == some name)

def publicFunctions (q : Query) : Query := q.narrow fun s => s.isFunction && s.isPublic

/-- An unsafe block, or a function that is declared unsafe, somewhere in a tree. -/
def containsUnsafe (source : Source) (n : Node) : Bool :=
  n.subtree.any fun d =>
    d.kind == "unsafe_block" || (d.kind == "function_item" && hasUnsafeModifier source d)

/-- Functions and blocks that use unsafe code. -/
def usesUnsafeCode (s : Subject) : Bool :=
  match s with
  | .placed .block p => containsUnsafe p.source p.node
  | .placed role _ =>
    role.isFunction && (s.isUnsafeFunction || s.body?.any (containsUnsafe s.source))
  | .other _ => false

def usesUnsafe (q : Query) : Query := q.narrow usesUnsafeCode

/-- The name of what a call calls: an identifier, or the method of a method call. -/
def calleeName? (source : Source) (call : Node) : Option String :=
  match call.child? "function" with
  | none => none
  | some function =>
    if function.kind == "identifier" then some (source.textOf function)
    else if function.kind == "generic_function" then
      match function.child? "function" with
      | some inner => if inner.kind == "field_expression" then methodName? inner else none
      | none => none
    else if function.kind == "field_expression" then methodName? function
    else none
where
  methodName? (n : Node) : Option String := (n.child? "field").map source.textOf

def hasCallTo (source : Source) (name : String) (n : Node) : Bool :=
  n.subtree.any fun d => d.kind == "call_expression" && calleeName? source d == some name

def callsFunction (name : String) (s : Subject) : Bool :=
  match s with
  | .placed role _ =>
    (role.isFunction || role == .block) && s.body?.any (hasCallTo s.source name)
  | .other _ => false

def callsTo (name : String) (q : Query) : Query := q.narrow (callsFunction name)

/-- The subjects of either query, one query after the other. -/
def either (q r : Query) : Query := { q with subjects := q.subjects ++ r.subjects }

def keys (q : Query) : Std.HashSet Subject.Key := .ofList (q.subjects.map Subject.key)

/-- The subjects of the first query that the second query has too. -/
def both (q r : Query) : Query :=
  let keys := r.keys
  q.narrow fun s => keys.contains s.key

/-- Nothing. A query does not keep what it was selected from, so there is no complement. -/
def nothing (q : Query) : Query := { q with subjects := [] }

/-- Findings with stand-ins for the source, on the first line of the file. -/
def toFindings (q : Query) (severity : Severity) (message path : String) : List Finding :=
  q.subjects.map fun s =>
    { description := match s.name? with
        | some name => message ++ " in '" ++ name ++ "'"
        | none => message
      severity
      location := .fallback path
      snippet := some s.placeholder }

/-- A finding with the location and source of its subject, as far as they are known. -/
def findingOf (severity : Severity) (title description path : String) (lines : SourceLines)
    (s : Subject) : Finding :=
  { description := match s.name? with
      | some name => title ++ " in '" ++ name ++ "'. " ++ description
      | none => title ++ ": " ++ description
    severity
    location := match s.span? with
      | some span => lines.location span
      | none => .fallback path
    snippet := some (match s.span? with
      | some span => lines.snippet span
      | none => s.placeholder) }

def toLocatedFindings (q : Query) (severity : Severity) (title description path : String)
    (lines : SourceLines) : List Finding :=
  q.subjects.map (findingOf severity title description path lines)

end Query

end AnchorAudit
