import AnchorAudit.Attribute
import AnchorAudit.Span

/-! Subjects: the parts of a program that queries select and checks judge. -/
namespace AnchorAudit

/-- A node of a file with the siblings before it, the nearest first. -/
structure Place where
  source : Source
  node : Node
  before : List Node

namespace Place

def text (p : Place) : String := p.source.textOf p.node

def span (p : Place) : Span := .ofNode p.source p.node

def childText? (p : Place) (field : String) : Option String :=
  (p.node.child? field).map p.source.textOf

/-- The places of a forest whose trees stand side by side after the given siblings. -/
def side (source : Source) (before : List Node) : List Node → List Place
  | [] => []
  | n :: rest => ⟨source, n, before⟩ :: side source (n :: before) rest

def children (p : Place) : List Place := side p.source [] p.node.children

mutual

/-- The places of all nodes of a tree, parents before their children. -/
def within (source : Source) (before : List Node) : Node → List Place
  | .mk l cs => ⟨source, .mk l cs, before⟩ :: withinAll source [] cs

def withinAll (source : Source) (before : List Node) : List Node → List Place
  | [] => []
  | c :: cs => within source before c ++ withinAll source (c :: before) cs

end

def isComment (n : Node) : Bool := n.kind == "line_comment" || n.kind == "block_comment"

def isAttributeItem (n : Node) : Bool := n.kind == "attribute_item"

/-- The attribute items that wait for the next sibling, in source order, given the siblings so far, the
nearest first. Comments may come between. -/
def waiting (before : List Node) : List Node :=
  (((before.filter (·.isNamed)).takeWhile fun n => isAttributeItem n || isComment n).filter
    isAttributeItem).reverse

def leadingAttributes (p : Place) : List Node := waiting p.before

/-- The attributes of the node: those before it, then those inside it. -/
def attributes (p : Place) : List Attribute :=
  (p.leadingAttributes ++ p.node.namedOfKind "attribute_item").map (.ofNode p.source)

/-- A field with the attributes that are waiting for it. -/
def fieldOf (source : Source) (pending : List Attribute) (n : Node) : Field where
  name := ((n.child? "name").map source.textOf).getD ""
  typeText := ((n.child? "type").map source.textOf).getD ""
  attributes := pending

/-- The fields among the named nodes of a declaration list. An attribute waits for the next field. -/
def fieldsAmong (source : Source) (pending : List Attribute) : List Node → List Field
  | [] => []
  | n :: rest =>
    if n.kind == "attribute_item" then fieldsAmong source (pending ++ [.ofNode source n]) rest
    else if n.kind == "field_declaration" then
      fieldOf source pending n :: fieldsAmong source [] rest
    else fieldsAmong source pending rest

/-- The named fields of a struct, each with its attributes. -/
def fields (p : Place) : List Field :=
  match p.node.child? "body" with
  | some body =>
    if body.kind == "field_declaration_list" then fieldsAmong p.source [] body.namedChildren else []
  | none => []

/-- The visibility of an item, without white space; empty if none is written. -/
def visibility (p : Place) : String :=
  match p.node.children.find? (·.kind == "visibility_modifier") with
  | some n => .ofList (Text.unspaced (p.source.textOf n).toList)
  | none => ""

def parameters (p : Place) : List (String × String) :=
  match p.node.child? "parameters" with
  | some list =>
    (list.namedOfKind "parameter").map fun n =>
      (((n.child? "pattern").map p.source.textOf).getD "",
       ((n.child? "type").map p.source.textOf).getD "")
  | none => []

end Place

/-- An item that is declared unsafe, by a keyword of its own or among its modifiers. -/
def hasUnsafeModifier (source : Source) (item : Node) : Bool :=
  item.children.any fun c =>
    c.kind == "unsafe" ||
      (c.kind == "function_modifiers" &&
        (Text.words (source.textOf c).toList).contains "unsafe".toList)

/-- What a selected node is taken for. -/
inductive Role where
  | file
  | function
  | associatedFunction
  | struct
  | enum
  | block
  | expression
  deriving DecidableEq

namespace Role

def name : Role → String
  | file => "file"
  | function => "function"
  | associatedFunction => "associated_function"
  | struct => "struct"
  | enum => "enum"
  | block => "block"
  | expression => "expression"

def category : Role → String
  | file => "File"
  | function => "Function"
  | associatedFunction => "Function"
  | struct => "Struct"
  | enum => "Enum"
  | block => "Block"
  | expression => "Expression"

def isFunction : Role → Bool
  | function => true
  | associatedFunction => true
  | _ => false

def isItem : Role → Bool
  | function => true
  | associatedFunction => true
  | struct => true
  | enum => true
  | _ => false

end Role

/-- Something that a query can select: a node in a role, or a bare name. -/
inductive Subject where
  | placed (role : Role) (place : Place)
  | other (name : Option String)

namespace Subject

def name? : Subject → Option String
  | placed role p => if role.isItem then p.childText? "name" else none
  | other name => name

def displayName (s : Subject) : String := s.name?.getD "unnamed"

def category : Subject → String
  | placed role _ => role.category
  | other _ => "Other"

def roleName : Subject → String
  | placed role _ => role.name
  | other _ => "other"

def isFunction : Subject → Bool
  | placed role _ => role.isFunction
  | other _ => false

def isStruct : Subject → Bool
  | placed .struct _ => true
  | _ => false

def text : Subject → String
  | placed _ p => p.text
  | other _ => ""

def span? : Subject → Option Span
  | placed _ p => some p.span
  | other _ => none

/-- A stand-in for the source of the subject. -/
def placeholder (s : Subject) : String :=
  match s with
  | placed .function _ => "fn " ++ s.displayName ++ "(...)"
  | placed .associatedFunction _ => "fn " ++ s.displayName ++ "(...)"
  | placed .struct _ => "struct " ++ s.displayName
  | placed .enum _ => "enum " ++ s.displayName
  | placed .block _ => "\x7b ... \x7d"
  | _ => "..."

/-- What decides whether two subjects are the same: the role, the kind of node and the text up to
the amount of white space. -/
structure Key where
  role : String
  kind : String
  text : String
  deriving DecidableEq, Hashable

def key : Subject → Key
  | placed role p => ⟨role.name, p.node.kind, .ofList (Text.squeeze p.text.toList)⟩
  | other _ => ⟨"other", "", ""⟩

/-- Two subjects count as the same when their keys agree. -/
instance : BEq Subject := ⟨fun a b => a.key == b.key⟩

def childText? : Subject → String → Option String
  | placed _ p, field => p.childText? field
  | other _, _ => none

def attributes : Subject → List Attribute
  | placed _ p => p.attributes
  | other _ => []

def fields : Subject → List Field
  | placed _ p => p.fields
  | other _ => []

def visibility : Subject → String
  | placed _ p => p.visibility
  | other _ => ""

/-- Visible everywhere; a restricted visibility does not count. -/
def isPublic (s : Subject) : Bool := s.visibility == "pub"

def parameters : Subject → List (String × String)
  | placed _ p => p.parameters
  | other _ => []

def returnType? (s : Subject) : Option String := s.childText? "return_type"

/-- The node that holds the statements of a subject. -/
def body? : Subject → Option Node
  | placed .block p => some p.node
  | placed .expression p => some p.node
  | placed _ p => p.node.child? "body"
  | other _ => none

def isUnsafeFunction : Subject → Bool
  | placed role p => role.isFunction && hasUnsafeModifier p.source p.node
  | other _ => false

/-- The source that the subject is part of, empty for a bare name. -/
def source : Subject → Source
  | placed _ p => p.source
  | other _ => ⟨[]⟩

end Subject

end AnchorAudit
