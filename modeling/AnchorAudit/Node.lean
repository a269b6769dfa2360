/-! Syntax trees. A node knows the stretch of octets that it covers and its part in its parent. -/
namespace AnchorAudit

/-- What a syntax tree says about one node, apart from its children. -/
structure Label where
  /-- The grammar's name for the node. -/
  kind : String
  /-- Anonymous nodes are the punctuation and keywords of the grammar. -/
  isNamed : Bool
  /-- A node that the parser put in without any text. -/
  isMissing : Bool
  /-- The tree below the node, or the node, has a syntax error. -/
  hasError : Bool
  /-- The part that the node plays in its parent, if the grammar gives it a name. -/
  field : Option String
  /-- Octets of the source before the node. -/
  start : Nat
  /-- Octets of the source before the end of the node. -/
  stop : Nat
  deriving DecidableEq

/-- A node of a syntax tree with its children in source order. -/
inductive Node where
  | mk (label : Label) (children : List Node)

namespace Node

def empty : Node := mk ⟨"source_file", true, false, false, none, 0, 0⟩ []

def label : Node → Label
  | mk l _ => l

def children : Node → List Node
  | mk _ cs => cs

def kind (n : Node) : String := n.label.kind

def isNamed (n : Node) : Bool := n.label.isNamed

def hasError (n : Node) : Bool := n.label.hasError

def namedChildren (n : Node) : List Node := n.children.filter isNamed

/-- The child that plays the given part. -/
def child? (n : Node) (field : String) : Option Node :=
  n.children.find? (·.label.field == some field)

def namedOfKind (n : Node) (kind : String) : List Node :=
  n.namedChildren.filter (·.kind == kind)

mutual

def size : Node → Nat
  | mk _ cs => sizeAll cs + 1

def sizeAll : List Node → Nat
  | [] => 0
  | c :: cs => c.size + sizeAll cs

end

theorem sizeAll_append (xs ys : List Node) : sizeAll (xs ++ ys) = sizeAll xs + sizeAll ys := by
  induction xs with
  | nil => simp [sizeAll]
  | cons x xs ih => simp [sizeAll, ih, Nat.add_assoc]

theorem size_eq (n : Node) : n.size = sizeAll n.children + 1 := by
  cases n with
  | mk l cs => rw [size, children]

mutual

/-- A node, then the preorders of its children. -/
def preorder : Node → List Node
  | mk l cs => mk l cs :: preorderAll cs

def preorderAll : List Node → List Node
  | [] => []
  | c :: cs => c.preorder ++ preorderAll cs

end

/-- The nodes of a forest that waits on a stack, the next tree on top: a node is listed when it
leaves the stack, and its children take its place. -/
def unstack : List Node → List Node
  | [] => []
  | n :: rest => n :: unstack (n.children ++ rest)
termination_by stack => sizeAll stack
decreasing_by simp only [sizeAll_append, sizeAll, size_eq]; omega

/-- All nodes of a tree in source order, parents before their children. -/
def subtree (n : Node) : List Node := unstack [n]

/-- A node that marks a syntax error by itself. -/
def isError (n : Node) : Bool := n.kind == "ERROR" || n.label.isMissing

mutual

/-- The first node that marks a syntax error. Subtrees that are free of errors are passed over. -/
def firstError? : Node → Option Node
  | mk l cs => if isError (mk l cs) then some (mk l cs) else firstErrorAmong? cs

def firstErrorAmong? : List Node → Option Node
  | [] => none
  | c :: cs =>
    if c.hasError then (firstError? c).or (firstErrorAmong? cs) else firstErrorAmong? cs

end

/-- A line of a written tree: what is said of a node, and how many children follow it. -/
structure Row where
  label : Label
  childCount : Nat
  deriving DecidableEq

/-- The forest before a row is read, given the forest after it. -/
def Row.adopt (row : Row) (forest : List Node) : List Node :=
  Node.mk row.label (forest.take row.childCount) :: forest.drop row.childCount

/-- The tree that is written as rows, each node before its children. -/
def ofRows? (rows : List Row) : Option Node := (rows.foldr Row.adopt []).head?

end Node

end AnchorAudit
