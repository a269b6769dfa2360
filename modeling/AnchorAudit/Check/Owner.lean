import AnchorAudit.Subject
import AnchorAudit.Text.Search

/-! Checks for the verification of account owners. -/
namespace AnchorAudit.Owner

open Text (mentions)

/-- A constraint on the owner or the address of an account. -/
def constrainsOwner (a : Attribute) : Bool := mentions a.tokens "owner" || mentions a.tokens "address"

/-- What in a function body verifies an owner. -/
inductive OwnerEvidence where
  | comparison
  | assertion (name : String)
  deriving DecidableEq

/-- Macros that end an instruction unless a condition holds. -/
def assertions : List String := ["require", "assert", "assert_eq"]

def speaksOfOwner (source : Source) (n : Node) : Bool := mentions (source.textOf n) "owner"

def comparesOwner (source : Source) (n : Node) : Bool :=
  (n.child? "operator").any (·.kind == "==") &&
    ((n.child? "left").any (speaksOfOwner source) || (n.child? "right").any (speaksOfOwner source))

/-- The evidence that one node gives by itself. -/
def ownerEvidence? (source : Source) (n : Node) : Option OwnerEvidence :=
  if n.kind == "binary_expression" then
    if comparesOwner source n then some .comparison else none
  else if n.kind == "macro_invocation" then
    match (n.child? "macro").map source.textOf with
    | some name =>
      if assertions.contains name && (n.namedOfKind "token_tree").any (speaksOfOwner source) then
        some (.assertion name)
      else none
    | none => none
  else none

/-- All evidence in a body, in source order. -/
def ownerEvidence (source : Source) (body : Node) : List OwnerEvidence :=
  body.subtree.filterMap (ownerEvidence? source)

def bodyEvidence (s : Subject) : List OwnerEvidence :=
  match s.body? with
  | some body => ownerEvidence s.source body
  | none => []

/-- Structs that constrain an owner, and functions that verify one. -/
def ownerCheck (s : Subject) : Bool :=
  if s.isStruct then s.fields.any (·.accountAttributes.any constrainsOwner)
  else s.isFunction && !(bodyEvidence s).isEmpty

def OwnerEvidence.note : OwnerEvidence → String
  | .comparison => "Found owner check in binary expression"
  | .assertion name => "Found owner check in " ++ name ++ "! macro"

def ownerCheckNotes (s : Subject) : List String :=
  (if s.isFunction then (bodyEvidence s).map (·.note) else []) ++
    if ownerCheck s then ["Found owner check in: " ++ s.displayName] else []

end AnchorAudit.Owner
