import AnchorAudit.Subject
import AnchorAudit.Text.Search

/-! Checks of the structs that list the accounts of an instruction. -/
namespace AnchorAudit.Accounts

open Text (mentions)

def isAccountsDerive (a : Attribute) : Bool := a.name == "derive" && mentions a.tokens "Accounts"

/-- Structs whose accounts are validated on entry. -/
def derivesAccounts (s : Subject) : Bool := s.isStruct && s.attributes.any isAccountsDerive

def derivesAccountsNotes (s : Subject) : List String :=
  if derivesAccounts s then ["Found struct deriving Accounts: " ++ s.displayName] else []

/-- Words in a constraint that keep two accounts apart. -/
def guardMarkers : List String := ["constraint", "seeds", "bump", "!=", "key()"]

/-- What keeps a mutable account from being passed twice. -/
inductive Guard where
  /-- A constraint of the field itself. -/
  | own (tokens : String)
  /-- A constraint, of any field or of the struct, that compares the field. -/
  | compared (constraint : String)
  deriving DecidableEq

def comparesField (f : Field) (constraint : String) : Bool :=
  !f.name.isEmpty && mentions constraint f.name && mentions constraint "!="

/-- What guards a field, given all constraints in force. -/
def guard? (constraints : List String) (f : Field) : Option Guard :=
  match f.accountAttributes.find? fun a => guardMarkers.any (mentions a.tokens) with
  | some a => some (.own a.tokens)
  | none => (constraints.find? (comparesField f)).map .compared

def isMutable (f : Field) : Bool := f.accountAttributes.any (mentions ·.tokens "mut")

def isConstraint (a : Attribute) : Bool := mentions a.tokens "constraint"

def constraints (attributes : List Attribute) (fields : List Field) : List String :=
  ((attributes ++ fields.flatMap (·.accountAttributes)).filter isConstraint).map (·.tokens)

/-- The mutable fields that nothing guards. -/
def unguarded (attributes : List Attribute) (fields : List Field) : List Field :=
  fields.filter fun f => isMutable f && (guard? (constraints attributes fields) f).isNone

/-- Two mutable accounts that may be the same. -/
def mayAlias (attributes : List Attribute) (fields : List Field) : Bool :=
  2 ≤ (unguarded attributes fields).length

/-- Structs with several mutable accounts that nothing tells apart. -/
def duplicateMutableAccounts (s : Subject) : Bool := s.isStruct && mayAlias s.attributes s.fields

def guardNote (f : Field) : Option Guard → String
  | some (.own tokens) =>
    "Field " ++ f.name ++ " has constraint that prevents duplication: " ++ tokens
  | some (.compared constraint) =>
    "Field " ++ f.name ++ " is protected by constraint: " ++ constraint
  | none => "Found mutable account without constraints: " ++ f.name

def duplicateMutableAccountsNotes (s : Subject) : List String :=
  if s.isStruct then
    let all := constraints s.attributes s.fields
    let count := (unguarded s.attributes s.fields).length
    (s.fields.filter isMutable).map (fun f => guardNote f (guard? all f)) ++
      if 2 ≤ count then
        ["Struct '" ++ s.displayName ++ "' has " ++ toString count ++
          " mutable accounts without constraints"]
      else []
  else []

/-- Account types that verify nothing by themselves. -/
def uncheckedTypes : List String := ["AccountInfo", "UncheckedAccount", "SystemAccount"]

/-- Parts of a field's name that suggest that the account has to sign. -/
def signerKeywords : List String := ["authority", "signer", "owner", "admin"]

/-- Fields that ought to show that their account has signed. The keywords are ASCII, and no other
letter has a lower case that completes one. -/
def needsSigner (f : Field) : Bool :=
  !mentions f.typeText "AccountLoader" &&
    (uncheckedTypes.any (mentions f.typeText) ||
      signerKeywords.any (mentions (Text.lowerAscii f.name)))

/-- A signer type, or a signer constraint. -/
def showsSigner (f : Field) : Bool :=
  Text.hasWord f.typeText "Signer" || f.accountAttributes.any (mentions ·.tokens "signer")

def lacksSigner (f : Field) : Bool := needsSigner f && !showsSigner f

/-- Structs with a field whose account ought to sign and need not. -/
def missingSignerChecks (s : Subject) : Bool := s.isStruct && s.fields.any lacksSigner

def missingSignerChecksNotes (s : Subject) : List String :=
  if s.isStruct then
    match s.fields.find? lacksSigner with
    | some f => ["Field '" ++ f.name ++ "' may need signer verification"]
    | none => []
  else []

end AnchorAudit.Accounts
