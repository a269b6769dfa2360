import AnchorAudit.Check.Accounts
import AnchorAudit.Check.Division
import AnchorAudit.Check.Owner
import AnchorAudit.Query
import AnchorAudit.Text.Search

/-! The checks as a closed list, each with its verdict and its notes. Those of what a function shows to
its callers come first. -/
namespace AnchorAudit

namespace Interface

open Text (mentions)

def isPublicFunction (s : Subject) : Bool := s.isFunction && s.isPublic

/-- Public functions that take an instruction context. -/
def anchorInstruction (s : Subject) : Bool :=
  isPublicFunction s && s.parameters.any fun p => mentions p.2 "Context"

/-- Public functions that cannot report a failure. -/
def missingErrorHandling (s : Subject) : Bool :=
  isPublicFunction s && !s.returnType?.any (mentions · "Result")

def missingErrorHandlingNotes (s : Subject) : List String :=
  if isPublicFunction s && s.returnType?.isNone then
    ["Function " ++ s.displayName ++ " has no return type"]
  else []

end Interface

inductive Check where
  | derivesAccounts
  | duplicateMutableAccounts
  | missingSignerChecks
  | ownerCheck
  | anchorInstruction
  | riskyDivision
  | missingErrorHandling
  deriving DecidableEq

namespace Check

/-- Whether a subject has the property. Only the search for divisions can fail. -/
def verdict : Check → Subject → Except Fault Bool
  | derivesAccounts, s => .ok (Accounts.derivesAccounts s)
  | duplicateMutableAccounts, s => .ok (Accounts.duplicateMutableAccounts s)
  | missingSignerChecks, s => .ok (Accounts.missingSignerChecks s)
  | ownerCheck, s => .ok (Owner.ownerCheck s)
  | anchorInstruction, s => .ok (Interface.anchorInstruction s)
  | riskyDivision, s => (Division.riskyDivision s).mapError fun _ => .numberTooLarge
  | missingErrorHandling, s => .ok (Interface.missingErrorHandling s)

def notes : Check → Subject → List String
  | derivesAccounts, s => Accounts.derivesAccountsNotes s
  | duplicateMutableAccounts, s => Accounts.duplicateMutableAccountsNotes s
  | missingSignerChecks, s => Accounts.missingSignerChecksNotes s
  | ownerCheck, s => Owner.ownerCheckNotes s
  | anchorInstruction, _ => []
  | riskyDivision, s => Division.riskyDivisionNotes s
  | missingErrorHandling, s => Interface.missingErrorHandlingNotes s

end Check

def Query.having (check : Check) (q : Query) : Except Fault Query := q.narrowM check.verdict

end AnchorAudit
