import AnchorAudit.FileTree
import AnchorAudit.Proofs.Utf8

/-! What can be asked about a path. Only a name that is too long and a directory that is closed stand in
the way. -/
namespace AnchorAudit.FileTree

/-- A path can be asked about unless a name on the way is too long or a directory on it is closed. -/
def Askable (here : Site) (path : Path) : Prop :=
  ∀ f, find .reading here path = .error (.failure f path) → f ≠ .nameTooLong ∧ f ≠ .accessDenied

end AnchorAudit.FileTree
