import AnchorAudit.Check
import AnchorAudit.Rule.Basic

/-! The rules that come with the analyser. -/
namespace AnchorAudit.Catalogue

/-- A detector that selects functions or structs of a file. -/
def detector (select : Query → Except Fault Query) : Detector :=
  .query fun file _ _ => select (.ofFile .solana file)

def unsafeCode : Rule where
  id := "solana-unsafe-code"
  title := "Unsafe Code Usage"
  description := "Using unsafe code in Solana programs can lead to security vulnerabilities"
  severity := .high
  ruleType := .solana
  detector := detector fun q => .ok q.functions.usesUnsafe
  recommendations :=
    ["Avoid using unsafe code in Solana programs unless absolutely necessary",
     "If unsafe is required, document why it is needed and which invariants it relies on",
     "Consider using safe alternatives like checked arithmetic operations"]
  references := ["https://doc.rust-lang.org/book/ch20-01-unsafe-rust.html"]
  tags := ["security", "unsafe"]

def missingSignerCheck : Rule where
  id := "missing-signer-check"
  title := "Missing Signer Check"
  description := "Detects Anchor account fields that may need signer verification"
  severity := .high
  ruleType := .solana
  detector := detector fun q => do
    (← q.structs.having .derivesAccounts).having .missingSignerChecks
  recommendations :=
    ["Use Signer<'info> for accounts that must authorize the instruction",
     "Add #[account(signer)] to AccountInfo or UncheckedAccount fields that must sign"]
  references := ["https://solana.com/developers/courses/program-security/signer-auth"]
  tags := ["security", "accounts", "anchor"]

def duplicateMutableAccounts : Rule where
  id := "duplicate-mutable-accounts"
  title := "Duplicate Mutable Accounts"
  description :=
    "Detects account structs with multiple mutable references to the same account type, " ++
    "which can lead to unexpected behavior"
  severity := .medium
  ruleType := .solana
  detector := detector fun q => do
    (← q.structs.having .derivesAccounts).having .duplicateMutableAccounts
  recommendations :=
    ["Add constraints to ensure accounts are different: " ++
     "#[account(constraint = account1.key() != account2.key())]",
     "Use a single mutable account reference instead of multiple ones when possible",
     "Validate in the instruction handler that the same account is not passed twice"]
  tags := ["security", "accounts", "anchor"]

def divisionByZero : Rule where
  id := "solana-division-by-zero"
  title := "Division Without Zero Check"
  description := "Detects division operations without zero verification"
  severity := .medium
  ruleType := .solana
  detector := detector fun q => q.functions.having .riskyDivision
  recommendations :=
    ["Check the divisor against zero before dividing",
     "Use checked_div() and handle the None case explicitly"]
  tags := ["arithmetic", "security"]

def ownerCheck : Rule where
  id := "owner-check"
  title := "Owner Check Validation"
  description := "Detects structs that implement owner checks for account validation"
  severity := .medium
  ruleType := .solana
  detector := detector fun q => do
    (← q.structs.having .derivesAccounts).having .ownerCheck
  references := ["https://solana.com/developers/courses/program-security/owner-checks"]
  tags := ["accounts", "anchor"]

def missingErrorHandling : Rule where
  id := "solana-missing-error-handling"
  title := "Missing Error Handling in Public Functions"
  description :=
    "Detects public functions that don't return Result<T> and may fail silently. " ++
    "In Solana contracts, proper error handling is essential for security and debugging."
  severity := .low
  ruleType := .solana
  detector := detector fun q => q.functions.having .missingErrorHandling
  recommendations :=
    ["Change the return type to Result<T, YourErrorType> to handle potential failures",
     "Use Anchor's Result<()> for instruction handlers to properly propagate errors",
     "Implement custom error types using #[error_code] for better error reporting",
     "Propagate errors with the ? operator or explicit error returns"]
  tags := ["error-handling", "best-practices"]

def anchorInstructions : Rule where
  id := "anchor-instructions"
  title := "Anchor Instructions Detection"
  description :=
    "Detects functions that are Anchor program instructions " ++
    "(public functions with Context parameter)"
  severity := .low
  ruleType := .solana
  detector := detector fun q => q.functions.having .anchorInstruction
  tags := ["anchor"]

def rules : List Rule :=
  [unsafeCode, missingSignerCheck, duplicateMutableAccounts, divisionByZero, ownerCheck,
   missingErrorHandling, anchorInstructions]

end AnchorAudit.Catalogue
