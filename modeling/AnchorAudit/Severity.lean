import AnchorAudit.Path
import AnchorAudit.Text.Encoding
import AnchorAudit.Text.Search

/-! How grave a finding is, which programs a rule is about, and which rules take part in an analysis. -/
namespace AnchorAudit

inductive Severity where
  | high
  | medium
  | low
  | informational
  deriving DecidableEq, Hashable

namespace Severity

def name : Severity → String
  | high => "high"
  | medium => "medium"
  | low => "low"
  | informational => "informational"

/-- The name with a capital letter, for headings. -/
def title : Severity → String
  | high => "High"
  | medium => "Medium"
  | low => "Low"
  | informational => "Informational"

/-- The gravest comes first. -/
def rank : Severity → Nat
  | high => 0
  | medium => 1
  | low => 2
  | informational => 3

def ordered : List Severity := [high, medium, low, informational]

def ofName? (s : String) : Option Severity := ordered.find? (·.name == s)

/-- The severity with this name, in letters of either case and between any white space. No letter
outside ASCII has a lower case that could complete a name. -/
def parse? (s : String) : Option Severity := ofName? (Text.lowerAscii (Text.strip s))

def unknownMessage (s : String) : String := "Unknown severity level: " ++ s

def invalidMessage (quoted : String) : String := quoted ++ " is not a valid Severity"

end Severity

/-- The family of programs that a rule is written for. -/
inductive RuleType where
  | solana
  | anchor
  | general
  deriving DecidableEq

namespace RuleType

def name : RuleType → String
  | solana => "solana"
  | anchor => "anchor"
  | general => "general"

def all : List RuleType := [solana, anchor, general]

def ofName? (s : String) : Option RuleType := all.find? (·.name == s)

def invalidMessage (quoted : String) : String := quoted ++ " is not a valid RuleType"

end RuleType

structure Selection where
  /-- Rules and findings of these severities are left out. -/
  ignoredSeverities : List Severity := []
  /-- Rules with these ids are left out. -/
  ignoredRules : List Text.Points := []
  /-- Only rules of these types take part. -/
  includedTypes : List RuleType := RuleType.all
  /-- A directory with rule templates. -/
  templatesPath : Option Path := none
  deriving DecidableEq

end AnchorAudit
