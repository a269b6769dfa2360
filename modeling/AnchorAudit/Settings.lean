import AnchorAudit.Dotenv
import AnchorAudit.Json.Reader
import AnchorAudit.Schema.Models

/-! The settings of the analyser, and where they come from. -/
namespace AnchorAudit

open Schema

structure Settings where
  ignoredSeverities : List Severity := []
  ignoredRules : List Text.Points := []
  includedTypes : List RuleType := RuleType.all
  templatesPath : Option Path := none
  sourceExtension : String := ".rs"
  maxFileSize : Int := 500000
  logLevel : String := "INFO"
  deriving DecidableEq

namespace Settings

def read : Reader Settings := fun v => do
  let ms ← members .notModel v
  let (ignoredSeverities, ignoredRules, includedTypes, templatesPath, sourceExtension, maxFileSize,
      logLevel) ←
    both (defaulted ms "ignore_severities" [] (list (choice .notChoice Severity.ofName?))) <|
    both (defaulted ms "ignore_rules" [] (list points)) <|
    both (defaulted ms "include_rule_types" RuleType.all
      (list (choice .notChoice RuleType.ofName?))) <|
    both (defaulted ms "custom_templates_path" none (nullable path)) <|
    both (defaulted ms "source_extension" ".rs" string) <|
    both (defaulted ms "max_file_size_bytes" 500000 integer)
      (defaulted ms "log_level" "INFO" string)
  return { ignoredSeverities, ignoredRules, includedTypes, templatesPath, sourceExtension,
           maxFileSize, logLevel }

def selection (s : Settings) : Selection where
  ignoredSeverities := s.ignoredSeverities.eraseDups
  ignoredRules := s.ignoredRules.eraseDups
  includedTypes := s.includedTypes.eraseDups
  templatesPath := s.templatesPath

def write (s : Settings) : Json :=
  .object [("ignore_severities", .texts (s.ignoredSeverities.map Severity.name)),
    ("ignore_rules", .array (s.ignoredRules.map .string)),
    ("include_rule_types", .texts (s.includedTypes.map RuleType.name)),
    ("source_extension", .string s.sourceExtension),
    ("max_file_size_bytes", .int s.maxFileSize),
    ("log_level", .string s.logLevel),
    ("config", s.selection.write)]

inductive Form where
  | plain
  | json
  deriving DecidableEq

def fields : List (String × Form) :=
  [("ignore_severities", .json), ("ignore_rules", .json), ("include_rule_types", .json),
   ("custom_templates_path", .plain), ("source_extension", .plain),
   ("max_file_size_bytes", .plain), ("log_level", .plain)]

inductive Origin where
  | environment
  | file
  deriving DecidableEq

def Origin.label : Origin → String
  | .environment => "EnvSettingsSource"
  | .file => "DotEnvSettingsSource"

inductive SettingsError where
  | unreadable (field : String) (origin : Origin)
  | invalid (issues : List Issue)
  deriving DecidableEq

def SettingsError.message : SettingsError → String
  | .unreadable field origin =>
    "error parsing value for field \"" ++ field ++ "\" from source \"" ++ origin.label ++ "\""
  | .invalid _ => ""

def variableName (field : String) : String := "solguard_" ++ field

/-- The value of the last variable with a name, in letters of either case. -/
def valueOf? (vars : Dotenv.Bindings) (name : String) : Option String :=
  (vars.reverse.find? fun v => Text.lowerAscii v.1 == name).bind Prod.snd

/-- The value that a variable gives to a setting. A JSON null gives none. -/
def fieldValue? (origin : Origin) (vars : Dotenv.Bindings) (field : String)
    (form : Form) : Except SettingsError (Option Json) :=
  match valueOf? vars (variableName field), form with
  | none, _ => .ok none
  | some text, .plain => .ok (some (.string text))
  | some text, .json =>
    match Json.read text with
    | .error _ => .error (.unreadable field origin)
    | .ok .null => .ok none
    | .ok v => .ok (some v)

def given (origin : Origin) (vars : Dotenv.Bindings) :
    Except SettingsError (List (Text.Points × Json)) := do
  let values ← fields.mapM fun (field, form) => do
    return (← fieldValue? origin vars field form).map ((field : Text.Points), ·)
  return values.filterMap id

/-- The settings that the environment and the text of a file of variables give. The environment
counts more. -/
def ofVariables (environment : List (String × String)) (file : String) :
    Except SettingsError Settings := do
  let fromEnvironment ← given .environment (environment.map fun (name, value) => (name, some value))
  let fromFile ← given .file (Dotenv.read environment file)
  match read (.object (fromEnvironment ++ fromFile)) with
  | .ok s => return s
  | .error issues => throw (.invalid issues)

end Settings

end AnchorAudit
