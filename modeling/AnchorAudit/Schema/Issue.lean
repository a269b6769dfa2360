import AnchorAudit.Text.Encoding

/-! What is wrong with a value that breaks its schema. -/
namespace AnchorAudit.Schema

open Text (Points)

/-- A step from a value to one of its parts. -/
inductive Step where
  | field (name : Points)
  | index (i : Nat)
  | key
  deriving DecidableEq

def Step.render : Step → Points
  | .field name => name
  | .index i => toString i
  | .key => "[key]"

inductive Cause where
  | missing
  | notString
  | notText
  | notInteger
  | integerUnreadable
  | integerFraction
  | integerTooLong
  | belowMinimum
  | notReal
  | realUnreadable
  | notFinite
  | notBool
  | boolUnreadable
  | notChoice
  | notLiteral
  | notList
  | notSet
  | notMap
  | notModel
  | notObject
  | notPath
  deriving DecidableEq

def Cause.code : Cause → String
  | .missing => "missing"
  | .notString => "string_type"
  | .notText => "string_unicode"
  | .notInteger => "int_type"
  | .integerUnreadable => "int_parsing"
  | .integerFraction => "int_from_float"
  | .integerTooLong => "int_parsing_size"
  | .belowMinimum => "greater_than_equal"
  | .notReal => "float_type"
  | .realUnreadable => "float_parsing"
  | .notFinite => "finite_number"
  | .notBool => "bool_type"
  | .boolUnreadable => "bool_parsing"
  | .notChoice => "enum"
  | .notLiteral => "literal_error"
  | .notList => "list_type"
  | .notSet => "set_type"
  | .notMap => "dict_type"
  | .notModel => "model_type"
  | .notObject => "model_attributes_type"
  | .notPath => "path_type"

structure Issue where
  path : List Step
  cause : Cause
  deriving DecidableEq

end AnchorAudit.Schema
