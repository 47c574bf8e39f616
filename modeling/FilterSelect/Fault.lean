/-
Why a query cannot be evaluated.

Every way to fail is one constructor that carries its causes; the wording is in
`message` alone.  Faults of names and paths form a type of their own, because
resolving a name can fail in no other way.
-/
import FilterSelect.Value.Reading
import FilterSelect.Schema.ColumnType

namespace FilterSelect

/-- Why a logical name denotes no column. -/
inductive NameFault where
  /-- Nothing is bound to the name. -/
  | unknownField (name : String)
  /-- A segment of a join path leads from the entity to no other. -/
  | notARelationship (segment entity : String)
  /-- The entity at the end of the path has no such column. -/
  | unknownColumn (column entity : String)
  /-- An entity that was joined is not part of the schema. -/
  | unknownEntity (name : String)
deriving DecidableEq, Repr

/-- The wording of a fault of a name. -/
def NameFault.message : NameFault → String
  | .unknownField name => "no binding configured for field '" ++ name ++ "'"
  | .notARelationship segment entity =>
    "the join path from entity '" ++ entity ++ "' has a segment '" ++ segment ++
      "' which is not a relationship"
  | .unknownColumn column entity =>
    "entity '" ++ entity ++ "' has no column '" ++ column ++ "'"
  | .unknownEntity name => "unknown entity '" ++ name ++ "'"

/-- Why a query cannot be evaluated. -/
inductive Fault where
  /-- A filter combines two others in a way that has no meaning here. -/
  | unresolvedNode (operator : String)
  | unknownFilter (name : String)
  /-- The filter cannot be applied to columns of this type. -/
  | typeMismatch (filter : String) (type : ColumnType)
  /-- A raw scalar is no value for columns of this type. -/
  | conversion (raw : Json) (type : ColumnType) (refusal : Refusal)
  /-- Something other than a string was given as a pattern. -/
  | pattern (found : Option Value) (type : ColumnType)
  | resolution (fault : NameFault)
  /-- No model is configured, or one of this name that is not part of the schema. -/
  | missingModel (configured : Option String)
  | missingSession (model : String)
  /-- Request parameters that their parser refused, with its reason. -/
  | invalidParams (reason : String)
  /-- A choice of filters leaves out the default one. -/
  | defaultLeftOut (name : String)

/-- The wording of a fault. -/
def Fault.message : Fault → String
  | .unresolvedNode operator =>
    "unresolved filter node: unknown binding operator '" ++ operator ++ "'"
  | .unknownFilter name => "filter '" ++ name ++ "' not found"
  | .typeMismatch filter type =>
    "filter '" ++ filter ++ "' cannot be applied to a column of type " ++ type.name
  | .conversion raw type refusal =>
    "unparseable value " ++ raw.render ++ " for type " ++ type.name ++ ": " ++ refusal.message
  | .pattern found type =>
    "unparseable value " ++ Value.describe found ++ " for type " ++ type.name ++
      ": a pattern must be a non-null string"
  | .resolution fault => fault.message
  | .missingModel configured =>
    "could not determine model for query binding configuration: " ++
      match configured with
      | none => "no model configured"
      | some name => "'" ++ name ++ "' is not part of the schema"
  | .missingSession model =>
    "could not access a session for model '" ++ model ++
      "', provide one when constructing the binding"
  | .invalidParams reason => "request parameters could not be parsed: " ++ reason
  | .defaultLeftOut name =>
    "invalid configuration: default filter '" ++ name ++ "' is not part of the filter subset"

end FilterSelect
