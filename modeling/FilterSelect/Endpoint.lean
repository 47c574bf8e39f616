/-
Filter endpoints.

An endpoint is a configuration with the schema it is about.  It evaluates queries
to statements and writes statements in the dialect of its session.  A session
given to the endpoint itself is used in place of the configured one.

Every evaluation starts from a base statement.  Where a host has base statements of its
own, `evaluateFrom` takes them from there; `evaluate` takes those that sessions have.

What an endpoint lacks is reported in a fixed order: the model, the session, the
operators, and then whatever is wrong with the query.
-/
import FilterSelect.Configuration.Basic
import FilterSelect.Evaluation
import FilterSelect.Params
import FilterSelect.Select.Sql

namespace FilterSelect

/-- A configuration attached to a schema. -/
structure Endpoint where
  schema : Schema
  config : Configuration
  /-- A session that takes precedence over the configured one. -/
  ownSession : Option Session

namespace Endpoint

/-- The root entity. -/
def model (e : Endpoint) : Except Fault Entity :=
  match e.config.model with
  | none => .error (.missingModel none)
  | some name =>
    match e.schema.find? name with
    | some entity => .ok entity
    | none => .error (.missingModel (some name))

/-- The session in use. -/
def session (e : Endpoint) : Except Fault Session :=
  match e.ownSession <|> e.config.session with
  | some session => .ok session
  | none =>
    match e.model with
    | .ok model => .error (.missingSession model.name)
    | .error fault => .error fault

/-- All that an evaluation at this reading of the clock needs. -/
def evaluation (e : Endpoint) (clock : DateTime) : Except Fault Evaluation := do
  let model ← e.model
  let registry ← e.config.registry
  let converters := e.config.converters.getD Converters.builtIn
  return ⟨⟨e.schema, model, e.config.bindings⟩, registry, converters, clock⟩

/-- The statement that a query asks for, made of what `base` has for the session and the model. -/
def evaluateFrom (e : Endpoint) (base : Session → Entity → Select) (clock : DateTime)
    (query : Query) : Except Fault Select := do
  let model ← e.model
  let session ← e.session
  let evaluation ← e.evaluation clock
  evaluation.evaluate (base session model) query

/-- The statement that a query asks for. -/
def evaluate (e : Endpoint) (clock : DateTime) (query : Query) : Except Fault Select :=
  e.evaluateFrom Session.base clock query

/-- The statement that request parameters ask for. -/
def evaluateParams (e : Endpoint) (clock : DateTime) (parse : ParamsParser) (params : Params) :
    Except Fault Select := do
  let registry ← e.config.registry
  match parse params registry.names registry.defaultName with
  | .error reason => .error (.invalidParams reason)
  | .ok query => e.evaluate clock query

/-- A statement in the dialect of the session. -/
def sql (e : Endpoint) (select : Select) : Except Fault String := do
  let session ← e.session
  return select.sql session.dialect

end Endpoint

end FilterSelect
