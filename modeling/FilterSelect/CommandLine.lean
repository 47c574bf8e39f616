/-
The command line.

The program loads a schema, a binding file and a query, shows what it has loaded,
and ends with the statement in SQL.  It stops at the first thing that fails; what
has been shown by then stays.

`run` is the whole program as a function of the files, the clock and the arguments.
-/
import FilterSelect.Endpoint
import FilterSelect.Loading

namespace FilterSelect

namespace CommandLine

/-- What a run of the program leaves behind. -/
structure Outcome where
  exitCode : Nat
  stdout : String
  stderr : String
deriving DecidableEq, Repr

/-- The three files of a run. -/
structure Paths where
  schema : String
  binding : String
  query : String

/-- The files that are used where none are named. -/
def defaultPaths : Paths :=
  ⟨"demos/schema.json", "demos/binding.json", "demos/query.json"⟩

/-- The files that the arguments name. -/
def pathsOf? : List String → Option Paths
  | [] => some defaultPaths
  | [schema, binding, query] => some ⟨schema, binding, query⟩
  | _ => none

/-! ### What is shown -/

/-- A line of text. -/
def line (s : String) : String :=
  s ++ "\n"

/-- The first line of every run. -/
def banner : String :=
  line "--- filterparams_sql: filter tree to SQL ---"

/-- How the program is used. -/
def usage : String :=
  line "usage: filterparams_sql [<schema.json> <binding.json> <query.json>]"

/-- The entities of a schema. -/
def schemaListing (path : String) (schema : Schema) : String :=
  let entityLine (e : Entity) : String :=
    line ("  " ++ e.name ++ " -> " ++ e.table ++ " (" ++ toString e.columns.length ++
      " columns, " ++ toString e.relationships.length ++ " relationships)")
  line ("\n[schema]: " ++ path) ++ String.join (schema.items.map entityLine)

/-- The bindings of a configuration. -/
def bindingListing (path : String) (config : Configuration) : String :=
  let bindingLine (b : Binding) : String :=
    let via := if b.entry.path = [] then "" else " via " ++ ".".intercalate b.entry.path
    line ("  " ++ b.name ++ " -> " ++ b.entry.column ++ via)
  line ("\n[binding]: " ++ path) ++ String.join (config.bindings.items.map bindingLine)

/-- A statement. -/
def sqlListing (sql : String) : String :=
  line "\n[SQL]:" ++ line sql

/-- A text with four blanks in front of each line. -/
def indented (s : String) : String :=
  "    " ++ "\n    ".intercalate (s.splitOn "\n")

/-- A run that stops at a failure, with what has been shown by then. -/
def failure (shown activity cause : String) : Outcome :=
  ⟨1, shown, "Error: " ++ activity ++ "\n\nCaused by:\n" ++ line (indented cause)⟩

/-! ### The run -/

/-- The statement that a query asks for, in SQL. -/
def statement (clock : DateTime) (schema : Schema) (config : Configuration) (query : Query) :
    Except Fault String := do
  let endpoint : Endpoint := ⟨schema, config, none⟩
  let select ← endpoint.evaluate clock query
  endpoint.sql select

/-- A run on three files. -/
def runOn (clock : DateTime) (files : Files) (paths : Paths) : Outcome :=
  match files.schema paths.schema with
  | .error fault => failure banner "loading schema" fault.message
  | .ok schema =>
    let shown := banner ++ schemaListing paths.schema schema
    match files.configuration paths.binding with
    | .error fault => failure shown "loading binding configuration" fault.message
    | .ok config =>
      let shown := shown ++ bindingListing paths.binding config
      match files.query paths.query with
      | .error fault => failure shown "loading filter query" fault.message
      | .ok query =>
        match statement clock schema config query with
        | .error fault => failure shown ("evaluating " ++ paths.query) fault.message
        | .ok sql => ⟨0, shown ++ sqlListing sql, ""⟩

/-- A run of the program. -/
def run (clock : DateTime) (files : Files) (args : List String) : Outcome :=
  match pathsOf? args with
  | none => ⟨2, "", usage⟩
  | some paths => runOn clock files paths

end CommandLine

end FilterSelect
