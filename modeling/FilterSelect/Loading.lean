/-
Loading schemas, configurations and queries from files.

Files are given by a look-up: what stands at a path, if anything does.  A file is
read as UTF-8, then as a JSON document, then as the structure wanted, and the
first of these that fails is reported with the path.
-/
import FilterSelect.Configuration.File
import FilterSelect.Json.Reader
import FilterSelect.Query.Json
import FilterSelect.Schema.File

namespace FilterSelect

open Json

/-- What stands at a path. -/
inductive FileEntry where
  | file (content : ByteArray)
  | directory

/-- What stands at each path. -/
abbrev Files := String → Option FileEntry

/-- Why something cannot be loaded. -/
inductive LoadFault where
  | missing (path : String)
  | notText (path : String)
  | directory (path : String)
  /-- The file is no JSON, or does not hold what is wanted. -/
  | malformed (path : String)
  | dangling (d : DanglingRelationship)
  /-- The operators that a binding file chooses do not fit together. -/
  | filters (fault : Fault)

namespace LoadFault

/-- What is wrong. -/
def reason : LoadFault → String
  | .missing path => "config file does not exist: " ++ path
  | .notText path => "cannot read config file " ++ path ++ ": stream did not contain valid UTF-8"
  | .directory path => "cannot read config file " ++ path ++ ": Is a directory (os error 21)"
  | .malformed path => "cannot parse JSON file " ++ path
  | .dangling d =>
    "relationship '" ++ d.relationship ++ "' of entity '" ++ d.entity ++
      "' targets unknown entity '" ++ d.target ++ "'"
  | .filters fault => fault.message

/-- The wording of a fault. -/
def message (fault : LoadFault) : String :=
  "configuration error: " ++ fault.reason

end LoadFault

namespace Files

/-- The text of a file. -/
def text (files : Files) (path : String) : Except LoadFault String :=
  match files path with
  | none => .error (.missing path)
  | some .directory => .error (.directory path)
  | some (.file content) =>
    match String.fromUTF8? content with
    | some s => .ok s
    | none => .error (.notText path)

/-- Reads a file with `read`. -/
def load {α : Type} (read : Document → Option α) (files : Files) (path : String) :
    Except LoadFault α :=
  match files.text path with
  | .error fault => .error fault
  | .ok s =>
    match (Document.ofText? s).bind read with
    | some a => .ok a
    | none => .error (.malformed path)

/-- The content of a schema file. -/
def schemaFile : Files → String → Except LoadFault SchemaFile :=
  load SchemaFile.ofDocument?

/-- The content of a binding file. -/
def bindingFile : Files → String → Except LoadFault BindingFile :=
  load BindingFile.ofDocument?

/-- The schema of a schema file. -/
def schema (files : Files) (path : String) : Except LoadFault Schema :=
  match files.schemaFile path with
  | .error fault => .error fault
  | .ok file => file.toSchema.mapError .dangling

/-- The configuration of a binding file. -/
def configuration (files : Files) (path : String) : Except LoadFault Configuration :=
  match files.bindingFile path with
  | .error fault => .error fault
  | .ok file => file.toConfiguration.mapError .filters

/-- The query of a query file. -/
def query : Files → String → Except LoadFault Query :=
  load Query.ofDocument?

end Files

end FilterSelect
