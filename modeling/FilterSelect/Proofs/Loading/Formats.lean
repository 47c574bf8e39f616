/-
The three file formats.

Queries, schema files and binding files are read back as they were written, a query also from
its form in arrays.  Whatever else a document may say differently (`Restated`) is read the same:
members in another order, members that are no fields, nodes as arrays, paths that are null or a
single name or left out.

One kind of object has no room for a member that is no field.  A type of the host is an object
whose only key is `custom`; with a second key it is no type, and the schema file is rejected.
-/
import FilterSelect.Proofs.Loading.Restated

namespace FilterSelect

open Json (Document)

/-! ### Types that are refused

A file is read from the outside in, and what is refused inside is refused outside: there is no
column without its type, no entity without all its columns, and no file without all its
entities.
-/

/-- What a document has for a field of the structure that it is read as. -/
def Place.field? (p : Place) (d : Document) (name : String) : Option Document :=
  (d.fields? (p.fields.map Prod.fst)).bind fun fields => fields name

/-- An entity of a schema file has a column of this type. -/
def SchemaFile.HasColumnType (d type : Document) : Prop :=
  ∃ entities entity columns column,
    Place.schemaFile.field? d "entities" = some (.array entities) ∧ entity ∈ entities ∧
      Place.entity.field? entity "columns" = some (.array columns) ∧ column ∈ columns ∧
        Place.column.field? column "type" = some type

theorem ColumnType.ofDocument?_eq_none {members : List (Option String × Document)}
    (hlength : members.length ≠ 1) : ofDocument? (.object members) = none := by
  rcases members with _ | ⟨member, _ | ⟨member', rest⟩⟩
  · rfl
  · exact absurd rfl hlength
  · simp [ofDocument?, Document.name?]

theorem Json.Document.list?_eq_none {α : Type} {read : Document → Option α} {d : Document}
    {items : List Document} (hmem : d ∈ items) (h : read d = none) :
    (Document.array items).list? read = none := by
  induction items with
  | nil => cases hmem
  | cons item rest ih =>
      rw [Document.list?, List.mapM_cons]
      rcases List.mem_cons.mp hmem with rfl | hmem
      · rw [h]
        rfl
      · have hrest : rest.mapM read = none := ih hmem
        cases read item <;> simp [hrest]

private theorem Column.ofDocument?_eq_none {d type : Document}
    (hfield : Place.column.field? d "type" = some type)
    (htype : ColumnType.ofDocument? type = none) : ofDocument? d = none := by
  obtain ⟨fields, hfields, hname⟩ := Option.bind_eq_some_iff.mp hfield
  have hfields : d.fields? ["name", "type"] = some fields := hfields
  simp [ofDocument?, hfields, Json.Members.required, hname, htype]

private theorem Entity.ofDocument?_eq_none {d column : Document} {columns : List Document}
    (hfield : Place.entity.field? d "columns" = some (.array columns)) (hmem : column ∈ columns)
    (hcolumn : Column.ofDocument? column = none) : ofDocument? d = none := by
  obtain ⟨fields, hfields, hname⟩ := Option.bind_eq_some_iff.mp hfield
  have hfields : d.fields? ["name", "table", "columns", "relationships"] = some fields := hfields
  simp [ofDocument?, hfields, Json.Members.withDefault, hname,
    Json.Document.list?_eq_none hmem hcolumn]

/-- A schema file with a column of a type that is refused is refused. -/
theorem SchemaFile.ofDocument?_eq_none {d type : Document} (h : HasColumnType d type)
    (htype : ColumnType.ofDocument? type = none) : ofDocument? d = none := by
  obtain ⟨entities, entity, columns, column, hentities, hentity, hcolumns, hcolumn, hfield⟩ := h
  have hnone := Entity.ofDocument?_eq_none hcolumns hcolumn
    (Column.ofDocument?_eq_none hfield htype)
  obtain ⟨fields, hfields, hname⟩ := Option.bind_eq_some_iff.mp hentities
  have hfields : d.fields? ["entities"] = some fields := hfields
  simp [ofDocument?, hfields, Json.Members.withDefault, hname,
    Json.Document.list?_eq_none hentity hnone]

/-! ### What is read back -/

namespace Formats

/--
**What is written is read back, and what may be restated is read the same.**

The values of a query have to list their members by key, as those of every query that is read
do.  An object that does not have exactly one key is no type, and no schema file with such a
type is read.
-/
theorem readBack :
    (∀ q : Query, q.Canonical →
      Query.ofDocument? (.ofValue q.toJson) = some q ∧
        Query.ofDocument? (.ofValue q.toArrays) = some q) ∧
    (∀ d q, Query.ofDocument? d = some q → q.Canonical) ∧
    (∀ file : SchemaFile, SchemaFile.ofDocument? (.ofValue file.toJson) = some file) ∧
    (∀ file : BindingFile, BindingFile.ofDocument? (.ofValue file.toJson) = some file) ∧
    (∀ (p : Place) (d d' : Document), Restated p d d' → p.read d = p.read d') ∧
    (∀ column segment : String,
      BindingEntry.ofDocument? (.ofFields [("param", .string column)]) =
        some (.joined column []) ∧
      BindingEntry.ofDocument? (.ofFields [("join", .null), ("param", .string column)]) =
        some (.joined column []) ∧
      BindingEntry.ofDocument? (.ofFields [("join", .string segment), ("param", .string column)]) =
        some (.joined column [segment])) ∧
    ∀ members, members.length ≠ 1 → ColumnType.ofDocument? (.object members) = none ∧
      ∀ d, SchemaFile.HasColumnType d (.object members) → SchemaFile.ofDocument? d = none := by
  refine ⟨?_, ?_, ?_, ?_, ?_, ?_, ?_⟩
  · intro q hq
    exact ⟨Query.ofDocument?_toJson hq, Query.ofDocument?_toArrays hq⟩
  · intro d q h
    exact Query.canonical_of_ofDocument? h
  · exact SchemaFile.ofDocument?_toJson
  · exact BindingFile.ofDocument?_toJson
  · intro p d d' h
    exact h.read_eq
  · intro column segment
    exact ⟨rfl, rfl, rfl⟩
  · intro members hlength
    have htype := ColumnType.ofDocument?_eq_none hlength
    exact ⟨htype, fun d hd => SchemaFile.ofDocument?_eq_none hd htype⟩

/-! ### Requests written in several ways

Each of the samples changes one thing that the statement is about, and the last ones the thing
that may not be changed.
-/

/-- A request with a value that has parts. -/
def request : Query where
  filter := some (.and
    (.leaf ⟨"tags", some "contains",
      .object [("any", .array [.string "new", .null]), ("of", .bool true)]⟩)
    (.not (.leaf ⟨"name", none, .string "main"⟩)))
  orders := [⟨"name", .descending⟩]

theorem request_canonical : request.Canonical := by
  intro tree htree l hl
  cases htree
  rcases List.mem_cons.mp hl with rfl | hl
  · refine .object (by decide) ?_
    simp only [List.forall_mem_cons]
    refine ⟨.array ?_, .bool true, by simp⟩
    simp only [List.forall_mem_cons]
    exact ⟨.string _, .null, by simp⟩
  · rcases List.mem_singleton.mp hl with rfl
    exact .string _

/-- The request for what is not deleted. -/
def undeleted : Query where
  filter := some (.not (.leaf ⟨"deleted", none, .null⟩))
  orders := []

/-- This request with nodes as objects. -/
def plain : Document :=
  .ofFields [("filter", .ofFields [("type", .string "not"),
      ("inner", .ofFields [("type", .string "param"), ("name", .string "deleted")])]),
    ("orders", .array [])]

/-- The same with an array, members in another order and one that is no field. -/
def embellished : Document :=
  .ofFields [("page", .string "first"),
    ("filter", .array [.string "not",
      .ofFields [("name", .string "deleted"), ("type", .string "param")]]),
    ("orders", .array [])]

theorem plain_embellished : Restated .query plain embellished := by
  have hinner : Restated .node
      (.ofFields [("type", .string "param"), ("name", .string "deleted")])
      (.ofFields [("name", .string "deleted"), ("type", .string "param")]) :=
    .reorder rfl (.swap _ _ _) (by simp)
  have harray := @Restated.nodeArray (.string "not") .not
    [.ofFields [("name", .string "deleted"), ("type", .string "param")]] rfl (by decide)
  have hfilter := (@Restated.member .node .node "inner" _ _ rfl hinner
    [(some "type", .string "not")] []).trans harray.symm
  have hpage : Restated .query plain (.ofFields [("page", .string "first"), _, _]) :=
    .unknown ⟨by decide, by decide⟩ rfl
  exact hpage.trans (@Restated.member .query .node "filter" _ _ rfl hfilter
    [(some "page", .string "first")] [(some "orders", .array [])])

/-- A type of the host with a second key. -/
def pricedType : Document :=
  .ofFields [("custom", .string "Money"), ("unit", .number (.integer 1 (by decide)))]

/-- A schema file with one column of this type. -/
def oneColumn (type : Document) : Document :=
  .ofFields [("entities", .array [.ofFields [("name", .string "A"), ("table", .string "a"),
    ("columns", .array [.ofFields [("name", .string "c"), ("type", type)]]),
    ("relationships", .array [])]])]

theorem readBack_requests :
    (request.Canonical ∧ Query.ofDocument? (.ofValue request.toJson) = some request ∧
      Query.ofDocument? (.ofValue request.toArrays) = some request) ∧
    (Query.ofDocument? plain = some undeleted ∧ undeleted.Canonical) ∧
    (Restated .query plain embellished ∧
      Query.ofDocument? plain = Query.ofDocument? embellished) ∧
    ColumnType.ofDocument? pricedType = none ∧
    SchemaFile.HasColumnType (oneColumn pricedType) pricedType ∧
    SchemaFile.ofDocument? (oneColumn pricedType) = none := by
  obtain ⟨hqueries, hread, -, -, hrestated, -, htype⟩ := readBack
  have hplain : Query.ofDocument? plain = some undeleted := rfl
  refine ⟨⟨request_canonical, hqueries request request_canonical⟩, ?_, ?_, ?_⟩
  · exact ⟨hplain, hread plain undeleted hplain⟩
  · exact ⟨plain_embellished, hrestated .query plain embellished plain_embellished⟩
  · have hcolumn : SchemaFile.HasColumnType (oneColumn pricedType) pricedType :=
      ⟨_, _, _, _, rfl, List.mem_cons_self, rfl, List.mem_cons_self, rfl⟩
    obtain ⟨hnone, hfile⟩ : ColumnType.ofDocument? pricedType = none ∧
        ∀ d, SchemaFile.HasColumnType d pricedType → SchemaFile.ofDocument? d = none :=
      htype _ (by decide)
    exact ⟨hnone, hcolumn, hfile _ hcolumn⟩

/-- A second key in the type of a column is not passed over. -/
theorem schemaFile_pricedType :
    SchemaFile.ofDocument? (oneColumn (.ofFields [("custom", .string "Money")])) =
      some ⟨[⟨"A", "a", [⟨"c", .custom "Money"⟩], []⟩]⟩ ∧
    SchemaFile.ofDocument? (oneColumn pricedType) = none :=
  ⟨rfl, rfl⟩

end Formats

end FilterSelect
