/-
Places of a document and what is read there.

A part of a document is read by where it stands: as a structure, as a list of them, as a value,
or as text that is not looked into here.  A `Place` names the way of reading.  Its fields say
how the parts below are read in turn, so that two structures read the same if their fields do,
name by name (`read_object`, `read_structure`).

Nodes need a lemma of their own, since their fields depend on their kind, and entries because
they are checked throughout before they are read.
-/
import FilterSelect.Proofs.Loading.Written

namespace FilterSelect

open Json (Document Members)

/-! ### Places -/

/-- What a part of a document is read as. -/
inductive Place where
  /-- A string, a name out of a fixed list, or another part that is not looked into here. -/
  | scalar
  /-- Any value. -/
  | value
  | node
  | order
  | orders
  | query
  | column
  | columns
  | relationship
  | relationships
  | entity
  | entities
  | schemaFile
  /-- The path of a binding. -/
  | path
  | entry
  | bindings
  | bindingFile
deriving DecidableEq, Repr

namespace Place

/-- What is read at a place. -/
@[reducible] def Result : Place → Type
  | .scalar => Document
  | .value => Option Json
  | .node => Option (Option FilterTree) × (Bool → Option FilterTree)
  | .order => Option OrderSpec
  | .orders => Option (List OrderSpec)
  | .query => Option Query
  | .column => Option Column
  | .columns => Option (List Column)
  | .relationship => Option Relationship
  | .relationships => Option (List Relationship)
  | .entity => Option Entity
  | .entities => Option (List Entity)
  | .schemaFile => Option SchemaFile
  | .path => Option (List String)
  | .entry => Option BindingEntry
  | .bindings => Option Bindings
  | .bindingFile => Option BindingFile

/-- The reader of a place. -/
def read : (p : Place) → Document → p.Result
  | .scalar, d => d
  | .value, d => d.value?
  | .node, d => (d.nullable? Query.readTree, fun isInner => FilterTree.ofDocument? isInner d)
  | .order, d => OrderSpec.ofDocument? d
  | .orders, d => d.list? OrderSpec.ofDocument?
  | .query, d => Query.ofDocument? d
  | .column, d => Column.ofDocument? d
  | .columns, d => d.list? Column.ofDocument?
  | .relationship, d => Relationship.ofDocument? d
  | .relationships, d => d.list? Relationship.ofDocument?
  | .entity, d => Entity.ofDocument? d
  | .entities, d => d.list? Entity.ofDocument?
  | .schemaFile, d => SchemaFile.ofDocument? d
  | .path, d => BindingEntry.readPath d
  | .entry, d => BindingEntry.ofDocument? d
  | .bindings, d => Bindings.ofDocument? d
  | .bindingFile, d => BindingFile.ofDocument? d

/-- The fields of a structure, and what is read there; for nodes those of all kinds. -/
def fields : Place → List (String × Place)
  | .node => [("type", .scalar), ("name", .scalar), ("filter", .scalar), ("value", .value),
      ("left", .node), ("right", .node), ("inner", .node), ("operator", .scalar)]
  | .order => [("name", .scalar), ("direction", .scalar)]
  | .query => [("filter", .node), ("orders", .orders)]
  | .column => [("name", .scalar), ("type", .scalar)]
  | .relationship => [("name", .scalar), ("target", .scalar), ("kind", .scalar),
      ("local_column", .scalar), ("remote_column", .scalar)]
  | .entity => [("name", .scalar), ("table", .scalar), ("columns", .columns),
      ("relationships", .relationships)]
  | .schemaFile => [("entities", .entities)]
  | .entry => [("param", .scalar), ("join", .path)]
  | .bindingFile => [("for", .scalar), ("binding", .bindings), ("filters", .scalar),
      ("default_filter", .scalar), ("backend", .scalar)]
  | _ => []

/-- What a member of an object is read as, if the object is read here. -/
def member? : Place → String → Option Place
  | .value, _ => some .value
  | .bindings, _ => some .entry
  | p, key => p.fields.lookup key

/-- What the items of an array are read as by their position, if the array is read here. -/
def item? : Place → Nat → Option Place
  | .value, _ => some .value
  | .orders, _ => some .order
  | .columns, _ => some .column
  | .relationships, _ => some .relationship
  | .entities, _ => some .entity
  -- The fields of a node depend on its kind, and no array is an entry.
  | .node, _ | .entry, _ => none
  | p, n => p.fields[n]?.map Prod.snd

/-- Whether objects are read here. -/
def isObject (p : Place) : Bool :=
  p == .value || p == .bindings || !p.fields.isEmpty

/-- Whether a member of this key is passed over, in an object with these members besides. -/
def PassesOver : Place → List (Option String × Document) → String → Prop
  | .node, members, key => key ≠ "type" ∧ ∀ d, members.lookup (some "type") = some d →
      ∀ isInner kind, FilterTree.Kind.ofDocument? isInner d = some kind → key ∉ kind.fields
  | p, _, key => p.fields ≠ [] ∧ key ∉ p.fields.map Prod.fst

variable {p : Place} {members members' : List (Option String × Document)}

theorem value_or_bindings (hp : p.isObject = true) (hfields : p.fields = []) :
    p = .value ∨ p = .bindings := by
  simpa [isObject, hfields] using hp

theorem isObject_of_member? {q : Place} {key : String} (hq : p.member? key = some q) :
    p.isObject = true := by
  cases p with
  | scalar | path | orders | columns | relationships | entities => cases hq
  | _ => rfl

theorem member?_of_fields (hfields : p.fields ≠ []) (key : String) :
    p.member? key = p.fields.lookup key := by
  cases p with
  | value | bindings => exact absurd rfl hfields
  | _ => rfl

theorem item?_of_structure (hnode : p ≠ .node) (hentry : p ≠ .entry) (hfields : p.fields ≠ [])
    (n : Nat) : p.item? n = p.fields[n]?.map Prod.snd := by
  cases p with
  | node => exact absurd rfl hnode
  | entry => exact absurd rfl hentry
  | value | orders | columns | relationships | entities => exact absurd rfl hfields
  | _ => rfl

theorem nodup_fields (p : Place) : (p.fields.map Prod.fst).Nodup := by
  cases p <;> decide

/-! ### Fields that are alike -/

/-- Parts of documents that read the same as a field of a structure. -/
def FieldAlike (p : Place) (name : String) (d d' : Document) : Prop :=
  ∀ q, p.fields.lookup name = some q → q.read d = q.read d'

theorem fieldAlike_refl (p : Place) (name : String) (d : Document) : p.FieldAlike name d d :=
  fun _ _ => rfl

section Fields

variable {names : List String} {fields fields' : Members Document} {β : Type}
  {read : Document → Option β} {default : β}

private theorem required_scalar
    (h : ∀ name ∈ names, Option.Rel (p.FieldAlike name) (fields name) (fields' name))
    (name : String) (hname : name ∈ names) (hscalar : p.fields.lookup name = some .scalar) :
    fields.required name read = fields'.required name read :=
  Members.required_congr (h name hname) fun _ _ hd => congrArg read (hd .scalar hscalar)

private theorem withDefault_scalar
    (h : ∀ name ∈ names, Option.Rel (p.FieldAlike name) (fields name) (fields' name))
    (name : String) (hname : name ∈ names) (hscalar : p.fields.lookup name = some .scalar) :
    fields.withDefault name default read = fields'.withDefault name default read :=
  Members.withDefault_congr (h name hname) fun _ _ hd => congrArg read (hd .scalar hscalar)

/-- A field is read the same if its reader cannot tell more than the reader of its place. -/
theorem withDefault_alike
    (h : ∀ name ∈ names, Option.Rel (p.FieldAlike name) (fields name) (fields' name))
    (name : String) (q : Place) (read : Document → Option β) (hname : name ∈ names)
    (hq : p.fields.lookup name = some q) (hread : ∀ d d', q.read d = q.read d' → read d = read d') :
    fields.withDefault name default read = fields'.withDefault name default read :=
  Members.withDefault_congr (h name hname) fun d d' hd => hread d d' (hd q hq)

end Fields

/-! ### Structures

All structures but nodes and entries are read alike: their fields are found first, and then
each field is read by itself.
-/

theorem read_structure (hnode : p ≠ .node) (hentry : p ≠ .entry) (hfields : p.fields ≠ [])
    {d d' : Document} (h : Members.Alike p.FieldAlike (p.fields.map Prod.fst)
      (d.fields? (p.fields.map Prod.fst)) (d'.fields? (p.fields.map Prod.fst))) :
    p.read d = p.read d' := by
  cases p with
  | order =>
      refine Members.bind_alike h fun fields fields' _ hf => ?_
      simp only [required_scalar hf "name" (by decide) rfl,
        withDefault_scalar hf "direction" (by decide) rfl]
  | query =>
      refine Members.bind_alike h fun fields fields' _ hf => ?_
      simp only [withDefault_alike hf "filter" .node (Document.nullable? Query.readTree) (by decide)
          rfl fun _ _ hd => congrArg Prod.fst hd,
        withDefault_alike hf "orders" .orders (Document.list? OrderSpec.ofDocument?) (by decide) rfl
          fun _ _ hd => hd]
  | column =>
      refine Members.bind_alike h fun fields fields' _ hf => ?_
      simp only [required_scalar hf "name" (by decide) rfl,
        required_scalar hf "type" (by decide) rfl]
  | relationship =>
      refine Members.bind_alike h fun fields fields' _ hf => ?_
      simp only [required_scalar hf "name" (by decide) rfl,
        required_scalar hf "target" (by decide) rfl, required_scalar hf "kind" (by decide) rfl,
        required_scalar hf "local_column" (by decide) rfl,
        required_scalar hf "remote_column" (by decide) rfl]
  | entity =>
      refine Members.bind_alike h fun fields fields' _ hf => ?_
      simp only [required_scalar hf "name" (by decide) rfl,
        required_scalar hf "table" (by decide) rfl,
        withDefault_alike hf "columns" .columns (Document.list? Column.ofDocument?) (by decide) rfl
          fun _ _ hd => hd,
        withDefault_alike hf "relationships" .relationships
          (Document.list? Relationship.ofDocument?) (by decide) rfl fun _ _ hd => hd]
  | schemaFile =>
      refine Members.bind_alike h fun fields fields' _ hf => ?_
      simp only [withDefault_alike hf "entities" .entities (Document.list? Entity.ofDocument?)
        (by decide) rfl fun _ _ hd => hd]
  | bindingFile =>
      refine Members.bind_alike h fun fields fields' _ hf => ?_
      simp only [withDefault_scalar hf "for" (by decide) rfl,
        withDefault_alike hf "binding" .bindings Bindings.ofDocument? (by decide) rfl
          fun _ _ hd => hd,
        withDefault_scalar hf "filters" (by decide) rfl,
        withDefault_scalar hf "default_filter" (by decide) rfl,
        withDefault_scalar hf "backend" (by decide) rfl]
  | node => exact absurd rfl hnode
  | entry => exact absurd rfl hentry
  | _ => exact absurd rfl hfields

theorem read_entry
    (h : Members.Alike Place.entry.FieldAlike ["param", "join"]
      (Members.ofObject? ["param", "join"] members)
      (Members.ofObject? ["param", "join"] members'))
    (hmeaningful : (Document.object members).isMeaningful =
      (Document.object members').isMeaningful) :
    Place.entry.read (.object members) = Place.entry.read (.object members') := by
  show BindingEntry.ofDocument? _ = BindingEntry.ofDocument? _
  rw [BindingEntry.ofDocument?, BindingEntry.ofDocument?, hmeaningful]
  split
  · refine Members.bind_alike h fun fields fields' _ hf => ?_
    simp only [required_scalar hf "param" (by decide) rfl,
      withDefault_alike hf "join" .path BindingEntry.readPath (by decide) rfl fun _ _ hd => hd]
  · rfl

/-! ### Nodes

Which fields a node has depends on what is read for its kind, so the kind is found first and
the others after it.  A node inside another one may name its kind in one more way, so its tree
is looked at in both positions.
-/

/-- Nodes are read alike if they are the same tree wherever they stand. -/
theorem read_node_of_tree {d d' : Document} (hd : d ≠ .null) (hd' : d' ≠ .null)
    (hmeaningful : d.isMeaningful = d'.isMeaningful)
    (hread : ∀ isInner, FilterTree.ofDocument? isInner d = FilterTree.ofDocument? isInner d') :
    Place.node.read d = Place.node.read d' := by
  have hnullable : ∀ d : Document, d ≠ .null →
      d.nullable? Query.readTree = (Query.readTree d).map some := by
    intro d hd
    cases d with
    | null => exact absurd rfl hd
    | _ => rfl
  have hroot : d.nullable? Query.readTree = d'.nullable? Query.readTree := by
    rw [hnullable d hd, hnullable d' hd', Query.readTree, Query.readTree, hmeaningful, hread false]
  exact Prod.ext hroot (funext hread)

private theorem partsOf_alike {fields fields' : Members Document} {name : String}
    (h : Option.Rel (Place.node.FieldAlike name) (fields name) (fields' name)) :
    Option.Rel
      (fun part part' => Place.node.FieldAlike name part.1 part'.1 ∧
        (Place.node.fields.lookup name = some .node → part.2 = part'.2))
      (FilterTree.partsOf fields name) (FilterTree.partsOf fields' name) := by
  unfold FilterTree.partsOf
  generalize fields name = d at h ⊢
  generalize fields' name = d' at h ⊢
  cases h with
  | none => exact .none
  | some hd =>
      refine .some ⟨hd, fun hnode => ?_⟩
      exact congrFun (congrArg Prod.snd (hd .node hnode)) true

/-- Nodes of one kind whose fields are alike are the same. -/
theorem ofFields?_congr {kind : FilterTree.Kind} {fields fields' : Members Document}
    (h : ∀ name ∈ kind.fields,
      Option.Rel (Place.node.FieldAlike name) (fields name) (fields' name)) :
    FilterTree.ofFields? kind (FilterTree.partsOf fields) =
      FilterTree.ofFields? kind (FilterTree.partsOf fields') := by
  have hstring : ∀ name ∈ kind.fields, Place.node.fields.lookup name = some .scalar →
      (FilterTree.partsOf fields).required name (fun part => part.1.string?) =
        (FilterTree.partsOf fields').required name fun part => part.1.string? := by
    intro name hname hscalar
    exact Members.required_congr (partsOf_alike (h name hname)) fun part part' hpart =>
      congrArg Document.string? (hpart.1 .scalar hscalar)
  have hnode : ∀ name ∈ kind.fields, Place.node.fields.lookup name = some .node →
      (FilterTree.partsOf fields).required name Prod.snd =
        (FilterTree.partsOf fields').required name Prod.snd := by
    intro name hname hnode
    exact Members.required_congr (partsOf_alike (h name hname)) fun part part' hpart =>
      hpart.2 hnode
  cases kind with
  | param =>
      have hfilter : (FilterTree.partsOf fields).withDefault "filter" none
          (fun part => part.1.nullable? Document.string?) =
            (FilterTree.partsOf fields').withDefault "filter" none
              fun part => part.1.nullable? Document.string? :=
        Members.withDefault_congr (partsOf_alike (h "filter" (by decide))) fun part part' hpart =>
          congrArg (Document.nullable? Document.string?) (hpart.1 .scalar rfl)
      have hvalue : (FilterTree.partsOf fields).withDefault "value" .null
          (fun part => part.1.value?) =
            (FilterTree.partsOf fields').withDefault "value" .null fun part => part.1.value? :=
        Members.withDefault_congr (partsOf_alike (h "value" (by decide))) fun part part' hpart =>
          hpart.1 .value rfl
      simp only [FilterTree.ofFields?, hstring "name" (by decide) rfl, hfilter, hvalue]
  | and =>
      simp only [FilterTree.ofFields?, hnode "left" (by decide) rfl, hnode "right" (by decide) rfl]
  | or =>
      simp only [FilterTree.ofFields?, hnode "left" (by decide) rfl, hnode "right" (by decide) rfl]
  | not => simp only [FilterTree.ofFields?, hnode "inner" (by decide) rfl]
  | binding =>
      simp only [FilterTree.ofFields?, hstring "operator" (by decide) rfl,
        hnode "left" (by decide) rfl, hnode "right" (by decide) rfl]

theorem read_node
    (htype : Members.Alike Place.node.FieldAlike ["type"] (Members.ofObject? ["type"] members)
      (Members.ofObject? ["type"] members'))
    (hkind : ∀ d, members.lookup (some "type") = some d → ∀ isInner kind,
      FilterTree.Kind.ofDocument? isInner d = some kind →
        Members.Alike Place.node.FieldAlike ("type" :: kind.fields)
          (Members.ofObject? ("type" :: kind.fields) members)
          (Members.ofObject? ("type" :: kind.fields) members'))
    (hmeaningful : (Document.object members).isMeaningful =
      (Document.object members').isMeaningful) :
    Place.node.read (.object members) = Place.node.read (.object members') := by
  have hread : ∀ isInner, FilterTree.ofDocument? isInner (.object members) =
      FilterTree.ofDocument? isInner (.object members') := by
    intro isInner
    rw [FilterTree.ofDocument?_object, FilterTree.ofDocument?_object]
    refine Members.bind_alike htype fun marked marked' hmarked hf => ?_
    rw [← required_scalar hf "type" (by decide) rfl]
    cases hmark : marked.required "type" (FilterTree.Kind.ofDocument? isInner) with
    | none => rfl
    | some kind =>
        obtain ⟨d, hd, hk⟩ := Option.bind_eq_some_iff.mp hmark
        rw [Members.lookup_of_ofObject? hmarked] at hd
        refine Members.bind_alike (hkind d hd isInner kind hk) fun fields fields' _ hfields => ?_
        exact ofFields?_congr fun name hname => hfields name (List.mem_cons_of_mem _ hname)
  exact read_node_of_tree (by simp) (by simp) hmeaningful hread

/-- Objects whose fields are alike, whichever they are, are read alike. -/
theorem read_object (hfields : p.fields ≠ [])
    (h : ∀ names, Members.Alike p.FieldAlike names (Members.ofObject? names members)
      (Members.ofObject? names members'))
    (hmeaningful : (Document.object members).isMeaningful =
      (Document.object members').isMeaningful) :
    p.read (.object members) = p.read (.object members') := by
  by_cases hnode : p = .node
  · subst hnode
    exact read_node (h _) (fun _ _ _ _ _ => h _) hmeaningful
  · by_cases hentry : p = .entry
    · subst hentry
      exact read_entry (h _) hmeaningful
    · exact read_structure hnode hentry hfields (h _)

end Place

end FilterSelect
