/-
Queries as they are written.

A query has a written form, a JSON value, and reading it gives back the query: a tree of any
shape with any values, and any orders.  A node can also be written as the array of its kind and
its fields; that form is read back as well.

Values list the members of their objects by key, as all values do that come out of a document.
A tree of such values is `Canonical`, and so is every tree that is read.
-/
import FilterSelect.Proofs.Json.Written
import FilterSelect.Query.Json

namespace FilterSelect

open Json (Document Members)

namespace FilterTree

/-! ### Trees of canonical values -/

/-- All values of a tree are canonical. -/
def Canonical (tree : FilterTree) : Prop :=
  ∀ l ∈ tree.leaves, l.value.Canonical

private theorem canonical_leaf {l : Leaf} (h : l.value.Canonical) : (leaf l).Canonical := by
  intro l' hl'
  rcases List.mem_singleton.mp hl' with rfl
  exact h

-- The leaves of two trees under any operator are those of the trees under `and`.

theorem Canonical.left {left right : FilterTree} (h : (and left right).Canonical) :
    left.Canonical :=
  fun l hl => h l (List.mem_append_left _ hl)

theorem Canonical.right {left right : FilterTree} (h : (and left right).Canonical) :
    right.Canonical :=
  fun l hl => h l (List.mem_append_right _ hl)

theorem Canonical.and {left right : FilterTree} (hl : left.Canonical) (hr : right.Canonical) :
    (FilterTree.and left right).Canonical := by
  intro l hmem
  rcases List.mem_append.mp hmem with h | h
  · exact hl l h
  · exact hr l h

/-! ### Nodes by the documents of their fields

The reader goes through the members once and keeps of each its document and the tree that it
is.  So which members are nodes need not be known before the kind is.
-/

theorem Kind.ofDocument?_name (isInner : Bool) (kind : Kind) :
    ofDocument? isInner (.string kind.name) = some kind := by
  cases kind <;> rfl

theorem Kind.ofDocument?_inner {isInner : Bool} {d : Document} {kind : Kind}
    (h : ofDocument? isInner d = some kind) : ofDocument? true d = some kind := by
  unfold ofDocument? at h ⊢
  split at h
  · exact h
  · split at h
    · rename_i hinner
      simpa [hinner.2] using h
    · cases h
  · cases h

private theorem memberParts_eq (members : List (Option String × Document)) :
    memberParts members =
      members.map fun member => (member.1, (member.2, ofDocument? true member.2)) := by
  induction members with
  | nil => rfl
  | cons member rest ih =>
      obtain ⟨key, d⟩ := member
      rw [memberParts, ih, List.map_cons]

private theorem itemParts_eq (items : List Document) :
    itemParts items = items.map fun item => (item, ofDocument? true item) := by
  induction items with
  | nil => rfl
  | cons item rest ih => rw [itemParts, ih, List.map_cons]

/-- The parts of a node by their names, each with the tree that it is if it is a node. -/
def partsOf (fields : Members Document) : Members Part :=
  fun name => (fields name).map fun d => (d, ofDocument? true d)

private theorem ofObject?_memberParts (names : List String)
    (members : List (Option String × Document)) :
    Members.ofObject? names (memberParts members) =
      (Members.ofObject? names members).map partsOf := by
  have hkeys : (memberParts members).map Prod.fst = members.map Prod.fst := by
    rw [memberParts_eq, List.map_map]
    rfl
  by_cases h : Members.OneOfEach names (members.map Prod.fst)
  · rw [Members.ofObject?_of_oneOfEach h, Members.ofObject?_of_oneOfEach (hkeys ▸ h),
      Option.map_some, memberParts_eq]
    refine congrArg some (funext fun name => ?_)
    exact Document.lookup_map Function.injective_id (fun d => (d, ofDocument? true d)) members
      (some name)
  · rw [Members.ofObject?_eq_none h, Members.ofObject?_eq_none (hkeys ▸ h), Option.map_none]

private theorem ofArray?_itemParts (names : List String) (items : List Document) :
    Members.ofArray? names (itemParts items) = (Members.ofArray? names items).map partsOf := by
  rw [itemParts_eq, Members.ofArray?, Members.ofArray?, List.length_map]
  split
  · refine congrArg some (funext fun name => ?_)
    rw [List.zip_map_right]
    exact Document.lookup_map Function.injective_id (fun d => (d, ofDocument? true d)) _ name
  · rfl

theorem ofDocument?_object (isInner : Bool) (members : List (Option String × Document)) :
    ofDocument? isInner (.object members) =
      (Members.ofObject? ["type"] members).bind fun marked =>
        (marked.required "type" (Kind.ofDocument? isInner)).bind fun kind =>
          (Members.ofObject? ("type" :: kind.fields) members).bind fun fields =>
            ofFields? kind (partsOf fields) := by
  have hmarked : ∀ marked : Members Document,
      (partsOf marked).required "type" (fun part => Kind.ofDocument? isInner part.1) =
        marked.required "type" (Kind.ofDocument? isInner) := by
    intro marked
    rw [Members.required, Members.required, partsOf, Option.bind_map]
    rfl
  rw [ofDocument?, ofMembers?]
  simp only [ofObject?_memberParts, bind, Option.bind_map, Function.comp_def, hmarked]

/-- The node of an array, by the documents of its fields. -/
theorem ofDocument?_array (isInner : Bool) (head : Document) (items : List Document) :
    ofDocument? isInner (.array (head :: items)) =
      (Kind.ofDocument? isInner head).bind fun kind =>
        (Members.ofArray? kind.fields items).bind fun fields =>
          ofFields? kind (partsOf fields) := by
  rw [ofDocument?, itemParts, ofItems?]
  simp only [ofArray?_itemParts, bind, Option.bind_map, Function.comp_def]

private theorem ofDocument?_ofValue_object {members : List (String × Json)} {kind : Kind}
    (hkeys : (members.map Prod.fst).Nodup)
    (htype : members.lookup "type" = some (.string kind.name)) (isInner : Bool) :
    ofDocument? isInner (.ofValue (.object members)) =
      ofFields? kind (partsOf fun name => (members.lookup name).map .ofValue) := by
  have hkind : Kind.ofDocument? isInner (.ofValue (.string kind.name)) = some kind :=
    Kind.ofDocument?_name isInner kind
  rw [Document.ofValue_object, ofDocument?_object]
  simp only [Document.ofObject?_map Document.ofValue hkeys, Option.bind_some, Members.required,
    htype, Option.map_some, hkind]

private theorem ofDocument?_ofValue_array {values : List Json} {kind : Kind}
    (hlength : values.length ≤ kind.fields.length) (isInner : Bool) :
    ofDocument? isInner (.ofValue (.array (.string kind.name :: values))) =
      ofFields? kind (partsOf fun name => ((kind.fields.zip values).lookup name).map .ofValue) := by
  have hlookup : ∀ name, (kind.fields.zip (values.map Document.ofValue)).lookup name =
      ((kind.fields.zip values).lookup name).map .ofValue := by
    intro name
    rw [List.zip_map_right]
    exact Document.lookup_map Function.injective_id Document.ofValue _ name
  have hwritten : (values.map Document.ofValue).length ≤ kind.fields.length := by
    rwa [List.length_map]
  rw [Document.ofValue_array, List.map_cons, Document.ofValue, ofDocument?_array]
  simp only [Kind.ofDocument?_name, Members.ofArray?, if_pos hwritten, Option.bind_some, hlookup]

/-! ### Written trees -/

/-- The written form of a tree in arrays: each node is its kind and its fields in order. -/
def toArrays : FilterTree → Json
  | .leaf l =>
    .array [.string Kind.param.name, .string l.name, (l.filter.map Json.string).getD .null, l.value]
  | .and left right => .array [.string Kind.and.name, left.toArrays, right.toArrays]
  | .or left right => .array [.string Kind.or.name, left.toArrays, right.toArrays]
  | .not inner => .array [.string Kind.not.name, inner.toArrays]
  | .binding operator left right =>
    .array [.string Kind.binding.name, .string operator, left.toArrays, right.toArrays]

/-- A written tree is read back, as a node by itself or inside another one. -/
theorem ofDocument?_toJson {tree : FilterTree} (h : tree.Canonical) (isInner : Bool) :
    ofDocument? isInner (.ofValue tree.toJson) = some tree := by
  induction tree generalizing isInner with
  | leaf l =>
      have hvalue := Document.value?_ofValue (h l (List.mem_singleton_self l))
      have hfilter := Document.nullable?_string l.filter
      rw [toJson, ofDocument?_ofValue_object (by simp) rfl]
      simp [ofFields?, Members.required, Members.withDefault_eq_elim, partsOf, hvalue, hfilter]
  | not inner ih =>
      rw [toJson, ofDocument?_ofValue_object (by simp) rfl]
      simp [ofFields?, Members.required, partsOf, ih h]
  | and left right ihleft ihright | or left right ihleft ihright =>
      rw [toJson, ofDocument?_ofValue_object (by simp) rfl]
      simp [ofFields?, Members.required, partsOf, ihleft h.left, ihright h.right]
  | binding operator left right ihleft ihright =>
      rw [toJson, ofDocument?_ofValue_object (by simp) rfl]
      simp [ofFields?, Members.required, partsOf, ihleft h.left, ihright h.right]

/-- A tree written in arrays is read back. -/
theorem ofDocument?_toArrays {tree : FilterTree} (h : tree.Canonical) (isInner : Bool) :
    ofDocument? isInner (.ofValue tree.toArrays) = some tree := by
  induction tree generalizing isInner with
  | leaf l =>
      have hvalue := Document.value?_ofValue (h l (List.mem_singleton_self l))
      have hfilter := Document.nullable?_string l.filter
      rw [toArrays, ofDocument?_ofValue_array (by simp [Kind.fields])]
      simp [Kind.fields, ofFields?, Members.required, Members.withDefault_eq_elim, partsOf, hvalue,
        hfilter]
  | not inner ih =>
      rw [toArrays, ofDocument?_ofValue_array (by simp [Kind.fields])]
      simp [Kind.fields, ofFields?, Members.required, partsOf, ih h]
  | and left right ihleft ihright | or left right ihleft ihright =>
      rw [toArrays, ofDocument?_ofValue_array (by simp [Kind.fields])]
      simp [Kind.fields, ofFields?, Members.required, partsOf, ihleft h.left, ihright h.right]
  | binding operator left right ihleft ihright =>
      rw [toArrays, ofDocument?_ofValue_array (by simp [Kind.fields])]
      simp [Kind.fields, ofFields?, Members.required, partsOf, ihleft h.left, ihright h.right]

/-! ### Trees that are read

The value of a leaf is denoted by a document, so it is canonical, and a tree has no other
values than those of its leaves.
-/

theorem canonical_of_ofFields? {kind : Kind} {fields : Members Part} {tree : FilterTree}
    (hfields : ∀ name part, fields name = some part → ∀ tree ∈ part.2, tree.Canonical)
    (h : ofFields? kind fields = some tree) : tree.Canonical := by
  have hnode : ∀ {name inner}, fields.required name Prod.snd = some inner → inner.Canonical := by
    intro name inner hinner
    obtain ⟨part, hpart, htree⟩ := Option.bind_eq_some_iff.mp hinner
    exact hfields name part hpart inner htree
  cases kind with
  | param =>
      simp only [ofFields?, bind, Option.bind_eq_some_iff, Option.some.injEq] at h
      obtain ⟨name, -, filter, -, value, hvalue, rfl⟩ := h
      refine canonical_leaf ?_
      show value.Canonical
      unfold Members.withDefault at hvalue
      split at hvalue
      · exact Document.canonical_of_value? hvalue
      · cases hvalue
        exact .null
  | not =>
      simp only [ofFields?, bind, Option.bind_eq_some_iff, Option.some.injEq] at h
      obtain ⟨inner, hinner, rfl⟩ := h
      exact fun l hl => hnode hinner l hl
  | and | or =>
      simp only [ofFields?, bind, Option.bind_eq_some_iff, Option.some.injEq] at h
      obtain ⟨left, hleft, right, hright, rfl⟩ := h
      exact (hnode hleft).and (hnode hright)
  | binding =>
      simp only [ofFields?, bind, Option.bind_eq_some_iff, Option.some.injEq] at h
      obtain ⟨operator, -, left, hleft, right, hright, rfl⟩ := h
      exact (hnode hleft).and (hnode hright)

theorem canonical_of_ofMembers? {isInner : Bool} {members : List (Option String × Part)}
    {tree : FilterTree} (hparts : ∀ member ∈ members, ∀ tree ∈ member.2.2, tree.Canonical)
    (h : ofMembers? isInner members = some tree) : tree.Canonical := by
  simp only [ofMembers?, bind, Option.bind_eq_some_iff] at h
  obtain ⟨marked, -, kind, -, fields, hfields, htree⟩ := h
  refine canonical_of_ofFields? (fun name part hpart => ?_) htree
  rw [Members.lookup_of_ofObject? hfields] at hpart
  exact hparts _ (Members.mem_of_lookup hpart)

theorem canonical_of_ofItems? {isInner : Bool} {items : List Part} {tree : FilterTree}
    (hparts : ∀ part ∈ items, ∀ tree ∈ part.2, tree.Canonical)
    (h : ofItems? isInner items = some tree) : tree.Canonical := by
  cases items with
  | nil => cases h
  | cons head rest =>
      simp only [ofItems?, bind, Option.bind_eq_some_iff] at h
      obtain ⟨kind, -, fields, hfields, htree⟩ := h
      refine canonical_of_ofFields? (fun name part hpart => ?_) htree
      unfold Members.ofArray? at hfields
      split at hfields <;> cases hfields
      exact hparts part (List.mem_cons_of_mem _ (List.of_mem_zip (Members.mem_of_lookup hpart)).2)

mutual

/-- Trees that are read are canonical. -/
theorem canonical_of_ofDocument? {isInner : Bool} {d : Document} {tree : FilterTree}
    (h : ofDocument? isInner d = some tree) : tree.Canonical := by
  cases d with
  | array items => exact canonical_of_ofItems? (canonical_itemParts items) h
  | object members => exact canonical_of_ofMembers? (canonical_memberParts members) h
  | _ => cases h

theorem canonical_itemParts (items : List Document) :
    ∀ part ∈ itemParts items, ∀ tree ∈ part.2, tree.Canonical := by
  cases items with
  | nil => simp [itemParts]
  | cons item rest =>
      rw [itemParts, List.forall_mem_cons]
      exact ⟨fun tree h => canonical_of_ofDocument? h, canonical_itemParts rest⟩

theorem canonical_memberParts (members : List (Option String × Document)) :
    ∀ member ∈ memberParts members, ∀ tree ∈ member.2.2, tree.Canonical := by
  cases members with
  | nil => simp [memberParts]
  | cons member rest =>
      obtain ⟨key, d⟩ := member
      rw [memberParts, List.forall_mem_cons]
      exact ⟨fun tree h => canonical_of_ofDocument? h, canonical_memberParts rest⟩

end

end FilterTree

/-! ### Queries -/

theorem OrderSpec.ofDocument?_toJson (o : OrderSpec) :
    ofDocument? (.ofValue o.toJson) = some o := by
  obtain ⟨name, direction⟩ := o
  cases direction <;> rfl

namespace Query

/-- All values of a query are canonical. -/
def Canonical (q : Query) : Prop :=
  ∀ tree ∈ q.filter, tree.Canonical

/-- The written form of a query whose filter is written in arrays. -/
def toArrays (q : Query) : Json :=
  .object [("filter", (q.filter.map FilterTree.toArrays).getD .null),
    ("orders", .array (q.orders.map OrderSpec.toJson))]

/-- A filter is read back from any written form of its tree. -/
theorem nullable?_readTree {write : FilterTree → Json} {filter : Option FilterTree}
    (hnull : ∀ tree, write tree ≠ .null)
    (h : ∀ tree ∈ filter, FilterTree.ofDocument? false (.ofValue (write tree)) = some tree) :
    (Document.ofValue ((filter.map write).getD .null)).nullable? readTree = some filter := by
  cases filter with
  | none => rfl
  | some tree =>
      have hread : readTree (.ofValue (write tree)) = some tree := by
        rw [readTree, if_pos (Document.isMeaningful_ofValue _)]
        exact h tree rfl
      rw [Option.map_some, Option.getD_some]
      cases hvalue : write tree with
      | null => exact absurd hvalue (hnull tree)
      | _ =>
          rw [hvalue] at hread
          exact congrArg (Option.map some) hread

/-- A query is read from the members for its filter and its orders. -/
theorem ofDocument?_written {filter : Json} {q : Query}
    (hfilter : (Document.ofValue filter).nullable? readTree = some q.filter) :
    ofDocument? (.ofValue (.object [("filter", filter),
      ("orders", .array (q.orders.map OrderSpec.toJson))])) = some q := by
  have horders := Document.list?_ofValue OrderSpec.ofDocument?_toJson q.orders
  rw [ofDocument?, Document.fields?_ofValue (by simp)]
  simp [Members.withDefault_eq_elim, hfilter, horders]

theorem ofDocument?_toJson {q : Query} (h : q.Canonical) :
    ofDocument? (.ofValue q.toJson) = some q := by
  refine ofDocument?_written (nullable?_readTree ?_ ?_)
  · intro tree
    cases tree <;> simp [FilterTree.toJson]
  · intro tree htree
    exact FilterTree.ofDocument?_toJson (h tree htree) false

theorem ofDocument?_toArrays {q : Query} (h : q.Canonical) :
    ofDocument? (.ofValue q.toArrays) = some q := by
  refine ofDocument?_written (nullable?_readTree ?_ ?_)
  · intro tree
    cases tree <;> simp [FilterTree.toArrays]
  · intro tree htree
    exact FilterTree.ofDocument?_toArrays (h tree htree) false

/-- Queries that are read are canonical. -/
theorem canonical_of_ofDocument? {d : Document} {q : Query} (h : ofDocument? d = some q) :
    q.Canonical := by
  simp only [ofDocument?, bind, Option.bind_eq_some_iff, Option.some.injEq] at h
  obtain ⟨fields, -, filter, hfilter, orders, -, rfl⟩ := h
  intro tree htree
  cases htree
  unfold Members.withDefault at hfilter
  split at hfilter
  · have hread := Document.read_of_nullable? hfilter
    unfold readTree at hread
    split at hread
    · exact FilterTree.canonical_of_ofDocument? hread
    · cases hread
  · cases hfilter

end Query

end FilterSelect
