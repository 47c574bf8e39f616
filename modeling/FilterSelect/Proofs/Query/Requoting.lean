/-
Queries that differ in how integers are written.

An integer can be the constant of a filter and nothing else in a query: kinds, names,
operators and directions are strings, and no digits are the name of one.  So two documents
that differ in integers only are read as trees of one shape, with the same names and
operators, and their orders are equal.
-/
import FilterSelect.Proofs.Json.Requoting
import FilterSelect.Query.Json

namespace FilterSelect

open Json (Document Members)

/-- The same value but for an integer that is a string; arrays and objects are not compared. -/
inductive Json.Requoted : Json → Json → Prop
  | same (v : Json) : Requoted v v
  | quoted {z : Int} {n : Json.Number} (hz : ¬ RoundsIntoRange z)
      (htoken : Document.ofText? (String.ofList (Text.signedDigits z)) = some (.number n)) :
      Requoted (.number n) (.string (String.ofList (Text.signedDigits z)))
  | array (items items' : List Json) : Requoted (.array items) (.array items')
  | object (members members' : List (String × Json)) :
      Requoted (.object members) (.object members')

/-- Trees of one shape, with the same names and operators, whose constants differ in quotes. -/
inductive FilterTree.Requoted : FilterTree → FilterTree → Prop
  | leaf (name : String) (filter : Option String) {v v' : Json} (h : v.Requoted v') :
      Requoted (.leaf ⟨name, filter, v⟩) (.leaf ⟨name, filter, v'⟩)
  | not {inner inner' : FilterTree} (h : Requoted inner inner') :
      Requoted (.not inner) (.not inner')
  | and {left left' right right' : FilterTree} (hleft : Requoted left left')
      (hright : Requoted right right') : Requoted (.and left right) (.and left' right')
  | or {left left' right right' : FilterTree} (hleft : Requoted left left')
      (hright : Requoted right right') : Requoted (.or left right) (.or left' right')
  | binding (operator : String) {left left' right right' : FilterTree}
      (hleft : Requoted left left') (hright : Requoted right right') :
      Requoted (.binding operator left right) (.binding operator left' right')

theorem FilterTree.Requoted.refl (tree : FilterTree) : tree.Requoted tree := by
  induction tree with
  | leaf l => exact .leaf l.name l.filter (.same l.value)
  | not inner ih => exact .not ih
  | and left right ihleft ihright => exact .and ihleft ihright
  | or left right ihleft ihright => exact .or ihleft ihright
  | binding operator left right ihleft ihright => exact .binding operator ihleft ihright

theorem FilterTree.Requoted.length_leaves {tree tree' : FilterTree} (h : tree.Requoted tree') :
    tree.leaves.length = tree'.leaves.length := by
  induction h with
  | leaf name filter hvalue => rfl
  | not hinner ih => exact ih
  | _ =>
      rename_i ihleft ihright
      simp only [leaves, List.length_append, ihleft, ihright]

/-! ### Fields of structures

Related documents have the same keys in the same places, so their fields have the same names,
and what is found under each is related.
-/

namespace Json.Members

variable {α β : Type} {R : α → α → Prop} {names : List String} {fields fields' : Members α}

private theorem lookup_related {κ : Type} [BEq κ] [LawfulBEq κ] {members members' : List (κ × α)}
    (hkeys : members.map Prod.fst = members'.map Prod.fst)
    (h : List.Forall₂ R (members.map Prod.snd) (members'.map Prod.snd)) (key : κ) :
    Option.Rel R (members.lookup key) (members'.lookup key) := by
  induction members generalizing members' with
  | nil =>
      cases members' with
      | nil => exact .none
      | cons member' rest' => cases hkeys
  | cons member rest ih =>
      cases members' with
      | nil => cases hkeys
      | cons member' rest' =>
          obtain ⟨k, a⟩ := member
          obtain ⟨k', a'⟩ := member'
          rw [List.map_cons, List.map_cons, List.cons.injEq] at hkeys
          obtain ⟨hkey, hkeys⟩ := hkeys
          obtain rfl : k = k' := hkey
          cases h with
          | cons ha hrest =>
              rw [List.lookup_cons, List.lookup_cons]
              split
              · exact .some ha
              · exact ih hkeys hrest

private theorem lookup_zip_related {items items' : List α} (h : List.Forall₂ R items items')
    (names : List String) (name : String) :
    Option.Rel R ((names.zip items).lookup name) ((names.zip items').lookup name) := by
  induction h generalizing names with
  | nil =>
      rw [List.zip_nil_right]
      exact .none
  | cons ha hrest ih =>
      cases names with
      | nil => exact .none
      | cons first names =>
          rw [List.zip_cons_cons, List.zip_cons_cons, List.lookup_cons, List.lookup_cons]
          split
          · exact .some ha
          · exact ih names

theorem ofObject?_related {members members' : List (Option String × α)}
    (hkeys : members.map Prod.fst = members'.map Prod.fst)
    (h : List.Forall₂ R (members.map Prod.snd) (members'.map Prod.snd))
    (hfields : ofObject? names members = some fields)
    (hfields' : ofObject? names members' = some fields') (name : String) :
    Option.Rel R (fields name) (fields' name) := by
  unfold ofObject? at hfields hfields'
  dsimp only at hfields hfields'
  split at hfields
  · split at hfields'
    · cases hfields
      cases hfields'
      exact lookup_related hkeys h (some name)
    · cases hfields'
  · cases hfields

theorem ofArray?_related {items items' : List α} (h : List.Forall₂ R items items')
    (hfields : ofArray? names items = some fields)
    (hfields' : ofArray? names items' = some fields') (name : String) :
    Option.Rel R (fields name) (fields' name) := by
  unfold ofArray? at hfields hfields'
  split at hfields
  · split at hfields'
    · cases hfields
      cases hfields'
      exact lookup_zip_related h names name
    · cases hfields'
  · cases hfields

variable {read read' : α → Option β} {name : String} {default b b' : β}

theorem required_related (h : ∀ name, Option.Rel R (fields name) (fields' name))
    (hb : fields.required name read = some b) (hb' : fields'.required name read' = some b') :
    ∃ a a', R a a' ∧ read a = some b ∧ read' a' = some b' := by
  unfold required at hb hb'
  obtain ⟨a, ha, hread⟩ := Option.bind_eq_some_iff.mp hb
  obtain ⟨a', ha', hread'⟩ := Option.bind_eq_some_iff.mp hb'
  have hrel := h name
  rw [ha, ha'] at hrel
  cases hrel with
  | some hrel => exact ⟨a, a', hrel, hread, hread'⟩

/-- A field that may be left out is left out in both structures, or read from related documents. -/
theorem withDefault_related (h : ∀ name, Option.Rel R (fields name) (fields' name))
    (hb : fields.withDefault name default read = some b)
    (hb' : fields'.withDefault name default read' = some b') :
    b = b' ∨ ∃ a a', R a a' ∧ read a = some b ∧ read' a' = some b' := by
  unfold withDefault at hb hb'
  have hrel := h name
  cases ha : fields name with
  | none =>
      rw [ha] at hb hrel
      cases ha' : fields' name with
      | none =>
          rw [ha'] at hb'
          cases hb
          cases hb'
          exact .inl rfl
      | some a' =>
          rw [ha'] at hrel
          cases hrel
  | some a =>
      rw [ha] at hb hrel
      cases ha' : fields' name with
      | none =>
          rw [ha'] at hrel
          cases hrel
      | some a' =>
          rw [ha'] at hb' hrel
          cases hrel with
          | some hrel => exact .inr ⟨a, a', hrel, hb, hb'⟩

end Json.Members

/-! ### Documents that are no nodes

Where no constant is read, a document that is an integer without quotes is refused, so two
related documents that are both read are equal.
-/

namespace Json.Document

variable {d d' : Document}

theorem Requoted.value (h : d.Requoted d') {v v' : Json} (hv : d.value? = some v)
    (hv' : d'.value? = some v') : v.Requoted v' := by
  cases h with
  | same =>
      cases hv.symm.trans hv'
      exact .same v
  | quoted hz htoken =>
      cases hv
      cases hv'
      exact .quoted hz htoken
  | silent s => cases hv
  | array hitems =>
      obtain ⟨items, -, rfl⟩ := Option.map_eq_some_iff.mp hv
      obtain ⟨items', -, rfl⟩ := Option.map_eq_some_iff.mp hv'
      exact .array _ _
  | object hkeys hmembers =>
      obtain ⟨members, -, rfl⟩ := Option.map_eq_some_iff.mp hv
      obtain ⟨members', -, rfl⟩ := Option.map_eq_some_iff.mp hv'
      exact .object _ _

/-- A string is no integer that was without quotes. -/
theorem Requoted.string_eq (h : d.Requoted d') {s s' : String} (hs : d.string? = some s)
    (hs' : d'.string? = some s') : s = s' := by
  cases h with
  | same =>
      cases hs.symm.trans hs'
      rfl
  | _ => cases hs

theorem Requoted.nullable_string_eq (h : d.Requoted d') {s s' : Option String}
    (hs : d.nullable? Document.string? = some s) (hs' : d'.nullable? Document.string? = some s') :
    s = s' := by
  cases h with
  | same =>
      cases hs.symm.trans hs'
      rfl
  | _ => cases hs

private theorem eq_of_name?_object {members : List (Option String × Document)} {s : String}
    (h : (object members).name? = some s) : members = [(some s, .null)] := by
  unfold name? at h
  split at h
  · rename_i heq
    cases heq
  · rename_i heq
    cases heq
    cases h
    rfl
  · cases h

theorem Requoted.name_eq (h : d.Requoted d') {s s' : String} (hs : d.name? = some s)
    (hs' : d'.name? = some s') : s = s' := by
  cases h with
  | same =>
      cases hs.symm.trans hs'
      rfl
  | object hkeys hmembers =>
      rw [eq_of_name?_object hs, eq_of_name?_object hs'] at hkeys
      cases hkeys
      rfl
  | _ => cases hs

end Json.Document

/-! ### Nodes

Both documents are read as nodes of one kind, because no digits are the name of a kind, and the
induction goes on with the parts that are nodes.
-/

namespace FilterTree

variable {d d' : Document} {isInner : Bool}

private theorem kind_name_ne (kind : Kind) (z : Int) :
    kind.name ≠ String.ofList (Text.signedDigits z) := by
  intro h
  have htoken := Json.Numeral.ofToken?_signedDigits z
  rw [← String.toList_ofList (l := Text.signedDigits z), ← h] at htoken
  cases kind <;> cases htoken

theorem kind_eq (h : d.Requoted d') {kind kind' : Kind}
    (hkind : Kind.ofDocument? isInner d = some kind)
    (hkind' : Kind.ofDocument? isInner d' = some kind') : kind = kind' := by
  cases h with
  | same =>
      cases hkind.symm.trans hkind'
      rfl
  | quoted hz htoken =>
      have hname := List.find?_some hkind'
      rw [beq_iff_eq] at hname
      exact absurd hname (kind_name_ne kind' _)
  | _ => cases hkind

/-- Parts of two nodes: related documents, which are related nodes if both are nodes. -/
structure PartRequoted (part part' : Part) : Prop where
  document : part.1.Requoted part'.1
  tree : ∀ tree tree', part.2 = some tree → part'.2 = some tree' → tree.Requoted tree'

/-- Nodes of one kind with related parts are related. -/
theorem ofFields?_requoted {kind : Kind} {fields fields' : Members Part}
    (h : ∀ name, Option.Rel PartRequoted (fields name) (fields' name)) {tree tree' : FilterTree}
    (htree : ofFields? kind fields = some tree) (htree' : ofFields? kind fields' = some tree') :
    tree.Requoted tree' := by
  have hnode : ∀ {name : String} {inner inner' : FilterTree},
      fields.required name Prod.snd = some inner → fields'.required name Prod.snd = some inner' →
      inner.Requoted inner' := by
    intro name inner inner' hinner hinner'
    obtain ⟨part, part', hpart, hread, hread'⟩ := Members.required_related h hinner hinner'
    exact hpart.tree _ _ hread hread'
  have hstring : ∀ {name s s' : String},
      (fields.required name fun part => part.1.string?) = some s →
      (fields'.required name fun part => part.1.string?) = some s' → s = s' := by
    intro name s s' hs hs'
    obtain ⟨part, part', hpart, hread, hread'⟩ := Members.required_related h hs hs'
    exact hpart.document.string_eq hread hread'
  cases kind with
  | param =>
      simp only [ofFields?, bind, Option.bind_eq_some_iff, Option.some.injEq] at htree htree'
      obtain ⟨name, hname, filter, hfilter, value, hvalue, rfl⟩ := htree
      obtain ⟨name', hname', filter', hfilter', value', hvalue', rfl⟩ := htree'
      obtain rfl := hstring hname hname'
      obtain rfl : filter = filter' := by
        rcases Members.withDefault_related h hfilter hfilter' with heq | ⟨part, part', hpart, hread,
          hread'⟩
        · exact heq
        · exact hpart.document.nullable_string_eq hread hread'
      refine .leaf name filter ?_
      rcases Members.withDefault_related h hvalue hvalue' with rfl | ⟨part, part', hpart, hread,
        hread'⟩
      · exact .same _
      · exact hpart.document.value hread hread'
  | and =>
      simp only [ofFields?, bind, Option.bind_eq_some_iff, Option.some.injEq] at htree htree'
      obtain ⟨left, hleft, right, hright, rfl⟩ := htree
      obtain ⟨left', hleft', right', hright', rfl⟩ := htree'
      exact .and (hnode hleft hleft') (hnode hright hright')
  | or =>
      simp only [ofFields?, bind, Option.bind_eq_some_iff, Option.some.injEq] at htree htree'
      obtain ⟨left, hleft, right, hright, rfl⟩ := htree
      obtain ⟨left', hleft', right', hright', rfl⟩ := htree'
      exact .or (hnode hleft hleft') (hnode hright hright')
  | not =>
      simp only [ofFields?, bind, Option.bind_eq_some_iff, Option.some.injEq] at htree htree'
      obtain ⟨inner, hinner, rfl⟩ := htree
      obtain ⟨inner', hinner', rfl⟩ := htree'
      exact .not (hnode hinner hinner')
  | binding =>
      simp only [ofFields?, bind, Option.bind_eq_some_iff, Option.some.injEq] at htree htree'
      obtain ⟨operator, hoperator, left, hleft, right, hright, rfl⟩ := htree
      obtain ⟨operator', hoperator', left', hleft', right', hright', rfl⟩ := htree'
      obtain rfl := hstring hoperator hoperator'
      exact .binding operator (hnode hleft hleft') (hnode hright hright')

theorem ofItems?_requoted {items items' : List Part} (h : List.Forall₂ PartRequoted items items')
    {tree tree' : FilterTree} (htree : ofItems? isInner items = some tree)
    (htree' : ofItems? isInner items' = some tree') : tree.Requoted tree' := by
  cases h with
  | nil => cases htree
  | cons hhead hrest =>
      simp only [ofItems?, bind, Option.bind_eq_some_iff] at htree htree'
      obtain ⟨kind, hkind, fields, hfields, htree⟩ := htree
      obtain ⟨kind', hkind', fields', hfields', htree'⟩ := htree'
      obtain rfl := kind_eq hhead.document hkind hkind'
      exact ofFields?_requoted (Members.ofArray?_related hrest hfields hfields') htree htree'

theorem ofMembers?_requoted {members members' : List (Option String × Part)}
    (hkeys : members.map Prod.fst = members'.map Prod.fst)
    (h : List.Forall₂ PartRequoted (members.map Prod.snd) (members'.map Prod.snd))
    {tree tree' : FilterTree} (htree : ofMembers? isInner members = some tree)
    (htree' : ofMembers? isInner members' = some tree') : tree.Requoted tree' := by
  simp only [ofMembers?, bind, Option.bind_eq_some_iff] at htree htree'
  obtain ⟨marked, hmarked, kind, hkind, fields, hfields, htree⟩ := htree
  obtain ⟨marked', hmarked', kind', hkind', fields', hfields', htree'⟩ := htree'
  obtain ⟨part, part', hpart, hread, hread'⟩ := Members.required_related
    (Members.ofObject?_related hkeys h hmarked hmarked') hkind hkind'
  obtain rfl := kind_eq hpart.document hread hread'
  exact ofFields?_requoted (Members.ofObject?_related hkeys h hfields hfields') htree htree'

mutual

/-- Documents that differ in how integers are written are trees that do. -/
theorem ofDocument?_requoted {d d' : Document} (h : d.Requoted d') {isInner : Bool}
    {tree tree' : FilterTree} (htree : ofDocument? isInner d = some tree)
    (htree' : ofDocument? isInner d' = some tree') : tree.Requoted tree' := by
  cases h with
  | same =>
      cases htree.symm.trans htree'
      exact .refl tree
  | quoted hz htoken => cases htree
  | silent s => cases htree
  | array hitems => exact ofItems?_requoted (itemParts_requoted hitems) htree htree'
  | object hkeys hmembers =>
      obtain ⟨hkeys, hparts⟩ := memberParts_requoted hkeys hmembers
      exact ofMembers?_requoted hkeys hparts htree htree'

theorem itemParts_requoted {items items' : List Document}
    (h : List.Forall₂ Document.Requoted items items') :
    List.Forall₂ PartRequoted (itemParts items) (itemParts items') := by
  cases h with
  | nil => exact .nil
  | cons hitem hrest =>
      exact .cons ⟨hitem, fun _ _ htree htree' => ofDocument?_requoted hitem htree htree'⟩
        (itemParts_requoted hrest)

theorem memberParts_requoted {members members' : List (Option String × Document)}
    (hkeys : members.map Prod.fst = members'.map Prod.fst)
    (h : List.Forall₂ Document.Requoted (members.map Prod.snd) (members'.map Prod.snd)) :
    (memberParts members).map Prod.fst = (memberParts members').map Prod.fst ∧
      List.Forall₂ PartRequoted ((memberParts members).map Prod.snd)
        ((memberParts members').map Prod.snd) := by
  cases members with
  | nil =>
      cases members' with
      | nil => exact ⟨rfl, .nil⟩
      | cons member' rest' => cases hkeys
  | cons member rest =>
      cases members' with
      | nil => cases hkeys
      | cons member' rest' =>
          obtain ⟨key, d⟩ := member
          obtain ⟨key', d'⟩ := member'
          rw [List.map_cons, List.map_cons, List.cons.injEq] at hkeys
          obtain ⟨hkey, hkeys⟩ := hkeys
          cases h with
          | cons hd hrest =>
              obtain ⟨hkeys', hparts⟩ := memberParts_requoted hkeys hrest
              rw [memberParts, memberParts, List.map_cons, List.map_cons, hkeys',
                show key = key' from hkey]
              exact ⟨rfl, .cons ⟨hd, fun _ _ htree htree' =>
                ofDocument?_requoted hd htree htree'⟩ hparts⟩

end

end FilterTree

/-! ### Orders and queries -/

theorem Json.Document.fields?_requoted {d d' : Document} (h : d.Requoted d') {names : List String}
    {fields fields' : Members Document} (hfields : d.fields? names = some fields)
    (hfields' : d'.fields? names = some fields') (name : String) :
    Option.Rel Document.Requoted (fields name) (fields' name) := by
  cases h with
  | same =>
      cases hfields.symm.trans hfields'
      cases fields name with
      | none => exact .none
      | some d => exact .some (.same d)
  | quoted hz htoken => cases hfields
  | silent s => cases hfields
  | array hitems => exact Members.ofArray?_related hitems hfields hfields' name
  | object hkeys hmembers => exact Members.ofObject?_related hkeys hmembers hfields hfields' name

namespace OrderSpec

/-- There is no integer in an order. -/
theorem ofDocument?_requoted {d d' : Document} (h : d.Requoted d') {order order' : OrderSpec}
    (horder : ofDocument? d = some order) (horder' : ofDocument? d' = some order') :
    order = order' := by
  simp only [ofDocument?, bind, Option.bind_eq_some_iff, Option.some.injEq] at horder horder'
  obtain ⟨fields, hfields, name, hname, direction, hdirection, rfl⟩ := horder
  obtain ⟨fields', hfields', name', hname', direction', hdirection', rfl⟩ := horder'
  have hrel := Document.fields?_requoted h hfields hfields'
  obtain ⟨a, a', ha, hread, hread'⟩ := Members.required_related hrel hname hname'
  obtain rfl := ha.string_eq hread hread'
  obtain rfl : direction = direction' := by
    rcases Members.withDefault_related hrel hdirection hdirection' with heq | ⟨b, b', hb, hread,
      hread'⟩
    · exact heq
    · obtain ⟨s, hs, hfind⟩ := Option.bind_eq_some_iff.mp hread
      obtain ⟨s', hs', hfind'⟩ := Option.bind_eq_some_iff.mp hread'
      obtain rfl := hb.name_eq hs hs'
      exact Option.some.inj (hfind.symm.trans hfind')
  rfl

theorem list_requoted {d d' : Document} (h : d.Requoted d') {orders orders' : List OrderSpec}
    (horders : d.list? ofDocument? = some orders)
    (horders' : d'.list? ofDocument? = some orders') : orders = orders' := by
  cases h with
  | same => exact Option.some.inj (horders.symm.trans horders')
  | array hitems =>
      have hmap : ∀ {items items' : List Document}, List.Forall₂ Document.Requoted items items' →
          ∀ {orders orders' : List OrderSpec}, items.mapM ofDocument? = some orders →
            items'.mapM ofDocument? = some orders' → orders = orders' := by
        intro items items' hitems
        induction hitems with
        | nil =>
            intro orders orders' horders horders'
            exact Option.some.inj (horders.symm.trans horders')
        | cons hitem hrest ih =>
            intro orders orders' horders horders'
            simp only [List.mapM_cons, bind, Option.bind_eq_some_iff] at horders horders'
            obtain ⟨order, horder, rest, hrest, horders⟩ := horders
            obtain ⟨order', horder', rest', hrest', horders'⟩ := horders'
            cases horders
            cases horders'
            rw [ofDocument?_requoted hitem horder horder', ih hrest hrest']
      exact hmap hitems horders horders'
  | _ => cases horders

end OrderSpec

namespace Query

/-- Queries with the same orders whose filters differ in how integers are written. -/
inductive Requoted : Query → Query → Prop
  | same (query : Query) : Requoted query query
  | filter {tree tree' : FilterTree} (h : tree.Requoted tree') (orders : List OrderSpec) :
      Requoted ⟨some tree, orders⟩ ⟨some tree', orders⟩

theorem readTree_requoted {d d' : Document} (h : d.Requoted d') {tree tree' : FilterTree}
    (htree : readTree d = some tree) (htree' : readTree d' = some tree') : tree.Requoted tree' := by
  unfold readTree at htree htree'
  split at htree
  · split at htree'
    · exact FilterTree.ofDocument?_requoted h htree htree'
    · cases htree'
  · cases htree

private theorem nullable_readTree {d : Document} (h : d ≠ .null) :
    d.nullable? readTree = (readTree d).map some := by
  cases d with
  | null => exact absurd rfl h
  | _ => rfl

/-- Documents that differ in how integers are written are queries that do. -/
theorem ofDocument?_requoted {d d' : Document} (h : d.Requoted d') {query query' : Query}
    (hquery : ofDocument? d = some query) (hquery' : ofDocument? d' = some query') :
    query.Requoted query' := by
  simp only [ofDocument?, bind, Option.bind_eq_some_iff, Option.some.injEq] at hquery hquery'
  obtain ⟨fields, hfields, filter, hfilter, orders, horders, rfl⟩ := hquery
  obtain ⟨fields', hfields', filter', hfilter', orders', horders', rfl⟩ := hquery'
  have hrel := Document.fields?_requoted h hfields hfields'
  obtain rfl : orders = orders' := by
    rcases Members.withDefault_related hrel horders horders' with heq | ⟨a, a', ha, hread, hread'⟩
    · exact heq
    · exact OrderSpec.list_requoted ha hread hread'
  rcases Members.withDefault_related hrel hfilter hfilter' with rfl | ⟨a, a', ha, hread, hread'⟩
  · exact .same _
  · by_cases hnull : a = .null
    · subst hnull
      cases ha with
      | same =>
          cases hread.symm.trans hread'
          exact .same _
    · have hnull' : a' ≠ .null := by
        rintro rfl
        cases ha with
        | same => exact hnull rfl
      rw [nullable_readTree hnull, Option.map_eq_some_iff] at hread
      rw [nullable_readTree hnull', Option.map_eq_some_iff] at hread'
      obtain ⟨tree, htree, rfl⟩ := hread
      obtain ⟨tree', htree', rfl⟩ := hread'
      exact .filter (readTree_requoted ha htree htree') orders

/-- Texts that differ in how integers are written are queries that do. -/
theorem ofText?_requoted {s s' : String} (h : Json.RequotedText s s') {query query' : Query}
    (hquery : (Document.ofText? s).bind ofDocument? = some query)
    (hquery' : (Document.ofText? s').bind ofDocument? = some query') : query.Requoted query' := by
  obtain ⟨d, hd, hread⟩ := Option.bind_eq_some_iff.mp hquery
  obtain ⟨d', hd', hread'⟩ := Option.bind_eq_some_iff.mp hquery'
  exact ofDocument?_requoted (Document.ofText?_requoted h hd hd') hread hread'

end Query

end FilterSelect
