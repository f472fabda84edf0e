import ArchGraph.Proofs.Integrity
import ArchGraph.Proofs.Multigraph
import ArchGraph.Proofs.Sorting

/-!
The export of a resolved project. Its nodes are those of the project, each with its type and what is
written of it (`attributesOf_ofResolved`), and two of them are related just where they are in the
project (`relationship?_ofResolved`). Since whatever the project refers to is in it, no edge adds a
node of its own (`mem_nodeIds_ofResolved`).
-/

namespace ArchGraph

namespace ResolvedGraph

/-- The identifiers of the nodes of a type. -/
def idsOf (r : ResolvedGraph) : NodeType → List String
  | .component => r.components.keys
  | .method => r.methods.keys
  | .endpoint => r.endpoints.keys
  | .externalCall => r.externalCalls.keys
  | .topic => r.topics.keys
  | .databaseTable => r.tables.keys

/-- What is written of a node of a type. -/
def described? (r : ResolvedGraph) (type : NodeType) (id : String) : Option Entries :=
  match type with
  | .component => (r.components.find? id).map ComponentNode.attributes
  | .method => (r.methods.find? id).map Graph.methodAttributes
  | .endpoint => (r.endpoints.find? id).map EndpointNode.attributes
  | .externalCall => (r.externalCalls.find? id).map ExternalCallNode.attributes
  | .topic => (r.topics.find? id).map TopicNode.attributes
  | .databaseTable => (r.tables.find? id).map TableNode.attributes

/-- What relates two nodes of a project. -/
def Related (r : ResolvedGraph) (type : EdgeType) (source target : String) : Prop :=
  match type with
  | .hasMethod => ∃ m, r.methods.find? target = some m ∧ m.componentId = source
  | .calls => ∃ m, r.methods.find? source = some m ∧ target ∈ m.calls
  | .handledBy => ∃ e, r.endpoints.find? source = some e ∧
      Text.given? e.handlerMethodId = some target
  | .externalCall => ∃ m, r.methods.find? source = some m ∧ target ∈ m.externalCallIds
  | .resolvesTo => ∃ c, r.externalCalls.find? source = some c ∧ c.resolved = true ∧
      Text.given? c.targetEndpointId = some target
  | .producesTo => ∃ m, r.methods.find? source = some m ∧ target ∈ m.producesTo
  | .consumesFrom => ∃ m, r.methods.find? source = some m ∧ target ∈ m.consumesFrom
  | .accesses => ∃ c, r.components.find? source = some c ∧ Text.given? c.tableId = some target

theorem described?_isSome (r : ResolvedGraph) (type : NodeType) (id : String) :
    (∃ entries, r.described? type id = some entries) ↔ id ∈ r.idsOf type := by
  cases type <;> simp [described?, idsOf, Table.mem_keys_iff]

variable {r : ResolvedGraph}

theorem Intact.marks (h : r.Intact) (type : NodeType) {id : String} (hid : id ∈ r.idsOf type) :
    type.Marks id := by
  cases type with
  | component =>
      obtain ⟨c, hc⟩ := Table.mem_keys_iff.mp hid
      rw [(h.components id c hc).named]
      exact Identifier.marks_component _
  | method =>
      obtain ⟨m, hm⟩ := Table.mem_keys_iff.mp hid
      exact (h.methods id m hm).marked
  | endpoint =>
      obtain ⟨e, he⟩ := Table.mem_keys_iff.mp hid
      exact (h.endpoints id e he).marked
  | externalCall =>
      obtain ⟨c, hc⟩ := Table.mem_keys_iff.mp hid
      exact (h.externalCalls id c hc).marked
  | topic =>
      obtain ⟨t, ht⟩ := Table.mem_keys_iff.mp hid
      exact h.topics id t ht
  | databaseTable =>
      obtain ⟨t, ht⟩ := Table.mem_keys_iff.mp hid
      exact h.tables id t ht

/-- No identifier belongs to two types. -/
theorem Intact.type_unique (h : r.Intact) {s t : NodeType} {id : String} (hs : id ∈ r.idsOf s)
    (ht : id ∈ r.idsOf t) : s = t := NodeType.eq_of_marks (h.marks s hs) (h.marks t ht)

theorem Intact.idsOf_nodup (h : r.Intact) (type : NodeType) : (r.idsOf type).Nodup := by
  cases type with
  | component => exact h.componentsOnce
  | method => exact h.methodsOnce
  | endpoint => exact h.endpointsOnce
  | externalCall => exact h.externalCallsOnce
  | topic => exact h.topicsOnce
  | databaseTable => exact h.tablesOnce

/-- Both ends of every relation are nodes of the project. -/
theorem Intact.ends_known (h : r.Intact) {type : EdgeType} {source target : String}
    (hr : r.Related type source target) :
    (∃ t, source ∈ r.idsOf t) ∧ ∃ t, target ∈ r.idsOf t := by
  cases type with
  | hasMethod =>
      obtain ⟨m, hm, rfl⟩ := hr
      exact ⟨⟨.component, (h.methods target m hm).owned⟩, .method, Table.mem_keys_of_find? hm⟩
  | calls =>
      obtain ⟨m, hm, ht⟩ := hr
      exact ⟨⟨.method, Table.mem_keys_of_find? hm⟩, .method,
        (h.methods source m hm).calls target ht⟩
  | handledBy =>
      obtain ⟨e, he, ht⟩ := hr
      obtain ⟨handler, hmem, heq⟩ := (h.endpoints source e he).handled
      rw [heq, (h.marks .method hmem).given] at ht
      obtain rfl := Option.some.inj ht
      exact ⟨⟨.endpoint, Table.mem_keys_of_find? he⟩, .method, hmem⟩
  | externalCall =>
      obtain ⟨m, hm, ht⟩ := hr
      obtain ⟨c, hc, _⟩ := ((h.callsOut source m hm).2 target).mp ht
      exact ⟨⟨.method, Table.mem_keys_of_find? hm⟩, .externalCall, Table.mem_keys_of_find? hc⟩
  | resolvesTo =>
      obtain ⟨c, hc, hresolved, ht⟩ := hr
      obtain ⟨endpoint, hmem, heq⟩ := (h.externalCalls source c hc).leads hresolved
      rw [heq, (h.marks .endpoint hmem).given] at ht
      obtain rfl := Option.some.inj ht
      exact ⟨⟨.externalCall, Table.mem_keys_of_find? hc⟩, .endpoint, hmem⟩
  | producesTo =>
      obtain ⟨m, hm, ht⟩ := hr
      exact ⟨⟨.method, Table.mem_keys_of_find? hm⟩, .topic,
        (h.methods source m hm).topics target (List.mem_append_left _ ht)⟩
  | consumesFrom =>
      obtain ⟨m, hm, ht⟩ := hr
      exact ⟨⟨.method, Table.mem_keys_of_find? hm⟩, .topic,
        (h.methods source m hm).topics target (List.mem_append_right _ ht)⟩
  | accesses =>
      obtain ⟨c, hc, ht⟩ := hr
      have hgiven : c.tableId = some target := Option.eq_some_of_filter_eq_some ht
      exact ⟨⟨.component, Table.mem_keys_of_find? hc⟩, .databaseTable,
        (h.components source c hc).table target hgiven⟩

end ResolvedGraph

namespace Graph

variable {g : Graph}

theorem code_injective {s t : EdgeType} (h : Coded.code s = Coded.code t) : s = t := by
  revert h
  cases s <;> cases t <;> decide

/-! ## Adding the nodes of a table -/

section

variable {α : Type} {t : Table String α}

theorem mem_inOrder {e : String × α} : e ∈ inOrder t ↔ t.find? e.1 = some e.2 := by
  unfold inOrder
  simp only [List.mem_filterMap, Text.mem_sorted, Option.map_eq_some_iff]
  constructor
  · rintro ⟨k, _, a, ha, rfl⟩
    exact ha
  · intro he
    exact ⟨e.1, Table.mem_keys_of_find? he, e.2, he, rfl⟩

theorem keys_inOrder (t : Table String α) : (inOrder t).map (·.1) = Text.sorted t.keys := by
  have run : ∀ ks : List String, (∀ k ∈ ks, k ∈ t.keys) →
      (ks.filterMap (fun k => (t.find? k).map (fun a => (k, a)))).map (·.1) = ks := by
    intro ks
    induction ks with
    | nil => exact fun _ => rfl
    | cons k ks ih =>
        intro hks
        obtain ⟨a, ha⟩ := Table.mem_keys_iff.mp (hks k List.mem_cons_self)
        rw [List.filterMap_cons, ha, Option.map_some]
        exact congrArg (k :: ·) (ih fun l hl => hks l (List.mem_cons_of_mem _ hl))
  exact run _ fun k hk => Text.mem_sorted.mp hk

theorem nodup_inOrder (h : t.Distinct) : ((inOrder t).map (·.1)).Nodup := by
  rw [keys_inOrder]
  exact (List.mergeSort_perm _ _).nodup_iff.mpr h

theorem lookup_inOrder (h : t.Distinct) (id : String) : (inOrder t).lookup id = t.find? id := by
  cases hfind : t.find? id with
  | some a => exact Table.find?_of_mem (t := ⟨inOrder t⟩) (nodup_inOrder h) (mem_inOrder.mpr hfind)
  | none =>
      apply Table.find?_eq_none_iff (t := ⟨inOrder t⟩).mpr
      intro hmem
      have hkey : id ∈ (inOrder t).map (·.1) := hmem
      rw [keys_inOrder, Text.mem_sorted] at hkey
      exact Table.find?_eq_none_iff.mp hfind hkey

theorem mem_nodeIds_addNodes (type : NodeType) (attributes : α → List (String × Json)) (g : Graph)
    (id : String) :
    id ∈ (addNodes type attributes t g).nodeIds ↔ id ∈ g.nodeIds ∨ id ∈ t.keys := by
  have run : ∀ (es : List (String × α)) (g : Graph),
      (es.foldl (fun g e => g.addNode e.1 (Coded.code type) (attributes e.2)) g).nodeIds =
        (es.map (·.1)).foldl addNew g.nodeIds := by
    intro es
    induction es with
    | nil => exact fun _ => rfl
    | cons e es ih =>
        intro g
        rw [List.foldl_cons, ih, addNode, nodeIds_mergeNode]
        rfl
  unfold addNodes
  rw [run, keys_inOrder, mem_foldl_addNew, Text.mem_sorted]

/-- A node gets its type and what is written of it. -/
theorem attributesOf_addNodes (h : t.Distinct) (type : NodeType)
    (attributes : α → List (String × Json)) (g : Graph) (id : String) :
    (addNodes type attributes t g).attributesOf id =
      (t.find? id).elim (g.attributesOf id) (fun a =>
        (g.attributesOf id).insertAll ((typeName, .str (Coded.code type)) :: attributes a)) := by
  have run : ∀ (es : List (String × α)), (es.map (·.1)).Nodup → ∀ g : Graph,
      (es.foldl (fun g e => g.addNode e.1 (Coded.code type) (attributes e.2)) g).attributesOf id =
        (es.lookup id).elim (g.attributesOf id) (fun a =>
          (g.attributesOf id).insertAll ((typeName, .str (Coded.code type)) :: attributes a)) := by
    intro es
    induction es with
    | nil => exact fun _ _ => rfl
    | cons e es ih =>
        intro hn g
        rw [List.map_cons, List.nodup_cons] at hn
        rw [List.foldl_cons, ih hn.2, addNode, attributesOf_mergeNode, List.lookup_cons]
        by_cases hid : id = e.1
        · have hrest : es.lookup id = none :=
            Table.find?_eq_none_iff (t := ⟨es⟩).mpr (hid ▸ hn.1)
          rw [hrest, ← hid]
          simp
        · have hb : (id == e.1) = false := by simpa using hid
          simp [hid, hb]
  unfold addNodes
  rw [run _ (nodup_inOrder h), lookup_inOrder h]

theorem relationship?_addNodes (type : NodeType) (attributes : α → List (String × Json))
    (g : Graph) (source target key : String) :
    (addNodes type attributes t g).relationship? source target key =
      g.relationship? source target key := by
  have run : ∀ (es : List (String × α)) (g : Graph),
      (es.foldl (fun g e => g.addNode e.1 (Coded.code type) (attributes e.2)) g).relationship?
        source target key = g.relationship? source target key := by
    intro es
    induction es with
    | nil => exact fun _ => rfl
    | cons e es ih =>
        intro g
        rw [List.foldl_cons, ih, addNode, relationship?_mergeNode]
  exact run _ g

end

/-! ## Adding edges -/

theorem attributesOf_addLinks (ls : List Link) (g : Graph) (id : String) :
    (ls.foldl addLink g).attributesOf id = g.attributesOf id := by
  induction ls generalizing g with
  | nil => rfl
  | cons l ls ih => rw [List.foldl_cons, ih, addLink, attributesOf_addEdge]

/-- Edges between nodes that are there add no node. -/
theorem nodeIds_addLinks (ls : List Link) (g : Graph)
    (h : ∀ l ∈ ls, l.source ∈ g.nodeIds ∧ l.target ∈ g.nodeIds) :
    (ls.foldl addLink g).nodeIds = g.nodeIds := by
  induction ls generalizing g with
  | nil => rfl
  | cons l ls ih =>
      obtain ⟨hsource, htarget⟩ := h l List.mem_cons_self
      have hstep : (addLink g l).nodeIds = g.nodeIds := by
        rw [addLink, nodeIds_addEdge]
        simp [addNew, hsource, htarget]
      rw [List.foldl_cons, ih _ fun k hk => hstep ▸ h k (List.mem_cons_of_mem _ hk), hstep]

theorem related_addLinks (ls : List Link) (g : Graph) (source target key : String) :
    ((ls.foldl addLink g).relationship? source target key).isSome = true ↔
      (g.relationship? source target key).isSome = true ∨
        ∃ l ∈ ls, l.source = source ∧ l.target = target ∧ Coded.code l.type = key := by
  induction ls generalizing g with
  | nil => simp
  | cons l ls ih =>
      rw [List.foldl_cons, ih, addLink, relationship?_addEdge]
      by_cases h : (source, target, key) = (l.source, l.target, Coded.code l.type)
      · obtain ⟨hsource, htyped⟩ := Prod.mk.inj h
        obtain ⟨htarget, hkey⟩ := Prod.mk.inj htyped
        simp [hsource, htarget, hkey]
      · have hl : ¬ (l.source = source ∧ l.target = target ∧ Coded.code l.type = key) := by
          rintro ⟨rfl, rfl, rfl⟩
          exact h rfl
        simp [h, hl]

/-! ## The exported graph -/

theorem mem_linksOf {α : Type} {links : String → α → List Link} {t : Table String α} {l : Link} :
    l ∈ linksOf links t ↔ ∃ id a, t.find? id = some a ∧ l ∈ links id a := by
  unfold linksOf
  simp only [List.mem_flatMap, mem_inOrder]
  constructor
  · rintro ⟨e, he, hl⟩
    exact ⟨e.1, e.2, he, hl⟩
  · rintro ⟨id, a, he, hl⟩
    exact ⟨(id, a), he, hl⟩

theorem mem_methodLinks {id : String} {m : MethodNode} {l : Link} :
    l ∈ methodLinks id m ↔ l = .plain .hasMethod m.componentId id ∨
      (∃ t ∈ m.calls, l = .plain .calls id t) ∨
      (∃ t ∈ m.externalCallIds, l = .plain .externalCall id t) ∨
      (∃ t ∈ m.producesTo, l = .plain .producesTo id t) ∨
      ∃ t ∈ m.consumesFrom, l = .plain .consumesFrom id t := by
  simp [methodLinks, eq_comm]

theorem mem_callLinks {id : String} {c : ExternalCallNode} {l : Link} :
    l ∈ callLinks id c ↔ c.resolved = true ∧ ∃ t, Text.given? c.targetEndpointId = some t ∧
      l = ⟨id, t, .resolvesTo, [("score", .int c.score)]⟩ := by
  unfold callLinks
  split <;> rename_i h <;> simp [h, eq_comm]

/-- An edge is added only for a relation of the project. -/
theorem related_of_mem_exportLinks {r : ResolvedGraph} {l : Link} (h : l ∈ exportLinks r) :
    r.Related l.type l.source l.target := by
  simp only [exportLinks, List.mem_append, mem_linksOf] at h
  rcases h with ((⟨id, c, hc, hl⟩ | ⟨id, m, hm, hl⟩) | ⟨id, e, he, hl⟩) | ⟨id, c, hc, hl⟩
  · obtain ⟨table, htable, rfl⟩ := List.mem_map.mp hl
    exact ⟨c, hc, Option.mem_toList.mp htable⟩
  · rcases mem_methodLinks.mp hl with
      rfl | ⟨t, ht, rfl⟩ | ⟨t, ht, rfl⟩ | ⟨t, ht, rfl⟩ | ⟨t, ht, rfl⟩
    · exact ⟨m, hm, rfl⟩
    · exact ⟨m, hm, ht⟩
    · exact ⟨m, hm, ht⟩
    · exact ⟨m, hm, ht⟩
    · exact ⟨m, hm, ht⟩
  · obtain ⟨handler, hhandler, rfl⟩ := List.mem_map.mp hl
    exact ⟨e, he, Option.mem_toList.mp hhandler⟩
  · obtain ⟨hresolved, t, ht, rfl⟩ := mem_callLinks.mp hl
    exact ⟨c, hc, hresolved, ht⟩

/-- Every relation of the project has an edge. -/
theorem exists_link {r : ResolvedGraph} {type : EdgeType} {source target : String}
    (h : r.Related type source target) :
    ∃ l ∈ exportLinks r, l.source = source ∧ l.target = target ∧ l.type = type := by
  simp only [exportLinks, List.mem_append, mem_linksOf]
  cases type with
  | hasMethod =>
      obtain ⟨m, hm, rfl⟩ := h
      exact ⟨.plain .hasMethod m.componentId target,
        .inl (.inl (.inr ⟨_, m, hm, mem_methodLinks.mpr (.inl rfl)⟩)), rfl, rfl, rfl⟩
  | calls =>
      obtain ⟨m, hm, ht⟩ := h
      exact ⟨.plain .calls source target, .inl (.inl (.inr ⟨_, m, hm,
        mem_methodLinks.mpr (.inr (.inl ⟨target, ht, rfl⟩))⟩)), rfl, rfl, rfl⟩
  | externalCall =>
      obtain ⟨m, hm, ht⟩ := h
      exact ⟨.plain .externalCall source target, .inl (.inl (.inr ⟨_, m, hm,
        mem_methodLinks.mpr (.inr (.inr (.inl ⟨target, ht, rfl⟩)))⟩)), rfl, rfl, rfl⟩
  | producesTo =>
      obtain ⟨m, hm, ht⟩ := h
      exact ⟨.plain .producesTo source target, .inl (.inl (.inr ⟨_, m, hm,
        mem_methodLinks.mpr (.inr (.inr (.inr (.inl ⟨target, ht, rfl⟩))))⟩)), rfl, rfl, rfl⟩
  | consumesFrom =>
      obtain ⟨m, hm, ht⟩ := h
      exact ⟨.plain .consumesFrom source target, .inl (.inl (.inr ⟨_, m, hm,
        mem_methodLinks.mpr (.inr (.inr (.inr (.inr ⟨target, ht, rfl⟩))))⟩)), rfl, rfl, rfl⟩
  | handledBy =>
      obtain ⟨e, he, ht⟩ := h
      exact ⟨.plain .handledBy source target, .inl (.inr ⟨_, e, he,
        List.mem_map_of_mem (Option.mem_toList.mpr ht)⟩), rfl, rfl, rfl⟩
  | resolvesTo =>
      obtain ⟨c, hc, hresolved, ht⟩ := h
      exact ⟨_, .inr ⟨_, c, hc, mem_callLinks.mpr ⟨hresolved, target, ht, rfl⟩⟩, rfl, rfl, rfl⟩
  | accesses =>
      obtain ⟨c, hc, ht⟩ := h
      exact ⟨.plain .accesses source target, .inl (.inl (.inl ⟨_, c, hc,
        List.mem_map_of_mem (Option.mem_toList.mpr ht)⟩)), rfl, rfl, rfl⟩

theorem relationship?_exportNodes (r : ResolvedGraph) (g : Graph) (source target key : String) :
    (exportNodes r g).relationship? source target key = g.relationship? source target key := by
  simp only [exportNodes, relationship?_addNodes]

/-- **Two nodes are related in the exported graph just where they are in the project.** -/
theorem relationship?_ofResolved (space : String) (r : ResolvedGraph) (type : EdgeType)
    (source target : String) :
    ((ofResolved space r).relationship? source target (Coded.code type)).isSome = true ↔
      r.Related type source target := by
  unfold ofResolved
  rw [related_addLinks, relationship?_exportNodes]
  constructor
  · rintro (h | ⟨l, hl, rfl, rfl, hcode⟩)
    · simp [relationship?] at h
    · obtain rfl := code_injective hcode
      exact related_of_mem_exportLinks hl
  · intro h
    obtain ⟨l, hl, hsource, htarget, rfl⟩ := exists_link h
    exact .inr ⟨l, hl, hsource, htarget, rfl⟩

theorem mem_nodeIds_exportNodes (r : ResolvedGraph) (space : String) (attributes : Attributes)
    (id : String) :
    id ∈ (exportNodes r ⟨space, attributes, ∅⟩).nodeIds ↔ ∃ type, id ∈ r.idsOf type := by
  have hnone : id ∉ (Graph.mk space attributes ∅).nodeIds := List.not_mem_nil
  simp only [exportNodes, mem_nodeIds_addNodes, hnone, false_or]
  constructor
  · rintro (((((h | h) | h) | h) | h) | h)
    · exact ⟨.component, h⟩
    · exact ⟨.databaseTable, h⟩
    · exact ⟨.method, h⟩
    · exact ⟨.endpoint, h⟩
    · exact ⟨.externalCall, h⟩
    · exact ⟨.topic, h⟩
  · rintro ⟨type, h⟩
    cases type with
    | component => exact .inl (.inl (.inl (.inl (.inl h))))
    | databaseTable => exact .inl (.inl (.inl (.inl (.inr h))))
    | method => exact .inl (.inl (.inl (.inr h)))
    | endpoint => exact .inl (.inl (.inr h))
    | externalCall => exact .inl (.inr h)
    | topic => exact .inr h

/-- No edge adds a node: the nodes are those of the project. -/
theorem mem_nodeIds_ofResolved {r : ResolvedGraph} (h : r.Intact) (space id : String) :
    id ∈ (ofResolved space r).nodeIds ↔ ∃ type, id ∈ r.idsOf type := by
  unfold ofResolved
  rw [nodeIds_addLinks, mem_nodeIds_exportNodes]
  intro l hl
  obtain ⟨hsource, htarget⟩ := h.ends_known (related_of_mem_exportLinks hl)
  exact ⟨(mem_nodeIds_exportNodes r _ _ _).mpr hsource,
    (mem_nodeIds_exportNodes r _ _ _).mpr htarget⟩

/-- A node has its type and what is written of it in the project, and nothing else. -/
theorem attributesOf_ofResolved {r : ResolvedGraph} (h : r.Intact) (space : String)
    {type : NodeType} {id : String} {entries : Entries} (hd : r.described? type id = some entries) :
    (ofResolved space r).attributesOf id =
      Table.ofList ((typeName, .str (Coded.code type)) :: entries) := by
  have hid : id ∈ r.idsOf type := (r.described?_isSome type id).mp ⟨entries, hd⟩
  have absent : ∀ other, type ≠ other → id ∉ r.idsOf other :=
    fun other hne hin => hne (h.type_unique hid hin)
  have hcomponent := fun hne => Table.find?_eq_none_iff.mpr (absent .component hne)
  have htable := fun hne => Table.find?_eq_none_iff.mpr (absent .databaseTable hne)
  have hmethod := fun hne => Table.find?_eq_none_iff.mpr (absent .method hne)
  have hendpoint := fun hne => Table.find?_eq_none_iff.mpr (absent .endpoint hne)
  have hcall := fun hne => Table.find?_eq_none_iff.mpr (absent .externalCall hne)
  have htopic := fun hne => Table.find?_eq_none_iff.mpr (absent .topic hne)
  unfold ofResolved
  rw [attributesOf_addLinks]
  simp only [exportNodes, attributesOf_addNodes h.componentsOnce,
    attributesOf_addNodes h.tablesOnce,
    attributesOf_addNodes h.methodsOnce, attributesOf_addNodes h.endpointsOnce,
    attributesOf_addNodes h.externalCallsOnce, attributesOf_addNodes h.topicsOnce]
  cases type <;> obtain ⟨_, hfind, rfl⟩ := Option.map_eq_some_iff.mp hd <;>
    simp [hfind, hcomponent, htable, hmethod, hendpoint, hcall, htopic] <;> rfl

end Graph

end ArchGraph
