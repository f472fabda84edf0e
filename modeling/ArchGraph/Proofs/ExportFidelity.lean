import ArchGraph.Graph.Stats
import ArchGraph.Proofs.DiffExactness
import ArchGraph.Proofs.Export

/-!
The export of a resolved project loses nothing and invents nothing (`export_faithful`). Nodes are
counted by their types, and the edges of a type by their ends: what has one owner, one source, one
handler or one destination in the project has one edge for it in the graph.
-/

namespace ArchGraph.Graph

variable {g : Graph}

/-! ## Nodes by type, edges by their ends -/

/-- The nodes from which an edge of a type leads to a node. -/
def sourcesOf (g : Graph) (type : EdgeType) (id : String) : List String :=
  ((g.edgesOfType (Coded.code type)).filter (·.target == id)).map (·.source)

/-- The nodes to which an edge of a type leads from a node. -/
def targetsOf (g : Graph) (type : EdgeType) (id : String) : List String :=
  ((g.edgesOfType (Coded.code type)).filter (·.source == id)).map (·.target)

theorem nodup_triples (h : g.WellFormed) :
    (g.edges.map (fun e => (e.source, e.target, e.type))).Nodup := by
  have hdistinct := Diff.relationships_distinct h
  unfold Table.Distinct Table.keys Diff.relationships at hdistinct
  rw [List.map_map] at hdistinct
  exact hdistinct

/-- Edges that agree in all but one respect differ in that. -/
theorem nodup_of_triples {κ : Type} (h : g.WellFormed) (p : Edge → Bool) (key : Edge → κ)
    (triple : κ → String × String × String)
    (htriple : ∀ e, p e = true → triple (key e) = (e.source, e.target, e.type)) :
    ((g.edges.filter p).map key).Nodup := by
  apply List.Nodup.of_map triple
  have heq : ((g.edges.filter p).map key).map triple =
      (g.edges.filter p).map (fun e => (e.source, e.target, e.type)) := by
    rw [List.map_map]
    exact List.map_congr_left fun e he => htriple e (List.mem_filter.mp he).2
  rw [heq]
  exact (nodup_triples h).sublist (List.filter_sublist.map _)

theorem mem_sourcesOf (h : g.WellFormed) {type : EdgeType} {id source : String} :
    source ∈ g.sourcesOf type id ↔
      (g.relationship? source id (Coded.code type)).isSome = true := by
  unfold sourcesOf edgesOfType
  simp only [List.mem_map, List.mem_filter, beq_iff_eq, mem_edges h, Option.isSome_iff_exists]
  constructor
  · rintro ⟨e, ⟨⟨he, htype⟩, rfl⟩, rfl⟩
    exact ⟨e.attributes, htype ▸ he⟩
  · rintro ⟨attributes, hr⟩
    exact ⟨⟨source, id, _, attributes⟩, ⟨⟨hr, rfl⟩, rfl⟩, rfl⟩

theorem mem_targetsOf (h : g.WellFormed) {type : EdgeType} {id target : String} :
    target ∈ g.targetsOf type id ↔
      (g.relationship? id target (Coded.code type)).isSome = true := by
  unfold targetsOf edgesOfType
  simp only [List.mem_map, List.mem_filter, beq_iff_eq, mem_edges h, Option.isSome_iff_exists]
  constructor
  · rintro ⟨e, ⟨⟨he, htype⟩, rfl⟩, rfl⟩
    exact ⟨e.attributes, htype ▸ he⟩
  · rintro ⟨attributes, hr⟩
    exact ⟨⟨id, target, _, attributes⟩, ⟨⟨hr, rfl⟩, rfl⟩, rfl⟩

theorem nodup_sourcesOf (h : g.WellFormed) (type : EdgeType) (id : String) :
    (g.sourcesOf type id).Nodup := by
  unfold sourcesOf edgesOfType
  rw [List.filter_filter]
  apply nodup_of_triples h _ _ (fun source => (source, id, Coded.code type))
  intro e he
  simp only [Bool.and_eq_true, beq_iff_eq] at he
  rw [he.1, he.2]

theorem nodup_targetsOf (h : g.WellFormed) (type : EdgeType) (id : String) :
    (g.targetsOf type id).Nodup := by
  unfold targetsOf edgesOfType
  rw [List.filter_filter]
  apply nodup_of_triples h _ _ (fun target => (id, target, Coded.code type))
  intro e he
  simp only [Bool.and_eq_true, beq_iff_eq] at he
  rw [he.1, he.2]

theorem nodup_callEdges (h : g.WellFormed) : g.callEdges.Nodup := by
  apply nodup_of_triples h _ _ (fun call => (call.1, call.2, Coded.code EdgeType.calls))
  intro e he
  rw [beq_iff_eq.mp he]

theorem eq_singleton_of_nodup {xs : List String} {x : String} (hn : xs.Nodup)
    (h : ∀ y, y ∈ xs ↔ y = x) : xs = [x] := by
  apply List.perm_singleton.mp
  exact (List.perm_ext_iff_of_nodup hn (List.nodup_singleton x)).mpr fun y => by simp [h y]

/-- A node that is related from one other node only has one edge of that type to it. -/
theorem sourcesOf_eq {r : ResolvedGraph} {space : String} {type : EdgeType} {id source : String}
    (h : ∀ s, r.Related type s id ↔ s = source) :
    (ofResolved space r).sourcesOf type id = [source] := by
  have hwell := wellFormed_ofResolved space r
  refine eq_singleton_of_nodup (nodup_sourcesOf hwell type id) fun s => ?_
  rw [mem_sourcesOf hwell, relationship?_ofResolved, h s]

theorem targetsOf_eq {r : ResolvedGraph} {space : String} {type : EdgeType} {id target : String}
    (h : ∀ t, r.Related type id t ↔ t = target) :
    (ofResolved space r).targetsOf type id = [target] := by
  have hwell := wellFormed_ofResolved space r
  refine eq_singleton_of_nodup (nodup_targetsOf hwell type id) fun t => ?_
  rw [mem_targetsOf hwell, relationship?_ofResolved, h t]

theorem nodeCode_injective {s t : NodeType} (h : Coded.code s = Coded.code t) : s = t := by
  revert h
  cases s <;> cases t <;> decide

theorem mem_nodesOfType (h : g.WellFormed) {type id : String} :
    id ∈ (g.nodesOfType type).map (·.1) ↔
      id ∈ g.nodeIds ∧ isOfType type (g.attributesOf id) = true := by
  unfold nodesOfType
  simp only [List.mem_map, List.mem_filter, nodeIds, Table.mem_keys_iff]
  constructor
  · rintro ⟨_, ⟨⟨e, he, rfl⟩, htype⟩, rfl⟩
    have hfind := Table.find?_of_mem h.nodes he
    refine ⟨⟨e.2, hfind⟩, ?_⟩
    simpa [attributesOf, hfind] using htype
  · rintro ⟨⟨node, hfind⟩, htype⟩
    refine ⟨_, ⟨⟨(id, node), Table.mem_entries_of_find? hfind, rfl⟩, ?_⟩, rfl⟩
    simpa [attributesOf, hfind] using htype

theorem nodup_nodesOfType (h : g.WellFormed) (type : String) :
    ((g.nodesOfType type).map (·.1)).Nodup := by
  have hsub : ((g.nodesOfType type).map (·.1)).Sublist g.nodeIds := by
    have hids : g.nodeIds = (g.nodes.entries.map (fun e => (e.1, e.2.attributes))).map (·.1) := by
      rw [List.map_map]
      rfl
    rw [hids]
    exact List.filter_sublist.map _
  exact h.nodes.sublist hsub

theorem described?_untyped {r : ResolvedGraph} {type : NodeType} {id : String} {entries : Entries}
    (h : r.described? type id = some entries) : typeName ∉ entries.map (·.1) := by
  cases type <;> obtain ⟨_, _, rfl⟩ := Option.map_eq_some_iff.mp h <;>
    simp [typeName, ComponentNode.attributes, methodAttributes, EndpointNode.attributes,
      ExternalCallNode.attributes, TopicNode.attributes, TableNode.attributes]

theorem find?_typeName {entries : Entries} (h : typeName ∉ entries.map (·.1)) (type : Json) :
    (Table.ofList ((typeName, type) :: entries)).find? typeName = some type := by
  have hnone : entries.reverse.lookup typeName = none := by
    apply Table.find?_eq_none_iff (t := ⟨entries.reverse⟩).mpr
    simpa [Table.keys] using h
  unfold Table.ofList
  rw [Table.find?_insertAll, List.reverse_cons, List.lookup_append, hnone]
  simp

theorem typeOf_ofResolved {r : ResolvedGraph} (h : r.Intact) (space : String) {type : NodeType}
    {id : String} (hid : id ∈ r.idsOf type) :
    ((ofResolved space r).attributesOf id).find? typeName = some (.str (Coded.code type)) := by
  obtain ⟨entries, hd⟩ := (r.described?_isSome type id).mpr hid
  rw [attributesOf_ofResolved h space hd]
  exact find?_typeName (described?_untyped hd) _

theorem nodesOfType_ofResolved {r : ResolvedGraph} (h : r.Intact) (space : String)
    (type : NodeType) :
    (((ofResolved space r).nodesOfType (Coded.code type)).map (·.1)).Perm (r.idsOf type) := by
  have hwell := wellFormed_ofResolved space r
  refine (List.perm_ext_iff_of_nodup (nodup_nodesOfType hwell _) (h.idsOf_nodup type)).mpr
    fun id => ?_
  rw [mem_nodesOfType hwell, mem_nodeIds_ofResolved h]
  unfold isOfType
  constructor
  · rintro ⟨⟨other, hother⟩, htype⟩
    rw [typeOf_ofResolved h space hother] at htype
    exact nodeCode_injective (beq_iff_eq.mp htype) ▸ hother
  · intro hid
    rw [typeOf_ofResolved h space hid]
    exact ⟨⟨type, hid⟩, beq_iff_eq.mpr rfl⟩

/-- Every node is of one of the six types. -/
theorem size_ofResolved {r : ResolvedGraph} (h : r.Intact) (space : String) :
    (ofResolved space r).nodes.size = r.components.size + r.methods.size + r.endpoints.size +
      r.externalCalls.size + r.topics.size + r.tables.size := by
  have hall : ((Coded.all : List NodeType).flatMap r.idsOf).Nodup := by
    have hapart :
        (Coded.all : List NodeType).Pairwise (fun s t => (r.idsOf s).Disjoint (r.idsOf t)) := by
      have hdistinct : (Coded.all : List NodeType).Nodup := by decide
      exact hdistinct.imp fun hne id hs ht => hne (h.type_unique hs ht)
    exact List.nodup_flatMap.mpr ⟨fun type _ => h.idsOf_nodup type, hapart⟩
  have hperm : (ofResolved space r).nodeIds.Perm ((Coded.all : List NodeType).flatMap r.idsOf) := by
    have hids : (ofResolved space r).nodeIds.Nodup := (wellFormed_ofResolved space r).nodes
    refine (List.perm_ext_iff_of_nodup hids hall).mpr fun id => ?_
    rw [mem_nodeIds_ofResolved h, List.mem_flatMap]
    exact exists_congr fun type => ⟨fun hid => ⟨by cases type <;> decide, hid⟩, fun hid => hid.2⟩
  have hlength := hperm.length_eq
  simp only [Coded.all, List.flatMap_cons, List.flatMap_nil, List.length_append, List.length_nil,
    ResolvedGraph.idsOf, nodeIds, Table.keys, List.length_map] at hlength
  unfold Table.size
  omega

theorem attributes_ofResolved (space : String) (r : ResolvedGraph) :
    (ofResolved space r).attributes = ⟨[("project_id", .str r.projectId),
      ("skipped_invocations", .ofNat r.skipped.length)]⟩ := by
  have links : ∀ (ls : List Link) (g : Graph), (ls.foldl addLink g).attributes = g.attributes := by
    intro ls
    induction ls with
    | nil => exact fun _ => rfl
    | cons l ls ih => exact fun g => ih _
  have nodes : ∀ {α : Type} (type : NodeType) (attributes : α → List (String × Json))
      (t : Table String α) (g : Graph),
      (addNodes type attributes t g).attributes = g.attributes := by
    intro α type attributes t
    unfold addNodes
    induction inOrder t with
    | nil => exact fun _ => rfl
    | cons e es ih => exact fun g => ih _
  unfold ofResolved exportNodes
  rw [links, nodes, nodes, nodes, nodes, nodes, nodes]

/-! ## Faithfulness -/

/-- The graph has what the project has, and nothing else. -/
structure Faithful (r : ResolvedGraph) (g : Graph) : Prop where
  /-- Every node has one of the six types. -/
  typed : ∀ id ∈ g.nodeIds, ∃ type : NodeType, g.nodeType id = .str (Coded.code type)
  /-- The nodes of a type are those of the project, each once. -/
  nodes : ∀ type : NodeType, ((g.nodesOfType (Coded.code type)).map (·.1)).Perm (r.idsOf type)
  /-- No identifier belongs to two types. -/
  apart : ∀ s t : NodeType, s ≠ t → (r.idsOf s).Disjoint (r.idsOf t)
  counted : ∃ stats, g.stats = .ok stats ∧ stats.nodeCount = r.components.size + r.methods.size +
    r.endpoints.size + r.externalCalls.size + r.topics.size + r.tables.size
  /-- A method belongs to the component of its class, and to no other. -/
  owned : ∀ id m, r.methods.find? id = some m →
    g.sourcesOf .hasMethod id = [Identifier.component m.qualifiedClass] ∧
      ∃ c, r.components.find? (Identifier.component m.qualifiedClass) = some c ∧
        c.qualifiedName = m.qualifiedClass
  /-- An outbound call is made by its source, which is a method, and by no other. -/
  made : ∀ id c, r.externalCalls.find? id = some c →
    g.sourcesOf .externalCall id = [c.sourceMethodId] ∧ c.sourceMethodId ∈ r.methods.keys
  /-- It leads to one endpoint if it is resolved, and else to none. -/
  leads : ∀ id c, r.externalCalls.find? id = some c →
    if c.resolved then ∃ endpoint ∈ r.endpoints.keys, g.targetsOf .resolvesTo id = [endpoint]
    else g.targetsOf .resolvesTo id = []
  /-- An endpoint has one handler. -/
  handled : ∀ id e, r.endpoints.find? id = some e →
    ∃ handler ∈ r.methods.keys, g.targetsOf .handledBy id = [handler] ∧
      e.handlerMethodId = some handler
  calls : g.callEdges.Perm r.callEdges

variable {r : ResolvedGraph}

theorem component_injective {a b : String} (h : Identifier.component a = Identifier.component b) :
    a = b := by
  have hlist := congrArg String.toList h
  simp only [Identifier.component, String.toList_append] at hlist
  exact String.toList_injective (List.append_cancel_left hlist)

theorem owned_ofResolved (h : r.Intact) (space : String) {id : String} {m : MethodNode}
    (hm : r.methods.find? id = some m) :
    (ofResolved space r).sourcesOf .hasMethod id = [Identifier.component m.qualifiedClass] ∧
      ∃ c, r.components.find? (Identifier.component m.qualifiedClass) = some c ∧
        c.qualifiedName = m.qualifiedClass := by
  have hintact := h.methods id m hm
  constructor
  · apply sourcesOf_eq
    intro source
    simp only [ResolvedGraph.Related, hm, Option.some.injEq, exists_eq_left', hintact.owner]
    exact eq_comm
  · obtain ⟨c, hc⟩ := Table.mem_keys_iff.mp (hintact.owner ▸ hintact.owned)
    exact ⟨c, hc, (component_injective (h.components _ c hc).named).symm⟩

theorem made_ofResolved (h : r.Intact) (space : String) {id : String} {c : ExternalCallNode}
    (hc : r.externalCalls.find? id = some c) :
    (ofResolved space r).sourcesOf .externalCall id = [c.sourceMethodId] ∧
      c.sourceMethodId ∈ r.methods.keys := by
  have hsource := (h.externalCalls id c hc).source
  refine ⟨sourcesOf_eq fun source => ?_, hsource⟩
  constructor
  · rintro ⟨m, hm, hcall⟩
    obtain ⟨c', hc', rfl⟩ := ((h.callsOut source m hm).2 id).mp hcall
    rw [hc] at hc'
    rw [Option.some.inj hc']
  · rintro rfl
    obtain ⟨m, hm⟩ := Table.mem_keys_iff.mp hsource
    exact ⟨m, hm, ((h.callsOut _ m hm).2 id).mpr ⟨c, hc, rfl⟩⟩

theorem leads_ofResolved (h : r.Intact) (space : String) {id : String} {c : ExternalCallNode}
    (hc : r.externalCalls.find? id = some c) :
    if c.resolved then
      ∃ endpoint ∈ r.endpoints.keys, (ofResolved space r).targetsOf .resolvesTo id = [endpoint]
    else (ofResolved space r).targetsOf .resolvesTo id = [] := by
  split
  · rename_i hresolved
    obtain ⟨endpoint, hmem, heq⟩ := (h.externalCalls id c hc).leads hresolved
    have hgiven := (h.marks .endpoint hmem).given
    refine ⟨endpoint, hmem, targetsOf_eq fun target => ?_⟩
    simp only [ResolvedGraph.Related, hc, Option.some.injEq, exists_eq_left', hresolved,
      true_and, heq,
      hgiven]
    exact eq_comm
  · rename_i hresolved
    have hwell := wellFormed_ofResolved space r
    apply List.eq_nil_iff_forall_not_mem.mpr
    intro target htarget
    rw [mem_targetsOf hwell, relationship?_ofResolved] at htarget
    obtain ⟨c', hc', hresolved', _⟩ := htarget
    rw [hc] at hc'
    exact hresolved (Option.some.inj hc' ▸ hresolved')

theorem handled_ofResolved (h : r.Intact) (space : String) {id : String} {e : EndpointNode}
    (he : r.endpoints.find? id = some e) :
    ∃ handler ∈ r.methods.keys, (ofResolved space r).targetsOf .handledBy id = [handler] ∧
      e.handlerMethodId = some handler := by
  obtain ⟨handler, hmem, heq⟩ := (h.endpoints id e he).handled
  have hgiven := (h.marks .method hmem).given
  refine ⟨handler, hmem, targetsOf_eq fun target => ?_, heq⟩
  simp only [ResolvedGraph.Related, he, Option.some.injEq, exists_eq_left', heq, hgiven]
  exact eq_comm

theorem calls_ofResolved (h : r.Intact) (space : String) :
    (ofResolved space r).callEdges.Perm r.callEdges := by
  have hwell := wellFormed_ofResolved space r
  have hself : r.methods.All (fun id m => m.id = id) := h.methods.imp fun _ _ hm => hm.self
  have hvalues : ∀ {id m}, r.methods.find? id = some m ↔ m ∈ r.methods.values ∧ m.id = id := by
    intro id m
    rw [Table.mem_values_iff h.methodsOnce hself]
    constructor
    · intro hm
      have hid := hself id m hm
      exact ⟨hid.symm ▸ hm, hid⟩
    · rintro ⟨hm, rfl⟩
      exact hm
  have hnodup : r.callEdges.Nodup := by
    have hids : (r.methods.values.map (·.id)).Nodup := by
      rw [Table.map_values h.methodsOnce hself]
      exact h.methodsOnce
    apply Diff.nodup_flatMap_of_tags (t := fun call : String × String => call.1) hids
    · intro m hm
      have hfind := hvalues.mpr ⟨hm, rfl⟩
      exact (h.methods m.id m hfind).once.map fun _ _ heq => (Prod.mk.inj heq).2
    · rintro m _ call hcall
      obtain ⟨target, _, rfl⟩ := List.mem_map.mp hcall
      rfl
  refine (List.perm_ext_iff_of_nodup (nodup_callEdges hwell) hnodup).mpr ?_
  rintro ⟨source, target⟩
  rw [mem_callEdges_iff hwell, relationship?_ofResolved]
  unfold ResolvedGraph.callEdges
  simp only [ResolvedGraph.Related, hvalues, List.mem_flatMap, List.mem_map, Prod.mk.injEq]
  constructor
  · rintro ⟨m, ⟨hm, rfl⟩, ht⟩
    exact ⟨m, hm, target, ht, rfl, rfl⟩
  · rintro ⟨m, hm, _, ht, rfl, rfl⟩
    exact ⟨m, ⟨hm, rfl⟩, ht⟩

theorem faithful_ofResolved (h : r.Intact) (space : String) : Faithful r (ofResolved space r) where
  typed := by
    intro id hid
    obtain ⟨type, hid⟩ := (mem_nodeIds_ofResolved h space id).mp hid
    refine ⟨type, ?_⟩
    rw [nodeType, Table.attribute, typeOf_ofResolved h space hid]
    rfl
  nodes := nodesOfType_ofResolved h space
  apart := fun s t hne id hs ht => hne (h.type_unique hs ht)
  counted := by
    unfold stats
    rw [attributes_ofResolved, size_ofResolved h]
    exact ⟨_, rfl, by push_cast; rfl⟩
  owned := fun id m hm => owned_ofResolved h space hm
  made := fun id c hc => made_ofResolved h space hc
  leads := fun id c hc => leads_ofResolved h space hc
  handled := fun id e he => handled_ofResolved h space he
  calls := calls_ofResolved h space

/-- **The export loses and invents nothing.** Whatever the facts, they can be resolved, and the
graph of their analysis has what they resolve to and nothing else. -/
theorem export_faithful (threshold : Int) (space : String) (facts : FactSet) :
    ∃ r, facts.ensureBound.resolve threshold = .ok r ∧
      Faithful r (facts.analyze threshold space) := by
  have hbound : facts.ensureBound.bound = true := by
    unfold FactSet.ensureBound
    split
    · assumption
    · rfl
  refine ⟨facts.ensureBound.resolveBound threshold, if_pos hbound, ?_⟩
  exact faithful_ofResolved (ResolvedGraph.intact_resolveBound threshold _) space

end ArchGraph.Graph
