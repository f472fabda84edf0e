import ArchGraph.Analysis
import ArchGraph.Proofs.FirstWriter

/-!
Referential integrity. Whatever a resolved project refers to is in it: the class of a method, the
methods it calls, its outbound calls and its topics, the handler of an endpoint, the table of a
component, and the endpoint that an outbound call was found to lead to. Identifiers of different
types of nodes begin differently, so that no two of them are the same.

`Intact` is kept by every pass of the analysis: registering (`intact_ofFacts`), resolving calls
(`intact_ofBound`), matching outbound calls (`Intact.resolveCalls`) and linking topics
(`Intact.linkUses`); so it holds of every resolved project (`intact_resolveBound`).
-/

namespace ArchGraph

/-! ## How identifiers begin -/

/-- What the identifiers of a type of nodes begin with. -/
def NodeType.mark : NodeType → String
  | .component => "component:"
  | .method => "method:"
  | .endpoint => "endpoint:"
  | .externalCall => "external:"
  | .topic => "topic:"
  | .databaseTable => "table:"

/-- An identifier begins as those of a type do. -/
def NodeType.Marks (type : NodeType) (id : String) : Prop := type.mark.toList <+: id.toList

theorem NodeType.marks_mark (type : NodeType) : type.Marks type.mark := List.prefix_refl _

theorem NodeType.eq_of_marks {s t : NodeType} {id : String} (hs : s.Marks id) (ht : t.Marks id) :
    s = t := by
  have apart : ∀ s t : NodeType, s.mark.toList <+: t.mark.toList → s = t := by
    intro s t
    cases s <;> cases t <;> decide
  rcases List.prefix_or_prefix_of_prefix hs ht with h | h
  · exact apart s t h
  · exact (apart t s h).symm

theorem NodeType.Marks.ne_empty {type : NodeType} {id : String} (h : type.Marks id) : id ≠ "" := by
  rintro rfl
  have hnil : type.mark.toList = [] := List.prefix_nil.mp h
  cases type <;> exact absurd hnil (by decide)

theorem NodeType.Marks.given {type : NodeType} {id : String} (h : type.Marks id) :
    Text.given? (some id) = some id := by
  rw [given?_some, if_neg h.ne_empty]

theorem NodeType.Marks.append {type : NodeType} {s : String} (h : type.Marks s) (t : String) :
    type.Marks (s ++ t) := by
  unfold Marks
  rw [String.toList_append]
  exact h.trans (List.prefix_append _ _)

namespace Identifier

theorem marks_component (name : String) : NodeType.component.Marks (component name) :=
  (NodeType.marks_mark .component).append _

theorem marks_method (owner name : String) (types : List String) (signature : Option String) :
    NodeType.method.Marks (method owner name types signature) :=
  ((((((NodeType.marks_mark .method).append _).append _).append _).append _).append _).append _

theorem marks_endpoint (verb : Option String) (path : String) :
    NodeType.endpoint.Marks (endpoint verb path) :=
  (((NodeType.marks_mark .endpoint).append _).append _).append _

theorem marks_externalCall (verb url : Option String) (source : String) :
    NodeType.externalCall.Marks (externalCall verb url source) :=
  (((((NodeType.marks_mark .externalCall).append _).append _).append _).append _).append _

theorem marks_topic (name : String) : NodeType.topic.Marks (topic name) :=
  (NodeType.marks_mark .topic).append _

theorem marks_table (name : String) : NodeType.databaseTable.Marks (table name) :=
  (NodeType.marks_mark .databaseTable).append _

end Identifier

namespace ResolvedGraph

/-! ## Integrity -/

/-- What a component refers to, among tables with the identifiers `tables`. -/
structure ComponentIntact (tables : List String) (id : String) (c : ComponentNode) : Prop where
  named : id = Identifier.component c.qualifiedName
  table : ∀ table, c.tableId = some table → table ∈ tables

/-- What a method refers to, apart from its outbound calls. -/
structure MethodIntact (components methods topics : List String) (id : String) (m : MethodNode) :
    Prop where
  self : m.id = id
  marked : NodeType.method.Marks id
  owner : m.componentId = Identifier.component m.qualifiedClass
  owned : m.componentId ∈ components
  once : m.calls.Nodup
  calls : ∀ target ∈ m.calls, target ∈ methods
  topics : ∀ topic ∈ m.producesTo ++ m.consumesFrom, topic ∈ topics

structure EndpointIntact (methods : List String) (id : String) (e : EndpointNode) : Prop where
  self : e.id = id
  marked : NodeType.endpoint.Marks id
  handled : ∃ handler ∈ methods, e.handlerMethodId = some handler

structure ExternalCallIntact (methods endpoints : List String) (id : String)
    (c : ExternalCallNode) : Prop where
  self : c.id = id
  marked : NodeType.externalCall.Marks id
  source : c.sourceMethodId ∈ methods
  leads : c.resolved = true → ∃ endpoint ∈ endpoints, c.targetEndpointId = some endpoint

/-- A method has just the outbound calls that it is the source of. -/
def CallsOut (calls : Table String ExternalCallNode) (id : String) (m : MethodNode) : Prop :=
  m.externalCallIds.Nodup ∧
    ∀ call, call ∈ m.externalCallIds ↔ ∃ c, calls.find? call = some c ∧ c.sourceMethodId = id

/-- Whatever the project refers to is in it, under the identifier it is referred to by. -/
structure Intact (g : ResolvedGraph) : Prop where
  componentsOnce : g.components.Distinct
  methodsOnce : g.methods.Distinct
  endpointsOnce : g.endpoints.Distinct
  externalCallsOnce : g.externalCalls.Distinct
  topicsOnce : g.topics.Distinct
  tablesOnce : g.tables.Distinct
  components : g.components.All (ComponentIntact g.tables.keys)
  methods : g.methods.All (MethodIntact g.components.keys g.methods.keys g.topics.keys)
  endpoints : g.endpoints.All (EndpointIntact g.methods.keys)
  externalCalls : g.externalCalls.All (ExternalCallIntact g.methods.keys g.endpoints.keys)
  topics : g.topics.All (fun id _ => NodeType.topic.Marks id)
  tables : g.tables.All (fun id _ => NodeType.databaseTable.Marks id)
  callsOut : g.methods.All (CallsOut g.externalCalls)

theorem ComponentIntact.mono {tables tables' : List String} {id : String} {c : ComponentNode}
    (h : ComponentIntact tables id c) (hsub : tables ⊆ tables') : ComponentIntact tables' id c :=
  ⟨h.named, fun table ht => hsub (h.table table ht)⟩

theorem MethodIntact.mono {components components' methods methods' topics topics' : List String}
    {id : String} {m : MethodNode} (h : MethodIntact components methods topics id m)
    (hc : components ⊆ components') (hm : methods ⊆ methods') (ht : topics ⊆ topics') :
    MethodIntact components' methods' topics' id m :=
  { h with
    owned := hc h.owned
    calls := fun target htarget => hm (h.calls target htarget)
    topics := fun topic htopic => ht (h.topics topic htopic) }

theorem EndpointIntact.mono {methods methods' : List String} {id : String} {e : EndpointNode}
    (h : EndpointIntact methods id e) (hsub : methods ⊆ methods') :
    EndpointIntact methods' id e := by
  obtain ⟨handler, hmem, heq⟩ := h.handled
  exact ⟨h.self, h.marked, handler, hsub hmem, heq⟩

theorem ExternalCallIntact.mono {methods methods' endpoints endpoints' : List String} {id : String}
    {c : ExternalCallNode} (h : ExternalCallIntact methods endpoints id c) (hm : methods ⊆ methods')
    (he : endpoints ⊆ endpoints') : ExternalCallIntact methods' endpoints' id c := by
  refine ⟨h.self, h.marked, hm h.source, fun hr => ?_⟩
  obtain ⟨endpoint, hmem, heq⟩ := h.leads hr
  exact ⟨endpoint, he hmem, heq⟩

theorem Intact.empty (projectId : String) : Intact (.empty projectId) where
  componentsOnce := List.nodup_nil
  methodsOnce := List.nodup_nil
  endpointsOnce := List.nodup_nil
  externalCallsOnce := List.nodup_nil
  topicsOnce := List.nodup_nil
  tablesOnce := List.nodup_nil
  components := .empty
  methods := .empty
  endpoints := .empty
  externalCalls := .empty
  topics := .empty
  tables := .empty
  callsOut := .empty

theorem subset_addNew (xs : List String) (x : String) : xs ⊆ addNew xs x :=
  fun _ h => mem_addNew.mpr (.inl h)

/-! ## Registering -/

open Registry

variable {g : ResolvedGraph}

/-- A component finds the table it works on, and no table is lost. -/
theorem Intact.tables_addComponent (h : g.Intact) (c : Component) :
    (addComponent g c).tables.Distinct ∧
      (addComponent g c).tables.All (fun id _ => NodeType.databaseTable.Marks id) ∧
      g.tables.keys ⊆ (addComponent g c).tables.keys ∧
      ∀ table, (componentNode c).tableId = some table → table ∈ (addComponent g c).tables.keys := by
  unfold addComponent componentNode
  cases c.tableAccess with
  | none => exact ⟨h.tablesOnce, h.tables, List.Subset.refl _, fun _ ht => nomatch ht⟩
  | some access =>
      have hkeys : (addTable g.tables access).keys =
          addNew g.tables.keys (Identifier.table access.tableName) := Table.keys_upsert _ _ _
      refine ⟨Table.distinct_upsert h.tablesOnce _ _, h.tables.upsert (Identifier.marks_table _),
        hkeys ▸ subset_addNew _ _, fun table ht => ?_⟩
      obtain rfl := Option.some.inj ht
      exact hkeys ▸ mem_addNew.mpr (.inr rfl)

theorem Intact.addComponent (h : g.Intact) (c : Component) : (addComponent g c).Intact := by
  obtain ⟨honce, hmarked, hsub, htable⟩ := h.tables_addComponent c
  have hkeys : (Registry.addComponent g c).components.keys =
      addNew g.components.keys (Identifier.component c.qualifiedName) := Table.keys_insert _ _ _
  exact
    { h with
      componentsOnce := Table.distinct_insert h.componentsOnce _ _
      tablesOnce := honce
      tables := hmarked
      components := (h.components.imp fun _ _ hc => hc.mono hsub).insert ⟨rfl, htable⟩
      methods := h.methods.imp fun _ _ hm =>
        hm.mono (hkeys ▸ subset_addNew _ _) (List.Subset.refl _) (List.Subset.refl _) }

/-- A handler is the handler of the endpoint it adds; an endpoint that is there keeps its own. -/
theorem Intact.endpoints_addEndpoint (h : g.Intact) (c : Component) (m : MethodFact)
    {decl : MethodDecl} {methods : List String} (hsub : g.methods.keys ⊆ methods)
    (hdecl : decl.id ∈ methods) :
    (addEndpoint g.endpoints c m decl).Distinct ∧
      (addEndpoint g.endpoints c m decl).All (EndpointIntact methods) ∧
      g.endpoints.keys ⊆ (addEndpoint g.endpoints c m decl).keys := by
  have hall : g.endpoints.All (EndpointIntact methods) := h.endpoints.imp fun _ _ he => he.mono hsub
  unfold addEndpoint
  split
  · refine ⟨Table.distinct_insertNew h.endpointsOnce _ _, hall.insertNew ?_, ?_⟩
    · exact ⟨rfl, Identifier.marks_endpoint _ _, decl.id, hdecl, rfl⟩
    · rw [Table.keys_insertNew]
      exact subset_addNew _ _
  · exact ⟨h.endpointsOnce, hall, List.Subset.refl _⟩

/-- The node of a new method with the endpoint it serves. -/
theorem Intact.insertMethod (h : g.Intact) {c : Component} {kind : MethodKind} {m : MethodFact}
    (hnew : (methodDecl c kind m).id ∉ g.methods.keys)
    (hc : Identifier.component c.qualifiedName ∈ g.components.keys) :
    Intact { g with
      methods := g.methods.insert (methodDecl c kind m).id (.ofDecl (methodDecl c kind m))
      endpoints := addEndpoint g.endpoints c m (methodDecl c kind m) } := by
  have hkeys : (g.methods.insert (methodDecl c kind m).id (.ofDecl (methodDecl c kind m))).keys =
      addNew g.methods.keys (methodDecl c kind m).id := Table.keys_insert _ _ _
  have hsub := hkeys ▸ subset_addNew g.methods.keys (methodDecl c kind m).id
  have hself : (methodDecl c kind m).id ∈
      (g.methods.insert (methodDecl c kind m).id (.ofDecl (methodDecl c kind m))).keys := by
    rw [hkeys, mem_addNew]
    exact .inr rfl
  obtain ⟨honce, hall, hendpoints⟩ := h.endpoints_addEndpoint c m hsub hself
  exact
    { h with
      methodsOnce := Table.distinct_insert h.methodsOnce _ _
      endpointsOnce := honce
      endpoints := hall
      methods := by
        refine (h.methods.imp fun _ _ hm =>
          hm.mono (List.Subset.refl _) hsub (List.Subset.refl _)).insert ?_
        exact ⟨rfl, Identifier.marks_method _ _ _ _, rfl, hc,
          List.nodup_nil, by simp [MethodNode.ofDecl],
          by simp [MethodNode.ofDecl]⟩
      externalCalls := h.externalCalls.imp fun _ _ hx => hx.mono hsub hendpoints
      callsOut := by
        refine h.callsOut.insert ⟨List.nodup_nil, fun call => ?_⟩
        -- No call has a source that is not there yet.
        simp only [MethodNode.ofDecl, List.not_mem_nil, false_iff, not_exists, not_and]
        rintro x hx hsource
        exact hnew (hsource ▸ (h.externalCalls call x hx).source) }

theorem Intact.addExternalCall (h : g.Intact) {source : String} (hs : source ∈ g.methods.keys)
    (call : OutboundCall) : (addExternalCall source g call).Intact := by
  unfold Registry.addExternalCall
  dsimp only
  split
  · exact h
  · rename_i hnew
    have hfree : (externalCallNode source call).id ∉ g.externalCalls.keys :=
      fun hin => hnew ((Table.contains_iff _ _).mpr hin)
    have hnone := Table.find?_eq_none_iff.mpr hfree
    have hkeys := Table.keys_modify g.methods source
      (·.link .externalCallIds (externalCallNode source call).id)
    exact
      { h with
        methodsOnce := Table.distinct_modify h.methodsOnce _ _
        externalCallsOnce := Table.distinct_insert h.externalCallsOnce _ _
        methods := hkeys.symm ▸ h.methods.modify fun m hm => { hm with }
        endpoints := hkeys.symm ▸ h.endpoints
        externalCalls := by
          rw [hkeys]
          refine h.externalCalls.insert ⟨rfl, Identifier.marks_externalCall _ _ _, hs, ?_⟩
          intro hr
          cases hr
        callsOut := by
          intro id m hm
          rw [Table.find?_modify] at hm
          split at hm
          · rename_i hid
            obtain ⟨old, hold, rfl⟩ := Option.map_eq_some_iff.mp hm
            obtain ⟨honce, hiff⟩ := h.callsOut source old hold
            refine ⟨nodup_addNew honce _, fun x => ?_⟩
            simp only [MethodNode.link, mem_addNew, hiff, Table.find?_insert]
            by_cases hx : x = (externalCallNode source call).id
            · subst hx
              simp [hid, externalCallNode]
            · simp [hx, hid]
          · rename_i hid
            obtain ⟨honce, hiff⟩ := h.callsOut id m hm
            refine ⟨honce, fun x => ?_⟩
            rw [hiff, Table.find?_insert]
            by_cases hx : x = (externalCallNode source call).id
            · subst hx
              rw [hnone, if_pos rfl]
              simp [externalCallNode, Ne.symm hid]
            · simp [hx] }

theorem Intact.addExternalCalls (source : String) (calls : List OutboundCall) (h : g.Intact)
    (hs : source ∈ g.methods.keys) : (calls.foldl (Registry.addExternalCall source) g).Intact := by
  induction calls generalizing g with
  | nil => exact h
  | cons call calls ih =>
      refine ih (h.addExternalCall hs call) ?_
      rw [(addExternalCall_frame source g call).1]
      exact hs

theorem components_addExternalCalls (source : String) (calls : List OutboundCall)
    (g : ResolvedGraph) : (calls.foldl (addExternalCall source) g).components = g.components := by
  induction calls generalizing g with
  | nil => rfl
  | cons call calls ih =>
      rw [List.foldl_cons, ih]
      unfold addExternalCall
      dsimp only
      split <;> rfl

theorem Intact.addMethod {r : Registry} (h : r.graph.Intact) {c : Component}
    (hc : Identifier.component c.qualifiedName ∈ r.graph.components.keys) (kind : MethodKind)
    (m : MethodFact) :
    (addMethod c kind r m).graph.Intact ∧
      (addMethod c kind r m).graph.components = r.graph.components := by
  unfold Registry.addMethod
  dsimp only
  split
  · exact ⟨h, rfl⟩
  · rename_i hnew
    have habsent : (methodDecl c kind m).id ∉ r.graph.methods.keys := by
      intro hin
      simp [(Table.contains_iff _ _).mpr hin] at hnew
    refine ⟨(h.insertMethod habsent hc).addExternalCalls _ _ ?_, components_addExternalCalls _ _ _⟩
    rw [Table.keys_insert, mem_addNew]
    exact .inr rfl

theorem Intact.addMethods {c : Component} (kind : MethodKind) (ms : List MethodFact) {r : Registry}
    (h : r.graph.Intact) (hc : Identifier.component c.qualifiedName ∈ r.graph.components.keys) :
    (ms.foldl (Registry.addMethod c kind) r).graph.Intact := by
  induction ms generalizing r with
  | nil => exact h
  | cons m ms ih =>
      obtain ⟨hstep, hcomponents⟩ := h.addMethod hc kind m
      exact ih hstep (hcomponents ▸ hc)

theorem Intact.add {r : Registry} (h : r.graph.Intact) (c : Component) :
    (r.add c).graph.Intact := by
  have hnamed := h.addComponent c
  unfold Registry.add
  dsimp only
  split
  · exact hnamed
  · rename_i kind _
    refine Intact.addMethods
      (r := { r with graph := Registry.addComponent r.graph c }) kind c.methods
      hnamed ?_
    rw [Registry.addComponent, Table.keys_insert, mem_addNew]
    exact .inr rfl

theorem intact_ofFacts (facts : FactSet) : (ofFacts facts).graph.Intact := by
  have run : ∀ (cs : List Component) (r : Registry), r.graph.Intact →
      (cs.foldl Registry.add r).graph.Intact := by
    intro cs
    induction cs with
    | nil => exact fun r h => h
    | cons c cs ih => exact fun r h => ih _ (h.add c)
  exact run _ _ (Intact.empty _)

/-! ## Resolving calls -/

/-- A call that is linked leads to a method of the graph. -/
theorem calledIds_known {facts : FactSet} (m : Registered) :
    CallGraph.calledIds (CallGraph.resolution facts) m ⊆ (ofFacts facts).graph.methods.keys := by
  intro id hid
  obtain ⟨t, ht, rfl⟩ := List.mem_map.mp hid
  obtain ⟨i, _, hi⟩ := List.mem_filterMap.mp ht
  obtain ⟨⟨found, step⟩, hresolve, hkept⟩ := Option.bind_eq_some_iff.mp hi
  obtain rfl : found = t := by
    split at hkept
    · cases hkept
    · exact Option.some.inj hkept
  obtain ⟨scope, name, _, hget⟩ := Resolution.found_of_resolve hresolve
  obtain ⟨n, hn, rfl, _⟩ := CallGraph.registered_of_get? hget
  rw [(sound_ofFacts facts).keys]
  exact List.mem_map_of_mem hn

theorem Intact.resolveOne (h : g.Intact) {ctx : Resolution.Context} {m : Registered}
    (hcalled : CallGraph.calledIds ctx m ⊆ g.methods.keys) :
    (CallGraph.resolveOne ctx g m).Intact := by
  rw [CallGraph.resolveOne_eq]
  have hkeys := Table.keys_modify g.methods m.decl.id
    (CallGraph.addCalls (CallGraph.calledIds ctx m))
  exact
    { h with
      methodsOnce := Table.distinct_modify h.methodsOnce _ _
      methods := by
        rw [hkeys]
        refine h.methods.modify fun node hnode =>
          { hnode with once := nodup_foldl_addNew hnode.once, calls := fun target htarget => ?_ }
        rcases mem_foldl_addNew.mp htarget with htarget | htarget
        · exact hnode.calls target htarget
        · exact hcalled htarget
      endpoints := hkeys.symm ▸ h.endpoints
      externalCalls := hkeys.symm ▸ h.externalCalls
      callsOut := h.callsOut.modify fun _ hnode => hnode }

theorem Intact.resolveAll {ctx : Resolution.Context} (ms : List Registered) (h : g.Intact)
    (hcalled : ∀ m ∈ ms, CallGraph.calledIds ctx m ⊆ g.methods.keys) :
    (CallGraph.resolveAll ctx ms g).Intact := by
  induction ms generalizing g with
  | nil => exact h
  | cons m ms ih =>
      refine ih (h.resolveOne (hcalled m List.mem_cons_self)) fun n hn => ?_
      rw [CallGraph.resolveOne_eq, Table.keys_modify]
      exact hcalled n (List.mem_cons_of_mem _ hn)

theorem intact_ofBound (facts : FactSet) : (CallGraph.ofBound facts).Intact := by
  obtain ⟨done, hgraph⟩ := CallGraph.exists_resolveAll facts
  rw [hgraph]
  exact (intact_ofFacts facts).resolveAll done fun m _ => calledIds_known m

/-! ## Matching outbound calls -/

/-- What matching leaves of a call, and where it leads if it is resolved. -/
theorem resolve_externalCall (threshold : Int) (endpoints : List EndpointNode)
    (c : ExternalCallNode) :
    (c.resolve threshold endpoints).2.id = c.id ∧
      (c.resolve threshold endpoints).2.sourceMethodId = c.sourceMethodId ∧
      ((c.resolve threshold endpoints).2.resolved = true →
        c.resolved = true ∧
        (c.resolve threshold endpoints).2.targetEndpointId = c.targetEndpointId ∨
          ∃ e ∈ endpoints, (c.resolve threshold endpoints).2.targetEndpointId = some e.id) := by
  unfold ExternalCallNode.resolve
  split
  · rename_i hresolved
    exact ⟨rfl, rfl, fun _ => .inl ⟨hresolved, rfl⟩⟩
  · dsimp only
    split
    · exact ⟨rfl, rfl, fun hr => .inl ⟨hr, rfl⟩⟩
    · rename_i e he
      obtain ⟨id, _, hfind⟩ := Option.bind_eq_some_iff.mp he
      exact ⟨rfl, rfl, fun _ => .inr ⟨e, List.mem_of_find?_eq_some hfind, rfl⟩⟩

theorem Intact.mem_sortedEndpoints (h : g.Intact) {e : EndpointNode}
    (he : e ∈ g.sortedEndpoints) : e.id ∈ g.endpoints.keys := by
  obtain ⟨id, _, hfind⟩ := List.mem_filterMap.mp he
  rw [(h.endpoints id e hfind).self]
  exact Table.mem_keys_of_find? hfind

theorem Intact.resolveCalls (h : g.Intact) (threshold : Int) :
    (g.resolveCalls threshold).Intact := by
  unfold ResolvedGraph.resolveCalls
  exact
    { h with
      externalCallsOnce := by
        unfold Table.Distinct
        rw [Table.keys_map]
        exact h.externalCallsOnce
      externalCalls := h.externalCalls.map fun id c hc => by
        obtain ⟨hid, hsource, hleads⟩ := resolve_externalCall threshold g.sortedEndpoints c
        refine ⟨hid.trans hc.self, hc.marked, hsource ▸ hc.source, fun hr => ?_⟩
        rcases hleads hr with ⟨hbefore, htarget⟩ | ⟨e, he, htarget⟩
        · rw [htarget]
          exact hc.leads hbefore
        · exact ⟨e.id, h.mem_sortedEndpoints he, htarget⟩
      callsOut := h.callsOut.imp fun id m hm => by
        refine ⟨hm.1, fun call => ?_⟩
        rw [hm.2, Table.find?_map]
        cases g.externalCalls.find? call with
        | none => simp
        | some c => simp [(resolve_externalCall threshold g.sortedEndpoints c).2.1] }

/-! ## Linking topics -/

theorem Intact.ensure (h : g.Intact) (name : String) : (Topic.ensure g name).Intact := by
  unfold Topic.ensure
  exact
    { h with
      topicsOnce := Table.distinct_insertNew h.topicsOnce _ _
      topics := h.topics.insertNew (Identifier.marks_topic name)
      methods := by
        rw [Table.keys_insertNew]
        exact h.methods.imp fun _ _ hm =>
          hm.mono (List.Subset.refl _) (List.Subset.refl _) (subset_addNew _ _) }

/-- A method may be linked to any topic there is. -/
theorem MethodIntact.link {components methods topics : List String} {id : String} {m : MethodNode}
    (h : MethodIntact components methods topics id m) {topic : String} (ht : topic ∈ topics)
    (direction : TopicDirection) :
    MethodIntact components methods topics id (m.link (Topic.linkKind direction) topic) := by
  cases direction with
  | produce =>
      refine { h with topics := fun t htopic => ?_ }
      simp only [Topic.linkKind, MethodNode.link, List.mem_append, mem_addNew] at htopic
      rcases htopic with (htopic | rfl) | htopic
      · exact h.topics t (List.mem_append_left _ htopic)
      · exact ht
      · exact h.topics t (List.mem_append_right _ htopic)
  | consume =>
      refine { h with topics := fun t htopic => ?_ }
      simp only [Topic.linkKind, MethodNode.link, List.mem_append, mem_addNew] at htopic
      rcases htopic with htopic | htopic | rfl
      · exact h.topics t (List.mem_append_left _ htopic)
      · exact h.topics t (List.mem_append_right _ htopic)
      · exact ht

theorem Intact.connect (h : g.Intact) {use : Topic.Use}
    (htopic : Identifier.topic use.call.topic ∈ g.topics.keys) : (Topic.connect g use).Intact := by
  have hmethods := Table.keys_modify g.methods use.methodId
    (·.link (Topic.linkKind use.call.direction) (Identifier.topic use.call.topic))
  have htopics := Table.keys_modify g.topics (Identifier.topic use.call.topic) (Topic.note use)
  unfold Topic.connect
  exact
    { h with
      methodsOnce := Table.distinct_modify h.methodsOnce _ _
      topicsOnce := Table.distinct_modify h.topicsOnce _ _
      topics := h.topics.modify fun _ ht => ht
      methods := by
        rw [hmethods, htopics]
        exact h.methods.modify fun m hm => hm.link htopic use.call.direction
      endpoints := hmethods.symm ▸ h.endpoints
      externalCalls := hmethods.symm ▸ h.externalCalls
      callsOut := h.callsOut.modify fun m hm => by cases use.call.direction <;> exact hm }

theorem Intact.linkUses (uses : List Topic.Use) (h : g.Intact) :
    (Topic.linkUses g uses).2.Intact := by
  induction uses generalizing g with
  | nil => exact h
  | cons use uses ih =>
      have hensured := h.ensure use.call.topic
      have htopic :
          Identifier.topic use.call.topic ∈ (Topic.ensure g use.call.topic).topics.keys := by
        rw [Topic.ensure, Table.keys_insertNew, mem_addNew]
        exact .inr rfl
      unfold Topic.linkUses
      dsimp only
      split
      · exact hensured
      · exact ih (hensured.connect htopic)

theorem Intact.sealed (h : g.Intact) : g.sealed.Intact := by
  have hkeys := Table.keys_map MethodNode.sealed g.methods
  unfold ResolvedGraph.sealed
  exact
    { h with
      methodsOnce := by
        unfold Table.Distinct
        rw [hkeys]
        exact h.methodsOnce
      methods := hkeys.symm ▸ h.methods.map fun _ _ hm => { hm with }
      endpoints := hkeys.symm ▸ h.endpoints
      externalCalls := hkeys.symm ▸ h.externalCalls
      callsOut := h.callsOut.map fun _ _ hm => hm }

/-- Every resolved project is intact. -/
theorem intact_resolveBound (threshold : Int) (facts : FactSet) :
    (facts.resolveBound threshold).Intact :=
  ((intact_ofBound facts).resolveCalls threshold).linkUses _ |>.sealed

end ResolvedGraph

end ArchGraph
