import ArchGraph.Proofs.ExportFidelity
import ArchGraph.Proofs.SelfCalls
import ArchGraph.Proofs.TopicSources

/-!
Where calls can lead. Names are looked up among the methods that calls can reach, and only a call on
the object itself is looked up among the methods of the caller's own kind. So services and
repositories never call handlers and listeners, and no method calls itself unless it says so.

* `legal_of_target?` is what holds of a single invocation, whichever step resolves it;
* `HasCalls.mem_callEdges` reads the edges of a graph off the invocations of the registered methods;
* `call_edges_legal` puts the two together.
-/

namespace ArchGraph.CallGraph

variable {facts : FactSet}

/-! ## One invocation -/

/-- What an invocation of a method may be linked to. -/
structure LegalLink (m : Registered) (i : Invocation) (t : Registered) : Prop where
  /-- Calls reach services and repositories; a call on the object itself may stay in its own
  kind. -/
  kind : t.decl.kind.isTarget = true ∨ i.selfCall = true ∧ t.decl.kind = m.decl.kind
  loop : t.decl.id = m.decl.id → i.selfCall = true

/-- A scope in which an invocation is looked up holds methods that calls can reach, or those of the
caller's kind. -/
theorem kind_of_searches {kind k : MethodKind} {i : Invocation} {scope : Scope}
    (h : Resolution.Searches kind i scope) (hk : scope.Holds k) :
    k.isTarget = true ∨ i.selfCall = true ∧ k = kind := by
  cases h with
  | own hself => exact .inr ⟨hself, List.mem_singleton.mp hk⟩
  | services => exact .inl (List.mem_singleton.mp hk ▸ rfl)
  | targets => exact .inl hk

theorem legal_of_target? {m : Registered} {i : Invocation} {d : MethodDecl}
    (h : target? (resolution facts) m i = some d) :
    ∃ t ∈ registered facts, t.decl = d ∧ LegalLink m i t := by
  obtain ⟨⟨found, step⟩, hresolve, hkept⟩ := Option.bind_eq_some_iff.mp h
  split at hkept
  · cases hkept
  · rename_i hloop
    obtain rfl := Option.some.inj hkept
    obtain ⟨scope, name, hscope, hget⟩ := Resolution.found_of_resolve hresolve
    obtain ⟨t, ht, rfl, hholds⟩ := registered_of_get? hget
    refine ⟨t, ht, rfl, kind_of_searches hscope hholds, fun hid => ?_⟩
    by_contra hself
    exact hloop ⟨hid, Bool.eq_false_iff.mpr hself⟩

/-! ## The edges of a graph -/

/-- Some invocation of `m` is linked to `t`. -/
def Linked (facts : FactSet) (m t : Registered) : Prop :=
  ∃ i ∈ m.fact.invocations, target? (resolution facts) m i = some t.decl

/-- A resolved project has the registered methods and what their invocations are linked to. -/
structure HasCalls (facts : FactSet) (g : ResolvedGraph) : Prop where
  intact : g.Intact
  keys : g.methods.keys = (registered facts).map (·.decl.id)
  nodes : ∀ m ∈ registered facts, ∃ node, g.methods.find? m.decl.id = some node ∧
    node.toMethodDecl = m.decl ∧ node.calls = distinct (calledIds (resolution facts) m)

theorem hasCalls_ofBound (facts : FactSet) : HasCalls facts (ofBound facts) where
  intact := ResolvedGraph.intact_ofBound facts
  keys := keys_ofBound facts
  nodes := by
    intro m hm
    rw [methods_ofBound]
    exact flat_find? facts hm

/-- Matching outbound calls and linking topics leaves the calls as they are. -/
theorem hasCalls_resolveBound (threshold : Int) (facts : FactSet) :
    HasCalls facts (facts.resolveBound threshold) where
  intact := ResolvedGraph.intact_resolveBound threshold facts
  keys := facts.keys_resolveBound threshold
  nodes := fun _ hm => facts.exists_node threshold hm

theorem mem_calledIds {m : Registered} {id : String} :
    id ∈ calledIds (resolution facts) m ↔
      ∃ t ∈ registered facts, t.decl.id = id ∧ Linked facts m t := by
  unfold calledIds
  simp only [List.mem_map, List.mem_filterMap]
  constructor
  · rintro ⟨d, ⟨i, hi, htarget⟩, rfl⟩
    obtain ⟨t, ht, rfl, _⟩ := legal_of_target? htarget
    exact ⟨t, ht, rfl, i, hi, htarget⟩
  · rintro ⟨t, _, rfl, i, hi, htarget⟩
    exact ⟨t.decl, ⟨i, hi, htarget⟩, rfl⟩

theorem HasCalls.mem_callEdges {g : ResolvedGraph} (h : HasCalls facts g) {e : String × String} :
    e ∈ g.callEdges ↔ ∃ m ∈ registered facts, ∃ t ∈ registered facts,
      e = (m.decl.id, t.decl.id) ∧ Linked facts m t := by
  have hself : g.methods.All (fun id m => m.id = id) := h.intact.methods.imp fun _ _ hm => hm.self
  unfold ResolvedGraph.callEdges
  simp only [List.mem_flatMap, List.mem_map, Table.mem_values_iff h.intact.methodsOnce hself]
  constructor
  · rintro ⟨node, hnode, target, htarget, rfl⟩
    obtain ⟨m, hm, hid⟩ := List.mem_map.mp (h.keys ▸ Table.mem_keys_of_find? hnode)
    obtain ⟨node', hnode', _, hcalls⟩ := h.nodes m hm
    rw [hid, hnode] at hnode'
    obtain rfl := Option.some.inj hnode'
    rw [hcalls, mem_distinct, mem_calledIds] at htarget
    obtain ⟨t, ht, rfl, hlinked⟩ := htarget
    exact ⟨m, hm, t, ht, by rw [hid], hlinked⟩
  · rintro ⟨m, hm, t, ht, rfl, hlinked⟩
    obtain ⟨node, hnode, hdecl, hcalls⟩ := h.nodes m hm
    have hid : node.id = m.decl.id := congrArg MethodDecl.id hdecl
    refine ⟨node, hid ▸ hnode, t.decl.id, ?_, by rw [hid]⟩
    rw [hcalls, mem_distinct, mem_calledIds]
    exact ⟨t, ht, rfl, hlinked⟩

/-- Where an edge may lead from a method. -/
structure LegalEdge (m t : Registered) : Prop where
  kind : t.decl.kind.isTarget = true ∨
    (∃ i ∈ m.fact.invocations, i.selfCall = true) ∧ t.decl.kind = m.decl.kind
  loop : t = m → ∃ i ∈ m.fact.invocations, i.selfCall = true
  /-- What calls can reach does not call what they cannot. -/
  below : m.decl.kind.isTarget = true → t.decl.kind.isTarget = true

theorem legal_of_linked {m t : Registered} (h : Linked facts m t) : LegalEdge m t := by
  obtain ⟨i, hi, htarget⟩ := h
  obtain ⟨t', _, hdecl, hlegal⟩ := legal_of_target? htarget
  have hkind := hlegal.kind
  rw [hdecl] at hkind
  constructor
  · exact hkind.imp_right fun ⟨hself, hsame⟩ => ⟨⟨i, hi, hself⟩, hsame⟩
  · rintro rfl
    exact ⟨i, hi, hlegal.loop (by rw [hdecl])⟩
  · intro hm
    rcases hkind with htarget | ⟨_, hsame⟩
    · exact htarget
    · rw [hsame]
      exact hm

/-- **Calls lead only where they may.** The edges of a graph, and of its export, are the links of
the invocations. Each leads to a registered service or repository method, unless the caller makes a
call on the object itself and the target is of its own kind. -/
theorem call_edges_legal (facts : FactSet) (hbound : facts.bound = true) :
    ∃ g, build facts = .ok g ∧
      (∀ m ∈ registered facts, ∃ node, g.methods.find? m.decl.id = some node ∧
        node.toMethodDecl = m.decl) ∧
      (∀ e, e ∈ g.callEdges ↔ ∃ m ∈ registered facts, ∃ t ∈ registered facts,
        e = (m.decl.id, t.decl.id) ∧ Linked facts m t) ∧
      (∀ threshold space e, e ∈ (facts.analyze threshold space).callEdges ↔ e ∈ g.callEdges) ∧
      (∀ m ∈ registered facts, ∀ t ∈ registered facts, (m.decl.id, t.decl.id) ∈ g.callEdges →
        LegalEdge m t) ∧
      (∀ m ∈ registered facts, ∀ i ∈ m.fact.invocations, i.selfCall = false →
        ∀ t, target? (resolution facts) m i = some t → t.kind.isTarget = true) := by
  have hs := Registry.sound_ofFacts facts
  have hcalls := hasCalls_ofBound facts
  refine ⟨ofBound facts, by simp [build, hbound], ?_, fun e => hcalls.mem_callEdges, ?_, ?_, ?_⟩
  · intro m hm
    obtain ⟨node, hnode, hdecl, _⟩ := hcalls.nodes m hm
    exact ⟨node, hnode, hdecl⟩
  · intro threshold space e
    have hexport := hasCalls_resolveBound threshold facts
    unfold FactSet.analyze FactSet.ensureBound
    rw [if_pos hbound, (Graph.calls_ofResolved hexport.intact space).mem_iff, hexport.mem_callEdges,
      hcalls.mem_callEdges]
  · intro m hm t ht hedge
    -- An edge only has identifiers; no two registered methods share one.
    obtain ⟨m', hm', t', ht', heq, hlinked⟩ := hcalls.mem_callEdges.mp hedge
    obtain ⟨hsource, htarget⟩ := Prod.mk.inj heq
    obtain rfl := hs.eq_of_id hm hm' hsource
    obtain rfl := hs.eq_of_id ht ht' htarget
    exact legal_of_linked hlinked
  · intro m _ i _ hnot d htarget
    obtain ⟨t, _, rfl, hlegal⟩ := legal_of_target? htarget
    rcases hlegal.kind with hkind | ⟨hself, _⟩
    · exact hkind
    · rw [hnot] at hself
      cases hself

/-! ## A handler that calls one of its own requests -/

def placeRequest : MethodFact :=
  methodNamed "place" (some "POST") [checkOfSelf, { checkOfSelf with selfCall := false }]

def checkRequest : MethodFact := methodNamed "check" (some "GET") []

def requestHandler : Component :=
  ⟨"Orders", "shop.Orders", "shop", .entryPointHandler, [], ∅, [placeRequest, checkRequest],
    none, none, none, none⟩

/-- One request calls `check` on the handler itself and on whatever else has it, which is a
service. -/
def requestsCalled : FactSet := ⟨"shop", [stockService, requestHandler], ∅, true⟩

theorem requestsCalled_registry : Registry.ofFacts requestsCalled =
    [stockService, requestHandler].foldl Registry.add (.empty "shop") := by
  rw [Registry.ofFacts_of_ordered requestsCalled (by decide)]
  rfl

theorem requestsCalled_registered : registered requestsCalled =
    [.ofFact stockService .service (methodNamed "check" none []),
      .ofFact requestHandler .handler placeRequest,
      .ofFact requestHandler .handler checkRequest] := by
  unfold registered
  rw [requestsCalled_registry]
  rfl

theorem call_edges_legal_requestsCalled :
    requestsCalled.bound = true ∧ ∃ g, build requestsCalled = .ok g ∧
      ∃ m ∈ registered requestsCalled, ∃ own ∈ registered requestsCalled,
        ∃ other ∈ registered requestsCalled, own.decl.kind = .handler ∧ other.decl.kind = .service ∧
          (m.decl.id, own.decl.id) ∈ g.callEdges ∧ LegalEdge m own ∧
          (m.decl.id, other.decl.id) ∈ g.callEdges ∧ LegalEdge m other := by
  let m := Registered.ofFact requestHandler .handler placeRequest
  let own := Registered.ofFact requestHandler .handler checkRequest
  let other := Registered.ofFact stockService .service (methodNamed "check" none [])
  have hm : m ∈ registered requestsCalled := by
    rw [requestsCalled_registered]
    exact List.mem_cons_of_mem _ List.mem_cons_self
  have hown : own ∈ registered requestsCalled := by
    rw [requestsCalled_registered]
    exact List.mem_cons_of_mem _ (List.mem_cons_of_mem _ List.mem_cons_self)
  have hother : other ∈ registered requestsCalled := by
    rw [requestsCalled_registered]
    exact List.mem_cons_self
  have hlinked : Linked requestsCalled m own ∧ Linked requestsCalled m other := by
    unfold Linked resolution context
    rw [requestsCalled_registry]
    exact ⟨⟨_, List.mem_cons_self, rfl⟩, ⟨_, List.mem_cons_of_mem _ List.mem_cons_self, rfl⟩⟩
  obtain ⟨g, hg, _, hedges, _, hlegal, _⟩ := call_edges_legal requestsCalled rfl
  have hfirst := (hedges _).mpr ⟨m, hm, own, hown, rfl, hlinked.1⟩
  have hsecond := (hedges _).mpr ⟨m, hm, other, hother, rfl, hlinked.2⟩
  exact ⟨rfl, g, hg, m, hm, own, hown, other, hother, rfl, rfl, hfirst, hlegal m hm own hown hfirst,
    hsecond, hlegal m hm other hother hsecond⟩

end ArchGraph.CallGraph
