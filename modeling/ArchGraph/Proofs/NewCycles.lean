import ArchGraph.Proofs.Detection

/-!
When a component cycle that is flagged as new is new. A search reports some of the cycles of its
graph, enough to break them all, and a candidate's cycle counts as known only if the baseline's
search reported it. So the flag can be trusted just when that search reports every cycle.
-/

namespace ArchGraph

def GraphNode.keeping (node : GraphNode) (keep : String → Bool) : GraphNode :=
  { node with out := ⟨node.out.entries.filter (fun t => keep t.1)⟩ }

/-- The graph with only the relationships that are kept. -/
def Graph.keeping (g : Graph) (keep : String → String → Bool) : Graph :=
  { g with nodes := ⟨g.nodes.entries.map (fun e => (e.1, e.2.keeping (keep e.1)))⟩ }

theorem Graph.attributesOf_keeping (g : Graph) (keep : String → String → Bool) (id : String) :
    (g.keeping keep).attributesOf id = g.attributesOf id := by
  have hfind : (g.keeping keep).nodes.find? id = (g.nodes.find? id).map (·.keeping (keep id)) :=
    Table.lookup_map_value (fun id (node : GraphNode) => node.keeping (keep id)) g.nodes.entries id
  unfold Graph.attributesOf
  rw [hfind, Option.map_map]
  rfl

theorem Graph.mem_callEdges {g : Graph} {u v : String} :
    (u, v) ∈ g.callEdges ↔ ∃ node, (u, node) ∈ g.nodes.entries ∧
      ∃ byType, (v, byType) ∈ node.out.entries ∧ Coded.code EdgeType.calls ∈ byType.keys := by
  simp only [Graph.callEdges, Graph.edgesOfType, Graph.edges, Graph.edgesFrom, Table.keys,
    List.mem_map, List.mem_filter, List.mem_flatMap, beq_iff_eq, Prod.mk.injEq]
  constructor
  · rintro ⟨_, ⟨⟨⟨_, node⟩, hnode, ⟨_, byType⟩, hout, typed, htyped, rfl⟩, htype⟩, rfl, rfl⟩
    exact ⟨node, hnode, byType, hout, typed, htyped, htype⟩
  · rintro ⟨node, hnode, byType, hout, typed, htyped, htype⟩
    exact ⟨_, ⟨⟨_, hnode, _, hout, typed, htyped, rfl⟩, htype⟩, rfl, rfl⟩

theorem Graph.mem_callEdges_keeping (g : Graph) (keep : String → String → Bool)
    {e : String × String} :
    e ∈ (g.keeping keep).callEdges ↔ e ∈ g.callEdges ∧ keep e.1 e.2 = true := by
  obtain ⟨u, v⟩ := e
  rw [Graph.mem_callEdges, Graph.mem_callEdges]
  constructor
  · rintro ⟨node, hnode, byType, hout, htype⟩
    obtain ⟨⟨_, known⟩, hknown, he⟩ := List.mem_map.mp hnode
    obtain ⟨rfl, rfl⟩ := Prod.mk.inj he
    obtain ⟨hout, hkeep⟩ := List.mem_filter.mp hout
    exact ⟨⟨known, hknown, byType, hout, htype⟩, hkeep⟩
  · rintro ⟨⟨node, hnode, byType, hout, htype⟩, hkeep⟩
    exact ⟨node.keeping (keep u), List.mem_map.mpr ⟨_, hnode, rfl⟩, byType,
      List.mem_filter.mpr ⟨hout, hkeep⟩, htype⟩

namespace Cycle

open Adjacency (SimpleCycle)

/-- Each component cycle that is flagged as new has a hop that the baseline lacks. -/
def NoFalseAlarm (baseline : Graph) (cs : List Cycle) : Prop :=
  ∀ c ∈ cs, c.kind = .component → c.isNew = true →
    ∃ p ∈ hops c.nodes, ¬ ComponentCall baseline p.1 p.2

/-- The calls of the graph that make a hop of the walk, and no others. -/
def along (g : Graph) (nodes : List String) : Graph :=
  g.keeping (fun u v => (hops nodes).contains
    ((owner (g.attributesOf u)).display, (owner (g.attributesOf v)).display))

theorem componentCall_along {g : Graph} {nodes : List String} {a b : String} :
    ComponentCall (along g nodes) a b ↔ ComponentCall g a b ∧ (a, b) ∈ hops nodes := by
  have hcall : ∀ e, e ∈ (along g nodes).callEdges ↔ e ∈ g.callEdges ∧
      ((owner (g.attributesOf e.1)).display, (owner (g.attributesOf e.2)).display) ∈
        hops nodes := by
    intro e
    rw [along, Graph.mem_callEdges_keeping, List.contains_iff_mem]
  constructor
  · rintro ⟨e, he, ha, hb, hnamed⟩
    rw [along, Graph.attributesOf_keeping] at ha hb
    obtain ⟨he, hhop⟩ := (hcall e).mp he
    rw [ha, hb] at hhop
    exact ⟨⟨e, he, ha, hb, hnamed⟩, hhop⟩
  · rintro ⟨⟨e, he, ha, hb, hnamed⟩, hhop⟩
    refine ⟨e, (hcall e).mpr ⟨he, ?_⟩, ?_, ?_, hnamed⟩
    · rw [ha, hb]
      exact hhop
    · rw [along, Graph.attributesOf_keeping, ha]
    · rw [along, Graph.attributesOf_keeping, hb]

theorem callsShowable_along {g : Graph} (h : CallsShowable g) (nodes : List String) :
    CallsShowable (along g nodes) := by
  intro e he
  unfold along at he ⊢
  rw [Graph.attributesOf_keeping, Graph.attributesOf_keeping]
  exact h e ((Graph.mem_callEdges_keeping g _).mp he).1

theorem components_along (g : Graph) (nodes : List String) :
    (components (along g nodes)).length ≤ (components g).length := by
  refine (List.subperm_of_subset (nodup_distinct _) ?_).length_le
  intro a ha
  obtain ⟨b, h⟩ := mem_components.mp ha
  rw [componentCall_along, componentCall_along] at h
  exact mem_components.mpr ⟨b, h.imp And.left And.left⟩

theorem simpleCycle_iff {R : String → String → Prop} {nodes : List String} :
    SimpleCycle R nodes ↔ (∀ p ∈ hops nodes, R p.1 p.2) ∧
      ∃ x between, nodes = x :: between ++ [x] ∧ (x :: between).Nodup := by
  unfold SimpleCycle
  refine and_congr_left' ⟨Adjacency.hops_of_isChain, fun h => ?_⟩
  exact (Adjacency.isChain_hops nodes).imp (fun u v hhop => h (u, v) hhop)

theorem edge_eq_componentCall (g : Graph) :
    Adjacency.Edge (componentAdjacency (crossings g)) = ComponentCall g := by
  funext a b
  exact propext edge_componentAdjacency

theorem simple_of_walk {g : Graph} {limit : Int} {walk : List String}
    (h : walk ∈ componentWalks g limit) : SimpleCycle (ComponentCall g) walk :=
  edge_eq_componentCall g ▸ Adjacency.simple_of_mem_cycles h

/-- Along a ring nothing else goes round. -/
theorem isRotated_of_ring_along {g : Graph} {nodes walk : List String}
    (hring : SimpleCycle (ComponentCall g) nodes)
    (hwalk : SimpleCycle (ComponentCall (along g nodes)) walk) :
    Adjacency.opened walk ~r Adjacency.opened nodes := by
  obtain ⟨_, x, between, rfl, hn⟩ := hring
  obtain ⟨hhops, y, rest, rfl, hfresh⟩ := simpleCycle_iff.mp hwalk
  rw [Adjacency.opened_closed, Adjacency.opened_closed]
  apply Adjacency.isRotated_of_hops_subset hn (List.nodup_cons.mp hfresh).1
  exact fun p hp => (componentCall_along.mp (hhops p hp)).2

/-- The search along a ring reports the ring, up to rotation. -/
theorem exists_walk_along {g : Graph} {nodes : List String} {limit : Int}
    (hring : SimpleCycle (ComponentCall g) nodes) (hlimit : ((components g).length : Int) ≤ limit) :
    ∃ walk ∈ componentWalks (along g nodes) limit, SimpleCycle (ComponentCall g) walk ∧
      Adjacency.signature walk = Adjacency.signature nodes := by
  have hedges := edge_eq_componentCall (along g nodes)
  have hwithin : ((components (along g nodes)).length : Int) ≤ limit := by
    have hfewer := components_along g nodes
    omega
  have hround : SimpleCycle (ComponentCall (along g nodes)) nodes := by
    obtain ⟨hhops, hshape⟩ := simpleCycle_iff.mp hring
    exact simpleCycle_iff.mpr ⟨fun p hp => componentCall_along.mpr ⟨hhops p hp, hp⟩, hshape⟩
  have hsome : componentWalks (along g nodes) limit ≠ [] := by
    intro hnone
    exact (hedges ▸ hround).not_acyclic (Adjacency.acyclic_of_cycles_eq_nil hwithin hnone)
  obtain ⟨walk, hwalk⟩ := List.exists_mem_of_ne_nil _ hsome
  have hrot := isRotated_of_ring_along hring (simple_of_walk hwalk)
  obtain ⟨hhops, y, rest, rfl, hn⟩ := simpleCycle_iff.mp (simple_of_walk hwalk)
  refine ⟨_, hwalk, ?_, Adjacency.signature_eq_of_isRotated hrot ?_⟩
  · exact simpleCycle_iff.mpr
      ⟨fun p hp => (componentCall_along.mp (hhops p hp)).1, y, rest, rfl, hn⟩
  · rwa [Adjacency.opened_closed]

theorem noFalseAlarm_iff {baseline candidate : Graph} {limit : Int} {cs : List Cycle}
    (h : compare (some baseline) candidate limit = .ok cs) :
    NoFalseAlarm baseline cs ↔ ∀ walk ∈ componentWalks candidate limit,
      SimpleCycle (ComponentCall baseline) walk → Reported baseline limit walk := by
  constructor
  · intro hfine walk hwalk hring
    obtain ⟨c, hc, hkind, rfl⟩ := exists_of_walk h hwalk
    by_contra hunknown
    obtain ⟨p, hp, hmissing⟩ := hfine c hc hkind ((isNew_iff h hc hkind).2.mpr hunknown)
    exact hmissing ((simpleCycle_iff.mp hring).1 p hp)
  · intro hknown c hc hkind hnew
    obtain ⟨hwalk, hiff⟩ := isNew_iff h hc hkind
    by_contra hnone
    have hinside : ∀ p ∈ hops c.nodes, ComponentCall baseline p.1 p.2 := by
      intro p hp
      by_contra hmissing
      exact hnone ⟨p, hp, hmissing⟩
    apply hiff.mp hnew
    exact hknown c.nodes hwalk (simpleCycle_iff.mpr ⟨hinside, (simple_of_walk hwalk).2⟩)

/-- What is left of a graph along one of its rings raises a false alarm, unless the search of the
whole graph reports the ring. -/
theorem compare_along {g : Graph} {limit : Int} {ring : List String} (hshown : CallsShowable g)
    (hlimit : ((components g).length : Int) ≤ limit) (hring : SimpleCycle (ComponentCall g) ring) :
    ∃ cs, compare (some g) (along g ring) limit = .ok cs ∧
      (NoFalseAlarm g cs → Reported g limit ring) := by
  obtain ⟨known, hknown⟩ := detect_ok hshown limit
  obtain ⟨found, hfound⟩ := detect_ok (callsShowable_along hshown ring) limit
  have hcompare := compare_eq_ok.mpr ⟨known, found, hknown, hfound, rfl⟩
  refine ⟨_, hcompare, fun hfine => ?_⟩
  obtain ⟨walk, hwalk, hinside, hsame⟩ := exists_walk_along hring hlimit
  obtain ⟨k, hk, hksame⟩ := (noFalseAlarm_iff hcompare).mp hfine walk hwalk hinside
  exact ⟨k, hk, hksame.trans hsame⟩

/-- **When the flag can be trusted.** No cycle of a candidate is flagged as new in vain just when
each one the candidate's search reports, and whose hops the baseline has, is one that the baseline's
search reports too. And no candidate at all gets a false alarm just when the baseline's search
reports every ring of the baseline. -/
theorem no_false_alarm_iff_every_cycle_reported (baseline : Graph) (limit : Int) :
    (∀ candidate cs, compare (some baseline) candidate limit = .ok cs →
      (NoFalseAlarm baseline cs ↔ ∀ walk ∈ componentWalks candidate limit,
        SimpleCycle (ComponentCall baseline) walk → Reported baseline limit walk)) ∧
    (CallsShowable baseline → ((components baseline).length : Int) ≤ limit →
      ((∀ candidate cs, ((components candidate).length : Int) ≤ limit →
          compare (some baseline) candidate limit = .ok cs → NoFalseAlarm baseline cs) ↔
        ∀ ring, SimpleCycle (ComponentCall baseline) ring → Reported baseline limit ring)) := by
  refine ⟨fun candidate cs h => noFalseAlarm_iff h, fun hshown hlimit => ⟨?_, ?_⟩⟩
  · intro hfine ring hring
    obtain ⟨cs, hcompare, hreported⟩ := compare_along hshown hlimit hring
    have hfewer := components_along baseline ring
    exact hreported (hfine (along baseline ring) cs (by omega) hcompare)
  · intro hall candidate cs _ hcompare
    exact (noFalseAlarm_iff hcompare).mpr (fun walk _ hring => hall walk hring)

/-- Three components of two methods each. The ring `A → B → C` and the ring `A → C` have the call
from `C` to `A` in common. -/
def overlappingRings : Graph :=
  let methods := [("a1", "A"), ("a2", "A"), ("b1", "B"), ("b2", "B"), ("c1", "C"), ("c2", "C")]
  let g := methods.foldl (fun g m =>
    g.addNode m.1 "method" [("class_name", .str m.2), ("name", .str m.1)]) (Graph.empty "shop")
  [("a1", "b1"), ("b2", "c1"), ("c2", "a2"), ("a1", "c1")].foldl (fun g c =>
    g.addEdge c.1 c.2 (Coded.code EdgeType.calls) []) g

/-- What is left of it without the calls to and from `B`. -/
def shortRing : Graph := along overlappingRings ["A", "C", "A"]

/-- The same rings with the components as nodes. -/
def overlapping : Adjacency := ⟨[("A", ["B", "C"]), ("B", ["C"]), ("C", ["A"])]⟩

/-- From `A` the search reaches `C` by way of `B`, and then passes over the edge from `A` to `C`. -/
theorem overlapping_cycles : Adjacency.cycles overlapping [] 3 = [["A", "B", "C", "A"]] := by
  have hroots : Adjacency.roots overlapping [] = ["A", "B", "C"] := by
    have hsorted : Text.sorted overlapping.keys = ["A", "B", "C"] :=
      Text.sorted_of_pairwise (by decide)
    unfold Adjacency.roots
    rw [hsorted]
    decide
  have ha : Adjacency.neighbours overlapping "A" = ["B", "C"] :=
    Text.sorted_of_pairwise (by decide)
  have hb : Adjacency.neighbours overlapping "B" = ["C"] := Text.sorted_of_pairwise (by decide)
  have hc : Adjacency.neighbours overlapping "C" = ["A"] := Text.sorted_of_pairwise (by decide)
  have hnodes : (Adjacency.nodes overlapping).length = 3 := by decide
  unfold Adjacency.cycles
  rw [hroots]
  simp [Adjacency.exploreFrom, Adjacency.explore, hnodes, ha, hb, hc, Adjacency.Search.enter,
    Adjacency.Search.report, Adjacency.closing, Adjacency.withinLimit]

theorem overlappingRings_adjacency :
    componentAdjacency (crossings overlappingRings) = overlapping := by
  have hsorted : overlappingRings.callEdges.mergeSort edgeLE =
      [("a1", "b1"), ("a1", "c1"), ("b2", "c1"), ("c2", "a2")] :=
    List.mergeSort_of_pairwise (by decide)
  unfold crossings sortedCalls
  rw [hsorted]
  rfl

theorem overlappingRings_showable : CallsShowable overlappingRings := by
  have hshown : ∀ id ∈ ["a1", "a2", "b1", "b2", "c1", "c2"],
      Showable (overlappingRings.attributesOf id) := by
    simp only [List.forall_mem_cons]
    refine ⟨?_, ?_, ?_, ?_, ?_, ?_, by simp⟩ <;> exact ⟨⟨_, rfl⟩, some _, rfl⟩
  have hends : ∀ e ∈ overlappingRings.callEdges,
      e.1 ∈ ["a1", "a2", "b1", "b2", "c1", "c2"] ∧ e.2 ∈ ["a1", "a2", "b1", "b2", "c1", "c2"] := by
    decide
  exact fun e he => ⟨hshown _ (hends e he).1, hshown _ (hends e he).2⟩

theorem overlappingRings_ring : SimpleCycle (ComponentCall overlappingRings) ["A", "C", "A"] := by
  have hac : ComponentCall overlappingRings "A" "C" :=
    ⟨("a1", "c1"), by decide, rfl, rfl, by decide⟩
  have hca : ComponentCall overlappingRings "C" "A" :=
    ⟨("c2", "a2"), by decide, rfl, rfl, by decide⟩
  refine ⟨?_, "A", ["C"], rfl, by decide⟩
  exact .cons_cons hac (.cons_cons hca (.singleton _))

theorem overlappingRings_not_reported : ¬ Reported overlappingRings 3 ["A", "C", "A"] := by
  rintro ⟨known, hknown, hsame⟩
  unfold componentWalks at hknown
  rw [overlappingRings_adjacency, overlapping_cycles, List.mem_singleton] at hknown
  subst hknown
  exact absurd hsame (by decide)

theorem overlappingRings_components : ((components overlappingRings).length : Int) ≤ 3 := by
  unfold components
  rw [overlappingRings_adjacency]
  decide

/-- A candidate that only drops the calls of `B` has the short ring flagged as new. -/
theorem shortRing_false_alarm :
    ((components overlappingRings).length : Int) ≤ 3 ∧ ((components shortRing).length : Int) ≤ 3 ∧
    ∃ cs, compare (some overlappingRings) shortRing 3 = .ok cs ∧
      ¬ NoFalseAlarm overlappingRings cs := by
  have hlimit := overlappingRings_components
  have hfewer : (components shortRing).length ≤ (components overlappingRings).length :=
    components_along overlappingRings ["A", "C", "A"]
  obtain ⟨cs, hcompare, hreported⟩ :=
    compare_along overlappingRings_showable hlimit overlappingRings_ring
  exact ⟨hlimit, by omega, cs, hcompare,
    fun hfine => overlappingRings_not_reported (hreported hfine)⟩

theorem overlappingRings_false_alarm :
    CallsShowable overlappingRings ∧ ((components overlappingRings).length : Int) ≤ 3 ∧
    ∃ candidate cs, ((components candidate).length : Int) ≤ 3 ∧
      compare (some overlappingRings) candidate 3 = .ok cs ∧
      ¬ NoFalseAlarm overlappingRings cs := by
  refine ⟨overlappingRings_showable, overlappingRings_components, ?_⟩
  have hall := (no_false_alarm_iff_every_cycle_reported overlappingRings 3).2
    overlappingRings_showable overlappingRings_components
  by_contra hnone
  refine overlappingRings_not_reported (hall.mp ?_ _ overlappingRings_ring)
  intro candidate cs hlimit hcompare
  by_contra halarm
  exact hnone ⟨candidate, cs, hlimit, hcompare, halarm⟩

end Cycle

end ArchGraph
