import ArchGraph.Proofs.CrossingCycles

/-!
A method cycle never comes without a component cycle. Each call between methods either stays in a
class or is a call between two classes, so a way round among methods that leaves a class leads round
among the classes too (`round_of_crossing`), and the search among the components, which misses no
way round altogether, reports something.
-/

namespace ArchGraph.Cycle

open Adjacency (SimpleCycle)
open Relation (ReflTransGen TransGen)

variable {g : Graph} {limit : Int}

/-- The classes of the methods that take part in calls, each once. -/
def owners (g : Graph) : List String :=
  distinct (g.callEdges.flatMap (fun e =>
    [(owner (g.attributesOf e.1)).display, (owner (g.attributesOf e.2)).display]))

theorem mem_owners {a : String} :
    a ∈ owners g ↔ ∃ id, CallEnd g id ∧ (owner (g.attributesOf id)).display = a := by
  unfold owners
  rw [mem_distinct, List.mem_flatMap]
  constructor
  · rintro ⟨e, he, ha⟩
    simp only [List.mem_cons, List.not_mem_nil, or_false] at ha
    rcases ha with rfl | rfl
    · exact ⟨e.1, ⟨e, he, .inl rfl⟩, rfl⟩
    · exact ⟨e.2, ⟨e, he, .inr rfl⟩, rfl⟩
  · rintro ⟨id, ⟨e, he, rfl | rfl⟩, rfl⟩
    · exact ⟨e, he, by simp⟩
    · exact ⟨e, he, by simp⟩

/-- There are no more components that call each other than there are classes. -/
theorem components_le_owners (g : Graph) : (components g).length ≤ (owners g).length := by
  have hsub : ∀ a ∈ components g, a ∈ owners g := by
    intro a ha
    obtain ⟨b, hcall | hcall⟩ := mem_components.mp ha
    · obtain ⟨e, he, hsource, _⟩ := hcall
      exact mem_owners.mpr ⟨e.1, ⟨e, he, .inl rfl⟩, congrArg Json.display hsource⟩
    · obtain ⟨e, he, _, htarget, _⟩ := hcall
      exact mem_owners.mpr ⟨e.2, ⟨e, he, .inr rfl⟩, congrArg Json.display htarget⟩
  exact (List.subperm_of_subset (nodup_distinct _) hsub).length_le

/-! ## From methods to classes -/

theorem componentCall_of_methodCall (h : WellNamed g) {u v : String} (hcall : MethodCall g u v) :
    ownerOf u = ownerOf v ∨ ComponentCall g (ownerOf u) (ownerOf v) := by
  by_cases hsame : ownerOf u = ownerOf v
  · exact .inl hsame
  · right
    obtain ⟨e, he, rfl, rfl⟩ := hcall
    obtain ⟨hsource, hnamed⟩ := owner_of_methodKey h ⟨e, he, .inl rfl⟩
    obtain ⟨htarget, hnamed'⟩ := owner_of_methodKey h ⟨e, he, .inr rfl⟩
    exact ⟨e, he, hsource, htarget, hnamed, hnamed', hsame⟩

/-- A way among methods is one among their classes, without the steps that stay in a class. -/
theorem leads_owners (h : WellNamed g) {u v : String} (hway : ReflTransGen (MethodCall g) u v) :
    ReflTransGen (ComponentCall g) (ownerOf u) (ownerOf v) := by
  induction hway with
  | refl => exact .refl
  | tail _ hcall ih =>
      rcases componentCall_of_methodCall h hcall with hsame | hcall
      · rwa [← hsame]
      · exact ih.tail hcall

/-- Around a ring every node leads to every other. -/
theorem leads_around {R : String → String → Prop} {ring : List String} (h : SimpleCycle R ring)
    {x y : String} (hx : x ∈ ring) (hy : y ∈ ring) : ReflTransGen R x y := by
  obtain ⟨hwalk, start, between, rfl, _⟩ := h
  have hround : ∀ z ∈ start :: between ++ [start],
      ReflTransGen R start z ∧ ReflTransGen R z start := by
    intro z hz
    rcases List.mem_append.mp hz with hz | hz
    · obtain ⟨before, after, hsplit⟩ := List.append_of_mem hz
      rw [hsplit, List.append_assoc] at hwalk
      have hback : (z :: after ++ [start]).IsChain R := hwalk.right_of_append
      refine ⟨?_, (Adjacency.transGen_of_isChain hback).to_reflTransGen⟩
      cases before with
      | nil => rw [(List.cons.inj hsplit).1]
      | cons first before =>
          rw [(List.cons.inj hsplit).1]
          have hto : (first :: before ++ [z]).IsChain R :=
            hwalk.prefix ⟨after ++ [start], by simp⟩
          exact (Adjacency.transGen_of_isChain hto).to_reflTransGen
    · rw [List.mem_singleton.mp hz]
      exact ⟨.refl, .refl⟩
  exact (hround x hx).2.trans (hround y hy).1

/-- A ring through two classes leads round among the classes. -/
theorem round_of_crossing (h : WellNamed g) {ring : List String} (hring : CrossingRing g ring) :
    ∃ a, TransGen (ComponentCall g) a a := by
  obtain ⟨x, hx, y, hy, hne⟩ := (crosses_iff h (mem_methods_of_ring hring.1)).mp hring.2
  have hto := leads_owners h (leads_around hring.1 hx hy)
  have hback := leads_owners h (leads_around hring.1 hy hx)
  refine ⟨ownerOf x, ?_⟩
  rcases Relation.reflTransGen_iff_eq_or_transGen.mp hto with hsame | hto
  · exact absurd hsame.symm hne
  · exact hto.trans_left hback

theorem componentWalks_ne_nil_of_crossing (h : WellNamed g)
    (hlimit : ((owners g).length : Int) ≤ limit) {ring : List String}
    (hring : CrossingRing g ring) :
    componentWalks g limit ≠ [] := by
  intro hnone
  have hwithin : ((components g).length : Int) ≤ limit := by
    have hfewer := components_le_owners g
    omega
  obtain ⟨a, hround⟩ := round_of_crossing h hring
  rw [← edge_eq_componentCall] at hround
  exact Adjacency.acyclic_of_cycles_eq_nil hwithin hnone a hround

/-- **No method cycle without a component cycle.** Where a method cycle is found, the search among
the components does not come back empty; if its calls can be shown it finds a component cycle, and
whatever is detected in the graph has an error in it. -/
theorem method_cycle_brings_component_cycle (g : Graph) (limit : Int) (hnamed : WellNamed g)
    (hlimit : ((owners g).length : Int) ≤ limit) (ms : List Cycle)
    (hms : ofMethods g limit = .ok ms)
    (hsome : ms ≠ []) :
    ofComponents g limit ≠ .ok [] ∧
    (CallsShowable g → ∃ c cs, ofComponents g limit = .ok (c :: cs)) ∧
    ∀ cs, detect g limit = .ok cs → ∃ c ∈ cs, c.kind = .component ∧ c.severity = .error := by
  obtain ⟨walk, hwalk, hcross⟩ := (ofMethods_ne_nil_iff hnamed hms).mp hsome
  have hring : CrossingRing g walk := ⟨simple_of_methodWalk hwalk, hcross⟩
  obtain ⟨nodes, hnodes⟩ := List.exists_mem_of_ne_nil _
    (componentWalks_ne_nil_of_crossing hnamed hlimit hring)
  have hreported : ∀ cs, ofComponents g limit = .ok cs →
      ∃ c ∈ cs, c.kind = .component ∧ c.severity = .error := by
    intro cs hcs
    obtain ⟨edges, hc⟩ := (ofComponents_mem hcs).2 nodes hnodes
    exact ⟨_, hc, rfl, rfl⟩
  refine ⟨fun hnone => ?_, fun hshown => ?_, fun cs hcs => ?_⟩
  · obtain ⟨c, hc, _⟩ := hreported [] hnone
    cases hc
  · obtain ⟨cs, hcs⟩ := ofComponents_ok hshown limit
    cases cs with
    | nil =>
        obtain ⟨c, hc, _⟩ := hreported [] hcs
        cases hc
    | cons c cs => exact ⟨c, cs, hcs⟩
  · obtain ⟨components, methods, hcomponents, _, rfl⟩ := detect_eq_ok.mp hcs
    obtain ⟨c, hc, hkind⟩ := hreported components hcomponents
    exact ⟨c, List.mem_append_left _ hc, hkind⟩

theorem twoPairs_owners : ((owners twoPairs).length : Int) ≤ 4 := by
  have hsub : ∀ a ∈ owners twoPairs, a ∈ ["A", "B", "C"] := by
    intro a ha
    obtain ⟨id, hid, rfl⟩ := mem_owners.mp ha
    have hnames : ∀ x ∈ ["A.a1", "A.a2", "B.b", "C.c"], ownerOf x ∈ ["A", "B", "C"] := by decide
    have hmem := mem_of_mem_methods twoPairs_keys twoPairs_ends
      (mem_methods.mpr ⟨id, hid, methodKey_ofMethodCalls twoPairs_keys hid⟩)
    have howner : owner (twoPairs.attributesOf id) = .str (ownerOf id) :=
      (method_ofMethodCalls hid).1
    rw [howner]
    exact hnames id hmem
  have hlength : (owners twoPairs).length ≤ 3 :=
    (List.subperm_of_subset (nodup_distinct _) hsub).length_le
  omega

theorem twoPairs_brings_component_cycle :
    WellNamed twoPairs ∧ ((owners twoPairs).length : Int) ≤ 4 ∧
    ∃ ms, ofMethods twoPairs 4 = .ok ms ∧ ms ≠ [] ∧
      ∃ c cs, ofComponents twoPairs 4 = .ok (c :: cs) := by
  obtain ⟨ms, hms, hsome⟩ := noticed_of_ring twoPairs_named (callsShowable_ofMethodCalls _)
    twoPairs_plain twoPairs_limit twoPairs_rings.1 twoPairs_apart
  have hcycle :=
    method_cycle_brings_component_cycle twoPairs 4 twoPairs_named twoPairs_owners ms hms
    hsome
  exact ⟨twoPairs_named, twoPairs_owners, ms, hms, hsome,
    hcycle.2.1 (callsShowable_ofMethodCalls _)⟩

end ArchGraph.Cycle
