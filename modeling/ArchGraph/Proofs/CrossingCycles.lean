import ArchGraph.Proofs.Export
import ArchGraph.Proofs.MethodKeys
import ArchGraph.Proofs.MissedCycles

/-!
When a cycle between methods of different classes is noticed. Cycles within a class are left out
only after the search, and the search reports one cycle for each edge that leads back to its path.
So a way round through two classes can be passed over where it comes back along a call that closes a
cycle within a class, and where methods of a class call each other round there is always room for
such a way (`crossing_rings_noticed_iff`).
-/

namespace ArchGraph.Cycle

open Adjacency (SimpleCycle Plain)

variable {g : Graph} {limit : Int}

/-- A way round among the methods that leads through two classes at least. -/
def CrossingRing (g : Graph) (ring : List String) : Prop :=
  SimpleCycle (MethodCall g) ring ∧ Crosses g ring

/-- A call between methods of one class. -/
def InnerCall (g : Graph) (u v : String) : Prop :=
  MethodCall g u v ∧ ∃ o, OwnedBy g u o ∧ OwnedBy g v o

/-- Several methods of a class that call each other round. -/
def InnerRing (g : Graph) (ring : List String) : Prop :=
  SimpleCycle (InnerCall g) ring ∧ 2 < ring.length

/-- Some method cycle is reported. -/
def Noticed (g : Graph) (limit : Int) : Prop := ∃ cs, ofMethods g limit = .ok cs ∧ cs ≠ []

/-! ## What is noticed -/

theorem innerCall_iff (h : WellNamed g) {u v : String} :
    InnerCall g u v ↔ MethodCall g u v ∧ ownerOf u = ownerOf v := by
  constructor
  · rintro ⟨hcall, o, hu, hv⟩
    exact ⟨hcall, ((ownedBy_iff h).mp hu).2.trans ((ownedBy_iff h).mp hv).2.symm⟩
  · rintro ⟨hcall, hsame⟩
    exact ⟨hcall, ownerOf u, (ownedBy_iff h).mpr ⟨hcall.mem.1, rfl⟩,
      (ownedBy_iff h).mpr ⟨hcall.mem.2, hsame.symm⟩⟩

/-- A method that calls itself is no part of a way through two classes. -/
theorem CrossingRing.hop_ne (h : WellNamed g) {ring : List String} (hring : CrossingRing g ring)
    {p : String × String} (hp : p ∈ hops ring) : p.1 ≠ p.2 := by
  intro hloop
  have hcross := (crosses_iff h (mem_methods_of_ring hring.1)).mp hring.2
  obtain ⟨_, x, between, rfl, hn⟩ := hring.1
  have hrot : [p.1] ~r x :: between := by
    apply Adjacency.isRotated_of_hops_subset hn List.not_mem_nil
    intro q hq
    obtain rfl : q = (p.1, p.1) := by simpa [hops] using hq
    exact (Prod.ext rfl hloop : (p.1, p.1) = p) ▸ hp
  obtain ⟨rfl, rfl⟩ := List.cons.inj (List.singleton_perm.mp hrot.perm)
  simp at hcross

theorem innerRing_of_not_crosses (h : WellNamed g) {walk : List String}
    (hwalk : SimpleCycle (MethodCall g) walk) (hinner : ¬ Crosses g walk) {p : String × String}
    (hp : p ∈ hops walk) (hne : p.1 ≠ p.2) : InnerRing g walk := by
  have hsame : ∀ x ∈ walk, ∀ y ∈ walk, ownerOf x = ownerOf y := by
    intro x hx y hy
    by_contra hdiffer
    exact hinner ((crosses_iff h (mem_methods_of_ring hwalk)).mpr ⟨x, hx, y, hy, hdiffer⟩)
  obtain ⟨hhops, x, between, rfl, hn⟩ := simpleCycle_iff.mp hwalk
  constructor
  · refine simpleCycle_iff.mpr ⟨fun q hq => ?_, x, between, rfl, hn⟩
    obtain ⟨hsource, htarget⟩ := List.of_mem_zip hq
    exact (innerCall_iff h).mpr ⟨hhops q hq, hsame _ hsource _ (List.mem_of_mem_drop htarget)⟩
  · cases between with
    | nil =>
        obtain rfl : p = (x, x) := by simpa [hops] using hp
        exact absurd rfl hne
    | cons y between => simp

/-- A way through two classes that shares no call with a cycle within a class is noticed: one of its
calls closes a reported cycle, which then leads through two classes too. -/
theorem noticed_of_ring (hnamed : WellNamed g) (hshown : CallsShowable g)
    (hplain : ∀ x ∈ methods g, Plain x) (hlimit : ((methods g).length : Int) ≤ limit)
    {ring : List String} (hring : CrossingRing g ring)
    (hfree : ∀ p ∈ hops ring, ∀ inner, InnerRing g inner → p ∉ hops inner) : Noticed g limit := by
  obtain ⟨cs, hcs⟩ := ofMethods_ok hshown limit
  refine ⟨cs, hcs, (ofMethods_ne_nil_iff hnamed hcs).mpr ?_⟩
  obtain ⟨walk, hwalk, p, hp, hshared⟩ := Adjacency.exists_shared_hop
    (Adjacency.Complete.of_plain hplain hlimit) [] (edge_eq_methodCall g ▸ hring.1)
  refine ⟨walk, hwalk, ?_⟩
  by_contra hinner
  have hne := hring.hop_ne hnamed hp
  exact hfree p hp walk
    (innerRing_of_not_crosses hnamed (simple_of_methodWalk hwalk) hinner hshared hne) hshared

/-! ## Graphs of methods that call each other -/

/-- What is written of a method of which the key is known. -/
def described (key : String) : List (String × Json) :=
  [("class_name", .str (ownerOf key)), ("name", .str (nameOf key))]

/-- The graph of the calls between some methods, each of which is known by its key. -/
def ofMethodCalls (calls : List (String × String)) : Graph :=
  calls.foldl withCall (Graph.addNodes .method described
    ⟨(distinct (calls.flatMap (fun c => [c.1, c.2]))).map (fun x => (x, x))⟩ (Graph.empty ""))

/-- A key that a class with a name and a method make. -/
def IsKey (x : String) : Prop := '.' ∈ x.toList ∧ ownerOf x ≠ ""

instance (x : String) : Decidable (IsKey x) := inferInstanceAs (Decidable (_ ∧ _))

theorem isKey_of_mem_methods (h : WellNamed g) {x : String} (hx : x ∈ methods g) : IsKey x := by
  obtain ⟨id, hid, rfl⟩ := mem_methods.mp hx
  refine ⟨?_, (owner_of_methodKey h hid).2⟩
  unfold methodKey MethodInfo.key
  simp [String.toList_append]

section OfMethodCalls

variable {calls : List (String × String)}

theorem mem_callEdges_ofMethodCalls {e : String × String} :
    e ∈ (ofMethodCalls calls).callEdges ↔ e ∈ calls := by
  have hwell : (ofMethodCalls calls).WellFormed :=
    wellFormed_withCalls _ (Graph.wellFormed_addNodes (Graph.wellFormed_empty _ _) _ _ _)
  rw [Graph.mem_callEdges_iff hwell, ofMethodCalls, called_withCalls, Graph.relationship?_addNodes]
  simp [Graph.relationship?, Graph.empty]

theorem attributesOf_ofMethodCalls {x : String} (hx : CallEnd (ofMethodCalls calls) x) :
    (ofMethodCalls calls).attributesOf x =
      (∅ : Attributes).insertAll ((Graph.typeName, .str "method") :: described x) := by
  let ends : Table String String :=
    ⟨(distinct (calls.flatMap (fun c => [c.1, c.2]))).map (fun x => (x, x))⟩
  have hdistinct : ends.Distinct := by
    have hkeys : ends.keys = distinct (calls.flatMap (fun c => [c.1, c.2])) := by
      simp [ends, Table.keys, Function.comp_def]
    rw [Table.Distinct, hkeys]
    exact nodup_distinct _
  have hmem : (x, x) ∈ ends.entries := by
    obtain ⟨e, he, hend⟩ := hx
    refine List.mem_map.mpr ⟨x, mem_distinct.mpr (List.mem_flatMap.mpr ⟨e, ?_, ?_⟩), rfl⟩
    · exact mem_callEdges_ofMethodCalls.mp he
    · simpa using hend
  unfold ofMethodCalls
  rw [attributesOf_withCalls, Graph.attributesOf_addNodes hdistinct,
    Table.find?_of_mem hdistinct hmem]
  rfl

/-- A method in such a graph is what its key says. -/
theorem method_ofMethodCalls {x : String} (hx : CallEnd (ofMethodCalls calls) x) :
    owner ((ofMethodCalls calls).attributesOf x) = .str (ownerOf x) ∧
    shownClass ((ofMethodCalls calls).attributesOf x) = .str (ownerOf x) ∧
    ((ofMethodCalls calls).attributesOf x).attribute "name" = .str (nameOf x) := by
  rw [attributesOf_ofMethodCalls hx]
  have hclass : ((∅ : Attributes).insertAll
      ((Graph.typeName, .str "method") :: described x)).attribute "class_name" =
        .str (ownerOf x) := by
    rw [attribute_insertAll]
    rfl
  have howner : owner ((∅ : Attributes).insertAll
      ((Graph.typeName, .str "method") :: described x)) = .str (ownerOf x) := by
    have hqualified : ((∅ : Attributes).insertAll
        ((Graph.typeName, .str "method") :: described x)).attribute "qualified_class" = .null := by
      rw [attribute_insertAll]
      rfl
    unfold owner
    rw [hqualified]
    exact hclass
  refine ⟨howner, ?_, ?_⟩
  · unfold shownClass
    rw [hclass, howner]
    exact ite_self _
  · rw [attribute_insertAll]
    rfl

theorem callsShowable_ofMethodCalls (calls : List (String × String)) :
    CallsShowable (ofMethodCalls calls) := by
  have hends : ∀ x, CallEnd (ofMethodCalls calls) x →
      Showable ((ofMethodCalls calls).attributesOf x) := by
    intro x hx
    obtain ⟨_, hshown, hname⟩ := method_ofMethodCalls hx
    exact ⟨⟨_, hshown⟩, some (nameOf x), hname⟩
  exact fun e he => ⟨hends e.1 ⟨e, he, .inl rfl⟩, hends e.2 ⟨e, he, .inr rfl⟩⟩

variable (hkeys : ∀ c ∈ calls, IsKey c.1 ∧ IsKey c.2)

include hkeys

theorem isKey_of_callEnd {x : String} (hx : CallEnd (ofMethodCalls calls) x) : IsKey x := by
  obtain ⟨e, he, rfl | rfl⟩ := hx
  · exact (hkeys e (mem_callEdges_ofMethodCalls.mp he)).1
  · exact (hkeys e (mem_callEdges_ofMethodCalls.mp he)).2

theorem methodKey_ofMethodCalls {x : String} (hx : CallEnd (ofMethodCalls calls) x) :
    methodKey (ofMethodCalls calls) x = x := by
  obtain ⟨howner, _, hname⟩ := method_ofMethodCalls hx
  unfold methodKey MethodInfo.key methodInfo
  rw [howner, hname]
  exact owner_dot_name (isKey_of_callEnd hkeys hx).1

theorem wellNamed_ofMethodCalls : WellNamed (ofMethodCalls calls) := by
  intro x hx
  obtain ⟨howner, _, hname⟩ := method_ofMethodCalls hx
  rw [howner, hname]
  exact ⟨⟨_, (isKey_of_callEnd hkeys hx).2, rfl⟩, dot_notMem_nameOf x⟩

theorem methodCall_ofMethodCalls {u v : String} :
    MethodCall (ofMethodCalls calls) u v ↔ (u, v) ∈ calls := by
  have hends : ∀ e ∈ (ofMethodCalls calls).callEdges, methodKey (ofMethodCalls calls) e.1 = e.1 ∧
      methodKey (ofMethodCalls calls) e.2 = e.2 := fun e he =>
    ⟨methodKey_ofMethodCalls hkeys ⟨e, he, .inl rfl⟩,
      methodKey_ofMethodCalls hkeys ⟨e, he, .inr rfl⟩⟩
  constructor
  · rintro ⟨e, he, rfl, rfl⟩
    rw [(hends e he).1, (hends e he).2]
    exact mem_callEdges_ofMethodCalls.mp he
  · intro h
    have he := mem_callEdges_ofMethodCalls.mpr h
    exact ⟨_, he, hends _ he⟩

theorem mem_of_mem_methods {names : List String} (hnames : ∀ c ∈ calls, c.1 ∈ names ∧ c.2 ∈ names)
    {x : String} (hx : x ∈ methods (ofMethodCalls calls)) : x ∈ names := by
  obtain ⟨id, hid, rfl⟩ := mem_methods.mp hx
  rw [methodKey_ofMethodCalls hkeys hid]
  obtain ⟨e, he, rfl | rfl⟩ := hid
  · exact (hnames e (mem_callEdges_ofMethodCalls.mp he)).1
  · exact (hnames e (mem_callEdges_ofMethodCalls.mp he)).2

theorem length_methods_le {names : List String} (hnames : ∀ c ∈ calls, c.1 ∈ names ∧ c.2 ∈ names) :
    (methods (ofMethodCalls calls)).length ≤ names.length :=
  (List.subperm_of_subset (nodup_distinct _)
    fun _ hx => mem_of_mem_methods hkeys hnames hx).length_le

end OfMethodCalls

/-! ## What can go unnoticed -/

/-- Methods of one class that call each other round, listed from the least key, and a method of
another class whose key comes after theirs. -/
structure Bypass (first second : String) (rest : List String) (aside : String) : Prop where
  once : (first :: second :: rest).Nodup
  least : ∀ x ∈ second :: rest, first < x
  last : ∀ x ∈ first :: second :: rest, x < aside
  keys : ∀ x ∈ aside :: first :: second :: rest, IsKey x
  inside : ∀ x ∈ first :: second :: rest, ownerOf x = ownerOf first
  outside : ownerOf aside ≠ ownerOf first

namespace Bypass

variable {first second aside : String} {rest : List String}

theorem calls_keys (h : Bypass first second rest aside) :
    ∀ c ∈ detour first second rest aside, IsKey c.1 ∧ IsKey c.2 := by
  intro c hc
  exact ⟨h.keys _ (mem_of_detour hc).1, h.keys _ (mem_of_detour hc).2⟩

theorem wellNamed (h : Bypass first second rest aside) :
    WellNamed (ofMethodCalls (detour first second rest aside)) :=
  wellNamed_ofMethodCalls h.calls_keys

theorem methodCall_iff (h : Bypass first second rest aside) {u v : String} :
    MethodCall (ofMethodCalls (detour first second rest aside)) u v ↔
      (u, v) ∈ detour first second rest aside :=
  methodCall_ofMethodCalls h.calls_keys

theorem aside_notMem (h : Bypass first second rest aside) : aside ∉ first :: second :: rest :=
  fun hin => String.lt_irrefl aside (h.last aside hin)

theorem crossingRing (h : Bypass first second rest aside) :
    CrossingRing (ofMethodCalls (detour first second rest aside))
      (first :: aside :: second :: rest ++ [first]) := by
  have hring := ring_of_detour h.once h.aside_notMem (fun p hp => h.methodCall_iff.mpr hp)
  refine ⟨hring, (crosses_iff h.wellNamed (mem_methods_of_ring hring)).mpr ?_⟩
  exact ⟨aside, by simp, first, by simp, h.outside⟩

/-- The calls within the class are those of the ring. -/
theorem hop_of_innerCall (h : Bypass first second rest aside) {u v : String}
    (hcall : InnerCall (ofMethodCalls (detour first second rest aside)) u v) :
    (u, v) ∈ hops (first :: second :: rest ++ [first]) := by
  obtain ⟨hcall, hsame⟩ := (innerCall_iff h.wellNamed).mp hcall
  rcases List.mem_append.mp (h.methodCall_iff.mp hcall) with hhop | hcall
  · exact hhop
  · simp only [List.mem_cons, List.not_mem_nil, or_false, Prod.mk.injEq] at hcall
    rcases hcall with ⟨rfl, rfl⟩ | ⟨rfl, rfl⟩
    · exact absurd hsame.symm h.outside
    · exact absurd (hsame.trans (h.inside v (by simp))) h.outside

theorem toDetour (h : Bypass first second rest aside) :
    Adjacency.Detour
      (methodAdjacency (methodCalls (ofMethodCalls (detour first second rest aside))))
      first second rest aside where
  edges := by
    intro u v
    rw [edge_eq_methodCall, h.methodCall_iff, detour, List.mem_append]
    simp
  once := h.once
  least := h.least
  last := h.last
  sources := fun _ hu => Adjacency.exists_edge_ofItems
    (fun c : MethodInfo × MethodInfo => c.1.key) (fun c => c.2.key) _ hu

/-- All that the search reports is the ring within the class, and that is left out. -/
theorem silent (h : Bypass first second rest aside)
    (hlimit : ((methods (ofMethodCalls (detour first second rest aside))).length : Int) ≤ limit) :
    ofMethods (ofMethodCalls (detour first second rest aside)) limit = .ok [] := by
  have hwalks : methodWalks (ofMethodCalls (detour first second rest aside)) limit =
      [first :: second :: rest ++ [first]] := h.toDetour.cycles_eq hlimit
  have hmem := mem_methods_of_ring (simple_of_methodWalk (hwalks ▸ List.mem_singleton_self _))
  have hinner : ¬ crossesComponents
      (methodInfos (methodCalls (ofMethodCalls (detour first second rest aside))))
      (first :: second :: rest ++ [first]) = true := by
    rw [crossesComponents_iff h.wellNamed hmem, crosses_iff h.wellNamed hmem]
    rintro ⟨x, hx, y, hy, hne⟩
    have hinside : ∀ z ∈ first :: second :: rest ++ [first], ownerOf z = ownerOf first := by
      intro z hz
      rcases List.mem_append.mp hz with hz | hz
      · exact h.inside z hz
      · rw [List.mem_singleton.mp hz]
    exact hne ((hinside x hx).trans (hinside y hy).symm)
  have hnone : (methodWalks (ofMethodCalls (detour first second rest aside)) limit).filter
      (crossesComponents (methodInfos (methodCalls
        (ofMethodCalls (detour first second rest aside))))) = [] := by
    rw [hwalks, List.filter_cons_of_neg hinner, List.filter_nil]
  have hmade : ofMethods (ofMethodCalls (detour first second rest aside)) limit =
      ((methodWalks (ofMethodCalls (detour first second rest aside)) limit).filter
        (crossesComponents (methodInfos (methodCalls
          (ofMethodCalls (detour first second rest aside)))))).mapM _ := rfl
  rw [hmade, hnone]
  rfl

end Bypass

/-- Methods of a class that call each other round can be passed by. -/
theorem exists_bypass (h : WellNamed g) {ring : List String} (hring : InnerRing g ring) :
    ∃ first second rest aside, Bypass first second rest aside ∧ Plain aside ∧
      SimpleCycle (InnerCall g) (first :: second :: rest ++ [first]) := by
  obtain ⟨first, second, rest, hlisted, once, least, _⟩ := exists_least_first hring.1 hring.2
  obtain ⟨late, hplain, hlater⟩ := exists_later ("" :: ownerOf first :: first :: second :: rest)
  have hlate : ∀ x ∈ ["", ownerOf first], x < late := by
    intro x hx
    have hlt := hlater "" x (List.mem_append_left (first :: second :: rest) hx)
    rwa [String.append_empty] at hlt
  have howner : ownerOf (late ++ "." ++ "a") = late := ownerOf_append late (by decide)
  have hkeys : ∀ x ∈ first :: second :: rest, x ∈ methods g := by
    intro x hx
    apply mem_methods_of_ring (hlisted.mono fun _ _ hcall => hcall.1)
    exact List.mem_append_left _ hx
  refine ⟨first, second, rest, late ++ "." ++ "a", ⟨once, least, ?_, ?_, ?_, ?_⟩, ?_, hlisted⟩
  · intro x hx
    have hlt := hlater ("." ++ "a") x (List.mem_cons_of_mem _ (List.mem_cons_of_mem _ hx))
    rwa [← String.append_assoc] at hlt
  · intro x hx
    rcases List.mem_cons.mp hx with rfl | hx
    · refine ⟨by simp [String.toList_append], ?_⟩
      rw [howner]
      rintro rfl
      exact String.lt_irrefl "" (hlate "" (by simp))
    · exact isKey_of_mem_methods h (hkeys x hx)
  · have hchain : (first :: second :: rest ++ [first]).IsChain (fun u v => ownerOf u = ownerOf v) :=
      hlisted.1.imp fun _ _ hcall => ((innerCall_iff h).mp hcall).2
    have hpairs := List.isChain_iff_pairwise.mp hchain
    intro x hx
    rcases List.mem_cons.mp hx with rfl | hx
    · rfl
    · exact (List.rel_of_pairwise_cons hpairs (List.mem_append_left _ hx)).symm
  · rw [howner]
    intro hsame
    have hlt := hlate (ownerOf first) (by simp)
    rw [← hsame] at hlt
    exact String.lt_irrefl late hlt
  · apply Adjacency.plain_of_notMem
    simpa [String.toList_append] using hplain

/-- The way past the ring within the class is there, and nothing is reported. -/
theorem Bypass.unnoticed {first second aside : String} {rest : List String}
    (h : Bypass first second rest aside)
    (hlimit : ((methods (ofMethodCalls (detour first second rest aside))).length : Int) ≤ limit) :
    ¬ Noticed (ofMethodCalls (detour first second rest aside)) limit := by
  rintro ⟨cs, hcs, hsome⟩
  rw [h.silent hlimit] at hcs
  exact hsome (Except.ok.inj hcs).symm

/-- **When cycles between classes are noticed.** A method cycle is reported just when the search
meets one that leads through two classes. That is so whenever a way round through two classes shares
no call with a cycle within a class. But every such way is noticed, whatever is added between the
classes, only where no methods of a class call each other round. -/
theorem crossing_rings_noticed_iff (g : Graph) (hnamed : WellNamed g) :
    (∀ limit cs, ofMethods g limit = .ok cs →
      (cs ≠ [] ↔ ∃ walk ∈ methodWalks g limit, Crosses g walk)) ∧
    (∀ limit ring, CallsShowable g → (∀ x ∈ methods g, Plain x) →
      ((methods g).length : Int) ≤ limit → CrossingRing g ring →
      (∀ p ∈ hops ring, ∀ inner, InnerRing g inner → p ∉ hops inner) → Noticed g limit) ∧
    ((∀ x ∈ methods g, Plain x) →
      ((∀ other limit ring, WellNamed other → CallsShowable other →
          (∀ x ∈ methods other, Plain x) → ((methods other).length : Int) ≤ limit →
          (∀ u v, InnerCall other u v → InnerCall g u v) → CrossingRing other ring →
          Noticed other limit) ↔
        ∀ ring, ¬ InnerRing g ring)) := by
  refine ⟨fun _ _ hcs => ofMethods_ne_nil_iff hnamed hcs,
    fun _ _ hshown hplain hlimit hring hfree =>
    noticed_of_ring hnamed hshown hplain hlimit hring hfree, fun hplain => ⟨?_, ?_⟩⟩
  · intro hall ring hring
    obtain ⟨first, second, rest, aside, hpass, haside, hlisted⟩ := exists_bypass hnamed hring
    let other := ofMethodCalls (detour first second rest aside)
    have hothers : ∀ x ∈ methods other, Plain x := by
      intro x hx
      have hmem := mem_of_mem_methods hpass.calls_keys (fun c hc => mem_of_detour hc) hx
      rcases List.mem_cons.mp hmem with rfl | hmem
      · exact haside
      · apply hplain x
        apply mem_methods_of_ring (hlisted.mono fun _ _ hcall => hcall.1)
        exact List.mem_append_left _ hmem
    have hinner : ∀ u v, InnerCall other u v → InnerCall g u v := fun u v hcall =>
      (simpleCycle_iff.mp hlisted).1 (u, v) (hpass.hop_of_innerCall hcall)
    exact hpass.unnoticed (Int.le_refl _) (hall other _ _ hpass.wellNamed
      (callsShowable_ofMethodCalls _) hothers (Int.le_refl _) hinner hpass.crossingRing)
  · intro hnone other limit ring hothers hshown hnames hlimit hsub hring
    apply noticed_of_ring hothers hshown hnames hlimit hring
    intro p _ inner hinner
    exact absurd ⟨hinner.1.mono hsub, hinner.2⟩ (hnone inner)

/-- Two methods of a class that call each other, and one calls the other by way of another class
too. -/
def byOtherClass : Graph :=
  ofMethodCalls [("A.a1", "A.a2"), ("A.a2", "A.a1"), ("A.a1", "B.b1"), ("B.b1", "A.a2")]

theorem bypass_byOtherClass : Bypass "A.a1" "A.a2" [] "B.b1" where
  once := by decide
  least := by decide
  last := by decide
  keys := by decide
  inside := by decide
  outside := by decide

/-- The way from `A.a1` by `B.b1` to `A.a2` and back leads through two classes, and it is not
noticed. -/
theorem byOtherClass_unnoticed :
    WellNamed byOtherClass ∧ CallsShowable byOtherClass ∧
    (∀ x ∈ methods byOtherClass, Plain x) ∧ ((methods byOtherClass).length : Int) ≤ 3 ∧
    CrossingRing byOtherClass ["A.a1", "B.b1", "A.a2", "A.a1"] ∧
    ofMethods byOtherClass 3 = .ok [] := by
  have hnames : ∀ c ∈ detour "A.a1" "A.a2" [] "B.b1", c.1 ∈ ["A.a1", "A.a2", "B.b1"] ∧
      c.2 ∈ ["A.a1", "A.a2", "B.b1"] := by decide
  have hplain : ∀ x ∈ ["A.a1", "A.a2", "B.b1"], Plain x := by decide
  have hpass := bypass_byOtherClass
  have hlimit : ((methods byOtherClass).length : Int) ≤ 3 := by
    have hlength : (methods byOtherClass).length ≤ 3 := length_methods_le hpass.calls_keys hnames
    omega
  exact ⟨hpass.wellNamed, callsShowable_ofMethodCalls _,
    fun x hx => hplain x (mem_of_mem_methods hpass.calls_keys hnames hx), hlimit,
    hpass.crossingRing, hpass.silent hlimit⟩

/-- Two methods of a class that call each other, and two methods of different classes that do. -/
def twoPairs : Graph :=
  ofMethodCalls [("A.a1", "A.a2"), ("A.a2", "A.a1"), ("B.b", "C.c"), ("C.c", "B.b")]

theorem twoPairs_keys : ∀ c ∈ [("A.a1", "A.a2"), ("A.a2", "A.a1"), ("B.b", "C.c"), ("C.c", "B.b")],
    IsKey c.1 ∧ IsKey c.2 := by
  decide

theorem twoPairs_ends : ∀ c ∈ [("A.a1", "A.a2"), ("A.a2", "A.a1"), ("B.b", "C.c"), ("C.c", "B.b")],
    c.1 ∈ ["A.a1", "A.a2", "B.b", "C.c"] ∧ c.2 ∈ ["A.a1", "A.a2", "B.b", "C.c"] := by
  decide

theorem twoPairs_named : WellNamed twoPairs := wellNamed_ofMethodCalls twoPairs_keys

theorem twoPairs_rings :
    CrossingRing twoPairs ["B.b", "C.c", "B.b"] ∧ InnerRing twoPairs ["A.a1", "A.a2", "A.a1"] := by
  have hcall : ∀ u v,
      (u, v) ∈ [("A.a1", "A.a2"), ("A.a2", "A.a1"), ("B.b", "C.c"), ("C.c", "B.b")] →
      MethodCall twoPairs u v := fun _ _ h => (methodCall_ofMethodCalls twoPairs_keys).mpr h
  have hcrossing : SimpleCycle (MethodCall twoPairs) ["B.b", "C.c", "B.b"] :=
    ⟨.cons_cons (hcall _ _ (by decide)) (.cons_cons (hcall _ _ (by decide)) (.singleton _)), "B.b",
      ["C.c"], rfl, by decide⟩
  refine ⟨⟨hcrossing, ?_⟩, ⟨.cons_cons ?_ (.cons_cons ?_ (.singleton _)), "A.a1", ["A.a2"], rfl,
    by decide⟩, by decide⟩
  · exact (crosses_iff twoPairs_named (mem_methods_of_ring hcrossing)).mpr
      ⟨"B.b", by decide, "C.c", by decide, by decide⟩
  · exact (innerCall_iff twoPairs_named).mpr ⟨hcall _ _ (by decide), by decide⟩
  · exact (innerCall_iff twoPairs_named).mpr ⟨hcall _ _ (by decide), by decide⟩

theorem twoPairs_plain : ∀ x ∈ methods twoPairs, Plain x := by
  have hplain : ∀ x ∈ ["A.a1", "A.a2", "B.b", "C.c"], Plain x := by decide
  exact fun x hx => hplain x (mem_of_mem_methods twoPairs_keys twoPairs_ends hx)

theorem twoPairs_limit : ((methods twoPairs).length : Int) ≤ 4 := by
  have hlength : (methods twoPairs).length ≤ 4 := length_methods_le twoPairs_keys twoPairs_ends
  omega

/-- The hops of a ring within a class do not lead from one class to another. -/
theorem twoPairs_apart : ∀ p ∈ hops ["B.b", "C.c", "B.b"], ∀ inner, InnerRing twoPairs inner →
    p ∉ hops inner := by
  have hdiffer : ∀ p ∈ hops ["B.b", "C.c", "B.b"], ownerOf p.1 ≠ ownerOf p.2 := by decide
  intro p hp inner hinner hshared
  have hcall := (simpleCycle_iff.mp hinner.1).1 p hshared
  exact hdiffer p hp ((innerCall_iff twoPairs_named).mp hcall).2

/-- The pair in different classes is noticed; but the pair within a class leaves room for what is
not. -/
theorem twoPairs_not_always_noticed :
    WellNamed twoPairs ∧ Noticed twoPairs 4 ∧
    ∃ other limit ring, WellNamed other ∧ CallsShowable other ∧ (∀ x ∈ methods other, Plain x) ∧
      ((methods other).length : Int) ≤ limit ∧
      (∀ u v, InnerCall other u v → InnerCall twoPairs u v) ∧ CrossingRing other ring ∧
      ¬ Noticed other limit := by
  obtain ⟨hcrossing, hinner⟩ := twoPairs_rings
  obtain ⟨_, hnoticed, hiff⟩ := crossing_rings_noticed_iff twoPairs twoPairs_named
  refine ⟨twoPairs_named, hnoticed 4 _ (callsShowable_ofMethodCalls _) twoPairs_plain twoPairs_limit
    hcrossing twoPairs_apart, ?_⟩
  by_contra hnone
  refine (hiff twoPairs_plain).mp ?_ _ hinner
  intro other limit ring hnamed hshown hplain hlimit hsub hring
  by_contra hsilent
  exact hnone ⟨other, limit, ring, hnamed, hshown, hplain, hlimit, hsub, hring, hsilent⟩

end ArchGraph.Cycle
