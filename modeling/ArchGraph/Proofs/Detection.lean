import ArchGraph.Proofs.Acyclicity
import ArchGraph.Proofs.Fallible

/-!
What the detection of cycles reports, in terms of the calls of the graph: its cycles are those that
the search finds among the components and among the methods, and it fails only where a method cannot
be shown.
-/

namespace ArchGraph.Adjacency

/-! ## Graphs made of items -/

section Items

variable {α : Type} (source target : α → String)

/-- The graph with one more edge for each item. -/
def withEdges (a : Adjacency) (xs : List α) : Adjacency :=
  xs.foldl (fun a x => a.upsert (source x) (fun known => addNew (known.getD []) (target x))) a

theorem edge_withEdges (a : Adjacency) (xs : List α) {u v : String} :
    Edge (withEdges source target a xs) u v ↔
      Edge a u v ∨ ∃ x ∈ xs, source x = u ∧ target x = v := by
  unfold withEdges
  induction xs generalizing a with
  | nil => simp
  | cons x xs ih =>
      have hstep : Edge (a.upsert (source x) (fun known => addNew (known.getD []) (target x))) u v ↔
          Edge a u v ∨ (source x = u ∧ target x = v) := by
        unfold Edge
        rw [Table.find?_upsert]
        by_cases hu : u = source x
        · subst hu
          simp [mem_addNew, eq_comm]
        · have hne : ¬ source x = u := fun h => hu h.symm
          simp [hu, hne]
      rw [List.foldl_cons, ih, hstep, or_assoc, List.exists_mem_cons_iff]

theorem distinct_withEdges {a : Adjacency} (h : a.Distinct) (xs : List α) :
    (withEdges source target a xs).Distinct := by
  unfold withEdges
  induction xs generalizing a with
  | nil => exact h
  | cons x xs ih => exact ih (Table.distinct_upsert h _ _)

theorem mem_keys_withEdges (a : Adjacency) (xs : List α) {u : String} :
    u ∈ (withEdges source target a xs).keys ↔ u ∈ a.keys ∨ ∃ x ∈ xs, source x = u := by
  unfold withEdges
  induction xs generalizing a with
  | nil => simp
  | cons x xs ih =>
      rw [List.foldl_cons, ih, Table.keys_upsert, mem_addNew, or_assoc, List.exists_mem_cons_iff,
        eq_comm (a := u)]

/-- The edges of items, and no others. -/
theorem edge_ofItems (xs : List α) {u v : String} :
    Edge (withEdges source target ∅ xs) u v ↔ ∃ x ∈ xs, source x = u ∧ target x = v := by
  have hempty : ¬ Edge ∅ u v := by simp [Edge]
  rw [edge_withEdges, or_iff_right hempty]

theorem mem_nodes_ofItems (xs : List α) {u : String} :
    u ∈ nodes (withEdges source target ∅ xs) ↔ ∃ x ∈ xs, source x = u ∨ target x = u := by
  constructor
  · intro h
    unfold nodes at h
    rw [mem_distinct, List.mem_append, mem_keys_withEdges] at h
    rcases h with h | h
    · obtain ⟨x, hx, rfl⟩ := h.resolve_left (by simp)
      exact ⟨x, hx, .inl rfl⟩
    · obtain ⟨targets, htargets, hu⟩ := List.mem_flatten.mp h
      obtain ⟨⟨v, _⟩, he, rfl⟩ := List.mem_map.mp htargets
      have hfind := Table.find?_of_mem
        (distinct_withEdges source target (a := ∅) List.nodup_nil xs) he
      have hedge : Edge (withEdges source target ∅ xs) v u := by
        unfold Edge
        rw [hfind]
        exact hu
      obtain ⟨x, hx, _, htarget⟩ := (edge_ofItems source target xs).mp hedge
      exact ⟨x, hx, .inr htarget⟩
  · rintro ⟨x, hx, rfl | rfl⟩
    · exact ((edge_ofItems source target xs).mpr ⟨x, hx, rfl, rfl⟩).source_mem
    · exact ((edge_ofItems source target xs).mpr ⟨x, hx, rfl, rfl⟩).target_mem

/-- Where edges come from items, a node is listed with an edge. -/
theorem exists_edge_ofItems (xs : List α) {u : String}
    (hu : u ∈ (withEdges source target ∅ xs).keys) :
    ∃ v, Edge (withEdges source target ∅ xs) u v := by
  have hkeys := (mem_keys_withEdges source target ∅ xs).mp hu
  obtain ⟨x, hx, rfl⟩ := hkeys.resolve_left (by simp)
  exact ⟨target x, (edge_ofItems source target xs).mpr ⟨x, hx, rfl, rfl⟩⟩

end Items

end ArchGraph.Adjacency

namespace ArchGraph.Cycle

/-! ## Calls between components -/

/-- The call goes from a method of component `a` to one of another component, `b`. -/
structure CallBetween (g : Graph) (a b : String) (e : String × String) : Prop where
  call : e ∈ g.callEdges
  source : owner (g.attributesOf e.1) = .str a
  target : owner (g.attributesOf e.2) = .str b
  named : a ≠ "" ∧ b ≠ "" ∧ a ≠ b

/-- A method of component `a` calls a method of another component, `b`. -/
def ComponentCall (g : Graph) (a b : String) : Prop := ∃ e, CallBetween g a b e

theorem ComponentCall.names {g : Graph} {a b : String} (h : ComponentCall g a b) :
    a ≠ "" ∧ b ≠ "" ∧ a ≠ b := by
  obtain ⟨_, hcall⟩ := h
  exact hcall.named

theorem crossing?_eq_some {call : Attributes × Attributes} {c : Crossing} :
    crossing? call = some c ↔ ∃ a b, owner call.1 = .str a ∧ owner call.2 = .str b ∧
      (a ≠ "" ∧ b ≠ "" ∧ a ≠ b) ∧ c = ⟨a, b, call.1, call.2⟩ := by
  unfold crossing?
  constructor
  · intro h
    split at h
    · rename_i a b ha hb
      rw [Option.ite_none_left_eq_some, Option.some.injEq] at h
      refine ⟨a, b, ha, hb, ?_, h.2.symm⟩
      simpa only [not_or] using h.1
    · cases h
  · rintro ⟨a, b, ha, hb, hnamed, rfl⟩
    rw [ha, hb]
    simp [hnamed]

theorem mem_crossings {g : Graph} {c : Crossing} :
    c ∈ crossings g ↔
      ∃ e ∈ g.callEdges, crossing? (g.attributesOf e.1, g.attributesOf e.2) = some c := by
  unfold crossings sortedCalls
  simp [List.mem_mergeSort]

theorem exists_crossing {g : Graph} {a b : String} :
    (∃ c ∈ crossings g, c.source = a ∧ c.target = b) ↔ ComponentCall g a b := by
  constructor
  · rintro ⟨c, hc, rfl, rfl⟩
    obtain ⟨e, he, hcross⟩ := mem_crossings.mp hc
    obtain ⟨a, b, ha, hb, hnamed, rfl⟩ := crossing?_eq_some.mp hcross
    exact ⟨e, he, ha, hb, hnamed⟩
  · rintro ⟨e, he, ha, hb, hnamed⟩
    exact ⟨_,
      mem_crossings.mpr ⟨e, he, crossing?_eq_some.mpr ⟨a, b, ha, hb, hnamed, rfl⟩⟩, rfl, rfl⟩

theorem edge_componentAdjacency {g : Graph} {a b : String} :
    Adjacency.Edge (componentAdjacency (crossings g)) a b ↔ ComponentCall g a b :=
  (Adjacency.edge_ofItems Crossing.source Crossing.target (crossings g)).trans exists_crossing

theorem edge_methodAdjacency {calls : List (MethodInfo × MethodInfo)} {u v : String} :
    Adjacency.Edge (methodAdjacency calls) u v ↔ ∃ c ∈ calls, c.1.key = u ∧ c.2.key = v :=
  Adjacency.edge_ofItems (fun c : MethodInfo × MethodInfo => c.1.key) (fun c => c.2.key) calls

/-- A method at one of the ends of a call. -/
def CallEnd (g : Graph) (id : String) : Prop := ∃ e ∈ g.callEdges, id = e.1 ∨ id = e.2

/-- Overloads of a method have one key. -/
def methodKey (g : Graph) (id : String) : String := (methodInfo (g.attributesOf id)).key

/-- The components that take part in a call between two of them. -/
def components (g : Graph) : List String := Adjacency.nodes (componentAdjacency (crossings g))

theorem mem_components {g : Graph} {a : String} :
    a ∈ components g ↔ ∃ b, ComponentCall g a b ∨ ComponentCall g b a := by
  have hnodes : a ∈ components g ↔ ∃ c ∈ crossings g, c.source = a ∨ c.target = a :=
    Adjacency.mem_nodes_ofItems Crossing.source Crossing.target (crossings g)
  rw [hnodes]
  constructor
  · rintro ⟨c, hc, rfl | rfl⟩
    · exact ⟨c.target, .inl (exists_crossing.mp ⟨c, hc, rfl, rfl⟩)⟩
    · exact ⟨c.source, .inr (exists_crossing.mp ⟨c, hc, rfl, rfl⟩)⟩
  · rintro ⟨b, h | h⟩
    · obtain ⟨c, hc, hsource, _⟩ := exists_crossing.mpr h
      exact ⟨c, hc, .inl hsource⟩
    · obtain ⟨c, hc, _, htarget⟩ := exists_crossing.mpr h
      exact ⟨c, hc, .inr htarget⟩

/-! ## What is reported -/

/-- The walks that the search among the components finds. -/
def componentWalks (g : Graph) (limit : Int) : List (List String) :=
  Adjacency.cycles (componentAdjacency (crossings g)) [] limit

/-- A walk is reported with one of the calls behind each hop, or it is an error. -/
theorem ofComponents_mem {g : Graph} {limit : Int} {cs : List Cycle}
    (h : ofComponents g limit = .ok cs) :
    (∀ c ∈ cs, ∃ nodes ∈ componentWalks g limit, ∃ edges,
      c = ⟨.component, nodes, edges, .error, false, Adjacency.signature nodes⟩) ∧
    ∀ nodes ∈ componentWalks g limit, ∃ edges,
      ⟨.component, nodes, edges, .error, false, Adjacency.signature nodes⟩ ∈ cs := by
  constructor
  · intro c hc
    obtain ⟨nodes, hnodes, hok⟩ := mem_of_mapM h hc
    obtain ⟨edges, _, hok⟩ := bind_eq_ok.mp hok
    exact ⟨nodes, hnodes, edges, (Except.ok.inj hok).symm⟩
  · intro nodes hnodes
    obtain ⟨c, hc, hok⟩ := mapM_mem h hnodes
    obtain ⟨edges, _, hok⟩ := bind_eq_ok.mp hok
    obtain rfl := Except.ok.inj hok
    exact ⟨edges, hc⟩

theorem ofMethods_kind {g : Graph} {limit : Int} {cs : List Cycle}
    (h : ofMethods g limit = .ok cs) {c : Cycle} (hc : c ∈ cs) : c.kind = .method := by
  obtain ⟨nodes, _, hok⟩ := mem_of_mapM h hc
  obtain ⟨edges, _, hok⟩ := bind_eq_ok.mp hok
  rw [← Except.ok.inj hok]

theorem detect_eq_ok {g : Graph} {limit : Int} {cs : List Cycle} :
    detect g limit = .ok cs ↔ ∃ components methods, ofComponents g limit = .ok components ∧
      ofMethods g limit = .ok methods ∧ cs = components ++ methods := by
  unfold detect
  constructor
  · intro h
    obtain ⟨components, hcomponents, h⟩ := bind_eq_ok.mp h
    obtain ⟨methods, hmethods, h⟩ := bind_eq_ok.mp h
    exact ⟨components, methods, hcomponents, hmethods, (Except.ok.inj h).symm⟩
  · rintro ⟨components, methods, hcomponents, hmethods, rfl⟩
    rw [hcomponents, hmethods]
    rfl

/-- The component cycles of a graph are the walks that the search finds. -/
theorem detect_components {g : Graph} {limit : Int} {cs : List Cycle}
    (h : detect g limit = .ok cs) :
    (∀ c ∈ cs, c.kind = .component →
      c.nodes ∈ componentWalks g limit ∧ c.signature = Adjacency.signature c.nodes) ∧
    ∀ nodes ∈ componentWalks g limit, ∃ c ∈ cs, c.kind = .component ∧ c.nodes = nodes ∧
      c.signature = Adjacency.signature nodes := by
  obtain ⟨components, methods, hcomponents, hmethods, rfl⟩ := detect_eq_ok.mp h
  obtain ⟨hreported, hwalks⟩ := ofComponents_mem hcomponents
  constructor
  · intro c hc hkind
    rcases List.mem_append.mp hc with hc | hc
    · obtain ⟨nodes, hnodes, edges, rfl⟩ := hreported c hc
      exact ⟨hnodes, rfl⟩
    · rw [ofMethods_kind hmethods hc] at hkind
      cases hkind
  · intro nodes hnodes
    obtain ⟨edges, hc⟩ := hwalks nodes hnodes
    exact ⟨_, List.mem_append_left _ hc, rfl, rfl, rfl⟩

/-! ## What is new -/

/-- The search among the components reports the walk or a rotation of it. -/
def Reported (g : Graph) (limit : Int) (nodes : List String) : Prop :=
  ∃ known ∈ componentWalks g limit, Adjacency.signature known = Adjacency.signature nodes

theorem compare_eq_ok {baseline candidate : Graph} {limit : Int} {cs : List Cycle} :
    compare (some baseline) candidate limit = .ok cs ↔ ∃ known found,
      detect baseline limit = .ok known ∧ detect candidate limit = .ok found ∧
      cs = markNew known found := by
  unfold compare
  constructor
  · intro h
    obtain ⟨known, hknown, h⟩ := bind_eq_ok.mp h
    obtain ⟨found, hfound, h⟩ := bind_eq_ok.mp h
    exact ⟨known, found, hknown, hfound, (Except.ok.inj h).symm⟩
  · rintro ⟨known, found, hknown, hfound, rfl⟩
    simp only [hknown, hfound]
    rfl

theorem any_known_iff {baseline : Graph} {limit : Int} {known : List Cycle}
    (h : detect baseline limit = .ok known) {c : Cycle} (hkind : c.kind = .component)
    (hsignature : c.signature = Adjacency.signature c.nodes) :
    known.any (fun k => k.kind == c.kind && k.signature == c.signature) = true ↔
      Reported baseline limit c.nodes := by
  obtain ⟨hreported, hwalks⟩ := detect_components h
  simp only [List.any_eq_true, Bool.and_eq_true, beq_iff_eq]
  rw [hkind, hsignature]
  constructor
  · rintro ⟨k, hk, hkkind, hksignature⟩
    obtain ⟨hnodes, hsame⟩ := hreported k hk hkkind
    exact ⟨k.nodes, hnodes, hsame.symm.trans hksignature⟩
  · rintro ⟨nodes, hnodes, hsame⟩
    obtain ⟨k, hk, hkkind, _, hksignature⟩ := hwalks nodes hnodes
    exact ⟨k, hk, hkkind, hksignature.trans hsame⟩

/-- A component cycle of the candidate is new unless the baseline's search reports it too. -/
theorem isNew_iff {baseline candidate : Graph} {limit : Int} {cs : List Cycle}
    (h : compare (some baseline) candidate limit = .ok cs) {c : Cycle} (hc : c ∈ cs)
    (hkind : c.kind = .component) :
    c.nodes ∈ componentWalks candidate limit ∧
    (c.isNew = true ↔ ¬ Reported baseline limit c.nodes) := by
  obtain ⟨known, found, hknown, hfound, rfl⟩ := compare_eq_ok.mp h
  obtain ⟨d, hd, rfl⟩ := List.mem_map.mp hc
  obtain ⟨hnodes, hsignature⟩ := (detect_components hfound).1 d hd hkind
  refine ⟨hnodes, ?_⟩
  have hany := any_known_iff hknown hkind hsignature
  rw [← hany, Bool.not_eq_true, Bool.not_eq_true']

theorem exists_of_walk {baseline candidate : Graph} {limit : Int} {cs : List Cycle}
    (h : compare (some baseline) candidate limit = .ok cs) {nodes : List String}
    (hnodes : nodes ∈ componentWalks candidate limit) :
    ∃ c ∈ cs, c.kind = .component ∧ c.nodes = nodes := by
  obtain ⟨known, found, _, hfound, rfl⟩ := compare_eq_ok.mp h
  obtain ⟨c, hc, hkind, hsame, _⟩ := (detect_components hfound).2 nodes hnodes
  exact ⟨_, List.mem_map_of_mem hc, hkind, hsame⟩

/-- No cycle is new that is known already. -/
theorem markNew_self (cycles : List Cycle) : (markNew cycles cycles).filter (·.isNew) = [] := by
  rw [List.filter_eq_nil_iff]
  intro c hc
  obtain ⟨known, hknown, rfl⟩ := List.mem_map.mp hc
  have hany : cycles.any (fun k => k.kind == known.kind && k.signature == known.signature) = true :=
    List.any_eq_true.mpr ⟨known, hknown, by simp⟩
  simp [hany]

/-! ## What can be shown -/

/-- The class of a method has a name, and so has the method if its name is told at all. -/
def Showable (attributes : Attributes) : Prop :=
  (∃ name, shownClass attributes = .str name) ∧
  ∃ name? : Option String, attributes.attribute "name" = .ofText? name?

/-- Both ends of every call can be shown. -/
def CallsShowable (g : Graph) : Prop :=
  ∀ e ∈ g.callEdges, Showable (g.attributesOf e.1) ∧ Showable (g.attributesOf e.2)

theorem edgeOf_ok (a b : String) (m n : Option String) :
    edgeOf (.str a) (.str b) (.ofText? m) (.ofText? n) = .ok ⟨a, b, m, n⟩ := by
  cases m <;> cases n <;> rfl

/-- Every hop of a walk that the search finds is an edge. -/
theorem hop_edge {a : Adjacency} {start nodes : List String} {limit : Int}
    (h : nodes ∈ Adjacency.cycles a start limit) :
    ∀ p ∈ hops nodes, Adjacency.Edge a p.1 p.2 :=
  Adjacency.hops_of_isChain (Adjacency.simple_of_mem_cycles h).1

/-- A component is shown as one of its methods says. -/
theorem shownNames_attribute {cs : List Crossing} {name : String}
    (h : ∃ c ∈ cs, c.source = name ∨ c.target = name) :
    ∃ c ∈ cs, c.source = name ∧ (shownNames cs).attribute name = shownClass c.sourceAttributes ∨
      c.target = name ∧ (shownNames cs).attribute name = shownClass c.targetAttributes := by
  obtain ⟨c, hc, shown, hshown, hfind⟩ := Table.find?_foldl_insert₂ Crossing.source Crossing.target
    (fun c => shownClass c.sourceAttributes) (fun c => shownClass c.targetAttributes) h
  have hname : (shownNames cs).attribute name = shown := by
    unfold Table.attribute shownNames
    rw [hfind]
    rfl
  rw [hname]
  exact ⟨c, hc, hshown⟩

theorem shownNames_text {cs : List Crossing}
    (hcs : ∀ c ∈ cs, Showable c.sourceAttributes ∧ Showable c.targetAttributes) {name : String}
    (h : ∃ c ∈ cs, c.source = name ∨ c.target = name) :
    ∃ text, (shownNames cs).attribute name = .str text := by
  obtain ⟨c, hc, ⟨_, hshown⟩ | ⟨_, hshown⟩⟩ := shownNames_attribute h
  · rw [hshown]
    exact (hcs c hc).1.1
  · rw [hshown]
    exact (hcs c hc).2.1

theorem exampleCall_text {cs : List Crossing}
    (hcs : ∀ c ∈ cs, Showable c.sourceAttributes ∧ Showable c.targetAttributes) (a b : String) :
    ∃ m n : Option String, exampleCall cs a b = (.ofText? m, .ofText? n) := by
  unfold exampleCall
  cases hfind : cs.find? (fun c => c.source == a && c.target == b) with
  | none => exact ⟨none, none, rfl⟩
  | some c =>
      obtain ⟨hsource, htarget⟩ := hcs c (List.mem_of_find?_eq_some hfind)
      obtain ⟨m, hm⟩ := hsource.2
      obtain ⟨n, hn⟩ := htarget.2
      exact ⟨m, n, by simp [hm, hn]⟩

theorem ofComponents_ok {g : Graph} (h : CallsShowable g) (limit : Int) :
    ∃ cs, ofComponents g limit = .ok cs := by
  have hcs : ∀ c ∈ crossings g, Showable c.sourceAttributes ∧ Showable c.targetAttributes := by
    intro c hc
    obtain ⟨e, he, hcross⟩ := mem_crossings.mp hc
    obtain ⟨_, _, _, _, _, rfl⟩ := crossing?_eq_some.mp hcross
    exact h e he
  apply exists_mapM_ok
  intro nodes hnodes
  have hshown : ∀ p ∈ hops nodes, ∃ e,
      edgeOf ((shownNames (crossings g)).attribute p.1) ((shownNames (crossings g)).attribute p.2)
        (exampleCall (crossings g) p.1 p.2).1 (exampleCall (crossings g) p.1 p.2).2 = .ok e := by
    intro p hp
    obtain ⟨c, hc, hsource, htarget⟩ :=
      exists_crossing.mpr (edge_componentAdjacency.mp (hop_edge hnodes p hp))
    obtain ⟨a, ha⟩ := shownNames_text hcs ⟨c, hc, .inl hsource⟩
    obtain ⟨b, hb⟩ := shownNames_text hcs ⟨c, hc, .inr htarget⟩
    obtain ⟨m, n, hmn⟩ := exampleCall_text hcs p.1 p.2
    rw [ha, hb, hmn]
    exact ⟨_, edgeOf_ok a b m n⟩
  obtain ⟨edges, hedges⟩ := exists_mapM_ok hshown
  exact ⟨_, bind_eq_ok.mpr ⟨edges, hedges, rfl⟩⟩

/-- What is known of a key is what one of its methods says. -/
theorem infoOf_eq {g : Graph} {key : String}
    (hkey : ∃ c ∈ methodCalls g, c.1.key = key ∨ c.2.key = key) :
    ∃ id, CallEnd g id ∧ methodKey g id = key ∧
      infoOf (methodInfos (methodCalls g)) key = methodInfo (g.attributesOf id) := by
  obtain ⟨c, hc, info, hinfo, hfind⟩ := Table.find?_foldl_insert₂
    (fun c : MethodInfo × MethodInfo => c.1.key) (fun c => c.2.key) (fun c => c.1)
    (fun c => c.2) hkey
  have hof : infoOf (methodInfos (methodCalls g)) key = info := by
    unfold infoOf methodInfos
    rw [hfind]
    rfl
  rw [hof]
  obtain ⟨e, he, rfl⟩ := List.mem_map.mp hc
  rcases hinfo with ⟨hname, rfl⟩ | ⟨hname, rfl⟩
  · exact ⟨e.1, ⟨e, he, .inl rfl⟩, hname, rfl⟩
  · exact ⟨e.2, ⟨e, he, .inr rfl⟩, hname, rfl⟩

theorem infoOf_text {g : Graph} (h : CallsShowable g) {key : String}
    (hkey : ∃ c ∈ methodCalls g, c.1.key = key ∨ c.2.key = key) :
    ∃ (a : String) (m : Option String),
      (infoOf (methodInfos (methodCalls g)) key).shown = .str a ∧
      (infoOf (methodInfos (methodCalls g)) key).name = .ofText? m := by
  obtain ⟨id, ⟨e, he, hid⟩, _, hinfo⟩ := infoOf_eq hkey
  have hshown : Showable (g.attributesOf id) := by
    rcases hid with rfl | rfl
    · exact (h e he).1
    · exact (h e he).2
  obtain ⟨⟨a, ha⟩, m, hm⟩ := hshown
  rw [hinfo]
  exact ⟨a, m, ha, hm⟩

theorem ofMethods_ok {g : Graph} (h : CallsShowable g) (limit : Int) :
    ∃ cs, ofMethods g limit = .ok cs := by
  apply exists_mapM_ok
  intro nodes hnodes
  have hshown : ∀ p ∈ hops nodes, ∃ e,
      edgeOf (infoOf (methodInfos (methodCalls g)) p.1).shown
        (infoOf (methodInfos (methodCalls g)) p.2).shown
        (infoOf (methodInfos (methodCalls g)) p.1).name
        (infoOf (methodInfos (methodCalls g)) p.2).name = .ok e := by
    intro p hp
    obtain ⟨c, hc, hsource, htarget⟩ :=
      edge_methodAdjacency.mp (hop_edge (List.mem_of_mem_filter hnodes) p hp)
    obtain ⟨a, m, ha, hm⟩ := infoOf_text h ⟨c, hc, .inl hsource⟩
    obtain ⟨b, n, hb, hn⟩ := infoOf_text h ⟨c, hc, .inr htarget⟩
    rw [ha, hb, hm, hn]
    exact ⟨_, edgeOf_ok a b m n⟩
  obtain ⟨edges, hedges⟩ := exists_mapM_ok hshown
  exact ⟨_, bind_eq_ok.mpr ⟨edges, hedges, rfl⟩⟩

/-- Where every call can be shown, so can every cycle. -/
theorem detect_ok {g : Graph} (h : CallsShowable g) (limit : Int) :
    ∃ cs, detect g limit = .ok cs := by
  obtain ⟨components, hcomponents⟩ := ofComponents_ok h limit
  obtain ⟨methods, hmethods⟩ := ofMethods_ok h limit
  exact ⟨_, detect_eq_ok.mpr ⟨components, methods, hcomponents, hmethods, rfl⟩⟩

end ArchGraph.Cycle
