import ArchGraph.Proofs.ComponentProjection

/-!
Every cycle that is reported is there. The search reports no cycle twice (`signatures_nodup`);
behind each hop of a component cycle stands the first of the calls between the two components, in
the order of identifiers (`exampleCall_first`), and behind each hop of a method cycle a call between
methods with these keys.
-/

namespace ArchGraph.Adjacency

variable {a : Adjacency} {limit : Int}

/-! ## No cycle twice -/

/-- What is kept when a node is entered and when a cycle is reported is kept by the search. -/
theorem explore_keeps {P : Search → Prop} (henter : ∀ s x, P s → P (s.enter x))
    (hreport : ∀ s c, P s → P (s.report c)) (depth : Nat) (path : List String)
    (s : Search) (h : P s) :
    P (explore a limit depth path s) := by
  induction depth generalizing path s with
  | zero => exact h
  | succ depth ih =>
      unfold explore
      refine List.foldlRecOn _ _ h (fun s hs next _ => ?_)
      split
      · exact ih _ _ (henter s next hs)
      · split
        · exact hreport s _ hs
        · exact hs

theorem cycles_keep (a : Adjacency) (start : List String) (limit : Int) {P : Search → Prop}
    (hstart : P ⟨[], [], []⟩) (henter : ∀ s x, P s → P (s.enter x))
    (hreport : ∀ s c, P s → P (s.report c)) : ∃ s, P s ∧ cycles a start limit = s.cycles := by
  refine ⟨_, ?_, rfl⟩
  refine List.foldlRecOn _ _ hstart (fun s hs root _ => ?_)
  unfold exploreFrom
  split
  · exact hs
  · exact explore_keeps henter hreport _ _ _ (henter s root hs)

/-- The signatures of the reported cycles are kept, and no two are the same. -/
structure Search.Apart (s : Search) : Prop where
  once : (s.cycles.map signature).Nodup
  kept : ∀ c ∈ s.cycles, signature c ∈ s.signatures

theorem Search.Apart.report {s : Search} (h : s.Apart) (cycle : List String) :
    (s.report cycle).Apart := by
  unfold Search.report
  split
  · exact h
  · rename_i hnew
    constructor
    · rw [List.map_append, List.nodup_append]
      refine ⟨h.once, List.nodup_singleton _, ?_⟩
      rintro t ht _ hsame rfl
      obtain ⟨c, hc, rfl⟩ := List.mem_map.mp ht
      rw [List.map_singleton, List.mem_singleton] at hsame
      exact hnew (hsame ▸ h.kept c hc)
    · intro c hc
      rcases List.mem_append.mp hc with hc | hc
      · exact List.mem_cons_of_mem _ (h.kept c hc)
      · rw [List.mem_singleton.mp hc]
        exact List.mem_cons_self

theorem signatures_nodup (a : Adjacency) (start : List String) (limit : Int) :
    ((cycles a start limit).map signature).Nodup := by
  have hstart : Search.Apart ⟨[], [], []⟩ :=
    ⟨List.nodup_nil, fun c hc => absurd hc List.not_mem_nil⟩
  obtain ⟨s, hs, hcycles⟩ := cycles_keep a start limit hstart (fun s _ hs => ⟨hs.once, hs.kept⟩)
    (fun s c hs => hs.report c)
  rw [hcycles]
  exact hs.once

end ArchGraph.Adjacency

namespace ArchGraph.Cycle

variable {g : Graph} {limit : Int}

/-! ## The first call between two components -/

theorem edgeLE_iff {d e : String × String} :
    edgeLE d e = true ↔ d.1 < e.1 ∨ d.1 = e.1 ∧ d.2 ≤ e.2 := by
  unfold edgeLE
  simp only [Bool.or_eq_true, Bool.and_eq_true, decide_eq_true_eq, beq_iff_eq]

theorem edgeLE_trans (c d e : String × String) (hcd : edgeLE c d = true) (hde : edgeLE d e = true) :
    edgeLE c e = true := by
  rw [edgeLE_iff] at hcd hde ⊢
  rcases hcd with hlt | ⟨heq, hle⟩
  · rcases hde with hlt' | ⟨heq', _⟩
    · exact .inl (String.lt_trans hlt hlt')
    · exact .inl (heq' ▸ hlt)
  · rcases hde with hlt' | ⟨heq', hle'⟩
    · exact .inl (heq ▸ hlt')
    · exact .inr ⟨heq.trans heq', String.le_trans hle hle'⟩

theorem edgeLE_total (d e : String × String) : (edgeLE d e || edgeLE e d) = true := by
  rw [Bool.or_eq_true, edgeLE_iff, edgeLE_iff]
  rcases name_trichotomy d.1 e.1 with hlt | heq | hlt
  · exact .inl (.inl hlt)
  · rcases String.le_total d.2 e.2 with hle | hle
    · exact .inl (.inr ⟨heq, hle⟩)
    · exact .inr (.inr ⟨heq.symm, hle⟩)
  · exact .inr (.inl hlt)

/-- In a sorted list the first item of a kind comes before all others of it. -/
theorem find?_sorted {α : Type} {le : α → α → Bool} {l : List α} {p : α → Bool} {x : α}
    (hsorted : l.Pairwise (fun y z => le y z = true)) (hrefl : le x x = true)
    (h : l.find? p = some x) : ∀ y ∈ l, p y = true → le x y = true := by
  obtain ⟨_, before, after, rfl, hbefore⟩ := List.find?_eq_some_iff_append.mp h
  intro y hy hp
  rcases List.mem_append.mp hy with hy | hy
  · have hnone := hbefore y hy
    rw [hp] at hnone
    cases hnone
  · rcases List.mem_cons.mp hy with rfl | hy
    · exact hrefl
    · exact List.rel_of_pairwise_cons (List.pairwise_append.mp hsorted).2.1 hy

/-- Of the calls between two components, the first in the order of identifiers. -/
structure FirstCall (g : Graph) (a b : String) (e : String × String) : Prop where
  between : CallBetween g a b e
  first : ∀ d, CallBetween g a b d → e.1 < d.1 ∨ e.1 = d.1 ∧ e.2 ≤ d.2

/-- The call that is shown for a hop is the first one. -/
theorem exampleCall_first {a b : String} (h : ComponentCall g a b) :
    ∃ e, FirstCall g a b e ∧ exampleCall (crossings g) a b =
      ((g.attributesOf e.1).attribute "name", (g.attributesOf e.2).attribute "name") := by
  let made (e : String × String) : Option Crossing :=
    crossing? (g.attributesOf e.1, g.attributesOf e.2)
  let wanted (e : String × String) : Bool := (made e).any (fun c => c.source == a && c.target == b)
  have hwanted : ∀ e ∈ g.callEdges, wanted e = true ↔ CallBetween g a b e := by
    intro e he
    simp only [wanted, made, Option.any_eq_true, crossing?_eq_some, Bool.and_eq_true, beq_iff_eq]
    constructor
    · rintro ⟨c, ⟨_, _, ha, hb, hnamed, rfl⟩, rfl, rfl⟩
      exact ⟨he, ha, hb, hnamed⟩
    · rintro ⟨_, ha, hb, hnamed⟩
      exact ⟨_, ⟨a, b, ha, hb, hnamed, rfl⟩, rfl, rfl⟩
  have hfind : (crossings g).find? (fun c => c.source == a && c.target == b) =
      ((g.callEdges.mergeSort edgeLE).find? wanted).bind made := by
    unfold crossings sortedCalls
    rw [List.find?_filterMap, List.find?_map, Option.bind_map]
    rfl
  cases hfirst : (g.callEdges.mergeSort edgeLE).find? wanted with
  | none =>
      obtain ⟨e, hcall⟩ := h
      have hnone := List.find?_eq_none.mp hfirst e (List.mem_mergeSort.mpr hcall.1)
      exact absurd ((hwanted e hcall.1).mpr hcall) hnone
  | some e =>
      have he : e ∈ g.callEdges := List.mem_mergeSort.mp (List.mem_of_find?_eq_some hfirst)
      have hbetween := (hwanted e he).mp (List.find?_some hfirst)
      have hsorted := List.pairwise_mergeSort edgeLE_trans edgeLE_total g.callEdges
      have hrefl : edgeLE e e = true := edgeLE_iff.mpr (.inr ⟨rfl, String.le_refl _⟩)
      refine ⟨e, ⟨hbetween, fun d hd => edgeLE_iff.mp ?_⟩, ?_⟩
      · exact find?_sorted hsorted hrefl hfirst d (List.mem_mergeSort.mpr hd.1)
          ((hwanted d hd.1).mpr hd)
      · have hmade : made e = some ⟨a, b, g.attributesOf e.1, g.attributesOf e.2⟩ :=
          crossing?_eq_some.mpr ⟨a, b, hbetween.source, hbetween.target, hbetween.named, rfl⟩
        unfold exampleCall
        rw [hfind, hfirst, Option.bind_some, hmade]
        rfl

/-! ## What the edges of a cycle say -/

/-- An edge that can be read says what was written. -/
theorem edgeOf_eq_ok {a b m n : Json} {e : CycleEdge} (h : edgeOf a b m n = .ok e) :
    a = .str e.sourceClass ∧ b = .str e.targetClass ∧ m = .ofText? e.sourceMethod ∧
      n = .ofText? e.targetMethod := by
  unfold edgeOf at h
  split at h
  · rename_i read hread
    obtain rfl := Except.ok.inj h
    obtain ⟨_, t, hcaller, ht, rfl⟩ := Checked.seq_eq_ok.mp hread
    obtain ⟨_, s, hclasses, hs, rfl⟩ := Checked.seq_eq_ok.mp hcaller
    obtain ⟨_, b', hsource, hb, rfl⟩ := Checked.seq_eq_ok.mp hclasses
    obtain ⟨_, a', hmk, ha, rfl⟩ := Checked.seq_eq_ok.mp hsource
    cases hmk
    exact ⟨Decoder.text_eq_ok.mp (Checked.under_eq_ok.mp ha),
      Decoder.text_eq_ok.mp (Checked.under_eq_ok.mp hb),
      Decoder.nullable_text_eq_ok.mp (Checked.under_eq_ok.mp hs),
      Decoder.nullable_text_eq_ok.mp (Checked.under_eq_ok.mp ht)⟩
  · cases h

/-- A component goes by the class name that one of its methods shows. -/
def ShownClass (g : Graph) (a shown : String) : Prop :=
  ∃ id, CallEnd g id ∧ owner (g.attributesOf id) = .str a ∧
    shownClass (g.attributesOf id) = .str shown

/-- The edge of a component cycle names the methods of the first call behind the hop. -/
structure ComponentHop (g : Graph) (hop : String × String) (edge : CycleEdge) : Prop where
  call : ∃ e, FirstCall g hop.1 hop.2 e ∧
    (g.attributesOf e.1).attribute "name" = .ofText? edge.sourceMethod ∧
    (g.attributesOf e.2).attribute "name" = .ofText? edge.targetMethod
  source : ShownClass g hop.1 edge.sourceClass
  target : ShownClass g hop.2 edge.targetClass

/-- A method goes by the class name and the name that a node with its key shows. -/
def ShownMethod (g : Graph) (x shown : String) (name? : Option String) : Prop :=
  ∃ id, CallEnd g id ∧ methodKey g id = x ∧ shownClass (g.attributesOf id) = .str shown ∧
    (g.attributesOf id).attribute "name" = .ofText? name?

/-- There is a call behind the hop, and the edge names methods with the keys of its ends. -/
structure MethodHop (g : Graph) (hop : String × String) (edge : CycleEdge) : Prop where
  call : MethodCall g hop.1 hop.2
  source : ShownMethod g hop.1 edge.sourceClass edge.sourceMethod
  target : ShownMethod g hop.2 edge.targetClass edge.targetMethod

theorem shownClass_of_attribute {a : String} (h : ∃ c ∈ crossings g, c.source = a ∨ c.target = a)
    {shown : String} (hshown : (shownNames (crossings g)).attribute a = .str shown) :
    ShownClass g a shown := by
  obtain ⟨c, hc, htold⟩ := shownNames_attribute h
  obtain ⟨e, he, hcross⟩ := mem_crossings.mp hc
  obtain ⟨_, _, hsource, htarget, _, rfl⟩ := crossing?_eq_some.mp hcross
  rw [hshown] at htold
  rcases htold with ⟨rfl, htold⟩ | ⟨rfl, htold⟩
  · exact ⟨e.1, ⟨e, he, .inl rfl⟩, hsource, htold.symm⟩
  · exact ⟨e.2, ⟨e, he, .inr rfl⟩, htarget, htold.symm⟩

theorem componentHop_of_ok {hop : String × String} {edge : CycleEdge}
    (hcall : ComponentCall g hop.1 hop.2)
    (h : edgeOf ((shownNames (crossings g)).attribute hop.1)
      ((shownNames (crossings g)).attribute hop.2) (exampleCall (crossings g) hop.1 hop.2).1
      (exampleCall (crossings g) hop.1 hop.2).2 = .ok edge) : ComponentHop g hop edge := by
  obtain ⟨hsource, htarget, hcaller, hcallee⟩ := edgeOf_eq_ok h
  obtain ⟨c, hc, hfrom, hto⟩ := exists_crossing.mpr hcall
  obtain ⟨e, hfirst, hexample⟩ := exampleCall_first hcall
  rw [hexample] at hcaller hcallee
  exact ⟨⟨e, hfirst, hcaller, hcallee⟩, shownClass_of_attribute ⟨c, hc, .inl hfrom⟩ hsource,
    shownClass_of_attribute ⟨c, hc, .inr hto⟩ htarget⟩

theorem methodHop_of_ok {hop : String × String} {edge : CycleEdge}
    (hcall : MethodCall g hop.1 hop.2)
    (h : edgeOf (infoOf (methodInfos (methodCalls g)) hop.1).shown
      (infoOf (methodInfos (methodCalls g)) hop.2).shown
      (infoOf (methodInfos (methodCalls g)) hop.1).name
      (infoOf (methodInfos (methodCalls g)) hop.2).name = .ok edge) : MethodHop g hop edge := by
  obtain ⟨hsource, htarget, hcaller, hcallee⟩ := edgeOf_eq_ok h
  obtain ⟨i, hi, hikey, hiinfo⟩ := infoOf_method hcall.mem.1
  obtain ⟨j, hj, hjkey, hjinfo⟩ := infoOf_method hcall.mem.2
  rw [hiinfo] at hsource hcaller
  rw [hjinfo] at htarget hcallee
  exact ⟨hcall, ⟨i, hi, hikey, hsource, hcaller⟩, ⟨j, hj, hjkey, htarget, hcallee⟩⟩

/-! ## Reported cycles -/

/-- What is reported of a walk among the components. -/
structure ComponentCycle (g : Graph) (limit : Int) (c : Cycle) : Prop where
  kind : c.kind = .component
  walk : c.nodes ∈ componentWalks g limit
  signature : c.signature = Adjacency.signature c.nodes
  edges : List.Forall₂ (ComponentHop g) (hops c.nodes) c.edges

theorem componentCycle_of_mem {cs : List Cycle} (h : ofComponents g limit = .ok cs) {c : Cycle}
    (hc : c ∈ cs) : ComponentCycle g limit c := by
  obtain ⟨nodes, hnodes, hok⟩ := mem_of_mapM h hc
  obtain ⟨edges, hedges, hok⟩ := bind_eq_ok.mp hok
  obtain rfl := Except.ok.inj hok
  have hcalls := hop_edge hnodes
  rw [edge_eq_componentCall] at hcalls
  refine ⟨rfl, hnodes, rfl, ?_⟩
  refine ((List.forall₂_and_left _ _).mpr ⟨hcalls, forall₂_of_mapM hedges⟩).imp ?_
  rintro hop edge ⟨hcall, hedge⟩
  exact componentHop_of_ok hcall hedge

/-- What is reported of a walk among the methods. -/
structure MethodCycle (g : Graph) (limit : Int) (c : Cycle) : Prop where
  kind : c.kind = .method
  walk : c.nodes ∈ methodWalks g limit
  crosses : crossesComponents (methodInfos (methodCalls g)) c.nodes = true
  signature : c.signature = Adjacency.signature c.nodes
  edges : List.Forall₂ (MethodHop g) (hops c.nodes) c.edges

theorem methodCycle_of_mem {cs : List Cycle} (h : ofMethods g limit = .ok cs) {c : Cycle}
    (hc : c ∈ cs) : MethodCycle g limit c := by
  obtain ⟨nodes, hnodes, hok⟩ := mem_of_mapM h hc
  obtain ⟨hnodes, hcrosses⟩ := List.mem_filter.mp hnodes
  obtain ⟨edges, hedges, hok⟩ := bind_eq_ok.mp hok
  obtain rfl := Except.ok.inj hok
  have hcalls := hop_edge hnodes
  rw [edge_eq_methodCall] at hcalls
  refine ⟨rfl, hnodes, hcrosses, rfl, ?_⟩
  refine ((List.forall₂_and_left _ _).mpr ⟨hcalls, forall₂_of_mapM hedges⟩).imp ?_
  rintro hop edge ⟨hcall, hedge⟩
  exact methodHop_of_ok hcall hedge

/-- Cycles that are made of walks in turn have the signatures of the walks. -/
theorem signatures_apart {make : List String → Except (List Fault) Cycle}
    {walks : List (List String)}
    {cs : List Cycle} (hmake : ∀ walk c, make walk = .ok c → c.signature = Adjacency.signature walk)
    (h : walks.mapM make = .ok cs) (hwalks : (walks.map Adjacency.signature).Nodup) :
    cs.Pairwise (fun c d => c.kind = d.kind → c.signature ≠ d.signature) := by
  rw [← map_of_mapM hmake h] at hwalks
  refine (List.pairwise_map.mp hwalks).imp ?_
  intro c d hne _
  exact hne

theorem signature_of_make {nodes : List String} {kind : CycleKind} {severity : Severity}
    {edges : Except (List Fault) (List CycleEdge)} {c : Cycle}
    (h : (do return (⟨kind, nodes, ← edges, severity, false, Adjacency.signature nodes⟩ : Cycle)) =
      .ok c) : c.signature = Adjacency.signature nodes := by
  obtain ⟨_, _, h⟩ := bind_eq_ok.mp h
  rw [← Except.ok.inj h]

theorem detect_apart {cs : List Cycle} (h : detect g limit = .ok cs) :
    cs.Pairwise (fun c d => c.kind = d.kind → c.signature ≠ d.signature) := by
  obtain ⟨components, methods, hcomponents, hmethods, rfl⟩ := detect_eq_ok.mp h
  have hfirst := signatures_apart (fun _ _ => signature_of_make) hcomponents
    (Adjacency.signatures_nodup _ _ _)
  have hfiltered : (((methodWalks g limit).filter
      (crossesComponents (methodInfos (methodCalls g)))).map Adjacency.signature).Nodup :=
    (Adjacency.signatures_nodup _ _ _).sublist (List.filter_sublist.map _)
  have hsecond := signatures_apart (fun _ _ => signature_of_make) hmethods hfiltered
  rw [List.pairwise_append]
  refine ⟨hfirst, hsecond, ?_⟩
  intro c hc d hd hkind
  rw [(componentCycle_of_mem hcomponents hc).kind, (methodCycle_of_mem hmethods hd).kind] at hkind
  cases hkind

/-- **Every reported cycle is real.** It closes and meets no node twice, and no other cycle of its
kind has its signature. Behind each hop of a component cycle stands the first call between the two,
which are different components; behind each hop of a method cycle stands a call, and where keys tell
the class there are two classes at least. -/
theorem reported_cycles_are_real (g : Graph) (limit : Int) (cs : List Cycle)
    (h : detect g limit = .ok cs) :
    cs.Pairwise (fun c d => c.kind = d.kind → c.signature ≠ d.signature) ∧
    ∀ c ∈ cs, (∃ x between, c.nodes = x :: between ++ [x] ∧ (x :: between).Nodup) ∧
      (c.kind = .component → List.Forall₂ (ComponentHop g) (hops c.nodes) c.edges ∧
        ∀ p ∈ hops c.nodes, p.1 ≠ p.2 ∧ ∀ e, CallBetween g p.1 p.2 e ↔
          e ∈ g.callEdges ∧ owner (g.attributesOf e.1) = .str p.1 ∧
            owner (g.attributesOf e.2) = .str p.2) ∧
      (c.kind = .method → List.Forall₂ (MethodHop g) (hops c.nodes) c.edges ∧
        (WellNamed g → Crosses g c.nodes)) := by
  refine ⟨detect_apart h, fun c hc => ?_⟩
  obtain ⟨components, methods, hcomponents, hmethods, rfl⟩ := detect_eq_ok.mp h
  rcases List.mem_append.mp hc with hc | hc
  · have hcycle := componentCycle_of_mem hcomponents hc
    have hring := simple_of_walk hcycle.walk
    refine ⟨hring.2, fun _ => ⟨hcycle.edges, fun p hp => ?_⟩, fun hkind => ?_⟩
    · have hnamed := ((simpleCycle_iff.mp hring).1 p hp).names
      refine ⟨hnamed.2.2, fun e => ⟨fun h => ⟨h.call, h.source, h.target⟩, ?_⟩⟩
      rintro ⟨he, hsource, htarget⟩
      exact ⟨he, hsource, htarget, hnamed⟩
    · rw [hcycle.kind] at hkind
      cases hkind
  · have hcycle := methodCycle_of_mem hmethods hc
    have hring := simple_of_methodWalk hcycle.walk
    refine ⟨hring.2, fun hkind => ?_, fun _ => ⟨hcycle.edges, fun hnamed => ?_⟩⟩
    · rw [hcycle.kind] at hkind
      cases hkind
    · exact (crossesComponents_iff hnamed (mem_methods_of_ring hring)).mp hcycle.crosses

theorem twoPairs_cycles_are_real :
    WellNamed twoPairs ∧ ∃ cs, detect twoPairs 4 = .ok cs ∧
      (∃ c ∈ cs, c.kind = .component ∧ List.Forall₂ (ComponentHop twoPairs) (hops c.nodes) c.edges ∧
        ∀ p ∈ hops c.nodes, p.1 ≠ p.2) ∧
      ∃ c ∈ cs, c.kind = .method ∧ List.Forall₂ (MethodHop twoPairs) (hops c.nodes) c.edges ∧
        Crosses twoPairs c.nodes := by
  obtain ⟨ms, hms, hsome⟩ := noticed_of_ring twoPairs_named (callsShowable_ofMethodCalls _)
    twoPairs_plain twoPairs_limit twoPairs_rings.1 twoPairs_apart
  obtain ⟨walk, hwalk⟩ := List.exists_mem_of_ne_nil _
    (componentWalks_ne_nil_of_crossing twoPairs_named twoPairs_owners twoPairs_rings.1)
  obtain ⟨components, hcomponents⟩ := ofComponents_ok (callsShowable_ofMethodCalls _) 4
  obtain ⟨edges, hfound⟩ := (ofComponents_mem hcomponents).2 walk hwalk
  obtain ⟨d, hmethod⟩ := List.exists_mem_of_ne_nil ms hsome
  have hdetect := detect_eq_ok.mpr ⟨components, ms, hcomponents, hms, rfl⟩
  obtain ⟨_, hreal⟩ := reported_cycles_are_real twoPairs 4 _ hdetect
  have hc := List.mem_append_left ms hfound
  have hd := List.mem_append_right components hmethod
  have hkind := ofMethods_kind hms hmethod
  refine ⟨twoPairs_named, _, hdetect, ⟨_, hc, rfl, ?_⟩, ⟨d, hd, hkind, ?_⟩⟩
  · obtain ⟨hedges, hapart⟩ := (hreal _ hc).2.1 rfl
    exact ⟨hedges, fun p hp => (hapart p hp).1⟩
  · obtain ⟨hedges, hcrosses⟩ := (hreal d hd).2.2 hkind
    exact ⟨hedges, hcrosses twoPairs_named⟩

end ArchGraph.Cycle
