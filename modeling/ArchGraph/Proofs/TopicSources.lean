import ArchGraph.Proofs.OutboundCalls

/-!
Where the topic links of a method come from. A method is registered once, with the first fact of its
identifier; its calls and its outbound calls are those of that fact. Topics are linked in a walk of
their own over all facts, and what it goes by is the identifier alone. So a method has the links of
every fact that shares its identifier (`mem_topicLinks_iff`), and it has its own only just where the
facts that were passed over repeat what registered ones say (`topic_links_of_shared_identifiers`).
-/

namespace ArchGraph

namespace Topic

/-- One thing that a graph shows of a use. -/
inductive Mark where
  | link (methodId : String) (direction : TopicDirection) (topic : String)
  | user (topic : String) (direction : TopicDirection) (component : String)
  | detail (topic : String) (direction : TopicDirection) (text : String)
  deriving DecidableEq, Repr

/-- What a use leaves in a graph. -/
def Use.marks (u : Use) : List Mark :=
  [.link u.methodId u.call.direction u.topicId, .user u.topicId u.call.direction u.component,
    .detail u.topicId u.call.direction u.detail]

def Shows (g : ResolvedGraph) : Mark → Prop
  | .link id direction topic => ∃ m, g.methods.find? id = some m ∧ topic ∈ m.topicLinks direction
  | .user topic direction component =>
    ∃ t, g.topics.find? topic = some t ∧ component ∈ t.users direction
  | .detail topic direction text => ∃ t, g.topics.find? topic = some t ∧ text ∈ t.details direction

variable {us : List Use} {g : ResolvedGraph}

/-- A graph shows what its uses left and nothing else. -/
theorem Reflects.shows_iff (h : Reflects us g) (hknown : ∀ u ∈ us, u.methodId ∈ g.methods.keys)
    (mark : Mark) : Shows g mark ↔ ∃ u ∈ us, mark ∈ u.marks := by
  constructor
  · intro hmark
    cases mark with
    | link id direction topic =>
        obtain ⟨m, hm, hlink⟩ := hmark
        obtain ⟨u, hu, ⟨rfl, rfl⟩, rfl⟩ := ((h.methods id m hm direction).mem topic).mp hlink
        exact ⟨u, hu, by simp [Use.marks]⟩
    | user topic direction component =>
        obtain ⟨t, ht, huser⟩ := hmark
        have hshows := h.topics topic t ht
        obtain ⟨u, hu, ⟨hname, rfl⟩, rfl⟩ := ((hshows.users direction).mem component).mp huser
        have hid := (hshows.topicId_eq_iff u).mpr hname
        exact ⟨u, hu, by simp [Use.marks, hid]⟩
    | detail topic direction text =>
        obtain ⟨t, ht, hdetail⟩ := hmark
        have hshows := h.topics topic t ht
        obtain ⟨u, hu, ⟨hname, rfl⟩, rfl⟩ := ((hshows.details direction).mem text).mp hdetail
        have hid := (hshows.topicId_eq_iff u).mpr hname
        exact ⟨u, hu, by simp [Use.marks, hid]⟩
  · rintro ⟨u, hu, hmark⟩
    obtain ⟨t, ht, hshows, hname⟩ := h.topic_of_mem hu
    simp only [Use.marks, List.mem_cons, List.not_mem_nil, or_false] at hmark
    rcases hmark with rfl | rfl | rfl
    · obtain ⟨m, hm⟩ := Table.mem_keys_iff.mp (hknown u hu)
      exact ⟨m, hm, ((h.methods _ m hm _).mem _).mpr ⟨u, hu, ⟨rfl, rfl⟩, rfl⟩⟩
    · exact ⟨t, ht, ((hshows.users _).mem _).mpr ⟨u, hu, ⟨hname, rfl⟩, rfl⟩⟩
    · exact ⟨t, ht, ((hshows.details _).mem _).mpr ⟨u, hu, ⟨hname, rfl⟩, rfl⟩⟩

/-- Linking topics leaves all else of a method as it is. -/
theorem find?_methods_attachAll (uses : List Use) {g : ResolvedGraph} {id : String} {m : MethodNode}
    (h : g.methods.find? id = some m) :
    ∃ linked, (uses.foldl attach g).methods.find? id = some linked ∧
      linked.toMethodDecl = m.toMethodDecl ∧ linked.calls = m.calls := by
  induction uses generalizing g m with
  | nil => exact ⟨m, h, rfl, rfl⟩
  | cons u uses ih =>
      rw [List.foldl_cons]
      by_cases hid : id = u.methodId
      · have hstep : (attach g u).methods.find? id =
            some (m.link (linkKind u.call.direction) u.topicId) := by
          rw [find?_methods_attach, if_pos hid, h, Option.map_some]
        obtain ⟨linked, hlinked, hdecl, hcalls⟩ := ih hstep
        refine ⟨linked, hlinked, hdecl.trans ?_, hcalls.trans ?_⟩ <;>
          cases u.call.direction <;> rfl
      · have hstep : (attach g u).methods.find? id = some m := by
          rw [find?_methods_attach, if_neg hid, h]
        exact ih hstep

end Topic

namespace FactSet

open CallGraph (registered)

variable (threshold : Int) (facts : FactSet)

/-- The topic calls of the facts that methods were registered with. -/
def ownUses : List Topic.Use :=
  (registered facts).flatMap (fun n =>
    n.fact.topicCalls.map (fun call => ⟨n.owner.name, n.fact.name, n.decl.id, call⟩))

/-- A registered fact left the mark. -/
def OwnMark (mark : Topic.Mark) : Prop := ∃ u ∈ facts.ownUses, mark ∈ u.marks

/-- All facts about methods, each with its component. -/
def methodFacts : List (Component × MethodFact) :=
  facts.components.flatMap (fun c => c.methods.map (fun m => (c, m)))

theorem mem_methodFacts {c : Component} {m : MethodFact} :
    (c, m) ∈ facts.methodFacts ↔ c ∈ facts.components ∧ m ∈ c.methods := by
  simp [methodFacts]

theorem built_of_registered {n : Registered} (hn : n ∈ registered facts) :
    n.owner ∈ facts.components ∧ n.fact ∈ n.owner.methods ∧ n.decl.id = n.fact.id n.owner := by
  have hbuilt := (Registry.sound_ofFacts facts).built n hn
  exact ⟨hbuilt.owner, hbuilt.fact, by rw [hbuilt.decl]; rfl⟩

/-- Where identifiers are not shared, whatever is linked was registered. -/
theorem topicUses_subset (h : (facts.methodFacts.map (fun f => f.2.id f.1)).Nodup) :
    facts.topicUses ⊆ facts.ownUses := by
  intro u hu
  obtain ⟨c, hc, m, hm, ⟨n, hn, hid⟩, call, hcall, rfl⟩ := facts.mem_topicUses.mp hu
  obtain ⟨howner, hfact, hself⟩ := facts.built_of_registered hn
  have hsame : (n.owner, n.fact) = (c, m) :=
    List.inj_on_of_nodup_map h (facts.mem_methodFacts.mpr ⟨howner, hfact⟩)
      (facts.mem_methodFacts.mpr ⟨hc, hm⟩) (hself.symm.trans hid)
  obtain ⟨rfl, rfl⟩ := Prod.mk.inj hsame
  rw [← hid]
  exact List.mem_flatMap.mpr ⟨n, hn, List.mem_map_of_mem hcall⟩

/-- A method has the links of every fact of its identifier. -/
theorem mem_topicLinks_iff {n : Registered} (hn : n ∈ registered facts) {node : MethodNode}
    (hnode : (facts.resolveBound threshold).methods.find? n.decl.id = some node)
    (direction : TopicDirection) (topic : String) :
    topic ∈ node.topicLinks direction ↔ ∃ c ∈ facts.components, ∃ m ∈ c.methods,
      m.id c = n.decl.id ∧ ∃ call ∈ m.topicCalls, call.direction = direction ∧
        Identifier.topic call.topic = topic := by
  rw [((facts.reflects_resolveBound threshold).methods _ node hnode direction).mem]
  constructor
  · rintro ⟨u, hu, ⟨hid, hdirection⟩, htopic⟩
    obtain ⟨c, hc, m, hm, _, call, hcall, rfl⟩ := facts.mem_topicUses.mp hu
    exact ⟨c, hc, m, hm, hid, call, hcall, hdirection, htopic⟩
  · rintro ⟨c, hc, m, hm, hid, call, hcall, hdirection, htopic⟩
    exact ⟨⟨c.name, m.name, m.id c, call⟩,
      facts.mem_topicUses.mpr ⟨c, hc, m, hm, ⟨n, hn, hid.symm⟩, call, hcall, rfl⟩,
      ⟨hid, hdirection⟩, htopic⟩

theorem exists_node {n : Registered} (hn : n ∈ registered facts) :
    ∃ node, (facts.resolveBound threshold).methods.find? n.decl.id = some node ∧
      node.toMethodDecl = n.decl ∧
      node.calls = distinct (CallGraph.calledIds (CallGraph.resolution facts) n) := by
  obtain ⟨plain, hplain, hdecl, hcalls⟩ := CallGraph.flat_find? facts hn
  rw [← CallGraph.methods_ofBound] at hplain
  obtain ⟨linked, hlinked, hdecl', hcalls'⟩ :=
    Topic.find?_methods_attachAll (g := facts.matched threshold) facts.topicUses hplain
  have hsealed : (facts.resolveBound threshold).methods =
      (Topic.link (facts.matched threshold) facts).2.methods.map (·.sealed) := rfl
  refine ⟨linked.sealed, ?_, hdecl'.trans hdecl, hcalls'.trans hcalls⟩
  rw [hsealed, Table.find?_map, link_matched, hlinked, Option.map_some]

/-- The outbound calls of a method are those of the fact it was registered with. -/
theorem own_externalCallIds {n : Registered} (hn : n ∈ registered facts) {node : MethodNode}
    (hnode : (facts.resolveBound threshold).methods.find? n.decl.id = some node) :
    ∀ id ∈ node.externalCallIds, ∃ call ∈ n.fact.outboundCalls,
      id = Identifier.externalCall call.verb call.url n.decl.id := by
  intro id hid
  have hintact := ResolvedGraph.intact_resolveBound threshold facts
  obtain ⟨x, hx, hsource⟩ := ((hintact.callsOut _ node hnode).2 id).mp hid
  obtain ⟨first, hmade, _, rfl, hstands⟩ := facts.firstCall_of_find? threshold hx
  obtain ⟨maker, hmaker, hmade⟩ := List.mem_flatMap.mp hmade
  obtain ⟨call, hcall, rfl⟩ := List.mem_map.mp hmade
  have hsame : maker = n := (Registry.sound_ofFacts facts).eq_of_id hmaker hn
    (hstands.source.symm.trans hsource)
  subst hsame
  exact ⟨call, hcall, rfl⟩

/-- What a method node is made of: one fact, but for its topic links. -/
structure NodeMadeOf (n : Registered) (node : MethodNode) : Prop where
  decl : node.toMethodDecl = n.decl
  calls : node.calls = distinct (CallGraph.calledIds (CallGraph.resolution facts) n)
  outbound : ∀ id ∈ node.externalCallIds, ∃ call ∈ n.fact.outboundCalls,
    id = Identifier.externalCall call.verb call.url n.decl.id
  topics : ∀ direction topic, topic ∈ node.topicLinks direction ↔ ∃ c ∈ facts.components,
    ∃ m ∈ c.methods, m.id c = n.decl.id ∧ ∃ call ∈ m.topicCalls, call.direction = direction ∧
      Identifier.topic call.topic = topic

/-- **A method has the topic links of every fact that shares its identifier.** Its calls and
outbound calls are those of the fact it was registered with. What a graph shows of topics comes from
registered facts just where the others repeat it, and so wherever no identifier is shared. -/
theorem topic_links_of_shared_identifiers (threshold : Int) (facts : FactSet) :
    let bound := facts.ensureBound
    let r := bound.resolveBound threshold
    (∀ n ∈ registered bound, ∃ node, r.methods.find? n.decl.id = some node ∧
      bound.NodeMadeOf n node) ∧
    (∀ mark, Topic.Shows r mark ↔ ∃ u ∈ bound.topicUses, mark ∈ u.marks) ∧
    ((∀ mark, Topic.Shows r mark → bound.OwnMark mark) ↔
      ∀ c ∈ bound.components, ∀ m ∈ c.methods, (∃ n ∈ registered bound, n.decl.id = m.id c) →
        ∀ call ∈ m.topicCalls, ∀ mark ∈ Topic.Use.marks ⟨c.name, m.name, m.id c, call⟩,
          bound.OwnMark mark) ∧
    ((bound.methodFacts.map (fun f => f.2.id f.1)).Nodup →
      ∀ mark, Topic.Shows r mark → bound.OwnMark mark) := by
  intro bound r
  have hshows := (bound.reflects_resolveBound threshold).shows_iff (bound.known_topicUses threshold)
  refine ⟨fun n hn => ?_, hshows, ⟨?_, ?_⟩, ?_⟩
  · obtain ⟨node, hnode, hdecl, hcalls⟩ := bound.exists_node threshold hn
    exact ⟨node, hnode, hdecl, hcalls, bound.own_externalCallIds threshold hn hnode,
      bound.mem_topicLinks_iff threshold hn hnode⟩
  · intro hown c hc m hm hregistered call hcall mark hmark
    refine hown mark ((hshows mark).mpr ⟨_, ?_, hmark⟩)
    exact bound.mem_topicUses.mpr ⟨c, hc, m, hm, hregistered, call, hcall, rfl⟩
  · intro hrepeated mark hmark
    obtain ⟨u, hu, hmark⟩ := (hshows mark).mp hmark
    obtain ⟨c, hc, m, hm, hregistered, call, hcall, rfl⟩ := bound.mem_topicUses.mp hu
    exact hrepeated c hc m hm hregistered call hcall mark hmark
  · intro hdistinct mark hmark
    obtain ⟨u, hu, hmark⟩ := (hshows mark).mp hmark
    exact ⟨u, bound.topicUses_subset hdistinct hu, hmark⟩

def sends (topic : String) : MethodFact :=
  { methodNamed "place" none [] with topicCalls := [⟨topic, .produce, none, none⟩] }

/-- A class with one method, which sends to a topic. -/
def sendingTo (topic : String) : Component :=
  ⟨"Orders", "shop.Orders", "shop", .businessService, [], ∅, [sends topic], none, none, none, none⟩

def listedTwice : FactSet := ⟨"shop", [sendingTo "orders", sendingTo "audit"], ∅, false⟩

/-- The class that is passed over still has its topic linked, to the method of the other. -/
theorem listedTwice_links_both :
    ∃ n ∈ registered listedTwice.ensureBound, ∀ threshold, ∃ node,
      (listedTwice.ensureBound.resolveBound threshold).methods.find? n.decl.id = some node ∧
      ∃ topic ∈ node.producesTo, ∀ call ∈ n.fact.topicCalls,
        Identifier.topic call.topic ≠ topic := by
  have hregistry := Registry.ofFacts_of_ordered listedTwice.ensureBound (by decide)
  have hregistered : registered listedTwice.ensureBound =
      [.ofFact (sendingTo "orders") .service (sends "orders")] := by
    unfold registered
    rw [hregistry]
    rfl
  have hn : .ofFact (sendingTo "orders") .service (sends "orders") ∈
      registered listedTwice.ensureBound := by
    rw [hregistered]
    exact List.mem_cons_self
  refine ⟨_, hn, fun threshold => ?_⟩
  obtain ⟨node, hnode, _, _⟩ := listedTwice.ensureBound.exists_node threshold hn
  refine ⟨node, hnode, "topic:audit", ?_, by decide⟩
  apply (listedTwice.ensureBound.mem_topicLinks_iff threshold hn hnode .produce "topic:audit").mpr
  exact ⟨sendingTo "audit", List.mem_cons_of_mem _ List.mem_cons_self, sends "audit",
    List.mem_cons_self, rfl, _, List.mem_cons_self, rfl, rfl⟩

end FactSet

end ArchGraph
