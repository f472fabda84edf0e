import ArchGraph.Proofs.ExportFidelity
import ArchGraph.Proofs.StoredGraphs
import ArchGraph.Proofs.TopicLinks

/-!
The report on the topics of a project. What a topic lists on each of its sides agrees with the links
of the methods (`users_ne_nil_iff`), so the orphans of the report are those of the exported graph;
and since a topic is read from its node as it was written (`readTopic_attributes`), the report can
be made again from the document of the graph (`topic_report_agrees`).
-/

namespace ArchGraph

/-! ## The document of an exported graph -/

namespace Graph

theorem Storable.addNodes {α : Type} {type : NodeType} {attributes : α → List (String × Json)}
    {t : Table String α} {g : Graph} (hnew : ∀ a, ∀ e ∈ attributes a, e.1 ∉ nodeNames)
    (h : g.Storable) : (addNodes type attributes t g).Storable := by
  unfold Graph.addNodes
  induction inOrder t generalizing g with
  | nil => exact h
  | cons e es ih => exact ih (h.addNode _ _ (hnew e.2))

theorem Storable.addLinks {ls : List Link} {g : Graph}
    (hnew : ∀ l ∈ ls, ∀ e ∈ l.attributes, e.1 ∉ edgeNames) (h : g.Storable) :
    (ls.foldl addLink g).Storable := by
  induction ls generalizing g with
  | nil => exact h
  | cons l ls ih =>
      obtain ⟨hl, hls⟩ := List.forall_mem_cons.mp hnew
      exact ih hls (h.addEdge _ _ _ hl)

/-- The only attribute of an edge is a score. -/
theorem attributes_exportLinks {r : ResolvedGraph} {l : Link} (h : l ∈ exportLinks r) :
    ∀ e ∈ l.attributes, e.1 = "score" := by
  simp only [exportLinks, List.mem_append, mem_linksOf] at h
  rcases h with ((⟨id, c, _, hl⟩ | ⟨id, m, _, hl⟩) | ⟨id, e, _, hl⟩) | ⟨id, c, _, hl⟩
  · obtain ⟨_, _, rfl⟩ := List.mem_map.mp hl
    simp [Link.plain]
  · rcases mem_methodLinks.mp hl with
      rfl | ⟨t, _, rfl⟩ | ⟨t, _, rfl⟩ | ⟨t, _, rfl⟩ | ⟨t, _, rfl⟩ <;>
      simp [Link.plain]
  · obtain ⟨_, _, rfl⟩ := List.mem_map.mp hl
    simp [Link.plain]
  · obtain ⟨_, _, _, rfl⟩ := mem_callLinks.mp hl
    simp

theorem storable_ofResolved (space : String) (r : ResolvedGraph) :
    (ofResolved space r).Storable := by
  unfold ofResolved exportNodes
  apply Storable.addLinks
  · intro l hl e he
    rw [attributes_exportLinks hl e he]
    decide
  · refine .addNodes ?_ (.addNodes ?_ (.addNodes ?_ (.addNodes ?_ (.addNodes ?_ (.addNodes ?_
      (storable_empty _ _))))))
    · simp [TopicNode.attributes, nodeNames]
    · simp [ExternalCallNode.attributes, nodeNames]
    · simp [EndpointNode.attributes, nodeNames]
    · simp [methodAttributes, nodeNames]
    · simp [TableNode.attributes, nodeNames]
    · simp [ComponentNode.attributes, nodeNames]

/-! ## Topics read from a graph -/

theorem itemsFrom_texts (names : List String) (i : Nat) :
    Decoder.itemsFrom .text i (names.map .str) = .ok names := by
  induction names generalizing i with
  | nil => rfl
  | cons name names ih =>
      rw [List.map_cons, Decoder.itemsFrom, ih]
      rfl

theorem items_texts (name : String) {names : List String} {entries : Entries}
    (h : entries.lookup name = some (.ofTexts names)) :
    Decoder.items name .text entries = .ok names := by
  have hlist : Decoder.list .text (.ofTexts names) = .ok names := itemsFrom_texts names 0
  unfold Decoder.items Decoder.withDefault
  rw [h]
  dsimp only
  rw [hlist]
  rfl

theorem decode_topic (t : TopicNode) :
    TopicNode.decode (.obj (("id", .str t.id) :: t.attributes)) = .ok t := by
  unfold TopicNode.decode Decoder.record TopicNode.attributes
  dsimp only
  rw [items_texts "producers" rfl, items_texts "consumers" rfl, items_texts "producer_details" rfl,
    items_texts "consumer_details" rfl]
  rfl

/-- A topic is read as it was written. -/
theorem readTopic_attributes (t : TopicNode) (type : Json) :
    readTopic t.id (Table.ofList ((typeName, type) :: t.attributes)) = .ok t := by
  have hdistinct : (((typeName, type) :: t.attributes).map (·.1)).Nodup := by
    simp [TopicNode.attributes, typeName]
  have hlists : ∀ name names, t.attributes.lookup name = some (.ofTexts names) →
      typeName ≠ name → listAttribute ⟨(typeName, type) :: t.attributes⟩ name =
        .ok (name, .ofTexts names) := by
    intro name names hfind hname
    have hlookup : Table.find? (⟨(typeName, type) :: t.attributes⟩ : Attributes) name =
        some (.ofTexts names) := by
      rw [Table.find?, List.lookup_cons, beq_false_of_ne (Ne.symm hname)]
      exact hfind
    unfold listAttribute
    rw [hlookup]
    rfl
  have hname : Table.find? (⟨(typeName, type) :: t.attributes⟩ : Attributes) "name" =
      some (.str t.name) := rfl
  have hscope : Table.find? (⟨(typeName, type) :: t.attributes⟩ : Attributes) "scope_key" =
      some (.str t.scopeKey) := rfl
  have hdecode := decode_topic t
  unfold TopicNode.attributes at hdecode
  rw [Table.ofList_eq hdistinct]
  unfold readTopic
  rw [hname, hscope, hlists "producers" _ rfl (by decide), hlists "consumers" _ rfl (by decide),
    hlists "producer_details" _ rfl (by decide), hlists "consumer_details" _ rfl (by decide)]
  simp only [bind, Except.bind, Option.getD_some, hdecode]

theorem attributesOf_of_mem {g : Graph} (h : g.WellFormed) {type : String} {e : String × Attributes}
    (he : e ∈ g.nodesOfType type) : e.2 = g.attributesOf e.1 := by
  obtain ⟨⟨id, node⟩, hnode, rfl⟩ := List.mem_map.mp (List.mem_filter.mp he).1
  simp [attributesOf, Table.find?_of_mem h.nodes hnode]

/-- The topics of an exported graph are those of the project, in the order of their nodes. -/
theorem topics_ofResolved {r : ResolvedGraph} (h : r.Intact)
    (hself : r.topics.All (fun id t => t.id = id)) (space : String) :
    ∃ ts, (ofResolved space r).topics = .ok ts ∧ ts.Perm r.topics.values := by
  have hread : ∀ e ∈ (ofResolved space r).nodesOfType (Coded.code NodeType.topic), ∃ t,
      readTopic e.1 e.2 = .ok t ∧ r.topics.find? e.1 = some t := by
    intro e he
    have hid : e.1 ∈ r.topics.keys :=
      (nodesOfType_ofResolved h space .topic).mem_iff.mp (List.mem_map_of_mem he)
    obtain ⟨t, ht⟩ := Table.mem_keys_iff.mp hid
    have hdescribed : r.described? .topic e.1 = some t.attributes := by
      rw [ResolvedGraph.described?, ht]
      rfl
    refine ⟨t, ?_, ht⟩
    rw [attributesOf_of_mem (wellFormed_ofResolved space r) he,
      attributesOf_ofResolved h space hdescribed, ← hself _ t ht]
    exact readTopic_attributes t _
  have hmap : ∀ es : List (String × Attributes), (∀ e ∈ es, ∃ t, readTopic e.1 e.2 = .ok t ∧
      r.topics.find? e.1 = some t) → es.mapM (fun e => readTopic e.1 e.2) =
        .ok ((es.map (·.1)).filterMap r.topics.find?) := by
    intro es
    induction es with
    | nil => exact fun _ => rfl
    | cons e es ih =>
        intro hes
        obtain ⟨⟨t, ht, hfind⟩, hrest⟩ := List.forall_mem_cons.mp hes
        rw [List.mapM_cons, ht, ih hrest, List.map_cons, List.filterMap_cons, hfind]
        rfl
  have hvalues : r.topics.keys.filterMap r.topics.find? = r.topics.values := by
    have hfound : ∀ e ∈ r.topics.entries, r.topics.find? e.1 = some e.2 :=
      fun e he => Table.find?_of_mem h.topicsOnce he
    unfold Table.keys Table.values
    rw [List.filterMap_map, ← List.filterMap_eq_map]
    exact List.filterMap_congr hfound
  refine ⟨_, hmap _ hread, ?_⟩
  rw [← hvalues]
  exact (nodesOfType_ofResolved h space .topic).filterMap _

end Graph

/-! ## Reports -/

/-- A report does not depend on the order in which topics of different names are listed. -/
theorem TopicReport.ofTopics_perm {xs ys : List TopicNode} (hp : xs.Perm ys)
    (hnames : (xs.map (·.name)).Nodup) : ofTopics xs = ofTopics ys := by
  have hsorted : byName xs = byName ys := by
    apply mergeSort_eq_of_perm _ _ _ hp
    · intro a b c
      exact nameLE_trans a.name b.name c.name
    · intro a b
      exact nameLE_total a.name b.name
    · intro a ha b hb hab hba
      exact List.inj_on_of_nodup_map hnames ha hb (nameLE_antisymm _ _ hab hba)
  unfold ofTopics
  rw [hsorted]

theorem TopicReport.mem_orphanConsumers {topics : List TopicNode} {t : TopicNode} :
    t ∈ (ofTopics topics).orphanConsumers ↔ t ∈ topics ∧ t.users .produce ≠ [] ∧
      t.users .consume = [] := by
  simp [ofTopics, orphanConsumersOf, byName, TopicNode.lacksConsumers, TopicNode.users]

theorem TopicReport.mem_orphanProducers {topics : List TopicNode} {t : TopicNode} :
    t ∈ (ofTopics topics).orphanProducers ↔ t ∈ topics ∧ t.users .consume ≠ [] ∧
      t.users .produce = [] := by
  simp [ofTopics, orphanProducersOf, byName, TopicNode.lacksProducers, TopicNode.users]

/-- The edges from the methods that use a topic in a direction. -/
def Topic.edgeType : TopicDirection → EdgeType
  | .produce => .producesTo
  | .consume => .consumesFrom

theorem ResolvedGraph.related_topic (r : ResolvedGraph) (direction : TopicDirection)
    (source id : String) : r.Related (Topic.edgeType direction) source id ↔
      ∃ m, r.methods.find? source = some m ∧ id ∈ m.topicLinks direction := by
  cases direction <;> rfl

namespace Topic.Reflects

variable {us : List Topic.Use} {r : ResolvedGraph}

/-- Both sides of a link agree. -/
theorem users_ne_nil_iff (h : Topic.Reflects us r) (hknown : ∀ u ∈ us, u.methodId ∈ r.methods.keys)
    {id : String} {t : TopicNode} (ht : r.topics.find? id = some t) (direction : TopicDirection) :
    t.users direction ≠ [] ↔
      ∃ source m, r.methods.find? source = some m ∧ id ∈ m.topicLinks direction := by
  have hshows := h.topics id t ht
  rw [(hshows.users direction).ne_nil_iff]
  constructor
  · rintro ⟨u, hu, hname, hdirection⟩
    obtain ⟨m, hm⟩ := Table.mem_keys_iff.mp (hknown u hu)
    exact ⟨u.methodId, m, hm, ((h.methods _ m hm direction).mem id).mpr
      ⟨u, hu, ⟨rfl, hdirection⟩, (hshows.topicId_eq_iff u).mpr hname⟩⟩
  · rintro ⟨source, m, hm, hlink⟩
    obtain ⟨u, hu, ⟨_, hdirection⟩, hid⟩ := ((h.methods source m hm direction).mem id).mp hlink
    exact ⟨u, hu, (hshows.topicId_eq_iff u).mp hid, hdirection⟩

/-- There is no topic that nothing uses. -/
theorem used (h : Topic.Reflects us r) {id : String} {t : TopicNode}
    (ht : r.topics.find? id = some t) : ∃ direction, t.users direction ≠ [] := by
  have hshows := h.topics id t ht
  obtain ⟨u, hu, hid⟩ := (h.present id).mp (Table.mem_keys_of_find? ht)
  have hname := (hshows.topicId_eq_iff u).mp hid
  exact ⟨u.call.direction, ((hshows.users _).ne_nil_iff).mpr ⟨u, hu, hname, rfl⟩⟩

theorem self (h : Topic.Reflects us r) : r.topics.All (fun id t => t.id = id) :=
  h.topics.imp fun _ _ ht => ht.self

theorem names_nodup (h : Topic.Reflects us r) (hintact : r.Intact) :
    (r.topics.values.map (·.name)).Nodup := by
  have hnamed : r.topics.All (fun id t => Identifier.topic t.name = id) :=
    h.topics.imp fun _ _ ht => ht.named.symm
  apply List.Nodup.of_map Identifier.topic
  rw [List.map_map]
  exact (Table.map_values hintact.topicsOnce hnamed).symm ▸ hintact.topicsOnce

/-- A topic has users in a direction just where its node has edges of that type. -/
theorem users_iff_sources (h : Topic.Reflects us r) (hknown : ∀ u ∈ us, u.methodId ∈ r.methods.keys)
    (space : String) {id : String} {t : TopicNode} (ht : r.topics.find? id = some t)
    (direction : TopicDirection) : t.users direction ≠ [] ↔
      (Graph.ofResolved space r).sourcesOf (Topic.edgeType direction) id ≠ [] := by
  have hwell := Graph.wellFormed_ofResolved space r
  rw [h.users_ne_nil_iff hknown ht]
  constructor
  · rintro ⟨source, hrelated⟩
    have hmem : source ∈ (Graph.ofResolved space r).sourcesOf (Topic.edgeType direction) id := by
      rw [Graph.mem_sourcesOf hwell, Graph.relationship?_ofResolved, r.related_topic]
      exact hrelated
    exact List.ne_nil_of_mem hmem
  · intro hne
    obtain ⟨source, hsource⟩ := List.exists_mem_of_ne_nil _ hne
    rw [Graph.mem_sourcesOf hwell, Graph.relationship?_ofResolved, r.related_topic] at hsource
    exact ⟨source, hsource⟩

end Topic.Reflects

/-! ## Agreement -/

/-- The topics of a project agree with the links of its methods, with the edges of its graph, and
with what is read from the document of the graph. -/
structure TopicsAgree (r : ResolvedGraph) (g : Graph) : Prop where
  /-- A side of a topic is empty just where no method is linked to the topic in that direction. -/
  sides : ∀ id t, r.topics.find? id = some t → ∀ direction, t.users direction ≠ [] ↔
    ∃ source m, r.methods.find? source = some m ∧ id ∈ m.topicLinks direction
  used : ∀ id t, r.topics.find? id = some t → t.producers ≠ [] ∨ t.consumers ≠ []
  once : ∀ id t, r.topics.find? id = some t → t.producers.Nodup ∧ t.consumers.Nodup ∧
    t.producerDetails.Nodup ∧ t.consumerDetails.Nodup
  orphanConsumers : ∀ id,
    id ∈ (TopicReport.ofTopics r.topics.values).orphanConsumers.map (·.id) ↔
      id ∈ (g.nodesOfType (Coded.code NodeType.topic)).map (·.1) ∧
        g.sourcesOf .producesTo id ≠ [] ∧ g.sourcesOf .consumesFrom id = []
  orphanProducers : ∀ id,
    id ∈ (TopicReport.ofTopics r.topics.values).orphanProducers.map (·.id) ↔
      id ∈ (g.nodesOfType (Coded.code NodeType.topic)).map (·.1) ∧
        g.sourcesOf .consumesFrom id ≠ [] ∧ g.sourcesOf .producesTo id = []
  apart : ∀ t ∈ (TopicReport.ofTopics r.topics.values).orphanConsumers,
    t ∉ (TopicReport.ofTopics r.topics.values).orphanProducers
  /-- Under whatever name the document is read, the report made of it is the same. -/
  stored : ∀ space, ∃ read ts, Graph.ofJson space g.toJson = .ok read ∧ read.topics = .ok ts ∧
    TopicReport.ofTopics ts = TopicReport.ofTopics r.topics.values

theorem Topic.Reflects.orphan_iff {us : List Topic.Use} {r : ResolvedGraph}
    (h : Topic.Reflects us r) (hintact : r.Intact) (hknown : ∀ u ∈ us, u.methodId ∈ r.methods.keys)
    (space id : String) (filled missing : TopicDirection) :
    (∃ t, (t ∈ r.topics.values ∧ t.users filled ≠ [] ∧ t.users missing = []) ∧ t.id = id) ↔
      id ∈ ((Graph.ofResolved space r).nodesOfType (Coded.code NodeType.topic)).map (·.1) ∧
        (Graph.ofResolved space r).sourcesOf (Topic.edgeType filled) id ≠ [] ∧
        (Graph.ofResolved space r).sourcesOf (Topic.edgeType missing) id = [] := by
  have hempty : ∀ {t}, r.topics.find? id = some t → (t.users missing = [] ↔
      (Graph.ofResolved space r).sourcesOf (Topic.edgeType missing) id = []) := fun ht =>
    not_iff_not.mp (h.users_iff_sources hknown space ht missing)
  rw [(Graph.nodesOfType_ofResolved hintact space .topic).mem_iff]
  constructor
  · rintro ⟨t, ⟨ht, hfilled, hmissing⟩, rfl⟩
    have hfind := (Table.mem_values_iff hintact.topicsOnce h.self).mp ht
    exact ⟨Table.mem_keys_of_find? hfind,
      (h.users_iff_sources hknown space hfind filled).mp hfilled,
      (hempty hfind).mp hmissing⟩
  · rintro ⟨hid, hfilled, hmissing⟩
    obtain ⟨t, hfind⟩ := Table.mem_keys_iff.mp hid
    have hself := h.self id t hfind
    have hvalue : t ∈ r.topics.values :=
      (Table.mem_values_iff hintact.topicsOnce h.self).mpr (hself.symm ▸ hfind)
    exact ⟨t, ⟨hvalue, (h.users_iff_sources hknown space hfind filled).mpr hfilled,
      (hempty hfind).mpr hmissing⟩, hself⟩

theorem topicsAgree_ofResolved {us : List Topic.Use} {r : ResolvedGraph} (h : Topic.Reflects us r)
    (hintact : r.Intact) (hknown : ∀ u ∈ us, u.methodId ∈ r.methods.keys) (space : String) :
    TopicsAgree r (Graph.ofResolved space r) where
  sides := fun _ _ ht direction => h.users_ne_nil_iff hknown ht direction
  used := by
    intro id t ht
    obtain ⟨direction, hused⟩ := h.used ht
    cases direction with
    | produce => exact .inl hused
    | consume => exact .inr hused
  once := by
    intro id t ht
    have hshows := h.topics id t ht
    exact ⟨(hshows.users .produce).once, (hshows.users .consume).once,
      (hshows.details .produce).once, (hshows.details .consume).once⟩
  orphanConsumers := by
    intro id
    rw [List.mem_map]
    simp only [TopicReport.mem_orphanConsumers]
    exact h.orphan_iff hintact hknown space id .produce .consume
  orphanProducers := by
    intro id
    rw [List.mem_map]
    simp only [TopicReport.mem_orphanProducers]
    exact h.orphan_iff hintact hknown space id .consume .produce
  apart := by
    intro t hconsumers hproducers
    obtain ⟨_, hproduced, _⟩ := TopicReport.mem_orphanConsumers.mp hconsumers
    obtain ⟨_, _, hunproduced⟩ := TopicReport.mem_orphanProducers.mp hproducers
    exact hproduced hunproduced
  stored := by
    intro other
    obtain ⟨ts, hts, hperm⟩ := Graph.topics_ofResolved hintact h.self space
    have hnames : (ts.map (·.name)).Nodup :=
      (hperm.map _).nodup_iff.mpr (h.names_nodup hintact)
    refine ⟨_, ts, (Graph.storable_ofResolved space r).ofJson_toJson other, ?_,
      TopicReport.ofTopics_perm hperm hnames⟩
    exact hts

/-- **The report on topics agrees with the edges, before and after the graph is stored.** Whatever
the facts, their topics can be linked, and linking them once more, before the methods are sealed,
changes nothing. -/
theorem topic_report_agrees (threshold : Int) (space : String) (facts : FactSet) :
    let bound := facts.ensureBound
    let linked := Topic.link (bound.matched threshold) bound
    bound.resolveBound threshold = linked.2.sealed ∧
      TopicsAgree (bound.resolveBound threshold) (facts.analyze threshold space) ∧
      linked.1 = .ok bound.topicUses.length ∧ Topic.link linked.2 bound = linked := by
  intro bound linked
  refine ⟨rfl, ?_, ?_, bound.link_linked threshold⟩
  · exact topicsAgree_ofResolved (bound.reflects_resolveBound threshold)
      (ResolvedGraph.intact_resolveBound threshold bound) (bound.known_topicUses threshold) space
  · exact congrArg Prod.fst (bound.link_matched threshold)

end ArchGraph
