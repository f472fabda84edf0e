import ArchGraph.Proofs.DiffExactness
import ArchGraph.Proofs.Export
import ArchGraph.Proofs.Placement
import ArchGraph.Proofs.Regularity

/-!
Moving code is no change. Facts that differ only in lines are resolved to projects that differ only
in lines, and so their graphs have the same nodes and the same edges in the same order, and of every
node the same attributes but those that tell a place (`sameButPlace_ofResolved`). A diff looks at
none of these (`SameButPlace.agree`), and the search for cycles neither (`SameButPlace.detect_eq`).
-/

namespace ArchGraph

/-! ## Exported values are the same as themselves -/

namespace Graph

variable {g : Graph}

theorem Regular.addLink (h : g.Regular) {l : Link} (hnew : ∀ e ∈ l.attributes, e.2.Regular) :
    (addLink g l).Regular :=
  h.addEdge _ _ _ hnew

theorem Regular.addNodes {α : Type} {attributes : α → List (String × Json)}
    (hnew : ∀ a, ∀ e ∈ attributes a, e.2.Regular) (type : NodeType) (t : Table String α)
    (h : g.Regular) : (addNodes type attributes t g).Regular := by
  unfold Graph.addNodes
  induction inOrder t generalizing g with
  | nil => exact h
  | cons e es ih =>
      exact ih (h.addNode _ _ (hnew e.2))

theorem regular_exportLinks {r : ResolvedGraph} {l : Link} (h : l ∈ exportLinks r) :
    ∀ e ∈ l.attributes, e.2.Regular := by
  have plain : ∀ {type : EdgeType} {source target : String},
      ∀ e ∈ (Link.plain type source target).attributes, e.2.Regular := fun e he => nomatch he
  simp only [exportLinks, List.mem_append, mem_linksOf] at h
  rcases h with ((⟨id, c, _, hl⟩ | ⟨id, m, _, hl⟩) | ⟨id, e, _, hl⟩) | ⟨id, c, _, hl⟩
  · obtain ⟨table, _, rfl⟩ := List.mem_map.mp hl
    exact plain
  · rcases mem_methodLinks.mp hl with
      rfl | ⟨t, _, rfl⟩ | ⟨t, _, rfl⟩ | ⟨t, _, rfl⟩ | ⟨t, _, rfl⟩ <;>
      exact plain
  · obtain ⟨handler, _, rfl⟩ := List.mem_map.mp hl
    exact plain
  · obtain ⟨_, t, _, rfl⟩ := mem_callLinks.mp hl
    simp

/-- What is exported is written in texts, whole numbers and truth values only. -/
theorem regular_ofResolved (space : String) (r : ResolvedGraph) : (ofResolved space r).Regular := by
  have links : ∀ (ls : List Link) (g : Graph), (∀ l ∈ ls, ∀ e ∈ l.attributes, e.2.Regular) →
      g.Regular → (ls.foldl Graph.addLink g).Regular := by
    intro ls
    induction ls with
    | nil => exact fun g _ hg => hg
    | cons l ls ih =>
        intro g hls hg
        exact ih _ (fun k hk => hls k (List.mem_cons_of_mem _ hk))
          (hg.addLink (hls l List.mem_cons_self))
  apply links
  · exact fun l hl => regular_exportLinks hl
  · unfold exportNodes
    refine Regular.addNodes ?_ _ _ <| Regular.addNodes ?_ _ _ <| Regular.addNodes ?_ _ _ <|
      Regular.addNodes ?_ _ _ <| Regular.addNodes ?_ _ _ <| Regular.addNodes ?_ _ _ ?_
    · simp [TopicNode.attributes]
    · simp [ExternalCallNode.attributes]
    · simp [EndpointNode.attributes]
    · simp [methodAttributes, Coded.toJson]
    · simp [TableNode.attributes]
    · simp [ComponentNode.attributes, Coded.toJson]
    · exact regular_empty _ _

/-! ## Graphs of the same shape -/

/-- The nodes of a graph and its edges, in order, without the attributes of the nodes. -/
def outline (g : Graph) : Table String (Table String (Table String Attributes)) :=
  g.nodes.map (·.out)

theorem outline_mergeNode (g : Graph) (id : String) (attributes : List (String × Json)) :
    (g.mergeNode id attributes).outline = g.outline.insertNew id ∅ := by
  apply Table.map_upsert
  intro known
  cases known <;> rfl

theorem outline_addEdge (g : Graph) (source target type : String)
    (attributes : List (String × Json)) :
    (g.addEdge source target type attributes).outline =
      ((g.outline.insertNew source ∅).insertNew target ∅).modify source (fun out =>
        out.upsert target (fun byType =>
          (byType.getD ∅).upsert type (fun known => (known.getD ∅).insertAll attributes))) := by
  rw [← outline_mergeNode g source [], ← outline_mergeNode _ target [], addEdge_eq]
  apply Table.map_modify
  intro node
  rfl

theorem outline_addNodes {α : Type} (type : NodeType) (attributes : α → List (String × Json))
    (t : Table String α) (g : Graph) :
    (addNodes type attributes t g).outline =
      (Text.sorted t.keys).foldl (fun o id => o.insertNew id ∅) g.outline := by
  rw [← keys_inOrder, List.foldl_map]
  exact (List.foldl_hom outline fun g e => (outline_mergeNode g e.1 _).symm).symm

theorem nodeIds_of_outline {a b : Graph} (h : a.outline = b.outline) : a.nodeIds = b.nodeIds := by
  have hids : ∀ g : Graph, g.nodeIds = g.outline.keys := fun g => (Table.keys_map _ g.nodes).symm
  rw [hids, hids, h]

theorem edges_of_outline {a b : Graph} (h : a.outline = b.outline) : a.edges = b.edges := by
  have hedges :
      ∀ g : Graph, g.edges = g.outline.entries.flatMap (fun e => edgesFrom e.1 ⟨∅, e.2⟩) := by
    intro g
    simp only [outline, Table.map, List.flatMap_map]
    rfl
  rw [hedges, hedges, h]

theorem relationship?_of_outline {a b : Graph} (h : a.outline = b.outline)
    (source target type : String) :
    a.relationship? source target type = b.relationship? source target type := by
  have hread : ∀ g : Graph, g.relationship? source target type =
      (g.outline.find? source).bind (fun out =>
        (out.find? target).bind (fun byType => byType.find? type)) := by
    intro g
    rw [outline, Table.find?_map, Option.bind_map]
    rfl
  rw [hread, hread, h]

/-- The shape of an exported graph is made of the identifiers and the edges. -/
theorem outline_ofResolved {r s : ResolvedGraph} (hids : r.idsOf = s.idsOf)
    (hlinks : exportLinks r = exportLinks s) (space place : String) :
    (ofResolved space r).outline = (ofResolved place s).outline := by
  have links : ∀ (ls : List Link) (a b : Graph), a.outline = b.outline →
      (ls.foldl Graph.addLink a).outline = (ls.foldl Graph.addLink b).outline := by
    intro ls
    induction ls with
    | nil => exact fun a b h => h
    | cons l ls ih =>
        intro a b h
        apply ih
        simp only [Graph.addLink, outline_addEdge, h]
  have nodes : ∀ type, r.idsOf type = s.idsOf type := congrFun hids
  unfold ofResolved
  rw [hlinks]
  apply links
  simp only [exportNodes, outline_addNodes]
  have hcomponents := nodes .component
  have hmethods := nodes .method
  have hendpoints := nodes .endpoint
  have hcalls := nodes .externalCall
  have htopics := nodes .topic
  have htables := nodes .databaseTable
  simp only [ResolvedGraph.idsOf] at hcomponents hmethods hendpoints hcalls htopics htables
  rw [hcomponents, hmethods, hendpoints, hcalls, htopics, htables]
  rfl

/-! ## What tells a place -/

/-- The names of the attributes that tell where code stands. -/
def placeNames : List String :=
  ["line_start", "line_end", "line", "producer_details", "consumer_details"]

/-- What is written of a node apart from its place. -/
def unplacedEntries (entries : Entries) : Entries :=
  entries.filter (fun e => !placeNames.contains e.1)

theorem comparedNames_unplaced {type : NodeType} {name : String}
    (h : name ∈ type.comparedNames) : name ∉ placeNames := by
  have apart : ∀ type : NodeType, ∀ name ∈ type.comparedNames, name ∉ placeNames := by
    intro type
    cases type <;> decide
  exact apart type name h

theorem lookup_unplacedEntries {name : String} (hname : name ∉ placeNames) (entries : Entries) :
    (unplacedEntries entries).lookup name = entries.lookup name := by
  unfold unplacedEntries
  induction entries with
  | nil => rfl
  | cons e entries ih =>
      by_cases he : name = e.1
      · have hkept : (!placeNames.contains e.1) = true := by simpa [he] using hname
        rw [List.filter_cons, if_pos hkept, List.lookup_cons, List.lookup_cons]
        simp [he]
      · have hb : (name == e.1) = false := by simpa using he
        rw [List.lookup_cons, hb, List.filter_cons]
        split
        · rw [List.lookup_cons, hb, ih]
        · exact ih

theorem attribute_ofList (entries : Entries) (name : String) :
    (Table.ofList entries).attribute name = (entries.reverse.lookup name).getD .null := by
  unfold Table.attribute Table.ofList
  rw [Table.find?_insertAll, Table.find?_empty, Option.or_none]

theorem attribute_unplacedEntries {name : String} (hname : name ∉ placeNames) (entries : Entries) :
    (Table.ofList (unplacedEntries entries)).attribute name =
      (Table.ofList entries).attribute name := by
  have hreverse : (unplacedEntries entries).reverse = unplacedEntries entries.reverse :=
    List.filter_reverse.symm
  rw [attribute_ofList, attribute_ofList, hreverse, lookup_unplacedEntries hname]

theorem attributesOf_of_notMem {g : Graph} {id : String} (h : id ∉ g.nodeIds) :
    g.attributesOf id = ∅ := by
  unfold attributesOf
  rw [Table.find?_eq_none_iff.mpr h]
  rfl

/-- Two graphs that differ only in where code stands. -/
structure SameButPlace (a b : Graph) : Prop where
  outline : a.outline = b.outline
  attributes : ∀ id name, name ∉ placeNames →
    (a.attributesOf id).attribute name = (b.attributesOf id).attribute name

/-- What is resolved of a node apart from its place does not depend on the lines of the project. -/
theorem described?_unplaced (r : ResolvedGraph) (type : NodeType) (id : String) :
    (r.unplaced.described? type id).map unplacedEntries =
      (r.described? type id).map unplacedEntries := by
  cases type with
  | component =>
      simp only [ResolvedGraph.described?, ResolvedGraph.unplaced, Table.find?_map, Option.map_map]
      rfl
  | method =>
      simp only [ResolvedGraph.described?, ResolvedGraph.unplaced, Table.find?_map, Option.map_map]
      rfl
  | endpoint => rfl
  | externalCall =>
      simp only [ResolvedGraph.described?, ResolvedGraph.unplaced, Table.find?_map, Option.map_map]
      rfl
  | topic =>
      simp only [ResolvedGraph.described?, ResolvedGraph.unplaced, Table.find?_map, Option.map_map]
      rfl
  | databaseTable => rfl

theorem idsOf_unplaced (r : ResolvedGraph) : r.unplaced.idsOf = r.idsOf := by
  funext type
  cases type <;> simp only [ResolvedGraph.idsOf, ResolvedGraph.unplaced, Table.keys_map]

theorem linksOf_map {α : Type} {f : α → α} {links : String → α → List Link}
    (h : ∀ id a, links id (f a) = links id a) (t : Table String α) :
    linksOf links (t.map f) = linksOf links t := by
  have horder : inOrder (t.map f) = (inOrder t).map (fun e => (e.1, f e.2)) := by
    unfold inOrder
    rw [Table.keys_map, List.map_filterMap]
    congr 1
    funext k
    rw [Table.find?_map, Option.map_map, Option.map_map]
    rfl
  unfold linksOf
  rw [horder, List.flatMap_map]
  simp only [h]

theorem exportLinks_unplaced (r : ResolvedGraph) : exportLinks r.unplaced = exportLinks r := by
  have hcomponents : linksOf tableLinks r.unplaced.components = linksOf tableLinks r.components :=
    linksOf_map (f := ComponentNode.unplaced) (fun _ _ => rfl) _
  have hmethods : linksOf methodLinks r.unplaced.methods = linksOf methodLinks r.methods :=
    linksOf_map (f := MethodNode.unplaced) (fun _ _ => rfl) _
  have hcalls : linksOf callLinks r.unplaced.externalCalls = linksOf callLinks r.externalCalls :=
    linksOf_map (f := ExternalCallNode.unplaced) (fun _ _ => rfl) _
  unfold exportLinks
  rw [hcomponents, hmethods, hcalls]
  rfl

/-- Projects that differ only in lines are exported to graphs that differ only in where code
stands. -/
theorem sameButPlace_ofResolved {r s : ResolvedGraph} (hr : r.Intact) (hs : s.Intact)
    (h : r.unplaced = s.unplaced) (space place : String) :
    SameButPlace (ofResolved space r) (ofResolved place s) where
  outline := by
    apply outline_ofResolved
    · rw [← idsOf_unplaced, h, idsOf_unplaced]
    · rw [← exportLinks_unplaced, h, exportLinks_unplaced]
  attributes := by
    intro id name hname
    have hdescribed : ∀ type, (r.described? type id).map unplacedEntries =
        (s.described? type id).map unplacedEntries := by
      intro type
      rw [← described?_unplaced, h, described?_unplaced]
    by_cases hid : ∃ type, id ∈ r.idsOf type
    · obtain ⟨type, hid⟩ := hid
      obtain ⟨entries, he⟩ := (r.described?_isSome type id).mpr hid
      have hsame := hdescribed type
      rw [he, Option.map_some] at hsame
      obtain ⟨entries', he', heq⟩ := Option.map_eq_some_iff.mp hsame.symm
      have htyped : ∀ es : Entries, unplacedEntries ((typeName, .str (Coded.code type)) :: es) =
          (typeName, .str (Coded.code type)) :: unplacedEntries es := fun _ => rfl
      rw [attributesOf_ofResolved hr space he, attributesOf_ofResolved hs place he',
        ← attribute_unplacedEntries hname, ← attribute_unplacedEntries hname
          (_ :: entries'), htyped,
        htyped, heq]
    · have hid' : ¬ ∃ type, id ∈ s.idsOf type := by rwa [← idsOf_unplaced, ← h, idsOf_unplaced]
      rw [← mem_nodeIds_ofResolved hr space] at hid
      rw [← mem_nodeIds_ofResolved hs place] at hid'
      rw [attributesOf_of_notMem hid, attributesOf_of_notMem hid']

/-! ## What a diff looks at -/

theorem counted_unplaced {attributes : Attributes} {name : String}
    (h : name ∈ Diff.countedNames attributes) : name ∉ placeNames := by
  unfold Diff.countedNames at h
  split at h
  · rename_i written _
    cases htype : (Coded.ofCode? written : Option NodeType) with
    | none => simp [htype] at h
    | some type => exact comparedNames_unplaced (by simpa [htype] using h)
  · simp at h

/-- Where code stands counts for no node, so the graphs agree in all that is compared. -/
theorem SameButPlace.agree {a b : Graph} (h : SameButPlace a b) (ha : a.Regular) :
    Diff.Agree a b := by
  have htype : ∀ id, a.nodeType id = b.nodeType id := fun id => h.attributes id _ (by decide)
  have hcounted : ∀ id name,
      Diff.counted (a.attributesOf id) name = Diff.counted (b.attributesOf id) name := by
    intro id name
    have hnames :
        Diff.countedNames (a.attributesOf id) = Diff.countedNames (b.attributesOf id) := by
      have hsame :
          (a.attributesOf id).attribute typeName = (b.attributesOf id).attribute typeName :=
        htype id
      unfold Diff.countedNames
      rw [hsame]
    unfold Diff.counted
    rw [← hnames]
    split
    · rename_i hname
      exact h.attributes id name (counted_unplaced hname)
    · rfl
  have hrelated : ∀ t, Diff.related? a t = Diff.related? b t :=
    fun t => relationship?_of_outline h.outline _ _ _
  constructor
  · intro id
    rw [nodeIds_of_outline h.outline]
  · intro id _
    rw [← htype]
    exact ha.nodes id _
  · intro id _ name
    rw [← hcounted]
    unfold Diff.counted
    split
    · exact ha.nodes id name
    · exact Json.regular_null
  · intro t
    rw [hrelated]
  · intro t old new hold hnew name
    rw [← hrelated, hold] at hnew
    rw [← Option.some.inj hnew]
    exact ha.edges hold name

end Graph

namespace Cycle

/-- The attributes of a method that the search for cycles looks at. -/
def seen (attributes : Attributes) : Attributes :=
  ⟨["qualified_class", "class_name", "name"].map (fun name => (name, attributes.attribute name))⟩

def Crossing.seen (c : Crossing) : Crossing :=
  { c with
    sourceAttributes := Cycle.seen c.sourceAttributes
    targetAttributes := Cycle.seen c.targetAttributes }

theorem crossing?_seen (call : Attributes × Attributes) :
    crossing? (seen call.1, seen call.2) = (crossing? call).map (·.seen) := by
  have howner : ∀ attributes, owner (seen attributes) = owner attributes := fun _ => rfl
  unfold crossing?
  simp only [howner]
  split
  · split <;> rfl
  · rfl

/-- The cycles between components, by the calls between components. -/
def ofCrossings (cs : List Crossing) (limit : Int) : Except (List Fault) (List Cycle) :=
  (Adjacency.cycles (componentAdjacency cs) [] limit).mapM (fun nodes => do
    let edges ← (hops nodes).mapM (fun h =>
      let methods := exampleCall cs h.1 h.2
      edgeOf ((shownNames cs).attribute h.1) ((shownNames cs).attribute h.2) methods.1 methods.2)
    return ⟨.component, nodes, edges, .error, false, Adjacency.signature nodes⟩)

theorem ofCrossings_seen (cs : List Crossing) (limit : Int) :
    ofCrossings (cs.map (·.seen)) limit = ofCrossings cs limit := by
  have hadjacency : componentAdjacency (cs.map (·.seen)) = componentAdjacency cs := by
    unfold componentAdjacency
    rw [List.foldl_map]
    rfl
  have hshown : shownNames (cs.map (·.seen)) = shownNames cs := by
    unfold shownNames
    rw [List.foldl_map]
    rfl
  have hcall : exampleCall (cs.map (·.seen)) = exampleCall cs := by
    funext source target
    unfold exampleCall
    rw [List.find?_map, Option.map_map]
    rfl
  unfold ofCrossings
  rw [hadjacency, hshown, hcall]

/-- Graphs with the same calls, and of every method the same names, have the same cycles. -/
theorem detect_congr {a b : Graph} (hcalls : a.callEdges = b.callEdges)
    (hseen : ∀ id, seen (a.attributesOf id) = seen (b.attributesOf id)) (limit : Int) :
    detect a limit = detect b limit := by
  have hcrossings : ∀ g : Graph, (crossings g).map (·.seen) =
      ((g.callEdges.mergeSort edgeLE).map
        (fun e => (seen (g.attributesOf e.1), seen (g.attributesOf e.2)))).filterMap crossing? := by
    intro g
    unfold crossings sortedCalls
    rw [List.filterMap_map, List.map_filterMap, List.filterMap_map]
    congr 1
    funext e
    exact (crossing?_seen _).symm
  have hcomponents : ofComponents a limit = ofComponents b limit := by
    change ofCrossings (crossings a) limit = ofCrossings (crossings b) limit
    rw [← ofCrossings_seen, ← ofCrossings_seen (crossings b), hcrossings, hcrossings, hcalls]
    simp only [hseen]
  have hinfo : ∀ id, methodInfo (a.attributesOf id) = methodInfo (b.attributesOf id) := by
    intro id
    have hread : ∀ attributes, methodInfo attributes = methodInfo (seen attributes) := fun _ => rfl
    rw [hread, hseen, ← hread]
  have hmethods : ofMethods a limit = ofMethods b limit := by
    unfold ofMethods methodCalls
    simp only [hcalls, hinfo]
  unfold detect
  rw [hcomponents, hmethods]

end Cycle

/-! ## Exported graphs can be shown -/

theorem Diff.shownName_text {attributes : Attributes}
    (h : ∀ name ∈ ["name", "path", "url"], ∃ text?, attributes.attribute name = .ofText? text?) :
    ∃ name?, shownName attributes = .ofText? name? := by
  unfold shownName
  split
  · exact h "name" (by simp)
  · split
    · exact h "path" (by simp)
    · exact h "url" (by simp)

namespace Graph

variable {r : ResolvedGraph}

theorem showable_ofResolved (h : r.Intact) (space id : String) :
    Diff.Showable ((ofResolved space r).attributesOf id) := by
  by_cases hid : ∃ type, id ∈ r.idsOf type
  · obtain ⟨type, hid⟩ := hid
    obtain ⟨entries, hd⟩ := (r.described?_isSome type id).mpr hid
    rw [attributesOf_ofResolved h space hd]
    refine ⟨?_, Diff.shownName_text ?_⟩
    · cases type <;> obtain ⟨_, _, rfl⟩ := Option.map_eq_some_iff.mp hd <;> exact ⟨_, rfl⟩
    · simp only [List.forall_mem_cons, List.not_mem_nil, false_imp_iff, implies_true, and_true,
        attribute_ofList]
      cases type with
      | component =>
          obtain ⟨c, _, rfl⟩ := Option.map_eq_some_iff.mp hd
          exact ⟨⟨some c.name, rfl⟩, ⟨none, rfl⟩, ⟨none, rfl⟩⟩
      | method =>
          obtain ⟨m, _, rfl⟩ := Option.map_eq_some_iff.mp hd
          exact ⟨⟨some m.methodName, rfl⟩, ⟨none, rfl⟩, ⟨none, rfl⟩⟩
      | endpoint =>
          obtain ⟨e, _, rfl⟩ := Option.map_eq_some_iff.mp hd
          exact ⟨⟨none, rfl⟩, ⟨some e.path, rfl⟩, ⟨none, rfl⟩⟩
      | externalCall =>
          obtain ⟨c, _, rfl⟩ := Option.map_eq_some_iff.mp hd
          exact ⟨⟨none, rfl⟩, ⟨none, rfl⟩, ⟨c.url, rfl⟩⟩
      | topic =>
          obtain ⟨t, _, rfl⟩ := Option.map_eq_some_iff.mp hd
          exact ⟨⟨some t.name, rfl⟩, ⟨none, rfl⟩, ⟨none, rfl⟩⟩
      | databaseTable =>
          obtain ⟨t, _, rfl⟩ := Option.map_eq_some_iff.mp hd
          exact ⟨⟨some t.name, rfl⟩, ⟨none, rfl⟩, ⟨none, rfl⟩⟩
  · rw [← mem_nodeIds_ofResolved h space] at hid
    rw [attributesOf_of_notMem hid]
    exact ⟨⟨"unknown", rfl⟩, none, rfl⟩

/-- Calls lead from methods to methods, and a method has the names that a cycle is shown by. -/
theorem callsShowable_ofResolved (h : r.Intact) (space : String) :
    Cycle.CallsShowable (ofResolved space r) := by
  have hmethod : ∀ id ∈ r.methods.keys, Cycle.Showable ((ofResolved space r).attributesOf id) := by
    intro id hid
    obtain ⟨m, hm⟩ := Table.mem_keys_iff.mp hid
    have hd : r.described? .method id = some (methodAttributes m) := by
      simp [ResolvedGraph.described?, hm]
    have hclass :
        ((ofResolved space r).attributesOf id).attribute "class_name" = .str m.className := by
      rw [attributesOf_ofResolved h space hd]
      rfl
    have hqualified : ((ofResolved space r).attributesOf id).attribute "qualified_class" =
        .str m.qualifiedClass := by
      rw [attributesOf_ofResolved h space hd]
      rfl
    constructor
    · unfold Cycle.shownClass Cycle.owner
      simp only [hclass, hqualified]
      split
      · exact ⟨_, rfl⟩
      · split <;> exact ⟨_, rfl⟩
    · refine ⟨some m.methodName, ?_⟩
      rw [attributesOf_ofResolved h space hd]
      rfl
  intro e he
  have hrelated := (mem_callEdges_iff (wellFormed_ofResolved space r)).mp he
  obtain ⟨m, hm, htarget⟩ := (relationship?_ofResolved space r .calls e.1 e.2).mp hrelated
  exact ⟨hmethod _ (Table.mem_keys_of_find? hm), hmethod _ ((h.methods e.1 m hm).calls _ htarget)⟩

theorem SameButPlace.detect_eq {a b : Graph} (h : SameButPlace a b) (limit : Int) :
    Cycle.detect a limit = Cycle.detect b limit := by
  apply Cycle.detect_congr
  · unfold callEdges edgesOfType
    rw [edges_of_outline h.outline]
  · intro id
    have hnames : ∀ name ∈ ["qualified_class", "class_name", "name"],
        (a.attributesOf id).attribute name = (b.attributesOf id).attribute name := by
      intro name hname
      apply h.attributes id name
      revert name
      decide
    unfold Cycle.seen
    congr 1
    apply List.map_congr_left
    intro name hname
    rw [hnames name hname]

end Graph

namespace FactSet

/-- **Moving code is no change.** For facts that differ only in lines the diff of the two analyses
can be made and lists nothing, no cycle of it is new, and both analyses have the same cycles. -/
theorem moved_code_unchanged (facts moved : FactSet) (h : facts.unplaced = moved.unplaced)
    (threshold limit : Int) (space place : String) :
    ∃ d cycles, (facts.analyze threshold space).diff (moved.analyze threshold place) limit = .ok d ∧
      Diff.Unchanged d ∧ d.newCycles = [] ∧
      Cycle.detect (facts.analyze threshold space) limit = .ok cycles ∧
      Cycle.detect (moved.analyze threshold place) limit = .ok cycles := by
  have hfacts := ResolvedGraph.intact_resolveBound threshold facts.ensureBound
  have hmoved := ResolvedGraph.intact_resolveBound threshold moved.ensureBound
  have hresolved : (facts.ensureBound.resolveBound threshold).unplaced =
      (moved.ensureBound.resolveBound threshold).unplaced := by
    rw [unplaced_resolveBound, unplaced_ensureBound, h, ← unplaced_ensureBound,
      ← unplaced_resolveBound]
  have hsame : Graph.SameButPlace (facts.analyze threshold space) (moved.analyze threshold place) :=
    Graph.sameButPlace_ofResolved hfacts hmoved hresolved space place
  have hcalls : Cycle.CallsShowable (facts.analyze threshold space) :=
    Graph.callsShowable_ofResolved hfacts space
  obtain ⟨cycles, hcycles⟩ := Cycle.detect_ok hcalls limit
  obtain ⟨d, hd⟩ : ∃ d, (facts.analyze threshold space).diff (moved.analyze threshold place) limit =
      .ok d :=
    Diff.diff_ok (Graph.showable_ofResolved hfacts space) (Graph.showable_ofResolved hmoved place)
      hcalls (Graph.callsShowable_ofResolved hmoved place) limit
  have hwell := Graph.wellFormed_ofResolved space (facts.ensureBound.resolveBound threshold)
  have hwell' := Graph.wellFormed_ofResolved place (moved.ensureBound.resolveBound threshold)
  have hagree := hsame.agree (Graph.regular_ofResolved space _)
  have hunchanged : Diff.Unchanged d := (Diff.unchanged_iff (Diff.nodesExact_of_ok hwell hwell' hd)
    (Diff.relationshipsExact_of_ok hwell hwell' hd)).mpr hagree
  have hcycles' : Cycle.detect (moved.analyze threshold place) limit = .ok cycles := by
    rw [← hsame.detect_eq]
    exact hcycles
  refine ⟨d, cycles, hd, hunchanged, ?_, hcycles, hcycles'⟩
  obtain ⟨known, found, hknown, hfound, heq⟩ := Cycle.compare_eq_ok.mp (Diff.compare_of_ok hd)
  rw [hcycles] at hknown
  rw [hcycles'] at hfound
  unfold GraphDiff.newCycles
  rw [heq, ← Except.ok.inj hknown, ← Except.ok.inj hfound]
  exact Cycle.markNew_self cycles

/-- Two services that call each other, one of which also calls out and sends to a topic, with all
their code `shift` lines further down. -/
def ordersAndStock (shift : Int) : FactSet where
  projectId := "shop"
  components := [
    { name := "Orders"
      qualifiedName := "shop.Orders"
      package := "shop"
      kind := .businessService
      interfaces := []
      dependencies := ∅
      methods := [
        { name := "place"
          signature := none
          parameterTypes := []
          returnType := none
          lineStart := some (12 + shift)
          lineEnd := some (20 + shift)
          verb := none
          path := none
          invocations := [⟨"take", some "Stock", some "shop.Stock", none, false, some (14 + shift)⟩]
          outboundCalls := [⟨"http", some "POST", some "/payments", some (15 + shift)⟩]
          topicCalls := [⟨"orders", .produce, none, some (16 + shift)⟩] }]
      basePath := none
      tableAccess := none
      lineStart := some (10 + shift)
      lineEnd := some (22 + shift) },
    { name := "Stock"
      qualifiedName := "shop.Stock"
      package := "shop"
      kind := .businessService
      interfaces := []
      dependencies := ∅
      methods := [
        { name := "take"
          signature := none
          parameterTypes := []
          returnType := none
          lineStart := some (32 + shift)
          lineEnd := some (35 + shift)
          verb := none
          path := none
          invocations :=
            [⟨"place", some "Orders", some "shop.Orders", none, false, some (33 + shift)⟩]
          outboundCalls := []
          topicCalls := [⟨"orders", .consume, some "stock", some (34 + shift)⟩] }]
      basePath := none
      tableAccess := none
      lineStart := some (30 + shift)
      lineEnd := some (36 + shift) }]
  interfaceMap := ∅
  bound := false

theorem moved_code_unchanged_ordersAndStock :
    ordersAndStock 0 ≠ ordersAndStock 7 ∧
    (ordersAndStock 0).unplaced = (ordersAndStock 7).unplaced ∧
    ∃ d cycles,
      ((ordersAndStock 0).analyze 80 "before").diff
        ((ordersAndStock 7).analyze 80 "after") 100 = .ok d ∧
      Diff.Unchanged d ∧ d.newCycles = [] ∧
      Cycle.detect ((ordersAndStock 0).analyze 80 "before") 100 = .ok cycles ∧
      Cycle.detect ((ordersAndStock 7).analyze 80 "after") 100 = .ok cycles :=
  ⟨by decide, rfl,
    moved_code_unchanged (ordersAndStock 0) (ordersAndStock 7) rfl 80 100 "before" "after"⟩

end FactSet

end ArchGraph
