import ArchGraph.Graph.Stats
import ArchGraph.Graph.Topics
import ArchGraph.Proofs.DiffExactness
import ArchGraph.Proofs.Regularity
import ArchGraph.Store

/-!
A graph comes back from its document as it was. A document lists the nodes, and then the edges by
source, by target and by type, whatever order they were added in; adding them again in that order
fills every table anew, one key after the other (`Storable.read_nodes`, `Storable.read_edges`). So
nothing that is asked of the graph is answered otherwise afterwards (`stored_graph_comes_back`).
-/

namespace ArchGraph

theorem Json.get?_obj (entries : List (String × Json)) (name : String) :
    (Json.obj entries).get? name = entries.lookup name := rfl

/-! ## What can be stored -/

/-- Attributes under different names, and none of them one of `names`. -/
structure FreeOf (names : List String) (attributes : Attributes) : Prop where
  once : attributes.Distinct
  unnamed : ∀ name ∈ names, name ∉ attributes.keys

namespace FreeOf

variable {names : List String} {attributes : Attributes}

theorem empty (names : List String) : FreeOf names ∅ := ⟨List.nodup_nil, by simp⟩

theorem insertAll (h : FreeOf names attributes) {entries : List (String × Json)}
    (hnew : ∀ e ∈ entries, e.1 ∉ names) : FreeOf names (attributes.insertAll entries) := by
  induction entries generalizing attributes with
  | nil => exact h
  | cons e entries ih =>
      obtain ⟨he, hrest⟩ := List.forall_mem_cons.mp hnew
      have hfirst : FreeOf names (attributes.insert e.1 e.2) := by
        refine ⟨Table.distinct_insert h.once _ _, fun name hname hin => ?_⟩
        rw [Table.keys_insert, mem_addNew] at hin
        rcases hin with hin | rfl
        · exact h.unnamed name hname hin
        · exact he hname
      exact ih hfirst hrest

variable {pairs : List (String × Json)}

/-- What is written under the names comes after the attributes. -/
theorem entries_insertAll (h : FreeOf names attributes) (hnames : names.Nodup)
    (hpairs : pairs.map (·.1) = names) :
    (attributes.insertAll pairs).entries = attributes.entries ++ pairs := by
  rw [Table.insertAll_new]
  rw [hpairs, List.nodup_append]
  refine ⟨h.once, hnames, ?_⟩
  rintro name hin _ hname rfl
  exact h.unnamed name hname hin

theorem lookup_append (h : FreeOf names attributes) {name : String} (hname : name ∈ names) :
    (attributes.entries ++ pairs).lookup name = pairs.lookup name := by
  have hnone : attributes.entries.lookup name = none :=
    Table.find?_eq_none_iff.mpr (h.unnamed name hname)
  rw [List.lookup_append, hnone, Option.none_or]

/-- Without what is under the names the attributes are left. -/
theorem filter_append (h : FreeOf names attributes) (hpairs : pairs.map (·.1) = names) :
    (attributes.entries ++ pairs).filter (·.1 ∉ names) = attributes.entries := by
  have hkept : ∀ e ∈ attributes.entries, decide (e.1 ∉ names) = true := fun e he =>
    decide_eq_true fun hname => h.unnamed e.1 hname (List.mem_map_of_mem he)
  have hdropped : ∀ e ∈ pairs, ¬ decide (e.1 ∉ names) = true := by
    intro e he hkeep
    exact of_decide_eq_true hkeep (hpairs ▸ List.mem_map_of_mem he)
  rw [List.filter_append, List.filter_eq_self.mpr hkept, List.filter_eq_nil_iff.mpr hdropped,
    List.append_nil]

/-- Attributes that are inserted one by one are the attributes. -/
theorem ofList_entries (h : FreeOf names attributes) :
    (∅ : Attributes).insertAll attributes.entries = attributes :=
  Table.ofList_eq h.once

end FreeOf

/-- The name in a node document that is no attribute. -/
def nodeNames : List String := ["id"]

/-- A node that its document and those of its edges tell apart: no attribute takes the place of what
identifies it, and there is no target without an edge. -/
structure GraphNode.Storable (node : GraphNode) : Prop where
  attributes : FreeOf nodeNames node.attributes
  links : node.out.All (fun _ byType => byType.entries ≠ [] ∧
    byType.All (fun _ attributes => FreeOf Graph.edgeNames attributes))

namespace Graph

structure Storable (g : Graph) : Prop where
  wellFormed : g.WellFormed
  nodes : g.nodes.All (fun _ node => node.Storable)

variable {g : Graph}

theorem storable_empty (space : String) (attributes : Attributes) :
    (Graph.mk space attributes ∅).Storable :=
  ⟨wellFormed_empty space attributes, Table.All.empty⟩

theorem Storable.mergeNode (h : g.Storable) (id : String) {attributes : List (String × Json)}
    (hnew : ∀ e ∈ attributes, e.1 ∉ nodeNames) : (g.mergeNode id attributes).Storable := by
  refine ⟨wellFormed_mergeNode h.wellFormed id attributes, h.nodes.upsert ?_⟩
  cases hid : g.nodes.find? id with
  | none => exact ⟨(FreeOf.empty _).insertAll hnew, Table.All.empty⟩
  | some node =>
      have hnode := h.nodes id node hid
      exact ⟨hnode.attributes.insertAll hnew, hnode.links⟩

theorem Storable.addNode (h : g.Storable) (id type : String) {attributes : List (String × Json)}
    (hnew : ∀ e ∈ attributes, e.1 ∉ nodeNames) : (g.addNode id type attributes).Storable :=
  h.mergeNode id (List.forall_mem_cons.mpr ⟨by simp [typeName, nodeNames], hnew⟩)

theorem related_storable {node : GraphNode} (h : node.Storable) (target type : String)
    {attributes : List (String × Json)} (hnew : ∀ e ∈ attributes, e.1 ∉ edgeNames) :
    (related target type attributes node).Storable := by
  refine ⟨h.attributes, h.links.upsert ⟨Table.entries_upsert_ne_nil _ _ _, ?_⟩⟩
  have hknown : ((node.out.find? target).getD ∅).All
      (fun _ attributes => FreeOf edgeNames attributes) := by
    cases hfind : node.out.find? target with
    | none => exact Table.All.empty
    | some byType => exact (h.links target byType hfind).2
  apply hknown.upsert
  cases hfind : ((node.out.find? target).getD ∅).find? type with
  | none => exact (FreeOf.empty _).insertAll hnew
  | some known => exact (hknown type known hfind).insertAll hnew

theorem Storable.addEdge (h : g.Storable) (source target type : String)
    {attributes : List (String × Json)} (hnew : ∀ e ∈ attributes, e.1 ∉ edgeNames) :
    (g.addEdge source target type attributes).Storable := by
  have hends : ((g.mergeNode source []).mergeNode target []).Storable :=
    (h.mergeNode source (by simp)).mergeNode target (by simp)
  refine ⟨wellFormed_addEdge h.wellFormed source target type attributes, ?_⟩
  exact hends.nodes.modify fun node hnode => related_storable hnode target type hnew

/-! ## Reading the nodes -/

theorem readNode_nodeJson {attributes : Attributes} (h : FreeOf nodeNames attributes) (g : Graph)
    (id : String) : readNode g (nodeJson id attributes) = g.mergeNode id attributes.entries := by
  have hpairs : [("id", Json.str id)].map (·.1) = nodeNames := rfl
  have hentries : (attributes.insert "id" (.str id)).entries =
      attributes.entries ++ [("id", .str id)] := h.entries_insertAll (by decide) hpairs
  have hid : (nodeJson id attributes).get? "id" = some (.str id) := by
    rw [nodeJson, Json.get?_obj, hentries, h.lookup_append (by decide)]
    rfl
  have hrest : (entriesOf (nodeJson id attributes)).filter (·.1 ≠ "id") = attributes.entries := by
    have hsame :
        (fun e : String × Json => decide (e.1 ≠ "id")) = fun e => decide (e.1 ∉ nodeNames) := by
      funext e
      simp [nodeNames]
    rw [hsame, ← h.filter_append hpairs, ← hentries]
    rfl
  unfold readNode
  rw [hid, hrest]
  rfl

/-- The node without its relationships. -/
def bare (node : GraphNode) : GraphNode := { node with out := ∅ }

/-- Reading the nodes gives all of them, without relationships yet. -/
theorem Storable.read_nodes (h : g.Storable) (space : String) (attributes : Attributes) :
    (g.nodes.entries.map (fun e => nodeJson e.1 e.2.attributes)).foldl readNode
        ⟨space, attributes, ∅⟩ =
      ⟨space, attributes, g.nodes.map bare⟩ := by
  have hnode : ∀ e ∈ g.nodes.entries, FreeOf nodeNames e.2.attributes := fun e he =>
    (h.nodes e.1 e.2 (Table.find?_of_mem h.wellFormed.nodes he)).attributes
  let step (e : String × GraphNode) (known : Option GraphNode) : GraphNode :=
    let node := known.getD ⟨∅, ∅⟩
    { node with attributes := node.attributes.insertAll e.2.attributes.entries }
  let merge (r : Graph) (e : String × GraphNode) : Graph :=
    { r with nodes := r.nodes.upsert e.1 (step e) }
  have hmerge : ∀ r : Graph, ∀ e ∈ g.nodes.entries,
      readNode r (nodeJson e.1 e.2.attributes) = merge r e :=
    fun r e he => readNode_nodeJson (hnode e he) r e.1
  have hgraph : g.nodes.entries.foldl merge ⟨space, attributes, ∅⟩ =
      ⟨space, attributes, g.nodes.entries.foldl (fun t e => t.upsert e.1 (step e)) ∅⟩ :=
    List.foldl_hom (Graph.mk space attributes) (fun _ _ => rfl)
  rw [List.foldl_map, List.foldl_ext _ _ _ hmerge, hgraph,
    Table.foldl_upsert_new (fun e : String × GraphNode => e.1) step g.nodes.entries ∅
      h.wellFormed.nodes]
  congr 2
  apply List.map_congr_left
  intro e he
  have hfilled : step e none = bare e.2 := by
    simp only [step, bare, Option.getD_none, (hnode e he).ofList_entries]
  rw [hfilled]

/-! ## Reading the edges -/

/-- Add an edge as it is listed. -/
def addListed (g : Graph) (e : Edge) : Graph :=
  g.addEdge e.source e.target e.type e.attributes.entries

theorem readEdge_edgeJson {e : Edge} (h : FreeOf edgeNames e.attributes) (g : Graph) :
    readEdge g (edgeJson e) = .ok (g.addListed e) := by
  let pairs := [("source", Json.str e.source), ("target", .str e.target), ("key", .str e.type)]
  have hpairs : pairs.map (·.1) = edgeNames := rfl
  have hentries : (e.attributes.insertAll pairs).entries = e.attributes.entries ++ pairs :=
    h.entries_insertAll (by decide) hpairs
  have hget : ∀ name ∈ edgeNames, (edgeJson e).get? name = pairs.lookup name := by
    intro name hname
    rw [edgeJson, Json.get?_obj, hentries, h.lookup_append hname]
  have hrest : (entriesOf (edgeJson e)).filter (·.1 ∉ edgeNames) = e.attributes.entries := by
    rw [← h.filter_append hpairs, ← hentries]
    rfl
  have hsource : part (edgeJson e) "source" = .ok (.str e.source) := by
    rw [part, hget "source" (by decide)]
    rfl
  have htarget : part (edgeJson e) "target" = .ok (.str e.target) := by
    rw [part, hget "target" (by decide)]
    rfl
  have hkey : (edgeJson e).get? "key" = some (.str e.type) := hget "key" (by decide)
  unfold readEdge
  rw [hsource, htarget, hkey, hrest]
  rfl

theorem mergeNode_known {id : String} (h : id ∈ g.nodeIds) : g.mergeNode id [] = g := by
  obtain ⟨node, hnode⟩ := Table.mem_keys_iff.mp h
  unfold mergeNode
  rw [Table.upsert_of_find? hnode]
  rfl

/-- An edge between nodes that are there changes its source alone. -/
theorem addListed_known {e : Edge} (hsource : e.source ∈ g.nodeIds)
    (htarget : e.target ∈ g.nodeIds) :
    g.addListed e = { g with
      nodes := g.nodes.modify e.source (related e.target e.type e.attributes.entries) } := by
  rw [addListed, addEdge_eq, mergeNode_known hsource, mergeNode_known htarget]

theorem foldl_addListed {es : List Edge}
    (h : ∀ e ∈ es, e.source ∈ g.nodeIds ∧ e.target ∈ g.nodeIds) :
    es.foldl addListed g = { g with
      nodes :=
        es.foldl (fun t e => t.modify e.source (related e.target e.type e.attributes.entries))
        g.nodes } := by
  induction es generalizing g with
  | nil => rfl
  | cons e es ih =>
      obtain ⟨he, hes⟩ := List.forall_mem_cons.mp h
      rw [List.foldl_cons, addListed_known he.1 he.2, ih]
      · rfl
      · unfold nodeIds at hes ⊢
        rwa [Table.keys_modify]

/-- The relationships to a target with one more, or with more attributes of one. -/
def typed (byType : Table String Attributes) (e : String × Attributes) : Table String Attributes :=
  byType.upsert e.1 (fun known => (known.getD ∅).insertAll e.2.entries)

theorem refill_types {byType : Table String Attributes} (hdistinct : byType.Distinct)
    (h : byType.All (fun _ attributes => FreeOf edgeNames attributes)) :
    byType.entries.foldl typed ∅ = byType := by
  unfold typed
  rw [Table.foldl_upsert_new (fun e : String × Attributes => e.1) _ byType.entries ∅ hdistinct]
  have hsame : ∀ e ∈ byType.entries,
      (e.1, ((none : Option Attributes).getD ∅).insertAll e.2.entries) = e := by
    intro e he
    have hfree := h e.1 e.2 (Table.find?_of_mem hdistinct he)
    rw [Option.getD_none, hfree.ofList_entries]
  rw [List.map_congr_left hsame, List.map_id']
  rfl

/-- The edges to one target, of which there is one at least, come together. -/
theorem refill_target {byType : Table String Attributes} (hsome : byType.entries ≠ [])
    (target : String) (out : Table String (Table String Attributes)) :
    byType.entries.foldl
      (fun out e => out.upsert target (fun known => typed (known.getD ∅) e)) out =
      out.upsert target (fun known => byType.entries.foldl typed (known.getD ∅)) := by
  cases hentries : byType.entries with
  | nil => exact absurd hentries hsome
  | cons e rest =>
      rw [List.foldl_cons, Table.foldl_upsert_same]
      rfl

/-- Adding the edges of a node in the order in which they are listed gives the node. -/
theorem refill_node {node : GraphNode} {ids : List String} (h : node.Storable)
    (hwell : node.WellFormed ids) (source : String) :
    (edgesFrom source node).foldl
      (fun n e => related e.target e.type e.attributes.entries n) (bare node) = node := by
  let step (out : Table String (Table String Attributes)) (e : Edge) :=
    out.upsert e.target (fun known => typed (known.getD ∅) (e.type, e.attributes))
  have hlinks : ∀ e ∈ node.out.entries, e.2.entries ≠ [] ∧
      e.2.All (fun _ attributes => FreeOf edgeNames attributes) := fun e he =>
    h.links e.1 e.2 (Table.find?_of_mem hwell.targets he)
  have hout : (edgesFrom source node).foldl step ∅ = node.out := by
    have htarget : ∀ out, ∀ e ∈ node.out.entries,
        (e.2.entries.map (fun t => (⟨source, e.1, t.1, t.2⟩ : Edge))).foldl step out =
          out.upsert e.1 (fun known => e.2.entries.foldl typed (known.getD ∅)) := by
      intro out e he
      rw [List.foldl_map]
      exact refill_target (hlinks e he).1 e.1 out
    rw [edgesFrom, List.foldl_flatMap, List.foldl_ext _ _ _ htarget,
      Table.foldl_upsert_new (fun e : String × Table String Attributes => e.1) _ node.out.entries ∅
        hwell.targets]
    have hsame : ∀ e ∈ node.out.entries,
        (e.1, e.2.entries.foldl typed ((none : Option (Table String Attributes)).getD ∅)) = e := by
      intro e he
      have hdistinct := hwell.types e.1 e.2 (Table.find?_of_mem hwell.targets he)
      rw [Option.getD_none, refill_types hdistinct (hlinks e he).2]
    rw [List.map_congr_left hsame, List.map_id']
    rfl
  have hnode : (edgesFrom source node).foldl
      (fun n e => related e.target e.type e.attributes.entries n) ⟨node.attributes, ∅⟩ =
      ⟨node.attributes, (edgesFrom source node).foldl step ∅⟩ :=
    List.foldl_hom (GraphNode.mk node.attributes) (fun _ _ => rfl)
  rw [bare, hnode, hout]

theorem Storable.free_of_edge (h : g.Storable) {e : Edge} (he : e ∈ g.edges) :
    FreeOf edgeNames e.attributes := by
  have hr := (mem_edges h.wellFormed).mp he
  unfold relationship? at hr
  obtain ⟨node, hnode, hr⟩ := Option.bind_eq_some_iff.mp hr
  obtain ⟨byType, hout, hr⟩ := Option.bind_eq_some_iff.mp hr
  exact ((h.nodes _ node hnode).links _ byType hout).2 _ _ hr

/-- Reading the edges gives every node its relationships back. -/
theorem Storable.read_edges (h : g.Storable) (space : String) (attributes : Attributes) :
    g.edges.foldl addListed ⟨space, attributes, g.nodes.map bare⟩ =
      ⟨space, attributes, g.nodes⟩ := by
  let change (t : Table String GraphNode) (e : Edge) :=
    t.modify e.source (related e.target e.type e.attributes.entries)
  have hends : ∀ e ∈ g.edges, e.source ∈ (Graph.mk space attributes (g.nodes.map bare)).nodeIds ∧
      e.target ∈ (Graph.mk space attributes (g.nodes.map bare)).nodeIds := by
    intro e he
    unfold nodeIds
    rw [Table.keys_map]
    have hrelated : (g.relationship? e.source e.target e.type).isSome = true := by
      rw [(mem_edges h.wellFormed).mp he]
      rfl
    exact h.wellFormed.ends_mem hrelated
  have hsource : ∀ t, ∀ e ∈ g.nodes.entries, (edgesFrom e.1 e.2).foldl change t =
      t.modify e.1 (fun n => (edgesFrom e.1 e.2).foldl
        (fun n e => related e.target e.type e.attributes.entries n) n) := by
    intro t e _
    have hfrom : ∀ edge ∈ edgesFrom e.1 e.2, edge.source = e.1 := by
      intro edge hedge
      obtain ⟨_, _, hedge⟩ := List.mem_flatMap.mp hedge
      obtain ⟨_, _, rfl⟩ := List.mem_map.mp hedge
      rfl
    exact Table.foldl_modify_same _ hfrom t
  have hnodes : g.edges.foldl change (g.nodes.map bare) = g.nodes := by
    rw [edges, List.foldl_flatMap, List.foldl_ext _ _ _ hsource, Table.map,
      Table.foldl_modify_each (fun e n => (edgesFrom e.1 e.2).foldl
        (fun n e => related e.target e.type e.attributes.entries n) n) bare h.wellFormed.nodes]
    have hsame : ∀ e ∈ g.nodes.entries, (e.1, (edgesFrom e.1 e.2).foldl
        (fun n e => related e.target e.type e.attributes.entries n) (bare e.2)) = e := by
      intro e he
      have hfind := Table.find?_of_mem h.wellFormed.nodes he
      rw [refill_node (h.nodes e.1 e.2 hfind) (h.wellFormed.node e.1 e.2 hfind)]
    rw [List.map_congr_left hsame, List.map_id']
  rw [foldl_addListed hends]
  exact congrArg (Graph.mk space attributes) hnodes

/-- Reading what was written gives the graph, under the name of the space it is read for. -/
theorem Storable.ofJson_toJson (h : g.Storable) (space : String) :
    ofJson space g.toJson = .ok { g with space := space } := by
  have hedges : ∀ r : Graph, (g.edges.map edgeJson).foldlM readEdge r =
      .ok (g.edges.foldl addListed r) := by
    intro r
    rw [List.foldlM_map]
    exact foldlM_ok (fun r e he => readEdge_edgeJson (h.free_of_edge he) r) r
  have hread : ofJson space g.toJson = (g.edges.map edgeJson).foldlM readEdge
      ((g.nodes.entries.map (fun e => nodeJson e.1 e.2.attributes)).foldl readNode
        ⟨space, g.attributes, ∅⟩) := rfl
  rw [hread, hedges, h.read_nodes, h.read_edges]

/-! ## Graphs that are built -/

/-- One thing to be added to a graph. -/
inductive Addition where
  | node (id type : String) (attributes : List (String × Json))
  | edge (source target type : String) (attributes : List (String × Json))

namespace Addition

def attributes : Addition → List (String × Json)
  | node _ _ attributes => attributes
  | edge _ _ _ attributes => attributes

/-- The names that its document has for something else. -/
def takenNames : Addition → List String
  | node .. => nodeNames
  | edge .. => edgeNames

/-- No attribute has a name that is taken. -/
def Storable (a : Addition) : Prop := ∀ e ∈ a.attributes, e.1 ∉ a.takenNames

/-- The attributes are values that a JSON text can hold. -/
def WellFormed (a : Addition) : Prop := ∀ e ∈ a.attributes, e.2.WellFormed

end Addition

def add (g : Graph) : Addition → Graph
  | .node id type attributes => g.addNode id type attributes
  | .edge source target type attributes => g.addEdge source target type attributes

/-- The graph that comes of adding one thing after the other. -/
def built (space : String) (attributes : Attributes) (additions : List Addition) : Graph :=
  additions.foldl add ⟨space, attributes, ∅⟩

theorem built_induction {P : Graph → Prop} {space : String} {attributes : Attributes}
    {additions : List Addition} (start : P ⟨space, attributes, ∅⟩)
    (step : ∀ g, P g → ∀ a ∈ additions, P (g.add a)) : P (built space attributes additions) := by
  have run : ∀ (as : List Addition) (g : Graph), (∀ a ∈ as, a ∈ additions) → P g →
      P (as.foldl add g) := by
    intro as
    induction as with
    | nil => exact fun g _ hg => hg
    | cons a as ih =>
        intro g hsub hg
        obtain ⟨ha, has⟩ := List.forall_mem_cons.mp hsub
        exact ih (g.add a) has (step g hg a ha)
  exact run additions _ (fun _ ha => ha) start

theorem storable_built (space : String) (attributes : Attributes) {additions : List Addition}
    (h : ∀ a ∈ additions, a.Storable) : (built space attributes additions).Storable := by
  apply built_induction (storable_empty space attributes)
  intro g hg a ha
  cases a with
  | node id type attributes => exact hg.addNode id type (h _ ha)
  | edge source target type attributes => exact hg.addEdge source target type (h _ ha)

theorem regular_built (space : String) (attributes : Attributes) {additions : List Addition}
    (h : ∀ a ∈ additions, a.WellFormed) : (built space attributes additions).Regular := by
  apply built_induction (regular_empty space attributes)
  intro g hg a ha
  have hnew : ∀ e ∈ a.attributes, e.2.Regular := fun e he => (h a ha e he).regular
  cases a with
  | node id type attributes => exact hg.addNode id type hnew
  | edge source target type attributes => exact hg.addEdge source target type hnew

/-! ## What is asked of a graph -/

/-- Whatever is asked of the two graphs, they answer alike or fail alike; only the name of the space
in the counts is that of each graph. -/
structure AnswersAlike (g read : Graph) : Prop where
  document : read.toJson = g.toJson
  stats : read.stats = (fun s => { s with space := read.space }) <$> g.stats
  relationships : Diff.relationships read = Diff.relationships g
  topics : read.topics = g.topics
  cycles : ∀ limit, Cycle.detect read limit = Cycle.detect g limit

theorem answersAlike_space (g : Graph) (space : String) :
    AnswersAlike g { g with space := space } := by
  refine ⟨rfl, ?_, rfl, rfl, fun _ => rfl⟩
  unfold stats
  cases Decoder.withDefault "skipped_invocations" 0 Decoder.integer g.attributes.entries <;> rfl

/-- The diff lists no change, and sums up none. -/
structure NoChange (d : GraphDiff) : Prop where
  unchanged : Diff.Unchanged d
  cycles : d.newCycles = []
  summary : d.summary.hasChanges = false

/-- Graphs that differ only in the name of their space have the same nodes, relationships and
cycles. -/
theorem noChange_of_space {a b : Graph} {limit : Int} {d : GraphDiff} (hwell : a.WellFormed)
    (hregular : a.Regular) (hspace : b = { a with space := b.space }) (h : a.diff b limit = .ok d) :
    NoChange d := by
  have hwell' : b.WellFormed := by
    rw [hspace]
    exact ⟨hwell.nodes, hwell.node⟩
  have hattributes : ∀ id, b.attributesOf id = a.attributesOf id := by
    intro id
    rw [hspace]
    rfl
  have hrelated : ∀ t, Diff.related? b t = Diff.related? a t := by
    intro t
    rw [hspace]
    rfl
  have hagree : Diff.Agree a b := by
    refine ⟨fun id => ?_, fun id _ => ?_, fun id _ name => ?_, fun t => ?_, ?_⟩
    · rw [hspace]
      rfl
    · unfold nodeType
      rw [hattributes]
      exact hregular.nodes id typeName
    · rw [hattributes, Diff.counted]
      split
      · exact hregular.nodes id name
      · exact Json.regular_null
    · rw [hrelated]
    · intro t old new hold hnew name
      rw [hrelated, hold] at hnew
      obtain rfl := Option.some.inj hnew
      exact hregular.edges hold name
  have hunchanged : Diff.Unchanged d := (Diff.unchanged_iff (Diff.nodesExact_of_ok hwell hwell' h)
    (Diff.relationshipsExact_of_ok hwell hwell' h)).mpr hagree
  have hcycles : d.newCycles = [] := by
    obtain ⟨known, found, hknown, hfound, heq⟩ := Cycle.compare_eq_ok.mp (Diff.compare_of_ok h)
    have hsame : Cycle.detect b limit = Cycle.detect a limit := by
      rw [hspace]
      rfl
    rw [hsame, hknown] at hfound
    rw [GraphDiff.newCycles, heq, ← Except.ok.inj hfound]
    exact Cycle.markNew_self known
  refine ⟨hunchanged, hcycles, ?_⟩
  obtain ⟨_, _, _, _, _, _, hsummary⟩ := Diff.diff_eq_ok h
  obtain ⟨h₁, h₂, h₃, h₄, h₅, h₆⟩ := hunchanged
  rw [hsummary, Diff.summarize, h₁, h₂, h₃, h₄, h₅, h₆, hcycles]
  rfl

theorem space_built (space : String) (attributes : Attributes) (additions : List Addition) :
    (built space attributes additions).space = space := by
  apply built_induction (P := fun g => g.space = space) rfl
  intro g hg a _
  cases a <;> exact hg

/-- **A stored graph comes back as it was.** Whatever was added, in whatever order, reading the
document gives the same graph: nodes, edges and attributes with their order. So it answers alike,
and where a diff of the two can be made it lists no change either way; and a store that is given the
graph gives it back. -/
theorem stored_graph_comes_back (space : String) (attributes : Attributes)
    (additions : List Addition) (h : ∀ a ∈ additions, a.Storable) (other : String) :
    let g := built space attributes additions
    ∃ read, ofJson other g.toJson = .ok read ∧ read = { g with space := other } ∧
      AnswersAlike g read ∧
      ((∀ a ∈ additions, a.WellFormed) → ∀ limit d,
        g.diff read limit = .ok d ∨ read.diff g limit = .ok d → NoChange d) ∧
      (space ≠ "" → ∀ (store : GraphStore) (projectId : Option String),
        ∃ kept, store.save? projectId g = some kept ∧ kept.load? space = some g) := by
  intro g
  have hstorable : g.Storable := storable_built space attributes h
  have hspace : g.space = space := space_built space attributes additions
  refine ⟨_, hstorable.ofJson_toJson other, rfl, answersAlike_space _ _, ?_, ?_⟩
  · intro hvalues limit d hdiff
    have hwell := hstorable.wellFormed
    have hregular : g.Regular := regular_built space attributes hvalues
    rcases hdiff with hdiff | hdiff
    · exact noChange_of_space hwell hregular rfl hdiff
    · have hwell' : { g with space := other }.WellFormed := ⟨hwell.nodes, hwell.node⟩
      have hregular' : { g with space := other }.Regular := ⟨hregular.nodes, hregular.edges⟩
      exact noChange_of_space hwell' hregular' rfl hdiff
  · intro hnamed store projectId
    unfold GraphStore.save? GraphStore.load?
    rw [hspace, if_neg hnamed]
    refine ⟨_, rfl, ?_⟩
    rw [Table.find?_insert, if_pos rfl, Option.bind_some, hstorable.ofJson_toJson, ← hspace]
    rfl

/-- Calls that are added before their methods, and one of them twice. -/
def interleaved : List Addition :=
  [.edge "stock.reserve" "orders.place" "CALLS" [],
    .edge "orders.place" "stock.reserve" "CALLS" [("line", .int 3)],
    .node "orders.sent" "topic" [("producers", .arr [.str "orders.place"])],
    .edge "stock.reserve" "orders.sent" "PRODUCES_TO" [("kind", .null)],
    .node "orders.place" "method" [("name", .str "place")],
    .edge "stock.reserve" "orders.place" "USES" [],
    .edge "orders.place" "stock.reserve" "CALLS" [("line", .int 5), ("self", .bool false)]]

theorem stored_graph_comes_back_interleaved :
    (∀ a ∈ interleaved, a.Storable) ∧ (∀ a ∈ interleaved, a.WellFormed) ∧
    ∃ read, ofJson "copy" (built "shop" ∅ interleaved).toJson = .ok read ∧
      read.edges.map (fun e => (e.source, e.target, e.type)) =
        [("stock.reserve", "orders.place", "CALLS"), ("stock.reserve", "orders.place", "USES"),
          ("stock.reserve", "orders.sent", "PRODUCES_TO"),
          ("orders.place", "stock.reserve", "CALLS")] ∧
      (∀ d, (built "shop" ∅ interleaved).diff read 100 = .ok d → NoChange d) ∧
      ∃ kept, GraphStore.empty.save? none (built "shop" ∅ interleaved) = some kept ∧
        kept.load? "shop" = some (built "shop" ∅ interleaved) := by
  have hstorable : ∀ a ∈ interleaved, a.Storable := by
    unfold Addition.Storable
    decide
  have hvalues : ∀ a ∈ interleaved, a.WellFormed := by
    have hproducers : (Json.arr [.str "orders.place"]).WellFormed :=
      .arr (by simp [Json.WellFormed.str])
    simp only [interleaved, Addition.WellFormed, Addition.attributes, List.forall_mem_cons]
    simp [hproducers, Json.WellFormed.int, Json.WellFormed.null, Json.WellFormed.str,
      Json.WellFormed.bool]
  obtain ⟨read, hread, heq, _, hdiff, hstore⟩ :=
    stored_graph_comes_back "shop" ∅ interleaved hstorable "copy"
  refine ⟨hstorable, hvalues, read, hread, ?_, fun d hd => hdiff hvalues 100 d (.inl hd),
    hstore (by decide) GraphStore.empty none⟩
  rw [heq]
  rfl

end Graph

end ArchGraph
