import ArchGraph.Graph.Document
import ArchGraph.Graph.Export
import ArchGraph.Proofs.Table

/-!
Graphs as multigraphs. `relationship?` reads a relationship by what identifies it; one lemma says
what each way of changing a graph does to it.

A graph is well-formed if it lists each node once, each relationship once, and both ends of every
relationship among its nodes. Every graph there is comes from adding nodes and edges, so every graph
that is read (`wellFormed_ofJson`) or exported (`wellFormed_ofResolved`) is well-formed.
-/

namespace ArchGraph

/-- What holds of a node among nodes with the identifiers `ids`. -/
structure GraphNode.WellFormed (ids : List String) (node : GraphNode) : Prop where
  targets : node.out.Distinct
  types : ∀ target byType, node.out.find? target = some byType → byType.Distinct
  known : ∀ target ∈ node.out.keys, target ∈ ids

theorem GraphNode.WellFormed.mono {ids ids' : List String} {node : GraphNode}
    (h : node.WellFormed ids) (hsub : ∀ id ∈ ids, id ∈ ids') : node.WellFormed ids' :=
  ⟨h.targets, h.types, fun target ht => hsub _ (h.known target ht)⟩

namespace Graph

structure WellFormed (g : Graph) : Prop where
  nodes : g.nodes.Distinct
  node : ∀ id node, g.nodes.find? id = some node → node.WellFormed g.nodeIds

/-- The attributes of the relationship of a type between two nodes. -/
def relationship? (g : Graph) (source target type : String) : Option Attributes :=
  (g.nodes.find? source).bind (fun node =>
    (node.out.find? target).bind (fun byType => byType.find? type))

variable {g : Graph}

theorem WellFormed.ends_mem (h : g.WellFormed) {source target type : String}
    (hr : (g.relationship? source target type).isSome = true) :
    source ∈ g.nodeIds ∧ target ∈ g.nodeIds := by
  unfold relationship? at hr
  cases hs : g.nodes.find? source with
  | none => simp [hs] at hr
  | some node =>
      cases ht : node.out.find? target with
      | none => simp [hs, ht] at hr
      | some byType =>
          have hsource : source ∈ g.nodes.keys := by
            rw [← Table.contains_iff, Table.contains, hs]
            rfl
          have htarget : target ∈ node.out.keys := by
            rw [← Table.contains_iff, Table.contains, ht]
            rfl
          exact ⟨hsource, (h.node source node hs).known target htarget⟩

/-! ## Adding nodes and edges -/

@[simp] theorem nodeIds_mergeNode (g : Graph) (id : String) (attributes : List (String × Json)) :
    (g.mergeNode id attributes).nodeIds = addNew g.nodeIds id := by
  unfold mergeNode nodeIds
  rw [Table.keys_upsert]

theorem find?_mergeNode (g : Graph) (id other : String) (attributes : List (String × Json)) :
    (g.mergeNode id attributes).nodes.find? other =
      if other = id then
        some { (g.nodes.find? id).getD ⟨∅, ∅⟩ with
          attributes := ((g.nodes.find? id).getD ⟨∅, ∅⟩).attributes.insertAll attributes }
      else g.nodes.find? other :=
  Table.find?_upsert _ _ _ _

/-- A node keeps its relationships, and a new one has none. -/
@[simp] theorem relationship?_mergeNode (g : Graph) (id : String)
    (attributes : List (String × Json)) (source target type : String) :
    (g.mergeNode id attributes).relationship? source target type =
      g.relationship? source target type := by
  unfold relationship?
  rw [find?_mergeNode]
  by_cases h : source = id
  · subst h
    cases hs : g.nodes.find? source <;> simp
  · simp [h]

theorem attributesOf_mergeNode (g : Graph) (id other : String) (attributes : List (String × Json)) :
    (g.mergeNode id attributes).attributesOf other =
      if other = id then (g.attributesOf id).insertAll attributes else g.attributesOf other := by
  unfold attributesOf
  rw [find?_mergeNode]
  by_cases h : other = id
  · subst h
    cases hs : g.nodes.find? other <;> simp
  · simp [h]

theorem wellFormed_empty (space : String) (attributes : Attributes) :
    (Graph.mk space attributes ∅).WellFormed where
  nodes := List.nodup_nil
  node := by simp

theorem wellFormed_mergeNode (h : g.WellFormed) (id : String) (attributes : List (String × Json)) :
    (g.mergeNode id attributes).WellFormed where
  nodes := Table.distinct_upsert h.nodes _ _
  node := by
    intro other node hnode
    have hsub : ∀ x ∈ g.nodeIds, x ∈ (g.mergeNode id attributes).nodeIds := by
      intro x hx
      rw [nodeIds_mergeNode, mem_addNew]
      exact .inl hx
    rw [find?_mergeNode] at hnode
    split at hnode
    · obtain rfl := Option.some.inj hnode
      cases hid : g.nodes.find? id with
      | none => exact ⟨List.nodup_nil, by simp, by simp⟩
      | some known =>
          have hknown := (h.node id known hid).mono hsub
          exact ⟨hknown.targets, hknown.types, hknown.known⟩
    · exact (h.node other node hnode).mono hsub

theorem wellFormed_addNode (h : g.WellFormed) (id type : String)
    (attributes : List (String × Json)) : (g.addNode id type attributes).WellFormed :=
  wellFormed_mergeNode h _ _

/-- The node with one more relationship, or with more attributes of one. -/
def related (target type : String) (attributes : List (String × Json)) (node : GraphNode) :
    GraphNode :=
  { node with out := node.out.upsert target (fun byType =>
      (byType.getD ∅).upsert type (fun known => (known.getD ∅).insertAll attributes)) }

theorem addEdge_eq (g : Graph) (source target type : String) (attributes : List (String × Json)) :
    g.addEdge source target type attributes =
      { (g.mergeNode source []).mergeNode target [] with
        nodes := ((g.mergeNode source []).mergeNode target []).nodes.modify source
          (related target type attributes) } := rfl

/-- An edge adds its ends to the nodes. -/
@[simp] theorem nodeIds_addEdge (g : Graph) (source target type : String)
    (attributes : List (String × Json)) :
    (g.addEdge source target type attributes).nodeIds =
      addNew (addNew g.nodeIds source) target := by
  rw [addEdge_eq, ← nodeIds_mergeNode g source [], ← nodeIds_mergeNode _ target []]
  exact Table.keys_modify _ _ _

theorem insertAll_nil (attributes : Attributes) : attributes.insertAll [] = attributes := rfl

@[simp] theorem attributesOf_addEdge (g : Graph) (source target type : String)
    (attributes : List (String × Json)) (id : String) :
    (g.addEdge source target type attributes).attributesOf id = g.attributesOf id := by
  have hends :
      ((g.mergeNode source []).mergeNode target []).attributesOf id = g.attributesOf id := by
    simp only [attributesOf_mergeNode, insertAll_nil]
    split <;> split <;> simp_all
  rw [addEdge_eq, ← hends]
  unfold attributesOf
  rw [Table.find?_modify]
  by_cases h : id = source
  · subst h
    cases ((g.mergeNode id []).mergeNode target []).nodes.find? id <;> simp [related]
  · simp [h]

theorem relationship?_addEdge (g : Graph) (source target type : String)
    (attributes : List (String × Json)) (s t k : String) :
    (g.addEdge source target type attributes).relationship? s t k =
      if (s, t, k) = (source, target, type) then
        some (((g.relationship? source target type).getD ∅).insertAll attributes)
      else g.relationship? s t k := by
  let ends := (g.mergeNode source []).mergeNode target []
  have hends : ∀ s t k, ends.relationship? s t k = g.relationship? s t k := by
    intro s t k
    simp [ends]
  obtain ⟨node, hnode⟩ : ∃ node, ends.nodes.find? source = some node := by
    rw [← Option.isSome_iff_exists]
    have hmem : source ∈ ends.nodes.keys := by
      have hids : ends.nodes.keys = addNew (addNew g.nodeIds source) target := by
        rw [← nodeIds_mergeNode g source [], ← nodeIds_mergeNode _ target []]
        rfl
      rw [hids]
      simp
    exact (Table.contains_iff _ _).mpr hmem
  rw [← hends source target type, ← hends s t k, addEdge_eq]
  unfold relationship?
  rw [Table.find?_modify]
  by_cases hs : s = source
  · subst hs
    rw [if_pos rfl, hnode, Option.map_some, Option.bind_some, Option.bind_some, related]
    dsimp only
    rw [Table.find?_upsert]
    by_cases ht : t = target
    · subst ht
      rw [if_pos rfl, Option.bind_some, Table.find?_upsert]
      by_cases hk : k = type
      · subst hk
        cases node.out.find? t <;> simp
      · cases hout : node.out.find? t <;> simp [hk, hout]
    · simp [ht]
  · simp [hs, ends]

theorem related_wellFormed {ids : List String} {node : GraphNode} (h : node.WellFormed ids)
    {target : String} (htarget : target ∈ ids) (type : String) (attributes : List (String × Json)) :
    (related target type attributes node).WellFormed ids where
  targets := Table.distinct_upsert h.targets _ _
  types := by
    intro other byType hfind
    unfold related at hfind
    rw [Table.find?_upsert] at hfind
    split at hfind
    · obtain rfl := Option.some.inj hfind
      cases hout : node.out.find? target with
      | none => exact Table.distinct_upsert (t := ∅) List.nodup_nil _ _
      | some known => exact Table.distinct_upsert (h.types target known hout) _ _
    · exact h.types other byType hfind
  known := by
    intro other hother
    unfold related at hother
    rw [Table.keys_upsert, mem_addNew] at hother
    rcases hother with hother | rfl
    · exact h.known other hother
    · exact htarget

theorem wellFormed_addEdge (h : g.WellFormed) (source target type : String)
    (attributes : List (String × Json)) :
    (g.addEdge source target type attributes).WellFormed := by
  have hends := wellFormed_mergeNode (wellFormed_mergeNode h source []) target []
  have hids : (g.addEdge source target type attributes).nodeIds =
      ((g.mergeNode source []).mergeNode target []).nodeIds := by simp
  have htarget : target ∈ ((g.mergeNode source []).mergeNode target []).nodeIds := by simp
  constructor
  · unfold Table.Distinct
    rw [addEdge_eq, Table.keys_modify]
    exact hends.nodes
  · intro id node hnode
    rw [hids]
    rw [addEdge_eq, Table.find?_modify] at hnode
    split at hnode
    · obtain ⟨known, hknown, rfl⟩ := Option.map_eq_some_iff.mp hnode
      exact related_wellFormed (hends.node source known hknown) htarget type attributes
    · exact hends.node id node hnode

/-! ## Graphs that are read or exported -/

theorem wellFormed_readEdges {edges : List Json} {g read : Graph} (h : g.WellFormed)
    (hread : edges.foldlM readEdge g = .ok read) : read.WellFormed := by
  induction edges generalizing g with
  | nil =>
      obtain rfl : g = read := Except.ok.inj hread
      exact h
  | cons edge edges ih =>
      rw [List.foldlM_cons] at hread
      cases hs : part edge "source" with
      | error e => simp [readEdge, hs, bind, Except.bind] at hread
      | ok source =>
          cases ht : part edge "target" with
          | error e => simp [readEdge, hs, ht, bind, Except.bind] at hread
          | ok target =>
              simp only [readEdge, hs, ht, bind, Except.bind, pure, Except.pure] at hread
              exact ih (wellFormed_addEdge h _ _ _ _) hread

/-- Every graph that a document gives is well-formed. -/
theorem wellFormed_ofJson {space : String} {j : Json} {read : Graph}
    (h : ofJson space j = .ok read) : read.WellFormed := by
  have nodes : ∀ (items : List Json) (g : Graph), g.WellFormed →
      (items.foldl readNode g).WellFormed := by
    intro items
    induction items with
    | nil => exact fun g hg => hg
    | cons item items ih => exact fun g hg => ih _ (wellFormed_mergeNode hg _ _)
  unfold ofJson at h
  cases hn : part j "nodes" with
  | error e => simp [hn, bind, Except.bind] at h
  | ok ns =>
      cases he : part j "edges" with
      | error e => simp [hn, he, bind, Except.bind] at h
      | ok es =>
          simp only [hn, he, bind, Except.bind] at h
          exact wellFormed_readEdges (nodes _ _ (wellFormed_empty _ _)) h

theorem wellFormed_addNodes {α : Type} (h : g.WellFormed) (type : NodeType)
    (attributes : α → List (String × Json)) (t : Table String α) :
    (addNodes type attributes t g).WellFormed := by
  unfold addNodes
  induction inOrder t generalizing g with
  | nil => exact h
  | cons e es ih => exact ih (wellFormed_addNode h _ _ _)

/-- Every graph that a resolved project is exported to is well-formed. -/
theorem wellFormed_ofResolved (space : String) (r : ResolvedGraph) :
    (ofResolved space r).WellFormed := by
  have links : ∀ (ls : List Link) (g : Graph), g.WellFormed → (ls.foldl addLink g).WellFormed := by
    intro ls
    induction ls with
    | nil => exact fun g hg => hg
    | cons l ls ih => exact fun g hg => ih _ (wellFormed_addEdge hg _ _ _ _)
  apply links
  unfold exportNodes
  repeat apply wellFormed_addNodes
  exact wellFormed_empty _ _

/-- A resolved project is exported to the space it is asked for. -/
theorem space_ofResolved (space : String) (r : ResolvedGraph) :
    (ofResolved space r).space = space := by
  have nodes : ∀ {α : Type} (type : NodeType) (attributes : α → List (String × Json))
      (t : Table String α) (g : Graph), (addNodes type attributes t g).space = g.space := by
    intro α type attributes t g
    unfold addNodes
    induction inOrder t generalizing g with
    | nil => rfl
    | cons e es ih => exact ih _
  have links : ∀ (ls : List Link) (g : Graph), (ls.foldl addLink g).space = g.space := by
    intro ls
    induction ls with
    | nil => exact fun g => rfl
    | cons l ls ih => exact fun g => ih _
  unfold ofResolved
  rw [links]
  simp only [exportNodes, nodes]

/-! ## Relationships as a list -/

theorem mem_edges (h : g.WellFormed) {e : Edge} :
    e ∈ g.edges ↔ g.relationship? e.source e.target e.type = some e.attributes := by
  unfold edges edgesFrom relationship?
  simp only [List.mem_flatMap, List.mem_map, Option.bind_eq_some_iff]
  constructor
  · rintro ⟨⟨source, node⟩, hnode, ⟨target, byType⟩, htarget, ⟨type, attributes⟩, htype, rfl⟩
    have hfind := Table.find?_of_mem h.nodes hnode
    have hwell := h.node source node hfind
    have hout := Table.find?_of_mem hwell.targets htarget
    exact ⟨node, hfind, byType, hout, Table.find?_of_mem (hwell.types target byType hout) htype⟩
  · rintro ⟨node, hnode, byType, htarget, htype⟩
    exact ⟨_, Table.mem_entries_of_find? hnode, _, Table.mem_entries_of_find? htarget, _,
      Table.mem_entries_of_find? htype, rfl⟩

theorem mem_callEdges_iff (h : g.WellFormed) {source target : String} :
    (source, target) ∈ g.callEdges ↔
      (g.relationship? source target (Coded.code EdgeType.calls)).isSome = true := by
  unfold callEdges edgesOfType
  simp only [List.mem_map, List.mem_filter, beq_iff_eq, Prod.mk.injEq, mem_edges h,
    Option.isSome_iff_exists]
  constructor
  · rintro ⟨e, ⟨he, htype⟩, rfl, rfl⟩
    exact ⟨e.attributes, htype ▸ he⟩
  · rintro ⟨attributes, hr⟩
    exact ⟨⟨source, target, _, attributes⟩, ⟨hr, rfl⟩, rfl, rfl⟩

end Graph

end ArchGraph
