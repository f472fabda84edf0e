import ArchGraph.Proofs.Detection
import ArchGraph.Proofs.Differences
import ArchGraph.Proofs.Multigraph

/-!
A diff lists what has changed, and nothing else. Nodes are known by their identifiers and
relationships by their two ends and their type; every list is strictly rising in that, and what is
modified comes with exactly the attributes that differ (`diff_exact`).
-/

namespace ArchGraph.Diff

/-! ## Nodes -/

/-- The nodes that are listed, and what is said of each. -/
structure NodesExact (a b : Graph) (d : GraphDiff) : Prop where
  added : Covers (· < ·) (·.nodeId) (fun id => id ∈ b.nodeIds ∧ id ∉ a.nodeIds) d.addedNodes
  removed : Covers (· < ·) (·.nodeId) (fun id => id ∈ a.nodeIds ∧ id ∉ b.nodeIds) d.removedNodes
  modified : Covers (· < ·) (·.nodeId) (fun id => id ∈ a.nodeIds ∧ id ∈ b.nodeIds ∧
    NodesDiffer (a.attributesOf id) (b.attributesOf id)) d.modifiedNodes
  whole : ∀ c ∈ d.addedNodes, c.properties = [] ∧ Shows .added (b.attributesOf c.nodeId) c
  gone : ∀ c ∈ d.removedNodes, c.properties = [] ∧ Shows .removed (a.attributesOf c.nodeId) c
  differences : ∀ c ∈ d.modifiedNodes,
    ListsNodeDifferences (a.attributesOf c.nodeId) (b.attributesOf c.nodeId) c.properties ∧
      Shows .modified (b.attributesOf c.nodeId) c

theorem mem_nodeIds {g : Graph} {id : String} : g.hasNode id = true ↔ id ∈ g.nodeIds :=
  Table.contains_iff _ _

theorem mem_onlyIn {g other : Graph} {id : String} :
    id ∈ onlyIn g other ↔ id ∈ g.nodeIds ∧ id ∉ other.nodeIds := by
  rw [onlyIn, Text.mem_sorted, List.mem_filter, Bool.not_eq_true', ← mem_nodeIds (g := other),
    Bool.not_eq_true]

theorem onlyIn_sorted {g : Graph} (h : g.WellFormed) (other : Graph) :
    (onlyIn g other).Pairwise (· < ·) :=
  Text.sorted_strict (h.nodes.filter _)

/-- The nodes of one graph that the other lacks, each shown as it is there. -/
theorem covers_onlyIn {g other : Graph} (h : g.WellFormed) {change : ChangeType}
    {changes : List NodeChange}
    (hok : (onlyIn g other).mapM (fun id => nodeChange change id (g.attributesOf id) []) =
      .ok changes) :
    Covers (· < ·) (·.nodeId) (fun id => id ∈ g.nodeIds ∧ id ∉ other.nodeIds) changes ∧
      ∀ c ∈ changes, c.properties = [] ∧ Shows change (g.attributesOf c.nodeId) c := by
  have hkeys : changes.map (·.nodeId) = (onlyIn g other).map id :=
    map_of_mapM (fun _ _ hc => (nodeChange_eq_ok hc).1) hok
  rw [List.map_id] at hkeys
  refine ⟨⟨fun id => ?_, hkeys ▸ onlyIn_sorted h other⟩, fun c hc => ?_⟩
  · rw [hkeys, mem_onlyIn]
  · obtain ⟨id, _, hid⟩ := mem_of_mapM hok hc
    obtain ⟨rfl, hproperties, hshows⟩ := nodeChange_eq_ok hid
    exact ⟨hproperties, hshows⟩

theorem differingNodes_keys (a b : Graph) :
    (differingNodes a b).map (·.1) = (inBoth a b).filter (fun id =>
      !(nodeProperties (a.attributesOf id) (b.attributesOf id)).isEmpty) :=
  keys_of_differing _ _

theorem mem_differingNodes {a b : Graph} {id : String} :
    id ∈ (differingNodes a b).map (·.1) ↔
      id ∈ a.nodeIds ∧ id ∈ b.nodeIds ∧ NodesDiffer (a.attributesOf id) (b.attributesOf id) := by
  rw [differingNodes_keys, List.mem_filter, inBoth, Text.mem_sorted, List.mem_filter, mem_nodeIds,
    ← nodeProperties_ne_nil, and_assoc]
  simp

theorem covers_differingNodes {a b : Graph} (h : a.WellFormed) {changes : List NodeChange}
    (hok : modifiedNodes a b = .ok changes) :
    Covers (· < ·) (·.nodeId) (fun id => id ∈ a.nodeIds ∧ id ∈ b.nodeIds ∧
        NodesDiffer (a.attributesOf id) (b.attributesOf id)) changes ∧
      ∀ c ∈ changes,
        ListsNodeDifferences (a.attributesOf c.nodeId) (b.attributesOf c.nodeId) c.properties ∧
          Shows .modified (b.attributesOf c.nodeId) c := by
  have hkeys : changes.map (·.nodeId) = (differingNodes a b).map (·.1) :=
    map_of_mapM (fun _ _ hc => (nodeChange_eq_ok hc).1) hok
  refine ⟨⟨fun id => ?_, ?_⟩, fun c hc => ?_⟩
  · rw [hkeys, mem_differingNodes]
  · rw [hkeys, differingNodes_keys]
    exact (Text.sorted_strict (h.nodes.filter _)).filter _
  · obtain ⟨e, he, hid⟩ := mem_of_mapM hok hc
    obtain ⟨id, _, rfl⟩ := List.mem_map.mp (List.mem_of_mem_filter he)
    obtain ⟨rfl, hproperties, hshows⟩ := nodeChange_eq_ok hid
    rw [hproperties]
    exact ⟨nodeProperties_lists _ _, hshows⟩

/-! ## Relationships -/

def tripleLT (s t : Triple) : Prop :=
  s.1 < t.1 ∨ s.1 = t.1 ∧ (s.2.1 < t.2.1 ∨ s.2.1 = t.2.1 ∧ s.2.2 < t.2.2)

theorem tripleLE_iff {s t : Triple} : tripleLE s t = true ↔ tripleLT s t ∨ s = t := by
  obtain ⟨a, b, c⟩ := s
  obtain ⟨a', b', c'⟩ := t
  have hle : c ≤ c' ↔ c < c' ∨ c = c' := by
    constructor
    · intro h
      by_cases he : c = c'
      · exact .inr he
      · exact .inl (lt_of_nameLE_of_ne c c' (decide_eq_true h) he)
    · rintro (h | rfl)
      · exact String.not_lt.mp (String.lt_asymm h)
      · exact String.le_refl c
  simp only [tripleLE, tripleLT, Bool.or_eq_true, Bool.and_eq_true, decide_eq_true_eq, beq_iff_eq,
    hle, Prod.mk.injEq]
  grind

theorem tripleLT_trans {s t u : Triple} (hst : tripleLT s t) (htu : tripleLT t u) :
    tripleLT s u := by
  rcases hst with h | ⟨h, h' | ⟨h', h''⟩⟩ <;> rcases htu with k | ⟨k, k' | ⟨k', k''⟩⟩
  · exact .inl (String.lt_trans h k)
  · exact .inl (k ▸ h)
  · exact .inl (k ▸ h)
  · exact .inl (h ▸ k)
  · exact .inr ⟨h.trans k, .inl (String.lt_trans h' k')⟩
  · exact .inr ⟨h.trans k, .inl (k' ▸ h')⟩
  · exact .inl (h ▸ k)
  · exact .inr ⟨h.trans k, .inl (h' ▸ k')⟩
  · exact .inr ⟨h.trans k, .inr ⟨h'.trans k', String.lt_trans h'' k''⟩⟩

theorem tripleLE_trans (s t u : Triple) (hst : tripleLE s t = true) (htu : tripleLE t u = true) :
    tripleLE s u = true := by
  rw [tripleLE_iff] at hst htu ⊢
  rcases hst with hst | rfl
  · rcases htu with htu | rfl
    · exact .inl (tripleLT_trans hst htu)
    · exact .inl hst
  · exact htu

theorem tripleLE_total (s t : Triple) : (tripleLE s t || tripleLE t s) = true := by
  obtain ⟨a, b, c⟩ := s
  obtain ⟨a', b', c'⟩ := t
  rw [Bool.or_eq_true, tripleLE_iff, tripleLE_iff]
  rcases name_trichotomy a a' with h | rfl | h
  · exact .inl (.inl (.inl h))
  · rcases name_trichotomy b b' with h | rfl | h
    · exact .inl (.inl (.inr ⟨rfl, .inl h⟩))
    · rcases name_trichotomy c c' with h | rfl | h
      · exact .inl (.inl (.inr ⟨rfl, .inr ⟨rfl, h⟩⟩))
      · exact .inl (.inr rfl)
      · exact .inr (.inl (.inr ⟨rfl, .inr ⟨rfl, h⟩⟩))
    · exact .inr (.inl (.inr ⟨rfl, .inl h⟩))
  · exact .inr (.inl (.inl h))

theorem triples_strict {ts : List Triple} (h : ts.Nodup) :
    (ts.mergeSort tripleLE).Pairwise tripleLT :=
  pairwise_mergeSort_of_nodup tripleLE_trans tripleLE_total
    (fun _ _ hle hne => (tripleLE_iff.mp hle).resolve_right hne) h

/-- Lists with different tags that are free of repetition are so together. -/
theorem nodup_flatMap_of_tags {α β κ : Type} {k : α → κ} {t : β → κ} {f : α → List β} {xs : List α}
    (hk : (xs.map k).Nodup) (hf : ∀ x ∈ xs, (f x).Nodup) (htag : ∀ x ∈ xs, ∀ y ∈ f x, t y = k x) :
    (xs.flatMap f).Nodup := by
  induction xs with
  | nil => exact List.nodup_nil
  | cons x xs ih =>
      rw [List.map_cons, List.nodup_cons] at hk
      rw [List.flatMap_cons, List.nodup_append]
      refine ⟨hf x List.mem_cons_self, ih hk.2 (fun y hy => hf y (List.mem_cons_of_mem _ hy))
        (fun y hy => htag y (List.mem_cons_of_mem _ hy)), ?_⟩
      rintro a ha b hb rfl
      obtain ⟨y, hy, hb⟩ := List.mem_flatMap.mp hb
      apply hk.1
      rw [← htag x List.mem_cons_self a ha, htag y (List.mem_cons_of_mem _ hy) a hb]
      exact List.mem_map_of_mem hy

theorem relationships_distinct {g : Graph} (h : g.WellFormed) : (relationships g).Distinct := by
  unfold Table.Distinct Table.keys relationships Graph.edges Graph.edgesFrom
  rw [List.map_map, List.map_flatMap]
  apply nodup_flatMap_of_tags (t := fun r : Triple => r.1) h.nodes
  · intro e he
    have hwell := h.node e.1 e.2 (Table.find?_of_mem h.nodes he)
    rw [List.map_flatMap]
    apply nodup_flatMap_of_tags (t := fun r : Triple => r.2.1) hwell.targets
    · intro byType hmem
      have htypes := hwell.types byType.1 byType.2 (Table.find?_of_mem hwell.targets hmem)
      have hkeys : (byType.2.entries.map (·.1)).map (fun type => (e.1, byType.1, type)) =
          (byType.2.entries.map (fun typed => (⟨e.1, byType.1, typed.1, typed.2⟩ : Edge))).map
            ((·.1) ∘ fun e : Edge => ((e.source, e.target, e.type), e.attributes)) := by
        rw [List.map_map, List.map_map]
        rfl
      rw [← hkeys]
      exact List.Nodup.map (fun _ _ heq => (Prod.mk.inj (Prod.mk.inj heq).2).2) htypes
    · intro byType _ t ht
      simp only [List.mem_map] at ht
      obtain ⟨_, ⟨_, _, rfl⟩, rfl⟩ := ht
      rfl
  · intro e _ t ht
    simp only [List.mem_map, List.mem_flatMap] at ht
    obtain ⟨_, ⟨_, _, _, _, rfl⟩, rfl⟩ := ht
    rfl

/-- The relationships by what identifies them are those of the graph. -/
theorem find?_relationships {g : Graph} (h : g.WellFormed) (t : Triple) :
    (relationships g).find? t = g.relationship? t.1 t.2.1 t.2.2 := by
  have hmem : ∀ attributes, (t, attributes) ∈ (relationships g).entries ↔
      g.relationship? t.1 t.2.1 t.2.2 = some attributes := by
    intro attributes
    unfold relationships
    rw [List.mem_map]
    constructor
    · rintro ⟨e, he, heq⟩
      obtain ⟨rfl, rfl⟩ := Prod.mk.inj heq
      exact (Graph.mem_edges h).mp he
    · intro hr
      exact ⟨⟨t.1, t.2.1, t.2.2, attributes⟩, (Graph.mem_edges h).mpr hr, rfl⟩
  cases hr : g.relationship? t.1 t.2.1 t.2.2 with
  | some attributes => exact Table.find?_of_mem (relationships_distinct h) ((hmem _).mpr hr)
  | none =>
      cases hfind : (relationships g).find? t with
      | none => rfl
      | some attributes =>
          rw [(hmem attributes).mp (Table.mem_entries_of_find? hfind)] at hr
          cases hr

/-- The attributes of a relationship that the graph has. -/
def related? (g : Graph) (t : Triple) : Option Attributes := g.relationship? t.1 t.2.1 t.2.2

/-- What identifies a changed relationship. -/
def triple (c : RelationshipChange) : Triple := (c.source, c.target, c.type)

/-- Some attribute of two relationships differs. -/
def AttributesDiffer (old new : Attributes) : Prop :=
  ∃ name, (old.attribute name).sameValue (new.attribute name) = false

theorem properties_ne_nil (old new : Attributes) :
    properties old new ≠ [] ↔ AttributesDiffer old new := by
  rw [Ne, (properties_lists old new).eq_nil_iff]
  simp [AttributesDiffer]

/-- The relationships that are listed, and what is said of each. -/
structure RelationshipsExact (a b : Graph) (d : GraphDiff) : Prop where
  added : Covers tripleLT triple (fun t => (related? b t).isSome = true ∧ related? a t = none)
    d.addedRelationships
  removed : Covers tripleLT triple (fun t => (related? a t).isSome = true ∧ related? b t = none)
    d.removedRelationships
  modified : Covers tripleLT triple (fun t => ∃ old new, related? a t = some old ∧
    related? b t = some new ∧ AttributesDiffer old new) d.modifiedRelationships
  whole : ∀ c ∈ d.addedRelationships, c.change = .added ∧ c.properties = []
  gone : ∀ c ∈ d.removedRelationships, c.change = .removed ∧ c.properties = []
  differences : ∀ c ∈ d.modifiedRelationships, c.change = .modified ∧
    ∀ old new, related? a (triple c) = some old → related? b (triple c) = some new →
      ListsDifferences old.attribute new.attribute c.properties

theorem mem_relationships {g : Graph} (h : g.WellFormed) {t : Triple} :
    t ∈ (relationships g).keys ↔ (related? g t).isSome = true := by
  rw [← Table.contains_iff, Table.contains, find?_relationships h]
  rfl

theorem contains_relationships {g : Graph} (h : g.WellFormed) (t : Triple) :
    (relationships g).contains t = (related? g t).isSome := by
  rw [Table.contains, find?_relationships h]
  rfl

/-- The relationships of one graph that the other lacks. -/
theorem covers_onlyRelatedIn {g other : Graph} (h : g.WellFormed) (hother : other.WellFormed)
    (change : ChangeType) :
    Covers tripleLT triple (fun t => (related? g t).isSome = true ∧ related? other t = none)
      ((onlyRelatedIn (relationships g) (relationships other)).map
        (relationshipChange change · [])) := by
  have hkeys : ((onlyRelatedIn (relationships g) (relationships other)).map
      (relationshipChange change · [])).map triple =
        onlyRelatedIn (relationships g) (relationships other) := by
    rw [List.map_map]
    exact List.map_id _
  refine ⟨fun t => ?_, ?_⟩
  · rw [hkeys, onlyRelatedIn, List.mem_mergeSort, List.mem_filter, mem_relationships h,
      contains_relationships hother, Bool.not_eq_true', Option.isSome_eq_false_iff,
      Option.isNone_iff_eq_none]
  · rw [hkeys]
    exact triples_strict ((relationships_distinct h).filter _)

theorem differingRelationships_keys (old new : Table Triple Attributes) :
    (differingRelationships old new).map (·.1) =
      ((old.keys.filter new.contains).mergeSort tripleLE).filter (fun t =>
        !(properties ((old.find? t).getD ∅) ((new.find? t).getD ∅)).isEmpty) :=
  keys_of_differing _ _

theorem covers_differingRelationships {a b : Graph} (ha : a.WellFormed) (hb : b.WellFormed) :
    Covers tripleLT triple (fun t => ∃ old new, related? a t = some old ∧
        related? b t = some new ∧ AttributesDiffer old new)
      ((differingRelationships (relationships a) (relationships b)).map
        (fun e => relationshipChange .modified e.1 e.2)) := by
  have hkeys : ((differingRelationships (relationships a) (relationships b)).map
      (fun e => relationshipChange .modified e.1 e.2)).map triple =
        (differingRelationships (relationships a) (relationships b)).map (·.1) := by
    rw [List.map_map]
    rfl
  refine ⟨fun t => ?_, ?_⟩
  · have ht : ∀ g : Graph, g.WellFormed → (relationships g).find? t = related? g t :=
      fun g hg => find?_relationships hg t
    rw [hkeys, differingRelationships_keys, List.mem_filter, List.mem_mergeSort, List.mem_filter,
      mem_relationships ha, contains_relationships hb, ht a ha, ht b hb]
    cases related? a t with
    | none => simp
    | some old =>
        cases related? b t with
        | none => simp
        | some new => simp [← properties_ne_nil]
  · rw [hkeys, differingRelationships_keys]
    exact (triples_strict ((relationships_distinct ha).filter _)).filter _

theorem differingRelationships_lists {a b : Graph} (ha : a.WellFormed) (hb : b.WellFormed)
    {t : Triple} {ps : List PropertyDiff}
    (he : (t, ps) ∈ differingRelationships (relationships a) (relationships b))
    {old new : Attributes} (hold : related? a t = some old) (hnew : related? b t = some new) :
    ListsDifferences old.attribute new.attribute ps := by
  obtain ⟨_, _, heq⟩ := List.mem_map.mp (List.mem_of_mem_filter he)
  obtain ⟨rfl, rfl⟩ := Prod.mk.inj heq
  have hfold : (relationships a).find? _ = some old := (find?_relationships ha _).trans hold
  have hfnew : (relationships b).find? _ = some new := (find?_relationships hb _).trans hnew
  rw [hfold, hfnew]
  exact properties_lists old new

/-! ## The diff as a whole -/

/-- What a diff that succeeds is made of. -/
theorem diff_eq_ok {a b : Graph} {limit : Int} {d : GraphDiff} (h : a.diff b limit = .ok d) :
    addedNodes a b = .ok d.addedNodes ∧ removedNodes a b = .ok d.removedNodes ∧
      modifiedNodes a b = .ok d.modifiedNodes ∧
      d.addedRelationships = (onlyRelatedIn (relationships b) (relationships a)).map
        (relationshipChange .added · []) ∧
      d.modifiedRelationships = (differingRelationships (relationships a) (relationships b)).map
        (fun e => relationshipChange .modified e.1 e.2) ∧
      d.removedRelationships = (onlyRelatedIn (relationships a) (relationships b)).map
        (relationshipChange .removed · []) ∧
      d.summary = summarize d := by
  unfold Graph.diff at h
  obtain ⟨added, hadded, h⟩ := bind_eq_ok.mp h
  obtain ⟨removed, hremoved, h⟩ := bind_eq_ok.mp h
  obtain ⟨modified, hmodified, h⟩ := bind_eq_ok.mp h
  obtain ⟨cycles, _, h⟩ := bind_eq_ok.mp h
  obtain rfl := Except.ok.inj h
  exact ⟨hadded, hremoved, hmodified, rfl, rfl, rfl, rfl⟩

theorem compare_of_ok {a b : Graph} {limit : Int} {d : GraphDiff} (h : a.diff b limit = .ok d) :
    Cycle.compare (some a) b limit = .ok d.cycles := by
  unfold Graph.diff at h
  obtain ⟨_, _, h⟩ := bind_eq_ok.mp h
  obtain ⟨_, _, h⟩ := bind_eq_ok.mp h
  obtain ⟨_, _, h⟩ := bind_eq_ok.mp h
  obtain ⟨cycles, hcycles, h⟩ := bind_eq_ok.mp h
  obtain rfl := Except.ok.inj h
  exact hcycles

theorem nodesExact_of_ok {a b : Graph} {limit : Int} {d : GraphDiff} (ha : a.WellFormed)
    (hb : b.WellFormed) (h : a.diff b limit = .ok d) : NodesExact a b d := by
  obtain ⟨hadded, hremoved, hmodified, _⟩ := diff_eq_ok h
  obtain ⟨added, whole⟩ := covers_onlyIn hb hadded
  obtain ⟨removed, gone⟩ := covers_onlyIn ha hremoved
  obtain ⟨modified, differences⟩ := covers_differingNodes ha hmodified
  exact ⟨added, removed, modified, whole, gone, differences⟩

theorem relationshipsExact_of_ok {a b : Graph} {limit : Int} {d : GraphDiff} (ha : a.WellFormed)
    (hb : b.WellFormed) (h : a.diff b limit = .ok d) : RelationshipsExact a b d := by
  obtain ⟨_, _, _, hadded, hmodified, hremoved, _⟩ := diff_eq_ok h
  refine ⟨hadded ▸ covers_onlyRelatedIn hb ha _, hremoved ▸ covers_onlyRelatedIn ha hb _,
    hmodified ▸ covers_differingRelationships ha hb, ?_, ?_, ?_⟩
  · intro c hc
    rw [hadded] at hc
    obtain ⟨t, _, rfl⟩ := List.mem_map.mp hc
    exact ⟨rfl, rfl⟩
  · intro c hc
    rw [hremoved] at hc
    obtain ⟨t, _, rfl⟩ := List.mem_map.mp hc
    exact ⟨rfl, rfl⟩
  · intro c hc
    rw [hmodified] at hc
    obtain ⟨e, he, rfl⟩ := List.mem_map.mp hc
    exact ⟨rfl, fun old new hold hnew => differingRelationships_lists ha hb he hold hnew⟩

/-- A relationship with an end among the nodes that only one graph has is one that only that graph
has: the other has no node to relate. -/
theorem related?_eq_none {g : Graph} (h : g.WellFormed) {t : Triple}
    (hend : t.1 ∉ g.nodeIds ∨ t.2.1 ∉ g.nodeIds) : related? g t = none := by
  cases hr : related? g t with
  | none => rfl
  | some attributes =>
      have hsome : (g.relationship? t.1 t.2.1 t.2.2).isSome = true := by
        rw [show g.relationship? t.1 t.2.1 t.2.2 = some attributes from hr]
        rfl
      obtain ⟨hsource, htarget⟩ := h.ends_mem hsome
      rcases hend with hend | hend
      · exact absurd hsource hend
      · exact absurd htarget hend

/-- Every relationship of a listed node is listed with it. -/
structure Closed (a b : Graph) (d : GraphDiff) : Prop where
  added : ∀ c ∈ d.addedNodes, ∀ t, (related? b t).isSome = true → t.1 = c.nodeId ∨
    t.2.1 = c.nodeId →
    t ∈ d.addedRelationships.map triple
  removed : ∀ c ∈ d.removedNodes, ∀ t, (related? a t).isSome = true →
    t.1 = c.nodeId ∨ t.2.1 = c.nodeId → t ∈ d.removedRelationships.map triple

theorem closed_of_exact {a b : Graph} {d : GraphDiff} (ha : a.WellFormed) (hb : b.WellFormed)
    (hn : NodesExact a b d) (hr : RelationshipsExact a b d) : Closed a b d where
  added := by
    intro c hc t ht hend
    have hnew := ((hn.added.keys c.nodeId).mp (List.mem_map_of_mem hc)).2
    refine (hr.added.keys t).mpr ⟨ht, related?_eq_none ha ?_⟩
    rcases hend with hend | hend
    · exact .inl (hend ▸ hnew)
    · exact .inr (hend ▸ hnew)
  removed := by
    intro c hc t ht hend
    have hgone := ((hn.removed.keys c.nodeId).mp (List.mem_map_of_mem hc)).2
    refine (hr.removed.keys t).mpr ⟨ht, related?_eq_none hb ?_⟩
    rcases hend with hend | hend
    · exact .inl (hend ▸ hgone)
    · exact .inr (hend ▸ hgone)

/-- The summary counts the lists, in all and by the types of the nodes. -/
structure Summarized (d : GraphDiff) : Prop where
  nodesAdded : d.summary.nodesAdded = d.addedNodes.length
  nodesModified : d.summary.nodesModified = d.modifiedNodes.length
  nodesRemoved : d.summary.nodesRemoved = d.removedNodes.length
  relationshipsAdded : d.summary.relationshipsAdded = d.addedRelationships.length
  relationshipsModified : d.summary.relationshipsModified = d.modifiedRelationships.length
  relationshipsRemoved : d.summary.relationshipsRemoved = d.removedRelationships.length
  addedByType : Tallied (d.addedNodes.map (·.nodeType)) d.summary.addedByType
  modifiedByType : Tallied (d.modifiedNodes.map (·.nodeType)) d.summary.modifiedByType
  removedByType : Tallied (d.removedNodes.map (·.nodeType)) d.summary.removedByType

theorem summarized_of_ok {a b : Graph} {limit : Int} {d : GraphDiff}
    (h : a.diff b limit = .ok d) : Summarized d := by
  obtain ⟨_, _, _, _, _, _, hsummary⟩ := diff_eq_ok h
  have htallied := fun changes : List NodeChange => tallied_tally (changes.map (·.nodeType))
  constructor <;> rw [hsummary]
  · rfl
  · rfl
  · rfl
  · rfl
  · rfl
  · rfl
  · exact htallied d.addedNodes
  · exact htallied d.modifiedNodes
  · exact htallied d.removedNodes

/-- No change of a node or of a relationship is listed. -/
def Unchanged (d : GraphDiff) : Prop :=
  d.addedNodes = [] ∧ d.modifiedNodes = [] ∧ d.removedNodes = [] ∧
    d.addedRelationships = [] ∧ d.modifiedRelationships = [] ∧ d.removedRelationships = []

/-- The graphs have the same nodes and relationships, with the same values of all that counts. -/
structure Agree (a b : Graph) : Prop where
  ids : ∀ id, id ∈ a.nodeIds ↔ id ∈ b.nodeIds
  types : ∀ id ∈ a.nodeIds, (a.nodeType id).sameValue (b.nodeType id) = true
  counted : ∀ id ∈ a.nodeIds, ∀ name,
    (counted (a.attributesOf id) name).sameValue (counted (b.attributesOf id) name) = true
  triples : ∀ t, (related? a t).isSome = (related? b t).isSome
  attributes : ∀ t old new, related? a t = some old → related? b t = some new →
    ∀ name, (old.attribute name).sameValue (new.attribute name) = true

theorem unchanged_iff {a b : Graph} {d : GraphDiff} (hn : NodesExact a b d)
    (hr : RelationshipsExact a b d) : Unchanged d ↔ Agree a b := by
  rw [Unchanged, hn.added.eq_nil_iff, hn.modified.eq_nil_iff, hn.removed.eq_nil_iff,
    hr.added.eq_nil_iff, hr.modified.eq_nil_iff, hr.removed.eq_nil_iff]
  constructor
  · rintro ⟨hadded, hmodified, hremoved, hmore, hother, hless⟩
    have hids : ∀ id, id ∈ a.nodeIds ↔ id ∈ b.nodeIds := by
      intro id
      have := hadded id
      have := hremoved id
      tauto
    have hsame : ∀ id ∈ a.nodeIds, ¬ NodesDiffer (a.attributesOf id) (b.attributesOf id) :=
      fun id hid hdiffer => hmodified id ⟨hid, (hids id).mp hid, hdiffer⟩
    refine ⟨hids, fun id hid => ?_, fun id hid name => ?_, fun t => ?_,
      fun t old new hold hnew name => ?_⟩
    · exact eq_true_of_ne_false fun h => hsame id hid (.inl h)
    · exact eq_true_of_ne_false fun h => hsame id hid (.inr ⟨name, h⟩)
    · have h₁ := hmore t
      have h₂ := hless t
      cases ha : related? a t <;> cases hb : related? b t <;> simp_all
    · exact eq_true_of_ne_false fun h => hother t ⟨old, new, hold, hnew, name, h⟩
  · intro h
    refine ⟨fun id hid => ?_, fun id hid => ?_, fun id hid => ?_, fun t ht => ?_, fun t ht => ?_,
      fun t ht => ?_⟩
    · exact hid.2 ((h.ids id).mpr hid.1)
    · obtain ⟨hid, _, htype | ⟨name, hname⟩⟩ := hid
      · exact Bool.false_ne_true (htype.symm.trans (h.types id hid))
      · exact Bool.false_ne_true (hname.symm.trans (h.counted id hid name))
    · exact hid.2 ((h.ids id).mp hid.1)
    · obtain ⟨hnew, hnone⟩ := ht
      rw [← h.triples t, hnone] at hnew
      cases hnew
    · obtain ⟨old, new, hold, hnew, name, hname⟩ := ht
      exact Bool.false_ne_true (hname.symm.trans (h.attributes t old new hold hnew name))
    · obtain ⟨hold, hnone⟩ := ht
      rw [h.triples t, hnone] at hold
      cases hold

/-- **A diff is exact.** It lists the nodes and relationships that one of the two graphs lacks and
those that differ, each with what differs, and nothing else; what relates a listed node is listed
with it; the summary counts what is listed. So it lists nothing just where the graphs agree. -/
theorem diff_exact (a b : Graph) (limit : Int) (d : GraphDiff) (ha : a.WellFormed)
    (hb : b.WellFormed) (h : a.diff b limit = .ok d) :
    NodesExact a b d ∧ RelationshipsExact a b d ∧ Closed a b d ∧ Summarized d ∧
      (Unchanged d ↔ Agree a b) := by
  have hn := nodesExact_of_ok ha hb h
  have hr := relationshipsExact_of_ok ha hb h
  exact ⟨hn, hr, closed_of_exact ha hb hn hr, summarized_of_ok h, unchanged_iff hn hr⟩

/-! ## Where there is a diff -/

/-- Graphs whose nodes and calls can be shown have a diff. -/
theorem diff_ok {a b : Graph} (ha : ∀ id, Showable (a.attributesOf id))
    (hb : ∀ id, Showable (b.attributesOf id)) (hacalls : Cycle.CallsShowable a)
    (hbcalls : Cycle.CallsShowable b) (limit : Int) : ∃ d, a.diff b limit = .ok d := by
  obtain ⟨added, hadded⟩ : ∃ changes, addedNodes a b = .ok changes :=
    exists_mapM_ok fun id _ => nodeChange_ok (hb id) .added id []
  obtain ⟨removed, hremoved⟩ : ∃ changes, removedNodes a b = .ok changes :=
    exists_mapM_ok fun id _ => nodeChange_ok (ha id) .removed id []
  obtain ⟨modified, hmodified⟩ : ∃ changes, modifiedNodes a b = .ok changes :=
    exists_mapM_ok fun e _ => nodeChange_ok (hb e.1) .modified e.1 e.2
  obtain ⟨known, hknown⟩ := Cycle.detect_ok hacalls limit
  obtain ⟨found, hfound⟩ := Cycle.detect_ok hbcalls limit
  have hcycles := Cycle.compare_eq_ok.mpr ⟨known, found, hknown, hfound, rfl⟩
  unfold Graph.diff
  rw [hadded, hremoved, hmodified, hcycles]
  exact ⟨_, rfl⟩

/-- A method that reaches a table of which nothing else is known. -/
def ordersStored : Graph :=
  ((Graph.empty "shop").addNode "orders.place" "method" [("name", .str "place")]).addEdge
    "orders.place" "orders" "ACCESSES" []

/-- What was a method is a component now, and what was stored is sent. -/
def ordersSent : Graph :=
  (((Graph.empty "shop").addNode "orders.place" "component" [("name", .str "place")]).addNode
    "orders.sent" "topic" [("name", .str "orders"),
      ("producers", .arr [.str "orders.place"])]).addEdge
    "orders.place" "orders.sent" "PRODUCES_TO" [("kind", .null)]

theorem diff_exact_ordersSent : ordersStored.WellFormed ∧ ordersSent.WellFormed ∧
    ∃ d, ordersStored.diff ordersSent 10 = .ok d ∧
      NodesExact ordersStored ordersSent d ∧ RelationshipsExact ordersStored ordersSent d ∧
      Closed ordersStored ordersSent d ∧ Summarized d ∧
      (Unchanged d ↔ Agree ordersStored ordersSent) := by
  have hempty : (Graph.empty "shop").WellFormed := Graph.wellFormed_empty _ _
  have hstored : ordersStored.WellFormed :=
    Graph.wellFormed_addEdge (Graph.wellFormed_addNode hempty _ _ _) _ _ _ _
  have hsent : ordersSent.WellFormed :=
    Graph.wellFormed_addEdge
      (Graph.wellFormed_addNode (Graph.wellFormed_addNode hempty _ _ _) _ _ _) _ _ _ _
  have hstoredShown : ∀ id, Showable (ordersStored.attributesOf id) := by
    intro id
    unfold ordersStored
    rw [Graph.attributesOf_addEdge, Graph.addNode, Graph.attributesOf_mergeNode]
    split
    · exact ⟨⟨"method", rfl⟩, some "place", rfl⟩
    · exact ⟨⟨"unknown", rfl⟩, none, rfl⟩
  have hsentShown : ∀ id, Showable (ordersSent.attributesOf id) := by
    intro id
    unfold ordersSent
    rw [Graph.attributesOf_addEdge, Graph.addNode, Graph.attributesOf_mergeNode]
    split
    · exact ⟨⟨"topic", rfl⟩, some "orders", rfl⟩
    · rw [Graph.addNode, Graph.attributesOf_mergeNode]
      split
      · exact ⟨⟨"component", rfl⟩, some "place", rfl⟩
      · exact ⟨⟨"unknown", rfl⟩, none, rfl⟩
  have hnocalls : ∀ g : Graph, g.callEdges = [] → Cycle.CallsShowable g := by
    intro g hg e he
    rw [hg] at he
    cases he
  obtain ⟨d, hd⟩ := diff_ok hstoredShown hsentShown (hnocalls ordersStored (by decide))
    (hnocalls ordersSent (by decide)) 10
  exact ⟨hstored, hsent, d, hd, diff_exact ordersStored ordersSent 10 d hstored hsent hd⟩

end ArchGraph.Diff
