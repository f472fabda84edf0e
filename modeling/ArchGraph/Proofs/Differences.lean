import ArchGraph.Diff.Compare
import ArchGraph.Proofs.Sorting
import ArchGraph.Proofs.Table
import Mathlib.Algebra.Ring.Int.Defs

/-!
The parts of a diff: the attributes in which two nodes or two relationships differ, how a node is
shown, and the counts by type.

Values are compared by `Json.sameValue`, so the statements hold of every value there is, one that
differs from itself included.
-/

namespace ArchGraph

/-! ## Counting by name -/

/-- A table that counts the names of a list: each name once, how often it occurs, and no more in all
than there are names. -/
structure Tallied (names : List String) (counts : Table String Int) : Prop where
  keys : counts.keys = distinct names
  count : ∀ name, (counts.find? name).getD 0 = names.count name
  total : counts.values.sum = names.length

theorem sum_upsertIn (name : String) (counts : List (String × Int)) :
    ((Table.upsertIn name (fun n => n.getD 0 + 1) counts).map (·.2)).sum =
      (counts.map (·.2)).sum + 1 := by
  induction counts with
  | nil => rfl
  | cons e counts ih =>
      obtain ⟨other, n⟩ := e
      unfold Table.upsertIn
      split
      · simp only [List.map_cons, List.sum_cons, Option.getD_some]
        omega
      · simp only [List.map_cons, List.sum_cons, ih]
        omega

/-- Count one more occurrence of a name. -/
def countOne (counts : Table String Int) (name : String) : Table String Int :=
  counts.upsert name (fun n => n.getD 0 + 1)

theorem keys_foldl_countOne (names : List String) (counts : Table String Int) :
    (names.foldl countOne counts).keys = names.foldl addNew counts.keys := by
  induction names generalizing counts with
  | nil => rfl
  | cons first names ih =>
      rw [List.foldl_cons, List.foldl_cons, ih, countOne, Table.keys_upsert]

theorem find?_foldl_countOne (names : List String) (counts : Table String Int) (name : String) :
    ((names.foldl countOne counts).find? name).getD 0 =
      (counts.find? name).getD 0 + names.count name := by
  induction names generalizing counts with
  | nil => simp
  | cons first names ih =>
      rw [List.foldl_cons, ih, countOne, Table.find?_upsert, List.count_cons]
      by_cases h : name = first
      · subst h
        simp only [if_true, Option.getD_some, beq_self_eq_true]
        omega
      · have hb : (first == name) = false := by simpa using fun e : first = name => h e.symm
        simp [h, hb]

theorem sum_foldl_countOne (names : List String) (counts : Table String Int) :
    (names.foldl countOne counts).values.sum = counts.values.sum + names.length := by
  induction names generalizing counts with
  | nil => simp
  | cons first names ih =>
      have hstep : (countOne counts first).values.sum = counts.values.sum + 1 :=
        sum_upsertIn first counts.entries
      rw [List.foldl_cons, ih, hstep, List.length_cons]
      omega

theorem tallied_tally (names : List String) : Tallied names (tally names) where
  keys := keys_foldl_countOne names ∅
  count := by
    intro name
    have hcount := find?_foldl_countOne names ∅ name
    rw [Table.find?_empty, Option.getD_none, Int.zero_add] at hcount
    exact hcount
  total := by
    have htotal := sum_foldl_countOne names ∅
    have hnone : (∅ : Table String Int).values.sum = 0 := rfl
    rw [hnone, Int.zero_add] at htotal
    exact htotal

namespace Diff

/-! ## Attributes that differ -/

/-- The list names, in rising order, the attributes that differ, each with both values. -/
structure ListsDifferences (old new : String → Json) (ps : List PropertyDiff) : Prop where
  names : ∀ name, name ∈ ps.map (·.name) ↔ (old name).sameValue (new name) = false
  values : ∀ p ∈ ps, p.oldValue = old p.name ∧ p.newValue = new p.name
  sorted : (ps.map (·.name)).Pairwise (· < ·)

theorem ListsDifferences.eq_nil_iff {old new : String → Json} {ps : List PropertyDiff}
    (h : ListsDifferences old new ps) :
    ps = [] ↔ ∀ name, (old name).sameValue (new name) = true := by
  constructor
  · rintro rfl name
    have hname := h.names name
    simpa using hname
  · intro hsame
    rw [List.eq_nil_iff_forall_not_mem]
    intro p hp
    have hdiffers := (h.names p.name).mp (List.mem_map_of_mem hp)
    rw [hsame p.name] at hdiffers
    cases hdiffers

theorem attribute_of_notMem {attributes : Attributes} {name : String}
    (h : name ∉ attributes.keys) : attributes.attribute name = .null := by
  unfold Table.attribute
  cases hfind : attributes.find? name with
  | none => rfl
  | some value =>
      have hmem : name ∈ attributes.keys := by
        rw [← Table.contains_iff, Table.contains, hfind]
        rfl
      exact absurd hmem h

theorem properties_names (old new : Attributes) :
    (properties old new).map (·.name) =
      (Text.sorted (distinct (old.keys ++ new.keys))).filter
        (fun name => !(old.attribute name).sameValue (new.attribute name)) := by
  unfold properties
  induction Text.sorted (distinct (old.keys ++ new.keys)) with
  | nil => rfl
  | cons name names ih =>
      cases h : (old.attribute name).sameValue (new.attribute name) with
      | true => simp [h, ih]
      | false => simp [h, ih]

/-- An attribute that neither side has counts as null on both, so looking at the names of both is
enough. -/
theorem properties_lists (old new : Attributes) :
    ListsDifferences old.attribute new.attribute (properties old new) where
  names := by
    intro name
    rw [properties_names, List.mem_filter, Text.mem_sorted, mem_distinct, List.mem_append,
      Bool.not_eq_true']
    constructor
    · exact fun h => h.2
    · intro hdiffers
      refine ⟨?_, hdiffers⟩
      by_contra hnone
      rw [not_or] at hnone
      rw [attribute_of_notMem hnone.1, attribute_of_notMem hnone.2] at hdiffers
      simp [Json.sameValue] at hdiffers
  values := by
    intro p hp
    obtain ⟨name, _, hname⟩ := List.mem_filterMap.mp hp
    split at hname
    · cases hname
    · obtain rfl := Option.some.inj hname
      exact ⟨rfl, rfl⟩
  sorted := by
    rw [properties_names]
    exact (Text.sorted_strict (nodup_distinct _)).filter _

/-! ## Nodes that differ -/

/-- The names that count for a node: those of its type, if it has one that is known. -/
def countedNames (attributes : Attributes) : List String :=
  match attributes.attribute Graph.typeName with
  | .str written => (Coded.ofCode? written : Option NodeType).elim [] NodeType.comparedNames
  | _ => []

/-- What counts of a node under a name. -/
def counted (attributes : Attributes) (name : String) : Json :=
  if name ∈ countedNames attributes then attributes.attribute name else .null

theorem lookup_map_self (names : List String) (f : String → Json) (name : String) :
    (names.map (fun n => (n, f n))).lookup name = if name ∈ names then some (f name) else none := by
  induction names with
  | nil => rfl
  | cons n names ih =>
      rw [List.map_cons, List.lookup_cons]
      by_cases h : name = n
      · simp [h]
      · have hb : (name == n) = false := by simpa using h
        simp [hb, ih, h]

theorem attribute_comparedProperties (attributes : Attributes) (name : String) :
    (Graph.comparedProperties attributes).attribute name = counted attributes name := by
  have htable : Graph.comparedProperties attributes =
      ⟨(countedNames attributes).map (fun n => (n, attributes.attribute n))⟩ := by
    unfold Graph.comparedProperties countedNames
    have htype : attributes.attribute Graph.typeName =
      (attributes.find? Graph.typeName).getD .null := rfl
    rw [htype]
    cases attributes.find? Graph.typeName with
    | none => rfl
    | some type => cases type <;> rfl
  rw [htable, Table.attribute, Table.find?, lookup_map_self]
  unfold counted
  split <;> rfl

/-- The types of two nodes differ, or something that counts for one of them. -/
def NodesDiffer (old new : Attributes) : Prop :=
  (old.attribute Graph.typeName).sameValue (new.attribute Graph.typeName) = false ∨
    ∃ name, (counted old name).sameValue (counted new name) = false

/-- A change of the type. -/
def typeChange (old new : Attributes) : List PropertyDiff :=
  if (old.attribute Graph.typeName).sameValue (new.attribute Graph.typeName) then []
  else [⟨Graph.typeName, old.attribute Graph.typeName, new.attribute Graph.typeName⟩]

/-- The list has a change of the type first and then what else differs of what counts. -/
def ListsNodeDifferences (old new : Attributes) (ps : List PropertyDiff) : Prop :=
  ∃ rest, ps = typeChange old new ++ rest ∧ ListsDifferences (counted old) (counted new) rest

theorem nodeProperties_lists (old new : Attributes) :
    ListsNodeDifferences old new (nodeProperties old new) := by
  refine ⟨_, rfl, ?_⟩
  have hlists := properties_lists (Graph.comparedProperties old) (Graph.comparedProperties new)
  have hold := funext (attribute_comparedProperties old)
  have hnew := funext (attribute_comparedProperties new)
  rwa [hold, hnew] at hlists

theorem nodeProperties_ne_nil (old new : Attributes) :
    nodeProperties old new ≠ [] ↔ NodesDiffer old new := by
  obtain ⟨rest, hsplit, hrest⟩ := nodeProperties_lists old new
  rw [hsplit, Ne, List.append_eq_nil_iff, not_and_or, hrest.eq_nil_iff]
  unfold NodesDiffer typeChange
  cases (old.attribute Graph.typeName).sameValue (new.attribute Graph.typeName) <;> simp

/-! ## Lists of changes -/

/-- The list has a change for exactly the keys with a property, and is rising in them. -/
structure Covers {κ γ : Type} (lt : κ → κ → Prop) (key : γ → κ) (P : κ → Prop) (changes : List γ) :
    Prop where
  keys : ∀ k, k ∈ changes.map key ↔ P k
  sorted : (changes.map key).Pairwise lt

theorem Covers.eq_nil_iff {κ γ : Type} {lt : κ → κ → Prop} {key : γ → κ} {P : κ → Prop}
    {changes : List γ} (h : Covers lt key P changes) : changes = [] ↔ ∀ k, ¬ P k := by
  constructor
  · rintro rfl k hk
    simpa using (h.keys k).mpr hk
  · intro hnone
    rw [List.eq_nil_iff_forall_not_mem]
    intro c hc
    exact hnone _ ((h.keys (key c)).mp (List.mem_map_of_mem hc))

theorem keys_of_differing {κ : Type} (f : κ → List PropertyDiff) (ks : List κ) :
    ((ks.map (fun k => (k, f k))).filter (fun e => !e.2.isEmpty)).map (·.1) =
      ks.filter (fun k => !(f k).isEmpty) := by
  induction ks with
  | nil => rfl
  | cons k ks ih =>
      cases h : (f k).isEmpty with
      | true => simp [h, ih]
      | false => simp [h, ih]

/-! ## How a node is shown -/

/-- The type of the node and its name are texts, if it has them. -/
def Showable (attributes : Attributes) : Prop :=
  (∃ type, (attributes.find? Graph.typeName).getD (.str "unknown") = .str type) ∧
    ∃ name?, shownName attributes = .ofText? name?

theorem nodeChange_ok {attributes : Attributes} (h : Showable attributes) (change : ChangeType)
    (id : String) (differing : List PropertyDiff) :
    ∃ c, nodeChange change id attributes differing = .ok c := by
  obtain ⟨⟨type, htype⟩, name?, hname⟩ := h
  unfold nodeChange
  rw [htype, hname]
  cases name? <;> cases change <;> exact ⟨_, rfl⟩

/-- How a node is shown as changed: its type and its name are texts, so they are those it has. -/
structure Shows (change : ChangeType) (attributes : Attributes) (c : NodeChange) : Prop where
  change : c.change = change
  type : (attributes.find? Graph.typeName).getD (.str "unknown") = .str c.nodeType
  name : shownName attributes = .ofText? c.name

/-- A change that can be read says what was written. -/
theorem of_decode_ok {change : ChangeType} {id : String} {type name : Json} {c : NodeChange}
    (h : NodeChange.decode (.obj [("node_id", .str id), ("node_type", type), ("name", name),
      ("change_type", Coded.toJson change)]) = .ok c) :
    c.nodeId = id ∧ c.change = change ∧ type = .str c.nodeType ∧ name = .ofText? c.name := by
  cases type with
  | str type =>
      cases name with
      | null => cases change <;> cases h <;> exact ⟨rfl, rfl, rfl, rfl⟩
      | str name => cases change <;> cases h <;> exact ⟨rfl, rfl, rfl, rfl⟩
      | _ => cases change <;> cases h
  | _ => cases name <;> cases change <;> cases h

theorem nodeChange_eq_ok {change : ChangeType} {id : String} {attributes : Attributes}
    {differing : List PropertyDiff} {c : NodeChange}
    (h : nodeChange change id attributes differing = .ok c) :
    c.nodeId = id ∧ c.properties = differing ∧ Shows change attributes c := by
  unfold nodeChange at h
  split at h
  · rename_i shown hshown
    cases h
    obtain ⟨hid, hchange, htype, hname⟩ := of_decode_ok hshown
    exact ⟨hid, rfl, hchange, htype, hname⟩
  · cases h

end Diff

end ArchGraph
