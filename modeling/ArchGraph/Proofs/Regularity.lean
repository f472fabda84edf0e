import ArchGraph.Proofs.Multigraph

/-!
Values that equal themselves. Values are compared by what they stand for, so a number that is none
differs from itself, and so does whatever holds one; every other value is the same as itself
(`Json.WellFormed.regular`). A graph made of such values holds no others.
-/

namespace ArchGraph

/-! ## Values that are the same as themselves -/

/-- A value that equals itself: any but one with a number in it that does not. -/
def Json.Regular (v : Json) : Prop := v.sameValue v = true

namespace Json

@[simp] theorem regular_null : Json.null.Regular := by simp [Regular, sameValue]

@[simp] theorem regular_str (s : String) : (Json.str s).Regular := by simp [Regular, sameValue]

@[simp] theorem regular_int (n : Int) : (Json.int n).Regular := by
  simp [Regular, sameValue, sameValue.sameNumber, number?, Number.sameValue]

@[simp] theorem regular_bool (b : Bool) : (Json.bool b).Regular := by
  simp [Regular, sameValue, sameValue.sameNumber, number?, Number.sameValue]

@[simp] theorem regular_ofText? (s : Option String) : (Json.ofText? s).Regular := by
  cases s with
  | none => exact regular_null
  | some s => exact regular_str s

@[simp] theorem regular_ofInt? (n : Option Int) : (Json.ofInt? n).Regular := by
  cases n with
  | none => exact regular_null
  | some n => exact regular_int n

/-- A value that a JSON text can hold: its numbers are numbers, and no object in it has a key
twice. -/
inductive WellFormed : Json → Prop where
  | null : WellFormed .null
  | bool (b : Bool) : WellFormed (.bool b)
  | int (n : Int) : WellFormed (.int n)
  | float {x : Binary64} (h : x ≠ .nan) : WellFormed (.float x)
  | str (s : String) : WellFormed (.str s)
  | arr {items : List Json} (h : ∀ item ∈ items, WellFormed item) : WellFormed (.arr items)
  | obj {entries : List (String × Json)} (once : (entries.map (·.1)).Nodup)
      (h : ∀ e ∈ entries, WellFormed e.2) : WellFormed (.obj entries)

theorem regular_float {x : Binary64} (h : x ≠ .nan) : (Json.float x).Regular := by
  cases x with
  | nan => exact absurd rfl h
  | _ =>
      simp [Regular, sameValue, sameValue.sameNumber, number?, Number.sameValue, Binary64.sameValue]

theorem regular_arr {items : List Json} (h : ∀ item ∈ items, item.Regular) :
    (Json.arr items).Regular := by
  have hitems : sameItems items items = true := by
    induction items with
    | nil => simp [sameItems]
    | cons item items ih =>
        obtain ⟨hitem, hrest⟩ := List.forall_mem_cons.mp h
        rw [sameItems, ih hrest, Bool.and_true]
        exact hitem
  rw [Regular, sameValue, hitems]

@[simp] theorem regular_ofTexts (names : List String) : (Json.ofTexts names).Regular :=
  regular_arr (by simp)

theorem regular_obj {entries : List (String × Json)} (once : (entries.map (·.1)).Nodup)
    (h : ∀ e ∈ entries, e.2.Regular) : (Json.obj entries).Regular := by
  -- Each entry is looked up among all of them, so the induction is on a part of the entries.
  have part : ∀ xs : List (String × Json), (∀ e ∈ xs, e ∈ entries) →
      sameEntries xs entries = true := by
    intro xs
    induction xs with
    | nil => simp [sameEntries]
    | cons e xs ih =>
        intro hsub
        obtain ⟨hmem, hsub⟩ := List.forall_mem_cons.mp hsub
        have hfind : entries.lookup e.1 = some e.2 := Table.find?_of_mem (t := ⟨entries⟩) once hmem
        rw [sameEntries, hfind, ih hsub, Bool.and_true]
        exact h e hmem
  rw [Regular, sameValue, part entries (fun _ he => he), Bool.and_true, beq_self_eq_true]

theorem WellFormed.regular {v : Json} (h : v.WellFormed) : v.Regular := by
  induction h with
  | null => exact regular_null
  | bool b => exact regular_bool b
  | int n => exact regular_int n
  | float h => exact regular_float h
  | str s => exact regular_str s
  | arr _ ih => exact regular_arr ih
  | obj once _ ih => exact regular_obj once ih

end Json

theorem regular_insertAll {attributes : Attributes} {entries : List (String × Json)}
    (h : ∀ name, (attributes.attribute name).Regular) (hnew : ∀ e ∈ entries, e.2.Regular)
    (name : String) : ((attributes.insertAll entries).attribute name).Regular := by
  unfold Table.attribute
  rw [Table.find?_insertAll]
  cases hfind : entries.reverse.lookup name with
  | none => exact h name
  | some v =>
      have hmem : (name, v) ∈ entries.reverse :=
        Table.mem_entries_of_find? (t := ⟨entries.reverse⟩) hfind
      exact hnew _ (List.mem_reverse.mp hmem)

namespace Graph

/-- Every value that a graph holds is regular. -/
structure Regular (g : Graph) : Prop where
  nodes : ∀ id name, ((g.attributesOf id).attribute name).Regular
  edges : ∀ {source target type attributes}, g.relationship? source target type = some attributes →
    ∀ name, (attributes.attribute name).Regular

variable {g : Graph}

theorem regular_empty (space : String) (attributes : Attributes) :
    (Graph.mk space attributes ∅).Regular :=
  ⟨fun _ _ => Json.regular_null, fun h => by cases h⟩

theorem Regular.mergeNode (h : g.Regular) (id : String) {attributes : List (String × Json)}
    (hnew : ∀ e ∈ attributes, e.2.Regular) : (g.mergeNode id attributes).Regular where
  nodes := by
    intro other name
    rw [attributesOf_mergeNode]
    split
    · exact regular_insertAll (h.nodes id) hnew name
    · exact h.nodes other name
  edges := by
    intro source target type found hfound
    rw [relationship?_mergeNode] at hfound
    exact h.edges hfound

theorem Regular.addNode (h : g.Regular) (id type : String) {attributes : List (String × Json)}
    (hnew : ∀ e ∈ attributes, e.2.Regular) : (g.addNode id type attributes).Regular := by
  apply h.mergeNode
  exact List.forall_mem_cons.mpr ⟨Json.regular_str type, hnew⟩

theorem Regular.addEdge (h : g.Regular) (source target type : String)
    {attributes : List (String × Json)} (hnew : ∀ e ∈ attributes, e.2.Regular) :
    (g.addEdge source target type attributes).Regular where
  nodes := by
    intro id name
    rw [attributesOf_addEdge]
    exact h.nodes id name
  edges := by
    intro s t k found hfound
    rw [relationship?_addEdge] at hfound
    split at hfound
    · obtain rfl := Option.some.inj hfound
      apply regular_insertAll _ hnew
      cases hknown : g.relationship? source target type with
      | none => exact fun _ => Json.regular_null
      | some known => exact h.edges hknown
    · exact h.edges hfound

end Graph

end ArchGraph
