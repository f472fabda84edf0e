import ArchGraph.CallGraph.Registry
import ArchGraph.Binding
import Mathlib.Data.List.Nodup

/-!
Orders that do not depend on how things were listed: sorting two listings of the same things gives
one list, as soon as things that tie are equal.
-/

namespace ArchGraph

theorem mergeSort_eq_of_perm {α : Type} {le : α → α → Bool}
    (trans : ∀ a b c, le a b = true → le b c = true → le a c = true)
    (total : ∀ a b, (le a b || le b a) = true) {xs ys : List α}
    (anti : ∀ a ∈ xs, ∀ b ∈ xs, le a b = true → le b a = true → a = b) (hp : xs.Perm ys) :
    xs.mergeSort le = ys.mergeSort le := by
  have hx := List.mergeSort_perm xs le
  have hy := List.mergeSort_perm ys le
  have sx := List.pairwise_mergeSort trans total xs
  have sy := List.pairwise_mergeSort trans total ys
  refine List.Perm.eq_of_pairwise ?_ sx sy (hx.trans (hp.trans hy.symm))
  intro a b ha hb hab hba
  exact anti a (hx.mem_iff.mp ha) b (hp.mem_iff.mpr (hy.mem_iff.mp hb)) hab hba

/-- Sorting what is free of repetition gives a list that rises at every step. -/
theorem pairwise_mergeSort_of_nodup {α : Type} {le : α → α → Bool} {lt : α → α → Prop}
    (trans : ∀ a b c, le a b = true → le b c = true → le a c = true)
    (total : ∀ a b, (le a b || le b a) = true) (strict : ∀ a b, le a b = true → a ≠ b → lt a b)
    {xs : List α} (hn : xs.Nodup) : (xs.mergeSort le).Pairwise lt := by
  have hsorted := List.pairwise_mergeSort trans total xs
  have hnodup : (xs.mergeSort le).Nodup := (List.mergeSort_perm xs le).nodup_iff.mpr hn
  exact hsorted.imp₂ (fun a b => strict a b) hnodup

theorem nameLE_trans (a b c : String) (hab : decide (a ≤ b) = true) (hbc : decide (b ≤ c) = true) :
    decide (a ≤ c) = true :=
  decide_eq_true (String.le_trans (of_decide_eq_true hab) (of_decide_eq_true hbc))

theorem nameLE_total (a b : String) : (decide (a ≤ b) || decide (b ≤ a)) = true := by
  rcases String.le_total a b with h | h <;> simp [h]

theorem nameLE_antisymm (a b : String) (hab : decide (a ≤ b) = true) (hba : decide (b ≤ a) = true) :
    a = b :=
  String.le_antisymm (of_decide_eq_true hab) (of_decide_eq_true hba)

theorem lt_of_nameLE_of_ne (a b : String) (hab : decide (a ≤ b) = true) (hne : a ≠ b) : a < b := by
  by_cases h : a < b
  · exact h
  · exact absurd (String.le_antisymm (of_decide_eq_true hab) (String.not_lt.mp h)) hne

theorem name_trichotomy (a b : String) : a < b ∨ a = b ∨ b < a := by
  by_cases he : a = b
  · exact .inr (.inl he)
  · rcases String.le_total a b with h | h
    · exact .inl (lt_of_nameLE_of_ne a b (decide_eq_true h) he)
    · exact .inr (.inr (lt_of_nameLE_of_ne b a (decide_eq_true h) (Ne.symm he)))

theorem Text.sorted_perm {xs ys : List String} (hp : xs.Perm ys) : sorted xs = sorted ys :=
  mergeSort_eq_of_perm nameLE_trans nameLE_total (fun a _ b _ => nameLE_antisymm a b) hp

theorem Text.sorted_of_pairwise {xs : List String} (h : xs.Pairwise (· ≤ ·)) : sorted xs = xs :=
  List.mergeSort_of_pairwise (h.imp decide_eq_true)

theorem Text.sorted_strict {xs : List String} (h : xs.Nodup) : (sorted xs).Pairwise (· < ·) :=
  pairwise_mergeSort_of_nodup nameLE_trans nameLE_total lt_of_nameLE_of_ne h

theorem Text.mem_sorted {xs : List String} {x : String} : x ∈ sorted xs ↔ x ∈ xs :=
  List.mem_mergeSort

theorem Text.sorted_pairwise (xs : List String) : (sorted xs).Pairwise (· ≤ ·) :=
  (List.pairwise_mergeSort nameLE_trans nameLE_total xs).imp of_decide_eq_true

/-- The first in order is the least. -/
theorem Text.find?_sorted_eq_some {xs : List String} {p : String → Bool} {x : String} :
    (sorted xs).find? p = some x ↔ (x ∈ xs ∧ p x = true) ∧ ∀ y ∈ xs, p y = true → x ≤ y := by
  have hleast : ∀ {z}, (sorted xs).find? p = some z → ∀ y ∈ xs, p y = true → z ≤ y := by
    intro z hfind y hy hpy
    obtain ⟨_, front, rest, hsplit, hfront⟩ := List.find?_eq_some_iff_append.mp hfind
    have hpairs := sorted_pairwise xs
    rw [hsplit, List.pairwise_append, List.pairwise_cons] at hpairs
    have hy' := mem_sorted.mpr hy
    rw [hsplit, List.mem_append, List.mem_cons] at hy'
    rcases hy' with hy' | rfl | hy'
    · exact absurd hpy (by simpa using hfront y hy')
    · exact String.le_refl _
    · exact hpairs.2.1.1 y hy'
  constructor
  · intro hfind
    exact ⟨⟨mem_sorted.mp (List.mem_of_find?_eq_some hfind), List.find?_some hfind⟩, hleast hfind⟩
  · rintro ⟨⟨hx, hpx⟩, hle⟩
    obtain ⟨z, hz⟩ :=
      Option.isSome_iff_exists.mp (List.find?_isSome.mpr ⟨x, mem_sorted.mpr hx, hpx⟩)
    have hxz := hle z (mem_sorted.mp (List.mem_of_find?_eq_some hz)) (List.find?_some hz)
    rw [hz, String.le_antisymm hxz (hleast hz x hx hpx)]

namespace Component

theorem precedes_iff (a b : Component) : a.precedes b = true ↔
    a.kind.rank < b.kind.rank ∨
      a.kind.rank = b.kind.rank ∧ a.qualifiedName ≤ b.qualifiedName := by
  simp [precedes]

theorem precedes_trans (a b c : Component) (hab : a.precedes b = true)
    (hbc : b.precedes c = true) : a.precedes c = true := by
  rw [precedes_iff] at hab hbc ⊢
  rcases hab with hab | ⟨hab, hab'⟩ <;> rcases hbc with hbc | ⟨hbc, hbc'⟩
  · exact .inl (by omega)
  · exact .inl (by omega)
  · exact .inl (by omega)
  · exact .inr ⟨hab.trans hbc, String.le_trans hab' hbc'⟩

theorem precedes_total (a b : Component) : (a.precedes b || b.precedes a) = true := by
  rw [Bool.or_eq_true, precedes_iff, precedes_iff]
  rcases Nat.lt_trichotomy a.kind.rank b.kind.rank with h | h | h
  · exact .inl (.inl h)
  · rcases String.le_total a.qualifiedName b.qualifiedName with h' | h'
    · exact .inl (.inr ⟨h, h'⟩)
    · exact .inr (.inr ⟨h.symm, h'⟩)
  · exact .inr (.inl h)

theorem name_eq_of_precedes {a b : Component} (hab : a.precedes b = true)
    (hba : b.precedes a = true) : a.qualifiedName = b.qualifiedName := by
  rw [precedes_iff] at hab hba
  rcases hab with hab | ⟨_, hab⟩ <;> rcases hba with hba | ⟨_, hba⟩
  · omega
  · omega
  · omega
  · exact String.le_antisymm hab hba

end Component

theorem registrationOrder_perm {cs ds : List Component} (hp : cs.Perm ds)
    (hn : (cs.map (·.qualifiedName)).Nodup) : registrationOrder cs = registrationOrder ds := by
  apply mergeSort_eq_of_perm Component.precedes_trans Component.precedes_total _ hp
  intro a ha b hb hab hba
  exact List.inj_on_of_nodup_map hn ha hb (Component.name_eq_of_precedes hab hba)

theorem Binding.byName_perm {cs ds : List Component} (hp : cs.Perm ds)
    (hn : (cs.map (·.qualifiedName)).Nodup) : byName cs = byName ds := by
  apply mergeSort_eq_of_perm _ _ _ hp
  · intro a b c
    exact nameLE_trans a.qualifiedName b.qualifiedName c.qualifiedName
  · intro a b
    exact nameLE_total a.qualifiedName b.qualifiedName
  · intro a ha b hb hab hba
    exact List.inj_on_of_nodup_map hn ha hb (nameLE_antisymm _ _ hab hba)

theorem Binding.byName_pairwise (cs : List Component) :
    (byName cs).Pairwise (fun a b => a.qualifiedName ≤ b.qualifiedName) := by
  refine (List.pairwise_mergeSort ?_ ?_ cs).imp of_decide_eq_true
  · intro a b c
    exact nameLE_trans a.qualifiedName b.qualifiedName c.qualifiedName
  · intro a b
    exact nameLE_total a.qualifiedName b.qualifiedName

end ArchGraph
