/-!
Lists without repetition, in order of first arrival.
-/

namespace ArchGraph

variable {α : Type} [DecidableEq α]

/-- Append `x` unless it is there. -/
def addNew (xs : List α) (x : α) : List α := if x ∈ xs then xs else xs ++ [x]

/-- Keep the first occurrence of each element. -/
def distinct (xs : List α) : List α := xs.foldl addNew []

@[simp] theorem mem_addNew {xs : List α} {x y : α} : y ∈ addNew xs x ↔ y ∈ xs ∨ y = x := by
  by_cases h : x ∈ xs <;> simp [addNew, h]
  rintro rfl
  exact h

theorem nodup_addNew {xs : List α} (h : xs.Nodup) (x : α) : (addNew xs x).Nodup := by
  by_cases hx : x ∈ xs
  · simpa [addNew, hx] using h
  · simp only [addNew, hx, if_false]
    rw [List.nodup_append]
    exact ⟨h, by simp, fun a ha b hb => by
      rw [List.mem_singleton] at hb
      subst hb
      exact fun hab => hx (hab ▸ ha)⟩

theorem mem_foldl_addNew {xs kept : List α} {y : α} :
    y ∈ xs.foldl addNew kept ↔ y ∈ kept ∨ y ∈ xs := by
  induction xs generalizing kept with
  | nil => simp
  | cons x xs ih => simp [ih, or_assoc]

theorem nodup_foldl_addNew {xs kept : List α} (h : kept.Nodup) : (xs.foldl addNew kept).Nodup := by
  induction xs generalizing kept with
  | nil => exact h
  | cons x xs ih => exact ih (nodup_addNew h x)

@[simp] theorem mem_distinct {xs : List α} {y : α} : y ∈ distinct xs ↔ y ∈ xs := by
  simp [distinct, mem_foldl_addNew]

theorem nodup_distinct (xs : List α) : (distinct xs).Nodup :=
  nodup_foldl_addNew List.nodup_nil

end ArchGraph
