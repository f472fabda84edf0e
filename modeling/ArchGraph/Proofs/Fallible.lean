import ArchGraph.Schema.Decoder
import Mathlib.Data.List.Forall2

/-!
Computations that may fail, taken apart: what it says of the parts that the whole succeeded.
-/

namespace ArchGraph

variable {α β ε : Type}

theorem bind_eq_ok {x : Except ε α} {f : α → Except ε β} {b : β} :
    (x >>= f) = .ok b ↔ ∃ a, x = .ok a ∧ f a = .ok b := by
  cases x with
  | error e => simp [bind, Except.bind]
  | ok a => simp [bind, Except.bind]

theorem map_eq_of_mapM {f : α → Except ε β} {xs : List α} {ys : List β}
    (h : xs.mapM f = .ok ys) : xs.map f = ys.map .ok := by
  induction xs generalizing ys with
  | nil =>
      obtain rfl : [] = ys := Except.ok.inj h
      rfl
  | cons x xs ih =>
      rw [List.mapM_cons] at h
      obtain ⟨y, hy, h⟩ := bind_eq_ok.mp h
      obtain ⟨ys', hys, h⟩ := bind_eq_ok.mp h
      obtain rfl : y :: ys' = ys := Except.ok.inj h
      rw [List.map_cons, List.map_cons, hy, ih hys]

/-- Each result stands where its argument stood. -/
theorem forall₂_of_mapM {f : α → Except ε β} {xs : List α} {ys : List β}
    (h : xs.mapM f = .ok ys) : List.Forall₂ (fun x y => f x = .ok y) xs ys := by
  induction xs generalizing ys with
  | nil =>
      obtain rfl : [] = ys := Except.ok.inj h
      exact .nil
  | cons x xs ih =>
      rw [List.mapM_cons] at h
      obtain ⟨y, hy, h⟩ := bind_eq_ok.mp h
      obtain ⟨ys', hys, h⟩ := bind_eq_ok.mp h
      obtain rfl : y :: ys' = ys := Except.ok.inj h
      exact .cons hy (ih hys)

theorem mem_of_mapM {f : α → Except ε β} {xs : List α} {ys : List β}
    (h : xs.mapM f = .ok ys) {y : β} (hy : y ∈ ys) : ∃ x ∈ xs, f x = .ok y := by
  have hmem : Except.ok y ∈ xs.map f := map_eq_of_mapM h ▸ List.mem_map_of_mem hy
  exact List.mem_map.mp hmem

theorem mapM_mem {f : α → Except ε β} {xs : List α} {ys : List β}
    (h : xs.mapM f = .ok ys) {x : α} (hx : x ∈ xs) : ∃ y ∈ ys, f x = .ok y := by
  have hmem : f x ∈ ys.map Except.ok := map_eq_of_mapM h ▸ List.mem_map_of_mem hx
  obtain ⟨y, hy, hfx⟩ := List.mem_map.mp hmem
  exact ⟨y, hy, hfx.symm⟩

/-- What can be read off every result is in the order of the arguments. -/
theorem map_of_mapM {κ : Type} {f : α → Except ε β} {key : β → κ} {tag : α → κ}
    (hkey : ∀ x y, f x = .ok y → key y = tag x) {xs : List α} {ys : List β}
    (h : xs.mapM f = .ok ys) : ys.map key = xs.map tag := by
  induction xs generalizing ys with
  | nil =>
      obtain rfl : [] = ys := Except.ok.inj h
      rfl
  | cons x xs ih =>
      rw [List.mapM_cons] at h
      obtain ⟨y, hy, h⟩ := bind_eq_ok.mp h
      obtain ⟨ys', hys, h⟩ := bind_eq_ok.mp h
      obtain rfl : y :: ys' = ys := Except.ok.inj h
      rw [List.map_cons, List.map_cons, hkey x y hy, ih hys]

theorem exists_mapM_ok {f : α → Except ε β} {xs : List α}
    (h : ∀ x ∈ xs, ∃ y, f x = .ok y) : ∃ ys, xs.mapM f = .ok ys := by
  induction xs with
  | nil => exact ⟨[], rfl⟩
  | cons x xs ih =>
      obtain ⟨y, hy⟩ := h x List.mem_cons_self
      obtain ⟨ys, hys⟩ := ih (fun z hz => h z (List.mem_cons_of_mem _ hz))
      refine ⟨y :: ys, ?_⟩
      rw [List.mapM_cons, hy, hys]
      rfl

/-- A loop none of whose steps fails. -/
theorem foldlM_ok {f : β → α → Except ε β} {g : β → α → β} {xs : List α}
    (h : ∀ b, ∀ x ∈ xs, f b x = .ok (g b x)) (b : β) : xs.foldlM f b = .ok (xs.foldl g b) := by
  induction xs generalizing b with
  | nil => rfl
  | cons x xs ih =>
      obtain ⟨hx, hxs⟩ := forall_and.mp fun b => List.forall_mem_cons.mp (h b)
      rw [List.foldlM_cons, hx b, List.foldl_cons]
      exact ih hxs (g b x)

/-! ## Documents that can be read -/

theorem Checked.seq_eq_ok {f : Checked (α → β)} {x : Checked α} {b : β} :
    (f <*> x) = .ok b ↔ ∃ h a, f = .ok h ∧ x = .ok a ∧ h a = b := by
  cases f <;> cases x <;> simp [Seq.seq, combine]

theorem Checked.under_eq_ok {step : PathStep} {x : Checked α} {a : α} :
    x.under step = .ok a ↔ x = .ok a := by
  cases x <;> simp [under]

theorem Decoder.text_eq_ok {v : Json} {s : String} : text v = .ok s ↔ v = .str s := by
  cases v <;> simp [text, Checked.refuse]

theorem Decoder.nullable_text_eq_ok {v : Json} {s? : Option String} :
    nullable text v = .ok s? ↔ v = .ofText? s? := by
  cases v <;> cases s? <;> simp [nullable, text, Checked.refuse, Json.ofText?, Json.ofOption,
    Functor.map, Checked.combine]

end ArchGraph
