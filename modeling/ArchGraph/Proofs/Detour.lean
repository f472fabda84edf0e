import ArchGraph.Proofs.Acyclicity

/-!
A ring with a detour: a second way from its first node to its next one, by a node aside. The search
that goes along the ring first reports the ring, and when it comes to the detour everything beyond
it is finished. So the ring is all it reports (`Detour.cycles_eq`), although the detour goes round
too.
-/

namespace ArchGraph.Adjacency

open ArchGraph.Cycle (hops)

variable {a : Adjacency} {limit : Int}

/-! ## The order of the search -/

theorem neighbours_eq {u : String} {targets : List String} (h : ∀ v, Edge a u v ↔ v ∈ targets)
    (hsorted : targets.Pairwise (· < ·)) : neighbours a u = targets := by
  have hnodup : targets.Nodup := by
    refine hsorted.imp ?_
    rintro x _ hlt rfl
    exact String.lt_irrefl x hlt
  have hperm : (distinct ((a.find? u).getD [])).Perm targets := by
    rw [List.perm_ext_iff_of_nodup (nodup_distinct _) hnodup]
    intro v
    rw [mem_distinct]
    exact h v
  unfold neighbours
  rw [Text.sorted_perm hperm]
  exact Text.sorted_of_pairwise (hsorted.imp (fun hlt => String.not_lt.mp (String.lt_asymm hlt)))

theorem sorted_head {names : List String} {least : String} (hmem : least ∈ names)
    (hleast : ∀ x ∈ names, least ≤ x) : ∃ rest, Text.sorted names = least :: rest := by
  cases hs : Text.sorted names with
  | nil =>
      rw [← Text.mem_sorted, hs] at hmem
      cases hmem
  | cons first rest =>
      have hsorted : (first :: rest).Pairwise (fun x y => decide (x ≤ y) = true) :=
        hs ▸ List.pairwise_mergeSort nameLE_trans nameLE_total names
      have hfirst : first ≤ least := by
        rw [← Text.mem_sorted, hs] at hmem
        rcases List.mem_cons.mp hmem with rfl | hmem
        · exact String.le_refl _
        · exact of_decide_eq_true (List.rel_of_pairwise_cons hsorted hmem)
      have hin : first ∈ names := Text.mem_sorted.mp (hs ▸ List.mem_cons_self)
      rw [String.le_antisymm hfirst (hleast first hin)]
      exact ⟨rest, rfl⟩

theorem prefix_foldl_addNew (xs kept : List String) : kept <+: xs.foldl addNew kept := by
  induction xs generalizing kept with
  | nil => exact List.prefix_refl kept
  | cons x xs ih =>
      have hstep : kept <+: addNew kept x := by
        unfold addNew
        split
        · exact List.prefix_refl kept
        · exact List.prefix_append kept [x]
      exact hstep.trans (ih _)

/-- The search starts at the least node that has edges. -/
theorem roots_eq {least : String} (hmem : least ∈ a.keys) (hleast : ∀ x ∈ a.keys, least ≤ x) :
    ∃ others, roots a [] = least :: others ∧ ∀ x ∈ others, x ∈ a.keys := by
  obtain ⟨rest, hsorted⟩ := sorted_head hmem hleast
  have hall : ∀ x ∈ roots a [], x ∈ a.keys := by
    intro x hx
    unfold roots at hx
    rwa [List.nil_append, mem_distinct, Text.mem_sorted] at hx
  have hroots : roots a [] = rest.foldl addNew [least] := by
    unfold roots
    rw [List.nil_append, hsorted]
    rfl
  obtain ⟨others, hothers⟩ := prefix_foldl_addNew rest [least]
  rw [← hroots] at hothers
  exact ⟨others, hothers.symm, fun x hx => hall x (hothers ▸ List.mem_append_right _ hx)⟩

/-- Nothing starts at a node that was visited. -/
theorem foldl_exploreFrom_visited {s : Search} {roots : List String}
    (h : ∀ x ∈ roots, x ∈ s.visited) : roots.foldl (exploreFrom a limit) s = s := by
  induction roots with
  | nil => rfl
  | cons x roots ih =>
      rw [List.foldl_cons, exploreFrom, if_pos (h x List.mem_cons_self)]
      exact ih fun y hy => h y (List.mem_cons_of_mem _ hy)

/-- From the end of a path along a line whose only way goes on, and at last back to a node of the
path, the search visits the line and reports the cycle that it closes. -/
theorem explore_line {back x : String} {line path : List String} {depth : Nat} {s : Search}
    (hline : (x :: line ++ [back]).IsChain (fun u v => neighbours a u = [v]))
    (hvisited : s.visited = x :: path) (hnodup : (line.reverse ++ x :: path).Nodup)
    (hback : back ∈ x :: path)
    (hlimit : withinLimit limit back (line.reverse ++ x :: path) = true)
    (hdepth : line.length < depth) :
    explore a limit depth (x :: path) s =
      Search.report { s with visited := line.reverse ++ x :: path }
        (closing back (line.reverse ++ x :: path)) := by
  induction line generalizing x path depth s with
  | nil =>
      obtain ⟨depth, rfl⟩ : ∃ d, depth = d + 1 := ⟨depth - 1, by simp at hdepth; omega⟩
      have honly : neighbours a x = [back] := (List.isChain_cons_cons.mp hline).1
      have hseen : back ∈ s.visited := hvisited ▸ hback
      rw [explore_succ, honly, List.foldl_cons, List.foldl_nil, follow,
        if_neg (Decidable.not_not.mpr hseen), if_pos ⟨hback, hlimit⟩]
      cases s
      subst hvisited
      rfl
  | cons y line ih =>
      obtain ⟨depth, rfl⟩ : ∃ d, depth = d + 1 := ⟨depth - 1, by simp at hdepth; omega⟩
      have hpath : (y :: line).reverse ++ x :: path = line.reverse ++ y :: x :: path := by simp
      rw [hpath] at hnodup hlimit ⊢
      obtain ⟨honly, hline⟩ := List.isChain_cons_cons.mp hline
      have hnew : y ∉ s.visited := by
        rw [hvisited]
        have hrest := (List.nodup_append.mp hnodup).2.1
        exact (List.nodup_cons.mp hrest).1
      rw [explore_succ, honly, List.foldl_cons, List.foldl_nil, follow, if_pos hnew]
      apply ih hline _ hnodup (List.mem_cons_of_mem _ hback) hlimit (by simp at hdepth; omega)
      simp [Search.enter, hvisited]

/-! ## The detour -/

theorem source_of_hop {l : List String} {z u v : String}
    (h : (u, v) ∈ hops (l ++ [z])) : u ∈ l := by
  induction l with
  | nil => cases h
  | cons x l ih =>
      have hcons : ∃ y rest, hops (x :: l ++ [z]) = (x, y) :: rest ∧ rest = hops (l ++ [z]) := by
        cases l with
        | nil => exact ⟨z, [], rfl, rfl⟩
        | cons y l => exact ⟨y, _, rfl, rfl⟩
      obtain ⟨y, rest, hhops, rfl⟩ := hcons
      rw [hhops] at h
      rcases List.mem_cons.mp h with heq | h
      · rw [(Prod.mk.inj heq).1]
        exact List.mem_cons_self
      · exact List.mem_cons_of_mem _ (ih h)

/-- A graph whose edges are those of a ring and of a way from its first node to its second by
another node. In the order of names the ring begins with its first node, and the node aside comes
last. -/
structure Detour (a : Adjacency) (first second : String) (rest : List String) (aside : String) :
    Prop where
  edges : ∀ u v, Edge a u v ↔ (u, v) ∈ hops (first :: second :: rest ++ [first]) ∨
    (u, v) = (first, aside) ∨ (u, v) = (aside, second)
  once : (first :: second :: rest).Nodup
  least : ∀ x ∈ second :: rest, first < x
  last : ∀ x ∈ first :: second :: rest, x < aside
  sources : ∀ u ∈ a.keys, ∃ v, Edge a u v

namespace Detour

variable {first second aside : String} {rest : List String}

theorem aside_notMem (h : Detour a first second rest aside) : aside ∉ first :: second :: rest :=
  fun hmem => String.lt_irrefl _ (h.last aside hmem)

theorem source_mem (h : Detour a first second rest aside) {u v : String} (he : Edge a u v) :
    u ∈ aside :: first :: second :: rest := by
  rcases (h.edges u v).mp he with hhop | heq | heq
  · exact List.mem_cons_of_mem _ (source_of_hop hhop)
  · rw [(Prod.mk.inj heq).1]
    simp
  · rw [(Prod.mk.inj heq).1]
    simp

theorem first_neighbours (h : Detour a first second rest aside) :
    neighbours a first = [second, aside] := by
  apply neighbours_eq
  · intro v
    have hhop : (first, second) ∈ hops (first :: second :: rest ++ [first]) := by simp [hops]
    rw [h.edges]
    constructor
    · rintro (hv | heq | heq)
      · rw [hops_functional h.once hv hhop]
        simp
      · rw [(Prod.mk.inj heq).2]
        simp
      · exact absurd ((Prod.mk.inj heq).1 ▸ List.mem_cons_self) h.aside_notMem
    · intro hv
      simp only [List.mem_cons, List.not_mem_nil, or_false] at hv
      rcases hv with rfl | rfl
      · exact .inl hhop
      · exact .inr (.inl rfl)
  · exact List.pairwise_pair.mpr (h.last second (by simp))

theorem aside_neighbours (h : Detour a first second rest aside) :
    neighbours a aside = [second] := by
  apply neighbours_eq
  · intro v
    rw [h.edges, List.mem_singleton]
    constructor
    · rintro (hv | heq | heq)
      · exact absurd (source_of_hop hv) h.aside_notMem
      · exact absurd ((Prod.mk.inj heq).1 ▸ List.mem_cons_self) h.aside_notMem
      · exact (Prod.mk.inj heq).2
    · rintro rfl
      exact .inr (.inr rfl)
  · exact List.pairwise_singleton _ _

/-- Beyond the first node the ring is a line. -/
theorem line (h : Detour a first second rest aside) :
    (second :: rest ++ [first]).IsChain (fun u v => neighbours a u = [v]) := by
  refine (isChain_hops (second :: rest ++ [first])).imp (fun u v hline => ?_)
  have hu : u ∈ second :: rest := source_of_hop hline
  have hhop : (u, v) ∈ hops (first :: second :: rest ++ [first]) := List.mem_cons_of_mem _ hline
  refine neighbours_eq (fun w => ?_) (List.pairwise_singleton _ _)
  rw [h.edges, List.mem_singleton]
  constructor
  · rintro (hw | heq | heq)
    · exact hops_functional h.once hw hhop
    · rw [(Prod.mk.inj heq).1] at hu
      exact absurd hu (List.nodup_cons.mp h.once).1
    · rw [(Prod.mk.inj heq).1] at hu
      exact absurd (List.mem_cons_of_mem _ hu) h.aside_notMem
  · rintro rfl
    exact .inl hhop

/-- What the search has when it has gone from the first node along the ring. -/
def alongRing (first second : String) (rest : List String) : Search :=
  Search.report ⟨(second :: rest).reverse ++ [first], [], []⟩ (first :: second :: rest ++ [first])

theorem visited_alongRing (first second : String) (rest : List String) :
    (alongRing first second rest).visited = (second :: rest).reverse ++ [first] := rfl

theorem explore_second (h : Detour a first second rest aside)
    (hlimit : ((first :: second :: rest).length : Int) ≤ limit) {depth : Nat}
    (hdepth : rest.length < depth) :
    explore a limit depth [second, first] ⟨[second, first], [], []⟩ =
      alongRing first second rest := by
  have hnodup : (rest.reverse ++ [second, first]).Nodup := by
    have hreverse := List.nodup_reverse.mpr h.once
    simpa using hreverse
  have hpath : rest.reverse ++ [second, first] = (second :: rest).reverse ++ [first] := by simp
  have htake : (rest.reverse ++ [second, first]).takeWhile (· ≠ first) =
      (second :: rest).reverse := by
    rw [hpath, List.takeWhile_append_of_pos]
    · simp
    · intro x hx
      have hmem : x ∈ second :: rest := List.mem_reverse.mp hx
      exact decide_eq_true fun he => (List.nodup_cons.mp h.once).1 (he ▸ hmem)
  have hwithin : withinLimit limit first (rest.reverse ++ [second, first]) = true := by
    unfold withinLimit
    rw [htake, Bool.or_eq_true, decide_eq_true_eq, List.length_reverse]
    simp only [List.length_cons] at hlimit ⊢
    right
    omega
  rw [explore_line h.line rfl hnodup (by simp) hwithin hdepth]
  unfold alongRing closing
  rw [htake, List.reverse_reverse, hpath]

/-- From the first node the ring is reported and nothing else: what the detour leads to is finished
by then, and no longer on the path. -/
theorem explore_first (h : Detour a first second rest aside)
    (hlimit : ((first :: second :: rest).length : Int) ≤ limit) {depth : Nat}
    (hdepth : rest.length + 1 < depth) :
    explore a limit depth [first] ⟨[first], [], []⟩ =
      (alongRing first second rest).enter aside := by
  obtain ⟨depth, rfl⟩ : ∃ d, depth = d + 2 := ⟨depth - 2, by omega⟩
  have hsecond : second ≠ first := fun he =>
    (List.nodup_cons.mp h.once).1 (he ▸ List.mem_cons_self)
  have haside : aside ≠ second := fun he => h.aside_notMem (he ▸ by simp)
  have hnew : aside ∉ (alongRing first second rest).visited := by
    rw [visited_alongRing, ← List.reverse_cons, List.mem_reverse]
    exact h.aside_notMem
  have hseen : second ∈ ((alongRing first second rest).enter aside).visited := by
    simp [Search.enter, visited_alongRing]
  rw [explore_succ, h.first_neighbours, List.foldl_cons, List.foldl_cons, List.foldl_nil]
  have hring : follow a limit (depth + 1) [first] ⟨[first], [], []⟩ second =
      alongRing first second rest := by
    rw [follow, if_pos (by simpa using hsecond)]
    exact h.explore_second hlimit (by omega)
  rw [hring, follow, if_pos hnew, explore_succ, h.aside_neighbours, List.foldl_cons, List.foldl_nil,
    follow, if_neg (Decidable.not_not.mpr hseen), if_neg]
  rintro ⟨hpath, _⟩
  simp [Ne.symm haside, hsecond] at hpath

theorem length_le_nodes (h : Detour a first second rest aside) :
    (first :: second :: rest).length ≤ (nodes a).length := by
  refine (List.subperm_of_subset h.once (fun u hu => ?_)).length_le
  obtain ⟨v, hv⟩ := exists_next (isChain_hops (first :: second :: rest ++ [first])) u hu
  exact ((h.edges u v).mpr (.inl hv)).source_mem

/-- **The search reports the ring alone.** -/
theorem cycles_eq (h : Detour a first second rest aside)
    (hlimit : ((nodes a).length : Int) ≤ limit) :
    cycles a [] limit = [first :: second :: rest ++ [first]] := by
  have hlength := h.length_le_nodes
  have hfirst : first ∈ a.keys :=
    ((h.edges first aside).mpr (.inr (.inl rfl))).source_mem_keys
  have hkeys : ∀ u ∈ a.keys, u ∈ aside :: first :: second :: rest := by
    intro u hu
    obtain ⟨v, hv⟩ := h.sources u hu
    exact h.source_mem hv
  have hleast : ∀ u ∈ a.keys, first ≤ u := by
    intro u hu
    rcases List.mem_cons.mp (hkeys u hu) with rfl | hu
    · exact String.not_lt.mp (String.lt_asymm (h.last first List.mem_cons_self))
    · rcases List.mem_cons.mp hu with rfl | hu
      · exact String.le_refl _
      · exact String.not_lt.mp (String.lt_asymm (h.least u hu))
  obtain ⟨others, hroots, hothers⟩ := roots_eq hfirst hleast
  have hexplore : exploreFrom a limit ⟨[], [], []⟩ first =
      (alongRing first second rest).enter aside := by
    rw [exploreFrom, if_neg List.not_mem_nil]
    exact h.explore_first (by omega) (by simp only [List.length_cons] at hlength; omega)
  have hseen : ∀ x ∈ others, x ∈ ((alongRing first second rest).enter aside).visited := by
    intro x hx
    rw [Search.enter, visited_alongRing]
    rcases List.mem_cons.mp (hkeys x (hothers x hx)) with rfl | hmem
    · exact List.mem_cons_self
    · rw [← List.reverse_cons]
      exact List.mem_cons_of_mem _ (List.mem_reverse.mpr hmem)
  unfold cycles
  rw [hroots, List.foldl_cons, hexplore, foldl_exploreFrom_visited hseen]
  rfl

end Detour

end ArchGraph.Adjacency
