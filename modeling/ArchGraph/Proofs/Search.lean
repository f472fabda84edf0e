import ArchGraph.Proofs.Rotation
import ArchGraph.Proofs.Sorting
import ArchGraph.Proofs.Table
import Mathlib.Data.List.Chain
import Mathlib.Data.List.Perm.Subperm
import Mathlib.Logic.Relation

/-!
What the search for cycles finds. Its invariant, `Inv`, follows the nodes that are on the present
path and those that are finished:

* a cycle that was reported is a walk along edges that closes where it began, and its last hop leads
  back in the order of discovery (`Found`), so that no second edge closes a rotation of it;
* every edge of a finished node leads to a node finished before, or closes a reported cycle
  (`Settled`), so that without the closing edges nothing goes round (`Settled.acyclic`).
-/

namespace ArchGraph.Adjacency

open ArchGraph.Cycle (hops)

variable {a : Adjacency} {limit : Int}

def Edge (a : Adjacency) (u v : String) : Prop := v ∈ (a.find? u).getD []

theorem mem_neighbours {u v : String} : v ∈ neighbours a u ↔ Edge a u v := by
  unfold neighbours Edge
  rw [Text.mem_sorted, mem_distinct]

theorem Edge.source_mem_keys {u v : String} (h : Edge a u v) : u ∈ a.keys := by
  rw [← Table.contains_iff]
  unfold Table.contains
  cases hf : a.find? u with
  | none => simp [Edge, hf] at h
  | some vs => rfl

theorem Edge.source_mem {u v : String} (h : Edge a u v) : u ∈ nodes a := by
  unfold nodes
  rw [mem_distinct]
  exact List.mem_append_left _ h.source_mem_keys

theorem Edge.target_mem {u v : String} (h : Edge a u v) : v ∈ nodes a := by
  unfold nodes
  rw [mem_distinct]
  apply List.mem_append_right
  cases hf : a.find? u with
  | none => simp [Edge, hf] at h
  | some vs =>
      have hv : v ∈ vs := by simpa [Edge, hf] using h
      have hvs : vs ∈ a.values := List.mem_map.mpr ⟨_, Table.mem_entries_of_find? hf, rfl⟩
      exact List.mem_flatten.mpr ⟨vs, hvs, hv⟩

/-! ## Reported cycles -/

/-- A way round that meets no node twice but for the first, where it ends. -/
def SimpleCycle (R : String → String → Prop) (cycle : List String) : Prop :=
  cycle.IsChain R ∧ ∃ x between, cycle = x :: between ++ [x] ∧ (x :: between).Nodup

theorem SimpleCycle.mono {R S : String → String → Prop} {cycle : List String}
    (h : SimpleCycle R cycle)
    (himp : ∀ u v, R u v → S u v) : SimpleCycle S cycle :=
  ⟨h.1.imp himp, h.2⟩

/-- The edge that closes a cycle: from its last node but one to its last. -/
def closingEdge? (cycle : List String) : Option (String × String) := (hops cycle).getLast?

def closingEdges (cycles : List (List String)) : List (String × String) :=
  cycles.filterMap closingEdge?

/-- A cycle as the search finds it: a way down from `target` to `source` and the edge back. In
`visited` what was discovered last comes first. -/
structure Found (a : Adjacency) (visited : List String) (source target : String)
    (cycle : List String) : Prop where
  shape : ∃ between, cycle = target :: between ++ [target] ∧ (target :: between).Nodup
  last : closingEdge? cycle = some (source, target)
  walk : cycle.IsChain (Edge a)
  seen : source ∈ visited ∧ target ∈ visited
  back : visited.idxOf source ≤ visited.idxOf target

theorem Found.simple {visited c : List String} {u v : String} (h : Found a visited u v c) :
    SimpleCycle (Edge a) c := by
  obtain ⟨between, hshape, hn⟩ := h.shape
  exact ⟨h.walk, v, between, hshape, hn⟩

theorem closing_eq (target : String) (path : List String) :
    closing target path = (path.takeWhile (· ≠ target) ++ [target]).reverse ++ [target] := by
  simp [closing]

/-- The way back to a node on the path is the end of the path, up to that node. -/
theorem way_back_splits {target : String} {path : List String} (h : target ∈ path) :
    path.takeWhile (· ≠ target) ++ [target] <+: path := by
  induction path with
  | nil => cases h
  | cons x path ih =>
      by_cases hx : x = target
      · subst hx
        simp
      · have hin : target ∈ path := (List.mem_cons.mp h).resolve_left (Ne.symm hx)
        rw [List.takeWhile_cons_of_pos (by simpa using hx), List.cons_append,
          List.cons_prefix_cons]
        exact ⟨rfl, ih hin⟩

theorem way_back_head {source target : String} {rest : List String} (h : target ∈ source :: rest) :
    ∃ way, (source :: rest).takeWhile (· ≠ target) ++ [target] = source :: way := by
  by_cases hx : source = target
  · subst hx
    exact ⟨[], by simp⟩
  · exact ⟨_, by rw [List.takeWhile_cons_of_pos (by simpa using hx), List.cons_append]⟩

/-- What the order of discovery says of a path: its end was found last. -/
def Downward (visited path : List String) : Prop :=
  path.Pairwise (fun x y => visited.idxOf x < visited.idxOf y)

theorem Downward.nodup {visited path : List String} (h : Downward visited path) : path.Nodup :=
  h.imp (fun hlt he => absurd (he ▸ hlt) (Nat.lt_irrefl _))

/-- Closing a path along an edge gives a cycle of the graph. -/
theorem found_closing {visited rest : List String} {source target : String}
    (hdown : Downward visited (source :: rest))
    (hchain : (source :: rest).IsChain (fun x y => Edge a y x))
    (hseen : ∀ x ∈ source :: rest, x ∈ visited) (hedge : Edge a source target)
    (hin : target ∈ source :: rest) :
    Found a visited source target (closing target (source :: rest)) := by
  have hprefix := way_back_splits hin
  obtain ⟨way, hway⟩ := way_back_head hin
  refine ⟨?_, ?_, ?_, ⟨hseen _ List.mem_cons_self, hseen _ hin⟩, ?_⟩
  · have hnodup := (hdown.nodup.sublist hprefix.sublist)
    refine ⟨((source :: rest).takeWhile (· ≠ target)).reverse, rfl, ?_⟩
    have hrev := List.nodup_reverse.mpr hnodup
    rwa [List.reverse_append, List.reverse_singleton, List.singleton_append] at hrev
  · rw [closing_eq, hway, List.reverse_cons, List.append_assoc, List.singleton_append]
    unfold closingEdge?
    rw [hops_concat, List.getLast?_concat]
  · rw [closing_eq]
    apply List.IsChain.append
    · rw [List.isChain_reverse]
      exact hchain.prefix hprefix
    · exact List.isChain_singleton _
    · intro x hx y hy
      rw [hway, List.getLast?_reverse] at hx
      have hxs : x = source := by simpa [eq_comm] using hx
      have hyt : y = target := by simpa [eq_comm] using hy
      rw [hxs, hyt]
      exact hedge
  · rcases List.mem_cons.mp hin with rfl | hin
    · exact Nat.le_refl _
    · exact Nat.le_of_lt (List.rel_of_pairwise_cons hdown hin)

/-- No other edge closes a rotation of a reported cycle: along the path hops lead down, and the hop
that closes a reported cycle leads back. -/
theorem closing_edge_unique {visited rest : List String} {source target u v : String}
    {cycle : List String} (hfound : Found a visited u v cycle)
    (hdown : Downward visited (source :: rest)) (hin : target ∈ source :: rest)
    (hrot : opened cycle ~r opened (closing target (source :: rest))) :
    (u, v) = (source, target) := by
  obtain ⟨between, hshape, _⟩ := hfound.shape
  have hmem : (u, v) ∈ hops cycle := List.mem_of_getLast? hfound.last
  have hclosing : closing target (source :: rest) =
      target :: ((source :: rest).takeWhile (· ≠ target)).reverse ++ [target] := rfl
  rw [hshape, hclosing, opened_closed, opened_closed] at hrot
  rw [hshape, mem_hops_of_isRotated hrot, ← hclosing, closing_eq] at hmem
  obtain ⟨way, hway⟩ := way_back_head hin
  have hprefix := way_back_splits hin
  rw [hway] at hmem hprefix
  rw [List.reverse_cons, List.append_assoc, List.singleton_append, hops_concat,
    List.mem_append, List.mem_singleton] at hmem
  rcases hmem with hmem | hmem
  · have hup : (way.reverse ++ [source]).IsChain
        (fun x y => visited.idxOf y < visited.idxOf x) := by
      rw [← List.reverse_cons, List.isChain_reverse]
      exact (hdown.sublist hprefix.sublist).isChain
    have hlt : visited.idxOf v < visited.idxOf u := hops_of_isChain hup _ hmem
    exact absurd hfound.back (Nat.not_le.mpr hlt)
  · exact hmem

/-! ## Finished nodes -/

/-- In a list of nodes, every edge that is not removed leads to a node further on. -/
def Settled (a : Adjacency) (removed : List (String × String)) : List String → Prop
  | [] => True
  | u :: rest =>
    (∀ v, Edge a u v → v ∈ rest ∨ (u, v) ∈ removed) ∧ Settled a removed rest

theorem Settled.mono {removed removed' : List (String × String)} (h : ∀ e ∈ removed, e ∈ removed')
    {fin : List String} (hs : Settled a removed fin) : Settled a removed' fin := by
  induction fin with
  | nil => trivial
  | cons u rest ih =>
      exact ⟨fun v hv => (hs.1 v hv).imp_right (h (u, v)), ih hs.2⟩

/-- A way along edges that are not removed. -/
abbrev Leads (a : Adjacency) (removed : List (String × String)) : String → String → Prop :=
  Relation.TransGen (fun u v => Edge a u v ∧ (u, v) ∉ removed)

theorem Settled.leads_mem {removed : List (String × String)} {fin : List String}
    (hs : Settled a removed fin) {x y : String} (hx : x ∈ fin) (h : Leads a removed x y) :
    y ∈ fin := by
  have step : ∀ fin : List String, Settled a removed fin → ∀ u v, u ∈ fin →
      Edge a u v ∧ (u, v) ∉ removed → v ∈ fin := by
    intro fin
    induction fin with
    | nil => exact fun _ u v hu => absurd hu List.not_mem_nil
    | cons w rest ih =>
        intro hs u v hu he
        rcases List.mem_cons.mp hu with rfl | hu
        · exact List.mem_cons_of_mem _ ((hs.1 v he.1).resolve_right he.2)
        · exact List.mem_cons_of_mem _ (ih hs.2 u v hu he)
  induction h with
  | single he => exact step fin hs _ _ hx he
  | tail _ he ih => exact step fin hs _ _ ih he

/-- Among settled nodes no way leads round. -/
theorem Settled.acyclic {removed : List (String × String)} {fin : List String}
    (hs : Settled a removed fin) (hn : fin.Nodup) {x : String} (hx : x ∈ fin) :
    ¬ Leads a removed x x := by
  induction fin with
  | nil => cases hx
  | cons u rest ih =>
      rw [List.nodup_cons] at hn
      intro h
      rcases List.mem_cons.mp hx with rfl | hx
      · obtain ⟨v, he, hv⟩ := Relation.TransGen.head'_iff.mp h
        have hrest : v ∈ rest := (hs.1 v he.1).resolve_right he.2
        rcases Relation.reflTransGen_iff_eq_or_transGen.mp hv with hxv | hv
        · exact hn.1 (hxv ▸ hrest)
        · exact hn.1 (hs.2.leads_mem hrest hv)
      · exact ih hs.2 hn.2 hx h

theorem exists_next {R : String → String → Prop} {l : List String} {z : String}
    (h : (l ++ [z]).IsChain R) : ∀ x ∈ l, ∃ y, R x y := by
  induction l with
  | nil => exact fun x hx => absurd hx List.not_mem_nil
  | cons w l ih =>
      intro x hx
      rw [List.cons_append, List.isChain_cons] at h
      rcases List.mem_cons.mp hx with rfl | hx
      · cases l with
        | nil => exact ⟨z, h.1 z rfl⟩
        | cons y l => exact ⟨y, h.1 y rfl⟩
      · exact ih h.2 x hx

theorem SimpleCycle.opened_mem {c : List String} (h : SimpleCycle (Edge a) c) :
    (∀ x ∈ opened c, x ∈ nodes a) ∧ opened c ≠ [] := by
  obtain ⟨hwalk, x, between, rfl, _⟩ := h
  rw [opened_closed]
  refine ⟨fun y hy => ?_, by simp⟩
  obtain ⟨z, he⟩ := exists_next hwalk y hy
  exact he.source_mem

/-! ## The invariant -/

/-- No cycle is lost, neither to the limit nor to a signature that means two cycles. -/
structure Complete (a : Adjacency) (limit : Int) : Prop where
  apart : ∀ c d, SimpleCycle (Edge a) c → SimpleCycle (Edge a) d → signature c = signature d →
    opened c ~r opened d
  limit : ((nodes a).length : Int) ≤ limit

theorem Complete.of_plain (hplain : ∀ x ∈ nodes a, Plain x)
    (hlimit : ((nodes a).length : Int) ≤ limit) : Complete a limit where
  apart := by
    intro c d hc hd h
    exact isRotated_of_signature_eq (fun x hx => hplain x (hc.opened_mem.1 x hx))
      (fun x hx => hplain x (hd.opened_mem.1 x hx)) hc.opened_mem.2 hd.opened_mem.2 h
  limit := hlimit

/-- The same of what has been reported so far: no signature of it stands for another cycle. -/
structure Kept (a : Adjacency) (limit : Int) (reported : List (List String)) : Prop where
  apart : ∀ c ∈ reported, ∀ d, SimpleCycle (Edge a) c → SimpleCycle (Edge a) d →
    signature c = signature d → opened c ~r opened d
  limit : ((nodes a).length : Int) ≤ limit

theorem Complete.kept (h : Complete a limit) (reported : List (List String)) :
    Kept a limit reported :=
  ⟨fun c _ => h.apart c, h.limit⟩

theorem Kept.mono {cs ds : List (List String)} (h : Kept a limit ds) (hsub : ∀ c ∈ cs, c ∈ ds) :
    Kept a limit cs :=
  ⟨fun c hc => h.apart c (hsub c hc), h.limit⟩

/-- What holds of a search whose present path is `path`, from its end, and which has finished the
nodes `fin`, the last one first. -/
structure Inv (a : Adjacency) (limit : Int) (path fin : List String) (s : Search) : Prop where
  visited : ∀ x, x ∈ s.visited ↔ x ∈ path ∨ x ∈ fin
  apart : ∀ x ∈ path, x ∉ fin
  once : fin.Nodup
  down : Downward s.visited path
  chain : path.IsChain (fun x y => Edge a y x)
  found : ∀ c ∈ s.cycles, ∃ u v, Found a s.visited u v c
  signatures : ∀ t, t ∈ s.signatures ↔ ∃ c ∈ s.cycles, signature c = t
  settled : Kept a limit s.cycles → Settled a (closingEdges s.cycles) fin

theorem Inv.start (a : Adjacency) (limit : Int) : Inv a limit [] [] ⟨[], [], []⟩ where
  visited := by simp
  apart := by simp
  once := List.nodup_nil
  down := List.Pairwise.nil
  chain := List.isChain_nil
  found := by simp
  signatures := by simp
  settled := fun _ => trivial

theorem idxOf_enter {visited : List String} {next x : String} (hx : x ∈ visited)
    (hnew : next ∉ visited) : (next :: visited).idxOf x = visited.idxOf x + 1 := by
  have hne : next ≠ x := fun he => hnew (he ▸ hx)
  rw [List.idxOf_cons, beq_false_of_ne hne]
  rfl

theorem Found.enter {visited c : List String} {u v next : String} (h : Found a visited u v c)
    (hnew : next ∉ visited) : Found a (next :: visited) u v c := by
  refine ⟨h.shape, h.last, h.walk,
    ⟨List.mem_cons_of_mem _ h.seen.1, List.mem_cons_of_mem _ h.seen.2⟩,
    ?_⟩
  rw [idxOf_enter h.seen.1 hnew, idxOf_enter h.seen.2 hnew]
  exact Nat.succ_le_succ h.back

theorem Inv.enter {path fin : List String} {s : Search} {next : String}
    (h : Inv a limit path fin s) (hnew : next ∉ s.visited)
    (hchain : (next :: path).IsChain (fun x y => Edge a y x)) :
    Inv a limit (next :: path) fin (s.enter next) where
  visited := by
    intro x
    simp only [Search.enter, List.mem_cons, h.visited x, or_assoc]
  apart := by
    intro x hx
    rcases List.mem_cons.mp hx with rfl | hx
    · exact fun hf => hnew ((h.visited x).mpr (.inr hf))
    · exact h.apart x hx
  once := h.once
  down := by
    have hseen : ∀ x ∈ path, x ∈ s.visited := fun x hx => (h.visited x).mpr (.inl hx)
    refine List.Pairwise.cons ?_ ?_
    · intro x hx
      simp only [Search.enter, List.idxOf_cons_self, idxOf_enter (hseen x hx) hnew]
      exact Nat.succ_pos _
    · apply List.Pairwise.imp_of_mem _ h.down
      intro x y hx hy hlt
      simp only [Search.enter, idxOf_enter (hseen x hx) hnew, idxOf_enter (hseen y hy) hnew]
      exact Nat.succ_lt_succ hlt
  chain := hchain
  found := by
    intro c hc
    obtain ⟨u, v, hf⟩ := h.found c hc
    exact ⟨u, v, hf.enter hnew⟩
  signatures := h.signatures
  settled := h.settled

theorem Inv.leave {node : String} {rest fin : List String} {s : Search}
    (h : Inv a limit (node :: rest) fin s)
    (hdone : Kept a limit s.cycles →
      ∀ v, Edge a node v → v ∈ fin ∨ (node, v) ∈ closingEdges s.cycles) :
    Inv a limit rest (node :: fin) s where
  visited := by
    intro x
    rw [h.visited x, List.mem_cons, List.mem_cons]
    constructor
    · rintro ((hx | hx) | hx)
      · exact .inr (.inl hx)
      · exact .inl hx
      · exact .inr (.inr hx)
    · rintro (hx | hx | hx)
      · exact .inl (.inr hx)
      · exact .inl (.inl hx)
      · exact .inr hx
  apart := by
    intro x hx hin
    rcases List.mem_cons.mp hin with rfl | hin
    · exact (List.nodup_cons.mp h.down.nodup).1 hx
    · exact h.apart x (List.mem_cons_of_mem _ hx) hin
  once := List.nodup_cons.mpr ⟨h.apart node List.mem_cons_self, h.once⟩
  down := (List.pairwise_cons.mp h.down).2
  chain := List.isChain_of_isChain_cons h.chain
  found := h.found
  signatures := h.signatures
  settled := fun hc => ⟨hdone hc, h.settled hc⟩

theorem Inv.path_mem {node : String} {rest fin : List String} {s : Search}
    (h : Inv a limit (node :: rest) fin s) : ∀ x ∈ rest, x ∈ nodes a := by
  intro x hx
  have hchain : (rest.reverse ++ [node]).IsChain (Edge a) := by
    rw [← List.reverse_cons, List.isChain_reverse]
    exact h.chain
  obtain ⟨y, he⟩ := exists_next hchain x (List.mem_reverse.mpr hx)
  exact he.source_mem

theorem Inv.length_le {node : String} {rest fin : List String} {s : Search}
    (h : Inv a limit (node :: rest) fin s) : rest.length ≤ (nodes a).length :=
  (List.subperm_of_subset (List.nodup_cons.mp h.down.nodup).2 h.path_mem).length_le

/-- On a path that can go on, the way back is never longer than there are nodes. -/
theorem Inv.withinLimit {node next : String} {rest fin : List String} {s : Search}
    (h : Inv a limit (node :: rest) fin s) (hedge : Edge a node next)
    (hin : next ∈ node :: rest) (hl : ((nodes a).length : Int) ≤ limit) :
    withinLimit limit next (node :: rest) = true := by
  have hsub : ∀ x ∈ node :: rest, x ∈ nodes a := by
    intro x hx
    rcases List.mem_cons.mp hx with rfl | hx
    · exact hedge.source_mem
    · exact h.path_mem x hx
  have hpath : (node :: rest).length ≤ (nodes a).length :=
    (List.subperm_of_subset h.down.nodup hsub).length_le
  have hway := (way_back_splits hin).length_le
  rw [List.length_append, List.length_singleton] at hway
  unfold Adjacency.withinLimit
  rw [Bool.or_eq_true, decide_eq_true_eq]
  right
  omega

theorem report_cycles_subset (s : Search) (cycle : List String) :
    ∀ c ∈ s.cycles, c ∈ (s.report cycle).cycles := by
  intro c hc
  unfold Search.report
  split
  · exact hc
  · exact List.mem_append_left _ hc

theorem closingEdges_mono {cs ds : List (List String)} (h : ∀ c ∈ cs, c ∈ ds) :
    ∀ e ∈ closingEdges cs, e ∈ closingEdges ds := by
  intro e he
  obtain ⟨c, hc, hce⟩ := List.mem_filterMap.mp he
  exact List.mem_filterMap.mpr ⟨c, h c hc, hce⟩

/-- Reporting where an edge leads back to the path keeps the invariant, and the edge closes a
reported cycle afterwards, even if the signature was there. -/
theorem Inv.report {node next : String} {rest fin : List String} {s : Search}
    (h : Inv a limit (node :: rest) fin s) (hedge : Edge a node next)
    (hin : next ∈ node :: rest) :
    Inv a limit (node :: rest) fin (s.report (closing next (node :: rest))) ∧
    (Kept a limit (s.report (closing next (node :: rest))).cycles →
      (node, next) ∈ closingEdges (s.report (closing next (node :: rest))).cycles) := by
  have hfound := found_closing h.down h.chain (fun x hx => (h.visited x).mpr (.inl hx)) hedge hin
  by_cases hsig : signature (closing next (node :: rest)) ∈ s.signatures
  · have hsame : s.report (closing next (node :: rest)) = s := if_pos hsig
    rw [hsame]
    refine ⟨h, fun hc => ?_⟩
    obtain ⟨c, hmem, hcs⟩ := (h.signatures _).mp hsig
    obtain ⟨u, v, hf⟩ := h.found c hmem
    have hrot := hc.apart c hmem _ hf.simple hfound.simple hcs
    rw [← closing_edge_unique hf h.down hin hrot]
    exact List.mem_filterMap.mpr ⟨c, hmem, hf.last⟩
  · have hnew : s.report (closing next (node :: rest)) =
        { s with
          signatures := signature (closing next (node :: rest)) :: s.signatures
          cycles := s.cycles ++ [closing next (node :: rest)] } := if_neg hsig
    have hsub := report_cycles_subset s (closing next (node :: rest))
    rw [hnew] at hsub ⊢
    refine ⟨⟨h.visited, h.apart, h.once, h.down, h.chain, ?_, ?_, ?_⟩, fun _ => ?_⟩
    · intro c hc
      rcases List.mem_append.mp hc with hc | hc
      · exact h.found c hc
      · rw [List.mem_singleton.mp hc]
        exact ⟨node, next, hfound⟩
    · intro t
      simp only [List.mem_cons, h.signatures t, List.mem_append, List.not_mem_nil, or_false]
      constructor
      · rintro (rfl | ⟨c, hc, ht⟩)
        · exact ⟨_, .inr rfl, rfl⟩
        · exact ⟨c, .inl hc, ht⟩
      · rintro ⟨c, hc | rfl, ht⟩
        · exact .inr ⟨c, hc, ht⟩
        · exact .inl ht.symm
    · exact fun hc => (h.settled (hc.mono hsub)).mono (closingEdges_mono hsub)
    · exact List.mem_filterMap.mpr
        ⟨_, List.mem_append_right _ List.mem_cons_self, hfound.last⟩

/-! ## The search -/

/-- One edge from the end of a path. -/
def follow (a : Adjacency) (limit : Int) (depth : Nat) (path : List String) (s : Search)
    (next : String) : Search :=
  if next ∉ s.visited then explore a limit depth (next :: path) (s.enter next)
  else if next ∈ path ∧ withinLimit limit next path then s.report (closing next path)
  else s

theorem explore_succ (depth : Nat) (node : String) (rest : List String) (s : Search) :
    explore a limit (depth + 1) (node :: rest) s =
      (neighbours a node).foldl (follow a limit depth (node :: rest)) s := rfl

/-- The search only ever adds to what is finished and to what is reported. -/
structure Grows (fin : List String) (s : Search) (fin' : List String) (s' : Search) : Prop where
  finished : ∀ x ∈ fin, x ∈ fin'
  cycles : ∀ c ∈ s.cycles, c ∈ s'.cycles

theorem Grows.refl (fin : List String) (s : Search) : Grows fin s fin s :=
  ⟨fun _ hx => hx, fun _ hc => hc⟩

theorem Grows.trans {fin fin₁ fin₂ : List String} {s s₁ s₂ : Search} (h : Grows fin s fin₁ s₁)
    (h' : Grows fin₁ s₁ fin₂ s₂) : Grows fin s fin₂ s₂ :=
  ⟨fun x hx => h'.finished x (h.finished x hx), fun c hc => h'.cycles c (h.cycles c hc)⟩

/-- The edge from `node` to `next` leads to a finished node or closes a reported cycle. -/
def Done (fin : List String) (s : Search) (node next : String) : Prop :=
  next ∈ fin ∨ (node, next) ∈ closingEdges s.cycles

theorem Done.grow {fin fin' : List String} {s s' : Search} {node next : String}
    (h : Done fin s node next) (hg : Grows fin s fin' s') : Done fin' s' node next :=
  h.imp (hg.finished next) (closingEdges_mono hg.cycles (node, next))

/-- What exploring to a given depth has to do. -/
def Explores (a : Adjacency) (limit : Int) (depth : Nat) : Prop :=
  ∀ node rest fin s, Inv a limit (node :: rest) fin s → (nodes a).length < depth + rest.length →
    ∃ fin', Inv a limit rest (node :: fin') (explore a limit depth (node :: rest) s) ∧
      Grows fin s fin' (explore a limit depth (node :: rest) s)

theorem follow_inv {depth : Nat} (hex : Explores a limit depth) {node next : String}
    {rest fin : List String} {s : Search} (h : Inv a limit (node :: rest) fin s)
    (hedge : Edge a node next) (hdepth : (nodes a).length < depth + (node :: rest).length) :
    ∃ fin', Inv a limit (node :: rest) fin' (follow a limit depth (node :: rest) s next) ∧
      Grows fin s fin' (follow a limit depth (node :: rest) s next) ∧
      (Kept a limit (follow a limit depth (node :: rest) s next).cycles →
        Done fin' (follow a limit depth (node :: rest) s next) node next) := by
  unfold follow
  split
  · rename_i hnew
    have hchain : (next :: node :: rest).IsChain (fun x y => Edge a y x) :=
      List.isChain_cons_cons.mpr ⟨hedge, h.chain⟩
    obtain ⟨fin', h', hgrow⟩ := hex next (node :: rest) fin _ (h.enter hnew hchain) hdepth
    exact ⟨next :: fin', h',
      ⟨fun x hx => List.mem_cons_of_mem _ (hgrow.finished x hx), hgrow.cycles⟩,
      fun _ => .inl List.mem_cons_self⟩
  · rename_i hseen
    split
    · rename_i hback
      obtain ⟨h', hclosed⟩ := h.report hedge hback.1
      exact ⟨fin, h', ⟨fun _ hx => hx, report_cycles_subset _ _⟩, fun hc => .inr (hclosed hc)⟩
    · rename_i hback
      refine ⟨fin, h, Grows.refl fin s, fun hc => .inl ?_⟩
      -- With nothing beyond the limit, a visited node that is not on the path is finished.
      have hvisited : next ∈ s.visited := Decidable.not_not.mp hseen
      rcases (h.visited next).mp hvisited with hin | hin
      · exact absurd ⟨hin, h.withinLimit hedge hin hc.limit⟩ hback
      · exact hin

theorem follows_inv {depth : Nat} (hex : Explores a limit depth) {node : String}
    {rest : List String} (hdepth : (nodes a).length < depth + (node :: rest).length)
    (ns : List String) (hns : ∀ v ∈ ns, Edge a node v) (fin : List String) (s : Search)
    (h : Inv a limit (node :: rest) fin s) :
    ∃ fin', Inv a limit (node :: rest) fin' (ns.foldl (follow a limit depth (node :: rest)) s) ∧
      Grows fin s fin' (ns.foldl (follow a limit depth (node :: rest)) s) ∧
      (Kept a limit (ns.foldl (follow a limit depth (node :: rest)) s).cycles → ∀ v ∈ ns,
        Done fin' (ns.foldl (follow a limit depth (node :: rest)) s) node v) := by
  induction ns generalizing fin s with
  | nil => exact ⟨fin, h, Grows.refl fin s, fun _ v hv => absurd hv List.not_mem_nil⟩
  | cons next ns ih =>
      rw [List.foldl_cons]
      obtain ⟨fin₁, h₁, hgrow₁, hdone₁⟩ := follow_inv hex h (hns next List.mem_cons_self) hdepth
      obtain ⟨fin₂, h₂, hgrow₂, hdone₂⟩ :=
        ih (fun v hv => hns v (List.mem_cons_of_mem _ hv)) fin₁ _ h₁
      refine ⟨fin₂, h₂, hgrow₁.trans hgrow₂, fun hc v hv => ?_⟩
      rcases List.mem_cons.mp hv with rfl | hv
      · exact (hdone₁ (hc.mono hgrow₂.cycles)).grow hgrow₂
      · exact hdone₂ hc v hv

/-- Following all edges of the node at the end of the path finishes it. -/
theorem explore_inv (depth : Nat) : Explores a limit depth := by
  induction depth with
  | zero =>
      intro node rest fin s h hdepth
      have hlen := h.length_le
      omega
  | succ depth ih =>
      intro node rest fin s h hdepth
      rw [explore_succ]
      obtain ⟨fin', h', hgrow, hdone⟩ := follows_inv ih (by simp only [List.length_cons]; omega)
        (neighbours a node) (fun v hv => mem_neighbours.mp hv) fin s h
      exact ⟨fin', h'.leave (fun hc v hv => hdone hc v (mem_neighbours.mpr hv)), hgrow⟩

theorem exploreFrom_inv {fin : List String} {s : Search} (h : Inv a limit [] fin s)
    (root : String) : ∃ fin', Inv a limit [] fin' (exploreFrom a limit s root) ∧
      (∀ x ∈ fin, x ∈ fin') ∧ root ∈ fin' := by
  unfold exploreFrom
  split
  · rename_i hseen
    exact ⟨fin, h, fun _ hx => hx, by simpa using (h.visited root).mp hseen⟩
  · rename_i hnew
    obtain ⟨fin', h', hgrow⟩ := explore_inv ((nodes a).length + 1) root [] fin _
      (h.enter hnew (List.isChain_singleton root)) (by simp)
    exact ⟨root :: fin', h', fun x hx => List.mem_cons_of_mem _ (hgrow.finished x hx),
      List.mem_cons_self⟩

/-- The search ends with all its roots finished. -/
theorem search_inv (a : Adjacency) (limit : Int) (roots : List String) :
    ∃ fin, Inv a limit [] fin (roots.foldl (exploreFrom a limit) ⟨[], [], []⟩) ∧
      ∀ root ∈ roots, root ∈ fin := by
  have run : ∀ (roots fin : List String) (s : Search), Inv a limit [] fin s →
      ∃ fin', Inv a limit [] fin' (roots.foldl (exploreFrom a limit) s) ∧
        (∀ x ∈ fin, x ∈ fin') ∧ ∀ root ∈ roots, root ∈ fin' := by
    intro roots
    induction roots with
    | nil => exact fun fin s h => ⟨fin, h, fun _ hx => hx, by simp⟩
    | cons root roots ih =>
        intro fin s h
        obtain ⟨fin₁, h₁, hsub₁, hroot⟩ := exploreFrom_inv h root
        obtain ⟨fin₂, h₂, hsub₂, hroots⟩ := ih fin₁ _ h₁
        refine ⟨fin₂, h₂, fun x hx => hsub₂ x (hsub₁ x hx), fun x hx => ?_⟩
        rcases List.mem_cons.mp hx with rfl | hx
        · exact hsub₂ x hroot
        · exact hroots x hx
  obtain ⟨fin, h, _, hroots⟩ := run roots [] _ (Inv.start a limit)
  exact ⟨fin, h, hroots⟩

end ArchGraph.Adjacency
