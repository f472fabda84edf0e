import ArchGraph.Proofs.Search

/-!
The search for cycles misses none: once the edges that close the reported cycles are taken away,
nothing goes round, and nothing is reported only where nothing went round before.
-/

namespace ArchGraph.Adjacency

open ArchGraph.Cycle (hops)

variable {a : Adjacency} {limit : Int}

/-- No way along edges leads back to where it began. -/
def Acyclic (a : Adjacency) : Prop := ∀ x, ¬ Relation.TransGen (Edge a) x x

/-- The graph without some of its edges. -/
def without (a : Adjacency) (removed : List (String × String)) : Adjacency :=
  ⟨a.entries.map (fun e => (e.1, e.2.filter (fun v => !removed.contains (e.1, v))))⟩

theorem edge_without {removed : List (String × String)} {u v : String} :
    Edge (a.without removed) u v ↔ Edge a u v ∧ (u, v) ∉ removed := by
  have hfind : (a.without removed).find? u =
      (a.find? u).map (fun vs => vs.filter (fun v => !removed.contains (u, v))) :=
    Table.lookup_map_value
      (fun u (vs : List String) => vs.filter (fun v => !removed.contains (u, v))) a.entries u
  unfold Edge
  rw [hfind]
  cases a.find? u with
  | none => simp
  | some vs => simp

/-- Every reported cycle goes round along edges and meets no node twice. -/
theorem simple_of_mem_cycles {start c : List String} (hc : c ∈ cycles a start limit) :
    SimpleCycle (Edge a) c := by
  obtain ⟨fin, h, _⟩ := search_inv a limit (roots a start)
  obtain ⟨u, v, hf⟩ := h.found c hc
  exact hf.simple

/-- Every way round passes an edge that closes a reported cycle. -/
theorem not_leads_round_of_kept {start : List String}
    (hc : Kept a limit (cycles a start limit)) (x : String) :
    ¬ Leads a (closingEdges (cycles a start limit)) x x := by
  intro h
  obtain ⟨fin, hinv, hroots⟩ := search_inv a limit (roots a start)
  obtain ⟨y, he, _⟩ := Relation.TransGen.head'_iff.mp h
  have hroot : x ∈ roots a start := by
    unfold roots
    rw [mem_distinct, List.mem_append, Text.mem_sorted]
    exact .inr he.1.source_mem_keys
  exact (hinv.settled hc).acyclic hinv.once (hroots x hroot) h

theorem not_leads_round (hc : Complete a limit) (start : List String) (x : String) :
    ¬ Leads a (closingEdges (cycles a start limit)) x x :=
  not_leads_round_of_kept (hc.kept _) x

theorem transGen_of_isChain {R : String → String → Prop} {x y : String} {l : List String}
    (h : (x :: l ++ [y]).IsChain R) : Relation.TransGen R x y := by
  induction l generalizing x with
  | nil => exact .single (List.isChain_cons_cons.mp h).1
  | cons z l ih =>
      rw [List.cons_append, List.cons_append, List.isChain_cons_cons] at h
      exact .head h.1 (ih h.2)

/-- Every ring shares a hop with a reported cycle, the one that closes it. -/
theorem exists_shared_hop (hc : Complete a limit) (start : List String) {ring : List String}
    (hring : SimpleCycle (Edge a) ring) :
    ∃ walk ∈ cycles a start limit, ∃ p ∈ hops ring, p ∈ hops walk := by
  obtain ⟨p, hp, hclosing⟩ : ∃ p ∈ hops ring, p ∈ closingEdges (cycles a start limit) := by
    by_contra hnone
    obtain ⟨hwalk, x, between, rfl, _⟩ := hring
    refine not_leads_round hc start x (transGen_of_isChain (l := between) ?_)
    refine (isChain_hops _).imp (fun u v hhop => ⟨?_, fun hin => hnone ⟨(u, v), hhop, hin⟩⟩)
    exact hops_of_isChain hwalk (u, v) hhop
  obtain ⟨walk, hwalk, hlast⟩ := List.mem_filterMap.mp hclosing
  exact ⟨walk, hwalk, p, hp, List.mem_of_getLast? hlast⟩

theorem SimpleCycle.not_acyclic {c : List String} (h : SimpleCycle (Edge a) c) : ¬ Acyclic a := by
  obtain ⟨hwalk, x, between, rfl, _⟩ := h
  exact fun hacyclic => hacyclic x (transGen_of_isChain hwalk)

/-- A search within its limit that reports nothing had nothing to find, whatever the names: it takes
a reported cycle to hide another. -/
theorem acyclic_of_cycles_eq_nil (hlimit : ((nodes a).length : Int) ≤ limit) {start : List String}
    (hnone : cycles a start limit = []) : Acyclic a := by
  have hkept : Kept a limit (cycles a start limit) :=
    ⟨fun c hc => absurd (hnone ▸ hc) List.not_mem_nil, hlimit⟩
  have hround := not_leads_round_of_kept hkept
  rw [hnone] at hround
  exact fun x h =>
    hround x (Relation.TransGen.mono (fun _ _ he => ⟨he, List.not_mem_nil⟩) _ _ h)

theorem acyclic_of_no_cycles (hc : Complete a limit) {start : List String}
    (hnone : cycles a start limit = []) : Acyclic a :=
  acyclic_of_cycles_eq_nil hc.limit hnone

/-- **No cycle is missed.** Wherever the search starts, without the closing edges of the cycles it
reports nothing goes round; so it reports nothing just when nothing goes round at all. -/
theorem acyclic_without_closing_edges (a : Adjacency) (start : List String) (limit : Int)
    (hplain : ∀ x ∈ nodes a, Plain x) (hlimit : ((nodes a).length : Int) ≤ limit) :
    Acyclic (a.without (closingEdges (cycles a start limit))) ∧
    (cycles a start limit = [] ↔ Acyclic a) := by
  have hc := Complete.of_plain hplain hlimit
  refine ⟨?_, acyclic_of_no_cycles hc, ?_⟩
  · intro x h
    exact not_leads_round hc start x (Relation.TransGen.mono (fun _ _ => edge_without.mp) _ _ h)
  · intro hacyclic
    rw [List.eq_nil_iff_forall_not_mem]
    exact fun c hmem => (simple_of_mem_cycles hmem).not_acyclic hacyclic

/-- A loop, a ring of three and, inside it, a ring of two. -/
def nestedRings : Adjacency := ⟨[("a", ["b", "a"]), ("b", ["c"]), ("c", ["a", "b"])]⟩

theorem nestedRings_cycles :
    cycles nestedRings [] 3 = [["a", "a"], ["a", "b", "c", "a"], ["b", "c", "b"]] := by
  have hroots : roots nestedRings [] = ["a", "b", "c"] := by
    have hsorted : Text.sorted nestedRings.keys = ["a", "b", "c"] :=
      Text.sorted_of_pairwise (by decide)
    unfold roots
    rw [hsorted]
    decide
  have ha : neighbours nestedRings "a" = ["a", "b"] := Text.sorted_perm (.swap _ _ _) |>.trans
    (Text.sorted_of_pairwise (by decide))
  have hb : neighbours nestedRings "b" = ["c"] := Text.sorted_of_pairwise (by decide)
  have hc : neighbours nestedRings "c" = ["a", "b"] := Text.sorted_of_pairwise (by decide)
  have hnodes : (nodes nestedRings).length = 3 := by decide
  have hsignatures : signature ["a", "a"] = "a" ∧ signature ["a", "b", "c", "a"] = "a -> b -> c" ∧
      signature ["b", "c", "b"] = "b -> c" := by decide
  unfold cycles
  rw [hroots]
  simp [exploreFrom, explore, hnodes, ha, hb, hc, Search.enter, Search.report, closing, withinLimit,
    hsignatures]

/-- All three rings are reported, and the graph without `c → a`, `a → a` and `c → b` has none. -/
theorem nestedRings_opened :
    (∀ x ∈ nodes nestedRings, Plain x) ∧ ((nodes nestedRings).length : Int) ≤ 3 ∧
    cycles nestedRings [] 3 = [["a", "a"], ["a", "b", "c", "a"], ["b", "c", "b"]] ∧
    Acyclic (nestedRings.without [("a", "a"), ("c", "a"), ("c", "b")]) ∧
    ¬ Acyclic nestedRings := by
  have hplain : ∀ x ∈ nodes nestedRings, Plain x := by decide
  have hlimit : ((nodes nestedRings).length : Int) ≤ 3 := by decide
  obtain ⟨hopened, hempty⟩ := acyclic_without_closing_edges nestedRings [] 3 hplain hlimit
  rw [nestedRings_cycles] at hopened hempty
  exact ⟨hplain, hlimit, nestedRings_cycles, hopened, fun h => List.cons_ne_nil _ _ (hempty.mpr h)⟩

end ArchGraph.Adjacency
