import ArchGraph.Proofs.Acyclicity

/-!
What the walk limit does. A search that keeps, for every node, the one it was reached from can walk
back along these pointers to put a cycle together. Such a walk never breaks off: along the present
path the pointers lead from each node to the one before it (`Pointed.Along`). So the pointers give
the same cycles as the path itself (`Pointed.run_eq`), and only the limit can stop them.

The limit in turn leaves the search as it is. With it, the search visits the same nodes in the same
order and reports the same cycles, but for those that are too long (`SideBySide`); and since a cycle
that is left out never has the signature of a shorter one, it does not hide any either
(`walk_limit_filters`).
-/

namespace ArchGraph.Adjacency

variable {a : Adjacency}

/-! ## Walking back along pointers -/

/-- How a walk along the pointers ends. -/
inductive WayBack where
  /-- At the node that was looked for; `way` has the nodes met, that one last. -/
  | arrived (way : List String)
  | tooLong
  | broken
  deriving DecidableEq, Repr

namespace WayBack

/-- The walk with one more node before it. -/
def behind (node : String) : WayBack → WayBack
  | arrived way => arrived (node :: way)
  | tooLong => tooLong
  | broken => broken

/-- A cycle is reported only if the walk arrived. -/
def report (target : String) (s : Search) : WayBack → Search
  | arrived way => s.report (way.reverse ++ [target])
  | tooLong => s
  | broken => s

end WayBack

/-- Walk along the pointers to `target` in at most so many steps. A pointer that is missing is
noticed before the limit is. -/
def walkBack (parent : Table String String) (target : String) : Nat → String → WayBack
  | 0, node =>
    if node = target then .arrived [node]
    else if parent.contains node then .tooLong else .broken
  | steps + 1, node =>
    if node = target then .arrived [node]
    else
      match parent.find? node with
      | some next => (walkBack parent target steps next).behind node
      | none => .broken

/-- A search with pointers to the nodes that others were reached from, and the walks along them. -/
structure Pointed where
  search : Search
  parent : Table String String
  walks : List WayBack
  deriving DecidableEq, Repr

namespace Pointed

def enterRoot (p : Pointed) (root : String) : Pointed := { p with search := p.search.enter root }

def enter (p : Pointed) (node next : String) : Pointed :=
  { p with search := p.search.enter next, parent := p.parent.insert next node }

/-- Walk back from `node` to `target`, which an edge leads back to. -/
def close (p : Pointed) (limit : Int) (node target : String) : Pointed :=
  let walk := walkBack p.parent target limit.toNat node
  { p with search := walk.report target p.search, walks := p.walks ++ [walk] }

/-- Follow the edges of the node at the end of a path, as `explore` does. -/
def explore (adjacency : Adjacency) (limit : Int) : Nat → List String → Pointed → Pointed
  | 0, _, p => p
  | depth + 1, path, p =>
    (neighbours adjacency (path.headD "")).foldl
      (fun p next =>
        if next ∉ p.search.visited then
          explore adjacency limit depth (next :: path) (p.enter (path.headD "") next)
        else if next ∈ path then p.close limit (path.headD "") next
        else p)
      p

def exploreFrom (adjacency : Adjacency) (limit : Int) (p : Pointed) (root : String) : Pointed :=
  if root ∈ p.search.visited then p
  else explore adjacency limit ((nodes adjacency).length + 1) [root] (p.enterRoot root)

def run (adjacency : Adjacency) (start : List String) (limit : Int) : Pointed :=
  (roots adjacency start).foldl (exploreFrom adjacency limit) ⟨⟨[], [], []⟩, ∅, []⟩

/-- The search is `s`, the pointers lead back along its path, and no walk broke off so far. -/
structure Along (p : Pointed) (s : Search) (path : List String) : Prop where
  search : p.search = s
  seen : ∀ x ∈ path, x ∈ s.visited
  back : path.IsChain (fun x y => p.parent.find? x = some y)
  unbroken : WayBack.broken ∉ p.walks

end Pointed

/-- Where pointers lead back along a path, a walk to a node on it goes along the path. -/
theorem walkBack_eq {parent : Table String String} {target node : String} {rest : List String}
    (hback : (node :: rest).IsChain (fun x y => parent.find? x = some y))
    (hin : target ∈ node :: rest) (steps : Nat) :
    walkBack parent target steps node =
      if ((node :: rest).takeWhile (· ≠ target)).length ≤ steps then
        .arrived ((node :: rest).takeWhile (· ≠ target) ++ [target])
      else .tooLong := by
  induction rest generalizing node steps with
  | nil =>
      obtain rfl : target = node := by simpa using hin
      cases steps with
      | zero => simp [walkBack]
      | succ steps => simp [walkBack]
  | cons above rest ih =>
      by_cases hnode : node = target
      · subst hnode
        cases steps with
        | zero => simp [walkBack]
        | succ steps => simp [walkBack]
      · obtain ⟨hpointer, habove⟩ := List.isChain_cons_cons.mp hback
        have hin' : target ∈ above :: rest := (List.mem_cons.mp hin).resolve_left (Ne.symm hnode)
        rw [List.takeWhile_cons_of_pos (by simpa using hnode), List.length_cons]
        cases steps with
        | zero => simp [walkBack, hnode, Table.contains, hpointer]
        | succ steps =>
            simp only [walkBack, hnode, if_false, hpointer, ih habove hin',
              Nat.add_le_add_iff_right]
            split
            · rfl
            · rfl

theorem Search.visited_report (s : Search) (c : List String) :
    (s.report c).visited = s.visited := by
  unfold Search.report
  split
  · rfl
  · rfl

namespace Pointed

variable {p : Pointed} {s : Search} {limit : Int} {node target : String} {rest : List String}

theorem Along.close (h : p.Along s (node :: rest)) (hin : target ∈ node :: rest) :
    (p.close limit node target).Along
      (if withinLimit limit target
        (node :: rest) then s.report (closing target (node :: rest)) else s)
      (node :: rest) where
  search := by
    have hlimit : withinLimit limit target (node :: rest) = true ↔
        ((node :: rest).takeWhile (· ≠ target)).length ≤ limit.toNat := by
      unfold withinLimit
      rw [Bool.or_eq_true, beq_iff_eq, decide_eq_true_eq]
      omega
    unfold Pointed.close
    simp only [walkBack_eq h.back hin, h.search, hlimit, closing_eq]
    split
    · rfl
    · rfl
  seen := by
    intro x hx
    split
    · rw [Search.visited_report]
      exact h.seen x hx
    · exact h.seen x hx
  back := h.back
  unbroken := by
    intro hbroken
    rcases List.mem_append.mp hbroken with hbroken | hbroken
    · exact h.unbroken hbroken
    · rw [List.mem_singleton, walkBack_eq h.back hin] at hbroken
      split at hbroken
      · cases hbroken
      · cases hbroken

theorem Along.enter (h : p.Along s (node :: rest)) {next : String} (hnew : next ∉ s.visited) :
    (p.enter node next).Along (s.enter next) (next :: node :: rest) where
  search := congrArg (Search.enter · next) h.search
  seen := by
    intro x hx
    rcases List.mem_cons.mp hx with rfl | hx
    · exact List.mem_cons_self
    · exact List.mem_cons_of_mem _ (h.seen x hx)
  back := by
    have hfind : ∀ x, (p.enter node next).parent.find? x =
        if x = next then some node else p.parent.find? x := fun x => Table.find?_upsert _ _ _ _
    refine List.isChain_cons_cons.mpr ⟨by rw [hfind, if_pos rfl], ?_⟩
    -- The new pointer is not one of the path, since its nodes were seen before.
    refine List.IsChain.imp_of_mem_imp (fun x y hx _ hpointer => ?_) h.back
    have hold : x ≠ next := by
      rintro rfl
      exact hnew (h.seen x hx)
    rw [hfind, if_neg hold]
    exact hpointer
  unbroken := h.unbroken

theorem Along.leave (h : p.Along s (node :: rest)) : p.Along s rest where
  search := h.search
  seen := fun x hx => h.seen x (List.mem_cons_of_mem _ hx)
  back := List.isChain_of_isChain_cons h.back
  unbroken := h.unbroken

/-- What exploring to a given depth has to do. -/
def Follows (a : Adjacency) (limit : Int) (depth : Nat) : Prop :=
  ∀ node rest p s, Along p s (node :: rest) →
    (explore a limit depth (node :: rest) p).Along
      (Adjacency.explore a limit depth (node :: rest) s)
      (node :: rest)

/-- One edge from the end of a path. -/
def follow (a : Adjacency) (limit : Int) (depth : Nat) (path : List String) (p : Pointed)
    (next : String) : Pointed :=
  if next ∉ p.search.visited then explore a limit depth
    (next :: path) (p.enter (path.headD "") next)
  else if next ∈ path then p.close limit (path.headD "") next
  else p

theorem follow_along {depth : Nat} (hdepth : Follows a limit depth) (h : p.Along s (node :: rest))
    (next : String) :
    (follow a limit depth (node :: rest) p next).Along
      (Adjacency.follow a limit depth (node :: rest) s next) (node :: rest) := by
  unfold follow Adjacency.follow
  rw [h.search]
  split
  · rename_i hnew
    exact (hdepth next (node :: rest) _ _ (h.enter hnew)).leave
  · by_cases hin : next ∈ node :: rest
    · rw [if_pos hin]
      simp only [hin, true_and]
      exact h.close hin
    · rw [if_neg hin, if_neg (fun hback => hin hback.1)]
      exact h

theorem explore_along (depth : Nat) : Follows a limit depth := by
  induction depth with
  | zero => exact fun _ _ _ _ h => h
  | succ depth ih =>
      intro node rest p s h
      exact List.foldl_rel (r := fun p s => Along p s (node :: rest)) h
        (fun next _ _ _ h => follow_along ih h next)

theorem exploreFrom_along (h : p.Along s []) (root : String) :
    (exploreFrom a limit p root).Along (Adjacency.exploreFrom a limit s root) [] := by
  unfold exploreFrom Adjacency.exploreFrom
  rw [h.search]
  split
  · exact h
  · have hroot : (p.enterRoot root).Along (s.enter root) [root] :=
      ⟨congrArg (Search.enter · root) h.search,
        fun x hx => List.mem_singleton.mp hx ▸ List.mem_cons_self, List.isChain_singleton root,
        h.unbroken⟩
    exact (explore_along ((nodes a).length + 1) root [] _ _ hroot).leave

/-- With pointers the search reports the same cycles, and none of its walks breaks off. -/
theorem run_eq (a : Adjacency) (start : List String) (limit : Int) :
    (run a start limit).search.cycles = cycles a start limit ∧
    WayBack.broken ∉ (run a start limit).walks := by
  have hstart : Along ⟨⟨[], [], []⟩, ∅, []⟩ ⟨[], [], []⟩ [] :=
    ⟨rfl, by simp, List.isChain_nil, by simp⟩
  have hrun : (run a start limit).Along
      ((roots a start).foldl (Adjacency.exploreFrom a limit) ⟨[], [], []⟩) [] :=
    List.foldl_rel
      (r := fun p s => Along p s []) hstart (fun root _ _ _ h => exploreFrom_along h root)
  exact ⟨congrArg Search.cycles hrun.search, hrun.unbroken⟩

end Pointed

/-! ## Two limits side by side -/

/-- A cycle that can be walked back along in so many steps. -/
def fitsIn (steps : Nat) (cycle : List String) : Bool :=
  decide ((distinct cycle).length ≤ steps + 1)

theorem length_distinct_closed {x : String} {l : List String} (h : (x :: l).Nodup) :
    (distinct (x :: l ++ [x])).length = l.length + 1 := by
  have hperm : (distinct (x :: l ++ [x])).Perm (x :: l) := by
    rw [List.perm_ext_iff_of_nodup (nodup_distinct _) h]
    intro y
    simp only [mem_distinct, List.mem_append, List.mem_cons]
    tauto
  rw [hperm.length_eq, List.length_cons]

/-- Rotations of a cycle are of one length. -/
theorem SimpleCycle.fitsIn_eq {R : String → String → Prop} {c d : List String}
    (hc : SimpleCycle R c) (hd : SimpleCycle R d) (h : opened c ~r opened d) (steps : Nat) :
    fitsIn steps c = fitsIn steps d := by
  obtain ⟨_, x, l, rfl, hl⟩ := hc
  obtain ⟨_, y, m, rfl, hm⟩ := hd
  rw [opened_closed, opened_closed] at h
  unfold fitsIn
  rw [length_distinct_closed hl, length_distinct_closed hm, ← List.length_cons, ← List.length_cons,
    h.perm.length_eq]

/-- One search has visited what another has, and reported what of it fits in. -/
structure Shortened (steps : Nat) (s full : Search) : Prop where
  visited : s.visited = full.visited
  cycles : s.cycles = full.cycles.filter (fitsIn steps)

/-- Two searches on one path, one of them under a limit of so many steps and shortened by it. -/
structure SideBySide (a : Adjacency) (steps : Nat) (limit : Int) (path : List String)
    (s full : Search) : Prop extends Shortened steps s full where
  inv : ∃ fin, Inv a steps path fin s
  inv_full : ∃ fin, Inv a limit path fin full

theorem Search.report_of_mem {s : Search} {c : List String} (h : signature c ∈ s.signatures) :
    s.report c = s := if_pos h

theorem Search.report_of_notMem {s : Search} {c : List String} (h : signature c ∉ s.signatures) :
    s.report c =
      { s with signatures := signature c :: s.signatures, cycles := s.cycles ++ [c] } := if_neg h

section

variable {steps : Nat} {limit : Int} {node : String} {path rest : List String} {s full : Search}

/-- A cycle that does not fit in makes no difference. -/
theorem Shortened.leave_out (h : Shortened steps s full) {c : List String}
    (hlong : fitsIn steps c = false) : Shortened steps s (full.report c) := by
  by_cases hsig : signature c ∈ full.signatures
  · rwa [Search.report_of_mem hsig]
  · rw [Search.report_of_notMem hsig]
    refine ⟨h.visited, ?_⟩
    rw [List.filter_append, List.filter_cons_of_neg (by simp [hlong]), List.filter_nil,
      List.append_nil]
    exact h.cycles

/-- A cycle that fits in is new to both searches or to none. -/
theorem SideBySide.report (h : SideBySide a steps limit path s full) (hcomplete : Complete a limit)
    {c : List String} (hc : SimpleCycle (Edge a) c) (hfits : fitsIn steps c = true) :
    Shortened steps (s.report c) (full.report c) := by
  obtain ⟨fin, hs⟩ := h.inv
  obtain ⟨fin', hfull⟩ := h.inv_full
  have hsignatures : signature c ∈ s.signatures ↔ signature c ∈ full.signatures := by
    rw [hs.signatures, hfull.signatures, h.cycles]
    constructor
    · rintro ⟨d, hd, hsame⟩
      exact ⟨d, List.mem_of_mem_filter hd, hsame⟩
    · rintro ⟨d, hd, hsame⟩
      obtain ⟨u, v, hfound⟩ := hfull.found d hd
      -- One signature, so one cycle up to rotation: it is as long as the new one.
      have hrotated := hcomplete.apart d c hfound.simple hc hsame
      have hfits' : fitsIn steps d = true := by rwa [hfound.simple.fitsIn_eq hc hrotated]
      exact ⟨d, List.mem_filter.mpr ⟨hd, hfits'⟩, hsame⟩
  by_cases hsig : signature c ∈ full.signatures
  · rw [Search.report_of_mem hsig, Search.report_of_mem (hsignatures.mpr hsig)]
    exact h.toShortened
  · rw [Search.report_of_notMem hsig, Search.report_of_notMem (mt hsignatures.mp hsig)]
    refine ⟨h.visited, ?_⟩
    rw [List.filter_append, List.filter_cons_of_pos hfits, List.filter_nil, h.cycles]

theorem withinLimit_eq_fitsIn {next : String} (hn : path.Nodup) (hin : next ∈ path) :
    withinLimit steps next path = fitsIn steps (closing next path) := by
  have hnodup : (next :: (path.takeWhile (· ≠ next)).reverse).Nodup := by
    have hrev := List.nodup_reverse.mpr (hn.sublist (way_back_splits hin).sublist)
    rwa [List.reverse_append, List.reverse_singleton, List.singleton_append] at hrev
  unfold withinLimit fitsIn closing
  rw [length_distinct_closed hnodup, List.length_reverse, Bool.eq_iff_iff]
  simp only [Bool.or_eq_true, beq_iff_eq, decide_eq_true_eq]
  omega

theorem SideBySide.enter (h : SideBySide a steps limit path s full) {next : String}
    (hnew : next ∉ full.visited) (hchain : (next :: path).IsChain (fun x y => Edge a y x)) :
    SideBySide a steps limit (next :: path) (s.enter next) (full.enter next) where
  visited := congrArg (next :: ·) h.visited
  cycles := h.cycles
  inv := h.inv.imp fun _ hs => hs.enter (h.visited ▸ hnew) hchain
  inv_full := h.inv_full.imp fun _ hfull => hfull.enter hnew hchain

/-- What exploring to a given depth has to do under two limits. -/
def StaysSideBySide (a : Adjacency) (steps : Nat) (limit : Int) (depth : Nat) : Prop :=
  ∀ node rest s full, SideBySide a steps limit (node :: rest) s full →
    (nodes a).length < depth + rest.length →
    SideBySide a steps limit rest (explore a steps depth (node :: rest) s)
      (explore a limit depth (node :: rest) full)

theorem SideBySide.follow (h : SideBySide a steps limit (node :: rest) s full) {depth : Nat}
    (hcomplete : Complete a limit) (hdepth : StaysSideBySide a steps limit depth) {next : String}
    (hedge : Edge a node next) (hlength : (nodes a).length < depth + (node :: rest).length) :
    SideBySide a steps limit (node :: rest) (follow a steps depth (node :: rest) s next)
      (follow a limit depth (node :: rest) full next) := by
  obtain ⟨fin, hs⟩ := h.inv
  obtain ⟨fin', hfull⟩ := h.inv_full
  have hshortened : Shortened steps (Adjacency.follow a steps depth (node :: rest) s next)
      (Adjacency.follow a limit depth (node :: rest) full next) := by
    unfold Adjacency.follow
    rw [h.visited]
    split
    · rename_i hnew
      have hchain : (next :: node :: rest).IsChain (fun x y => Edge a y x) :=
        List.isChain_cons_cons.mpr ⟨hedge, hs.chain⟩
      exact (hdepth _ _ _ _ (h.enter hnew hchain) hlength).toShortened
    · by_cases hin : next ∈ node :: rest
      · have hsimple := (found_closing hs.down hs.chain
          (fun x hx => (hs.visited x).mpr (.inl hx)) hedge hin).simple
        have hwithin := hfull.withinLimit hedge hin hcomplete.limit
        simp only [hin, hwithin, true_and, if_true, withinLimit_eq_fitsIn hs.down.nodup hin]
        split
        · rename_i hfits
          exact h.report hcomplete hsimple hfits
        · rename_i hlong
          exact h.leave_out (Bool.eq_false_iff.mpr hlong)
      · rw [if_neg (fun hback => hin hback.1), if_neg (fun hback => hin hback.1)]
        exact h.toShortened
  obtain ⟨fin₁, hs₁, _⟩ := follow_inv (explore_inv depth) hs hedge hlength
  obtain ⟨fin₂, hfull₁, _⟩ := follow_inv (explore_inv depth) hfull hedge hlength
  exact ⟨hshortened, ⟨fin₁, hs₁⟩, ⟨fin₂, hfull₁⟩⟩

theorem explore_sideBySide (hcomplete : Complete a limit) (depth : Nat) :
    StaysSideBySide a steps limit depth := by
  induction depth with
  | zero =>
      intro node rest s full h hlength
      obtain ⟨fin, hs⟩ := h.inv
      have hpath := hs.length_le
      omega
  | succ depth ih =>
      intro node rest s full h hlength
      have hfollowed : SideBySide a steps limit (node :: rest)
          (explore a steps (depth + 1) (node :: rest) s)
          (explore a limit (depth + 1) (node :: rest) full) := by
        rw [explore_succ, explore_succ]
        refine List.foldl_rel (r := SideBySide a steps limit (node :: rest)) h ?_
        intro next hnext s full h
        exact h.follow hcomplete ih (mem_neighbours.mp hnext)
          (by simp only [List.length_cons]; omega)
      obtain ⟨fin, hs⟩ := h.inv
      obtain ⟨fin', hfull⟩ := h.inv_full
      obtain ⟨fin₁, hs₁, _⟩ := explore_inv (depth + 1) node rest fin s hs hlength
      obtain ⟨fin₂, hfull₁, _⟩ := explore_inv (depth + 1) node rest fin' full hfull hlength
      exact ⟨hfollowed.toShortened, ⟨_, hs₁⟩, ⟨_, hfull₁⟩⟩

theorem exploreFrom_sideBySide (hcomplete : Complete a limit)
    (h : SideBySide a steps limit [] s full) (root : String) :
    SideBySide a steps limit [] (exploreFrom a steps s root) (exploreFrom a limit full root) := by
  unfold exploreFrom
  rw [h.visited]
  split
  · exact h
  · rename_i hnew
    exact explore_sideBySide hcomplete _ _ _ _ _
      (h.enter hnew (List.isChain_singleton root)) (by simp)

theorem search_sideBySide (hcomplete : Complete a limit) (roots : List String) :
    SideBySide a steps limit [] (roots.foldl (exploreFrom a steps) ⟨[], [], []⟩)
      (roots.foldl (exploreFrom a limit) ⟨[], [], []⟩) :=
  List.foldl_rel (r := SideBySide a steps limit [])
    ⟨⟨rfl, rfl⟩, ⟨[], Inv.start a steps⟩, ⟨[], Inv.start a limit⟩⟩
    (fun root _ _ _ h => exploreFrom_sideBySide hcomplete h root)

end

/-- **The limit only leaves out what is too long.** With a limit of `steps` the search reports just
those of the cycles it reports with any limit of at least the number of nodes that have at most
`steps + 1` nodes, in the same order. They are cycles of the graph from end to end; and walking back
along pointers finds them too, without ever breaking off. -/
theorem walk_limit_filters (a : Adjacency) (start : List String) (steps : Nat) (limit : Int)
    (hplain : ∀ x ∈ nodes a, Plain x) (hlimit : ((nodes a).length : Int) ≤ limit) :
    cycles a start steps =
      (cycles a start limit).filter (fun c => decide ((distinct c).length ≤ steps + 1)) ∧
    (∀ c ∈ cycles a start steps, SimpleCycle (Edge a) c) ∧
    (Pointed.run a start steps).search.cycles = cycles a start steps ∧
    WayBack.broken ∉ (Pointed.run a start steps).walks := by
  have hsearch := @search_sideBySide a steps limit (Complete.of_plain hplain hlimit) (roots a start)
  exact ⟨hsearch.cycles, fun c hc => simple_of_mem_cycles hc, Pointed.run_eq a start steps⟩

/-- With a limit of one step the ring of three is left out, and the other two stay. -/
theorem nestedRings_within_one_step :
    (∀ x ∈ nodes nestedRings, Plain x) ∧ ((nodes nestedRings).length : Int) ≤ 3 ∧
    cycles nestedRings [] 1 = [["a", "a"], ["b", "c", "b"]] := by
  have hplain : ∀ x ∈ nodes nestedRings, Plain x := by decide
  have hlimit : ((nodes nestedRings).length : Int) ≤ 3 := by decide
  refine ⟨hplain, hlimit, ?_⟩
  have hfiltered := (walk_limit_filters nestedRings [] 1 3 hplain hlimit).1
  rw [nestedRings_cycles] at hfiltered
  exact hfiltered

end ArchGraph.Adjacency
