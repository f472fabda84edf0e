import ArchGraph.Proofs.Detour
import ArchGraph.Proofs.Multigraph
import ArchGraph.Proofs.NewCycles

/-!
When a new call that goes round is noticed. A cycle is flagged as new if the baseline's search did
not report it, and a search reports one cycle for each edge that leads back to its path. So a new
call that shares that edge with a known cycle can go unnoticed, and in a baseline that has a cycle
there is always room for such a call (`new_rings_noticed_iff`).
-/

namespace ArchGraph.Cycle

open Adjacency (SimpleCycle Plain opened signature)

/-- Some component cycle is flagged as new. -/
def Alarm (cs : List Cycle) : Prop := ∃ c ∈ cs, c.kind = .component ∧ c.isNew = true

/-- The call between two components is part of a way round. -/
def OnRing (g : Graph) (p : String × String) : Prop :=
  ∃ ring, SimpleCycle (ComponentCall g) ring ∧ p ∈ hops ring

/-- The candidate has a call on a way round that the baseline lacks. -/
def NewOnRing (baseline candidate : Graph) : Prop :=
  ∃ a b, OnRing candidate (a, b) ∧ ¬ ComponentCall baseline a b

theorem alarm_iff {baseline candidate : Graph} {limit : Int} {cs : List Cycle}
    (h : compare (some baseline) candidate limit = .ok cs) :
    Alarm cs ↔ ∃ walk ∈ componentWalks candidate limit, ¬ Reported baseline limit walk := by
  constructor
  · rintro ⟨c, hc, hkind, hnew⟩
    obtain ⟨hwalk, hiff⟩ := isNew_iff h hc hkind
    exact ⟨c.nodes, hwalk, hiff.mp hnew⟩
  · rintro ⟨walk, hwalk, hunknown⟩
    obtain ⟨c, hc, hkind, rfl⟩ := exists_of_walk h hwalk
    exact ⟨c, hc, hkind, (isNew_iff h hc hkind).2.mpr hunknown⟩

theorem componentWalks_ne_nil {g : Graph} {limit : Int}
    (hlimit : ((components g).length : Int) ≤ limit) {ring : List String}
    (hring : SimpleCycle (ComponentCall g) ring) : componentWalks g limit ≠ [] := by
  intro hnone
  rw [← edge_eq_componentCall] at hring
  exact hring.not_acyclic (Adjacency.acyclic_of_cycles_eq_nil hlimit hnone)

/-! ## What is noticed -/

theorem onRing_of_reported {g : Graph} {limit : Int} {walk : List String}
    {R : String → String → Prop}
    (hplain : ∀ x ∈ components g, Plain x) (hwalk : SimpleCycle R walk)
    (hnames : ∀ x ∈ opened walk, Plain x) (h : Reported g limit walk) {p : String × String}
    (hp : p ∈ hops walk) : OnRing g p := by
  obtain ⟨known, hknown, hsame⟩ := h
  have hring := simple_of_walk hknown
  have hmem : ∀ x ∈ opened known, x ∈ components g :=
    (edge_eq_componentCall g ▸ hring : SimpleCycle (Adjacency.Edge _) known).opened_mem.1
  obtain ⟨_, y, rest, rfl, _⟩ := hwalk
  obtain ⟨hchain, x, between, rfl, hn⟩ := hring
  have hrot := Adjacency.isRotated_of_signature_eq (fun z hz => hplain z (hmem z hz)) hnames
    (by rw [Adjacency.opened_closed]; exact List.cons_ne_nil _ _)
    (by rw [Adjacency.opened_closed]; exact List.cons_ne_nil _ _) hsame
  rw [Adjacency.opened_closed, Adjacency.opened_closed] at hrot
  exact ⟨_, ⟨hchain, x, between, rfl, hn⟩, (Adjacency.mem_hops_of_isRotated hrot).mpr hp⟩

/-- A way round none of whose calls was on a way round before is noticed: one of its calls closes a
reported cycle, which the baseline cannot have reported. -/
theorem alarm_of_new_ring {baseline candidate : Graph} {limit : Int} {cs : List Cycle}
    (hb : ∀ x ∈ components baseline, Plain x) (hc : ∀ x ∈ components candidate, Plain x)
    (hlimit : ((components candidate).length : Int) ≤ limit)
    (h : compare (some baseline) candidate limit = .ok cs) {ring : List String}
    (hring : SimpleCycle (ComponentCall candidate) ring)
    (hnew : ∀ p ∈ hops ring, ¬ OnRing baseline p) : Alarm cs := by
  have hedges := edge_eq_componentCall candidate
  obtain ⟨walk, hwalk, p, hp, hshared⟩ := Adjacency.exists_shared_hop
    (Adjacency.Complete.of_plain hc hlimit) [] (hedges ▸ hring)
  have hsimple := simple_of_walk hwalk
  have hmem : ∀ x ∈ opened walk, x ∈ components candidate :=
    (hedges ▸ hsimple : SimpleCycle (Adjacency.Edge _) walk).opened_mem.1
  refine (alarm_iff h).mpr ⟨walk, hwalk, fun hreported => hnew p hp ?_⟩
  exact onRing_of_reported hb hsimple (fun x hx => hc x (hmem x hx)) hreported hshared

/-! ## Graphs of classes that call each other -/

/-- One more class, with a method of its name. -/
def withClass (g : Graph) (name : String) : Graph :=
  g.addNode name "method" [("class_name", .str name), ("name", .str name)]

def withCall (g : Graph) (call : String × String) : Graph :=
  g.addEdge call.1 call.2 (Coded.code EdgeType.calls) []

/-- The graph of the calls between some classes. -/
def ofCalls (calls : List (String × String)) : Graph :=
  calls.foldl withCall ((calls.flatMap (fun c => [c.1, c.2])).foldl withClass (Graph.empty ""))

theorem wellFormed_withClasses (names : List String) {g : Graph} (h : g.WellFormed) :
    (names.foldl withClass g).WellFormed := by
  induction names generalizing g with
  | nil => exact h
  | cons name names ih => exact ih (Graph.wellFormed_addNode h _ _ _)

theorem wellFormed_withCalls (calls : List (String × String)) {g : Graph} (h : g.WellFormed) :
    (calls.foldl withCall g).WellFormed := by
  induction calls generalizing g with
  | nil => exact h
  | cons call calls ih => exact ih (Graph.wellFormed_addEdge h _ _ _ _)

theorem relationship?_withClasses (names : List String) (g : Graph) (s t k : String) :
    (names.foldl withClass g).relationship? s t k = g.relationship? s t k := by
  induction names generalizing g with
  | nil => rfl
  | cons name names ih =>
      rw [List.foldl_cons, ih]
      exact Graph.relationship?_mergeNode g _ _ s t k

theorem attributesOf_withCalls (calls : List (String × String)) (g : Graph) (id : String) :
    (calls.foldl withCall g).attributesOf id = g.attributesOf id := by
  induction calls generalizing g with
  | nil => rfl
  | cons call calls ih =>
      rw [List.foldl_cons, ih]
      exact Graph.attributesOf_addEdge g _ _ _ _ id

theorem called_withCalls (calls : List (String × String)) (g : Graph) (s t : String) :
    ((calls.foldl withCall g).relationship? s t (Coded.code EdgeType.calls)).isSome = true ↔
      (s, t) ∈ calls ∨ (g.relationship? s t (Coded.code EdgeType.calls)).isSome = true := by
  induction calls generalizing g with
  | nil => simp
  | cons call calls ih =>
      rw [List.foldl_cons, ih, withCall, Graph.relationship?_addEdge, List.mem_cons]
      by_cases h : (s, t) = call
      · subst h
        simp
      · have hne : ¬ (s, t, Coded.code EdgeType.calls) =
            (call.1, call.2, Coded.code EdgeType.calls) := by
          intro heq
          obtain ⟨hsource, htarget⟩ := Prod.mk.inj heq
          exact h (Prod.ext hsource (Prod.mk.inj htarget).1)
        rw [if_neg hne]
        simp [h]

/-- A method of a class, by the names of both. -/
structure IsMethodOf (name : String) (attributes : Attributes) : Prop where
  qualified : attributes.attribute "qualified_class" = .null
  simple : attributes.attribute "class_name" = .str name
  method : attributes.attribute "name" = .str name

theorem attribute_insertAll (attributes : Attributes) (pairs : List (String × Json))
    (name : String) :
    (attributes.insertAll pairs).attribute name =
      ((pairs.reverse.lookup name).or (attributes.find? name)).getD .null := by
  rw [Table.attribute, Table.find?_insertAll]

theorem isMethodOf_withClasses (names : List String) (g : Graph)
    (hunqualified : ∀ id, (g.attributesOf id).attribute "qualified_class" = .null) {id : String}
    (h : id ∈ names ∨ IsMethodOf id (g.attributesOf id)) :
    IsMethodOf id ((names.foldl withClass g).attributesOf id) := by
  induction names generalizing g with
  | nil => exact h.resolve_left List.not_mem_nil
  | cons name names ih =>
      have hstep : ∀ id, (withClass g name).attributesOf id = if id = name then
          (g.attributesOf name).insertAll [(Graph.typeName, .str "method"),
            ("class_name", .str name), ("name", .str name)] else g.attributesOf id :=
        fun id => Graph.attributesOf_mergeNode g name id _
      have hkept :
          ∀ id, ((withClass g name).attributesOf id).attribute "qualified_class" = .null := by
        intro id
        rw [hstep]
        split
        · rw [attribute_insertAll]
          exact hunqualified name
        · exact hunqualified id
      apply ih (withClass g name) hkept
      by_cases hname : id = name
      · subst hname
        refine .inr ⟨hkept id, ?_, ?_⟩
        · rw [hstep, if_pos rfl, attribute_insertAll]
          rfl
        · rw [hstep, if_pos rfl, attribute_insertAll]
          rfl
      · rcases h with h | h
        · exact .inl ((List.mem_cons.mp h).resolve_left hname)
        · rw [hstep, if_neg hname]
          exact .inr h

variable {calls : List (String × String)}

theorem isMethodOf_ofCalls {e : String × String} (h : e ∈ calls) :
    IsMethodOf e.1 ((ofCalls calls).attributesOf e.1) ∧
      IsMethodOf e.2 ((ofCalls calls).attributesOf e.2) := by
  have hends : ∀ id ∈ [e.1, e.2], IsMethodOf id ((ofCalls calls).attributesOf id) := by
    intro id hid
    unfold ofCalls
    rw [attributesOf_withCalls]
    exact isMethodOf_withClasses _ _ (fun _ => rfl) (.inl (List.mem_flatMap.mpr ⟨e, h, hid⟩))
  exact ⟨hends e.1 (by simp), hends e.2 (by simp)⟩

theorem mem_callEdges_ofCalls {e : String × String} :
    e ∈ (ofCalls calls).callEdges ↔ e ∈ calls := by
  have hwell : (ofCalls calls).WellFormed :=
    wellFormed_withCalls _ (wellFormed_withClasses _ (Graph.wellFormed_empty _ _))
  rw [Graph.mem_callEdges_iff hwell, ofCalls, called_withCalls, relationship?_withClasses]
  simp [Graph.relationship?, Graph.empty]

theorem IsMethodOf.owner {name : String} {attributes : Attributes}
    (h : IsMethodOf name attributes) :
    owner attributes = .str name := by
  unfold Cycle.owner
  rw [h.qualified]
  exact h.simple

theorem IsMethodOf.showable {name : String} {attributes : Attributes}
    (h : IsMethodOf name attributes) : Showable attributes := by
  refine ⟨⟨name, ?_⟩, some name, h.method⟩
  unfold shownClass
  rw [h.simple, h.owner]
  exact ite_self _

theorem callsShowable_ofCalls (calls : List (String × String)) : CallsShowable (ofCalls calls) := by
  intro e he
  obtain ⟨h₁, h₂⟩ := isMethodOf_ofCalls (mem_callEdges_ofCalls.mp he)
  exact ⟨h₁.showable, h₂.showable⟩

theorem componentCall_ofCalls (hnames : ∀ c ∈ calls, c.1 ≠ "" ∧ c.2 ≠ "" ∧ c.1 ≠ c.2)
    {a b : String} : ComponentCall (ofCalls calls) a b ↔ (a, b) ∈ calls := by
  constructor
  · rintro ⟨e, hcall⟩
    have he := mem_callEdges_ofCalls.mp hcall.call
    obtain ⟨h₁, h₂⟩ := isMethodOf_ofCalls he
    have hsource := hcall.source
    have htarget := hcall.target
    rw [h₁.owner] at hsource
    rw [h₂.owner] at htarget
    rwa [← Json.str.inj hsource, ← Json.str.inj htarget]
  · intro h
    obtain ⟨h₁, h₂⟩ := isMethodOf_ofCalls h
    exact ⟨(a, b), mem_callEdges_ofCalls.mpr h, h₁.owner, h₂.owner, hnames _ h⟩

/-! ## What can go unnoticed -/

/-- Some calls of a ring, and a second way from its first component to its next one. -/
def detour (first second : String) (rest : List String) (aside : String) : List (String × String) :=
  hops (first :: second :: rest ++ [first]) ++ [(first, aside), (aside, second)]

theorem mem_of_detour {first second aside : String} {rest : List String} {c : String × String}
    (hc : c ∈ detour first second rest aside) :
    c.1 ∈ aside :: first :: second :: rest ∧ c.2 ∈ aside :: first :: second :: rest := by
  have hring : ∀ x ∈ first :: second :: rest ++ [first], x ∈ aside :: first :: second :: rest := by
    intro x hx
    simp only [List.mem_append, List.mem_cons, List.not_mem_nil, or_false] at hx ⊢
    tauto
  rcases List.mem_append.mp hc with hc | hc
  · obtain ⟨hsource, htarget⟩ := List.of_mem_zip hc
    exact ⟨hring _ hsource, hring _ (List.mem_of_mem_drop htarget)⟩
  · simp only [List.mem_cons, List.not_mem_nil, or_false] at hc
    rcases hc with rfl | rfl <;> simp

/-- The second way goes round too. -/
theorem ring_of_detour {R : String → String → Prop} {first second aside : String}
    {rest : List String}
    (once : (first :: second :: rest).Nodup) (hfresh : aside ∉ first :: second :: rest)
    (hR : ∀ p ∈ detour first second rest aside, R p.1 p.2) :
    SimpleCycle R (first :: aside :: second :: rest ++ [first]) := by
  refine ⟨.cons_cons (hR (first, aside) (by simp [detour]))
    (.cons_cons (hR (aside, second) (by simp [detour])) ?_), first,
    aside :: second :: rest, rfl, ?_⟩
  · refine (Adjacency.isChain_hops (second :: rest ++ [first])).imp (fun u v hhop => hR (u, v) ?_)
    exact List.mem_append_left _ (List.mem_cons_of_mem _ hhop)
  · have hperm : (first :: aside :: second :: rest).Perm (aside :: first :: second :: rest) :=
      .swap _ _ _
    exact hperm.nodup_iff.mpr (List.nodup_cons.mpr ⟨hfresh, once⟩)

/-- A ring of the baseline, listed from its least name, and a name that comes after all others. -/
structure Passable (baseline : Graph) (first second : String) (rest : List String)
    (aside : String) :
    Prop where
  ring : SimpleCycle (ComponentCall baseline) (first :: second :: rest ++ [first])
  once : (first :: second :: rest).Nodup
  least : ∀ x ∈ second :: rest, first < x
  last : ∀ x ∈ "" :: components baseline, x < aside

namespace Passable

variable {baseline : Graph} {first second aside : String} {rest : List String}

theorem component (h : Passable baseline first second rest aside) :
    ∀ x ∈ first :: second :: rest, x ∈ components baseline := by
  intro x hx
  obtain ⟨y, hcall⟩ := Adjacency.exists_next h.ring.1 x hx
  exact mem_components.mpr ⟨y, .inl hcall⟩

theorem lt_aside (h : Passable baseline first second rest aside) :
    ∀ x ∈ first :: second :: rest, x < aside :=
  fun x hx => h.last x (List.mem_cons_of_mem _ (h.component x hx))

theorem not_call_aside (h : Passable baseline first second rest aside) (x : String) :
    ¬ ComponentCall baseline x aside := by
  intro hcall
  have hmem : aside ∈ components baseline := mem_components.mpr ⟨x, .inr hcall⟩
  exact String.lt_irrefl aside (h.last aside (List.mem_cons_of_mem _ hmem))

theorem componentCall_iff (h : Passable baseline first second rest aside) {a b : String} :
    ComponentCall (ofCalls (detour first second rest aside)) a b ↔
      (a, b) ∈ detour first second rest aside := by
  apply componentCall_ofCalls
  have haside : aside ≠ "" := by
    rintro rfl
    exact String.lt_irrefl "" (h.last "" List.mem_cons_self)
  have hnames : ∀ x ∈ [first, second], x ≠ "" ∧ x ≠ aside := by
    intro x hx
    have hin : x ∈ first :: second :: rest := by
      simp only [List.mem_cons, List.not_mem_nil, or_false] at hx ⊢
      tauto
    obtain ⟨y, hcall⟩ := Adjacency.exists_next h.ring.1 x hin
    refine ⟨hcall.names.1, ?_⟩
    rintro rfl
    exact String.lt_irrefl x (h.lt_aside x hin)
  obtain ⟨hfirst, hne⟩ := hnames first (by simp)
  obtain ⟨hsecond, hne'⟩ := hnames second (by simp)
  intro c hc
  rcases List.mem_append.mp hc with hc | hc
  · exact ((simpleCycle_iff.mp h.ring).1 c hc).names
  · simp only [List.mem_cons, List.not_mem_nil, or_false] at hc
    rcases hc with rfl | rfl
    · exact ⟨hfirst, haside, hne⟩
    · exact ⟨haside, hsecond, Ne.symm hne'⟩

theorem toDetour (h : Passable baseline first second rest aside) :
    Adjacency.Detour (componentAdjacency (crossings (ofCalls (detour first second rest aside))))
      first second rest aside where
  edges := by
    intro u v
    rw [edge_componentAdjacency, h.componentCall_iff, detour, List.mem_append]
    simp
  once := h.once
  least := h.least
  last := h.lt_aside
  sources := fun _ hu => Adjacency.exists_edge_ofItems Crossing.source Crossing.target _ hu

theorem components_le (h : Passable baseline first second rest aside) :
    (components (ofCalls (detour first second rest aside))).length ≤
      (components baseline).length + 1 := by
  have hsub : ∀ x ∈ components (ofCalls (detour first second rest aside)),
      x ∈ aside :: components baseline := by
    have hring : ∀ x ∈ aside :: first :: second :: rest, x ∈ aside :: components baseline := by
      intro x hx
      rcases List.mem_cons.mp hx with rfl | hx
      · exact List.mem_cons_self
      · exact List.mem_cons_of_mem _ (h.component x hx)
    intro x hx
    obtain ⟨y, hcall | hcall⟩ := mem_components.mp hx
    · exact hring x (mem_of_detour (h.componentCall_iff.mp hcall)).1
    · exact hring x (mem_of_detour (h.componentCall_iff.mp hcall)).2
  have hlength := (List.subperm_of_subset (nodup_distinct _) hsub).length_le
  exact hlength

theorem newOnRing (h : Passable baseline first second rest aside) :
    NewOnRing baseline (ofCalls (detour first second rest aside)) := by
  have hfresh : aside ∉ first :: second :: rest :=
    fun hin => String.lt_irrefl aside (h.lt_aside aside hin)
  have hring := ring_of_detour h.once hfresh (fun p hp => h.componentCall_iff.mpr hp)
  exact ⟨first, aside, ⟨_, hring, by simp [hops]⟩, h.not_call_aside first⟩

/-- The detour goes round by a new component, and no cycle is flagged as new. -/
theorem unnoticed (h : Passable baseline first second rest aside)
    (hshown : CallsShowable baseline) {limit : Int}
    (hwithin : ((components (ofCalls (detour first second rest aside))).length : Int) ≤ limit)
    (hreported : Reported baseline limit (first :: second :: rest ++ [first])) :
    ∃ cs, compare (some baseline) (ofCalls (detour first second rest aside)) limit = .ok cs ∧
      ¬ Alarm cs := by
  obtain ⟨known, hknown⟩ := detect_ok hshown limit
  obtain ⟨found, hfound⟩ :=
    detect_ok (callsShowable_ofCalls (detour first second rest aside)) limit
  have hcompare := compare_eq_ok.mpr ⟨known, found, hknown, hfound, rfl⟩
  refine ⟨_, hcompare, fun halarm => ?_⟩
  obtain ⟨walk, hwalk, hunknown⟩ := (alarm_iff hcompare).mp halarm
  have hwalks : componentWalks (ofCalls (detour first second rest aside)) limit =
      [first :: second :: rest ++ [first]] := h.toDetour.cycles_eq hwithin
  rw [hwalks, List.mem_singleton] at hwalk
  exact hunknown (hwalk ▸ hreported)

end Passable

/-- The character that comes last. -/
def lastChar : Char := Char.ofNat 0x10FFFF

theorem lt_lastChar (c : Char) : c < lastChar ∨ c = lastChar := by
  have hlast : lastChar.toNat = 0x10FFFF := rfl
  have hvalid : c.toNat ≤ 0x10FFFF := by
    rcases c.valid with h | h
    · exact Nat.le_of_lt (Nat.lt_trans h (by decide))
    · exact Nat.le_of_lt_succ h.2
  rcases Nat.lt_or_eq_of_le hvalid with hlt | heq
  · exact .inl (hlast ▸ hlt : c.toNat < lastChar.toNat)
  · exact .inr (Char.toNat_inj.mp (heq.trans hlast.symm))

theorem lt_replicate {cs : List Char} {n : Nat} (h : cs.length < n) (tail : List Char) :
    cs < List.replicate n lastChar ++ tail := by
  induction cs generalizing n with
  | nil =>
      obtain ⟨n, rfl⟩ : ∃ m, n = m + 1 := ⟨n - 1, by simp at h; omega⟩
      exact List.nil_lt_cons _ _
  | cons c cs ih =>
      obtain ⟨n, rfl⟩ : ∃ m, n = m + 1 := ⟨n - 1, by simp at h; omega⟩
      rw [List.replicate_succ, List.cons_append, List.cons_lt_cons_iff]
      exact (lt_lastChar c).imp id (fun hc => ⟨hc, ih (by simpa using h)⟩)

/-- There are names after any given ones, with any ending. -/
theorem exists_later (names : List String) : ∃ late : String, '-' ∉ late.toList ∧
    ∀ ending : String, ∀ x ∈ names, x < late ++ ending := by
  obtain ⟨n, hn⟩ : ∃ n, ∀ x ∈ names, x.toList.length < n := by
    induction names with
    | nil => exact ⟨0, by simp⟩
    | cons name names ih =>
        obtain ⟨n, hn⟩ := ih
        refine ⟨max n (name.toList.length + 1), List.forall_mem_cons.mpr ⟨by omega, fun x hx => ?_⟩⟩
        have hx := hn x hx
        omega
  refine ⟨String.ofList (List.replicate n lastChar), ?_, fun ending x hx => ?_⟩
  · rw [String.toList_ofList]
    intro hdash
    exact absurd (List.eq_of_mem_replicate hdash) (by decide)
  · have hlt := lt_replicate (hn x hx) ending.toList
    have happend : (String.ofList (List.replicate n lastChar) ++ ending).toList =
        List.replicate n lastChar ++ ending.toList := by
      rw [String.toList_append, String.toList_ofList]
    exact (happend ▸ hlt : x.toList < (String.ofList _ ++ ending).toList)

theorem reported_of_isRotated {g : Graph} {limit : Int} {x y : String} {between rest : List String}
    (hwalk : x :: between ++ [x] ∈ componentWalks g limit) (hn : (x :: between).Nodup)
    (hrot : x :: between ~r y :: rest) : Reported g limit (y :: rest ++ [y]) := by
  refine ⟨_, hwalk, Adjacency.signature_eq_of_isRotated ?_ ?_⟩
  · rw [Adjacency.opened_closed, Adjacency.opened_closed]
    exact hrot
  · rwa [Adjacency.opened_closed]

/-- A ring of two nodes at least can be listed from its least name. -/
theorem exists_least_first {R : String → String → Prop} {ring : List String}
    (h : SimpleCycle R ring)
    (hlength : 2 < ring.length) : ∃ first second rest,
      SimpleCycle R (first :: second :: rest ++ [first]) ∧ (first :: second :: rest).Nodup ∧
      (∀ x ∈ second :: rest, first < x) ∧ opened ring ~r first :: second :: rest := by
  obtain ⟨hhops, x, between, rfl, hn⟩ := simpleCycle_iff.mp h
  have hrot := Adjacency.rotated_isRotated (x :: between)
  have hnodup : (Adjacency.rotated (x :: between)).Nodup := hrot.nodup_iff.mpr hn
  obtain ⟨first, second, rest, hring⟩ : ∃ first second rest,
      Adjacency.rotated (x :: between) = first :: second :: rest := by
    have hsame := hrot.perm.length_eq
    cases hr : Adjacency.rotated (x :: between) with
    | nil => simp [hr] at hsame
    | cons first tail =>
        cases tail with
        | nil =>
            rw [hr] at hsame
            simp only [List.length_cons, List.length_append, List.length_nil] at hsame hlength
            omega
        | cons second rest => exact ⟨first, second, rest, rfl⟩
  have hhead : Adjacency.least? (x :: between) = some first := by
    rw [← Adjacency.rotated_head, hring]
    rfl
  rw [hring] at hrot hnodup
  refine ⟨first, second, rest, ?_, hnodup, ?_, ?_⟩
  · refine simpleCycle_iff.mpr ⟨fun p hp => ?_, first, second :: rest, rfl, hnodup⟩
    exact hhops p ((Adjacency.mem_hops_of_isRotated hrot).mp hp)
  · intro y hy
    have hle := (Adjacency.least?_spec hhead).2 y
      (hrot.perm.mem_iff.mp (List.mem_cons_of_mem _ hy))
    refine lt_of_nameLE_of_ne first y (decide_eq_true hle) ?_
    rintro rfl
    exact (List.nodup_cons.mp hnodup).1 hy
  · rw [Adjacency.opened_closed]
    exact hrot.symm

/-- A ring that is reported can be listed from its least name, and then passed by. -/
theorem exists_passable {baseline : Graph} {limit : Int}
    {walk : List String} (hwalk : walk ∈ componentWalks baseline limit) :
    ∃ first second rest aside, Passable baseline first second rest aside ∧
      Reported baseline limit (first :: second :: rest ++ [first]) := by
  have hring := simple_of_walk hwalk
  obtain ⟨hhops, x, between, rfl, hn⟩ := simpleCycle_iff.mp hring
  -- No component calls itself, so there are two at least.
  have hlength : 2 < (x :: between ++ [x]).length := by
    cases between with
    | nil => exact absurd rfl (hhops (x, x) (by simp [hops])).names.2.2
    | cons y between => simp
  obtain ⟨first, second, rest, hlisted, once, least, hrot⟩ := exists_least_first hring hlength
  rw [Adjacency.opened_closed] at hrot
  obtain ⟨late, _, hlater⟩ := exists_later ("" :: components baseline)
  exact ⟨first, second, rest, _, ⟨hlisted, once, least, hlater ""⟩,
    reported_of_isRotated hwalk hn hrot⟩

/-- **When new calls that go round are noticed.** Some cycle is flagged as new just when the
candidate's search reports one that the baseline's search did not. That is so whenever a way round
has no call that was on one before. But every new call on a way round is noticed, whatever the
candidate, only for a baseline in which nothing goes round. -/
theorem new_rings_noticed_iff (baseline : Graph) :
    (∀ candidate limit cs, compare (some baseline) candidate limit = .ok cs →
      (Alarm cs ↔ ∃ walk ∈ componentWalks candidate limit, ¬ Reported baseline limit walk)) ∧
    (∀ candidate limit cs, (∀ x ∈ components baseline, Plain x) →
      (∀ x ∈ components candidate, Plain x) → ((components candidate).length : Int) ≤ limit →
      compare (some baseline) candidate limit = .ok cs →
      ∀ ring, SimpleCycle (ComponentCall candidate) ring →
        (∀ p ∈ hops ring, ¬ OnRing baseline p) → Alarm cs) ∧
    (CallsShowable baseline →
      ((∀ candidate limit cs, ((components baseline).length : Int) ≤ limit →
          ((components candidate).length : Int) ≤ limit →
          compare (some baseline) candidate limit = .ok cs → NewOnRing baseline candidate →
          Alarm cs) ↔
        ∀ ring, ¬ SimpleCycle (ComponentCall baseline) ring)) := by
  refine ⟨fun _ _ _ h => alarm_iff h, fun _ _ _ hb hc hlimit h _ hring hnew =>
    alarm_of_new_ring hb hc hlimit h hring hnew, fun hshown => ⟨?_, ?_⟩⟩
  · intro hall ring hring
    let limit : Int := (components baseline).length + 1
    have hroom : ((components baseline).length : Int) ≤ limit := by omega
    obtain ⟨walk, hwalk⟩ := List.exists_mem_of_ne_nil _ (componentWalks_ne_nil hroom hring)
    obtain ⟨first, second, rest, aside, hpass, hreported⟩ := exists_passable hwalk
    have hlength := hpass.components_le
    obtain ⟨cs, hcompare, hsilent⟩ := hpass.unnoticed hshown (by omega) hreported
    exact hsilent (hall _ limit cs hroom (by omega) hcompare hpass.newOnRing)
  · rintro hnone candidate limit cs _ hwithin hcompare ⟨_, _, ⟨ring, hring, _⟩, _⟩
    obtain ⟨walk, hwalk⟩ := List.exists_mem_of_ne_nil _ (componentWalks_ne_nil hwithin hring)
    refine (alarm_iff hcompare).mpr ⟨walk, hwalk, ?_⟩
    rintro ⟨known, hknown, _⟩
    exact hnone known (simple_of_walk hknown)

/-- Two classes that call each other. -/
def mutualCallers : Graph := ofCalls [("A", "B"), ("B", "A")]

/-- The same with a third class, by way of which the first calls the second too. -/
def bypassed : Graph := ofCalls [("A", "B"), ("B", "A"), ("A", "C"), ("C", "B")]

theorem componentCall_mutualCallers {a b : String} :
    ComponentCall mutualCallers a b ↔ (a, b) ∈ hops ["A", "B", "A"] :=
  componentCall_ofCalls (by decide)

theorem mutualCallers_ring : SimpleCycle (ComponentCall mutualCallers) ["A", "B", "A"] :=
  simpleCycle_iff.mpr ⟨fun _ hp => componentCall_mutualCallers.mpr hp, "A", ["B"], rfl, by decide⟩

theorem mem_mutualCallers : ∀ x ∈ components mutualCallers, x ∈ ["A", "B"] := by
  have hends : ∀ p ∈ hops ["A", "B", "A"], p.1 ∈ ["A", "B"] ∧ p.2 ∈ ["A", "B"] := by decide
  intro x hx
  obtain ⟨y, hcall | hcall⟩ := mem_components.mp hx
  · exact (hends _ (componentCall_mutualCallers.mp hcall)).1
  · exact (hends _ (componentCall_mutualCallers.mp hcall)).2

theorem mutualCallers_components : (components mutualCallers).length ≤ 2 :=
  (List.subperm_of_subset (nodup_distinct _) mem_mutualCallers).length_le

theorem mutualCallers_passable : Passable mutualCallers "A" "B" [] "C" where
  ring := mutualCallers_ring
  once := by decide
  least := by decide
  last := by
    have hnames : ∀ x ∈ ["A", "B"], x < "C" := by decide
    exact List.forall_mem_cons.mpr ⟨by decide, fun x hx => hnames x (mem_mutualCallers x hx)⟩

/-- Whatever is reported of a single ring is the ring. -/
theorem mutualCallers_reported : Reported mutualCallers 3 ["A", "B", "A"] := by
  have hlimit : ((components mutualCallers).length : Int) ≤ 3 := by
    have hlength := mutualCallers_components
    omega
  obtain ⟨walk, hwalk⟩ := List.exists_mem_of_ne_nil _
    (componentWalks_ne_nil hlimit mutualCallers_ring)
  obtain ⟨hhops, x, between, rfl, hn⟩ := simpleCycle_iff.mp (simple_of_walk hwalk)
  have hrot : x :: between ~r ["A", "B"] :=
    Adjacency.isRotated_of_hops_subset (by decide) (List.nodup_cons.mp hn).1
      (fun p hp => componentCall_mutualCallers.mp (hhops p hp))
  exact reported_of_isRotated hwalk hn hrot

/-- The way from `A` by `C` to `B` and back is new, and it is not noticed. -/
theorem bypassed_unnoticed :
    ((components mutualCallers).length : Int) ≤ 3 ∧ ((components bypassed).length : Int) ≤ 3 ∧
    ∃ cs, compare (some mutualCallers) bypassed 3 = .ok cs ∧ NewOnRing mutualCallers bypassed ∧
      ¬ Alarm cs := by
  have hlength := mutualCallers_components
  have hmore : (components bypassed).length ≤ (components mutualCallers).length + 1 :=
    mutualCallers_passable.components_le
  have hwithin : ((components bypassed).length : Int) ≤ 3 := by omega
  obtain ⟨cs, hcompare, hsilent⟩ := mutualCallers_passable.unnoticed
    (callsShowable_ofCalls _) hwithin mutualCallers_reported
  exact ⟨by omega, hwithin, cs, hcompare,
    mutualCallers_passable.newOnRing, hsilent⟩

theorem mutualCallers_not_always_noticed :
    CallsShowable mutualCallers ∧
    ∃ candidate limit cs, ((components mutualCallers).length : Int) ≤ limit ∧
      ((components candidate).length : Int) ≤ limit ∧
      compare (some mutualCallers) candidate limit = .ok cs ∧ NewOnRing mutualCallers candidate ∧
      ¬ Alarm cs := by
  have hshown : CallsShowable mutualCallers := callsShowable_ofCalls _
  refine ⟨hshown, ?_⟩
  have hiff := (new_rings_noticed_iff mutualCallers).2.2 hshown
  by_contra hnone
  refine hiff.mp ?_ _ mutualCallers_ring
  intro candidate limit cs hb hc hcompare hnew
  by_contra hsilent
  exact hnone ⟨candidate, limit, cs, hb, hc, hcompare, hnew, hsilent⟩

end ArchGraph.Cycle
