import ArchGraph.CallGraph
import ArchGraph.Proofs.Registration
import Mathlib.Data.List.Perm.Subperm

/-!
Conservation of invocations: whatever the shape of the call graph, the depth-first expansion
resolves every registered method once. So its result is that of a plain loop over the registered
methods, up to the order in which the skipped invocations were noted.

* `target?` and `leftOut?` say what becomes of one invocation;
* `resolveAll` resolves a list of methods, and `resolveAll_perm` says that their order does not
  matter;
* `Walked` is what holds at every point of the expansion, `expand_walked` that expanding keeps it;
* `expand_depth` says that the bound on the depth is never reached.
-/

namespace ArchGraph.CallGraph

variable {ctx : Resolution.Context}

/-- The method an invocation is linked to. -/
def target? (ctx : Resolution.Context) (m : Registered) (i : Invocation) : Option MethodDecl :=
  (Resolution.resolve ctx m.owner m.decl.kind i).bind (fun hit =>
    if hit.1.id = m.decl.id ∧ i.selfCall = false then none else some hit.1)

/-- Why an invocation is left out. -/
def reason? (ctx : Resolution.Context) (m : Registered) (i : Invocation) : Option String :=
  match Resolution.resolve ctx m.owner m.decl.kind i with
  | none => some "no index entry matched"
  | some (found, step) =>
    if found.id = m.decl.id ∧ i.selfCall = false then some ("false self-loop via " ++ step.label)
    else none

/-- The record of an invocation that is left out. -/
def leftOut? (ctx : Resolution.Context) (m : Registered) (i : Invocation) :
    Option SkippedInvocation :=
  (reason? ctx m i).map (fun reason =>
    { sourceMethodId := m.decl.id
      methodName := i.methodName
      declaredType := (Text.given? i.declaredQualified).or i.declaredSimple
      line := i.line
      reason })

/-- The identifiers of the methods that the invocations of a method are linked to. -/
def calledIds (ctx : Resolution.Context) (m : Registered) : List String :=
  (m.fact.invocations.filterMap (target? ctx m)).map (·.id)

/-- The records of the invocations of a method that are left out. -/
def leftOut (ctx : Resolution.Context) (m : Registered) : List SkippedInvocation :=
  m.fact.invocations.filterMap (leftOut? ctx m)

/-- Every invocation is either linked or left out. -/
theorem target?_isSome (m : Registered) (i : Invocation) :
    (target? ctx m i).isSome = (leftOut? ctx m i).isNone := by
  unfold target? leftOut? reason?
  cases Resolution.resolve ctx m.owner m.decl.kind i with
  | none => rfl
  | some hit =>
      obtain ⟨found, step⟩ := hit
      by_cases h : found.id = m.decl.id ∧ i.selfCall = false <;> simp [h]

theorem given?_or (a b : Option String) :
    (Text.given? a).or b = if (Text.given? a).isSome then a else b := by
  cases a with
  | none => rfl
  | some s => by_cases h : s = "" <;> simp [Text.given?, Option.filter, h]

/-- An outcome is a link to the target, or the record of what is left out. -/
theorem outcome_cases (ctx : Resolution.Context) (m : Registered) (i : Invocation) :
    (∃ t, outcome ctx m i = .linked t ∧ target? ctx m i = some t ∧ leftOut? ctx m i = none) ∨
    (∃ s, outcome ctx m i = .skipped s ∧ target? ctx m i = none ∧ leftOut? ctx m i = some s) := by
  unfold outcome target? leftOut? reason? skip unmatchedReason selfLoopReason
  rw [given?_or]
  cases Resolution.resolve ctx m.owner m.decl.kind i with
  | none => exact .inr ⟨_, rfl, rfl, rfl⟩
  | some hit =>
      obtain ⟨found, step⟩ := hit
      by_cases h : found.id = m.decl.id ∧ i.selfCall = false
      · right
        simp [h]
      · left
        simp [h]

/-! ## Resolving methods one after the other -/

/-- Resolve the invocations of one method. -/
def resolveOne (ctx : Resolution.Context) (g : ResolvedGraph) (m : Registered) : ResolvedGraph :=
  (outcomes ctx m).foldl (record m.decl.id) g

/-- Resolve every method of a list in turn. -/
def resolveAll (ctx : Resolution.Context) (ms : List Registered) (g : ResolvedGraph) :
    ResolvedGraph := ms.foldl (resolveOne ctx) g

def addCalls (ids : List String) (node : MethodNode) : MethodNode :=
  { node with calls := ids.foldl addNew node.calls }

theorem record_outcomes (m : Registered) (is : List Invocation) (g : ResolvedGraph) :
    (is.map (outcome ctx m)).foldl (record m.decl.id) g =
      { g with
        methods := g.methods.modify m.decl.id
          (addCalls ((is.filterMap (target? ctx m)).map (·.id)))
        skipped := g.skipped ++ is.filterMap (leftOut? ctx m) } := by
  induction is generalizing g with
  | nil =>
      simp only [List.map_nil, List.foldl_nil, List.filterMap_nil, List.append_nil]
      rw [show addCalls [] = fun node => node from rfl, Table.modify_id]
  | cons i is ih =>
      rw [List.map_cons, List.foldl_cons, ih]
      obtain ⟨t, ho, ht, hl⟩ | ⟨s, ho, ht, hl⟩ := outcome_cases ctx m i
      · simp only [ho, record, List.filterMap_cons, ht, hl, List.map_cons, Table.modify_modify]
        rfl
      · simp only [ho, record, List.filterMap_cons, ht, hl, List.append_assoc,
          List.singleton_append]

/-- What resolving one method changes: its own calls, and the skipped invocations. -/
theorem resolveOne_eq (g : ResolvedGraph) (m : Registered) :
    resolveOne ctx g m =
      { g with
        methods := g.methods.modify m.decl.id (addCalls (calledIds ctx m))
        skipped := g.skipped ++ leftOut ctx m } :=
  record_outcomes m m.fact.invocations g

theorem resolveAll_eq (ms : List Registered) (g : ResolvedGraph) :
    resolveAll ctx ms g =
      { g with
        methods := ms.foldl
          (fun t m => t.modify m.decl.id (addCalls (calledIds ctx m))) g.methods
        skipped := g.skipped ++ ms.flatMap (leftOut ctx) } := by
  induction ms generalizing g with
  | nil => simp [resolveAll]
  | cons m ms ih =>
      have step : resolveAll ctx (m :: ms) g = resolveAll ctx ms (resolveOne ctx g m) := rfl
      rw [step, ih, resolveOne_eq]
      simp only [List.foldl_cons, List.flatMap_cons, List.append_assoc]

/-- Methods of different identifiers may be resolved in any order. -/
theorem resolveAll_perm (ctx : Resolution.Context) {ms ns : List Registered} (hp : ms.Perm ns)
    (hid : ∀ m ∈ ms, ∀ n ∈ ms, m.decl.id = n.decl.id → m = n) (g : ResolvedGraph) :
    (resolveAll ctx ms g).skipped.Perm (resolveAll ctx ns g).skipped ∧
    { resolveAll ctx ms g with skipped := (resolveAll ctx ns g).skipped } =
      resolveAll ctx ns g := by
  have hmethods : ms.foldl (fun t m => t.modify m.decl.id (addCalls (calledIds ctx m))) g.methods =
      ns.foldl (fun t m => t.modify m.decl.id (addCalls (calledIds ctx m))) g.methods := by
    apply hp.foldl_eq'
    intro m hm n hn t
    by_cases h : m.decl.id = n.decl.id
    · rw [hid m hm n hn h]
    · exact Table.modify_comm t h _ _
  simp only [resolveAll_eq, hmethods, and_true]
  exact (hp.flatMap_right _).append_left _

theorem foldl_modify_keys (ms : List Registered) (t : Table String MethodNode) :
    (ms.foldl (fun t m => t.modify m.decl.id (addCalls (calledIds ctx m))) t).keys = t.keys := by
  induction ms generalizing t with
  | nil => rfl
  | cons m ms ih => rw [List.foldl_cons, ih, Table.keys_modify]

theorem foldl_modify_find?_of_notMem (ms : List Registered) (t : Table String MethodNode)
    (id : String) (h : ∀ m ∈ ms, m.decl.id ≠ id) :
    (ms.foldl (fun t m => t.modify m.decl.id (addCalls (calledIds ctx m))) t).find? id =
      t.find? id := by
  induction ms generalizing t with
  | nil => rfl
  | cons m ms ih =>
      have hm : id ≠ m.decl.id := fun e => h m List.mem_cons_self e.symm
      rw [List.foldl_cons, ih _ (fun n hn => h n (List.mem_cons_of_mem _ hn)),
        Table.find?_modify, if_neg hm]

/-- Among methods of different identifiers, each one gets just its own calls. -/
theorem foldl_modify_find? (ms : List Registered) (t : Table String MethodNode)
    (hn : (ms.map (·.decl.id)).Nodup) {m : Registered} (hm : m ∈ ms) :
    (ms.foldl (fun t m => t.modify m.decl.id (addCalls (calledIds ctx m))) t).find? m.decl.id =
      (t.find? m.decl.id).map (addCalls (calledIds ctx m)) := by
  induction ms generalizing t with
  | nil => cases hm
  | cons n ms ih =>
      rw [List.map_cons, List.nodup_cons] at hn
      rw [List.foldl_cons]
      rcases List.mem_cons.mp hm with rfl | hm
      · rw [foldl_modify_find?_of_notMem, Table.find?_modify, if_pos rfl]
        intro n hn' e
        exact hn.1 (e ▸ List.mem_map_of_mem hn')
      · have hne : m.decl.id ≠ n.decl.id := fun e => hn.1 (e ▸ List.mem_map_of_mem hm)
        rw [ih _ hn.2 hm, Table.find?_modify, if_neg hne]

/-! ## The expansion -/

/-- What holds at every point of the expansion: `done` are the methods resolved so far, and those of
them that are not finished are on the way from the start, `opened`. -/
structure Walked (ctx : Resolution.Context) (r : Registry) (opened : List Registered) (p : Progress)
    (done : List Registered) : Prop where
  graph : p.graph = resolveAll ctx done r.graph
  once : done.Nodup
  known : ∀ m ∈ done, m ∈ r.methods
  finished : ∀ id ∈ p.expanded, ∃ m ∈ done, m.decl.id = id
  started : ∀ m ∈ done, m.decl.id ∈ p.expanded ∨ m ∈ opened

variable {r : Registry} {cs : List Component}

theorem Walked.start (ctx : Resolution.Context) (r : Registry) : Walked ctx r [] ⟨r.graph, []⟩ [] :=
  ⟨rfl, List.nodup_nil, by simp, by simp, by simp⟩

/-- A method that is neither finished nor on the way has not been resolved. -/
theorem Walked.enter {opened done : List Registered} {p : Progress}
    (h : Walked ctx r opened p done) {m : Registered} (hm : m ∈ r.methods)
    (hnew : m.decl.id ∉ p.expanded) (hopen : m ∉ opened) :
    Walked ctx r (m :: opened) (resolveCalls ctx m p) (done ++ [m]) := by
  have hdone : m ∉ done := fun hin => (h.started m hin).elim hnew hopen
  refine ⟨?_, ?_, ?_, ?_, ?_⟩
  · have step : (resolveCalls ctx m p).graph = resolveOne ctx p.graph m := rfl
    rw [step, h.graph]
    simp [resolveAll]
  · rw [← List.concat_eq_append]
    exact List.Nodup.concat hdone h.once
  · intro x hx
    rcases List.mem_append.mp hx with hx | hx
    · exact h.known x hx
    · rw [List.mem_singleton.mp hx]
      exact hm
  · intro id hid
    obtain ⟨x, hx, rfl⟩ := h.finished id hid
    exact ⟨x, List.mem_append_left _ hx, rfl⟩
  · intro x hx
    rcases List.mem_append.mp hx with hx | hx
    · exact (h.started x hx).imp_right (List.mem_cons_of_mem _)
    · rw [List.mem_singleton.mp hx]
      exact .inr List.mem_cons_self

theorem Walked.leave {opened done : List Registered} {p : Progress} {m : Registered}
    (h : Walked ctx r (m :: opened) p done) (hm : m ∈ done) :
    Walked ctx r opened (finish m p) done := by
  refine ⟨h.graph, h.once, h.known, ?_, ?_⟩
  · intro id hid
    rcases List.mem_cons.mp hid with rfl | hid
    · exact ⟨m, hm, rfl⟩
    · exact h.finished id hid
  · intro x hx
    rcases h.started x hx with he | he
    · exact .inl (List.mem_cons_of_mem _ he)
    · rcases List.mem_cons.mp he with rfl | he
      · exact .inl List.mem_cons_self
      · exact .inr he

theorem Walked.mem_of_expanded {opened done : List Registered} {p : Progress}
    (h : Walked ctx r opened p done) (hs : Registry.Sound cs r) {m : Registered}
    (hm : m ∈ r.methods) (hid : m.decl.id ∈ p.expanded) : m ∈ done := by
  obtain ⟨x, hx, he⟩ := h.finished _ hid
  rw [← hs.eq_of_id (h.known x hx) hm he]
  exact hx

theorem notMem_of_key {opened : List Registered} {m : Registered}
    (h : m.decl.key ∉ opened.map (·.decl.key)) : m ∉ opened :=
  fun hin => h (List.mem_map_of_mem hin)

theorem mem_of_registered {ts : List MethodDecl} {m : Registered}
    (h : m ∈ ts.filterMap (fun t => r.find? t.id)) : m ∈ r.methods := by
  obtain ⟨t, _, ht⟩ := List.mem_filterMap.mp h
  exact List.mem_of_find?_eq_some ht

/-- Expanding a method resolves it and whatever it reaches, each at most once. -/
theorem expand_walked (hs : Registry.Sound cs r) (depth : Nat) (opened : List Registered)
    (p : Progress) (done : List Registered) (m : Registered) (h : Walked ctx r opened p done)
    (hm : m ∈ r.methods) (hkey : m.decl.key ∉ opened.map (·.decl.key)) :
    ∃ done', Walked ctx r opened (expand ctx r depth (opened.map (·.decl.key)) p m) done' ∧
      (∀ x ∈ done, x ∈ done') ∧ (0 < depth → m ∈ done') := by
  induction depth generalizing opened p done m with
  | zero => exact ⟨done, h, fun _ hx => hx, fun h0 => absurd h0 (Nat.lt_irrefl 0)⟩
  | succ depth ih =>
      unfold expand
      split
      · rename_i hid
        exact ⟨done, h, fun _ hx => hx, fun _ => h.mem_of_expanded hs hm hid⟩
      · rename_i hid
        -- The targets are walked with `m` on the way; a target that is on the way is passed over.
        have targets : ∀ ts : List Registered, (∀ t ∈ ts, t ∈ r.methods) → ∀ q done,
            Walked ctx r (m :: opened) q done → ∃ done', Walked ctx r (m :: opened)
              (ts.foldl (fun q t =>
                if t.decl.key ∈ m.decl.key :: opened.map (·.decl.key) ∨ !t.decl.kind.isTarget then q
                else expand ctx r depth (m.decl.key :: opened.map (·.decl.key)) q t) q) done' ∧
              ∀ x ∈ done, x ∈ done' := by
          intro ts
          induction ts with
          | nil => exact fun _ q done hq => ⟨done, hq, fun _ hx => hx⟩
          | cons t ts iht =>
              intro hts q done hq
              have hrest := iht (fun x hx => hts x (List.mem_cons_of_mem _ hx))
              rw [List.foldl_cons]
              split
              · exact hrest q done hq
              · rename_i hpass
                have hfree : t.decl.key ∉ (m :: opened).map (·.decl.key) :=
                  fun hin => hpass (.inl hin)
                obtain ⟨done₁, h₁, hsub₁, _⟩ :=
                  ih (m :: opened) q done t hq (hts t List.mem_cons_self) hfree
                obtain ⟨done₂, h₂, hsub₂⟩ := hrest _ done₁ h₁
                exact ⟨done₂, h₂, fun x hx => hsub₂ x (hsub₁ x hx)⟩
        obtain ⟨done', h', hsub⟩ := targets _ (fun t ht => mem_of_registered ht) _ _
          (h.enter hm hid (notMem_of_key hkey))
        have hmem : m ∈ done' := hsub m (List.mem_append_right _ List.mem_cons_self)
        exact ⟨done', h'.leave hmem, fun x hx => hsub x (List.mem_append_left _ hx), fun _ => hmem⟩

theorem visit_walked (hs : Registry.Sound cs r) {p : Progress} {done : List Registered}
    {m : Registered} (h : Walked ctx r [] p done) (hm : m ∈ r.methods) :
    ∃ done', Walked ctx r [] (visit ctx r p m) done' ∧ (∀ x ∈ done, x ∈ done') ∧ m ∈ done' := by
  unfold visit
  split
  · obtain ⟨done', h', hsub, hmem⟩ :=
      expand_walked hs (r.methods.length + 1) [] p done m h hm List.not_mem_nil
    exact ⟨done', h', hsub, hmem (Nat.succ_pos _)⟩
  · unfold resolveEntry
    split
    · rename_i hid
      exact ⟨done, h, fun _ hx => hx, h.mem_of_expanded hs hm hid⟩
    · rename_i hid
      have hmem : m ∈ done ++ [m] := List.mem_append_right _ List.mem_cons_self
      exact ⟨done ++ [m], (h.enter hm hid List.not_mem_nil).leave hmem,
        fun x hx => List.mem_append_left _ hx, hmem⟩

/-- Visiting every registered method resolves each of them once, in some order. -/
theorem visits_walked (ctx : Resolution.Context) (hs : Registry.Sound cs r) :
    ∃ done : List Registered, done.Perm r.methods ∧
      (r.methods.foldl (visit ctx r) ⟨r.graph, []⟩).graph = resolveAll ctx done r.graph := by
  have run : ∀ ms : List Registered, (∀ m ∈ ms, m ∈ r.methods) → ∀ p done, Walked ctx r [] p done →
      ∃ done', Walked ctx r [] (ms.foldl (visit ctx r) p) done' ∧
        (∀ x ∈ done, x ∈ done') ∧ ∀ m ∈ ms, m ∈ done' := by
    intro ms
    induction ms with
    | nil => exact fun _ p done h => ⟨done, h, fun _ hx => hx, by simp⟩
    | cons m ms ih =>
        intro hms p done h
        obtain ⟨done₁, h₁, hsub₁, hm₁⟩ := visit_walked hs h (hms m List.mem_cons_self)
        obtain ⟨done₂, h₂, hsub₂, hall⟩ :=
          ih (fun x hx => hms x (List.mem_cons_of_mem _ hx)) _ done₁ h₁
        refine ⟨done₂, h₂, fun x hx => hsub₂ x (hsub₁ x hx), ?_⟩
        intro x hx
        rcases List.mem_cons.mp hx with rfl | hx
        · exact hsub₂ x hm₁
        · exact hall x hx
  obtain ⟨done, h, _, hall⟩ := run r.methods (fun _ hm => hm) _ _ (Walked.start ctx r)
  have hnodup : r.methods.Nodup := List.Nodup.of_map _ hs.nodup_ids
  exact ⟨done, (List.perm_ext_iff_of_nodup h.once hnodup).mpr
    (fun m => ⟨h.known m, hall m⟩), h.graph⟩

/-- No way from a start passes a class and name twice, so any depth that exceeds the number of
methods gives the same expansion. -/
theorem expand_depth (depth depth' : Nat) (opened : List Registered) (p : Progress) (m : Registered)
    (hopened : ∀ o ∈ opened, o ∈ r.methods) (hkeys : (opened.map (·.decl.key)).Nodup)
    (hm : m ∈ r.methods) (hkey : m.decl.key ∉ opened.map (·.decl.key))
    (hd : r.methods.length < depth + opened.length)
    (hd' : r.methods.length < depth' + opened.length) :
    expand ctx r depth (opened.map (·.decl.key)) p m =
      expand ctx r depth' (opened.map (·.decl.key)) p m := by
  have hlen : opened.length ≤ r.methods.length :=
    (List.subperm_of_subset (List.Nodup.of_map _ hkeys) hopened).length_le
  induction depth generalizing depth' opened p m with
  | zero => omega
  | succ depth ih =>
      cases depth' with
      | zero => omega
      | succ depth' =>
          have hopened' : ∀ o ∈ m :: opened, o ∈ r.methods := by
            intro o ho
            rcases List.mem_cons.mp ho with rfl | ho
            · exact hm
            · exact hopened o ho
          have hkeys' : ((m :: opened).map (·.decl.key)).Nodup := List.nodup_cons.mpr ⟨hkey, hkeys⟩
          have hlen' : (m :: opened).length ≤ r.methods.length :=
            (List.subperm_of_subset (List.Nodup.of_map _ hkeys') hopened').length_le
          unfold expand
          split
          · rfl
          · dsimp only
            congr 1
            apply List.foldl_ext
            intro q t ht
            split
            · rfl
            · rename_i hpass
              have hlength : (m :: opened).length = opened.length + 1 := rfl
              exact ih depth' (m :: opened) q t hopened' hkeys' (mem_of_registered ht)
                (fun hin => hpass (.inl hin)) (by omega) (by omega) hlen'

/-! ## Every invocation once -/

/-- The registered methods of facts, in order of registration. -/
def registered (facts : FactSet) : List Registered := (Registry.ofFacts facts).methods

/-- What the invocations in facts are resolved against. -/
def resolution (facts : FactSet) : Resolution.Context := context facts (Registry.ofFacts facts)

/-- The graph of a loop that resolves every registered method once, in order of registration. -/
def flat (facts : FactSet) : ResolvedGraph :=
  resolveAll (resolution facts) (registered facts) (Registry.ofFacts facts).graph

/-- A graph accounts for every invocation of every registered method of the facts. -/
structure Accounts (facts : FactSet) (g : ResolvedGraph) : Prop where
  /-- The nodes are those of the registered methods, each under its own identifier. -/
  nodes : g.methods.keys = (registered facts).map (·.decl.id) ∧ g.methods.Distinct
  /-- A registered method is made of one method fact. -/
  built : ∀ m ∈ registered facts, Registry.BuiltFrom facts.components m
  /-- An invocation is linked or left out, and not both. -/
  once : ∀ m ∈ registered facts, ∀ i ∈ m.fact.invocations,
    (target? (resolution facts) m i).isSome = (leftOut? (resolution facts) m i).isNone
  /-- The calls of a method are the targets of its invocations, in order and without repetition. -/
  calls : ∀ m ∈ registered facts, ∃ node, g.methods.find? m.decl.id = some node ∧
    node.toMethodDecl = m.decl ∧
    node.calls = distinct ((m.fact.invocations.filterMap (target? (resolution facts) m)).map (·.id))
  /-- What is left out is noted once each. -/
  skipped : g.skipped.Perm ((registered facts).flatMap (fun m =>
    m.fact.invocations.filterMap (leftOut? (resolution facts) m)))
  /-- But for the order of what is skipped, the graph is that of the plain loop. -/
  asLoop : g.skipped.Perm (flat facts).skipped ∧
    { g with skipped := (flat facts).skipped } = flat facts

theorem flat_skipped (facts : FactSet) :
    (flat facts).skipped = (registered facts).flatMap (leftOut (resolution facts)) := by
  have hs := Registry.sound_ofFacts facts
  simp only [flat, resolveAll_eq, hs.skipped, List.nil_append]

theorem flat_keys (facts : FactSet) :
    (flat facts).methods.keys = (registered facts).map (·.decl.id) := by
  simp only [flat, resolveAll_eq, foldl_modify_keys]
  exact (Registry.sound_ofFacts facts).keys

theorem flat_find? (facts : FactSet) {m : Registered} (hm : m ∈ registered facts) :
    ∃ node, (flat facts).methods.find? m.decl.id = some node ∧ node.toMethodDecl = m.decl ∧
      node.calls = distinct (calledIds (resolution facts) m) := by
  have hs := Registry.sound_ofFacts facts
  obtain ⟨node, hfind, hdecl, hcalls⟩ := hs.fresh m hm
  refine ⟨addCalls (calledIds (resolution facts) m) node, ?_, hdecl, ?_⟩
  · have hnodup : ((registered facts).map (·.decl.id)).Nodup := hs.nodup_ids
    simp only [flat, resolveAll_eq]
    rw [foldl_modify_find? _ _ hnodup hm, hfind, Option.map_some]
  · simp only [addCalls, hcalls, distinct]

/-- **Every invocation is accounted for once.** Calls in circles, diamonds and overloads that share
their class and name make no difference. -/
theorem build_accounts (facts : FactSet) (hbound : facts.bound = true) :
    ∃ g, build facts = .ok g ∧ Accounts facts g := by
  have hs := Registry.sound_ofFacts facts
  obtain ⟨done, hperm, hgraph⟩ := visits_walked (resolution facts) hs
  have hgraph' :
      ofBound facts = resolveAll (resolution facts) done (Registry.ofFacts facts).graph :=
    hgraph
  obtain ⟨hskipped, hloop⟩ := resolveAll_perm (resolution facts) hperm
    (fun m hm n hn => hs.eq_of_id (hperm.mem_iff.mp hm) (hperm.mem_iff.mp hn))
    (Registry.ofFacts facts).graph
  rw [← hgraph'] at hskipped hloop
  have hmethods : (ofBound facts).methods = (flat facts).methods := by
    have h := congrArg ResolvedGraph.methods hloop
    exact h
  refine ⟨ofBound facts, by simp [build, hbound], ?_⟩
  constructor
  · rw [hmethods]
    exact ⟨flat_keys facts, by rw [Table.Distinct, flat_keys]; exact hs.nodup_ids⟩
  · exact hs.built
  · exact fun m _ i _ => target?_isSome m i
  · intro m hm
    rw [hmethods]
    exact flat_find? facts hm
  · have hs' : (ofBound facts).skipped.Perm (flat facts).skipped := hskipped
    rw [flat_skipped] at hs'
    exact hs'
  · exact ⟨hskipped, hloop⟩

/-- Two services that call each other, and a call that nothing answers. -/
def mutualCalls : FactSet :=
  let call (name : String) : Invocation := ⟨name, none, none, none, false, none⟩
  let method (name : String) (calls : List Invocation) : MethodFact :=
    ⟨name, none, [], none, none, none, none, none, calls, [], []⟩
  let service (name : String) (m : MethodFact) : Component :=
    ⟨name, "shop." ++ name, "shop", .businessService, [], ∅, [m], none, none, none, none⟩
  ⟨"shop", [service "Orders" (method "place" [call "bill", call "audit"]),
    service "Billing" (method "bill" [call "place", call "bill"])], ∅, true⟩

theorem build_accounts_mutualCalls :
    mutualCalls.bound = true ∧ ∃ g, build mutualCalls = .ok g ∧ Accounts mutualCalls g :=
  ⟨rfl, build_accounts mutualCalls rfl⟩

end ArchGraph.CallGraph
