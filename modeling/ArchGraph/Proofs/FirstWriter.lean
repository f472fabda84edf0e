import ArchGraph.Proofs.Conservation
import ArchGraph.Proofs.NameOffers

/-!
Who owns a name. The registered methods, one after the other, make the history of the index
(`index_ofFacts`). So of those that answer to a name the first one owns it, in the scope of each
kind of method (`firstOfKind?`) and in the scope of all methods that calls can reach
(`firstTarget?`). What a name leads to can be read off the list of registered methods, and the index
is only a faster way to find it (`firstWriter_ofFacts`).
-/

namespace ArchGraph

/-- The names a method answers to among those of its kind: its own, and for a service also those of
the interfaces of its class. -/
def Registered.answers (m : Registered) : List String :=
  m.decl.names ++ if m.decl.kind = .service then
    (Registry.interfaceNames m.owner).map (methodKey · m.decl.methodName) else []

/-- What is done to the index for a method. -/
def Registered.operations (m : Registered) : List Index.Operation :=
  .register m.decl :: if m.decl.kind = .service then
    (Registry.interfaceNames m.owner).map (fun name =>
      .addAlias (methodKey name m.decl.methodName) m.decl) else []

theorem Registered.method_of_operations (m : Registered) {op : Index.Operation}
    (h : op ∈ m.operations) : op.method = m.decl := by
  unfold operations at h
  rcases List.mem_cons.mp h with rfl | h
  · rfl
  · split at h
    · obtain ⟨name, _, rfl⟩ := List.mem_map.mp h
      rfl
    · cases h

theorem Registered.names_of_operations (m : Registered) :
    m.operations.flatMap (·.names) = m.answers := by
  unfold operations answers
  rw [List.flatMap_cons]
  split
  · rw [List.flatMap_map, List.map_eq_flatMap]
    rfl
  · rfl

theorem Registered.any_offers (m : Registered) (kind : MethodKind) (name : String) :
    m.operations.any (fun op => decide (op.method.kind = kind ∧ name ∈ op.names)) =
      (m.decl.kind == kind && m.answers.contains name) := by
  rw [Bool.eq_iff_iff]
  simp only [List.any_eq_true, decide_eq_true_iff, Bool.and_eq_true, beq_iff_eq,
    List.contains_iff_mem, ← m.names_of_operations, List.mem_flatMap]
  constructor
  · rintro ⟨op, hop, hkind, hname⟩
    exact ⟨m.method_of_operations hop ▸ hkind, op, hop, hname⟩
  · rintro ⟨hkind, op, hop, hname⟩
    exact ⟨op, hop, m.method_of_operations hop ▸ hkind, hname⟩

theorem Registered.any_offers_target (m : Registered) (name : String) :
    m.operations.any (fun op => decide (name ∈ op.targetNames)) =
      (m.decl.kind.isTarget && m.decl.names.contains name) := by
  have hregister : decide (name ∈ (Index.Operation.register m.decl).targetNames) =
      (m.decl.kind.isTarget && m.decl.names.contains name) := by
    unfold Index.Operation.targetNames
    cases htarget : m.decl.kind.isTarget <;> simp [htarget]
  unfold operations
  rw [List.any_cons, hregister]
  split <;> simp [Index.Operation.targetNames]

/-- A method of a component as it is registered. -/
def Registered.ofFact (c : Component) (kind : MethodKind) (m : MethodFact) : Registered :=
  ⟨Registry.methodDecl c kind m, c, m⟩

/-- A method of a class, of the given name. -/
def Registered.IsOf (c : Component) (name : String) (m : Registered) : Prop :=
  m.owner = c ∧ m.decl.methodName = name

instance (c : Component) (name : String) (m : Registered) : Decidable (m.IsOf c name) :=
  inferInstanceAs (Decidable (_ ∧ _))

/-- The first method of a kind that answers to a name. -/
def firstOfKind? (ms : List Registered) (kind : MethodKind) (name : String) : Option Registered :=
  ms.find? (fun m => m.decl.kind == kind && m.answers.contains name)

/-- The first method that calls can reach under a name of its own. -/
def firstTarget? (ms : List Registered) (name : String) : Option Registered :=
  ms.find? (fun m => m.decl.kind.isTarget && m.decl.names.contains name)

namespace Registry

/-- What holds at the start, and is kept by every component and every method that is registered,
holds in the end. -/
theorem ofFacts_induction {P : Registry → Prop} (facts : FactSet)
    (start : P (.empty facts.projectId))
    (component : ∀ r c, P r → P { r with graph := addComponent r.graph c })
    (method : ∀ c kind r m, P r → P (addMethod c kind r m)) : P (ofFacts facts) := by
  have methods : ∀ c kind (ms : List MethodFact) r, P r → P (ms.foldl (addMethod c kind) r) := by
    intro c kind ms
    induction ms with
    | nil => exact fun r h => h
    | cons m ms ih => exact fun r h => ih _ (method c kind r m h)
  have whole : ∀ r c, P r → P (add r c) := by
    intro r c h
    unfold add
    dsimp only
    split
    · exact component r c h
    · exact methods c _ c.methods _ (component r c h)
  have run : ∀ (cs : List Component) r, P r → P (cs.foldl add r) := by
    intro cs
    induction cs with
    | nil => exact fun r h => h
    | cons c cs ih => exact fun r h => ih _ (whole r c h)
  exact run _ _ start

/-- The index leads from a name to its first owner. -/
structure FirstWriter (r : Registry) : Prop where
  ofKind : ∀ kind name, r.index.ofKind.find? (kind, name) =
    (firstOfKind? r.methods kind name).map (·.decl)
  targets : ∀ name, r.index.targets.find? name = (firstTarget? r.methods name).map (·.decl)

/-- The operations of a method are those that registering it does. -/
theorem performAll_operations (index : Index) (m : Registered) :
    index.performAll m.operations = addAliases (index.register m.decl) m.owner m.decl := by
  unfold addAliases Registered.operations Index.performAll
  split
  · rw [List.foldl_cons, List.foldl_map]
    rfl
  · rfl

/-- The index is what the operations of all methods leave, one method after the other. -/
theorem index_ofFacts (facts : FactSet) : (ofFacts facts).index =
    Index.after ((ofFacts facts).methods.flatMap Registered.operations) := by
  refine ofFacts_induction
    (P := fun r => r.index = Index.after (r.methods.flatMap Registered.operations)) facts rfl
    (fun _ _ h => h) ?_
  intro c kind r m h
  unfold addMethod
  dsimp only
  split
  · exact h
  · rw [List.flatMap_append, List.flatMap_singleton, Index.after_append, ← h]
    exact (performAll_operations r.index (.ofFact c kind m)).symm

/-- The first operation that offers something is one of the first method that does. -/
theorem found_operations (ms : List Registered) {offers : Index.Operation → Bool}
    {answers : Registered → Bool} (h : ∀ m, m.operations.any offers = answers m) :
    ((ms.flatMap Registered.operations).find? offers).map (·.method) =
      (ms.find? answers).map (·.decl) := by
  induction ms with
  | nil => rfl
  | cons m ms ih =>
      rw [List.flatMap_cons, List.find?_append, List.find?_cons, ← h m]
      cases hfind : m.operations.find? offers with
      | some op =>
          have hany : m.operations.any offers = true :=
            List.any_eq_true.mpr ⟨op, List.mem_of_find?_eq_some hfind, List.find?_some hfind⟩
          rw [hany]
          exact congrArg some (m.method_of_operations (List.mem_of_find?_eq_some hfind))
      | none =>
          have hany : m.operations.any offers = false :=
            List.any_eq_false.mpr (List.find?_eq_none.mp hfind)
          rw [hany]
          exact ih

theorem firstWriter_ofFacts (facts : FactSet) : FirstWriter (ofFacts facts) := by
  constructor
  · intro kind name
    rw [index_ofFacts]
    exact (Index.empty.find?_ofKind_performAll _ kind name).trans
      (found_operations _ fun m => m.any_offers kind name)
  · intro name
    rw [index_ofFacts]
    exact (Index.empty.find?_targets_performAll _ name).trans
      (found_operations _ fun m => m.any_offers_target name)

end Registry

/-- Components that are listed in their order of registration are registered as they are listed. -/
theorem Registry.ofFacts_of_ordered (facts : FactSet)
    (hordered : facts.components.Pairwise (fun a b => a.precedes b = true)) :
    ofFacts facts = (firstOfName [] facts.components).foldl add (.empty facts.projectId) := by
  unfold ofFacts registrationOrder
  rw [List.mergeSort_of_pairwise hordered]

/-! ## Looking methods up -/

theorem given?_some (s : String) : Text.given? (some s) = if s = "" then none else some s := by
  by_cases h : s = "" <;> simp [Text.given?, Option.filter, h]

/-- The kinds of methods that are looked up in a scope. -/
def Scope.Holds : Scope → MethodKind → Prop
  | .targets, kind => kind.isTarget = true
  | .among kinds, kind => kind ∈ kinds

namespace Resolution

/-- The scopes in which an invocation is looked up. Only a call on the object itself is looked up
among the methods of the caller's own kind. -/
inductive Searches (kind : MethodKind) (i : Invocation) : Scope → Prop where
  | own (hself : i.selfCall = true) : Searches kind i (.among [kind])
  | services : Searches kind i (.among [.service])
  | targets : Searches kind i .targets

/-- Whatever an invocation is resolved to was found under some name, in a scope it is looked up
in. -/
theorem found_of_resolve {ctx : Context} {owner : Component} {kind : MethodKind} {i : Invocation}
    {t : MethodDecl} {step : Step} (h : resolve ctx owner kind i = some (t, step)) :
    ∃ scope name, Searches kind i scope ∧ ctx.index.get? scope name = some t := by
  have probed : ∀ {scope classes name}, Searches kind i scope →
      ctx.index.probe scope classes name = some t →
      ∃ scope name, Searches kind i scope ∧ ctx.index.get? scope name = some t := by
    intro scope classes name hscope hprobe
    obtain ⟨className, _, hclass⟩ := List.exists_of_findSome?_eq_some hprobe
    obtain ⟨c, _, hget⟩ := Option.bind_eq_some_iff.mp hclass
    exact ⟨_, _, hscope, hget⟩
  simp only [resolve, Option.or_eq_some_iff, Option.map_eq_some_iff, Prod.mk.injEq,
    Option.map_eq_none_iff] at h
  rcases h with ⟨_, h, rfl, _⟩ | ⟨_, ⟨_, h, rfl, _⟩ | ⟨_, ⟨_, h, rfl, _⟩ | ⟨_, ⟨_, h, rfl, _⟩ |
    ⟨_, _, h, rfl, _⟩⟩⟩⟩
  · unfold bySelf at h
    split at h
    · exact probed (.own ‹_›) h
    · cases h
  · obtain ⟨type, _, h⟩ := Option.bind_eq_some_iff.mp h
    exact probed .targets h
  · unfold byInterface at h
    split at h
    · rcases Option.or_eq_some_iff.mp h with h | ⟨_, h⟩
      · exact probed .services h
      · obtain ⟨_, _, h⟩ := List.exists_of_findSome?_eq_some h
        exact probed .targets h
    · cases h
  · unfold byDeclaredType at h
    split at h
    · exact probed .targets h
    · cases h
  · exact ⟨_, _, .targets, h⟩

end Resolution

theorem methodKey_ne_empty (className methodName : String) :
    methodKey className methodName ≠ "" := by
  intro h
  have hlist := congrArg String.toList h
  simp [methodKey] at hlist

namespace CallGraph

variable {facts : FactSet}

theorem get?_ofKind (facts : FactSet) (kind : MethodKind) {name : String} (hname : name ≠ "") :
    (resolution facts).index.get? (.among [kind]) name =
      (firstOfKind? (registered facts) kind name).map (·.decl) := by
  rw [Index.get?_kind _ kind hname]
  exact (Registry.firstWriter_ofFacts facts).ofKind kind name

theorem get?_targets (facts : FactSet) {name : String} (hname : name ≠ "") :
    (resolution facts).index.get? .targets name =
      (firstTarget? (registered facts) name).map (·.decl) := by
  rw [Index.get?_targets _ hname]
  exact (Registry.firstWriter_ofFacts facts).targets name

/-- What is found in a scope is a registered method of a kind that the scope holds. -/
theorem registered_of_get? {scope : Scope} {name : String} {t : MethodDecl}
    (h : (resolution facts).index.get? scope name = some t) :
    ∃ m ∈ registered facts, m.decl = t ∧ scope.Holds m.decl.kind := by
  have hwriter := Registry.firstWriter_ofFacts facts
  unfold Index.get? at h
  split at h
  · cases h
  · cases scope with
    | targets =>
        have hfind := (hwriter.targets name).symm.trans h
        obtain ⟨m, hm, rfl⟩ := Option.map_eq_some_iff.mp hfind
        have hp := List.find?_some hm
        rw [Bool.and_eq_true] at hp
        exact ⟨m, List.mem_of_find?_eq_some hm, rfl, hp.1⟩
    | among kinds =>
        obtain ⟨kind, hmem, hkind⟩ := List.exists_of_findSome?_eq_some h
        have hfind := (hwriter.ofKind kind name).symm.trans hkind
        obtain ⟨m, hm, rfl⟩ := Option.map_eq_some_iff.mp hfind
        have hp := List.find?_some hm
        rw [Bool.and_eq_true, beq_iff_eq] at hp
        exact ⟨m, List.mem_of_find?_eq_some hm, rfl, hp.1.symm ▸ hmem⟩

/-- No method of another class or of another name has the identifier of this one. -/
def KeepsIdentifier (facts : FactSet) (c : Component) (f : MethodFact) : Prop :=
  ∀ n ∈ registered facts, n.decl.id = f.id c → n.IsOf c f.name

/-- A class that is registered has a method of every name that it gives to a method, unless that one
serves nothing or lost its identifier. -/
theorem exists_registered {c : Component}
    (hc : c ∈ firstOfName [] (registrationOrder facts.components)) {kind : MethodKind}
    (hkind : c.kind.methodKind? = some kind) {f : MethodFact} (hf : f ∈ c.methods)
    (hserved : Registry.isServed kind f = true) (hid : KeepsIdentifier facts c f) :
    ∃ own ∈ registered facts, own.IsOf c f.name := by
  obtain ⟨own, hown, heq⟩ := Registry.present_ofFacts hc hkind hf hserved
  exact ⟨own, hown, hid own hown heq⟩

/-! ## What is linked -/

/-- The graph of bound facts is the registered one with methods resolved one after the other. -/
theorem exists_resolveAll (facts : FactSet) :
    ∃ done, ofBound facts = resolveAll (resolution facts) done (Registry.ofFacts facts).graph := by
  obtain ⟨done, _, hgraph⟩ := visits_walked (resolution facts) (Registry.sound_ofFacts facts)
  exact ⟨done, hgraph⟩

theorem methods_ofBound (facts : FactSet) : (ofBound facts).methods = (flat facts).methods := by
  have hs := Registry.sound_ofFacts facts
  obtain ⟨done, hperm, hgraph⟩ := visits_walked (resolution facts) hs
  have hids : ∀ m ∈ done, ∀ n ∈ done, m.decl.id = n.decl.id → m = n :=
    fun m hm n hn => hs.eq_of_id (hperm.mem_iff.mp hm) (hperm.mem_iff.mp hn)
  have hloop := (resolveAll_perm (resolution facts) hperm hids (Registry.ofFacts facts).graph).2
  rw [← hgraph] at hloop
  have hmethods := congrArg ResolvedGraph.methods hloop
  exact hmethods

/-- A method is linked to what its invocations reach, unless that is the method itself without it
being said. -/
theorem linked_of_resolve {m : Registered} (hm : m ∈ registered facts.bind) {i : Invocation}
    (hi : i ∈ m.fact.invocations) {t : MethodDecl} {step : Resolution.Step}
    (ht : Resolution.resolve (resolution facts.bind) m.owner m.decl.kind i = some (t, step))
    (hkept : i.selfCall = true ∨ t.id ≠ m.decl.id) :
    ∃ g node, build facts.bind = .ok g ∧ g.methods.find? m.decl.id = some node ∧
      t.id ∈ node.calls := by
  have htarget : target? (resolution facts.bind) m i = some t := by
    unfold target?
    rw [ht, Option.bind_some, if_neg]
    rintro ⟨hsame, hnot⟩
    rcases hkept with hself | hother
    · rw [hself] at hnot
      cases hnot
    · exact hother hsame
  obtain ⟨node, hfind, _, hcalls⟩ := flat_find? facts.bind hm
  refine ⟨ofBound facts.bind, node, rfl, methods_ofBound facts.bind ▸ hfind, ?_⟩
  rw [hcalls, mem_distinct]
  exact List.mem_map_of_mem (List.mem_filterMap.mpr ⟨i, hi, htarget⟩)

end CallGraph

/-- A method without parameters. -/
def methodNamed (name : String) (verb : Option String) (calls : List Invocation) : MethodFact :=
  ⟨name, none, [], none, none, none, verb, none, calls, [], []⟩

end ArchGraph
