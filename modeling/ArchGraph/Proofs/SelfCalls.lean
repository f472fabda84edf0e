import ArchGraph.Proofs.FirstWriter

/-!
Calls of a method on the object itself stay in its class: the class is looked up by its own name,
among the methods of the same kind, before anything else is tried. What is looked up are registered
methods, so a helper that no request reaches is not found, and the name is the simple one, so of two
classes that share it only the first is found (`self_calls_leave_class`).
-/

namespace ArchGraph.CallGraph

open Resolution (resolve bySelf)

/-- The name that a call on the object itself looks its class up by: the simple one if there is
one. -/
def ownName (c : Component) : String := (Text.given? (some c.name)).getD c.qualifiedName

theorem bySelf_eq {facts : FactSet} {owner : Component} {kind : MethodKind} {i : Invocation}
    {t : Registered} (hself : i.selfCall = true) (hnamed : ownName owner ≠ "")
    (hfirst : firstOfKind? (registered facts) kind (methodKey (ownName owner) i.methodName) =
      some t) :
    bySelf (resolution facts) owner kind i = some t.decl := by
  have hget := get?_ofKind facts kind (methodKey_ne_empty (ownName owner) i.methodName)
  rw [hfirst, Option.map_some] at hget
  unfold bySelf Index.probe
  rw [if_pos hself, List.findSome?_cons]
  unfold ownName at hget hnamed
  rw [given?_some] at hget hnamed ⊢
  by_cases hname : owner.name = ""
  · rw [if_pos hname, Option.getD_none] at hget hnamed
    rw [if_pos hname, Option.bind_none]
    dsimp only
    rw [List.findSome?_singleton, given?_some, if_neg hnamed, Option.bind_some, hget]
  · rw [if_neg hname, Option.getD_some] at hget
    rw [if_neg hname, Option.bind_some, hget]

theorem ownName_answers {cs : List Component} {m : Registered} (h : Registry.BuiltFrom cs m) :
    methodKey (ownName m.owner) m.decl.methodName ∈ m.answers := by
  have hclass : m.decl.className = m.owner.name := by rw [h.decl]; rfl
  have hqualified : m.decl.qualifiedClass = m.owner.qualifiedName := by rw [h.decl]; rfl
  apply List.mem_append_left
  unfold MethodDecl.names ownName
  rw [hclass, hqualified, given?_some]
  by_cases hname : m.owner.name = ""
  · rw [if_pos hname, Option.getD_none]
    simp
  · rw [if_neg hname, Option.getD_some]
    simp

/-- The first method that answers to a class and a name is one of that class and name, unless a
rival comes before. -/
theorem firstOfKind?_isOf {ms : List Registered} {cs : List Component} {c : Component}
    {kind : MethodKind} {name : String} {own : Registered} (hown : own ∈ ms) (hof : own.IsOf c name)
    (hbuilt : Registry.BuiltFrom cs own) (hkind : c.kind.methodKind? = some kind)
    (hfree : ms.Pairwise (fun n own => own.IsOf c name → n.decl.kind = kind →
      methodKey (ownName c) name ∈ n.answers → n.IsOf c name)) :
    ∃ t ∈ ms, t.IsOf c name ∧ firstOfKind? ms kind (methodKey (ownName c) name) = some t := by
  have hownKind : own.decl.kind = kind := by
    have h := hbuilt.kind
    rw [hof.1, hkind] at h
    exact (Option.some.inj h).symm
  have hanswers := ownName_answers hbuilt
  rw [hof.1, hof.2] at hanswers
  have hfound : (firstOfKind? ms kind (methodKey (ownName c) name)).isSome = true := by
    rw [firstOfKind?, List.find?_isSome]
    exact ⟨own, hown, by simp [hownKind, hanswers]⟩
  obtain ⟨t, ht⟩ := Option.isSome_iff_exists.mp hfound
  obtain ⟨hp, before, after, hsplit, hnone⟩ := List.find?_eq_some_iff_append.mp ht
  rw [Bool.and_eq_true, beq_iff_eq, List.contains_iff_mem] at hp
  refine ⟨t, List.mem_of_find?_eq_some ht, ?_, ht⟩
  rw [hsplit, List.mem_append, List.mem_cons] at hown
  rcases hown with hbefore | rfl | hafter
  · have hnot := hnone own hbefore
    simp [hownKind, hanswers] at hnot
  · exact hof
  · rw [hsplit, List.pairwise_append, List.pairwise_cons] at hfree
    exact hfree.2.1.1 own hafter hof hp.1 hp.2

/-- **A call on the object itself stays in its class.** Whatever the other classes are called and
have, it reaches a method of the own class with that name, if the class has one that serves
something and keeps its identifier, and if no method registered before it, of the same kind, answers
to the same class and name. -/
theorem self_call_reaches_own_method (facts : FactSet) (m : Registered) (i : Invocation)
    (f : MethodFact) (hm : m ∈ registered facts.bind) (hi : i ∈ m.fact.invocations)
    (hself : i.selfCall = true) (hnamed : ownName m.owner ≠ "") (hf : f ∈ m.owner.methods)
    (hname : f.name = i.methodName) (hserved : Registry.isServed m.decl.kind f = true)
    (hid : KeepsIdentifier facts.bind m.owner f)
    (hfree : (registered facts.bind).Pairwise (fun n own => own.IsOf m.owner i.methodName →
      n.decl.kind = m.decl.kind → methodKey (ownName m.owner) i.methodName ∈ n.answers →
      n.IsOf m.owner i.methodName)) :
    ∃ t ∈ registered facts.bind, t.IsOf m.owner i.methodName ∧
      resolve (resolution facts.bind) m.owner m.decl.kind i = some (t.decl, .self) ∧
      ∃ g node, build facts.bind = .ok g ∧ g.methods.find? m.decl.id = some node ∧
        t.decl.id ∈ node.calls := by
  have hs := Registry.sound_ofFacts facts.bind
  have hkind := (hs.built m hm).kind
  obtain ⟨own, hown, hof⟩ :=
    exists_registered (Registry.owner_mem_of_registered hm) hkind hf hserved hid
  rw [hname] at hof
  obtain ⟨t, ht, htof, hfirst⟩ := firstOfKind?_isOf hown hof (hs.built own hown) hkind hfree
  have hresolve : resolve (resolution facts.bind) m.owner m.decl.kind i = some (t.decl, .self) := by
    unfold resolve
    rw [bySelf_eq hself hnamed hfirst]
    rfl
  exact ⟨t, ht, htof, hresolve, linked_of_resolve hm hi hresolve (.inl hself)⟩

/-! ## Services that share their names -/

def checkOfSelf : Invocation := ⟨"check", none, none, none, true, none⟩

def stockService : Component :=
  ⟨"Stock", "shop.Stock", "shop", .businessService, [], ∅, [methodNamed "check" none []],
    none, none, none, none⟩

def orderService (package : String) : Component :=
  ⟨"Orders", package ++ ".Orders", package, .businessService, ["Shop"], ∅,
    [methodNamed "place" none [checkOfSelf], methodNamed "check" none []], none, none, none, none⟩

/-- A service, and two of one simple name and one interface that share a method name with it. -/
def sharedNames : FactSet :=
  ⟨"shop", [stockService, orderService "shop2", orderService "shop3"], ∅, false⟩

theorem sharedNames_registered : registered sharedNames.bind =
    [.ofFact stockService .service (methodNamed "check" none []),
      .ofFact (orderService "shop2") .service (methodNamed "place" none [checkOfSelf]),
      .ofFact (orderService "shop2") .service (methodNamed "check" none []),
      .ofFact (orderService "shop3") .service (methodNamed "place" none [checkOfSelf]),
      .ofFact (orderService "shop3") .service (methodNamed "check" none [])] := by
  unfold registered
  rw [Registry.ofFacts_of_ordered sharedNames.bind (by decide)]
  rfl

theorem self_call_in_sharedNames :
    ∃ m i f, m ∈ registered sharedNames.bind ∧ i ∈ m.fact.invocations ∧ i.selfCall = true ∧
      ownName m.owner ≠ "" ∧ f ∈ m.owner.methods ∧ f.name = i.methodName ∧
      Registry.isServed m.decl.kind f = true ∧ KeepsIdentifier sharedNames.bind m.owner f ∧
      (registered sharedNames.bind).Pairwise (fun n own => own.IsOf m.owner i.methodName →
        n.decl.kind = m.decl.kind → methodKey (ownName m.owner) i.methodName ∈ n.answers →
        n.IsOf m.owner i.methodName) ∧
      ∃ t ∈ registered sharedNames.bind, t.IsOf m.owner i.methodName ∧
        resolve (resolution sharedNames.bind) m.owner m.decl.kind i = some (t.decl, .self) ∧
        ∃ g node, build sharedNames.bind = .ok g ∧ g.methods.find? m.decl.id = some node ∧
          t.decl.id ∈ node.calls := by
  let m :=
    Registered.ofFact (orderService "shop2") .service (methodNamed "place" none [checkOfSelf])
  let f := methodNamed "check" none []
  have hm : m ∈ registered sharedNames.bind := by
    rw [sharedNames_registered]
    exact List.mem_cons_of_mem _ List.mem_cons_self
  have hf : f ∈ m.owner.methods := List.mem_cons_of_mem _ List.mem_cons_self
  have hid : KeepsIdentifier sharedNames.bind m.owner f := by
    unfold KeepsIdentifier
    rw [sharedNames_registered]
    decide
  have hfree : (registered sharedNames.bind).Pairwise (fun n own =>
      own.IsOf m.owner checkOfSelf.methodName → n.decl.kind = m.decl.kind →
      methodKey (ownName m.owner) checkOfSelf.methodName ∈ n.answers →
      n.IsOf m.owner checkOfSelf.methodName) := by
    rw [sharedNames_registered]
    decide
  exact ⟨m, checkOfSelf, f, hm, List.mem_cons_self, rfl, by decide, hf, rfl, rfl, hid, hfree,
    self_call_reaches_own_method sharedNames m checkOfSelf f hm List.mem_cons_self rfl
      (by decide) hf
      rfl rfl hid hfree⟩

/-! ## Calls that leave the class -/

/-- A call on the object itself is linked to another class by a step of resolution, although the own
class has a method of that name and all qualified names differ. -/
def LeavesClass (facts : FactSet) (step : Resolution.Step) : Prop :=
  (facts.components.map (·.qualifiedName)).Nodup ∧
  ∃ m ∈ registered facts.bind, ∃ i ∈ m.fact.invocations,
    i.selfCall = true ∧ m.owner.kind ≠ .configuration ∧
    (∃ f ∈ m.owner.methods, f.name = i.methodName) ∧
    ∃ t ∈ registered facts.bind,
      resolve (resolution facts.bind) m.owner m.decl.kind i = some (t.decl, step) ∧
      t.owner.qualifiedName ≠ m.owner.qualifiedName ∧
      ∃ g node, build facts.bind = .ok g ∧ g.methods.find? m.decl.id = some node ∧
        t.decl.id ∈ node.calls

/-- A call on the object itself that is resolved to another class is linked to it. -/
theorem leavesClass_of_resolve {facts : FactSet} {step : Resolution.Step} {m t : Registered}
    {i : Invocation} {f : MethodFact}
    (hnames : (facts.components.map (·.qualifiedName)).Nodup) (hm : m ∈ registered facts.bind)
    (hi : i ∈ m.fact.invocations) (hself : i.selfCall = true)
    (hkind : m.owner.kind ≠ .configuration) (hf : f ∈ m.owner.methods)
    (hname : f.name = i.methodName) (ht : t ∈ registered facts.bind)
    (hresolve : resolve (resolution facts.bind) m.owner m.decl.kind i = some (t.decl, step))
    (hother : t.owner.qualifiedName ≠ m.owner.qualifiedName) : LeavesClass facts step :=
  ⟨hnames, m, hm, i, hi, hself, hkind, ⟨f, hf, hname⟩, t, ht, hresolve, hother,
    linked_of_resolve hm hi hresolve (.inl hself)⟩

/-- A handler whose one request calls a helper of the handler, which no request reaches. -/
def ordersHandler : Component :=
  ⟨"Orders", "shop.Orders", "shop", .entryPointHandler, [], ∅,
    [methodNamed "place" (some "POST") [checkOfSelf], methodNamed "check" none []],
    none, none, none, none⟩

/-- The handler and a service that has a method of the name of the helper. -/
def verblessHelper : FactSet := ⟨"shop", [stockService, ordersHandler], ∅, false⟩

/-- The helper is not registered, so the call ends up in the other class. The second of two services
of one simple name calls the first. -/
theorem self_calls_leave_class :
    LeavesClass verblessHelper .methodName ∧ LeavesClass sharedNames .self := by
  constructor
  · have hregistry := Registry.ofFacts_of_ordered verblessHelper.bind (by decide)
    have hregistered : registered verblessHelper.bind =
        [.ofFact stockService .service (methodNamed "check" none []),
          .ofFact ordersHandler .handler (methodNamed "place" (some "POST") [checkOfSelf])] := by
      unfold registered
      rw [hregistry]
      rfl
    let m := Registered.ofFact ordersHandler .handler
      (methodNamed "place" (some "POST") [checkOfSelf])
    let t := Registered.ofFact stockService .service (methodNamed "check" none [])
    have hm : m ∈ registered verblessHelper.bind := by
      rw [hregistered]
      exact List.mem_cons_of_mem _ List.mem_cons_self
    have ht : t ∈ registered verblessHelper.bind := by
      rw [hregistered]
      exact List.mem_cons_self
    have hresolve : resolve (resolution verblessHelper.bind) m.owner m.decl.kind checkOfSelf =
        some (t.decl, .methodName) := by
      unfold resolution context
      rw [hregistry]
      rfl
    exact leavesClass_of_resolve (by decide) hm List.mem_cons_self rfl (by decide)
      (List.mem_cons_of_mem _ List.mem_cons_self) rfl ht hresolve (by decide)
  · let m := Registered.ofFact (orderService "shop3") .service
      (methodNamed "place" none [checkOfSelf])
    let t := Registered.ofFact (orderService "shop2") .service (methodNamed "check" none [])
    have hm : m ∈ registered sharedNames.bind := by
      rw [sharedNames_registered]
      simp [m]
    have ht : t ∈ registered sharedNames.bind := by
      rw [sharedNames_registered]
      simp [t]
    have hresolve : resolve (resolution sharedNames.bind) m.owner m.decl.kind checkOfSelf =
        some (t.decl, .self) := by
      unfold resolution context
      rw [Registry.ofFacts_of_ordered sharedNames.bind (by decide)]
      rfl
    exact leavesClass_of_resolve (by decide) hm List.mem_cons_self rfl (by decide)
      (List.mem_cons_of_mem _ List.mem_cons_self) rfl ht hresolve (by decide)

end ArchGraph.CallGraph
