import ArchGraph.Proofs.Determinism
import ArchGraph.Proofs.FirstWriter

/-!
Calls through an injected field. The field is bound to one class by its qualified name, but the
method is looked up by the simple name of that class first, among all methods that calls can reach.
So the call always ends there (`firstOwner?`), and it stays in the bound class just when the first
method that answers to the name is one of that class.
-/

namespace ArchGraph.CallGraph

open Resolution (resolve boundType? byField classNames)

/-- The names that a call through a field bound to a class is looked up by, in the order in which
they are tried. -/
def fieldNames (type methodName : String) : List String :=
  ((classNames type).filterMap Text.given?).map (methodKey · methodName)

/-- The first owner of the first name that has one. -/
def firstOwner? (ms : List Registered) (names : List String) : Option Registered :=
  names.findSome? (firstTarget? ms)

theorem firstTarget?_eq_some {ms : List Registered} {name : String} {t : Registered}
    (h : firstTarget? ms name = some t) :
    t ∈ ms ∧ t.decl.kind.isTarget = true ∧ name ∈ t.decl.names := by
  have hp := List.find?_some h
  rw [Bool.and_eq_true, List.contains_iff_mem] at hp
  exact ⟨List.mem_of_find?_eq_some h, hp⟩

theorem firstOwner?_eq_some {ms : List Registered} {names : List String} {t : Registered}
    (h : firstOwner? ms names = some t) :
    t ∈ ms ∧ t.decl.kind.isTarget = true ∧ ∃ name ∈ names, name ∈ t.decl.names := by
  obtain ⟨name, hname, hfirst⟩ := List.exists_of_findSome?_eq_some h
  obtain ⟨hmem, htarget, hanswers⟩ := firstTarget?_eq_some hfirst
  exact ⟨hmem, htarget, name, hname, hanswers⟩

theorem firstOwner?_isSome {ms : List Registered} {names : List String} {m : Registered}
    (hm : m ∈ ms) (htarget : m.decl.kind.isTarget = true) {name : String} (hname : name ∈ names)
    (hanswers : name ∈ m.decl.names) : ∃ t, firstOwner? ms names = some t := by
  rw [← Option.isSome_iff_exists, firstOwner?, List.findSome?_isSome_iff]
  refine ⟨name, hname, ?_⟩
  rw [firstTarget?, List.find?_isSome]
  exact ⟨m, hm, by simp [htarget, hanswers]⟩

theorem probe_targets (facts : FactSet) (classes : List (Option String)) (methodName : String) :
    (resolution facts).index.probe .targets classes methodName =
      (firstOwner? (registered facts)
        ((classes.filterMap Text.given?).map (methodKey · methodName))).map (·.decl) := by
  unfold Index.probe firstOwner?
  induction classes with
  | nil => rfl
  | cons c classes ih =>
      rw [List.findSome?_cons, List.filterMap_cons, ih]
      cases Text.given? c with
      | none => rfl
      | some name =>
          rw [Option.bind_some, get?_targets facts (methodKey_ne_empty _ _), List.map_cons,
            List.findSome?_cons]
          cases firstTarget? (registered facts) (methodKey name methodName) <;> rfl

theorem byField_eq (facts : FactSet) {owner : Component} {i : Invocation} {type : String}
    (hbound : boundType? owner i = some type) :
    byField (resolution facts) owner i =
      (firstOwner? (registered facts) (fieldNames type i.methodName)).map (·.decl) := by
  unfold byField
  rw [hbound, Option.bind_some]
  exact probe_targets facts _ _

/-- The qualified name is among those that are tried. -/
theorem qualified_mem_fieldNames {owner : Component} {i : Invocation} {type : String}
    (hbound : boundType? owner i = some type) :
    methodKey type i.methodName ∈ fieldNames type i.methodName := by
  have htype : type ≠ "" := by
    unfold boundType? at hbound
    obtain ⟨field, _, hbound⟩ := Option.bind_eq_some_iff.mp hbound
    obtain ⟨dep, _, hbound⟩ := Option.bind_eq_some_iff.mp hbound
    have hgiven := Option.filter_eq_some_iff.mp hbound
    simpa using hgiven.2
  apply List.mem_map_of_mem (f := (methodKey · i.methodName))
  refine List.mem_filterMap.mpr ⟨some type, by simp [classNames], ?_⟩
  rw [given?_some, if_neg htype]

theorem qualified_answers {cs : List Component} {m : Registered} (h : Registry.BuiltFrom cs m) :
    methodKey m.owner.qualifiedName m.decl.methodName ∈ m.decl.names := by
  have hqualified : m.decl.qualifiedClass = m.owner.qualifiedName := by rw [h.decl]; rfl
  simp [MethodDecl.names, hqualified]

/-- With distinct names, a class that calls can reach has a registered method of each name that it
gives to a method. -/
theorem exists_target {facts : FactSet} {c : Component} {f : MethodFact}
    (hn : (facts.components.map (·.qualifiedName)).Nodup) (hc : c ∈ facts.components)
    (hkind : c.kind = .businessService ∨ c.kind = .dataAccessor) (hf : f ∈ c.methods)
    (hid : KeepsIdentifier facts c f) :
    ∃ own ∈ registered facts, own.IsOf c f.name ∧ own.decl.kind.isTarget = true := by
  have hmem : c ∈ firstOfName [] (registrationOrder facts.components) := by
    have hperm : (registrationOrder facts.components).Perm facts.components :=
      List.mergeSort_perm _ _
    rw [firstOfName_eq_self (by simp) ((hperm.map _).nodup_iff.mpr hn)]
    exact hperm.mem_iff.mpr hc
  obtain ⟨kind, hmethod, htarget, hserved⟩ : ∃ kind, c.kind.methodKind? = some kind ∧
      kind.isTarget = true ∧ Registry.isServed kind f = true := by
    rcases hkind with hkind | hkind
    · exact ⟨.service, by rw [hkind]; rfl, rfl, rfl⟩
    · exact ⟨.repository, by rw [hkind]; rfl, rfl, rfl⟩
  obtain ⟨own, hown, hof⟩ := exists_registered hmem hmethod hf hserved hid
  have hownKind := ((Registry.sound_ofFacts facts).built own hown).kind
  rw [hof.1, hmethod] at hownKind
  exact ⟨own, hown, hof, Option.some.inj hownKind ▸ htarget⟩

/-- **Where a call through a bound field ends.** If the bound class has the method, the call reaches
the first method registered under the simple name of the class, or else under its qualified name,
and no later step is tried. That is a method of the bound class just when the first owner is; so it
is one whenever no method of another class answers to these names. -/
theorem field_call_reaches_first_owner (facts : FactSet) (m : Registered) (i : Invocation)
    (c : Component) (f : MethodFact) (hn : (facts.components.map (·.qualifiedName)).Nodup)
    (hm : m ∈ registered facts.bind) (hi : i ∈ m.fact.invocations) (hself : i.selfCall = false)
    (hc : c ∈ facts.bind.components) (hbound : boundType? m.owner i = some c.qualifiedName)
    (hkind : c.kind = .businessService ∨ c.kind = .dataAccessor) (hf : f ∈ c.methods)
    (hname : f.name = i.methodName) (hid : KeepsIdentifier facts.bind c f) :
    ∃ t, firstOwner? (registered facts.bind) (fieldNames c.qualifiedName i.methodName) = some t ∧
      resolve (resolution facts.bind) m.owner m.decl.kind i = some (t.decl, .field) ∧
      (t.decl.id ≠ m.decl.id → ∃ g node, build facts.bind = .ok g ∧
        g.methods.find? m.decl.id = some node ∧ t.decl.id ∈ node.calls) ∧
      ((∃ r ∈ registered facts.bind, r.owner = c ∧ ∃ step,
          resolve (resolution facts.bind) m.owner m.decl.kind i = some (r.decl, step)) ↔
        t.owner = c) ∧
      ((∀ n ∈ registered facts.bind, n.decl.kind.isTarget = true →
          (∃ name ∈ fieldNames c.qualifiedName i.methodName, name ∈ n.decl.names) →
          n.owner = c) → t.owner = c) := by
  have hs := Registry.sound_ofFacts facts.bind
  obtain ⟨own, hown, hof, htarget⟩ :=
    exists_target (FactSet.bind_names facts ▸ hn) hc hkind hf hid
  have hanswers := qualified_answers (hs.built own hown)
  rw [hof.1, hof.2, hname] at hanswers
  obtain ⟨t, ht⟩ := firstOwner?_isSome hown htarget (qualified_mem_fieldNames hbound) hanswers
  obtain ⟨hmem, hreach, hnamed⟩ := firstOwner?_eq_some ht
  have hresolve :
      resolve (resolution facts.bind) m.owner m.decl.kind i = some (t.decl, .field) := by
    have hfield := byField_eq facts.bind hbound
    rw [ht] at hfield
    have hnoself : Resolution.bySelf (resolution facts.bind) m.owner m.decl.kind i = none := by
      simp [Resolution.bySelf, hself]
    unfold resolve
    rw [hnoself, hfield]
    rfl
  refine ⟨t, ht, hresolve, fun hother => linked_of_resolve hm hi hresolve (.inr hother),
    ⟨?_, fun h => ⟨t, hmem, h, .field, hresolve⟩⟩, fun hfree => hfree t hmem hreach hnamed⟩
  rintro ⟨r, hr, hclass, step, hsame⟩
  rw [hresolve] at hsame
  have hdecl : t.decl = r.decl := congrArg Prod.fst (Option.some.inj hsame)
  have heq : t = r := hs.eq_of_id hmem hr (by rw [hdecl])
  rw [heq]
  exact hclass

/-! ## Two stores of one simple name -/

def findIn (field : String) : Invocation := ⟨"find", some "Store", none, some field, false, none⟩

def findMethod : MethodFact := methodNamed "find" none []

def placeMethod : MethodFact := methodNamed "place" none [findIn "first", findIn "second"]

def storeIn (package : String) : Component :=
  ⟨"Store", package ++ ".Store", package, .dataAccessor, [], ∅, [findMethod], none,
    none, none, none⟩

/-- A service that holds a store of each package, with what its fields are bound to. -/
def storeKeeper (first second : Option String) : Component :=
  ⟨"Orders", "b.Orders", "b", .businessService, [],
    ⟨[("first", ⟨"first", "a.Store", first, .byField⟩),
      ("second", ⟨"second", "b.Store", second, .byField⟩)]⟩,
    [placeMethod], none, none, none, none⟩

def storesOfOneName : FactSet :=
  ⟨"shop", [storeIn "a", storeIn "b", storeKeeper none none], ∅, false⟩

/-- The service with its fields bound. -/
def boundKeeper : Component := storeKeeper (some "a.Store") (some "b.Store")

theorem storesOfOneName_bound :
    storesOfOneName.bind.components = [storeIn "a", storeIn "b", boundKeeper] := rfl

theorem storesOfOneName_registry : Registry.ofFacts storesOfOneName.bind =
    [storeIn "a", storeIn "b", boundKeeper].foldl Registry.add (.empty "shop") := by
  rw [Registry.ofFacts_of_ordered _ (by rw [storesOfOneName_bound]; decide), storesOfOneName_bound]
  rfl

theorem storesOfOneName_registered : registered storesOfOneName.bind =
    [.ofFact (storeIn "a") .repository findMethod, .ofFact (storeIn "b") .repository findMethod,
      .ofFact boundKeeper .service placeMethod] := by
  unfold registered
  rw [storesOfOneName_registry]
  rfl

/-- The field of the first package is bound to its store, and the call stays there. -/
theorem field_call_in_storesOfOneName :
    (storesOfOneName.components.map (·.qualifiedName)).Nodup ∧
    ∃ m i c f, m ∈ registered storesOfOneName.bind ∧ i ∈ m.fact.invocations ∧ i.selfCall = false ∧
      c ∈ storesOfOneName.bind.components ∧ boundType? m.owner i = some c.qualifiedName ∧
      (c.kind = .businessService ∨ c.kind = .dataAccessor) ∧ f ∈ c.methods ∧
      f.name = i.methodName ∧ KeepsIdentifier storesOfOneName.bind c f ∧
      ∃ t : Registered, t.IsOf c i.methodName ∧ t.decl.id ≠ m.decl.id ∧
        resolve (resolution storesOfOneName.bind) m.owner m.decl.kind i = some (t.decl, .field) ∧
        ∃ g node, build storesOfOneName.bind = .ok g ∧ g.methods.find? m.decl.id = some node ∧
          t.decl.id ∈ node.calls := by
  let m := Registered.ofFact boundKeeper .service placeMethod
  have hn : (storesOfOneName.components.map (·.qualifiedName)).Nodup := by decide
  have hm : m ∈ registered storesOfOneName.bind := by
    rw [storesOfOneName_registered]
    exact List.mem_cons_of_mem _ (List.mem_cons_of_mem _ List.mem_cons_self)
  have hc : storeIn "a" ∈ storesOfOneName.bind.components := by
    rw [storesOfOneName_bound]
    exact List.mem_cons_self
  have hid : KeepsIdentifier storesOfOneName.bind (storeIn "a") findMethod := by
    unfold KeepsIdentifier
    rw [storesOfOneName_registered]
    decide
  obtain ⟨t, ht, hresolve, hlinked, _⟩ := field_call_reaches_first_owner storesOfOneName m
    (findIn "first") (storeIn "a") findMethod hn hm List.mem_cons_self rfl hc rfl (.inr rfl)
    List.mem_cons_self rfl hid
  have hfirst : t = .ofFact (storeIn "a") .repository findMethod := by
    rw [storesOfOneName_registered] at ht
    exact (Option.some.inj ht).symm
  have hother : t.decl.id ≠ m.decl.id := by
    rw [hfirst]
    decide
  exact ⟨hn, m, findIn "first", storeIn "a", findMethod, hm, List.mem_cons_self, rfl, hc, rfl,
    .inr rfl, List.mem_cons_self, rfl, hid, t, hfirst ▸ ⟨rfl, rfl⟩, hother, hresolve,
    hlinked hother⟩

/-- The field of the second package is bound to the other store, which has the method too. -/
theorem storesOfOneName_call_leaves_class :
    (storesOfOneName.components.map (·.qualifiedName)).Nodup ∧
    ∃ m ∈ registered storesOfOneName.bind, ∃ i ∈ m.fact.invocations, i.selfCall = false ∧
      ∃ c ∈ storesOfOneName.bind.components, boundType? m.owner i = some c.qualifiedName ∧
      c.kind = .dataAccessor ∧ (∃ f ∈ c.methods, f.name = i.methodName) ∧
      ∃ t ∈ registered storesOfOneName.bind,
        resolve (resolution storesOfOneName.bind) m.owner m.decl.kind i = some (t.decl, .field) ∧
        t.owner ≠ c := by
  have hresolve : resolve (resolution storesOfOneName.bind) boundKeeper .service (findIn "second") =
      some ((Registered.ofFact (storeIn "a") .repository findMethod).decl, .field) := by
    unfold resolution context
    rw [storesOfOneName_registry]
    rfl
  rw [storesOfOneName_registered, storesOfOneName_bound]
  exact ⟨by decide, _, List.mem_cons_of_mem _ (List.mem_cons_of_mem _ List.mem_cons_self),
    findIn "second", List.mem_cons_of_mem _ List.mem_cons_self, rfl,
    storeIn "b", List.mem_cons_of_mem _ List.mem_cons_self, rfl, rfl,
    ⟨findMethod, List.mem_cons_self, rfl⟩, _, List.mem_cons_self, hresolve, by decide⟩

end ArchGraph.CallGraph
