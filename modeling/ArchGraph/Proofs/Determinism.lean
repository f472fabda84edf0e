import ArchGraph.Analysis
import ArchGraph.Proofs.Sorting
import ArchGraph.Proofs.Table

/-!
The order in which an extractor lists the components of a project has no influence on its analysis.
Binding looks components up by name, and everything after it works in registration order; with
qualified names that differ, both are the same for every listing.
-/

namespace ArchGraph

namespace Binding

variable {cs ds : List Component}

/-- With qualified names that differ, no component replaces another in the directory. -/
theorem simpleNames_eq (hn : (cs.map (·.qualifiedName)).Nodup) :
    (directory cs).simpleNames = ⟨cs.map (fun c => (c.qualifiedName, c.name))⟩ := by
  apply Table.ofList_eq
  rw [List.map_map]
  exact hn

theorem simpleNames_find?_perm (hp : cs.Perm ds) (hn : (cs.map (·.qualifiedName)).Nodup)
    (q : String) : (directory cs).simpleNames.find? q = (directory ds).simpleNames.find? q := by
  have hn' : (ds.map (·.qualifiedName)).Nodup := (hp.map _).nodup_iff.mp hn
  rw [simpleNames_eq hn, simpleNames_eq hn']
  apply Table.find?_perm _ (hp.map _)
  unfold Table.Distinct Table.keys
  rw [List.map_map]
  exact hn

theorem simpleNames_keys_perm (hp : cs.Perm ds) (hn : (cs.map (·.qualifiedName)).Nodup) :
    (directory cs).simpleNames.keys.Perm (directory ds).simpleNames.keys := by
  have hn' : (ds.map (·.qualifiedName)).Nodup := (hp.map _).nodup_iff.mp hn
  rw [simpleNames_eq hn, simpleNames_eq hn']
  exact (hp.map _).map _

theorem qualifiedNames_eq (cs : List Component) :
    (directory cs).qualifiedNames = (Text.sorted (directory cs).simpleNames.keys).foldl
      (fun (t : Table String String) q =>
        t.insertNew (((directory cs).simpleNames.find? q).getD "") q) ∅ := rfl

theorem qualifiedNames_perm (hp : cs.Perm ds) (hn : (cs.map (·.qualifiedName)).Nodup) :
    (directory cs).qualifiedNames = (directory ds).qualifiedNames := by
  have hfind : (directory cs).simpleNames.find? = (directory ds).simpleNames.find? :=
    funext (simpleNames_find?_perm hp hn)
  rw [qualifiedNames_eq, qualifiedNames_eq, hfind, Text.sorted_perm (simpleNames_keys_perm hp hn)]

theorem hasComponent_perm (hp : cs.Perm ds) (hn : (cs.map (·.qualifiedName)).Nodup) :
    (directory cs).hasComponent = (directory ds).hasComponent := by
  funext q
  unfold Directory.hasComponent Table.contains
  rw [simpleNames_find?_perm hp hn]

theorem component?_perm (hp : cs.Perm ds) (hn : (cs.map (·.qualifiedName)).Nodup) :
    (directory cs).component? = (directory ds).component? := by
  funext type
  unfold Directory.component?
  rw [hasComponent_perm hp hn, qualifiedNames_perm hp hn]

theorem bindComponent_perm (hp : cs.Perm ds) (hn : (cs.map (·.qualifiedName)).Nodup)
    (map : Table String (List String)) :
    bindComponent (directory cs) map = bindComponent (directory ds) map := by
  have htarget : target? (directory cs) map = target? (directory ds) map := by
    funext dep
    unfold target?
    rw [component?_perm hp hn, hasComponent_perm hp hn]
  funext c
  unfold bindComponent
  rw [htarget]

end Binding

namespace FactSet

/-- The same facts with their components listed in another way. -/
def listed (facts : FactSet) (cs : List Component) : FactSet := { facts with components := cs }

variable {facts : FactSet} {cs : List Component}

theorem bind_eq (facts : FactSet) : facts.bind =
    { facts with
      components := facts.components.map
        (Binding.bindComponent (Binding.directory facts.components) (Binding.interfaceMap facts))
      interfaceMap := Binding.interfaceMap facts
      bound := true } := rfl

theorem interfaceMap_listed (hp : cs.Perm facts.components)
    (hn : (cs.map (·.qualifiedName)).Nodup) :
    Binding.interfaceMap (facts.listed cs) = Binding.interfaceMap facts := by
  unfold Binding.interfaceMap Binding.pairs listed
  rw [Binding.byName_perm hp hn]

/-- Binding another listing binds every component alike. -/
theorem bind_listed (hp : cs.Perm facts.components) (hn : (cs.map (·.qualifiedName)).Nodup) :
    (facts.listed cs).bind = facts.bind.listed (cs.map (Binding.bindComponent
      (Binding.directory facts.components) (Binding.interfaceMap facts))) := by
  have hbind : Binding.bindComponent (Binding.directory (facts.listed cs).components)
      (Binding.interfaceMap facts) =
      Binding.bindComponent (Binding.directory facts.components) (Binding.interfaceMap facts) :=
    Binding.bindComponent_perm hp hn _
  rw [bind_eq (facts.listed cs), interfaceMap_listed hp hn, hbind]
  rfl

theorem bind_names (facts : FactSet) :
    facts.bind.components.map (·.qualifiedName) = facts.components.map (·.qualifiedName) := by
  rw [bind_eq, List.map_map]
  rfl

theorem registry_listed (hp : cs.Perm facts.components) (hn : (cs.map (·.qualifiedName)).Nodup) :
    Registry.ofFacts (facts.listed cs) = Registry.ofFacts facts := by
  unfold Registry.ofFacts listed
  rw [registrationOrder_perm hp hn]

theorem ofBound_listed (hp : cs.Perm facts.components) (hn : (cs.map (·.qualifiedName)).Nodup) :
    CallGraph.ofBound (facts.listed cs) = CallGraph.ofBound facts := by
  unfold CallGraph.ofBound
  rw [registry_listed hp hn]
  rfl

theorem link_listed (hp : cs.Perm facts.components) (hn : (cs.map (·.qualifiedName)).Nodup)
    (g : ResolvedGraph) : Topic.link g (facts.listed cs) = Topic.link g facts := by
  unfold Topic.link Topic.uses listed
  rw [registrationOrder_perm hp hn]

theorem resolveBound_listed (hp : cs.Perm facts.components)
    (hn : (cs.map (·.qualifiedName)).Nodup) (threshold : Int) :
    (facts.listed cs).resolveBound threshold = facts.resolveBound threshold := by
  unfold resolveBound
  rw [ofBound_listed hp hn, link_listed hp hn]

/-- Two fact sets have one analysis, at every stage of it. -/
structure SameAnalysis (facts other : FactSet) : Prop where
  bound : other.bind.components.Perm facts.bind.components ∧
    other.bind.interfaceMap = facts.bind.interfaceMap
  built : ∃ g, CallGraph.build facts.bind = .ok g ∧ CallGraph.build other.bind = .ok g
  linked : ∀ g, Topic.link g other.bind = Topic.link g facts.bind
  resolved : ∀ threshold, ∃ g, facts.bind.resolve threshold = .ok g ∧
    other.bind.resolve threshold = .ok g
  exported : ∀ threshold space, other.analyze threshold space = facts.analyze threshold space

/-- **The analysis depends on the components, not on their listing.** -/
theorem analysis_of_any_listing (facts : FactSet) (cs : List Component)
    (hn : (facts.components.map (·.qualifiedName)).Nodup) (hp : cs.Perm facts.components) :
    SameAnalysis facts (facts.listed cs) := by
  have hn' : (cs.map (·.qualifiedName)).Nodup := (hp.map _).nodup_iff.mpr hn
  have hbind := bind_listed hp hn'
  -- What is bound is again a listing of the bound components, under the same names.
  let bound := cs.map (Binding.bindComponent (Binding.directory facts.components)
    (Binding.interfaceMap facts))
  have hpb : bound.Perm facts.bind.components := hp.map _
  have hnb : (bound.map (·.qualifiedName)).Nodup := by
    rw [(hpb.map _).nodup_iff, bind_names]
    exact hn
  constructor
  · rw [hbind]
    exact ⟨hpb, rfl⟩
  · refine ⟨CallGraph.ofBound facts.bind, rfl, ?_⟩
    rw [hbind, ← ofBound_listed hpb hnb]
    rfl
  · intro g
    rw [hbind]
    exact link_listed hpb hnb g
  · intro threshold
    refine ⟨facts.bind.resolveBound threshold, rfl, ?_⟩
    rw [hbind, ← resolveBound_listed hpb hnb]
    rfl
  · intro threshold space
    unfold analyze
    congr 1
    cases hb : facts.bound with
    | true =>
        have he : (facts.listed cs).ensureBound = facts.listed cs := if_pos hb
        have he' : facts.ensureBound = facts := if_pos hb
        rw [he, he', resolveBound_listed hp hn']
    | false =>
        have he : (facts.listed cs).ensureBound = (facts.listed cs).bind := by
          simp [ensureBound, listed, hb]
        have he' : facts.ensureBound = facts.bind := by simp [ensureBound, hb]
        rw [he, he', hbind, resolveBound_listed hpb hnb]

/-- Two stores of one simple name and a service that holds one of them. -/
def twoStores : FactSet :=
  let find : MethodFact := ⟨"find", none, [], none, none, none, none, none, [], [], []⟩
  let call : Invocation := ⟨"find", some "Store", none, some "store", false, none⟩
  let field : Dependency := ⟨"store", "Store", none, .byField⟩
  ⟨"shop",
    [⟨"Store", "b.Store", "b", .dataAccessor, ["Finder"], ∅, [find], none, none, none, none⟩,
      ⟨"Store", "a.Store", "a", .dataAccessor, ["Finder"], ∅, [find], none, none, none, none⟩,
      ⟨"Orders", "a.Orders", "a", .businessService, [], ⟨[("store", field)]⟩,
        [⟨"place", none, [], none, none, none, none, none, [call], [], []⟩], none,
        none, none, none⟩],
    ∅, false⟩

theorem analysis_of_reversed_stores :
    (twoStores.components.map (·.qualifiedName)).Nodup ∧
    SameAnalysis twoStores (twoStores.listed twoStores.components.reverse) :=
  ⟨by decide, analysis_of_any_listing twoStores _ (by decide) (List.reverse_perm _)⟩

end FactSet

end ArchGraph
