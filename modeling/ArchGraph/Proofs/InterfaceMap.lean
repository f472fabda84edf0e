import ArchGraph.Proofs.Table
import ArchGraph.Proofs.TypeNames

/-!
What the interface map of facts has under a name: the implementations of all interfaces that the
name reaches, in order and each once (`find?_interfaceMap`). A second pass starts from the map that
the first one made. It takes the short names of interfaces for interfaces too, and cuts off the
blanks in front of them (`mem_listedUnder_bind`).
-/

namespace ArchGraph

namespace Binding

theorem mem_keys {interface name : String} :
    name ∈ keys interface ↔ name = interface ∨ name = shortName interface := by
  unfold keys
  rw [mem_addNew, List.mem_singleton]
  rfl

/-- The names that a name of an interface leads to when it is taken up as an interface again. -/
theorem mem_keys_again {interface key name : String} (h : Bare interface.toList)
    (hkey : key ∈ keys interface) (hname : name ∈ keys (withoutArguments key)) :
    name ∈ keys interface ∨ name = withoutArguments (shortName interface) := by
  rcases mem_keys.mp hkey with rfl | rfl
  · rw [h.withoutArguments] at hname
    exact .inl hname
  · by_cases hdot : '.' ∈ (shortName interface).toList
    · -- only a name that ends in a dot keeps it, and such a name is kept as it is
      rw [shortName_of_mem hdot, h.withoutArguments] at hname
      exact .inl hname
    · have hdot' : '.' ∉ (withoutArguments (shortName interface)).toList := by
        rw [toList_withoutArguments]
        exact fun hin => hdot (List.takeWhile_subset _ (Text.mem_of_mem_trim hin))
      rw [mem_keys, shortName_of_notMem hdot', or_self] at hname
      exact .inr hname

/-! ## Filling the map -/

/-- The entry for a list of implementations. A name with none has no entry. -/
def listing? (listed : List String) : Option (List String) :=
  if listed = [] then none else some listed

theorem getD_listing? (listed : List String) : (listing? listed).getD [] = listed := by
  unfold listing?
  split
  · next h => exact h.symm
  · rfl

theorem addNew_ne_nil (xs : List String) (x : String) : addNew xs x ≠ [] :=
  List.ne_nil_of_mem (mem_addNew.mpr (.inr rfl))

theorem addNew_addNew (xs : List String) (x : String) : addNew (addNew xs x) x = addNew xs x :=
  if_pos (mem_addNew.mpr (.inr rfl))

theorem find?_addUnder (implementation : String) (map : Table String (List String))
    (names : List String) (name : String) :
    (names.foldl (addUnder implementation) map).find? name =
      if name ∈ names then some (addNew ((map.find? name).getD []) implementation)
      else map.find? name := by
  induction names generalizing map with
  | nil => rfl
  | cons first names ih =>
      rw [List.foldl_cons, ih, addUnder, Table.find?_upsert]
      by_cases hfirst : name = first
      · subst hfirst
        simp [addNew_addNew]
      · simp [hfirst]

/-- The implementations of the pairs that a name reaches. -/
def reached (ps : List (String × String)) (name : String) : List String :=
  (ps.filter (fun p => decide (name ∈ keys p.1))).map (·.2)

theorem find?_addPairs (ps : List (String × String)) (map : Table String (List String))
    (name : String) (listed : List String) (h : map.find? name = listing? listed) :
    (ps.foldl addPair map).find? name = listing? ((reached ps name).foldl addNew listed) := by
  induction ps generalizing map listed with
  | nil => exact h
  | cons p ps ih =>
      have hstep : (addPair map p).find? name =
          listing? (if name ∈ keys p.1 then addNew listed p.2 else listed) := by
        unfold addPair
        rw [find?_addUnder, h, getD_listing?]
        split
        · rw [listing?, if_neg (addNew_ne_nil _ _)]
        · rfl
      rw [List.foldl_cons, ih _ _ hstep]
      by_cases hreached : name ∈ keys p.1
      · simp [reached, hreached]
      · simp [reached, hreached]

end Binding

namespace FactSet

open Binding

/-- The implementations listed under a name, each once. -/
def listedUnder (facts : FactSet) (name : String) : List String :=
  distinct (reached (pairs facts) name)

variable {facts : FactSet} {name : String}

theorem find?_interfaceMap (facts : FactSet) (name : String) :
    (Binding.interfaceMap facts).find? name = listing? (facts.listedUnder name) :=
  find?_addPairs (pairs facts) ∅ name [] rfl

/-- Components that are listed in the order of their names are looked through as they are listed. -/
theorem interfaceMap_of_ordered {facts : FactSet}
    (h : facts.components.Pairwise (fun a b => a.qualifiedName ≤ b.qualifiedName)) :
    Binding.interfaceMap facts = (facts.interfaceMap.entries.flatMap
        (fun e => e.2.map (fun implementation => (withoutArguments e.1, implementation))) ++
      facts.components.flatMap
        (fun c => c.interfaces.map (fun i => (withoutArguments i, c.qualifiedName)))).foldl
      addPair ∅ := by
  unfold Binding.interfaceMap pairs byName
  rw [List.mergeSort_of_pairwise (h.imp decide_eq_true)]

theorem distinct_interfaceMap (facts : FactSet) : (Binding.interfaceMap facts).Distinct := by
  apply List.foldlRecOn (pairs facts) addPair List.nodup_nil
  intro map hmap p _
  apply List.foldlRecOn (keys p.1) (addUnder p.2) hmap
  intro map hmap key _
  exact Table.distinct_upsert hmap key _

theorem mem_entries_interfaceMap {listed : List String} :
    (name, listed) ∈ (Binding.interfaceMap facts).entries ↔
      listed = facts.listedUnder name ∧ listed ≠ [] := by
  constructor
  · intro h
    have hfind := Table.find?_of_mem facts.distinct_interfaceMap h
    rw [find?_interfaceMap, listing?] at hfind
    split at hfind
    · cases hfind
    · next hne =>
      rw [← Option.some.inj hfind]
      exact ⟨rfl, hne⟩
  · rintro ⟨rfl, hne⟩
    apply Table.mem_entries_of_find?
    rw [find?_interfaceMap, listing?, if_neg hne]

theorem mem_listedUnder {implementation : String} : implementation ∈ facts.listedUnder name ↔
    ∃ interface, (interface, implementation) ∈ pairs facts ∧ name ∈ keys interface := by
  simp [listedUnder, reached]

theorem mem_pairs {interface implementation : String} :
    (interface, implementation) ∈ pairs facts ↔
      (∃ e ∈ facts.interfaceMap.entries, implementation ∈ e.2 ∧ withoutArguments e.1 = interface) ∨
      ∃ c ∈ facts.components, c.qualifiedName = implementation ∧
        ∃ i ∈ c.interfaces, withoutArguments i = interface := by
  simp only [pairs, byName, List.mem_append, List.mem_flatMap, List.mem_map, List.mem_mergeSort,
    Prod.mk.injEq]
  grind

theorem mem_keys_interfaceMap : name ∈ (Binding.interfaceMap facts).keys ↔
    ∃ implementation, implementation ∈ facts.listedUnder name := by
  rw [Table.mem_keys_iff, find?_interfaceMap, listing?]
  split
  · next hnone => simp [hnone]
  · next hsome => simpa using List.exists_mem_of_ne_nil _ hsome

/-! ## Filling it again -/

theorem bare_of_mem_pairs {interface implementation : String}
    (h : (interface, implementation) ∈ pairs facts) : Bare interface.toList := by
  rcases mem_pairs.mp h with ⟨e, _, _, rfl⟩ | ⟨c, _, _, i, _, rfl⟩
  · exact bare_withoutArguments _
  · exact bare_withoutArguments _

/-- A second pass also finds an implementation where blanks are cut off the short name. -/
theorem mem_listedUnder_bind {implementation : String} :
    implementation ∈ facts.bind.listedUnder name ↔
      ∃ interface, (interface, implementation) ∈ pairs facts ∧
        (name ∈ keys interface ∨ name = withoutArguments (shortName interface)) := by
  constructor
  · intro h
    obtain ⟨taken, hpair, hname⟩ := mem_listedUnder.mp h
    rcases mem_pairs.mp hpair with ⟨⟨key, listed⟩, hentry, hlisted, rfl⟩ |
      ⟨c, hc, rfl, i, hi, rfl⟩
    · obtain ⟨rfl, _⟩ := mem_entries_interfaceMap.mp hentry
      obtain ⟨own, hown, hkey⟩ := mem_listedUnder.mp hlisted
      exact ⟨own, hown, mem_keys_again (bare_of_mem_pairs hown) hkey hname⟩
    · obtain ⟨first, hfirst, rfl⟩ := List.mem_map.mp hc
      exact ⟨_, mem_pairs.mpr (.inr ⟨first, hfirst, rfl, i, hi, rfl⟩), .inl hname⟩
  · rintro ⟨own, hown, hname⟩
    -- the first map has both names of the interface, so the second pass takes both up
    have htaken : ∀ key ∈ keys own,
        (withoutArguments key, implementation) ∈ pairs facts.bind := by
      intro key hkey
      have hlisted := mem_listedUnder.mpr ⟨own, hown, hkey⟩
      have hentry : (key, facts.listedUnder key) ∈ (Binding.interfaceMap facts).entries :=
        mem_entries_interfaceMap.mpr ⟨rfl, List.ne_nil_of_mem hlisted⟩
      exact mem_pairs.mpr (.inl ⟨_, hentry, hlisted, rfl⟩)
    apply mem_listedUnder.mpr
    rcases hname with hname | rfl
    · refine ⟨own, ?_, hname⟩
      have hself := htaken own (mem_keys.mpr (.inl rfl))
      rwa [(bare_of_mem_pairs hown).withoutArguments] at hself
    · exact ⟨_, htaken _ (mem_keys.mpr (.inr rfl)), mem_keys.mpr (.inl rfl)⟩

end FactSet

end ArchGraph
