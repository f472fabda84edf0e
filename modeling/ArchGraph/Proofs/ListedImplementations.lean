import ArchGraph.Proofs.Determinism
import ArchGraph.Proofs.InterfaceMap

/-!
The interface map against the pairs of interfaces and implementations that it is made of, as the
extractor and the components give them. Under each name it lists who implements an interface that
the name leads to, once and in the order of the pairs (`interface_map_exact`).

The components come in the order of their names. It does not matter how those of one name follow
each other, since all their pairs have that name as implementation.
-/

namespace ArchGraph

namespace Binding

/-- The name leads to an interface: it is what is left without type arguments, or the part of that
after the last dot, where there is one. -/
def LeadsTo (name interface : String) : Prop :=
  name = withoutArguments interface ∨
    name ≠ "" ∧ Identifier.simpleName? (withoutArguments interface) = some name

instance (name interface : String) : Decidable (LeadsTo name interface) :=
  inferInstanceAs (Decidable (_ ∨ _))

/-- The pair has the implementation, of an interface that the name leads to. -/
def Gives (name implementation : String) (pair : String × String) : Prop :=
  LeadsTo name pair.1 ∧ pair.2 = implementation

instance (name implementation : String) (pair : String × String) :
    Decidable (Gives name implementation pair) :=
  inferInstanceAs (Decidable (_ ∧ _))

/-- The place of the first pair that gives an implementation for a name. -/
def firstGiven (pairs : List (String × String)) (name implementation : String) : Nat :=
  pairs.findIdx (fun p => decide (Gives name implementation p))

/-- A list of just the implementations that pairs give for a name, each once, by the first pair. -/
structure Listing (pairs : List (String × String)) (name : String)
    (listed : List String) : Prop where
  mem_iff : ∀ implementation, implementation ∈ listed ↔ ∃ p ∈ pairs, Gives name implementation p
  nodup : listed.Nodup
  ordered : listed.Pairwise (fun a b => firstGiven pairs name a < firstGiven pairs name b)

/-- The interfaces that components declare, each with the component. -/
def declared (cs : List Component) : List (String × String) :=
  cs.flatMap (fun c => c.interfaces.map (fun interface => (interface, c.qualifiedName)))

/-- The pair with the interface as it is looked up. -/
def stripped (pair : String × String) : String × String := (withoutArguments pair.1, pair.2)

theorem mem_keys_iff_leadsTo {name interface : String} :
    name ∈ keys (withoutArguments interface) ↔ LeadsTo name interface := by
  rw [mem_keys]
  unfold LeadsTo shortName
  cases Identifier.simpleName? (withoutArguments interface) with
  | none => simp [Text.given?]
  | some short =>
      by_cases hshort : short = ""
      · simp [Text.given?, Option.filter_some, hshort]
      · have hgiven : Text.given? (some short) = some short := by
          simp [Text.given?, Option.filter_some, hshort]
        rw [hgiven, Option.getD_some, Option.some_inj]
        refine or_congr_right ⟨?_, ?_⟩
        · rintro rfl
          exact ⟨hshort, rfl⟩
        · rintro ⟨_, rfl⟩
          rfl

variable {pairs : List (String × String)} {name implementation : String} {listed : List String}

/-! ## One pair after the other -/

theorem firstGiven_lt (h : ∃ p ∈ pairs, Gives name implementation p) :
    firstGiven pairs name implementation < pairs.length := by
  apply List.findIdx_lt_length_of_exists
  simpa using h

/-- A pair at the end does not come before what has been given. -/
theorem firstGiven_concat (h : ∃ p ∈ pairs, Gives name implementation p) (last : String × String) :
    firstGiven (pairs ++ [last]) name implementation = firstGiven pairs name implementation := by
  have hlt := firstGiven_lt h
  unfold firstGiven at hlt ⊢
  rw [List.findIdx_append, if_pos hlt]

theorem firstGiven_concat_new (hnew : ¬ ∃ p ∈ pairs, Gives name implementation p)
    {last : String × String} (hlast : Gives name implementation last) :
    firstGiven (pairs ++ [last]) name implementation = pairs.length := by
  unfold firstGiven
  have hnone : pairs.findIdx (fun p => decide (Gives name implementation p)) = pairs.length := by
    rw [List.findIdx_eq_length]
    simpa using hnew
  rw [List.findIdx_append, hnone, if_neg (Nat.lt_irrefl _)]
  simp [hlast]

theorem Listing.ordered_concat (h : Listing pairs name listed) (last : String × String) :
    listed.Pairwise (fun a b =>
      firstGiven (pairs ++ [last]) name a < firstGiven (pairs ++ [last]) name b) := by
  refine h.ordered.imp_of_mem fun ha hb hab => ?_
  rwa [firstGiven_concat ((h.mem_iff _).mp ha), firstGiven_concat ((h.mem_iff _).mp hb)]

/-- One more pair adds its implementation under the names that lead to its interface. -/
theorem Listing.concat (h : Listing pairs name listed) (last : String × String) :
    Listing (pairs ++ [last]) name
      (if LeadsTo name last.1 then addNew listed last.2 else listed) := by
  have hgives : ∀ implementation, (∃ p ∈ pairs ++ [last], Gives name implementation p) ↔
      implementation ∈ listed ∨ Gives name implementation last := by
    intro implementation
    rw [h.mem_iff]
    simp only [List.mem_append, List.mem_singleton, or_and_right, exists_or, exists_eq_left]
  split
  · next hleads =>
    refine ⟨?_, nodup_addNew h.nodup last.2, ?_⟩
    · intro implementation
      rw [hgives, mem_addNew, Gives, and_iff_right hleads, eq_comm]
    · by_cases hold : last.2 ∈ listed
      · rw [addNew, if_pos hold]
        exact h.ordered_concat last
      · -- an implementation that is new was given by no pair before, so all others come first
        have hnew : ¬ ∃ p ∈ pairs, Gives name last.2 p :=
          fun hgiven => hold ((h.mem_iff _).mpr hgiven)
        rw [addNew, if_neg hold, List.pairwise_append]
        refine ⟨h.ordered_concat last, List.pairwise_singleton _ _, ?_⟩
        intro a ha b hb
        rw [List.mem_singleton.mp hb, firstGiven_concat_new hnew ⟨hleads, rfl⟩,
          firstGiven_concat ((h.mem_iff a).mp ha)]
        exact firstGiven_lt ((h.mem_iff a).mp ha)
  · next hleads =>
    refine ⟨?_, h.nodup, h.ordered_concat last⟩
    intro implementation
    rw [hgives, Gives, or_iff_left (fun hlast => hleads hlast.1)]

theorem reached_append (ps qs : List (String × String)) (name : String) :
    reached (ps ++ qs) name = reached ps name ++ reached qs name := by
  simp [reached]

/-- Keeping the first of each implementation that is reached makes the listing. -/
theorem listing_distinct (ps : List (String × String)) (name : String) :
    Listing ps name (distinct (reached (ps.map stripped) name)) := by
  induction ps using List.reverseRecOn with
  | nil => exact ⟨by simp [reached, distinct], List.nodup_nil, List.Pairwise.nil⟩
  | append_singleton ps last ih =>
      have hlast : distinct (reached ((ps ++ [last]).map stripped) name) =
          if LeadsTo name last.1 then addNew (distinct (reached (ps.map stripped) name)) last.2
          else distinct (reached (ps.map stripped) name) := by
        rw [List.map_append, reached_append, distinct, List.foldl_append, ← distinct]
        by_cases hleads : LeadsTo name last.1
        · simp [reached, stripped, mem_keys_iff_leadsTo, hleads]
        · simp [reached, stripped, mem_keys_iff_leadsTo, hleads]
      rw [hlast]
      exact ih.concat last

end Binding

namespace FactSet

open Binding

/-- The pairs of an interface and an implementation: what the extractor gives, then what the
components declare. -/
def implementing (facts : FactSet) (cs : List Component) : List (String × String) :=
  facts.interfaceMap.entries.flatMap
    (fun e => e.2.map (fun implementation => (e.1, implementation))) ++
  declared cs

variable {facts : FactSet} {cs ds : List Component}

theorem pairs_eq (facts : FactSet) :
    pairs facts = (facts.implementing (byName facts.components)).map stripped := by
  simp [pairs, implementing, declared, stripped, List.map_flatMap, Function.comp_def]

/-! ## Components of one name -/

/-- The implementations that components give come in the order of their names. -/
theorem reached_declared_ordered
    (hordered : cs.Pairwise (fun a b => a.qualifiedName ≤ b.qualifiedName)) (name : String) :
    (reached ((declared cs).map stripped) name).Pairwise (· ≤ ·) := by
  unfold reached declared
  rw [List.pairwise_map]
  apply List.Pairwise.filter
  rw [List.pairwise_map, List.pairwise_flatMap]
  constructor
  · intro c _
    exact List.pairwise_map.mpr (List.pairwise_of_forall fun _ _ => String.le_refl _)
  · refine hordered.imp fun {c d} hle p hp q hq => ?_
    obtain ⟨_, _, rfl⟩ := List.mem_map.mp hp
    obtain ⟨_, _, rfl⟩ := List.mem_map.mp hq
    exact hle

/-- Any two listings in the order of the names give the same implementations in the same order. -/
theorem reached_implementing_perm (hp : cs.Perm ds)
    (hcs : cs.Pairwise (fun a b => a.qualifiedName ≤ b.qualifiedName))
    (hds : ds.Pairwise (fun a b => a.qualifiedName ≤ b.qualifiedName)) (name : String) :
    reached ((facts.implementing cs).map stripped) name =
      reached ((facts.implementing ds).map stripped) name := by
  unfold implementing
  rw [List.map_append, List.map_append, reached_append, reached_append]
  congr 1
  have hsame : (reached ((declared cs).map stripped) name).Perm
      (reached ((declared ds).map stripped) name) :=
    (((hp.flatMap_right _).map _).filter _).map _
  exact hsame.eq_of_pairwise (fun _ _ _ _ => String.le_antisymm) (reached_declared_ordered hcs name)
    (reached_declared_ordered hds name)

/-- **The interface map is exact.** Take the components in the order of their names. Under each name
the map lists what the pairs give for it, once and by the first pair, and it has no other names. -/
theorem interface_map_exact (facts : FactSet) (cs : List Component)
    (hp : cs.Perm facts.components)
    (hordered : cs.Pairwise (fun a b => a.qualifiedName ≤ b.qualifiedName)) :
    (Binding.interfaceMap facts).Distinct ∧ ∀ name,
      Listing (facts.implementing cs) name (((Binding.interfaceMap facts).find? name).getD []) ∧
      (name ∈ (Binding.interfaceMap facts).keys ↔
        ∃ p ∈ facts.implementing cs, LeadsTo name p.1) := by
  refine ⟨facts.distinct_interfaceMap, fun name => ?_⟩
  have hreached : reached (pairs facts) name =
      reached ((facts.implementing cs).map stripped) name := by
    rw [pairs_eq]
    exact reached_implementing_perm ((List.mergeSort_perm _ _).trans hp.symm) (byName_pairwise _)
      hordered name
  have hlisting : Listing (facts.implementing cs) name (facts.listedUnder name) := by
    rw [listedUnder, hreached]
    exact listing_distinct (facts.implementing cs) name
  constructor
  · rwa [find?_interfaceMap, getD_listing?]
  · rw [mem_keys_interfaceMap]
    simp only [hlisting.mem_iff]
    constructor
    · rintro ⟨_, p, hmem, hgives⟩
      exact ⟨p, hmem, hgives.1⟩
    · rintro ⟨p, hmem, hleads⟩
      exact ⟨p.2, p, hmem, hleads, rfl⟩

/-- Payments as an extractor gives them and as two components declare them. The components are
listed against the order of their names. -/
def paymentFacts : FactSet :=
  ⟨"shop",
    [⟨"Till", "b.Till", "b", .businessService, ["x.Payments<Card>", "y.Payments"], ∅,
      [], none, none,
        none, none⟩,
      ⟨"Bank", "a.Bank", "a", .businessService, [" x.Payments "], ∅, [], none, none, none, none⟩],
    ⟨[("x.Payments", ["b.Till", "old.Cash"])]⟩, false⟩

theorem payments_listed :
    paymentFacts.components.reverse.Perm paymentFacts.components ∧
    paymentFacts.components.reverse.Pairwise (fun a b => a.qualifiedName ≤ b.qualifiedName) ∧
    Binding.interfaceMap paymentFacts =
      ⟨[("x.Payments", ["b.Till", "old.Cash", "a.Bank"]),
        ("Payments", ["b.Till", "old.Cash", "a.Bank"]), ("y.Payments", ["b.Till"])]⟩ ∧
    Listing (paymentFacts.implementing paymentFacts.components.reverse) "Payments"
      ["b.Till", "old.Cash", "a.Bank"] := by
  have hordered : paymentFacts.components.reverse.Pairwise
      (fun a b => a.qualifiedName ≤ b.qualifiedName) := by decide
  have hmap : Binding.interfaceMap paymentFacts =
      ⟨[("x.Payments", ["b.Till", "old.Cash", "a.Bank"]),
        ("Payments", ["b.Till", "old.Cash", "a.Bank"]), ("y.Payments", ["b.Till"])]⟩ := by
    rw [← interfaceMap_listed (List.reverse_perm paymentFacts.components) (by decide),
      interfaceMap_of_ordered hordered]
    decide +kernel
  have hperm := List.reverse_perm paymentFacts.components
  refine ⟨hperm, hordered, hmap, ?_⟩
  have hexact := ((interface_map_exact paymentFacts _ hperm hordered).2 "Payments").1
  rwa [hmap] at hexact

end FactSet

end ArchGraph
