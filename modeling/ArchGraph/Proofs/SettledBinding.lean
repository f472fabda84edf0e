import ArchGraph.Proofs.Determinism
import ArchGraph.Proofs.InterfaceMap

/-!
What the fields of a project are bound to. `Settled` has for each field what it is bound to and when
it stays unbound, by the names that a pass finds. `Chosen` and `Maximal` say what is expected of it,
by the names that the components have.
-/

namespace ArchGraph

namespace FactSet

open Binding

variable {facts : FactSet} {type q : String}

/-! ## What a name means -/

/-- The name is the qualified name of a component. -/
def IsComponent (facts : FactSet) (q : String) : Prop :=
  ∃ c ∈ facts.components, c.qualifiedName = q

instance (facts : FactSet) (q : String) : Decidable (facts.IsComponent q) :=
  inferInstanceAs (Decidable (∃ c ∈ facts.components, _))

/-- The simple name of the last component of a qualified name. -/
def simpleNameOf? (facts : FactSet) (q : String) : Option String :=
  (facts.components.reverse.find? (fun c => decide (c.qualifiedName = q))).map (·.name)

/-- A type name means a component: by its qualified name, or by its simple one if the type name has
no dot. Of several with that simple name it means the one whose qualified name is least. -/
def Meant (facts : FactSet) (type q : String) : Prop :=
  (facts.IsComponent type ∧ q = type) ∨
  (¬ facts.IsComponent type ∧ '.' ∉ type.toList ∧ facts.simpleNameOf? q = some type ∧
    ∀ other, facts.simpleNameOf? other = some type → q ≤ other)

/-- A type name means some component. -/
def Known (facts : FactSet) (type : String) : Prop :=
  facts.IsComponent type ∨ '.' ∉ type.toList ∧ ∃ q, facts.simpleNameOf? q = some type

theorem find?_simpleNames (facts : FactSet) (q : String) :
    (directory facts.components).simpleNames.find? q = facts.simpleNameOf? q := by
  unfold directory Table.ofList simpleNameOf?
  rw [Table.find?_insertAll, Table.find?_empty, Option.or_none, ← List.map_reverse,
    Table.lookup_map_item Component.qualifiedName Component.name]

theorem mem_keys_simpleNames {q : String} : q ∈ (directory facts.components).simpleNames.keys ↔
    ∃ name, facts.simpleNameOf? q = some name := by
  rw [Table.mem_keys_iff, find?_simpleNames]

theorem isComponent_iff : facts.IsComponent q ↔ ∃ name, facts.simpleNameOf? q = some name := by
  unfold simpleNameOf? IsComponent
  rw [← Option.isSome_iff_exists, Option.isSome_map, List.find?_isSome]
  simp

theorem hasComponent_iff : (directory facts.components).hasComponent q = true ↔
    facts.IsComponent q := by
  unfold Directory.hasComponent
  rw [Table.contains_iff, mem_keys_simpleNames, isComponent_iff]

theorem find?_qualifiedNames (facts : FactSet) (type : String) :
    (directory facts.components).qualifiedNames.find? type =
      (Text.sorted (directory facts.components).simpleNames.keys).find?
        (fun q => decide ((facts.simpleNameOf? q).getD "" = type)) := by
  simp only [qualifiedNames_eq, find?_simpleNames]
  rw [Table.find?_foldl_insertNew_each (fun q => (facts.simpleNameOf? q).getD "") (fun q => q),
    Table.find?_empty, Option.none_or, Option.map_id']

/-- A key of the directory is found by the simple name of its component and by no other. -/
theorem mem_keys_and_named : (q ∈ (directory facts.components).simpleNames.keys ∧
    decide ((facts.simpleNameOf? q).getD "" = type) = true) ↔
      facts.simpleNameOf? q = some type := by
  rw [mem_keys_simpleNames, decide_eq_true_iff]
  constructor
  · rintro ⟨⟨name, hname⟩, rfl⟩
    rw [hname, Option.getD_some]
  · intro h
    exact ⟨⟨type, h⟩, by rw [h, Option.getD_some]⟩

theorem find?_qualifiedNames_eq_some :
    (directory facts.components).qualifiedNames.find? type = some q ↔
      facts.simpleNameOf? q = some type ∧
      ∀ other, facts.simpleNameOf? other = some type → q ≤ other := by
  rw [find?_qualifiedNames, Text.find?_sorted_eq_some, mem_keys_and_named]
  refine and_congr_right fun _ => forall_congr' fun other => ?_
  rw [← mem_keys_and_named, and_imp]

theorem find?_qualifiedNames_eq_none :
    (directory facts.components).qualifiedNames.find? type = none ↔
      ∀ q, facts.simpleNameOf? q ≠ some type := by
  rw [find?_qualifiedNames, List.find?_eq_none]
  refine forall_congr' fun q => ?_
  rw [Text.mem_sorted, ne_eq, ← mem_keys_and_named, not_and]

theorem component?_eq_some :
    (directory facts.components).component? type = some q ↔ facts.Meant type q := by
  simp only [Directory.component?, hasComponent_iff, Meant]
  by_cases hcomponent : facts.IsComponent type
  · simp [hcomponent, eq_comm]
  · by_cases hdot : '.' ∈ type.toList
    · simp [hcomponent, hdot]
    · simp [hcomponent, hdot, find?_qualifiedNames_eq_some]

theorem component?_eq_none :
    (directory facts.components).component? type = none ↔ ¬ facts.Known type := by
  simp only [Directory.component?, hasComponent_iff, Known]
  by_cases hcomponent : facts.IsComponent type
  · simp [hcomponent]
  · by_cases hdot : '.' ∈ type.toList
    · simp [hcomponent, hdot]
    · simp [hcomponent, hdot, find?_qualifiedNames_eq_none]

/-! ## Settling a field -/

/-- The implementations listed for a type: under its name, or else under the one without its
package. -/
def listedFor (facts : FactSet) (type : String) : List String :=
  if facts.listedUnder type = [] then facts.listedUnder (shortName type) else facts.listedUnder type

theorem implementations_eq (facts : FactSet) (type : String) :
    implementations (Binding.interfaceMap facts) type = facts.listedFor type := by
  have hshort : ((Binding.interfaceMap facts).find? (shortName type)).getD [] =
      facts.listedUnder (shortName type) := by
    rw [find?_interfaceMap, getD_listing?]
  unfold implementations listedFor
  rw [find?_interfaceMap, listing?]
  by_cases hown : facts.listedUnder type = []
  · rw [if_pos hown, if_pos hown]
    exact hshort
  · obtain ⟨first, rest, hlisted⟩ := List.exists_cons_of_ne_nil hown
    rw [if_neg hown, if_neg hown, hlisted]

/-- The type that a field was given means no component. -/
def NoneGiven (facts : FactSet) (dep : Dependency) : Prop :=
  ∀ given, Text.given? dep.resolvedType = some given → ¬ facts.Known given

/-- How a field is settled. -/
structure Settled (facts : FactSet) (dep : Dependency) (chosen : Option String) : Prop where
  /-- Only a component of the run is chosen. -/
  sound : ∀ q ∈ chosen, facts.IsComponent q
  /-- Nothing is chosen just where nothing that could be means a component. -/
  unbound : chosen = none ↔ facts.NoneGiven dep ∧
    ¬ facts.Known (withoutArguments dep.declaredType) ∧
    ∀ i ∈ facts.listedFor (withoutArguments dep.declaredType), ¬ facts.IsComponent i
  /-- The type that it was given comes first. -/
  given : ∀ given q, Text.given? dep.resolvedType = some given → facts.Meant given q →
    chosen = some q
  /-- Then its declared type. -/
  declared : facts.NoneGiven dep → ∀ q, facts.Meant (withoutArguments dep.declaredType) q →
    chosen = some q
  /-- Then the first listed implementation that is a component. -/
  listed : facts.NoneGiven dep → ¬ facts.Known (withoutArguments dep.declaredType) →
    chosen = (facts.listedFor (withoutArguments dep.declaredType)).find?
      (fun i => decide (facts.IsComponent i))

/-- What a field is bound to. -/
def choice (facts : FactSet) (dep : Dependency) : Option String :=
  target? (directory facts.components) (Binding.interfaceMap facts) dep

theorem given_eq_none {dep : Dependency} : (Text.given? dep.resolvedType).bind
    (directory facts.components).component? = none ↔ facts.NoneGiven dep := by
  unfold NoneGiven
  rw [Option.bind_eq_none_iff]
  refine forall_congr' fun given => ?_
  rw [component?_eq_none]

theorem choice_eq (facts : FactSet) (dep : Dependency) :
    facts.choice dep =
      ((Text.given? dep.resolvedType).bind (directory facts.components).component?).or
        (((directory facts.components).component? (withoutArguments dep.declaredType)).or
          ((facts.listedFor (withoutArguments dep.declaredType)).find?
            (fun i => decide (facts.IsComponent i)))) := by
  have hcomponent : (directory facts.components).hasComponent =
      fun i => decide (facts.IsComponent i) := by
    funext i
    rw [Bool.eq_iff_iff, hasComponent_iff, decide_eq_true_iff]
  simp only [choice, target?, implementations_eq, hcomponent]

theorem Meant.isComponent (h : facts.Meant type q) : facts.IsComponent q := by
  rcases h with ⟨h, rfl⟩ | ⟨_, _, h, _⟩
  · exact h
  · exact isComponent_iff.mpr ⟨type, h⟩

/-- Binding settles a field by what it was given, its declared type and the listed
implementations. -/
theorem settled_choice (facts : FactSet) (dep : Dependency) :
    facts.Settled dep (facts.choice dep) := by
  rw [choice_eq]
  constructor
  · intro q hq
    rcases Option.or_eq_some_iff.mp hq with hgiven | ⟨_, hq⟩
    · obtain ⟨given, _, hmeant⟩ := Option.bind_eq_some_iff.mp hgiven
      exact (component?_eq_some.mp hmeant).isComponent
    · rcases Option.or_eq_some_iff.mp hq with hdeclared | ⟨_, hlisted⟩
      · exact (component?_eq_some.mp hdeclared).isComponent
      · simpa using List.find?_some hlisted
  · rw [Option.or_eq_none_iff, Option.or_eq_none_iff, given_eq_none, component?_eq_none,
      List.find?_eq_none]
    simp only [decide_eq_true_iff]
  · intro given q hgiven hmeant
    rw [hgiven, Option.bind_some, component?_eq_some.mpr hmeant, Option.some_or]
  · intro hnone q hmeant
    rw [given_eq_none.mpr hnone, component?_eq_some.mpr hmeant, Option.none_or, Option.some_or]
  · intro hnone hunknown
    rw [given_eq_none.mpr hnone, component?_eq_none.mpr hunknown, Option.none_or, Option.none_or]

/-! ## What is expected of a field -/

/-- The type name names a component: by its qualified name, or by its simple one if the type name
has no dot. -/
def Names (facts : FactSet) (type : String) : Prop :=
  facts.IsComponent type ∨ '.' ∉ type.toList ∧ ∃ c ∈ facts.components, c.name = type

/-- The type that a field was given names no component. -/
def NoneNamed (facts : FactSet) (dep : Dependency) : Prop :=
  ∀ given, Text.given? dep.resolvedType = some given → ¬ facts.Names given

/-- A component of the run is chosen: the one that was given, the declared one, or the first one
that is listed. -/
structure Chosen (facts : FactSet) (dep : Dependency) (chosen : Option String) : Prop where
  sound : ∀ q ∈ chosen, facts.IsComponent q
  given : ∀ given, Text.given? dep.resolvedType = some given → facts.IsComponent given →
    chosen = some given
  declared : facts.NoneNamed dep → facts.IsComponent (withoutArguments dep.declaredType) →
    chosen = some (withoutArguments dep.declaredType)
  listed : facts.NoneNamed dep → ¬ facts.Names (withoutArguments dep.declaredType) →
    chosen = (facts.listedFor (withoutArguments dep.declaredType)).find?
      (fun i => decide (facts.IsComponent i))

/-- Nothing is chosen only where nothing that could be names a component. -/
def Maximal (facts : FactSet) (dep : Dependency) (chosen : Option String) : Prop :=
  chosen = none → facts.NoneNamed dep ∧ ¬ facts.Names (withoutArguments dep.declaredType) ∧
    ∀ i ∈ facts.listedFor (withoutArguments dep.declaredType), ¬ facts.IsComponent i

theorem Known.names (h : facts.Known type) : facts.Names type := by
  refine h.imp_right (And.imp_right ?_)
  rintro ⟨q, hq⟩
  obtain ⟨c, hc, hname⟩ := Option.map_eq_some_iff.mp hq
  exact ⟨c, List.mem_reverse.mp (List.mem_of_find?_eq_some hc), hname⟩

theorem NoneNamed.noneGiven {dep : Dependency} (h : facts.NoneNamed dep) : facts.NoneGiven dep :=
  fun given hgiven hknown => h given hgiven hknown.names

theorem chosen_choice (facts : FactSet) (dep : Dependency) :
    facts.Chosen dep (facts.choice dep) := by
  have hsettled := facts.settled_choice dep
  constructor
  · exact hsettled.sound
  · intro given hgiven hcomponent
    exact hsettled.given given given hgiven (.inl ⟨hcomponent, rfl⟩)
  · intro hnone hcomponent
    exact hsettled.declared hnone.noneGiven _ (.inl ⟨hcomponent, rfl⟩)
  · intro hnone hunnamed
    exact hsettled.listed hnone.noneGiven fun hknown => hunnamed hknown.names

end FactSet

end ArchGraph
