import ArchGraph.Proofs.SettledBinding
import Mathlib.Data.List.Forall2

/-!
Which fields are bound. No field should stay unbound that could be bound (`Maximal`), and binding a
second time should change nothing. Two kinds of names stand against that: the simple name of a
component whose qualified name occurs again, which is not found, and a short name with a blank in
front, which is found by a second pass only. Where there are none, and only there, both hold for all
fields that the components can have (`binding_maximal_and_stable_iff`).

Only the names in the facts decide what a field is bound to (`SameNames`), so the fields can be
varied. That some field is bound otherwise is shown by one whose type is in a package that no fact
has.
-/

namespace ArchGraph

namespace FactSet

open Binding

variable {facts : FactSet} {type q : String}

/-! ## Facts with the same names -/

/-- The names that a component is found by, and those of its interfaces. -/
def naming (c : Component) : String × String × List String :=
  (c.qualifiedName, c.name, c.interfaces)

/-- Both facts have the same interface map and the same names of components and interfaces. Only
these decide what a field is bound to. -/
def SameNames (facts other : FactSet) : Prop :=
  facts.interfaceMap = other.interfaceMap ∧
    facts.components.map naming = other.components.map naming

theorem pairs_eq_of_names (facts : FactSet) : pairs facts =
    facts.interfaceMap.entries.flatMap
      (fun e => e.2.map (fun implementation => (withoutArguments e.1, implementation))) ++
    ((facts.components.map naming).mergeSort (fun a b => decide (a.1 ≤ b.1))).flatMap
      (fun n => n.2.2.map (fun i => (withoutArguments i, n.1))) := by
  have hsort : (byName facts.components).map naming =
      (facts.components.map naming).mergeSort (fun a b => decide (a.1 ≤ b.1)) :=
    List.map_mergeSort (fun _ _ _ _ => rfl)
  rw [← hsort, List.flatMap_map]
  rfl

theorem directory_eq_of_names {cs ds : List Component}
    (h : cs.map (fun c => (c.qualifiedName, c.name)) =
      ds.map (fun c => (c.qualifiedName, c.name))) :
    directory cs = directory ds := by
  unfold directory
  rw [h]

namespace SameNames

variable {other : FactSet}

theorem interfaceMap_eq (h : facts.SameNames other) :
    Binding.interfaceMap facts = Binding.interfaceMap other := by
  unfold Binding.interfaceMap
  rw [pairs_eq_of_names, pairs_eq_of_names, h.1, h.2]

theorem directory_eq (h : facts.SameNames other) :
    directory facts.components = directory other.components := by
  apply directory_eq_of_names
  simpa [naming, Function.comp_def] using congrArg (List.map (fun n => (n.1, n.2.1))) h.2

theorem choice_eq (h : facts.SameNames other) : facts.choice = other.choice := by
  funext dep
  unfold choice
  rw [h.interfaceMap_eq, h.directory_eq]

theorem bind (h : facts.SameNames other) : facts.bind.SameNames other.bind := by
  refine ⟨h.interfaceMap_eq, ?_⟩
  rw [bind_eq, bind_eq, List.map_map, List.map_map]
  exact h.2

end SameNames

/-- The same facts with other fields. -/
def withFields (facts : FactSet) (fields : Component → Table String Dependency) : FactSet :=
  { facts with components := facts.components.map (fun c => { c with dependencies := fields c }) }

theorem withFields_self (facts : FactSet) : facts.withFields (·.dependencies) = facts := by
  unfold withFields
  rw [List.map_id']

theorem sameNames_withFields (facts : FactSet) (fields : Component → Table String Dependency) :
    (facts.withFields fields).SameNames facts := by
  refine ⟨rfl, ?_⟩
  unfold withFields
  rw [List.map_map]
  rfl

/-! ## Fields of all types -/

/-- Every field is bound to what `P` allows, and nothing else in the components changes. -/
def BoundBy (facts : FactSet) (P : Dependency → Option String → Prop) : Prop :=
  List.Forall₂ (fun c bound => bound = { c with dependencies := bound.dependencies } ∧
    List.Forall₂ (fun e e' => e'.1 = e.1 ∧ e'.2 = { e.2 with resolvedType := e'.2.resolvedType } ∧
      P e.2 e'.2.resolvedType) c.dependencies.entries bound.dependencies.entries)
    facts.components facts.bind.components

theorem boundBy_iff {P : Dependency → Option String → Prop} : facts.BoundBy P ↔
    ∀ c ∈ facts.components, ∀ e ∈ c.dependencies.entries, P e.2 (facts.choice e.2) := by
  unfold BoundBy
  rw [bind_eq, List.forall₂_map_right_iff, List.forall₂_same]
  refine forall₂_congr fun c _ => ?_
  simp only [bindComponent, Table.map, List.forall₂_map_right_iff, List.forall₂_same, true_and]
  rfl

/-- What holds of all fields that components can have holds of every field, if there is a
component. -/
theorem forall_fields_iff {P : Dependency → Prop} :
    (∀ fields, ∀ c ∈ (facts.withFields fields).components, ∀ e ∈ c.dependencies.entries, P e.2) ↔
      (facts.components ≠ [] → ∀ dep, P dep) := by
  constructor
  · intro h hne dep
    obtain ⟨c, hc⟩ := List.exists_mem_of_ne_nil _ hne
    have hfields := h (fun _ => ⟨[("field", dep)]⟩) _ (List.mem_map_of_mem hc)
    exact hfields ("field", dep) List.mem_cons_self
  · intro h fields c hc e _
    apply h
    rintro hnil
    rw [withFields, hnil] at hc
    cases hc

theorem boundBy_fields_iff {P : Dependency → Option String → Prop} :
    (∀ fields, (facts.withFields fields).BoundBy P) ↔
      (facts.components ≠ [] → ∀ dep, P dep (facts.choice dep)) := by
  rw [← forall_fields_iff]
  refine forall_congr' fun fields => ?_
  rw [boundBy_iff, (facts.sameNames_withFields fields).choice_eq]

theorem SameNames.isComponent_eq {other : FactSet} (h : facts.SameNames other) :
    facts.IsComponent = other.IsComponent := by
  funext q
  rw [← propext hasComponent_iff, ← propext hasComponent_iff, h.directory_eq]

theorem SameNames.names_eq {other : FactSet} (h : facts.SameNames other) :
    facts.Names = other.Names := by
  have hnames : facts.components.map (·.name) = other.components.map (·.name) := by
    simpa [naming, Function.comp_def] using congrArg (List.map (·.2.1)) h.2
  funext type
  unfold Names
  rw [h.isComponent_eq]
  simp only [← List.mem_map, hnames]

theorem SameNames.maximal_eq {other : FactSet} (h : facts.SameNames other) :
    facts.Maximal = other.Maximal := by
  have hlisted : facts.listedFor = other.listedFor := by
    funext type
    rw [← implementations_eq, ← implementations_eq, h.interfaceMap_eq]
  funext dep chosen
  unfold Maximal NoneNamed
  rw [h.names_eq, h.isComponent_eq, hlisted]

/-! ## Names that no fact has -/

theorem exists_length_le (names : List String) :
    ∃ n, ∀ name ∈ names, name.toList.length ≤ n := by
  induction names with
  | nil => exact ⟨0, by simp⟩
  | cons name names ih =>
      obtain ⟨n, hn⟩ := ih
      refine ⟨max name.toList.length n, ?_⟩
      intro other hother
      rcases List.mem_cons.mp hother with rfl | hother
      · exact Nat.le_max_left _ _
      · exact Nat.le_trans (hn other hother) (Nat.le_max_right _ _)

/-- A name in a package whose name is long. -/
def remote (n : Nat) (short : List Char) : String :=
  String.ofList (List.replicate (n + 1) 'x' ++ '.' :: short)

theorem toList_remote (n : Nat) (short : List Char) :
    (remote n short).toList = List.replicate (n + 1) 'x' ++ '.' :: short := by
  rw [remote, String.toList_ofList]

theorem bare_remote {n : Nat} {short : List Char} (hne : short ≠ []) (hplain : '<' ∉ short)
    (hends : Text.EndsPlain short) : Bare (remote n short).toList := by
  rw [toList_remote]
  refine ⟨?_, ?_, ?_⟩
  · simp [hplain]
  · intro c hc
    have hx : 'x' = c := by simpa [List.replicate_succ] using hc
    subst hx
    decide
  · intro c hc
    apply hends
    rwa [← List.singleton_append, List.getLast?_append_of_ne_nil _ (by simp),
      List.getLast?_append_of_ne_nil _ hne] at hc

theorem shortName_remote {n : Nat} {short : List Char} (hne : short ≠ []) (hdot : '.' ∉ short) :
    shortName (remote n short) = String.ofList short := by
  have hlast : Text.afterLast '.' (List.replicate (n + 1) 'x' ++ '.' :: short) = short := by
    have hshort : ∀ c ∈ short.reverse, (c != '.') = true := by
      intro c hc
      rw [bne_iff_ne]
      rintro rfl
      exact hdot (List.mem_reverse.mp hc)
    rw [Text.afterLast, List.reverse_append, List.reverse_cons, List.append_assoc,
      List.takeWhile_append_of_pos hshort]
    simp
  rw [shortName_eq, toList_remote, hlast, if_neg hne]

/-- A name of this length is neither that of a component nor one that an implementation is listed
under. -/
structure Unused (facts : FactSet) (length : Nat) : Prop where
  component : ∀ q, facts.IsComponent q → q.toList.length ≤ length
  listed : ∀ name, facts.listedUnder name ≠ [] → name.toList.length ≤ length

theorem exists_unused (facts : FactSet) : ∃ length, facts.Unused length := by
  obtain ⟨length, hlength⟩ := exists_length_le
    (facts.components.map (·.qualifiedName) ++ (Binding.interfaceMap facts).keys)
  refine ⟨length, ?_, ?_⟩
  · rintro q ⟨c, hc, rfl⟩
    exact hlength _ (List.mem_append_left _ (List.mem_map_of_mem hc))
  · intro name hne
    apply hlength _ (List.mem_append_right _ _)
    exact mem_keys_interfaceMap.mpr (List.exists_mem_of_ne_nil _ hne)

theorem Unused.notKnown {length : Nat} (h : facts.Unused length) (short : List Char) :
    ¬ facts.Known (remote length short) := by
  rintro (hcomponent | ⟨hdot, _⟩)
  · have hle := h.component _ hcomponent
    rw [toList_remote, List.length_append, List.length_replicate] at hle
    omega
  · simp [toList_remote] at hdot

theorem Unused.listedUnder_eq {length : Nat} (h : facts.Unused length) {name : String}
    (hname : length < name.toList.length) : facts.listedUnder name = [] := by
  by_contra hne
  have hle := h.listed name hne
  omega

theorem Unused.mono {length larger : Nat} (h : facts.Unused length) (hle : length ≤ larger) :
    facts.Unused larger :=
  ⟨fun q hq => Nat.le_trans (h.component q hq) hle,
    fun name hname => Nat.le_trans (h.listed name hname) hle⟩

theorem length_remote_lt (n : Nat) (short : List Char) : n < (remote n short).toList.length := by
  rw [toList_remote, List.length_append, List.length_replicate]
  omega

/-- Nothing is listed for a name in a long package but what is listed under its short name. -/
theorem Unused.listedFor_remote {length : Nat} (h : facts.Unused length) {short : List Char}
    (hne : short ≠ []) (hdot : '.' ∉ short) :
    facts.listedFor (remote length short) = facts.listedUnder (String.ofList short) := by
  rw [listedFor, if_pos (h.listedUnder_eq (length_remote_lt length short)),
    shortName_remote hne hdot]

/-! ## Simple names -/

/-- Every simple name without a dot is found. An empty one is never given, and as a declared type it
can be served by what is listed under it. -/
def NamesFound (facts : FactSet) : Prop :=
  ∀ c ∈ facts.components, '.' ∉ c.name.toList → facts.Known c.name ∨
    c.name = "" ∧ ∃ i ∈ facts.listedUnder "", facts.IsComponent i

/-- Components of one qualified name have one simple name. -/
def OneNameEach (facts : FactSet) : Prop :=
  ∀ c ∈ facts.components, ∀ d ∈ facts.components, c.qualifiedName = d.qualifiedName →
    c.name = d.name

instance (facts : FactSet) : Decidable facts.OneNameEach :=
  inferInstanceAs (Decidable (∀ c ∈ facts.components, ∀ d ∈ facts.components, _ → _))

theorem OneNameEach.namesFound (h : facts.OneNameEach) : facts.NamesFound := by
  intro c hc hdot
  obtain ⟨name, hname⟩ := isComponent_iff.mp ⟨c, hc, rfl⟩
  obtain ⟨last, hlast, rfl⟩ := Option.map_eq_some_iff.mp hname
  have hsame : last.qualifiedName = c.qualifiedName := by simpa using List.find?_some hlast
  have hmem := List.mem_reverse.mp (List.mem_of_find?_eq_some hlast)
  rw [h last hmem c hc hsame] at hname
  exact .inl (.inr ⟨hdot, _, hname⟩)

theorem ne_empty_of_given {o : Option String} {given : String} (h : Text.given? o = some given) :
    given ≠ "" := by
  simpa using (Option.filter_eq_some_iff.mp h).2

theorem listedFor_empty (facts : FactSet) : facts.listedFor "" = facts.listedUnder "" := by
  unfold listedFor
  split
  · rfl
  · rfl

/-- A name that is named and not known is the empty one. -/
theorem NamesFound.empty_of_unknown (h : facts.NamesFound) (hnames : facts.Names type)
    (hunknown : ¬ facts.Known type) :
    type = "" ∧ ∃ i ∈ facts.listedUnder "", facts.IsComponent i := by
  rcases hnames with hcomponent | ⟨hdot, c, hc, rfl⟩
  · exact absurd (.inl hcomponent) hunknown
  · exact (h c hc hdot).resolve_left hunknown

theorem NamesFound.maximal (h : facts.NamesFound) (dep : Dependency) :
    facts.Maximal dep (facts.choice dep) := by
  intro hnone
  obtain ⟨hgiven, hdeclared, hlisted⟩ := (facts.settled_choice dep).unbound.mp hnone
  refine ⟨?_, ?_, hlisted⟩
  · intro given heq hnames
    exact ne_empty_of_given heq (h.empty_of_unknown hnames (hgiven given heq)).1
  · intro hnames
    obtain ⟨hempty, i, hi, hcomponent⟩ := h.empty_of_unknown hnames hdeclared
    rw [hempty, listedFor_empty] at hlisted
    exact hlisted i hi hcomponent

/-- A field whose declared type names nothing. -/
theorem Unused.unbound {length : Nat} (h : facts.Unused length) {given : String}
    (hgiven : ¬ facts.Known given) : facts.choice
      ⟨"field", remote length (List.replicate (length + 1) 'x'), some given, .byField⟩ = none := by
  have hne : List.replicate (length + 1) 'x' ≠ [] := by simp
  have hdot : '.' ∉ List.replicate (length + 1) 'x' := by simp
  have hbare := bare_remote (n := length) hne (by simp) (by
    intro c hc
    rw [(List.mem_replicate.mp (List.mem_of_getLast? hc)).2]
    decide)
  apply (facts.settled_choice _).unbound.mpr
  dsimp only
  rw [hbare.withoutArguments, h.listedFor_remote hne hdot, h.listedUnder_eq (by simp)]
  refine ⟨?_, h.notKnown _, by simp⟩
  intro type htype
  obtain ⟨hsome, _⟩ := Option.filter_eq_some_iff.mp htype
  cases hsome
  exact hgiven

theorem maximal_iff (facts : FactSet) :
    (facts.components ≠ [] → ∀ dep, facts.Maximal dep (facts.choice dep)) ↔ facts.NamesFound := by
  constructor
  · intro h c hc hdot
    have hmaximal := h (List.ne_nil_of_mem hc)
    have hnames : facts.Names c.name := .inr ⟨hdot, c, hc, rfl⟩
    by_contra hnot
    obtain ⟨hunknown, hserved⟩ := not_or.mp hnot
    by_cases hempty : c.name = ""
    · -- the empty name is a declared type here
      rw [hempty] at hunknown hnames
      have hnone : facts.choice ⟨"field", "", none, .byField⟩ = none := by
        apply (facts.settled_choice _).unbound.mpr
        refine ⟨?_, ?_, ?_⟩
        · intro given hgiven
          cases hgiven
        · exact hunknown
        · intro i hi hcomponent
          exact hserved ⟨hempty, i, listedFor_empty facts ▸ hi, hcomponent⟩
      exact (hmaximal _ hnone).2.1 hnames
    · obtain ⟨length, hunused⟩ := facts.exists_unused
      have hgiven : Text.given? (some c.name) = some c.name := by
        simp [Text.given?, Option.filter_some, hempty]
      exact (hmaximal _ (hunused.unbound hunknown)).1 c.name hgiven hnames
  · intro h _
    exact h.maximal

/-! ## Binding again -/

theorem isComponent_bind : facts.bind.IsComponent q ↔ facts.IsComponent q := by
  unfold IsComponent
  rw [bind_eq]
  simp [bindComponent]

theorem directory_bind (facts : FactSet) :
    directory facts.bind.components = directory facts.components := by
  apply directory_eq_of_names
  rw [bind_eq, List.map_map]
  rfl

theorem known_bind : facts.bind.Known type ↔ facts.Known type := by
  rw [← not_iff_not, ← component?_eq_none, directory_bind, component?_eq_none]

/-- A second pass changes nothing if every field is bound to what it was bound to. -/
theorem bind_bind_iff (facts : FactSet) : facts.bind.bind.components = facts.bind.components ↔
    ∀ c ∈ facts.components, ∀ e ∈ c.dependencies.entries,
      facts.bind.choice { e.2 with resolvedType := facts.choice e.2 } = facts.choice e.2 := by
  have hfirst : facts.bind.components = facts.components.map
    (bindComponent (directory facts.components) (Binding.interfaceMap facts)) := rfl
  have hsecond : facts.bind.bind.components = facts.bind.components.map
    (bindComponent (directory facts.bind.components) (Binding.interfaceMap facts.bind)) := rfl
  rw [hsecond, hfirst, List.map_map, List.map_inj_left]
  refine forall₂_congr fun c _ => ?_
  simp only [Function.comp_apply, bindComponent, Component.mk.injEq, Table.map, Table.mk.injEq,
    List.map_map, List.map_inj_left, Prod.mk.injEq, Dependency.mk.injEq, true_and, and_true]
  rfl

/-- Where a component implements an interface, some component is listed under its short name without
the blanks in front of that. -/
def ShortNamesServed (facts : FactSet) : Prop :=
  ∀ p ∈ pairs facts, facts.IsComponent p.2 →
    ∃ i ∈ facts.listedUnder (withoutArguments (shortName p.1)), facts.IsComponent i

/-- No interface has a blank right behind the last dot of its name. -/
def TightInterfaces (facts : FactSet) : Prop :=
  (∀ e ∈ facts.interfaceMap.entries, Tight (withoutArguments e.1)) ∧
    ∀ c ∈ facts.components, ∀ i ∈ c.interfaces, Tight (withoutArguments i)

instance (facts : FactSet) : Decidable facts.TightInterfaces := inferInstanceAs (Decidable (_ ∧ _))

theorem TightInterfaces.shortNamesServed (h : facts.TightInterfaces) : facts.ShortNamesServed := by
  rintro ⟨interface, implementation⟩ hpair hcomponent
  have htight : Tight interface := by
    rcases mem_pairs.mp hpair with ⟨e, he, _, rfl⟩ | ⟨c, hc, _, i, hi, rfl⟩
    · exact h.1 e he
    · exact h.2 c hc i hi
  have hbare := (bare_of_mem_pairs hpair).shortName htight
  dsimp only
  rw [hbare.withoutArguments]
  exact ⟨implementation, mem_listedUnder.mpr ⟨_, hpair, mem_keys.mpr (.inr rfl)⟩, hcomponent⟩

theorem listedUnder_subset_bind (facts : FactSet) (name : String) :
    facts.listedUnder name ⊆ facts.bind.listedUnder name := by
  intro implementation h
  obtain ⟨interface, hpair, hname⟩ := mem_listedUnder.mp h
  exact mem_listedUnder_bind.mpr ⟨interface, hpair, .inl hname⟩

/-- Then a second pass lists a component only where the first one lists some. -/
theorem ShortNamesServed.listed (h : facts.ShortNamesServed) {name implementation : String}
    (hlisted : implementation ∈ facts.bind.listedUnder name)
    (hcomponent : facts.IsComponent implementation) :
    ∃ i ∈ facts.listedUnder name, facts.IsComponent i := by
  obtain ⟨interface, hpair, hname | rfl⟩ := mem_listedUnder_bind.mp hlisted
  · exact ⟨implementation, mem_listedUnder.mpr ⟨interface, hpair, hname⟩, hcomponent⟩
  · exact h (interface, implementation) hpair hcomponent

theorem ShortNamesServed.listedFor (h : facts.ShortNamesServed) {implementation : String}
    (hlisted : implementation ∈ facts.bind.listedFor type)
    (hcomponent : facts.IsComponent implementation) :
    ∃ i ∈ facts.listedFor type, facts.IsComponent i := by
  unfold FactSet.listedFor at hlisted ⊢
  split at hlisted
  · next hnone =>
    have hnone' : facts.listedUnder type = [] :=
      List.subset_nil.mp (hnone ▸ facts.listedUnder_subset_bind type)
    rw [if_pos hnone']
    exact h.listed hlisted hcomponent
  · obtain ⟨i, hi, hcomponent'⟩ := h.listed hlisted hcomponent
    rw [if_neg (List.ne_nil_of_mem hi)]
    exact ⟨i, hi, hcomponent'⟩

/-- A field that is settled is settled the same way again. -/
theorem ShortNamesServed.choice_again (h : facts.ShortNamesServed)
    (hnamed : ∀ c ∈ facts.components, c.qualifiedName ≠ "") (dep : Dependency) :
    facts.bind.choice { dep with resolvedType := facts.choice dep } = facts.choice dep := by
  have hfirst := facts.settled_choice dep
  cases hchosen : facts.choice dep with
  | some q =>
      -- what was chosen is given now, and it means itself
      rw [hchosen] at hfirst
      obtain ⟨c, hc, rfl⟩ := hfirst.sound q rfl
      apply (facts.bind.settled_choice _).given c.qualifiedName
      · simp [Text.given?, Option.filter_some, hnamed c hc]
      · exact .inl ⟨isComponent_bind.mpr ⟨c, hc, rfl⟩, rfl⟩
  | none =>
      rw [hchosen] at hfirst
      obtain ⟨_, hdeclared, hlisted⟩ := hfirst.unbound.mp rfl
      apply (facts.bind.settled_choice _).unbound.mpr
      refine ⟨?_, ?_, ?_⟩
      · intro given hgiven
        cases hgiven
      · rwa [known_bind]
      · intro i hi hcomponent
        obtain ⟨j, hj, hcomponent'⟩ := h.listedFor hi (isComponent_bind.mp hcomponent)
        exact hlisted j hj hcomponent'

/-- The short name of an interface that a second pass takes up under another name. -/
theorem taken_up {interface : String} (hbare : Bare interface.toList)
    (hnew : withoutArguments (shortName interface) ∉ keys interface) :
    (withoutArguments (shortName interface)).toList ≠ [] ∧
      '.' ∉ (withoutArguments (shortName interface)).toList := by
  have hdot : '.' ∉ (shortName interface).toList := by
    intro hin
    rw [shortName_of_mem hin, hbare.withoutArguments] at hnew
    exact hnew (mem_keys.mpr (.inl rfl))
  have hne : interface.toList ≠ [] := by
    intro hempty
    rw [String.toList_eq_nil_iff.mp hempty] at hnew
    exact hnew (by decide)
  rw [toList_withoutArguments, Url.before_eq_self fun hin =>
    hbare.plain ((shortName_suffix interface).mem hin)]
  exact ⟨Text.trim_ne_nil (shortName_ne_nil hne) (endsPlain_shortName hbare.ends),
    fun hin => hdot (Text.mem_of_mem_trim hin)⟩

theorem again_iff (facts : FactSet) (hnamed : ∀ c ∈ facts.components, c.qualifiedName ≠ "") :
    (facts.components ≠ [] → ∀ dep,
      facts.bind.choice { dep with resolvedType := facts.choice dep } = facts.choice dep) ↔
      facts.ShortNamesServed := by
  constructor
  · rintro h ⟨interface, implementation⟩ hpair hcomponent
    by_contra hnone
    have hbare := bare_of_mem_pairs hpair
    have hnew : withoutArguments (shortName interface) ∉ keys interface := fun hkey =>
      hnone ⟨implementation, mem_listedUnder.mpr ⟨interface, hpair, hkey⟩, hcomponent⟩
    obtain ⟨hne, hdot⟩ := taken_up hbare hnew
    obtain ⟨first, hfirst⟩ := facts.exists_unused
    obtain ⟨second, hsecond⟩ := facts.bind.exists_unused
    have hunused := hfirst.mono (Nat.le_max_left first second)
    have hunused' := hsecond.mono (Nat.le_max_right first second)
    have hcut := bare_withoutArguments (shortName interface)
    have htype := (bare_remote (n := max first second) hne hcut.plain hcut.ends).withoutArguments
    -- a field of this type is left unbound by the first pass and bound by the second
    have hunbound : facts.choice ⟨"field", remote (max first second)
        (withoutArguments (shortName interface)).toList, none, .byField⟩ = none := by
      apply (facts.settled_choice _).unbound.mpr
      dsimp only
      rw [htype, hunused.listedFor_remote hne hdot, String.ofList_toList]
      refine ⟨?_, hunused.notKnown _, fun i hi hi' => hnone ⟨i, hi, hi'⟩⟩
      intro given hgiven
      cases hgiven
    have hsome : facts.components ≠ [] := by
      obtain ⟨c, hc, _⟩ := hcomponent
      exact List.ne_nil_of_mem hc
    have hagain := h hsome ⟨"field", remote (max first second)
        (withoutArguments (shortName interface)).toList, none, .byField⟩
    rw [hunbound] at hagain
    have hlisted := ((facts.bind.settled_choice _).unbound.mp hagain).2.2
    dsimp only at hlisted
    rw [htype, hunused'.listedFor_remote hne hdot, String.ofList_toList] at hlisted
    exact hlisted implementation (mem_listedUnder_bind.mpr ⟨interface, hpair, .inr rfl⟩)
      (isComponent_bind.mpr hcomponent)
  · intro h _
    exact h.choice_again hnamed

/-- **Binding is maximal just where all simple names are found, and stable just where all short
names are served.** It chooses only components of the run, in the order given, declared, listed, and
changes nothing else but the interface map, which then has both names of every interface. -/
theorem binding_maximal_and_stable_iff (facts : FactSet)
    (hnamed : ∀ c ∈ facts.components, c.qualifiedName ≠ "") :
    (facts.bind.projectId = facts.projectId ∧ facts.bind.bound = true ∧
      ∀ name, (facts.bind.interfaceMap.find? name).getD [] = facts.listedUnder name) ∧
    facts.BoundBy facts.Chosen ∧
    ((∀ fields, (facts.withFields fields).BoundBy (facts.withFields fields).Maximal) ↔
      facts.NamesFound) ∧
    ((∀ fields, (facts.withFields fields).bind.bind.components =
      (facts.withFields fields).bind.components) ↔ facts.ShortNamesServed) ∧
    (facts.OneNameEach → facts.NamesFound) ∧ (facts.TightInterfaces → facts.ShortNamesServed) := by
  refine ⟨⟨rfl, rfl, fun name => ?_⟩,
    boundBy_iff.mpr fun _ _ e _ => facts.chosen_choice e.2, ?_, ?_,
    OneNameEach.namesFound, TightInterfaces.shortNamesServed⟩
  · rw [bind_eq, find?_interfaceMap, getD_listing?]
  · rw [← maximal_iff, ← boundBy_fields_iff]
    refine forall_congr' fun fields => ?_
    rw [(facts.sameNames_withFields fields).maximal_eq]
  · rw [← again_iff facts hnamed, ← forall_fields_iff]
    refine forall_congr' fun fields => ?_
    have hsame := facts.sameNames_withFields fields
    rw [bind_bind_iff, hsame.choice_eq, hsame.bind.choice_eq]

/-! ## Names that are found and names that are not -/

theorem directory_of_ordered {cs : List Component}
    (h : (directory cs).simpleNames.keys.Pairwise (· ≤ ·)) : directory cs =
      ⟨(directory cs).simpleNames, (directory cs).simpleNames.keys.foldl
        (fun t q => t.insertNew (((directory cs).simpleNames.find? q).getD "") q) ∅⟩ := by
  rw [← Text.sorted_of_pairwise h, ← qualifiedNames_eq]

def storeNamed (name : String) (interfaces : List String) : Component :=
  ⟨name, "a.Store", "a", .dataAccessor, interfaces, ∅, [], none, none, none, none⟩

/-- A service with one field, and what that is bound to. -/
def keeping (declared : String) (chosen : Option String) : Component :=
  ⟨"Keeper", "b.Keeper", "b", .businessService, [],
    ⟨[("store", ⟨"store", declared, chosen, .byField⟩)]⟩, [], none, none, none, none⟩

/-- A store behind an interface, and a service with a field for it. -/
def oneStore (interface declared : String) : FactSet :=
  ⟨"shop", [storeNamed "Store" [interface], keeping declared none], ∅, false⟩

theorem directory_oneStore (interface declared : String) :
    directory [storeNamed "Store" [interface], keeping declared none] =
      ⟨⟨[("a.Store", "Store"), ("b.Keeper", "Keeper")]⟩,
        ⟨[("Store", "a.Store"), ("Keeper", "b.Keeper")]⟩⟩ := by
  have hordered : ["a.Store", "b.Keeper"].Pairwise (· ≤ ·) := by decide
  exact directory_of_ordered hordered

def orderStore : FactSet := oneStore "c.Repository<Order>" "Repository"

/-- A field is bound through the interface of the store, and bound so again. -/
theorem listed_store_bound_again :
    orderStore.OneNameEach ∧ orderStore.TightInterfaces ∧
    orderStore.bind.components =
      [storeNamed "Store" ["c.Repository<Order>"], keeping "Repository" (some "a.Store")] ∧
    orderStore.BoundBy orderStore.Maximal ∧
    orderStore.bind.bind.components = orderStore.bind.components := by
  have hone : orderStore.OneNameEach := by decide
  have htight : orderStore.TightInterfaces := by decide
  obtain ⟨_, _, hmaximal, hstable, hfound, hserved⟩ :=
    binding_maximal_and_stable_iff orderStore (by decide)
  have hfields := hmaximal.mpr (hfound hone) (·.dependencies)
  have hagain := hstable.mpr (hserved htight) (·.dependencies)
  rw [withFields_self] at hfields hagain
  refine ⟨hone, htight, ?_, hfields, hagain⟩
  rw [bind_eq, orderStore, oneStore, directory_oneStore, interfaceMap_of_ordered (by decide)]
  rfl

/-- Two components of one qualified name, and a field whose type is the first one. -/
def replacedStore : FactSet :=
  ⟨"shop", [storeNamed "OldStore" [], storeNamed "Store" [], keeping "OldStore" none], ∅, false⟩

/-- A field stays unbound although its type is the simple name of a component, and another one is
bound by the second pass only. -/
theorem names_missed :
    ((∀ c ∈ replacedStore.components, c.qualifiedName ≠ "") ∧
      replacedStore.bind.components = replacedStore.components ∧
      ¬ replacedStore.BoundBy replacedStore.Maximal) ∧
    (oneStore "c. Repository" "Repository").bind.components =
      [storeNamed "Store" ["c. Repository"], keeping "Repository" none] ∧
    (oneStore "c. Repository" "Repository").bind.bind.components =
      [storeNamed "Store" ["c. Repository"], keeping "Repository" (some "a.Store")] := by
  have hordered : ["a.Store", "b.Keeper"].Pairwise (· ≤ ·) := by decide
  have hdirectory := @directory_of_ordered replacedStore.components hordered
  have hfirst : (oneStore "c. Repository" "Repository").bind =
      ⟨"shop", [storeNamed "Store" ["c. Repository"], keeping "Repository" none],
        ⟨[("c. Repository", ["a.Store"]), (" Repository", ["a.Store"])]⟩, true⟩ := by
    rw [bind_eq, oneStore, directory_oneStore, interfaceMap_of_ordered (by decide)]
    rfl
  refine ⟨⟨by decide, ?_, fun hbound => ?_⟩, ?_, ?_⟩
  · rw [bind_eq, hdirectory, interfaceMap_of_ordered (by decide)]
    rfl
  · have hkeeper : keeping "OldStore" none ∈ replacedStore.components := by decide
    have hmaximal := boundBy_iff.mp hbound _ hkeeper _ List.mem_cons_self
    have hunbound : replacedStore.choice ⟨"store", "OldStore", none, .byField⟩ = none := by
      rw [choice, hdirectory, interfaceMap_of_ordered (by decide)]
      rfl
    have hnamed : replacedStore.Names (withoutArguments "OldStore") := .inr (by decide)
    exact (hmaximal hunbound).2.1 hnamed
  · rw [hfirst]
  · rw [hfirst, bind_eq, directory_oneStore, interfaceMap_of_ordered (by decide)]
    rfl

end FactSet

end ArchGraph
