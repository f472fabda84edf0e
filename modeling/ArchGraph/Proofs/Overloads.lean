import ArchGraph.Proofs.TopicSources
import ArchGraph.Proofs.TypeNames

/-!
Methods of one class and one name with different numbers of parameters. An identifier has the simple
name of each parameter type, with commas between them, so the commas tell such methods apart. But of
a type whose name ends in dots, such as `String...`, the simple name is empty, and a method with
just one such parameter gets the identifier of the one without parameters. That is the only way in
which two of them can share an identifier (`parameterTypes_eq_iff`), and then the graph has only one
of them (`overloads_apart_iff`, `variadic_overload_lost`).
-/

namespace ArchGraph

namespace Identifier

open Text

/-! ## Types as they are written -/

/-- A letter, a digit, an underscore or a dollar sign. Beyond the Latin alphabet every character
that is not blank counts. -/
def isNameChar (c : Char) : Bool :=
  !isBlank c && (c.isAlphanum || c == '_' || c == '$' || decide (128 ≤ c.toNat))

def isTypeChar (c : Char) : Bool := isNameChar c || c == '.' || c == '[' || c == ']'

/-- A name with dots and brackets, and then whatever type arguments. -/
def IsTypeText (t : String) : Prop :=
  before '<' t.toList ≠ [] ∧ ∀ c ∈ before '<' t.toList, isTypeChar c = true

instance (t : String) : Decidable (IsTypeText t) :=
  decidable_of_iff (before '<' t.toList ≠ [] ∧ (before '<' t.toList).all isTypeChar = true)
    (by rw [IsTypeText, List.all_eq_true])

/-- Nothing of the name is left behind its last dot. -/
def Vanishes (t : String) : Prop := (before '<' t.toList).getLast? = some '.'

instance (t : String) : Decidable (Vanishes t) := inferInstanceAs (Decidable (_ = _))

/-- One list is empty, and the other has one type only, which vanishes. -/
def LookAlike : List String → List String → Prop
  | [], [t] => Vanishes t
  | [t], [] => Vanishes t
  | _, _ => False

theorem isBlank_of_isTypeChar {c : Char} (h : isTypeChar c = true) : isBlank c = false := by
  simp only [isTypeChar, isNameChar, Bool.or_eq_true, Bool.and_eq_true, beq_iff_eq,
    Bool.not_eq_true'] at h
  rcases h with ((⟨hplain, _⟩ | rfl) | rfl) | rfl
  · exact hplain
  · decide
  · decide
  · decide

theorem LookAlike.symm {ts us : List String} (h : LookAlike ts us) : LookAlike us ts := by
  unfold LookAlike at h ⊢
  split at h <;> simp_all

theorem LookAlike.eq_nil_or {ts us : List String} (h : LookAlike ts us) : ts = [] ∨ us = [] := by
  unfold LookAlike at h
  split at h <;> simp_all

theorem lookAlike_nil_iff {ts : List String} : LookAlike ts [] ↔ ∃ t, ts = [t] ∧ Vanishes t := by
  unfold LookAlike
  split <;> simp_all

/-! ## Simple names -/

/-- Blanks behind a type make no difference to its name. -/
theorem before_trim {cs : List Char} (hne : before '<' cs ≠ [])
    (hplain : ∀ c ∈ before '<' cs, isBlank c = false) : before '<' (trim cs) = before '<' cs := by
  have hbegin : BeginsPlain cs := by
    intro c hc
    apply hplain
    obtain ⟨rest, rfl⟩ := List.head?_eq_some_iff.mp hc
    by_cases hopen : c = '<'
    · exact absurd (by simp [before, hopen]) hne
    · simp [before, hopen]
  obtain ⟨blanks, hcs, hblanks⟩ := exists_trim_append cs
  rw [dropWhile_blank hbegin] at hcs
  generalize trim cs = core at hcs ⊢
  subst hcs
  unfold before at *
  rw [List.takeWhile_append] at hplain ⊢
  -- without type arguments the name would go on into the blanks, but it has none
  split at hplain
  · next hall =>
    have hnone : blanks.takeWhile (· != '<') = [] := by
      rw [List.eq_nil_iff_forall_not_mem]
      intro c hc
      have hblank := hblanks c ((List.takeWhile_sublist _).mem hc)
      rw [hplain c (List.mem_append_right _ hc)] at hblank
      cases hblank
    rw [if_pos hall, hnone, List.append_nil]
    exact (List.takeWhile_sublist _).eq_of_length hall
  · next hpart => rw [if_neg hpart]

theorem IsTypeText.simpleType {t : String} (h : IsTypeText t) :
    simpleType t.toList = afterLast '.' (before '<' t.toList) := by
  unfold Identifier.simpleType
  rw [before_trim h.1 (fun c hc => isBlank_of_isTypeChar (h.2 c hc))]

theorem IsTypeText.simpleType_eq_nil_iff {t : String} (h : IsTypeText t) :
    Identifier.simpleType t.toList = [] ↔ Vanishes t := by
  rw [h.simpleType]
  exact afterLast_eq_nil_iff h.1

theorem IsTypeText.comma_notMem {t : String} (h : IsTypeText t) :
    ',' ∉ Identifier.simpleType t.toList := by
  rw [h.simpleType]
  intro hin
  have hcomma := h.2 _ ((afterLast_suffix _ _).mem hin)
  revert hcomma
  decide

/-! ## Lists of types -/

theorem joinWith_injective {sep : Char} {xs ys : List (List Char)} (hxs : ∀ x ∈ xs, sep ∉ x)
    (hys : ∀ y ∈ ys, sep ∉ y) (hx : xs ≠ []) (hy : ys ≠ [])
    (h : joinWith [sep] xs = joinWith [sep] ys) : xs = ys := by
  calc xs = (joinWith [sep] xs).splitOn sep := (List.splitOn_intercalate sep hxs hx).symm
    _ = (joinWith [sep] ys).splitOn sep := by rw [h]
    _ = ys := List.splitOn_intercalate sep hys hy

theorem parameterTypes_of_ne_nil {ts : List String} (h : ts ≠ []) (signature : Option String) :
    parameterTypes ts signature = joinWith [','] (ts.map (fun t => simpleType t.toList)) := by
  simp [parameterTypes, h]

theorem parameterTypes_nil : parameterTypes [] none = [] := by
  decide

section

variable {ts us : List String} (hts : ∀ t ∈ ts, IsTypeText t)
include hts

theorem comma_notMem_simpleTypes : ∀ cs ∈ ts.map (fun t => simpleType t.toList), ',' ∉ cs := by
  intro cs hcs
  obtain ⟨t, ht, rfl⟩ := List.mem_map.mp hcs
  exact (hts t ht).comma_notMem

/-- No types look like nothing but a single one that vanishes. -/
theorem parameterTypes_eq_nil_iff (hne : ts ≠ []) :
    parameterTypes ts none = [] ↔ LookAlike ts [] := by
  rw [parameterTypes_of_ne_nil hne]
  constructor
  · intro h
    have hone : ts.map (fun t => simpleType t.toList) = [[]] :=
      joinWith_injective (comma_notMem_simpleTypes hts) (by simp) (by simpa using hne) (by simp) h
    obtain ⟨t, rfl, hempty⟩ := List.map_eq_singleton_iff.mp hone
    exact lookAlike_nil_iff.mpr ⟨t, rfl,
      (hts t List.mem_cons_self).simpleType_eq_nil_iff.mp hempty⟩
  · intro h
    obtain ⟨t, rfl, hvanishes⟩ := lookAlike_nil_iff.mp h
    simpa [joinWith] using (hts t List.mem_cons_self).simpleType_eq_nil_iff.mpr hvanishes

/-- Of two lists of different lengths both look the same only if one has just one type, which
vanishes. -/
theorem parameterTypes_eq_iff (hus : ∀ u ∈ us, IsTypeText u) (hlength : ts.length ≠ us.length) :
    parameterTypes ts none = parameterTypes us none ↔ LookAlike ts us := by
  by_cases ht : ts = []
  · subst ht
    have hu : us ≠ [] := by
      rintro rfl
      exact hlength rfl
    rw [parameterTypes_nil, eq_comm, parameterTypes_eq_nil_iff hus hu]
    exact ⟨LookAlike.symm, LookAlike.symm⟩
  · by_cases hu : us = []
    · subst hu
      rw [parameterTypes_nil, parameterTypes_eq_nil_iff hts ht]
    · constructor
      · intro h
        rw [parameterTypes_of_ne_nil ht, parameterTypes_of_ne_nil hu] at h
        have hsame := joinWith_injective (comma_notMem_simpleTypes hts)
          (comma_notMem_simpleTypes hus) (by simpa using ht) (by simpa using hu) h
        exact absurd (by simpa using congrArg List.length hsame) hlength
      · intro h
        exact (h.eq_nil_or.elim ht hu).elim

end

theorem method_eq_iff (owner name : String) (ts us : List String) (signature : Option String) :
    method owner name ts signature = method owner name us signature ↔
      parameterTypes ts signature = parameterTypes us signature := by
  simp [method, String.append_left_inj, String.append_right_inj, String.ofList_inj]

end Identifier

namespace CallGraph

open Identifier (IsTypeText LookAlike)

variable {facts : FactSet} {c : Component} {a b : MethodFact}

/-! ## Nodes of overloads -/

/-- A method is registered, and its node has the calls that its own invocations make. -/
def OwnNode (facts : FactSet) (g : ResolvedGraph) (c : Component) (m : MethodFact) : Prop :=
  ∃ n ∈ registered facts, n.owner = c ∧ n.fact = m ∧
    ∃ node, g.methods.find? (m.id c) = some node ∧ node.toMethodDecl = n.decl ∧
      node.calls = distinct (calledIds (resolution facts) n)

/-- Two methods of a registered class. No other fact has the identifier of either. -/
structure Neighbours (facts : FactSet) (c : Component) (a b : MethodFact) : Prop where
  owner : c ∈ firstOfName [] (registrationOrder facts.components)
  methods : a ∈ c.methods ∧ b ∈ c.methods
  served : ∃ kind, c.kind.methodKind? = some kind ∧
    Registry.isServed kind a = true ∧ Registry.isServed kind b = true
  alone : ∀ f ∈ facts.methodFacts, f.2.id f.1 = a.id c ∨ f.2.id f.1 = b.id c →
    f = (c, a) ∨ f = (c, b)

theorem Neighbours.symm (h : Neighbours facts c a b) : Neighbours facts c b a where
  owner := h.owner
  methods := h.methods.symm
  served := by
    obtain ⟨kind, hkind, ha, hb⟩ := h.served
    exact ⟨kind, hkind, hb, ha⟩
  alone := fun f hf hid => (h.alone f hf hid.symm).symm

theorem ownNode_of_registered {n : Registered} (hn : n ∈ registered facts) :
    OwnNode facts (ofBound facts) n.owner n.fact := by
  obtain ⟨_, _, hid⟩ := facts.built_of_registered hn
  obtain ⟨node, hfind, hnode⟩ := flat_find? facts hn
  rw [← methods_ofBound, hid] at hfind
  exact ⟨n, hn, rfl, rfl, node, hfind, hnode⟩

theorem Neighbours.ownNode (h : Neighbours facts c a b) (hids : a.id c ≠ b.id c) :
    OwnNode facts (ofBound facts) c a := by
  obtain ⟨kind, hkind, hserved, _⟩ := h.served
  obtain ⟨n, hn, hid⟩ := Registry.present_ofFacts h.owner hkind h.methods.1 hserved
  obtain ⟨howner, hfact, hself⟩ := facts.built_of_registered hn
  have hsame := h.alone (n.owner, n.fact) (facts.mem_methodFacts.mpr ⟨howner, hfact⟩)
    (.inl (hself.symm.trans hid))
  rcases hsame with hsame | hsame
  · obtain ⟨rfl, rfl⟩ := Prod.mk.inj hsame
    exact ownNode_of_registered hn
  · obtain ⟨rfl, rfl⟩ := Prod.mk.inj hsame
    exact absurd (hid.symm.trans hself) hids

/-- Only one method is registered under an identifier. -/
theorem id_ne_of_ownNode {g : ResolvedGraph} (hne : a ≠ b) (ha : OwnNode facts g c a)
    (hb : OwnNode facts g c b) : a.id c ≠ b.id c := by
  obtain ⟨n, hn, hnc, hna, _⟩ := ha
  obtain ⟨k, hk, hkc, hkb, _⟩ := hb
  obtain ⟨_, _, hnid⟩ := facts.built_of_registered hn
  obtain ⟨_, _, hkid⟩ := facts.built_of_registered hk
  intro hids
  have hsame : n = k := by
    apply (Registry.sound_ofFacts facts).eq_of_id hn hk
    rw [hnid, hkid, hna, hnc, hkb, hkc, hids]
  apply hne
  rw [← hna, ← hkb, hsame]

/-- **Overloads with different numbers of parameters stay apart,** but for one that has a single
parameter of a type whose name ends in a dot: it shares its identifier with the one that has none,
and only one of these two gets into the graph. -/
theorem overloads_apart_iff (c : Component) (a b : MethodFact) (hname : a.name = b.name)
    (hunsigned : a.signature = none ∧ b.signature = none)
    (htypes : ∀ t ∈ a.parameterTypes ++ b.parameterTypes, IsTypeText t)
    (hlength : a.parameterTypes.length ≠ b.parameterTypes.length) :
    (a.id c ≠ b.id c ↔ ¬ LookAlike a.parameterTypes b.parameterTypes) ∧
    ∀ facts : FactSet, facts.bound = true → Neighbours facts c a b →
      ∃ g, build facts = .ok g ∧ ((OwnNode facts g c a ∧ OwnNode facts g c b) ↔
        ¬ LookAlike a.parameterTypes b.parameterTypes) := by
  have hids : a.id c ≠ b.id c ↔ ¬ LookAlike a.parameterTypes b.parameterTypes := by
    unfold MethodFact.id
    rw [hname, hunsigned.1, hunsigned.2, ne_eq, Identifier.method_eq_iff,
      Identifier.parameterTypes_eq_iff (fun t ht => htypes t (List.mem_append_left _ ht))
        (fun t ht => htypes t (List.mem_append_right _ ht)) hlength]
  refine ⟨hids, fun facts hbound hpair => ⟨ofBound facts, by simp [build, hbound], ?_⟩⟩
  rw [← hids]
  constructor
  · rintro ⟨ha, hb⟩
    apply id_ne_of_ownNode _ ha hb
    rintro rfl
    exact hlength rfl
  · intro hne
    exact ⟨hpair.ownNode hne, hpair.symm.ownNode hne.symm⟩

/-- A method that takes parameters of the given types. -/
def finding (types : List String) : MethodFact :=
  { methodNamed "find" none [] with parameterTypes := types }

/-- A class with two methods of one name. -/
def finder (types others : List String) : Component :=
  ⟨"Orders", "shop.Orders", "shop", .businessService, [], ∅, [finding types, finding others],
    none, none, none, none⟩

def finderFacts (types others : List String) : FactSet := ⟨"shop", [finder types others], ∅, true⟩

theorem neighbours_finder (types others : List String) : Neighbours (finderFacts types others)
    (finder types others) (finding types) (finding others) where
  owner := by simp [finderFacts, registrationOrder, firstOfName]
  methods := by simp [finder]
  served := ⟨.service, rfl, rfl, rfl⟩
  alone := by
    intro f hf _
    simpa [FactSet.methodFacts, finderFacts, finder] using hf

def mixedTypes : List String := ["java.util.List<Order>", "String..."]

/-- A variable number of arguments is no obstacle where another parameter stands beside it. -/
theorem variadic_overloads_kept :
    (∀ t ∈ mixedTypes ++ ["String..."], IsTypeText t) ∧
    ∃ g, build (finderFacts mixedTypes ["String..."]) = .ok g ∧
      OwnNode (finderFacts mixedTypes ["String..."]) g (finder mixedTypes ["String..."])
        (finding mixedTypes) ∧
      OwnNode (finderFacts mixedTypes ["String..."]) g (finder mixedTypes ["String..."])
        (finding ["String..."]) := by
  have htypes : ∀ t ∈ mixedTypes ++ ["String..."], IsTypeText t := by decide
  obtain ⟨g, hbuild, hnodes⟩ := (overloads_apart_iff (finder mixedTypes ["String..."])
    (finding mixedTypes) (finding ["String..."]) rfl ⟨rfl, rfl⟩ htypes (by decide)).2 _ rfl
    (neighbours_finder _ _)
  exact ⟨htypes, g, hbuild, hnodes.mpr id⟩

/-- Beside a method without parameters, one that takes a variable number of arguments is lost. -/
theorem variadic_overload_lost :
    (∀ t ∈ [] ++ ["String..."], IsTypeText t) ∧
    (finding []).id (finder [] ["String..."]) =
      (finding ["String..."]).id (finder [] ["String..."]) ∧
    ∃ g, build (finderFacts [] ["String..."]) = .ok g ∧
      g.methods.keys = ["method:shop.Orders.find()"] ∧
      ¬ OwnNode (finderFacts [] ["String..."]) g (finder [] ["String..."])
        (finding ["String..."]) := by
  have hregistered : registered (finderFacts [] ["String..."]) =
      [.ofFact (finder [] ["String..."]) .service (finding [])] := by
    unfold registered
    rw [Registry.ofFacts_of_ordered _ (by decide)]
    rfl
  refine ⟨by decide, by decide, _, rfl, ?_, ?_⟩
  · rw [methods_ofBound, flat_keys, hregistered]
    decide
  · rintro ⟨n, hn, _, hfact, _⟩
    rw [hregistered, List.mem_singleton] at hn
    subst hn
    revert hfact
    decide

end CallGraph

end ArchGraph
