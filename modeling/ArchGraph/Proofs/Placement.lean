import ArchGraph.Analysis
import ArchGraph.Proofs.Table

/-!
Where code stands. Facts and what is resolved of them carry the lines they were found at; `unplaced`
leaves the lines out, and of a topic the details that quote them. No pass looks at a line: leaving
the lines out of the facts and then analysing them gives the same as leaving them out of what the
analysis has made (`unplaced_resolveBound`). The passes before topics are linked carry the lines
along one by one, so there the two ways agree without leaving out anything afterwards
(`unplaced_ofBound`).
-/

namespace ArchGraph

/-! ## Facts and nodes without lines -/

def Invocation.unplaced (i : Invocation) : Invocation := { i with line := none }

def OutboundCall.unplaced (c : OutboundCall) : OutboundCall := { c with line := none }

def TopicCall.unplaced (c : TopicCall) : TopicCall := { c with line := none }

def MethodFact.unplaced (m : MethodFact) : MethodFact :=
  { m with
    lineStart := none
    lineEnd := none
    invocations := m.invocations.map (·.unplaced)
    outboundCalls := m.outboundCalls.map (·.unplaced)
    topicCalls := m.topicCalls.map (·.unplaced) }

def Component.unplaced (c : Component) : Component :=
  { c with methods := c.methods.map (·.unplaced), lineStart := none, lineEnd := none }

def FactSet.unplaced (facts : FactSet) : FactSet :=
  { facts with components := facts.components.map (·.unplaced) }

def ComponentNode.unplaced (c : ComponentNode) : ComponentNode :=
  { c with lineStart := none, lineEnd := none }

def MethodDecl.unplaced (m : MethodDecl) : MethodDecl :=
  { m with lineStart := none, lineEnd := none }

def MethodNode.unplaced (m : MethodNode) : MethodNode :=
  { m with toMethodDecl := m.toMethodDecl.unplaced }

def ExternalCallNode.unplaced (c : ExternalCallNode) : ExternalCallNode := { c with line := none }

/-- The details of a topic quote lines. -/
def TopicNode.unplaced (t : TopicNode) : TopicNode :=
  { t with producerDetails := [], consumerDetails := [] }

def SkippedInvocation.unplaced (s : SkippedInvocation) : SkippedInvocation :=
  { s with line := none }

def ResolvedGraph.unplaced (g : ResolvedGraph) : ResolvedGraph :=
  { g with
    components := g.components.map (·.unplaced)
    methods := g.methods.map (·.unplaced)
    externalCalls := g.externalCalls.map (·.unplaced)
    topics := g.topics.map (·.unplaced)
    skipped := g.skipped.map (·.unplaced) }

def Index.unplaced (index : Index) : Index :=
  ⟨index.ofKind.map (·.unplaced), index.targets.map (·.unplaced), index.registered.map (·.unplaced)⟩

def Registered.unplaced (m : Registered) : Registered :=
  ⟨m.decl.unplaced, m.owner.unplaced, m.fact.unplaced⟩

def Registry.unplaced (r : Registry) : Registry :=
  ⟨r.graph.unplaced, r.index.unplaced, r.methods.map (·.unplaced)⟩

/-- A run over translated items is the translated run, if each step is the translated step. -/
theorem foldl_translated {α α' β β' : Type} {f : α → α'} {h : β → β'} {step : α → β → α}
    {step' : α' → β' → α'} (hstep : ∀ a b, f (step a b) = step' (f a) (h b)) (xs : List β) (a : α) :
    f (xs.foldl step a) = (xs.map h).foldl step' (f a) := by
  rw [List.foldl_map]
  exact (List.foldl_hom f fun a b => (hstep a b).symm).symm

/-- A method is linked the same, wherever it stands. -/
theorem MethodNode.map_link_unplaced (methods : Table String MethodNode) (id : String)
    (kind : LinkKind)
    (target : String) :
    (methods.modify id (·.link kind target)).map (·.unplaced) =
      (methods.map (·.unplaced)).modify id (·.link kind target) := by
  apply Table.map_modify
  intro m
  cases kind <;> rfl

/-! ## Binding -/

namespace Binding

theorem byName_unplaced (components : List Component) :
    byName (components.map (·.unplaced)) = (byName components).map (·.unplaced) := by
  refine (List.map_mergeSort ?_).symm
  intro a _ b _
  rfl

theorem interfaceMap_unplaced (facts : FactSet) :
    interfaceMap facts.unplaced = interfaceMap facts := by
  have hpairs : pairs facts.unplaced = pairs facts := by
    simp only [pairs, FactSet.unplaced, byName_unplaced, List.flatMap_map]
    rfl
  unfold interfaceMap
  rw [hpairs]

theorem directory_unplaced (components : List Component) :
    directory (components.map (·.unplaced)) = directory components := by
  unfold directory
  rw [List.map_map]
  rfl

end Binding

theorem FactSet.unplaced_ensureBound (facts : FactSet) :
    facts.ensureBound.unplaced = facts.unplaced.ensureBound := by
  have hbind : facts.bind.unplaced = facts.unplaced.bind := by
    unfold FactSet.bind
    rw [Binding.interfaceMap_unplaced]
    simp only [FactSet.unplaced, Binding.directory_unplaced, List.map_map]
    rfl
  have hsame : facts.unplaced.bound = facts.bound := rfl
  unfold FactSet.ensureBound
  rw [hsame]
  split
  · rfl
  · exact hbind

/-! ## Registering -/

theorem registrationOrder_unplaced (components : List Component) :
    registrationOrder (components.map (·.unplaced)) =
      (registrationOrder components).map (·.unplaced) := by
  refine (List.map_mergeSort ?_).symm
  intro a _ b _
  rfl

theorem firstOfName_unplaced (seen : List String) (components : List Component) :
    firstOfName seen (components.map (·.unplaced)) =
      (firstOfName seen components).map (·.unplaced) := by
  induction components generalizing seen with
  | nil => rfl
  | cons c rest ih =>
      have hname : c.unplaced.qualifiedName = c.qualifiedName := rfl
      simp only [List.map_cons, firstOfName, hname, ih]
      split <;> rfl

theorem Index.unplaced_register (index : Index) (m : MethodDecl) :
    (index.register m).unplaced = index.unplaced.register m.unplaced := by
  have hoffer : ∀ {κ : Type} [DecidableEq κ] (key : String → κ) (t : Table κ MethodDecl),
      (m.names.foldl (fun t name => t.insertNew (key name) m) t).map (·.unplaced) =
        m.names.foldl (fun t name => t.insertNew (key name) m.unplaced) (t.map (·.unplaced)) :=
    fun key t => (List.foldl_hom _ fun t name => (Table.map_insertNew _ t (key name) m).symm).symm
  have hnames : m.unplaced.names = m.names := rfl
  have hkind : m.unplaced.kind = m.kind := rfl
  unfold Index.register Index.unplaced
  simp only [hnames, hkind, hoffer (fun name => (m.kind, name)), List.map_append]
  congr 1
  split
  · exact hoffer (fun name => name) _
  · rfl

namespace Registry

theorem unplaced_addAliases (index : Index) (c : Component) (decl : MethodDecl) :
    (addAliases index c decl).unplaced = addAliases index.unplaced c.unplaced decl.unplaced := by
  have hkind : decl.unplaced.kind = decl.kind := rfl
  have hoffer : ∀ (index : Index) (name : String),
      (index.addAlias name decl).2.unplaced = (index.unplaced.addAlias name decl.unplaced).2 := by
    intro index name
    simp only [Index.addAlias, Index.unplaced, Table.map_insertNew, hkind]
  unfold addAliases
  rw [hkind]
  split
  · exact (List.foldl_hom _ fun index name => (hoffer index _).symm).symm
  · rfl

theorem unplaced_addComponent (g : ResolvedGraph) (c : Component) :
    (addComponent g c).unplaced = addComponent g.unplaced c.unplaced := by
  simp only [addComponent, ResolvedGraph.unplaced, Table.map_insert]
  rfl

theorem unplaced_addExternalCall (source : String) (g : ResolvedGraph) (call : OutboundCall) :
    (addExternalCall source g call).unplaced =
      addExternalCall source g.unplaced call.unplaced := by
  have hid : (externalCallNode source call.unplaced).id = (externalCallNode source call).id := rfl
  have hcalls : g.unplaced.externalCalls = g.externalCalls.map (·.unplaced) := rfl
  unfold addExternalCall
  simp only [hid, hcalls, Table.contains_map]
  split
  · rfl
  · simp only [ResolvedGraph.unplaced, Table.map_insert, MethodNode.map_link_unplaced]
    rfl

theorem unplaced_addMethod (c : Component) (kind : MethodKind) (r : Registry) (m : MethodFact) :
    (addMethod c kind r m).unplaced = addMethod c.unplaced kind r.unplaced m.unplaced := by
  have hdecl : methodDecl c.unplaced kind m.unplaced = (methodDecl c kind m).unplaced := rfl
  have hid : (methodDecl c kind m).unplaced.id = (methodDecl c kind m).id := rfl
  have hserved : isServed kind m.unplaced = isServed kind m := rfl
  have hmethods : r.unplaced.graph.methods = r.graph.methods.map (·.unplaced) := rfl
  unfold addMethod
  simp only [hdecl, hid, hserved, hmethods, Table.contains_map]
  split
  · rfl
  · simp only [unplaced, foldl_translated (unplaced_addExternalCall _), unplaced_addAliases,
      Index.unplaced_register, List.map_append]
    simp only [ResolvedGraph.unplaced, Table.map_insert]
    rfl

theorem unplaced_add (r : Registry) (c : Component) :
    (r.add c).unplaced = r.unplaced.add c.unplaced := by
  have hkind : c.unplaced.kind = c.kind := rfl
  unfold add
  simp only [hkind]
  split
  · simp only [unplaced, unplaced_addComponent]
  · simp only [foldl_translated (unplaced_addMethod c _)]
    simp only [unplaced, unplaced_addComponent]
    rfl

theorem unplaced_ofFacts (facts : FactSet) : (ofFacts facts).unplaced = ofFacts facts.unplaced := by
  unfold ofFacts
  rw [foldl_translated unplaced_add, ← firstOfName_unplaced, ← registrationOrder_unplaced]
  rfl

theorem find?_unplaced (r : Registry) (id : String) :
    r.unplaced.find? id = (r.find? id).map (·.unplaced) := by
  unfold find?
  exact List.find?_map ..

end Registry

/-! ## Resolving calls -/

namespace Resolution

def Context.unplaced (ctx : Context) : Context := ⟨ctx.index.unplaced, ctx.interfaces⟩

theorem get?_unplaced (index : Index) (scope : Scope) (name : String) :
    index.unplaced.get? scope name = (index.get? scope name).map (·.unplaced) := by
  unfold Index.get?
  split
  · rfl
  · cases scope with
    | targets => exact Table.find?_map ..
    | among kinds =>
        simp only [Index.unplaced, Table.find?_map, List.map_findSome?]
        rfl

theorem probe_unplaced (index : Index) (scope : Scope) (classes : List (Option String))
    (methodName : String) :
    index.unplaced.probe scope classes methodName =
      (index.probe scope classes methodName).map (·.unplaced) := by
  simp only [Index.probe, get?_unplaced, List.map_findSome?]
  congr 1
  funext className
  exact Option.map_bind.symm

variable (ctx : Context) (owner : Component) (i : Invocation)

theorem bySelf_unplaced (kind : MethodKind) :
    bySelf ctx.unplaced owner.unplaced kind i.unplaced =
      (bySelf ctx owner kind i).map (·.unplaced) := by
  have hself : i.unplaced.selfCall = i.selfCall := rfl
  unfold bySelf
  rw [hself]
  split
  · exact probe_unplaced ..
  · rfl

theorem byField_unplaced :
    byField ctx.unplaced owner.unplaced i.unplaced = (byField ctx owner i).map (·.unplaced) := by
  have htype : boundType? owner.unplaced i.unplaced = boundType? owner i := rfl
  unfold byField
  rw [htype, Option.map_bind]
  congr 1
  funext type
  exact probe_unplaced ..

theorem byInterface_unplaced :
    byInterface ctx.unplaced i.unplaced = (byInterface ctx i).map (·.unplaced) := by
  have hdeclared : hasDeclaredType i.unplaced = hasDeclaredType i := rfl
  unfold byInterface
  rw [hdeclared]
  split
  · simp only [Context.unplaced, probe_unplaced, Option.map_or, List.map_findSome?]
    rfl
  · rfl

theorem byDeclaredType_unplaced :
    byDeclaredType ctx.unplaced i.unplaced = (byDeclaredType ctx i).map (·.unplaced) := by
  have hdeclared : hasDeclaredType i.unplaced = hasDeclaredType i := rfl
  unfold byDeclaredType
  rw [hdeclared]
  split
  · exact probe_unplaced ..
  · rfl

theorem byName_unplaced : byName ctx.unplaced i.unplaced = (byName ctx i).map (·.unplaced) :=
  get?_unplaced ..

/-- An invocation reaches the same method by the same step. -/
theorem resolve_unplaced (kind : MethodKind) :
    resolve ctx.unplaced owner.unplaced kind i.unplaced =
      (resolve ctx owner kind i).map (fun hit => (hit.1.unplaced, hit.2)) := by
  simp only [resolve, bySelf_unplaced, byField_unplaced, byInterface_unplaced,
    byDeclaredType_unplaced, byName_unplaced, Option.map_or, Option.map_map]
  rfl

end Resolution

namespace CallGraph

def Outcome.unplaced : Outcome → Outcome
  | .linked target => .linked target.unplaced
  | .skipped record => .skipped record.unplaced

def Progress.unplaced (p : Progress) : Progress := ⟨p.graph.unplaced, p.expanded⟩

variable (ctx : Resolution.Context)

theorem outcomes_unplaced (m : Registered) :
    outcomes ctx.unplaced m.unplaced = (outcomes ctx m).map (·.unplaced) := by
  have hone : ∀ i : Invocation,
      outcome ctx.unplaced m.unplaced i.unplaced = (outcome ctx m i).unplaced := by
    intro i
    have hresolve :
        Resolution.resolve ctx.unplaced m.unplaced.owner m.unplaced.decl.kind i.unplaced = _ :=
      Resolution.resolve_unplaced ctx m.owner i m.decl.kind
    unfold outcome
    rw [hresolve]
    cases Resolution.resolve ctx m.owner m.decl.kind i with
    | none => rfl
    | some hit =>
        have hid : hit.1.unplaced.id = hit.1.id ∧ m.unplaced.decl.id = m.decl.id := ⟨rfl, rfl⟩
        have hself : i.unplaced.selfCall = i.selfCall := rfl
        simp only [Option.map_some, hid, hself]
        split <;> rfl
  simp only [outcomes, Registered.unplaced, MethodFact.unplaced, List.map_map]
  exact List.map_congr_left fun i _ => hone i

theorem linkedTargets_unplaced (os : List Outcome) :
    linkedTargets (os.map (·.unplaced)) = (linkedTargets os).map (·.unplaced) := by
  unfold linkedTargets
  rw [List.filterMap_map, List.map_filterMap]
  congr 1
  funext o
  cases o <;> rfl

theorem unplaced_record (source : String) (g : ResolvedGraph) (o : Outcome) :
    (record source g o).unplaced = record source g.unplaced o.unplaced := by
  cases o with
  | linked target =>
      simp only [record, ResolvedGraph.unplaced, MethodNode.map_link_unplaced]
      rfl
  | skipped s => simp [record, ResolvedGraph.unplaced, Outcome.unplaced]

theorem unplaced_resolveCalls (m : Registered) (p : Progress) :
    (resolveCalls ctx m p).unplaced = resolveCalls ctx.unplaced m.unplaced p.unplaced := by
  unfold resolveCalls
  rw [outcomes_unplaced]
  simp only [Progress.unplaced, foldl_translated (unplaced_record m.decl.id)]
  rfl

/-- The expansion of a method takes the same way: induction on the depth that is left. -/
theorem unplaced_expand (r : Registry) (depth : Nat) (path : List (String × String)) (p : Progress)
    (m : Registered) :
    (expand ctx r depth path p m).unplaced =
      expand ctx.unplaced r.unplaced depth path p.unplaced m.unplaced := by
  induction depth generalizing path p m with
  | zero => rfl
  | succ depth ih =>
      have hid : m.unplaced.decl.id = m.decl.id := rfl
      have hkey : m.unplaced.decl.key = m.decl.key := rfl
      have hexpanded : p.unplaced.expanded = p.expanded := rfl
      have htargets : (linkedTargets (outcomes ctx.unplaced m.unplaced)).filterMap
          (fun t => r.unplaced.find? t.id) =
            ((linkedTargets (outcomes ctx m)).filterMap (fun t => r.find? t.id)).map
              (·.unplaced) := by
        rw [outcomes_unplaced, linkedTargets_unplaced, List.filterMap_map, List.map_filterMap]
        congr 1
        funext t
        exact Registry.find?_unplaced r t.id
      unfold expand
      rw [hid, hexpanded]
      split
      · rfl
      · simp only [hkey, htargets, ← unplaced_resolveCalls]
        refine congrArg (finish m.unplaced)
          (foldl_translated (f := Progress.unplaced) (h := Registered.unplaced) ?_ _ _)
        intro q t
        have htkey : t.unplaced.decl.key = t.decl.key := rfl
        have htkind : t.unplaced.decl.kind = t.decl.kind := rfl
        rw [htkey, htkind, ← ih]
        split <;> rfl

theorem unplaced_visit (r : Registry) (p : Progress) (m : Registered) :
    (visit ctx r p m).unplaced = visit ctx.unplaced r.unplaced p.unplaced m.unplaced := by
  have hkind : m.unplaced.decl.kind = m.decl.kind := rfl
  have hlength : r.unplaced.methods.length = r.methods.length := List.length_map ..
  have hid : m.unplaced.decl.id = m.decl.id := rfl
  have hexpanded : p.unplaced.expanded = p.expanded := rfl
  unfold visit
  rw [hkind, hlength]
  split
  · exact unplaced_expand ..
  · unfold resolveEntry
    rw [hid, hexpanded, ← unplaced_resolveCalls]
    split <;> rfl

/-- The call graph is the same but for the lines. -/
theorem unplaced_ofBound (facts : FactSet) : (ofBound facts).unplaced = ofBound facts.unplaced := by
  have hregistry := Registry.unplaced_ofFacts facts
  unfold ofBound
  simp only [← hregistry]
  exact congrArg Progress.graph (foldl_translated (unplaced_visit _ _) _ _)

end CallGraph

/-! ## Matching outbound calls and linking topics -/

namespace ResolvedGraph

theorem unplaced_unplaced (g : ResolvedGraph) : g.unplaced.unplaced = g.unplaced := by
  simp only [unplaced, Table.map_map, List.map_map]
  rfl

theorem unplaced_resolveCalls (threshold : Int) (g : ResolvedGraph) :
    (g.resolveCalls threshold).unplaced = g.unplaced.resolveCalls threshold := by
  have hone : ∀ (endpoints : List EndpointNode) (c : ExternalCallNode),
      (c.resolve threshold endpoints).2.unplaced = (c.unplaced.resolve threshold endpoints).2 := by
    intro endpoints c
    have hresolved : c.unplaced.resolved = c.resolved := rfl
    have haddress : c.unplaced.verb = c.verb ∧ c.unplaced.url = c.url := ⟨rfl, rfl⟩
    unfold ExternalCallNode.resolve
    simp only [hresolved, haddress]
    split
    · rfl
    · split <;> rfl
  simp only [resolveCalls, unplaced, Table.map_map, hone]
  rfl

theorem unplaced_sealed (g : ResolvedGraph) : g.sealed.unplaced = g.unplaced.sealed := by
  simp only [ResolvedGraph.sealed, unplaced, Table.map_map]
  rfl

end ResolvedGraph

namespace Topic

def Use.unplaced (use : Use) : Use := { use with call := use.call.unplaced }

theorem uses_unplaced (g : ResolvedGraph) (facts : FactSet) :
    uses g.unplaced facts.unplaced = (uses g facts).map (·.unplaced) := by
  have hone : ∀ (c : Component) (m : MethodFact),
      usesOf g.unplaced c.unplaced m.unplaced = (usesOf g c m).map (·.unplaced) := by
    intro c m
    have hid : m.unplaced.id c.unplaced = m.id c := rfl
    have hmethods : g.unplaced.methods.contains (m.id c) = g.methods.contains (m.id c) :=
      Table.contains_map ..
    unfold usesOf
    rw [hid, hmethods]
    split
    · simp only [MethodFact.unplaced, List.map_map]
      rfl
    · rfl
  have hmethods : ∀ c : Component, c.unplaced.methods = c.methods.map (·.unplaced) := fun _ => rfl
  simp only [uses, FactSet.unplaced, registrationOrder_unplaced, List.flatMap_map, List.map_flatMap,
    hmethods, hone]

theorem unplaced_ensure (g : ResolvedGraph) (name : String) :
    (ensure g name).unplaced = ensure g.unplaced name := by
  simp only [ensure, ResolvedGraph.unplaced, Table.map_insertNew]
  rfl

theorem sealedAt?_unplaced (g : ResolvedGraph) (use : Use) :
    sealedAt? g.unplaced use.unplaced = sealedAt? g use := by
  have hfind : g.unplaced.methods.find? use.methodId =
      (g.methods.find? use.methodId).map (·.unplaced) := Table.find?_map ..
  have hid : use.unplaced.methodId = use.methodId := rfl
  unfold sealedAt?
  rw [hid, hfind, Option.bind_map]
  rfl

/-- What a use leaves on its topic differs only in the details. -/
theorem unplaced_connect (g : ResolvedGraph) (use : Use) :
    (connect g use).unplaced = (connect g.unplaced use.unplaced).unplaced := by
  have hnote :
      ∀ t : TopicNode, (note use t).unplaced = (note use.unplaced t.unplaced).unplaced := by
    intro t
    have hdirection : use.unplaced.call.direction = use.call.direction := rfl
    unfold note
    rw [hdirection]
    cases use.call.direction <;> rfl
  have hagain : ∀ t : TopicNode, (note use.unplaced t).unplaced =
      (note use.unplaced t.unplaced).unplaced := by
    intro t
    unfold note
    cases use.unplaced.call.direction <;> rfl
  have htopics : ∀ id, (g.topics.modify id (note use)).map (·.unplaced) =
      ((g.topics.map (·.unplaced)).modify id (note use.unplaced)).map (·.unplaced) := by
    intro id
    have honce : (g.topics.map (·.unplaced)).map (·.unplaced) = g.topics.map (·.unplaced) :=
      Table.map_map ..
    calc (g.topics.modify id (note use)).map (·.unplaced)
      _ = (g.topics.map (·.unplaced)).modify id (fun t => (note use.unplaced t).unplaced) :=
        Table.map_modify hnote ..
      _ = ((g.topics.map (·.unplaced)).map (·.unplaced)).modify id
          (fun t => (note use.unplaced t).unplaced) := by rw [honce]
      _ = ((g.topics.map (·.unplaced)).modify id (note use.unplaced)).map (·.unplaced) :=
        (Table.map_modify hagain ..).symm
  simp only [connect, ResolvedGraph.unplaced, MethodNode.map_link_unplaced,
    Table.map_map, List.map_map]
  rw [htopics]
  rfl

/-- Linking is the same but for lines and details: graphs that differ only in them do so after every
use. -/
theorem unplaced_linkUses {g g' : ResolvedGraph} (h : g.unplaced = g'.unplaced) (us : List Use) :
    (linkUses g us).2.unplaced = (linkUses g' (us.map (·.unplaced))).2.unplaced := by
  induction us generalizing g g' with
  | nil => exact h
  | cons use rest ih =>
      have htopic : use.unplaced.call.topic = use.call.topic := rfl
      have hensured : (ensure g use.call.topic).unplaced = (ensure g' use.call.topic).unplaced := by
        rw [unplaced_ensure, unplaced_ensure, h]
      have hsealed : sealedAt? (ensure g use.call.topic) use =
          sealedAt? (ensure g' use.call.topic) use.unplaced := by
        rw [← sealedAt?_unplaced, hensured]
        exact sealedAt?_unplaced _ use.unplaced
      have hconnected : (connect (ensure g use.call.topic) use).unplaced =
          (connect (ensure g' use.call.topic) use.unplaced).unplaced := by
        rw [unplaced_connect, hensured]
        exact (unplaced_connect _ use.unplaced).symm
      rw [List.map_cons]
      unfold linkUses
      simp only [htopic, ← hsealed]
      split
      · exact hensured
      · exact ih hconnected

end Topic

namespace FactSet

/-- **No pass looks at a line.** Leaving the lines out of the facts or out of the resolved project
comes to the same. -/
theorem unplaced_resolveBound (threshold : Int) (facts : FactSet) :
    (facts.resolveBound threshold).unplaced = (facts.unplaced.resolveBound threshold).unplaced := by
  have hgraph : ((CallGraph.ofBound facts).resolveCalls threshold).unplaced =
      (CallGraph.ofBound facts.unplaced).resolveCalls threshold := by
    rw [ResolvedGraph.unplaced_resolveCalls, CallGraph.unplaced_ofBound]
  unfold resolveBound
  rw [ResolvedGraph.unplaced_sealed, ResolvedGraph.unplaced_sealed, ← hgraph]
  congr 1
  unfold Topic.link
  rw [Topic.uses_unplaced]
  exact Topic.unplaced_linkUses (ResolvedGraph.unplaced_unplaced _).symm _

end FactSet

end ArchGraph
