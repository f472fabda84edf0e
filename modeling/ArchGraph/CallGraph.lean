import ArchGraph.Binding
import ArchGraph.CallGraph.Registry

/-!
The call graph of bound facts. Methods are expanded depth first, each one once: its invocations are
resolved, and then the methods they reach are expanded. A method whose class and name are already on
the way from the start is linked and not entered again.
-/

namespace ArchGraph

/-- Calls of facts whose dependencies are not bound cannot be resolved. -/
structure BindingIncomplete where
  projectId : String
  deriving DecidableEq, Repr

def BindingIncomplete.message (e : BindingIncomplete) : String :=
  "Refusing to resolve calls for project " ++ e.projectId ++
    ": interface binding pass has not run over the full component set"

namespace CallGraph

/-- What becomes of an invocation. -/
inductive Outcome where
  | linked (target : MethodDecl)
  | skipped (record : SkippedInvocation)
  deriving DecidableEq, Repr

def unmatchedReason : String := "no index entry matched"

def selfLoopReason (step : Resolution.Step) : String := "false self-loop via " ++ step.label

def skip (m : Registered) (i : Invocation) (reason : String) : Outcome :=
  .skipped ⟨m.decl.id, i.methodName,
    if (Text.given? i.declaredQualified).isSome then i.declaredQualified else i.declaredSimple,
    i.line, reason⟩

/-- A method reaches itself only by a call marked as one on itself. -/
def outcome (ctx : Resolution.Context) (m : Registered) (i : Invocation) : Outcome :=
  match Resolution.resolve ctx m.owner m.decl.kind i with
  | none => skip m i unmatchedReason
  | some (target, step) =>
    if target.id = m.decl.id ∧ !i.selfCall then skip m i (selfLoopReason step) else .linked target

def outcomes (ctx : Resolution.Context) (m : Registered) : List Outcome :=
  m.fact.invocations.map (outcome ctx m)

def linkedTargets (os : List Outcome) : List MethodDecl :=
  os.filterMap (fun o => match o with
    | .linked target => some target
    | .skipped _ => none)

/-- Put one outcome of a method into the graph. -/
def record (source : String) (g : ResolvedGraph) : Outcome → ResolvedGraph
  | .linked target => { g with methods := g.methods.modify source (·.link .calls target.id) }
  | .skipped s => { g with skipped := g.skipped ++ [s] }

/-- How far the expansion has come. -/
structure Progress where
  graph : ResolvedGraph
  expanded : List String
  deriving DecidableEq, Repr

/-- Resolve the invocations of one method. -/
def resolveCalls (ctx : Resolution.Context) (m : Registered) (p : Progress) : Progress :=
  { p with graph := (outcomes ctx m).foldl (record m.decl.id) p.graph }

def finish (m : Registered) (p : Progress) : Progress :=
  { p with expanded := m.decl.id :: p.expanded }

/-- Expand a method. `path` has the classes and names on the way to it, and `depth` bounds how many
more there can be. -/
def expand (ctx : Resolution.Context) (r : Registry) :
    Nat → List (String × String) → Progress → Registered → Progress
  | 0, _, p, _ => p
  | depth + 1, path, p, m =>
    if m.decl.id ∈ p.expanded then p
    else
      let path := m.decl.key :: path
      let targets := (linkedTargets (outcomes ctx m)).filterMap (fun t => r.find? t.id)
      let walked := targets.foldl
        (fun q t =>
          if t.decl.key ∈ path ∨ !t.decl.kind.isTarget then q else expand ctx r depth path q t)
        (resolveCalls ctx m p)
      finish m walked

/-- Resolve the calls of a method that nothing calls. -/
def resolveEntry (ctx : Resolution.Context) (p : Progress) (m : Registered) : Progress :=
  if m.decl.id ∈ p.expanded then p else finish m (resolveCalls ctx m p)

def visit (ctx : Resolution.Context) (r : Registry) (p : Progress) (m : Registered) : Progress :=
  if m.decl.kind.isTarget then expand ctx r (r.methods.length + 1) [] p m
  else resolveEntry ctx p m

def context (facts : FactSet) (r : Registry) : Resolution.Context := ⟨r.index, facts.interfaceMap⟩

/-- The graph of facts taken as bound. -/
def ofBound (facts : FactSet) : ResolvedGraph :=
  let r := Registry.ofFacts facts
  (r.methods.foldl (visit (context facts r) r) ⟨r.graph, []⟩).graph

def build (facts : FactSet) : Except BindingIncomplete ResolvedGraph :=
  if facts.bound then .ok (ofBound facts) else .error ⟨facts.projectId⟩

/-- How an invocation was resolved. -/
structure Traced where
  source : String
  methodName : String
  found : Option (String × Resolution.Step)
  deriving DecidableEq, Repr

/-- Every invocation of every registered method with what it resolves to. -/
def trace (facts : FactSet) : List Traced :=
  let r := Registry.ofFacts facts
  let ctx := context facts r
  r.methods.flatMap (fun m => m.fact.invocations.map (fun i =>
    ⟨m.decl.id, i.methodName,
      (Resolution.resolve ctx m.owner m.decl.kind i).map (fun hit => (hit.1.id, hit.2))⟩))

end CallGraph

end ArchGraph
