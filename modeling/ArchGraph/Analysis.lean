import ArchGraph.CallGraph
import ArchGraph.Graph.Export
import ArchGraph.Matching
import ArchGraph.Topic

/-!
The whole analysis of a project: bind its facts, resolve its calls, match its outbound calls, link
its topics, and export the result as a graph.
-/

namespace ArchGraph

namespace FactSet

/-- The resolved project of facts taken as bound. Nothing can be linked to its methods any more. -/
def resolveBound (threshold : Int) (facts : FactSet) : ResolvedGraph :=
  (Topic.link ((CallGraph.ofBound facts).resolveCalls threshold) facts).2.sealed

/-- The resolved project of facts that have to be bound. -/
def resolve (threshold : Int) (facts : FactSet) : Except BindingIncomplete ResolvedGraph :=
  if facts.bound then .ok (facts.resolveBound threshold) else .error ⟨facts.projectId⟩

/-- Facts with their dependencies bound; bound facts stay as they are. -/
def ensureBound (facts : FactSet) : FactSet := if facts.bound then facts else facts.bind

/-- The graph of a project, whether or not its facts are bound. -/
def analyze (threshold : Int) (space : String) (facts : FactSet) : Graph :=
  Graph.ofResolved space (facts.ensureBound.resolveBound threshold)

end FactSet

end ArchGraph
