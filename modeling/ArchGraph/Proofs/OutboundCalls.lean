import ArchGraph.Proofs.ExportFidelity
import ArchGraph.Proofs.Spaces
import ArchGraph.Proofs.TopicLinks

/-!
What becomes of outbound calls. A call is known by its verb, its method and its address without the
host, and of the calls that share an identifier the first one stands for all of them
(`find?_externalCalls`). So every call has its node, and the node has the method, the verb and the
path of the call (`eq_of_id`); but calls of one method that differ only in the host have one service
among them (`outbound_calls_shown`).
-/

namespace ArchGraph

/-- The service that the address of a call names. -/
def OutboundCall.service? (call : OutboundCall) : Option String :=
  (Url.service? (call.url.getD "").toList).map String.ofList

/-- The verb of a call in upper case. -/
def OutboundCall.upperVerb? (call : OutboundCall) : Option String :=
  (Text.given? call.verb).map Text.upperCase

/-- An outbound call and the method that makes it. -/
structure MadeCall where
  source : String
  call : OutboundCall
  deriving DecidableEq, Repr

namespace MadeCall

def id (c : MadeCall) : String := Identifier.externalCall c.call.verb c.call.url c.source

/-- The verb as the identifier has it. -/
def verbWord (c : MadeCall) : String := Text.upperCase ((Text.given? c.call.verb).getD "UNKNOWN")

/-- The address as the identifier has it. -/
def path (c : MadeCall) : String := Identifier.callPath (c.call.url.getD "")

/-- The verb has no colon, and the method no second one. -/
def Plain (c : MadeCall) : Prop :=
  (∃ rest : String, ':' ∉ rest.toList ∧ c.source = "method:" ++ rest) ∧ ':' ∉ c.verbWord.toList

/-- The calls agree in what a node tells of them. -/
def Alike (c d : MadeCall) : Prop :=
  c.source = d.source ∧ c.call.upperVerb? = d.call.upperVerb? ∧ c.call.service? = d.call.service?

end MadeCall

/-- The outbound calls of registered methods, in order of registration. -/
def madeCalls (ms : List Registered) : List MadeCall :=
  ms.flatMap (fun m => m.fact.outboundCalls.map (fun call => ⟨m.decl.id, call⟩))

/-- The first call of an identifier. -/
def firstCall? (ms : List Registered) (id : String) : Option MadeCall :=
  (madeCalls ms).find? (fun c => c.id == id)

theorem of_firstCall? {ms : List Registered} {id : String} {first : MadeCall}
    (h : firstCall? ms id = some first) : first ∈ madeCalls ms ∧ first.id = id := by
  unfold firstCall? at h
  have hid := List.find?_some h
  exact ⟨List.mem_of_find?_eq_some h, eq_of_beq hid⟩

theorem exists_firstCall {ms : List Registered} {c : MadeCall} (hc : c ∈ madeCalls ms) :
    ∃ first, firstCall? ms c.id = some first := by
  cases hfind : firstCall? ms c.id with
  | some first => exact ⟨first, rfl⟩
  | none => exact absurd (beq_self_eq_true c.id) (List.find?_eq_none.mp hfind c hc)

/-! ## Registering -/

namespace Registry

theorem find?_addExternalCall (source : String) (g : ResolvedGraph) (call : OutboundCall)
    (id : String) :
    (addExternalCall source g call).externalCalls.find? id = (g.externalCalls.find? id).or
      (if (MadeCall.mk source call).id = id then some (externalCallNode source call)
        else none) := by
  have hid : (externalCallNode source call).id = (MadeCall.mk source call).id := rfl
  unfold addExternalCall
  dsimp only
  rw [hid]
  by_cases hknown : g.externalCalls.contains (MadeCall.mk source call).id = true
  · rw [if_pos hknown]
    by_cases heq : (MadeCall.mk source call).id = id
    · obtain ⟨node, hnode⟩ := Option.isSome_iff_exists.mp hknown
      rw [← heq, hnode]
      rfl
    · rw [if_neg heq, Option.or_none]
  · rw [if_neg hknown]
    dsimp only
    rw [Table.find?_insert]
    by_cases heq : id = (MadeCall.mk source call).id
    · have hnone : g.externalCalls.find? id = none := by
        rw [heq]
        exact Option.not_isSome_iff_eq_none.mp hknown
      rw [if_pos heq, if_pos heq.symm, hnone]
      rfl
    · rw [if_neg heq, if_neg (Ne.symm heq), Option.or_none]

/-- Calls that come later take the identifiers that are free. -/
theorem find?_addExternalCalls (source : String) (calls : List OutboundCall) (g : ResolvedGraph)
    (id : String) :
    (calls.foldl (addExternalCall source) g).externalCalls.find? id = (g.externalCalls.find? id).or
      (((calls.map (MadeCall.mk source)).find? (fun c => c.id == id)).map
        (fun c => externalCallNode c.source c.call)) := by
  induction calls generalizing g with
  | nil => simp
  | cons call calls ih =>
      rw [List.foldl_cons, ih, find?_addExternalCall, Option.or_assoc, List.map_cons,
        List.find?_cons]
      by_cases heq : (MadeCall.mk source call).id = id
      · simp [heq]
      · rw [if_neg heq, Option.none_or, beq_false_of_ne heq]

/-- The node of an identifier is that of the first call. -/
def FirstCalls (r : Registry) : Prop :=
  ∀ id, r.graph.externalCalls.find? id =
    (firstCall? r.methods id).map (fun c => externalCallNode c.source c.call)

theorem FirstCalls.addMethod {r : Registry} (h : FirstCalls r) (c : Component) (kind : MethodKind)
    (m : MethodFact) : FirstCalls (addMethod c kind r m) := by
  unfold Registry.addMethod
  dsimp only
  split
  · exact h
  · intro id
    have hmade : madeCalls (r.methods ++ [⟨methodDecl c kind m, c, m⟩]) = madeCalls r.methods ++
        m.outboundCalls.map (MadeCall.mk (methodDecl c kind m).id) := by simp [madeCalls]
    have hknown : r.graph.externalCalls.find? id = ((madeCalls r.methods).find?
        (fun c => c.id == id)).map (fun c => externalCallNode c.source c.call) := h id
    rw [find?_addExternalCalls, firstCall?, hmade, List.find?_append, hknown]
    cases (madeCalls r.methods).find? (fun c => c.id == id) <;> rfl

theorem firstCalls_ofFacts (facts : FactSet) : FirstCalls (ofFacts facts) :=
  ofFacts_induction facts (fun _ => rfl) (fun _ _ h => h) (fun c kind _ m h => h.addMethod c kind m)

end Registry

/-! ## Resolved projects -/

/-- What a node tells of a call. -/
structure ExternalCallNode.StandsFor (node : ExternalCallNode) (c : MadeCall) : Prop where
  source : node.sourceMethodId = c.source
  verb : node.verb = c.call.upperVerb?
  url : node.url = c.call.url
  service : node.targetService = c.call.service?

theorem Matching.service_find (threshold : Int) (verb url : Option String)
    (endpoints : List EndpointNode) : (find threshold verb url endpoints).targetService =
      (Url.service? (url.getD "").toList).map String.ofList := by
  unfold find
  dsimp only
  split
  · rfl
  · split
    · rfl
    · split <;> rfl

/-- Whether or not a call is matched, its node still stands for it, and now tells the service. -/
theorem standsFor_resolve (threshold : Int) (endpoints : List EndpointNode) (c : MadeCall) :
    ((Registry.externalCallNode c.source c.call).resolve threshold endpoints).2.StandsFor c := by
  have hservice := Matching.service_find threshold (Registry.externalCallNode c.source c.call).verb
    c.call.url endpoints
  unfold ExternalCallNode.resolve
  rw [if_neg (by simp [Registry.externalCallNode])]
  dsimp only
  split
  · exact ⟨rfl, rfl, rfl, hservice⟩
  · exact ⟨rfl, rfl, rfl, hservice⟩

namespace Topic

theorem externalCalls_attachAll (uses : List Use) (g : ResolvedGraph) :
    (uses.foldl attach g).externalCalls = g.externalCalls := by
  induction uses generalizing g with
  | nil => rfl
  | cons u uses ih => exact ih _

end Topic

namespace FactSet

variable (threshold : Int) (facts : FactSet)

theorem externalCalls_ofBound :
    (CallGraph.ofBound facts).externalCalls = (Registry.ofFacts facts).graph.externalCalls := by
  obtain ⟨done, hgraph⟩ := CallGraph.exists_resolveAll facts
  rw [hgraph, CallGraph.resolveAll_eq]

/-- The node of an identifier is that of the first call, matched. -/
theorem find?_externalCalls (id : String) :
    (facts.resolveBound threshold).externalCalls.find? id =
      (firstCall? (CallGraph.registered facts) id).map (fun c =>
        ((Registry.externalCallNode c.source c.call).resolve threshold
          (CallGraph.ofBound facts).sortedEndpoints).2) := by
  have hlinked : (facts.resolveBound threshold).externalCalls =
      (facts.matched threshold).externalCalls := by
    have hsealed : (facts.resolveBound threshold).externalCalls =
        (Topic.link (facts.matched threshold) facts).2.externalCalls := rfl
    rw [hsealed, link_matched, Topic.externalCalls_attachAll]
  have hmatched : (facts.matched threshold).externalCalls =
      (CallGraph.ofBound facts).externalCalls.map (fun c =>
        (c.resolve threshold (CallGraph.ofBound facts).sortedEndpoints).2) := rfl
  have hfirst : (Registry.ofFacts facts).graph.externalCalls.find? id =
      (firstCall? (CallGraph.registered facts) id).map
        (fun c => Registry.externalCallNode c.source c.call) := Registry.firstCalls_ofFacts facts id
  rw [hlinked, hmatched, Table.find?_map, externalCalls_ofBound, hfirst, Option.map_map]
  rfl

theorem standsFor_firstCall {id : String} {first : MadeCall}
    (h : firstCall? (CallGraph.registered facts) id = some first) :
    ∃ node, (facts.resolveBound threshold).externalCalls.find? id = some node ∧
      node.StandsFor first := by
  refine ⟨_, ?_, standsFor_resolve threshold (CallGraph.ofBound facts).sortedEndpoints first⟩
  rw [find?_externalCalls, h, Option.map_some]

theorem firstCall_of_find? {id : String} {node : ExternalCallNode}
    (h : (facts.resolveBound threshold).externalCalls.find? id = some node) :
    ∃ first ∈ madeCalls (CallGraph.registered facts),
      firstCall? (CallGraph.registered facts) first.id = some first ∧ first.id = id ∧
      node.StandsFor first := by
  rw [find?_externalCalls] at h
  obtain ⟨first, hfirst, rfl⟩ := Option.map_eq_some_iff.mp h
  obtain ⟨hmade, hid⟩ := of_firstCall? hfirst
  exact ⟨first, hmade, hid.symm ▸ hfirst, hid, standsFor_resolve _ _ _⟩

end FactSet

/-! ## Identifiers -/

/-- A text is split at its first colon in one way only. -/
theorem eq_of_colon_append {xs ys as bs : List Char} (hxs : ':' ∉ xs) (hys : ':' ∉ ys)
    (h : xs ++ ':' :: as = ys ++ ':' :: bs) : xs = ys ∧ as = bs := by
  have hback := congrArg List.reverse h
  simp only [List.reverse_append, List.reverse_cons, List.append_assoc, List.singleton_append]
    at hback
  obtain ⟨has, hxs⟩ := eq_of_append_colon (by simpa using hxs) (by simpa using hys) hback
  exact ⟨List.reverse_injective hxs, List.reverse_injective has⟩

namespace MadeCall

theorem id_toList (c : MadeCall) : c.id.toList =
    "external:".toList ++
      (c.verbWord.toList ++ ':' :: (c.path.toList ++ ':' :: c.source.toList)) := by
  unfold id Identifier.externalCall
  simp [verbWord, path, String.toList_append]

/-- An identifier tells the method, the verb and the path. -/
theorem eq_of_id {c d : MadeCall} (hc : c.Plain) (hd : d.Plain) (h : c.id = d.id) :
    c.source = d.source ∧ c.verbWord = d.verbWord ∧ c.path = d.path := by
  obtain ⟨⟨a, ha, hsource⟩, hverb⟩ := hc
  obtain ⟨⟨b, hb, hsource'⟩, hverb'⟩ := hd
  have htexts := congrArg String.toList h
  rw [id_toList, id_toList] at htexts
  obtain ⟨hword, hrest⟩ := eq_of_colon_append hverb hverb' (List.append_cancel_left htexts)
  have hmark : ∀ rest : String, ("method:" ++ rest).toList =
      "method".toList ++ ':' :: rest.toList := by
    intro rest
    rw [String.toList_append]
    rfl
  rw [hsource, hsource', hmark, hmark, ← List.cons_append, ← List.cons_append, ← List.append_assoc,
    ← List.append_assoc] at hrest
  obtain ⟨hpath, hname⟩ := eq_of_append_colon ha hb hrest
  have hsame : a = b := String.toList_inj.mp hname
  refine ⟨by rw [hsource, hsource', hsame], String.toList_inj.mp hword, ?_⟩
  exact String.toList_inj.mp (List.append_cancel_right hpath)

end MadeCall

/-! ## The graph -/

namespace Graph

/-- The node of an identifier is an outbound call, and tells of `c`. -/
structure ShowsCall (g : Graph) (id : String) (c : MadeCall) : Prop where
  node : id ∈ (g.nodesOfType (Coded.code NodeType.externalCall)).map (·.1)
  source : g.sourcesOf .externalCall id = [c.source]
  verb : (g.attributesOf id).find? "http_method" = some (.ofText? c.call.upperVerb?)
  service : (g.attributesOf id).find? "target_service" = some (.ofText? c.call.service?)

/-- Some node tells of the call: it has its method, its verb and its service. -/
def Represents (g : Graph) (c : MadeCall) : Prop := ∃ id, g.ShowsCall id c

theorem ofText?_injective {a b : Option String} (h : Json.ofText? a = Json.ofText? b) : a = b := by
  cases a <;> cases b <;> simp_all [Json.ofText?, Json.ofOption]

theorem ShowsCall.alike {g : Graph} {id : String} {c d : MadeCall} (hc : g.ShowsCall id c)
    (hd : g.ShowsCall id d) : c.Alike d := by
  refine ⟨?_, ?_, ?_⟩
  · exact (List.cons.inj (hc.source.symm.trans hd.source)).1
  · exact ofText?_injective (Option.some.inj (hc.verb.symm.trans hd.verb))
  · exact ofText?_injective (Option.some.inj (hc.service.symm.trans hd.service))

theorem ShowsCall.of_alike {g : Graph} {id : String} {c d : MadeCall} (hd : g.ShowsCall id d)
    (h : c.Alike d) : g.ShowsCall id c := by
  obtain ⟨hsource, hverb, hservice⟩ := h
  exact ⟨hd.node, hsource ▸ hd.source, hverb ▸ hd.verb, hservice ▸ hd.service⟩

theorem showsCall_ofResolved {r : ResolvedGraph} (h : r.Intact) (space : String) {id : String}
    {node : ExternalCallNode} (hnode : r.externalCalls.find? id = some node) {c : MadeCall}
    (hc : node.StandsFor c) : (ofResolved space r).ShowsCall id c := by
  have hdescribed : r.described? .externalCall id = some node.attributes := by
    rw [ResolvedGraph.described?, hnode]
    rfl
  have hdistinct : ((typeName, Json.str (Coded.code NodeType.externalCall)) :: node.attributes
      |>.map (·.1)).Nodup := by
    simp [ExternalCallNode.attributes, typeName]
  have hattributes := attributesOf_ofResolved h space hdescribed
  rw [Table.ofList_eq hdistinct] at hattributes
  refine ⟨?_, ?_, ?_, ?_⟩
  · rw [(nodesOfType_ofResolved h space .externalCall).mem_iff]
    exact Table.mem_keys_of_find? hnode
  · rw [(made_ofResolved h space hnode).1, hc.source]
  · rw [hattributes, ← hc.verb]
    rfl
  · rw [hattributes, ← hc.service]
    rfl

/-- What a graph shows of the outbound calls of methods. -/
structure CallsShown (ms : List Registered) (g : Graph) : Prop where
  /-- Every call has the node of its identifier, which tells of the first call of that identifier:
  one of the same method, with the same verb and path. -/
  first : ∀ c ∈ madeCalls ms, ∃ first, firstCall? ms c.id = some first ∧ g.ShowsCall c.id first ∧
    (c.Plain → first.Plain →
      first.source = c.source ∧ first.verbWord = c.verbWord ∧ first.path = c.path)
  /-- So a call is told of just where it agrees with the first call of some identifier. -/
  represented : ∀ c, g.Represents c ↔
    ∃ first ∈ madeCalls ms, firstCall? ms first.id = some first ∧ c.Alike first
  /-- None is lost where calls of one identifier agree. -/
  whole : (∀ c ∈ madeCalls ms, ∀ d ∈ madeCalls ms, c.id = d.id → c.Alike d) →
    ∀ c ∈ madeCalls ms, g.Represents c

theorem showsCall_firstCall (threshold : Int) (space : String) (facts : FactSet) {id : String}
    {first : MadeCall} (h : firstCall? (CallGraph.registered facts.ensureBound) id = some first) :
    (facts.analyze threshold space).ShowsCall id first := by
  have hintact := ResolvedGraph.intact_resolveBound threshold facts.ensureBound
  obtain ⟨node, hnode, hstands⟩ := facts.ensureBound.standsFor_firstCall threshold h
  exact showsCall_ofResolved hintact space hnode hstands

theorem represents_iff (threshold : Int) (space : String) (facts : FactSet) (c : MadeCall) :
    (facts.analyze threshold space).Represents c ↔
      ∃ first ∈ madeCalls (CallGraph.registered facts.ensureBound),
        firstCall? (CallGraph.registered facts.ensureBound) first.id = some first ∧
          c.Alike first := by
  constructor
  · rintro ⟨id, hshows⟩
    have hintact := ResolvedGraph.intact_resolveBound threshold facts.ensureBound
    have hid : id ∈ (facts.ensureBound.resolveBound threshold).externalCalls.keys :=
      (nodesOfType_ofResolved hintact space .externalCall).mem_iff.mp hshows.node
    obtain ⟨node, hnode⟩ := Table.mem_keys_iff.mp hid
    obtain ⟨first, hmade, hself, _, hstands⟩ := facts.ensureBound.firstCall_of_find? threshold hnode
    exact ⟨first, hmade, hself, hshows.alike (showsCall_ofResolved hintact space hnode hstands)⟩
  · rintro ⟨first, _, hself, halike⟩
    exact ⟨_, (showsCall_firstCall threshold space facts hself).of_alike halike⟩

/-- **The first call stands for all calls of its identifier.** Whatever the facts, every outbound
call of a registered method has its node, and what the node tells is said of the first call of the
same identifier, so that two hosts under one path have one service. -/
theorem outbound_calls_shown (threshold : Int) (space : String) (facts : FactSet) :
    CallsShown (CallGraph.registered facts.ensureBound) (facts.analyze threshold space) where
  first := by
    intro c hc
    obtain ⟨first, hfirst⟩ := exists_firstCall hc
    refine ⟨first, hfirst, showsCall_firstCall threshold space facts hfirst,
      fun hplain hplain' => ?_⟩
    exact MadeCall.eq_of_id hplain' hplain (of_firstCall? hfirst).2
  represented := represents_iff threshold space facts
  whole := by
    intro hagree c hc
    obtain ⟨first, hfirst⟩ := exists_firstCall hc
    obtain ⟨hmade, hid⟩ := of_firstCall? hfirst
    exact ⟨_, (showsCall_firstCall threshold space facts hfirst).of_alike
      (hagree c hc first hmade hid.symm)⟩

/-- A method that asks two services for the same path. -/
def orderPlacing : MethodFact :=
  { methodNamed "place" none [] with
    outboundCalls := [⟨"http", some "GET", some "http://orders/api/items", none⟩,
      ⟨"http", some "GET", some "http://stock/api/items", none⟩] }

def orderService : Component :=
  ⟨"Orders", "shop.Orders", "shop", .businessService, [], ∅, [orderPlacing], none, none, none, none⟩

def twoHosts : FactSet := ⟨"shop", [orderService], ∅, false⟩

theorem registered_twoHosts : CallGraph.registered twoHosts.ensureBound =
    [.ofFact orderService .service orderPlacing] := by
  have hregistry := Registry.ofFacts_of_ordered twoHosts.ensureBound (by decide)
  unfold CallGraph.registered
  rw [hregistry]
  rfl

/-- No node tells of the call to the second service. -/
theorem twoHosts_call_lost :
    (twoHosts.components.map (·.qualifiedName)).Nodup ∧
    ∃ m ∈ CallGraph.registered twoHosts.ensureBound, ∃ call ∈ m.fact.outboundCalls,
      call.service? = some "stock" ∧
      ∀ threshold space, ¬ (twoHosts.analyze threshold space).Represents ⟨m.decl.id, call⟩ := by
  rw [registered_twoHosts]
  refine ⟨by decide, _, List.mem_cons_self, _, List.mem_cons_of_mem _ List.mem_cons_self,
    by decide +kernel, ?_⟩
  intro threshold space hrepresented
  rw [represents_iff, registered_twoHosts] at hrepresented
  obtain ⟨first, hmade, hself, _, _, hservice⟩ := hrepresented
  simp only [madeCalls, List.flatMap_cons, List.flatMap_nil, List.append_nil, Registered.ofFact,
    orderPlacing, List.map_cons, List.map_nil, List.mem_cons, List.not_mem_nil, or_false] at hmade
  rcases hmade with rfl | rfl
  · revert hservice
    decide +kernel
  · revert hself
    decide +kernel

end Graph

end ArchGraph
