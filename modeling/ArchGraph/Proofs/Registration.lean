import ArchGraph.CallGraph.Registry
import ArchGraph.Proofs.Table
import Mathlib.Data.List.Nodup

/-!
What registration leaves behind: one node for each registered method, under its own identifier, made
of the facts it came with, and with no call recorded yet. No method is left out, except those that
serve nothing and those whose identifier is taken (`present_ofFacts`).
-/

namespace ArchGraph

/-- Components with distinct names are all kept. -/
theorem firstOfName_eq_self {seen : List String} {cs : List Component}
    (hseen : ∀ c ∈ cs, c.qualifiedName ∉ seen) (hn : (cs.map (·.qualifiedName)).Nodup) :
    firstOfName seen cs = cs := by
  induction cs generalizing seen with
  | nil => rfl
  | cons c cs ih =>
      rw [List.map_cons, List.nodup_cons] at hn
      unfold firstOfName
      rw [if_neg (by simpa using hseen c List.mem_cons_self), ih _ hn.2]
      intro x hx hin
      rcases List.mem_cons.mp hin with heq | hin
      · exact hn.1 (heq ▸ List.mem_map_of_mem hx)
      · exact hseen x (List.mem_cons_of_mem _ hx) hin

theorem firstOfName_subset (seen : List String) (cs : List Component) :
    ∀ c ∈ firstOfName seen cs, c ∈ cs := by
  induction cs generalizing seen with
  | nil => simp [firstOfName]
  | cons c cs ih =>
      intro x hx
      unfold firstOfName at hx
      split at hx
      · exact List.mem_cons_of_mem _ (ih _ x hx)
      · rcases List.mem_cons.mp hx with rfl | hx
        · exact List.mem_cons_self
        · exact List.mem_cons_of_mem _ (ih _ x hx)

namespace Registry

/-- The node of a registered method has no calls yet. -/
def Fresh (g : ResolvedGraph) (m : Registered) : Prop :=
  ∃ node, g.methods.find? m.decl.id = some node ∧ node.toMethodDecl = m.decl ∧ node.calls = []

/-- A method was made of a fact of a component among `cs`. -/
structure BuiltFrom (cs : List Component) (m : Registered) : Prop where
  owner : m.owner ∈ cs
  fact : m.fact ∈ m.owner.methods
  kind : m.owner.kind.methodKind? = some m.decl.kind
  decl : m.decl = methodDecl m.owner m.decl.kind m.fact

structure Sound (cs : List Component) (r : Registry) : Prop where
  keys : r.graph.methods.keys = r.methods.map (·.decl.id)
  distinct : r.graph.methods.Distinct
  fresh : ∀ m ∈ r.methods, Fresh r.graph m
  built : ∀ m ∈ r.methods, BuiltFrom cs m
  skipped : r.graph.skipped = []

theorem Sound.empty (cs : List Component) (projectId : String) : Sound cs (.empty projectId) where
  keys := rfl
  distinct := List.nodup_nil
  fresh := by simp [Registry.empty]
  built := by simp [Registry.empty]
  skipped := rfl

theorem Sound.nodup_ids {cs : List Component} {r : Registry} (h : Sound cs r) :
    (r.methods.map (·.decl.id)).Nodup := by
  rw [← h.keys]
  exact h.distinct

/-- Two registered methods with one identifier are the same. -/
theorem Sound.eq_of_id {cs : List Component} {r : Registry} (h : Sound cs r) {m n : Registered}
    (hm : m ∈ r.methods) (hn : n ∈ r.methods) (hid : m.decl.id = n.decl.id) : m = n :=
  List.inj_on_of_nodup_map h.nodup_ids hm hn hid

/-- Outbound calls leave the methods, their calls and the skipped invocations as they are. -/
theorem addExternalCall_frame (source : String) (g : ResolvedGraph) (call : OutboundCall) :
    (addExternalCall source g call).methods.keys = g.methods.keys ∧
    (addExternalCall source g call).skipped = g.skipped ∧
    ∀ m, Fresh g m → Fresh (addExternalCall source g call) m := by
  unfold addExternalCall
  dsimp only
  split
  · exact ⟨rfl, rfl, fun _ h => h⟩
  · refine ⟨Table.keys_modify _ _ _, rfl, ?_⟩
    rintro m ⟨node, hfind, hdecl, hcalls⟩
    unfold Fresh
    rw [Table.find?_modify]
    by_cases hs : m.decl.id = source
    · refine ⟨node.link .externalCallIds (externalCallNode source call).id, ?_, hdecl, hcalls⟩
      rw [if_pos hs, ← hs, hfind, Option.map_some]
    · exact ⟨node, by rw [if_neg hs, hfind], hdecl, hcalls⟩

theorem addExternalCalls_frame (source : String) (calls : List OutboundCall) (g : ResolvedGraph) :
    (calls.foldl (addExternalCall source) g).methods.keys = g.methods.keys ∧
    (calls.foldl (addExternalCall source) g).skipped = g.skipped ∧
    ∀ m, Fresh g m → Fresh (calls.foldl (addExternalCall source) g) m := by
  induction calls generalizing g with
  | nil => exact ⟨rfl, rfl, fun _ h => h⟩
  | cons call calls ih =>
      obtain ⟨hk, hs, hf⟩ := addExternalCall_frame source g call
      obtain ⟨hk', hs', hf'⟩ := ih (addExternalCall source g call)
      exact ⟨hk'.trans hk, hs'.trans hs, fun m h => hf' m (hf m h)⟩

theorem Sound.addMethod {cs : List Component} {r : Registry} (h : Sound cs r) {c : Component}
    (hc : c ∈ cs) {kind : MethodKind} (hkind : c.kind.methodKind? = some kind) {m : MethodFact}
    (hm : m ∈ c.methods) : Sound cs (addMethod c kind r m) := by
  unfold Registry.addMethod
  dsimp only
  split
  · exact h
  · rename_i hnew
    have habsent : (methodDecl c kind m).id ∉ r.graph.methods.keys := by
      intro hin
      simp [(Table.contains_iff _ _).mpr hin] at hnew
    obtain ⟨hk, hs, hf⟩ := addExternalCalls_frame (methodDecl c kind m).id m.outboundCalls
      { r.graph with
        methods := r.graph.methods.insert (methodDecl c kind m).id (.ofDecl (methodDecl c kind m))
        endpoints := addEndpoint r.graph.endpoints c m (methodDecl c kind m) }
    have hkeys : (r.graph.methods.insert (methodDecl c kind m).id
        (.ofDecl (methodDecl c kind m))).keys =
          r.graph.methods.keys ++ [(methodDecl c kind m).id] := by
      simp [addNew, habsent]
    refine ⟨?_, ?_, ?_, ?_, hs.trans h.skipped⟩
    · simp only [hk, hkeys, h.keys, List.map_append, List.map_cons, List.map_nil]
    · unfold Table.Distinct
      rw [hk]
      exact Table.distinct_insert h.distinct _ _
    · intro n hn
      apply hf
      rcases List.mem_append.mp hn with hn | hn
      · obtain ⟨node, hfind, hdecl, hcalls⟩ := h.fresh n hn
        have hne : n.decl.id ≠ (methodDecl c kind m).id := by
          intro e
          exact habsent (e ▸ h.keys ▸ List.mem_map_of_mem hn)
        exact ⟨node, by rw [Table.find?_insert, if_neg hne, hfind], hdecl, hcalls⟩
      · rw [List.mem_singleton.mp hn]
        exact ⟨_, by rw [Table.find?_insert, if_pos rfl], rfl, rfl⟩
    · intro n hn
      rcases List.mem_append.mp hn with hn | hn
      · exact h.built n hn
      · rw [List.mem_singleton.mp hn]
        exact ⟨hc, hm, hkind, rfl⟩

theorem Sound.addMethods {cs : List Component} {c : Component} (hc : c ∈ cs) {kind : MethodKind}
    (hkind : c.kind.methodKind? = some kind) (ms : List MethodFact) (hms : ∀ m ∈ ms, m ∈ c.methods)
    {r : Registry} (h : Sound cs r) : Sound cs (ms.foldl (Registry.addMethod c kind) r) := by
  induction ms generalizing r with
  | nil => exact h
  | cons m ms ih =>
      exact ih (fun n hn => hms n (List.mem_cons_of_mem _ hn))
        (h.addMethod hc hkind (hms m List.mem_cons_self))

theorem Sound.add {cs : List Component} {r : Registry} (h : Sound cs r) {c : Component}
    (hc : c ∈ cs) : Sound cs (r.add c) := by
  have hnamed : Sound cs { r with graph := addComponent r.graph c } :=
    ⟨h.keys, h.distinct, h.fresh, h.built, h.skipped⟩
  unfold Registry.add
  dsimp only
  split
  · exact hnamed
  · rename_i kind hkind
    exact hnamed.addMethods hc hkind c.methods (fun _ hm => hm)

theorem Sound.addAll {cs : List Component} (todo : List Component) (htodo : ∀ c ∈ todo, c ∈ cs)
    {r : Registry} (h : Sound cs r) : Sound cs (todo.foldl Registry.add r) := by
  induction todo generalizing r with
  | nil => exact h
  | cons c todo ih =>
      exact ih (fun x hx => htodo x (List.mem_cons_of_mem _ hx))
        (h.add (htodo c List.mem_cons_self))

theorem sound_ofFacts (facts : FactSet) : Sound facts.components (ofFacts facts) := by
  apply Sound.addAll _ _ (Sound.empty _ _)
  intro c hc
  exact List.mem_mergeSort.mp (firstOfName_subset [] _ c hc)

/-! ## Every method is registered -/

theorem addMethod_subset (c : Component) (kind : MethodKind) (r : Registry) (m : MethodFact) :
    r.methods ⊆ (addMethod c kind r m).methods := by
  unfold addMethod
  dsimp only
  split
  · exact List.Subset.refl _
  · exact List.subset_append_left _ _

theorem addMethods_subset (c : Component) (kind : MethodKind) (ms : List MethodFact)
    (r : Registry) :
    r.methods ⊆ (ms.foldl (addMethod c kind) r).methods := by
  induction ms generalizing r with
  | nil => exact List.Subset.refl _
  | cons m ms ih => exact List.Subset.trans (addMethod_subset c kind r m) (ih _)

theorem addAll_subset (todo : List Component) (r : Registry) :
    r.methods ⊆ (todo.foldl Registry.add r).methods := by
  induction todo generalizing r with
  | nil => exact List.Subset.refl _
  | cons c todo ih =>
      have hstep : r.methods ⊆ (r.add c).methods := by
        unfold Registry.add
        dsimp only
        split
        · exact List.Subset.refl _
        · exact addMethods_subset c _ c.methods { r with graph := addComponent r.graph c }
      exact List.Subset.trans hstep (ih _)

/-- A method that serves something is there after its turn, itself or the one that had its
identifier before. -/
theorem Sound.present_addMethod {cs : List Component} {r : Registry} (h : Sound cs r)
    (c : Component)
    {kind : MethodKind} {m : MethodFact} (hserved : isServed kind m = true) :
    ∃ n ∈ (Registry.addMethod c kind r m).methods, n.decl.id = m.id c := by
  unfold Registry.addMethod
  dsimp only
  split
  · rename_i htaken
    rw [hserved, Bool.not_true, Bool.false_or, Table.contains_iff, h.keys, List.mem_map] at htaken
    exact htaken
  · exact ⟨_, List.mem_append_right _ List.mem_cons_self, rfl⟩

theorem Sound.present_addMethods {cs : List Component} {c : Component} (hc : c ∈ cs)
    {kind : MethodKind} (hkind : c.kind.methodKind? = some kind) (ms : List MethodFact)
    (hms : ∀ m ∈ ms, m ∈ c.methods) {r : Registry} (h : Sound cs r) :
    ∀ m ∈ ms, isServed kind m = true →
      ∃ n ∈ (ms.foldl (Registry.addMethod c kind) r).methods, n.decl.id = m.id c := by
  induction ms generalizing r with
  | nil => simp
  | cons first ms ih =>
      intro m hm hserved
      rcases List.mem_cons.mp hm with rfl | hm
      · obtain ⟨n, hn, hid⟩ := h.present_addMethod c hserved
        exact ⟨n, addMethods_subset c kind ms _ hn, hid⟩
      · exact ih (fun x hx => hms x (List.mem_cons_of_mem _ hx))
          (h.addMethod hc hkind (hms first List.mem_cons_self)) m hm hserved

theorem Sound.present_addAll {cs : List Component} (todo : List Component)
    (htodo : ∀ c ∈ todo, c ∈ cs) {r : Registry} (h : Sound cs r) {c : Component} (hc : c ∈ todo)
    {kind : MethodKind} (hkind : c.kind.methodKind? = some kind) {m : MethodFact}
    (hm : m ∈ c.methods) (hserved : isServed kind m = true) :
    ∃ n ∈ (todo.foldl Registry.add r).methods, n.decl.id = m.id c := by
  induction todo generalizing r with
  | nil => cases hc
  | cons first todo ih =>
      have hrest : ∀ x ∈ todo, x ∈ cs := fun x hx => htodo x (List.mem_cons_of_mem _ hx)
      have hfirst : first ∈ cs := htodo first List.mem_cons_self
      rcases List.mem_cons.mp hc with rfl | hc
      · have hnamed : Sound cs { r with graph := addComponent r.graph c } :=
          ⟨h.keys, h.distinct, h.fresh, h.built, h.skipped⟩
        obtain ⟨n, hn, hid⟩ :=
          hnamed.present_addMethods hfirst hkind c.methods (fun _ hx => hx) m hm
          hserved
        refine ⟨n, addAll_subset todo _ ?_, hid⟩
        unfold Registry.add
        rw [hkind]
        exact hn
      · exact ih hrest (h.add hfirst) hc

/-- The methods of a class that is registered are all there, except those that serve nothing. -/
theorem present_ofFacts {facts : FactSet} {c : Component}
    (hc : c ∈ firstOfName [] (registrationOrder facts.components)) {kind : MethodKind}
    (hkind : c.kind.methodKind? = some kind) {m : MethodFact} (hm : m ∈ c.methods)
    (hserved : isServed kind m = true) :
    ∃ n ∈ (ofFacts facts).methods, n.decl.id = m.id c :=
  (Sound.empty _ _).present_addAll _ (fun _ hx => hx) hc hkind hm hserved

/-- The class of a registered method is one of those that are registered. -/
theorem owner_mem_of_registered {facts : FactSet} {m : Registered}
    (hm : m ∈ (ofFacts facts).methods) :
    m.owner ∈ firstOfName [] (registrationOrder facts.components) :=
  ((Sound.empty _ _).addAll _ (fun _ hx => hx) |>.built m hm).owner

end Registry

end ArchGraph
