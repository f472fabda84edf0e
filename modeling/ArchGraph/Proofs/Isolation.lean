import ArchGraph.Proofs.CandidateRuns

/-!
Projects do not touch each other. The runs of all projects are in one store, and so are their
graphs, under names that begin with whatever the project is called. What is done for one project is
confined to its own runs and spaces (`Confined`): that takes one lemma for each operation and needs
only that every run is stored under its own identifier (`RunStore.Filed`), which all operations
keep. And no space belongs to two projects (`OwnsSpace.project_eq`), so the other projects are left
untouched (`projects_isolated`).
-/

namespace ArchGraph

/-! ## The spaces of a project -/

/-- The spaces of a project: that of its baseline, and those of the graphs of its runs. -/
def OwnsSpace (project space : String) : Prop :=
  space = baselineSpace project ∨ ∃ id, IsHex id ∧ space = candidateSpace project id

/-- No space belongs to two projects. -/
theorem OwnsSpace.project_eq {p q space : String} (hp : OwnsSpace p space)
    (hq : OwnsSpace q space) :
    p = q := by
  rcases hp with rfl | ⟨a, ha, rfl⟩ <;> rcases hq with hq | ⟨b, hb, hq⟩
  · exact eq_of_baselineSpace hq
  · exact absurd hq.symm (hb.candidateSpace_ne _ _)
  · exact absurd hq (ha.candidateSpace_ne _ _)
  · exact (eq_of_candidateSpace ha hb hq).1

/-- Two different arguments never give the same space. -/
structure SpacesApart : Prop where
  baselines : ∀ p q, baselineSpace p = baselineSpace q → p = q
  candidates : ∀ p q a b, IsHex a → IsHex b →
    candidateSpace p a = candidateSpace q b → p = q ∧ a = b
  kinds : ∀ p q id, IsHex id → candidateSpace p id ≠ baselineSpace q

theorem spacesApart : SpacesApart where
  baselines := fun _ _ h => eq_of_baselineSpace h
  candidates := fun _ _ _ _ ha hb h => eq_of_candidateSpace ha hb h
  kinds := fun p q _ h => h.candidateSpace_ne p q

namespace Service

variable {s t u : Service} {p q : String}

/-! ## Changes confined to a project -/

/-- Whatever is stored under the identifier is a run of the project. -/
def Holds (s : Service) (project id : String) : Prop :=
  ∀ run, s.runs.get? id = some run → run.projectId = project

/-- Nothing changed but runs and graphs of the project. -/
structure Confined (project : String) (s t : Service) : Prop where
  runs : ∀ id, t.runs.get? id = s.runs.get? id ∨ s.Holds project id ∧ t.Holds project id
  graphs : ∀ space, ¬ OwnsSpace project space →
    t.graphs.snapshots.find? space = s.graphs.snapshots.find? space

theorem Confined.of_stores (hruns : t.runs = s.runs) (hgraphs : t.graphs = s.graphs) :
    Confined p s t :=
  ⟨fun _ => .inl (by rw [hruns]), fun _ _ => by rw [hgraphs]⟩

theorem Confined.refl (p : String) (s : Service) : Confined p s s := .of_stores rfl rfl

theorem Confined.trans (hst : Confined p s t) (htu : Confined p t u) : Confined p s u where
  runs := by
    intro id
    rcases htu.runs id with hsame | ⟨ht, hu⟩
    · rcases hst.runs id with hsame' | ⟨hs, ht⟩
      · exact .inl (hsame.trans hsame')
      · exact .inr ⟨hs, fun run hrun => ht run (hsame ▸ hrun)⟩
    · rcases hst.runs id with hsame' | ⟨hs, _⟩
      · exact .inr ⟨fun run hrun => ht run (hsame' ▸ hrun), hu⟩
      · exact .inr ⟨hs, hu⟩
  graphs := fun space hspace => (htu.graphs space hspace).trans (hst.graphs space hspace)

theorem Confined.holds (h : Confined p s t) {id : String} (hs : s.Holds p id) : t.Holds p id := by
  rcases h.runs id with hsame | ⟨_, ht⟩
  · exact fun run hrun => hs run (hsame ▸ hrun)
  · exact ht

theorem confined_record {run : Run} (h : s.Holds p run.id) : Confined p s (s.record run) where
  runs := by
    intro id
    have hget := RunStore.get?_update_eq s.runs run id
    by_cases hid : id = run.id
    · refine .inr ⟨hid ▸ h, fun next hnext => ?_⟩
      have hfound : (s.runs.update run).get? id = some next := hnext
      rw [hget, if_pos hid] at hfound
      obtain ⟨kept, hkept, rfl⟩ := Option.map_eq_some_iff.mp hfound
      exact h kept hkept
    · exact .inl (hget.trans (if_neg hid))
  graphs := fun _ _ => rfl

theorem confined_keepGraph {space : String} (h : OwnsSpace p space) (snapshot : Snapshot) :
    Confined p s { s with graphs := ⟨s.graphs.snapshots.insert space snapshot⟩ } where
  runs := fun _ => .inl rfl
  graphs := by
    intro other hother
    have hne : other ≠ space := fun heq => hother (heq ▸ h)
    rw [Table.find?_insert, if_neg hne]

theorem confined_eraseGraph {space : String} (h : OwnsSpace p space) :
    Confined p s { s with graphs := s.graphs.erase space } where
  runs := fun _ => .inl rfl
  graphs := by
    intro other hother
    have hne : other ≠ space := fun heq => hother (heq ▸ h)
    rw [find?_graphs_erase, if_neg hne]

theorem confined_eraseRun {id : String} (h : s.Holds p id) :
    Confined p s { s with runs := s.runs.erase id } where
  runs := by
    intro other
    have hget := RunStore.get?_erase s.runs id other
    by_cases hid : other = id
    · refine .inr ⟨hid ▸ h, fun run hrun => ?_⟩
      rw [hget, if_pos hid] at hrun
      cases hrun
    · exact .inl (hget.trans (if_neg hid))
  graphs := fun _ _ => rfl

/-- A run that is admitted takes an identifier that no run has. -/
theorem confined_admitted (request : RunRequest)
    (hnew : s.runs.get? (runId (s.issued + 1)) = none) :
    Confined p s (s.admitted p request) where
  runs := by
    intro id
    have hget := get?_admitted s p request id
    by_cases hid : id = runId (s.issued + 1)
    · refine .inr ⟨fun run hrun => ?_, fun run hrun => ?_⟩
      · rw [hid, hnew] at hrun
        cases hrun
      · rw [hget, if_pos hid] at hrun
        rw [← Option.some.inj hrun]
        rfl
    · exact .inl (hget.trans (if_neg hid))
  graphs := fun _ _ => rfl

theorem deleteGraph_ok {space : String} {found : Bool} (h : s.deleteGraph space = .ok (found, t)) :
    t = { s with graphs := s.graphs.erase space } := by
  unfold deleteGraph at h
  split at h
  · cases h
  · exact (Prod.mk.inj (Except.ok.inj h)).2.symm

theorem dropGraph_cases (s : Service) (space : String) :
    s.dropGraph space = s ∨ s.dropGraph space = { s with graphs := s.graphs.erase space } := by
  unfold dropGraph
  split
  · rename_i deleted
    exact .inr (deleteGraph_ok deleted)
  · exact .inl rfl

theorem confined_dropGraph {space : String} (h : OwnsSpace p space) :
    Confined p s (s.dropGraph space) := by
  rcases dropGraph_cases s space with heq | heq
  · rw [heq]
    exact .refl p s
  · rw [heq]
    exact confined_eraseGraph h

/-! ## What is done for a project -/

/-- A run of the project, with nothing but runs of the project under its identifier. -/
structure Owned (p : String) (s : Service) (run : Run) : Prop where
  project : run.projectId = p
  hex : IsHex run.id
  holds : s.Holds p run.id

theorem Owned.space {run : Run} (h : Owned p s run) :
    OwnsSpace p (candidateSpace run.projectId run.id) :=
  .inr ⟨run.id, h.hex, by rw [h.project]⟩

/-- The run after a move, when what was done so far is confined to the project. -/
theorem Owned.next {run next : Run} (h : Owned p s run) (hst : Confined p s t)
    (hid : next.id = run.id) (hproject : next.projectId = run.projectId) : Owned p t next :=
  ⟨hproject.trans h.project, hid ▸ h.hex, hid ▸ hst.holds h.holds⟩

theorem Owned.confined_giveUp {run : Run} (h : Owned p s run) (message : String) :
    Confined p s (s.giveUp run message).2 := by
  unfold giveUp
  dsimp only
  split
  · rename_i failed hfail
    obtain ⟨hid, hproject⟩ := Run.of_fire hfail
    have hrecord := confined_record (h.next (.refl p s) hid hproject).holds
    exact hrecord.trans (confined_dropGraph h.space)
  · exact confined_dropGraph h.space

theorem Owned.confined_evaluate {run : Run} (h : Owned p s run) (facts : FactSet) :
    Confined p s (s.evaluate run facts).2 := by
  rcases evaluate_cases s run facts with ⟨_, heval⟩ | ⟨_, snapshot, heval⟩
  · rw [heval]
    exact .refl p s
  · rw [heval]
    exact confined_keepGraph h.space snapshot

theorem Owned.confined_evaluateRun {run : Run} (h : Owned p s run) (facts : FactSet) :
    Confined p s (s.evaluateRun run facts).2 := by
  unfold evaluateRun
  split
  · exact h.confined_giveUp _
  · rename_i started hstart
    obtain ⟨hid, hproject⟩ := Run.of_fire hstart
    have hrecord : Confined p s (s.record started) :=
      confined_record (h.next (.refl p s) hid hproject).holds
    have hstarted := h.next hrecord hid hproject
    have heval := hstarted.confined_evaluate facts
    generalize (s.record started).evaluate started facts = result at heval
    obtain ⟨outcome, kept⟩ := result
    have hkept := hstarted.next heval rfl rfl
    refine hrecord.trans (heval.trans ?_)
    cases outcome with
    | error message => exact hkept.confined_giveUp message
    | ok diff =>
        dsimp only
        split
        · rename_i finished hfinish
          obtain ⟨hid', hproject'⟩ := Run.of_fire hfinish
          exact confined_record (hkept.next (.refl p kept) hid' hproject').holds
        · exact hkept.confined_giveUp _

end Service

/-! ## Runs under their own identifiers -/

/-- Every run is stored once, under its own identifier, which has hexadecimal digits only. -/
structure RunStore.Filed (s : RunStore) : Prop where
  once : s.runs.Distinct
  own : s.runs.All (fun id run => run.id = id ∧ IsHex id)

namespace RunStore.Filed

variable {s : RunStore}

theorem update (h : s.Filed) (run : Run) : (s.update run).Filed :=
  ⟨Table.distinct_modify h.once _ _, h.own.modify fun _ hkept => hkept⟩

theorem erase (h : s.Filed) (id : String) : (s.erase id).Filed :=
  ⟨Table.distinct_erase h.once id, h.own.erase id⟩

theorem insert (h : s.Filed) {run : Run} (hex : IsHex run.id) :
    (RunStore.mk (s.runs.insert run.id run)).Filed :=
  ⟨Table.distinct_insert h.once _ _, h.own.insert ⟨rfl, hex⟩⟩

theorem mem_ofProject (h : s.Filed) (projectId : String) (run : Run) :
    run ∈ s.ofProject projectId ↔ s.get? run.id = some run ∧ run.projectId = projectId := by
  unfold ofProject
  rw [List.mem_mergeSort, List.mem_filter, beq_iff_eq]
  apply and_congr_left
  intro _
  exact Table.mem_values_iff h.once (h.own.imp fun _ _ hrun => hrun.1)

end RunStore.Filed

namespace Service

variable {s t : Service} {p q : String}

theorem holds_of_stored {id : String} {run : Run} (hrun : s.runs.get? id = some run) :
    s.Holds run.projectId id := by
  intro other hother
  rw [Option.some.inj (hother.symm.trans hrun)]

theorem owned_of_stored (h : s.runs.Filed) {id : String} {run : Run}
    (hrun : s.runs.get? id = some run) : Owned run.projectId s run := by
  obtain ⟨hid, hex⟩ := h.own id run hrun
  exact ⟨rfl, hid ▸ hex, hid ▸ holds_of_stored hrun⟩

theorem confined_runJob (h : s.runs.Filed) {job : Job} (hjob : s.Holds p job.runId) :
    Confined p s (s.runJob job) := by
  rw [runJob_eq]
  cases hrun : s.runs.get? job.runId with
  | none => exact .refl p s
  | some run =>
      have howned := owned_of_stored h hrun
      rw [hjob run hrun] at howned
      exact howned.confined_evaluateRun job.facts

theorem discard_ok {run : Run} (h : s.discard run = .ok t) :
    t = { s with runs := s.runs.erase run.id, graphs := s.graphs.erase run.space } := by
  unfold discard at h
  obtain ⟨⟨found, kept⟩, hdelete, h⟩ := bind_eq_ok.mp h
  rw [← Except.ok.inj h, deleteGraph_ok hdelete]
  rfl

theorem confined_delete (h : s.runs.Filed) {id : String} (hdelete : s.delete p id = .ok t) :
    Confined p s t := by
  unfold delete at hdelete
  obtain ⟨run, hrun, hdelete⟩ := bind_eq_ok.mp hdelete
  obtain ⟨hstored, hproject⟩ := get_eq_ok hrun
  have howned := owned_of_stored h hstored
  rw [hproject] at howned
  split at hdelete
  · rw [discard_ok hdelete]
    have hgraph : Confined p s { s with graphs := s.graphs.erase run.space } :=
      confined_eraseGraph howned.space
    exact hgraph.trans (confined_eraseRun (hgraph.holds howned.holds))
  · cases hdelete

/-- A run of another project counts as not there, for whoever asks. -/
theorem refused_of_other {id : String} {run : Run} (hrun : s.runs.get? id = some run)
    (hother : run.projectId ≠ p) :
    s.get p id = .error (.failed (.of .notFound
      ("Candidate run " ++ id ++ " not found in project " ++ p))) ∧
    s.delete p id = .error (.failed (.of .notFound
      ("Candidate run " ++ id ++ " not found in project " ++ p))) := by
  have hget : s.get p id = .error (.failed (.of .notFound
      ("Candidate run " ++ id ++ " not found in project " ++ p))) := by
    unfold Service.get requireRun
    rw [hrun]
    exact if_neg hother
  refine ⟨hget, ?_⟩
  unfold delete
  rw [hget]
  rfl

/-! ## States that can be reached -/

theorem filed_giveUp (h : s.runs.Filed) (run : Run) (message : String) :
    (s.giveUp run message).2.runs.Filed := by
  have hdrop : ∀ (u : Service) (space : String), (u.dropGraph space).runs = u.runs := by
    intro u space
    rcases dropGraph_cases u space with heq | heq <;> rw [heq]
  unfold giveUp
  dsimp only
  split
  · rw [hdrop]
    exact h.update _
  · rw [hdrop]
    exact h

theorem filed_evaluateRun (h : s.runs.Filed) (run : Run) (facts : FactSet) :
    (s.evaluateRun run facts).2.runs.Filed := by
  unfold evaluateRun
  split
  · exact filed_giveUp h _ _
  · rename_i started _
    have hkept : ((s.record started).evaluate started facts).2.runs = (s.record started).runs := by
      rcases evaluate_cases (s.record started) started facts with ⟨_, heval⟩ | ⟨_, _, heval⟩ <;>
        rw [heval]
    have hfiled : ((s.record started).evaluate started facts).2.runs.Filed :=
      hkept ▸ h.update started
    generalize (s.record started).evaluate started facts = result at hfiled
    obtain ⟨outcome, kept⟩ := result
    cases outcome with
    | error message => exact filed_giveUp hfiled _ _
    | ok diff =>
        dsimp only
        split
        · exact hfiled.update _
        · exact filed_giveUp hfiled _ _

theorem filed_runJob (h : s.runs.Filed) (job : Job) : (s.runJob job).runs.Filed := by
  rw [runJob_eq]
  cases s.runs.get? job.runId with
  | none => exact h
  | some run => exact filed_evaluateRun h run job.facts

theorem filed_runJobs (jobs : List Job) (h : s.runs.Filed) : (jobs.foldl runJob s).runs.Filed := by
  induction jobs generalizing s with
  | nil => exact h
  | cons job jobs ih => exact ih (filed_runJob h job)

theorem filed_drain (h : s.runs.Filed) : s.drain.2.runs.Filed :=
  filed_runJobs (s := { s with queue := [] }) s.queue h

theorem filed_insertRun {run : Run} (h : s.runs.Filed) (hex : IsHex run.id)
    (hin : s.insertRun run = .ok t) : t.runs.Filed := by
  unfold insertRun RunStore.insert? at hin
  by_cases hknown : s.runs.runs.contains run.id = true
  · rw [if_pos hknown] at hin
    cases hin
  · rw [if_neg hknown] at hin
    rw [← Except.ok.inj hin]
    exact h.insert hex

theorem filed_admitted (h : s.runs.Filed) (projectId : String) (request : RunRequest) :
    (s.admitted projectId request).runs.Filed := by
  have hhex : IsHex (s.newRun projectId request).id := isHex_runId (s.issued + 1)
  exact h.insert hhex

theorem filed_submit (h : s.runs.Filed) (projectId : String) (request : RunRequest) :
    (s.submit projectId request).2.runs.Filed := by
  rcases submit_cases s projectId request with ⟨_, heq⟩ | ⟨_, heq⟩
  · rw [heq]
    exact h
  · rw [heq]
    split
    · exact filed_admitted h projectId request
    · exact filed_drain (filed_admitted h projectId request)

theorem filed_discardAll (runs : List Run) (h : s.runs.Filed) :
    (s.discardAll runs).2.runs.Filed := by
  induction runs generalizing s with
  | nil => exact h
  | cons run runs ih =>
      unfold discardAll
      split
      · rename_i kept hkept
        rw [discard_ok hkept]
        exact ih (h.erase _)
      · exact h

theorem filed_interruptAll (runs : List Run) (h : s.runs.Filed) :
    (s.interruptAll runs).2.runs.Filed := by
  have hone : ∀ (u : Service) (run : Run), u.runs.Filed → (u.interrupt run).2.runs.Filed := by
    intro u run hu
    unfold interrupt
    split
    · exact hu
    · rename_i failed _
      dsimp only
      split
      · rename_i hdelete
        rw [deleteGraph_ok hdelete]
        exact hu.update failed
      · exact hu.update failed
  induction runs generalizing s with
  | nil => exact h
  | cons run runs ih =>
      have hfirst := hone s run h
      unfold interruptAll
      generalize s.interrupt run = result at hfirst
      obtain ⟨outcome, kept⟩ := result
      cases outcome with
      | ok done => exact ih hfirst
      | error e => exact hfirst

theorem filed_restart (h : s.runs.Filed) (crash : Bool) : (s.restart crash).runs.Filed := by
  unfold restart
  cases crash with
  | true => exact filed_interruptAll _ h
  | false => exact filed_interruptAll _ (filed_drain h)

/-- One operation on the service or straight on its stores, in whatever surroundings. The next run
may get any number, so that identifiers need not be given in order. -/
inductive Operation : Service → Service → Prop
  | draw (s : Service) (n : Nat) : Operation s { s with issued := n }
  | insertRun (s s' : Service) (run : Run) (hex : IsHex run.id)
      (inserted : s.insertRun run = .ok s') : Operation s s'
  | record (s : Service) (run : Run) : Operation s (s.record run)
  | eraseRun (s : Service) (id : String) : Operation s { s with runs := s.runs.erase id }
  | saveGraph (s s' : Service) (owner : Option String) (g : Graph)
      (saved : s.saveGraph owner g = .ok s') : Operation s s'
  | deleteGraph (s s' : Service) (space : String) (found : Bool)
      (deleted : s.deleteGraph space = .ok (found, s')) : Operation s s'
  | submit (s : Service) (projectId : String) (request : RunRequest) :
      Operation s (s.submit projectId request).2
  | work (s : Service) (job : Job) : Operation s (s.runJob job)
  | drain (s : Service) : Operation s s.drain.2
  | delete (s s' : Service) (projectId id : String) (deleted : s.delete projectId id = .ok s') :
      Operation s s'
  | sweep (s : Service) (now : Timestamp) : Operation s (s.sweep now).2
  | failInterrupted (s : Service) : Operation s s.failInterrupted.2
  | restart (s : Service) (crash : Bool) : Operation s (s.restart crash)
  | setClock (s : Service) (now : Timestamp) : Operation s { s with clock := now }
  | takeJobs (s : Service) (queue : List Job) : Operation s { s with queue }
  | defer (s : Service) (deferred : Bool) : Operation s { s with deferred }
  | disturb (s : Service) (conditions : Conditions) : Operation s { s with conditions }

/-- A state that operations lead to from empty stores. -/
inductive Attainable (policy : Policy) : Service → Prop
  | start (clock : Timestamp) : Attainable policy (new policy clock)
  | step {s t : Service} : Attainable policy s → Operation s t → Attainable policy t

theorem Operation.filed (h : Operation s t) (hs : s.runs.Filed) : t.runs.Filed := by
  cases h with
  | insertRun _ run hex inserted => exact filed_insertRun hs hex inserted
  | record run => exact hs.update run
  | eraseRun id => exact hs.erase id
  | saveGraph _ owner g saved =>
      unfold Service.saveGraph at saved
      split at saved
      · rw [← Except.ok.inj saved]
        exact hs
      · cases saved
  | deleteGraph _ space found deleted =>
      rw [deleteGraph_ok deleted]
      exact hs
  | submit projectId request => exact filed_submit hs projectId request
  | work job => exact filed_runJob hs job
  | drain => exact filed_drain hs
  | delete _ projectId id deleted =>
      unfold Service.delete at deleted
      obtain ⟨run, _, deleted⟩ := bind_eq_ok.mp deleted
      split at deleted
      · rw [discard_ok deleted]
        exact hs.erase _
      · cases deleted
  | sweep now => exact filed_discardAll _ hs
  | failInterrupted => exact filed_interruptAll _ hs
  | restart crash => exact filed_restart hs crash
  | draw | setClock | takeJobs | defer | disturb => exact hs

theorem Attainable.filed {policy : Policy} (h : Attainable policy s) : s.runs.Filed := by
  induction h with
  | start clock => exact ⟨List.nodup_nil, Table.All.empty⟩
  | step _ hop ih => exact hop.filed ih

/-! ## Isolation -/

/-- The runs of the project and the graphs in its spaces are as they were. -/
structure Untouched (project : String) (s t : Service) : Prop where
  runs : ∀ id run, run.projectId = project →
    (t.runs.get? id = some run ↔ s.runs.get? id = some run)
  graphs : ∀ space, OwnsSpace project space →
    t.graphs.snapshots.find? space = s.graphs.snapshots.find? space

theorem Untouched.trans {u : Service} (hst : Untouched q s t) (htu : Untouched q t u) :
    Untouched q s u where
  runs := fun id run hrun => (htu.runs id run hrun).trans (hst.runs id run hrun)
  graphs := fun space hspace => (htu.graphs space hspace).trans (hst.graphs space hspace)

theorem Confined.untouched (h : Confined p s t) (hne : p ≠ q) : Untouched q s t where
  runs := by
    intro id run hrun
    rcases h.runs id with hsame | ⟨hs, ht⟩
    · rw [hsame]
    · constructor
      · intro hstored
        exact absurd ((ht run hstored).symm.trans hrun) hne
      · intro hstored
        exact absurd ((hs run hstored).symm.trans hrun) hne
  graphs := fun space hspace => h.graphs space fun hown => hne (hown.project_eq hspace)

/-- None of the jobs is for a run of the project. -/
def Spares (s : Service) (project : String) (jobs : List Job) : Prop :=
  ∀ job ∈ jobs, ∀ run, s.runs.get? job.runId = some run → run.projectId ≠ project

/-- Jobs for runs of other projects, one after the other. -/
theorem untouched_runJobs (jobs : List Job) (h : s.runs.Filed) (hspares : s.Spares q jobs) :
    Untouched q s (jobs.foldl runJob s) := by
  induction jobs generalizing s with
  | nil => exact ⟨fun _ _ _ => Iff.rfl, fun _ _ => rfl⟩
  | cons job jobs ih =>
      obtain ⟨hjob, hjobs⟩ := List.forall_mem_cons.mp hspares
      have hfirst : Untouched q s (s.runJob job) := by
        cases hrun : s.runs.get? job.runId with
        | none =>
            rw [runJob_eq, hrun]
            exact ⟨fun _ _ _ => Iff.rfl, fun _ _ => rfl⟩
        | some run => exact (confined_runJob h (holds_of_stored hrun)).untouched (hjob run hrun)
      refine hfirst.trans (ih (filed_runJob h job) fun next hnext run hrun hproject => ?_)
      exact hjobs next hnext run ((hfirst.runs _ run hproject).mp hrun) hproject

theorem untouched_drain (h : s.runs.Filed) (hspares : s.Spares q s.queue) :
    Untouched q s s.drain.2 := by
  have hjobs : Untouched q { s with queue := [] } s.drain.2 := untouched_runJobs s.queue h hspares
  exact ⟨hjobs.runs, hjobs.graphs⟩

theorem untouched_submit (h : s.runs.Filed) (hne : p ≠ q) (request : RunRequest)
    (hwait : s.deferred = true ∨ s.Spares q s.queue) :
    Untouched q s (s.submit p request).2 := by
  rcases submit_cases s p request with ⟨_, heq⟩ | ⟨hnew, heq⟩
  · rw [heq]
    have hnumbered : Confined p s { s with issued := s.issued + 1 } := .of_stores rfl rfl
    exact hnumbered.untouched hne
  · have hadmitted := (confined_admitted (p := p) request hnew).untouched hne
    rw [heq]
    split
    · exact hadmitted
    · rename_i hnow
      refine hadmitted.trans (untouched_drain (filed_admitted h p request) ?_)
      intro job hjob run hrun hproject
      have hstored := (hadmitted.runs _ run hproject).mp hrun
      rcases List.mem_append.mp hjob with hwaiting | hlast
      · rcases hwait with hdeferred | hspares
        · exact hnow hdeferred
        · exact hspares job hwaiting run hstored hproject
      · -- The job that came with the submission is for a run that was not there before.
        rw [List.mem_singleton.mp hlast, hnew] at hstored
        cases hstored

theorem untouched_saveGraph (hne : p ≠ q) (owner : Option String) {g : Graph}
    (hspace : g.space = baselineSpace p) : ∃ t, s.saveGraph owner g = .ok t ∧ Untouched q s t := by
  have hnamed : g.space ≠ "" := hspace ▸ baselineSpace_ne_empty p
  have hown : OwnsSpace p g.space := .inl hspace
  unfold saveGraph GraphStore.save?
  rw [if_neg hnamed]
  exact ⟨_, rfl, (confined_keepGraph hown _).untouched hne⟩

theorem get_eq_ok_iff (id : String) (run : Run) :
    s.get p id = .ok run ↔ s.runs.get? id = some run ∧ run.projectId = p := by
  constructor
  · exact get_eq_ok
  · rintro ⟨hstored, hproject⟩
    unfold Service.get requireRun
    rw [hstored]
    exact if_pos hproject

/-- What may be done for project `p` while the runs and graphs of project `q` stay as they are. To
get and to list runs returns no new state, and neither does an operation that fails. -/
structure Isolated (s : Service) (p q : String) : Prop where
  saveBaseline : ∀ owner g, g.space = baselineSpace p →
    ∃ t, s.saveGraph owner g = .ok t ∧ Untouched q s t
  /-- Jobs that waited already are done with the new one, so those must not be for `q`. -/
  submit : ∀ request, s.deferred = true ∨ s.Spares q s.queue → Untouched q s (s.submit p request).2
  work : ∀ job, s.Holds p job.runId → Untouched q s (s.runJob job)
  delete : ∀ id t, s.delete p id = .ok t → Untouched q s t
  get : ∀ id run, s.get p id = .ok run ↔ s.runs.get? id = some run ∧ run.projectId = p
  list : ∀ run, run ∈ s.list p ↔ s.runs.get? run.id = some run ∧ run.projectId = p
  refused : ∀ id run, s.runs.get? id = some run → run.projectId = q →
    s.get p id = .error (.failed (.of .notFound
      ("Candidate run " ++ id ++ " not found in project " ++ p))) ∧
    s.delete p id = .error (.failed (.of .notFound
      ("Candidate run " ++ id ++ " not found in project " ++ p)))

/-- Projects are isolated whatever they are called and whatever was done before. -/
theorem projects_isolated (policy : Policy) (s : Service) (h : Attainable policy s) :
    SpacesApart ∧ ∀ p q, p ≠ q → Isolated s p q := by
  refine ⟨spacesApart, fun p q hne => ?_⟩
  have hfiled := h.filed
  exact {
    saveBaseline := fun owner _ hspace => untouched_saveGraph hne owner hspace
    submit := fun request hwait => untouched_submit hfiled hne request hwait
    work := fun _ hjob => (confined_runJob hfiled hjob).untouched hne
    delete := fun _ _ hdelete => (confined_delete hfiled hdelete).untouched hne
    get := get_eq_ok_iff
    list := fun run => hfiled.mem_ofProject p run
    refused := fun _ _ hrun hproject =>
      refused_of_other hrun fun heq => hne (heq.symm.trans hproject) }

/-- A project, and one whose name looks like a space of the first, each with a run that waits. -/
def nestedProjects : Service :=
  (({ freshService with deferred := true }.submit "shop::candidate" featureRequest).2.submit "shop"
    featureRequest).2

theorem nestedProjects_isolated :
    nestedProjects.runs.runs.values.map (fun run => (run.id, run.projectId)) =
      [("00000001", "shop::candidate"), ("00000002", "shop")] ∧
    nestedProjects.queue.map (·.runId) = ["00000001", "00000002"] ∧
    Isolated nestedProjects "shop" "shop::candidate" :=
  ⟨by decide, by decide, (projects_isolated ⟨80, 24, 100⟩ nestedProjects
    (.step (.step (.step (.start _) (.defer _ true)) (.submit _ "shop::candidate" featureRequest))
      (.submit _ "shop" featureRequest))).2 "shop" "shop::candidate" (by decide)⟩

end Service

end ArchGraph
