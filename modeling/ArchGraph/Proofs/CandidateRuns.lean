import ArchGraph.Proofs.Fallible
import ArchGraph.Proofs.Multigraph
import ArchGraph.Proofs.RunChanges

/-!
Candidate runs are all or nothing: a run is completed with its diff and its graph, or failed with a
message and without either, and nothing of a run that has ended changes until it is removed. Every
operation of the service is made of changes that keep this so (`Step.changes`), in whatever order
operations come, whatever identifiers are drawn and whatever part of an evaluation breaks.
-/

namespace ArchGraph

namespace Service

variable {s t : Service} {spared : List String}

/-! ## What the operations of the service do -/

/-- An evaluation keeps the graph of the run, unless it breaks before. -/
theorem evaluate_cases (s : Service) (run : Run) (facts : FactSet) :
    (∃ message, s.evaluate run facts = (.error message, s)) ∨
    ∃ result snapshot, s.evaluate run facts =
      (result, { s with graphs := ⟨s.graphs.snapshots.insert run.space snapshot⟩ }) := by
  unfold evaluate
  split
  · exact .inl ⟨_, rfl⟩
  · have hspace : (facts.analyze s.policy.threshold run.space).space = run.space :=
      Graph.space_ofResolved _ _
    unfold Run.space at hspace
    unfold saveGraph GraphStore.save?
    simp only [hspace]
    split
    · rename_i hsaved
      split at hsaved
      · rename_i hsome
        split at hsome
        · cases hsome
        · obtain rfl := Option.some.inj hsome
          obtain rfl := Except.ok.inj hsaved
          exact .inr ⟨_, _, rfl⟩
      · cases hsaved
    · exact .inl ⟨_, rfl⟩

/-- A run that has ended is refused, comes back as it is, and has its graph dropped where
possible. -/
theorem evaluateRun_of_terminal {run : Run} (hended : run.status.isTerminal = true)
    (facts : FactSet) :
    s.evaluateRun run facts = (run, s.dropGraph run.space) := by
  have hstart : run.start s.clock = .error (run.invalidTransition .start) :=
    Run.fire_ended hended ..
  have hfail : ∀ message, run.fail message s.clock = .error (run.invalidTransition .fail) :=
    fun _ => Run.fire_ended hended ..
  unfold evaluateRun
  simp only [hstart]
  unfold giveUp
  simp only [hfail]
  rfl

section

variable (unlocked : s.conditions.locked = false)

include unlocked

theorem deleteGraph_eq (space : String) :
    s.deleteGraph space =
      .ok (s.graphs.contains space, { s with graphs := s.graphs.erase space }) := by
  unfold deleteGraph
  rw [unlocked]
  rfl

theorem dropGraph_eq (space : String) :
    s.dropGraph space = { s with graphs := s.graphs.erase space } := by
  unfold dropGraph
  rw [deleteGraph_eq unlocked]

theorem discard_eq (run : Run) :
    s.discard run =
      .ok { s with runs := s.runs.erase run.id, graphs := s.graphs.erase run.space } := by
  unfold discard
  rw [deleteGraph_eq unlocked]
  rfl

theorem interrupt_eq {run : Run} (hopen : run.status.isTerminal = false) :
    s.interrupt run = (.ok (), { s with
      runs := s.runs.update (run.failedAt interruptedMessage s.clock)
      graphs := s.graphs.erase run.space }) := by
  have hdelete := deleteGraph_eq (s := s.record (run.failedAt interruptedMessage s.clock)) unlocked
    (candidateSpace run.projectId run.id)
  unfold interrupt
  simp only [Run.fail_eq hopen, hdelete]
  rfl

theorem giveUp_eq {run : Run} (hopen : run.status.isTerminal = false) (message : String) :
    (s.giveUp run message).2 = { s with
      runs := s.runs.update (run.failedAt message s.clock)
      graphs := s.graphs.erase run.space } := by
  have hdrop := dropGraph_eq (s := s.record (run.failedAt message s.clock)) unlocked
    (candidateSpace run.projectId run.id)
  unfold giveUp
  simp only [Run.fail_eq hopen, hdrop]
  rfl

/-- The job of a run that has ended drops its graph and nothing else. -/
theorem evaluateRun_ended {run : Run} (hended : run.status.isTerminal = true) (facts : FactSet) :
    (s.evaluateRun run facts).2 = { s with graphs := s.graphs.erase run.space } := by
  rw [evaluateRun_of_terminal hended]
  exact dropGraph_eq unlocked _

/-- The job of a pending run fails it, or completes it with a diff and a graph. -/
theorem evaluateRun_pending {run : Run} (hpending : run.status = .pending) (facts : FactSet) :
    (∃ message, (s.evaluateRun run facts).2 = { s with
      runs := s.runs.update (run.failedAt message s.clock)
      graphs := s.graphs.erase run.space }) ∨
    ∃ diff snapshot, (s.evaluateRun run facts).2 = { s with
      runs := s.runs.update (run.finishedAt diff s.clock)
      graphs := ⟨s.graphs.snapshots.insert run.space snapshot⟩ } := by
  let started : Run := { run with status := .analyzing }
  have hstart : run.start s.clock = .ok started := by
    simp [Run.start, Run.fire, hpending, Trigger.target?, Run.enter, RunStatus.isTerminal, started]
  have hfinish : ∀ diff now, started.finish diff now = .ok (run.finishedAt diff now) := by
    intro diff now
    simp [Run.finish, Run.fire, Trigger.target?, Run.enter, RunStatus.isTerminal, started,
      Run.finishedAt]
  have hgiveUp : ∀ (u : Service) (message : String), u.conditions.locked = false →
      (u.giveUp started message).2 = { u with
        runs := u.runs.update (run.failedAt message u.clock)
        graphs := u.graphs.erase run.space } :=
    fun u message hu => giveUp_eq hu rfl message
  have hupdate : ∀ ended : Run, run.Follows ended →
      (s.runs.update started).update ended = s.runs.update ended :=
    fun ended hended => RunStore.update_update _ hended.id.symm
  unfold evaluateRun
  simp only [hstart]
  rcases evaluate_cases (s.record started) started facts with
    ⟨message, heval⟩ | ⟨result, snapshot, heval⟩
  · left
    refine ⟨message, ?_⟩
    rw [heval]
    refine Eq.trans (hgiveUp _ message ?_) ?_
    · exact unlocked
    · simp only [record, hupdate _ (run.follows_failedAt _ _)]
  · rw [heval]
    cases result with
    | error message =>
        left
        refine ⟨message, ?_⟩
        have hspace : started.space = run.space := rfl
        refine Eq.trans (hgiveUp _ message ?_) ?_
        · exact unlocked
        · simp only [record, hupdate _ (run.follows_failedAt _ _), GraphStore.erase, hspace,
            Table.erase_insert]
    | ok diff =>
        right
        refine ⟨diff, snapshot, ?_⟩
        simp only [hfinish]
        simp only [record, hupdate _ (run.follows_finishedAt _ _)]
        rfl

end

theorem runJob_eq (s : Service) (job : Job) :
    s.runJob job = (s.runs.get? job.runId).elim s (fun run => (s.evaluateRun run job.facts).2) := by
  unfold runJob process requireRun
  cases s.runs.get? job.runId <;> rfl

/-- A job that waits no more changes its own run at most, and leaves the other jobs. -/
theorem runJob_changes (hs : s.Sound) (job : Job) (htaken : job.runId ∉ s.queue.map (·.runId))
    (hopen : ∀ run, s.runs.get? job.runId = some run → run.status ≠ .completed) :
    Changes spared s (s.runJob job) ∧ (s.runJob job).queue = s.queue ∧
      ∀ id, id ≠ job.runId → (s.runJob job).runs.get? id = s.runs.get? id := by
  rw [runJob_eq]
  cases hrun : s.runs.get? job.runId with
  | none => exact ⟨.refl, rfl, fun _ _ => rfl⟩
  | some run =>
      obtain ⟨hid, hwhole⟩ := hs.whole _ run hrun
      have hstored : s.runs.get? run.id = some run := hid ▸ hrun
      have hget := fun ended (hended : run.Follows ended) id (hne : id ≠ job.runId) =>
        (RunStore.get?_update hstored hended id).trans (if_neg (hid ▸ hne))
      rw [Option.elim_some]
      cases hstatus : run.status with
      | pending =>
          rcases evaluateRun_pending hs.unlocked hstatus job.facts with
            ⟨message, heval⟩ | ⟨diff, snapshot, heval⟩
          · rw [heval]
            exact ⟨.single (.fail s run message hstored hstatus), rfl,
              hget _ (run.follows_failedAt _ _)⟩
          · rw [heval]
            exact ⟨.single (.finish s run diff snapshot hstored hstatus (hid ▸ htaken)), rfl,
              hget _ (run.follows_finishedAt _ _)⟩
      | analyzing =>
          unfold Run.Whole at hwhole
          rw [hstatus] at hwhole
          exact hwhole.elim
      | completed => exact absurd hstatus (hopen run hrun)
      | failed =>
          have hended : run.status.isTerminal = true := by rw [hstatus]; rfl
          rw [evaluateRun_ended hs.unlocked hended]
          exact ⟨.single (.drop s run hstored hstatus), rfl, fun _ _ => rfl⟩

/-- Jobs of different runs are done one after the other. -/
theorem runJobs_changes (jobs : List Job) (hs : s.Sound) (honce : (jobs.map (·.runId)).Nodup)
    (htaken : ∀ id ∈ jobs.map (·.runId), id ∉ s.queue.map (·.runId))
    (hopen : ∀ id ∈ jobs.map (·.runId), ∀ run, s.runs.get? id = some run →
      run.status ≠ .completed) :
    Changes spared s (jobs.foldl runJob s) := by
  induction jobs generalizing s with
  | nil => exact .refl
  | cons job jobs ih =>
      rw [List.map_cons, List.nodup_cons] at honce
      have hin : job.runId ∈ (job :: jobs).map (·.runId) := List.mem_cons_self
      obtain ⟨hchanges, hqueue, hothers⟩ := runJob_changes hs job (htaken _ hin) (hopen _ hin)
      rw [List.foldl_cons]
      refine hchanges.trans (ih (Changes.sound hchanges hs) honce.2 ?_ ?_)
      · intro id hid
        rw [hqueue]
        exact htaken id (List.mem_cons_of_mem _ hid)
      · intro id hid run hrun
        have hne : id ≠ job.runId := fun heq => honce.1 (heq ▸ hid)
        rw [hothers id hne] at hrun
        exact hopen id (List.mem_cons_of_mem _ hid) run hrun

theorem drain_changes (hs : s.Sound) : Changes spared s s.drain.2 := by
  have htake : Change spared s { s with queue := [] } := .takeJobs s [] (List.nil_sublist _)
  have hnone : ∀ id ∈ s.queue.map (·.runId), id ∉ ([] : List Job).map (·.runId) :=
    fun _ _ => List.not_mem_nil
  exact .head htake (runJobs_changes s.queue (htake.sound hs) hs.jobsOnce hnone hs.waiting)

/-- A submission fails on an identifier that is taken; otherwise the run is admitted, and unless the
jobs are to wait, they are all done. -/
theorem submit_cases (s : Service) (projectId : String) (request : RunRequest) :
    s.runs.get? (runId (s.issued + 1)) ≠ none ∧
      (s.submit projectId request).2 = { s with issued := s.issued + 1 } ∨
    s.runs.get? (runId (s.issued + 1)) = none ∧
      (s.submit projectId request).2 =
        if s.deferred then s.admitted projectId request
        else (s.admitted projectId request).drain.2 := by
  have hid : (s.newRun projectId request).id = runId (s.issued + 1) := rfl
  unfold submit insertRun RunStore.insert? RunStore.get? Table.contains
  simp only [hid]
  cases s.runs.runs.find? (runId (s.issued + 1)) with
  | some run => exact .inl ⟨Option.some_ne_none run, rfl⟩
  | none => exact .inr ⟨rfl, rfl⟩

theorem submit_changes (hs : s.Sound) (projectId : String) (request : RunRequest)
    (hfresh : s.NextFresh spared) :
    Changes spared s (s.submit projectId request).2 := by
  rcases submit_cases s projectId request with ⟨_, hsubmit⟩ | ⟨hnew, hsubmit⟩
  · rw [hsubmit]
    exact .single (.draw s (s.issued + 1))
  · have haccept : Change spared s (s.admitted projectId request) :=
      .accept s projectId request hnew hfresh
    rw [hsubmit]
    split
    · exact .single haccept
    · exact .head haccept (drain_changes (haccept.sound hs))

theorem Sound.self (h : s.Sound) : s.runs.runs.All (fun id run => run.id = id) :=
  h.whole.imp fun _ _ hrun => hrun.1

/-- Runs that are listed from the store have different identifiers. -/
theorem Sound.nodup_ids (h : s.Sound) (p : Run → Bool) :
    ((s.runs.runs.values.filter p).map (·.id)).Nodup := by
  have hall : (s.runs.runs.values.map (·.id)).Nodup := by
    rw [Table.map_values h.once h.self]
    exact h.once
  exact hall.sublist (List.filter_sublist.map _)

theorem Sound.stored_of_mem (h : s.Sound) {run : Run} (hmem : run ∈ s.runs.runs.values) :
    s.runs.get? run.id = some run := (Table.mem_values_iff h.once h.self).mp hmem

theorem discardAll_changes (runs : List Run) (hs : s.Sound) (honce : (runs.map (·.id)).Nodup)
    (hstored : ∀ run ∈ runs, s.runs.get? run.id = some run ∧ run.status.isTerminal = true) :
    Changes spared s (s.discardAll runs).2 := by
  induction runs generalizing s with
  | nil => exact .refl
  | cons run runs ih =>
      rw [List.map_cons, List.nodup_cons] at honce
      obtain ⟨hrun, hended⟩ := hstored run List.mem_cons_self
      have hremove : Change spared s _ := .remove s run hrun hended
      unfold discardAll
      rw [discard_eq hs.unlocked]
      refine .head hremove (ih (hremove.sound hs) honce.2 ?_)
      intro other hother
      have hne : other.id ≠ run.id := fun heq => honce.1 (heq ▸ List.mem_map_of_mem hother)
      obtain ⟨hget, hended'⟩ := hstored other (List.mem_cons_of_mem _ hother)
      exact ⟨(RunStore.get?_erase _ _ _).trans ((if_neg hne).trans hget), hended'⟩

theorem sweep_changes (hs : s.Sound) (now : Timestamp) : Changes spared s (s.sweep now).2 := by
  refine discardAll_changes _ hs (hs.nodup_ids _) ?_
  intro run hrun
  obtain ⟨hmem, hexpired⟩ := List.mem_filter.mp hrun
  unfold RunStore.isExpired at hexpired
  rw [Bool.and_eq_true] at hexpired
  exact ⟨hs.stored_of_mem hmem, hexpired.1⟩

theorem interruptAll_changes (runs : List Run) (hs : s.Sound) (honce : (runs.map (·.id)).Nodup)
    (hstored : ∀ run ∈ runs, s.runs.get? run.id = some run ∧ run.status = .pending) :
    Changes spared s (s.interruptAll runs).2 := by
  induction runs generalizing s with
  | nil => exact .refl
  | cons run runs ih =>
      rw [List.map_cons, List.nodup_cons] at honce
      obtain ⟨hrun, hpending⟩ := hstored run List.mem_cons_self
      have hopen : run.status.isTerminal = false := by rw [hpending]; rfl
      have hfail : Change spared s _ := .fail s run interruptedMessage hrun hpending
      unfold interruptAll
      rw [interrupt_eq hs.unlocked hopen]
      refine .head hfail (ih (hfail.sound hs) honce.2 ?_)
      intro other hother
      have hne : other.id ≠ run.id := fun heq => honce.1 (heq ▸ List.mem_map_of_mem hother)
      obtain ⟨hget, hpending'⟩ := hstored other (List.mem_cons_of_mem _ hother)
      have hupdate :=
        RunStore.get?_update hrun (run.follows_failedAt interruptedMessage s.clock) other.id
      exact ⟨hupdate.trans ((if_neg hne).trans hget), hpending'⟩

/-- At rest no run is under analysis, so the active runs are the pending ones. -/
theorem Sound.active_eq (h : s.Sound) :
    s.runs.active = s.runs.runs.values.filter (·.status == .pending) := by
  have hnone : s.runs.runs.values.filter (·.status == .analyzing) = [] := by
    rw [List.filter_eq_nil_iff]
    intro run hrun hstatus
    have hwhole := (h.whole run.id run (h.stored_of_mem hrun)).2
    unfold Run.Whole at hwhole
    rw [eq_of_beq hstatus] at hwhole
    exact hwhole
  unfold RunStore.active
  rw [hnone, List.nil_append]

theorem failInterrupted_changes (hs : s.Sound) : Changes spared s s.failInterrupted.2 := by
  unfold failInterrupted
  simp only [hs.active_eq]
  refine interruptAll_changes _ hs (hs.nodup_ids _) ?_
  intro run hrun
  obtain ⟨hmem, hpending⟩ := List.mem_filter.mp hrun
  exact ⟨hs.stored_of_mem hmem, eq_of_beq hpending⟩

/-- A run is handed out to its own project only. -/
theorem get_eq_ok {projectId id : String} {run : Run} (h : s.get projectId id = .ok run) :
    s.runs.get? id = some run ∧ run.projectId = projectId := by
  unfold Service.get requireRun at h
  obtain ⟨found, hfound, h⟩ := bind_eq_ok.mp h
  cases hget : s.runs.get? id with
  | none => simp [hget] at hfound
  | some kept =>
      rw [hget] at hfound
      obtain rfl := Except.ok.inj hfound
      split at h
      · rename_i hproject
        rw [← Except.ok.inj h]
        exact ⟨rfl, hproject⟩
      · cases h

theorem delete_changes (hs : s.Sound) {projectId id : String} (h : s.delete projectId id = .ok t) :
    Changes spared s t := by
  unfold delete at h
  obtain ⟨run, hrun, h⟩ := bind_eq_ok.mp h
  have hfound := (get_eq_ok hrun).1
  have hstored : s.runs.get? run.id = some run := by
    rw [(hs.whole id run hfound).1]
    exact hfound
  split at h
  · rename_i hended
    rw [discard_eq hs.unlocked] at h
    rw [← Except.ok.inj h]
    exact .single (.remove s run hstored hended)
  · cases h

/-! ## Operations -/

/-- One operation, in surroundings where stages of an evaluation may break and stores work. No run
gets one of the spared identifiers. -/
inductive Step (spared : List String) : Service → Service → Prop
  /-- The next run has any number. -/
  | draw (s : Service) (n : Nat) : Step spared s { s with issued := n }
  /-- A graph is kept as the baseline of a project. -/
  | saveBaseline (s s' : Service) (projectId : String) (owner : Option String) (g : Graph)
      (space : g.space = baselineSpace projectId) (saved : s.saveGraph owner g = .ok s') :
      Step spared s s'
  | submit (s : Service) (projectId : String) (request : RunRequest) (fresh : s.NextFresh spared) :
      Step spared s (s.submit projectId request).2
  /-- Any waiting job is done, and then waits no more. -/
  | work (s : Service) (before after : List Job) (job : Job)
      (queue : s.queue = before ++ job :: after) :
      Step spared s ({ s with queue := before ++ after }.runJob job)
  | drain (s : Service) : Step spared s s.drain.2
  /-- A deletion that is refused changes nothing. -/
  | delete (s s' : Service) (projectId id : String) (deleted : s.delete projectId id = .ok s') :
      Step spared s s'
  | sweep (s : Service) (now : Timestamp) : Step spared s (s.sweep now).2
  | failInterrupted (s : Service) : Step spared s s.failInterrupted.2
  | restart (s : Service) (crash : Bool) : Step spared s (s.restart crash)
  | setClock (s : Service) (now : Timestamp) : Step spared s { s with clock := now }
  | defer (s : Service) (deferred : Bool) : Step spared s { s with deferred }
  | disturb (s : Service) (breaking : Option (Stage × String)) :
      Step spared s { s with conditions := { s.conditions with breaking } }

theorem work_changes (hs : s.Sound) {before after : List Job} {job : Job}
    (hqueue : s.queue = before ++ job :: after) :
    Changes spared s ({ s with queue := before ++ after }.runJob job) := by
  have hids := hs.jobsOnce
  rw [hqueue, List.map_append, List.map_cons, List.nodup_middle, List.nodup_cons] at hids
  have hjob : job.runId ∈ s.queue.map (·.runId) := by simp [hqueue]
  have hsub : (before ++ after).Sublist s.queue := by
    rw [hqueue]
    exact (List.sublist_cons_self job after).append_left before
  have htake : Change spared s { s with queue := before ++ after } := .takeJobs s _ hsub
  have hgone : job.runId ∉ (before ++ after).map (·.runId) := by simpa using hids.1
  exact .head htake (runJob_changes (htake.sound hs) job hgone (hs.waiting _ hjob)).1

theorem restart_changes (hs : s.Sound) (crash : Bool) : Changes spared s (s.restart crash) := by
  have hopened : ∀ {u : Service}, u.Sound →
      Changes spared u ({ u with deferred := false }.failInterrupted).2 := by
    intro u hu
    have hdefer : Change spared u { u with deferred := false } := .defer u false
    exact .head hdefer (failInterrupted_changes (hdefer.sound hu))
  unfold restart
  cases crash with
  | true =>
      have htake : Change spared s { s with queue := [] } := .takeJobs s [] (List.nil_sublist _)
      exact .head htake (hopened (htake.sound hs))
  | false =>
      have hdrain : Changes spared s s.drain.2 := drain_changes hs
      exact hdrain.trans (hopened (Changes.sound hdrain hs))

/-- Every operation is made of changes. -/
theorem Step.changes (h : Step spared s t) (hs : s.Sound) : Changes spared s t := by
  cases h with
  | draw n => exact .single (.draw s n)
  | saveBaseline _ projectId owner g space saved =>
      have hnamed : g.space ≠ "" := space ▸ baselineSpace_ne_empty projectId
      unfold saveGraph GraphStore.save? at saved
      simp only [hnamed, if_false] at saved
      rw [← Except.ok.inj saved, space]
      exact .single (.keepBaseline s projectId _)
  | submit projectId request fresh => exact submit_changes hs projectId request fresh
  | work before after job queue => exact work_changes hs queue
  | drain => exact drain_changes hs
  | delete _ projectId id deleted => exact delete_changes hs deleted
  | sweep now => exact sweep_changes hs now
  | failInterrupted => exact failInterrupted_changes hs
  | restart crash => exact restart_changes hs crash
  | setClock now => exact .single (.setClock s now)
  | defer deferred => exact .single (.defer s deferred)
  | disturb breaking => exact .single (.disturb s breaking)

/-- A state that operations lead to from empty stores. -/
inductive Reachable (policy : Policy) : Service → Prop
  | start (clock : Timestamp) : Reachable policy (new policy clock)
  | step {s t : Service} : Reachable policy s → Step [] s t → Reachable policy t

theorem Reachable.sound {policy : Policy} (h : Reachable policy s) : s.Sound := by
  induction h with
  | start clock => exact sound_new policy clock
  | step _ hstep ih => exact Changes.sound (hstep.changes ih) ih

theorem changes_of_steps (h : Relation.ReflTransGen (Step spared) s t) (hs : s.Sound) :
    Changes spared s t := by
  induction h with
  | refl => exact .refl
  | tail _ hstep ih => exact ih.trans (hstep.changes (Changes.sound ih hs))

/-! ## All or nothing -/

/-- What is stored of a run, its graph included, goes with its status. -/
structure InOrder (s : Service) (run : Run) : Prop where
  atRest : run.status ≠ .analyzing
  completed_iff : run.status = .completed ↔ run.diff.isSome = true
  completed : run.status = .completed → run.completedAt.isSome = true ∧ run.errorMessage = none ∧
    s.graphs.contains run.space = true
  failed : run.status = .failed → run.errorMessage.isSome = true ∧ run.completedAt.isSome = true ∧
    run.diff = none ∧ s.graphs.contains run.space = false
  pending : run.status = .pending → run.diff = none ∧ run.errorMessage = none ∧
    run.completedAt = none ∧ s.graphs.contains run.space = false

theorem Sound.inOrder (h : s.Sound) {run : Run} (hrun : s.runs.get? run.id = some run) :
    s.InOrder run := by
  have hwhole := (h.whole run.id run hrun).2
  have hgraph : s.graphs.contains run.space = true ↔ run.status = .completed :=
    (Table.contains_iff _ _).trans (h.space_mem_iff hrun)
  unfold Run.Whole at hwhole
  cases hstatus : run.status with
  | pending =>
      rw [hstatus] at hwhole hgraph
      constructor <;> simp_all
  | analyzing =>
      rw [hstatus] at hwhole
      exact hwhole.elim
  | completed =>
      rw [hstatus] at hwhole hgraph
      constructor <;> simp_all
  | failed =>
      rw [hstatus] at hwhole hgraph
      constructor <;> simp_all

structure AllOrNothing (s : Service) : Prop where
  runs : ∀ run ∈ s.runs.runs.values, s.InOrder run
  /-- Whatever is kept is a baseline or the graph of a completed run. -/
  kept : ∀ space, s.graphs.contains space = true → (∃ projectId, space = baselineSpace projectId) ∨
    ∃ run ∈ s.runs.runs.values, run.status = .completed ∧ space = run.space
  /-- What is kept in the space of a run is the graph of that very run. -/
  candidates : ∀ projectId n, s.graphs.contains (candidateSpace projectId (runId n)) = true →
    ∃ run ∈ s.runs.runs.values, run.status = .completed ∧ run.projectId = projectId ∧
      run.id = runId n
  /-- However the operations go on, a run that has ended stays as it is until it is removed together
  with its graph, and does not come back unless its identifier is given again. -/
  ended : ∀ run ∈ s.runs.runs.values, run.status.isTerminal = true →
    ∀ t, Relation.ReflTransGen (Step [run.id]) s t → Stays run s t ∨ Gone run t

/-- **Candidate runs are all or nothing** in every state that operations lead to from empty
stores. -/
theorem candidate_runs_all_or_nothing (policy : Policy) (s : Service) (h : Reachable policy s) :
    s.AllOrNothing := by
  have hs := h.sound
  have hmem : ∀ {run : Run}, s.runs.get? run.id = some run → run ∈ s.runs.runs.values :=
    fun hrun => List.mem_map_of_mem (Table.mem_entries_of_find? hrun)
  constructor
  · exact fun run hrun => hs.inOrder (hs.stored_of_mem hrun)
  · intro space hspace
    rcases hs.spaces space ((Table.contains_iff _ _).mp hspace) with
      hbaseline | ⟨run, hrun, hcompleted, heq⟩
    · exact .inl hbaseline
    · exact .inr ⟨run, hmem hrun, hcompleted, heq⟩
  · intro projectId n hspace
    rcases hs.spaces _ ((Table.contains_iff _ _).mp hspace) with
      ⟨p, hp⟩ | ⟨run, hrun, hcompleted, heq⟩
    · exact absurd hp (candidateSpace_ne_baselineSpace _ _ _)
    · obtain ⟨m, hm⟩ := hs.numbered run.id run hrun
      unfold Run.space at heq
      rw [hm] at heq
      obtain ⟨hproject, hnumber⟩ := candidateSpace_injective heq
      exact ⟨run, hmem hrun, hcompleted, hproject.symm, hnumber ▸ hm⟩
  · intro run hrun hended t ht
    exact Changes.lasting (changes_of_steps ht hs) hs (hs.stored_of_mem hrun) hended

/-! A run is failed while its job waits, and then two jobs are done: that of the failed run, and
that of a second one. -/

def freshService : Service := new ⟨80, 24, 100⟩ ⟨2026, 1, 1, 0, 0, 0, 0, some 0⟩

def featureRequest : RunRequest := ⟨"feature", "main", none, ⟨"shop", [], ∅, false⟩⟩

def jobWaiting : Service := ({ freshService with deferred := true }.submit "shop" featureRequest).2

def runInterrupted : Service := jobWaiting.failInterrupted.2

def bothDone : Service := ({ runInterrupted with deferred := false }.submit "shop" featureRequest).2

theorem bothDone_all_or_nothing :
    bothDone.runs.runs.values.map (·.status) = [.failed, .completed] ∧
      Reachable ⟨80, 24, 100⟩ bothDone ∧ bothDone.AllOrNothing := by
  have hwaiting : Reachable ⟨80, 24, 100⟩ jobWaiting :=
    .step (.step (.start _) (.defer _ true)) (.submit _ "shop" featureRequest (by decide))
  have hfresh : { runInterrupted with deferred := false }.NextFresh [] := by decide +kernel
  have hreachable : Reachable ⟨80, 24, 100⟩ bothDone :=
    .step (.step (.step hwaiting (.failInterrupted _)) (.defer _ false))
      (.submit _ "shop" featureRequest hfresh)
  exact ⟨by decide +kernel, hreachable, candidate_runs_all_or_nothing _ _ hreachable⟩

end Service

end ArchGraph
