import ArchGraph.Proofs.Spaces
import ArchGraph.Proofs.Table
import Mathlib.Data.List.Nodup
import Mathlib.Logic.Relation

/-!
What can happen to candidate runs. `Change` lists the changes of the stores and the waiting jobs,
each with what it needs. What holds in every state (`Sound`) and what becomes of a run that has
ended (`Stays`, `Gone`) takes one case for each change (`Change.sound`, `Change.lasting`), and then
holds of any number of them (`Changes.sound`, `Changes.lasting`).
-/

namespace ArchGraph

/-! ## Runs and their store -/

namespace Run

/-- The space that the graph of a run belongs to. -/
def space (run : Run) : String := candidateSpace run.projectId run.id

def failedAt (run : Run) (message : String) (now : Timestamp) : Run :=
  { run with
    status := .failed
    errorMessage := some message
    completedAt := run.completedAt.or (some now) }

def finishedAt (run : Run) (diff : GraphDiff) (now : Timestamp) : Run :=
  { run with
    status := .completed
    diff := some diff
    completedAt := run.completedAt.or (some now) }

/-- The runs differ only in how far they have come. -/
def Follows (run ended : Run) : Prop :=
  ended = { run with
    status := ended.status
    errorMessage := ended.errorMessage
    diff := ended.diff
    completedAt := ended.completedAt }

theorem Follows.id {run ended : Run} (h : run.Follows ended) : ended.id = run.id := by rw [h]

theorem Follows.space {run ended : Run} (h : run.Follows ended) : ended.space = run.space := by
  rw [h]
  rfl

theorem follows_failedAt (run : Run) (message : String) (now : Timestamp) :
    run.Follows (run.failedAt message now) := rfl

theorem follows_finishedAt (run : Run) (diff : GraphDiff) (now : Timestamp) :
    run.Follows (run.finishedAt diff now) := rfl

/-- What is recorded of a run goes with its status. No run that is at rest is under analysis. -/
def Whole (run : Run) : Prop :=
  match run.status with
  | .pending => run.diff = none ∧ run.errorMessage = none ∧ run.completedAt = none
  | .analyzing => False
  | .completed => run.diff.isSome = true ∧ run.errorMessage = none ∧ run.completedAt.isSome = true
  | .failed => run.diff = none ∧ run.errorMessage.isSome = true ∧ run.completedAt.isSome = true

theorem whole_pending {run : Run} (h : run.Whole) (hp : run.status = .pending) :
    run.diff = none ∧ run.errorMessage = none ∧ run.completedAt = none := by
  unfold Whole at h
  rwa [hp] at h

theorem whole_failedAt {run : Run} (h : run.Whole) (hp : run.status = .pending) (message : String)
    (now : Timestamp) : (run.failedAt message now).Whole := by
  obtain ⟨hdiff, _, hcompleted⟩ := whole_pending h hp
  simp [Whole, failedAt, hdiff, hcompleted]

theorem whole_finishedAt {run : Run} (h : run.Whole) (hp : run.status = .pending) (diff : GraphDiff)
    (now : Timestamp) : (run.finishedAt diff now).Whole := by
  obtain ⟨_, herror, hcompleted⟩ := whole_pending h hp
  simp [Whole, finishedAt, herror, hcompleted]

theorem fail_eq {run : Run} (h : run.status.isTerminal = false) (message : String)
    (now : Timestamp) :
    run.fail message now = .ok (run.failedAt message now) := by
  cases hs : run.status with
  | pending => simp [fail, fire, hs, Trigger.target?, enter, RunStatus.isTerminal, failedAt]
  | analyzing => simp [fail, fire, hs, Trigger.target?, enter, RunStatus.isTerminal, failedAt]
  | completed => simp [hs, RunStatus.isTerminal] at h
  | failed => simp [hs, RunStatus.isTerminal] at h

theorem terminal_iff (status : RunStatus) :
    status.isTerminal = true ↔ status = .completed ∨ status = .failed := by
  cases status <;> simp [RunStatus.isTerminal]

/-- A run that has ended refuses whatever it is asked. -/
theorem fire_ended {run : Run} (h : run.status.isTerminal = true) (trigger : Trigger)
    (now : Timestamp) (change : Run → Run) :
    run.fire trigger now change = .error (run.invalidTransition trigger) := by
  rcases (terminal_iff run.status).mp h with hs | hs <;> cases trigger <;>
    simp [fire, hs, Trigger.target?]

/-- A run that is moved on keeps its identifier and its project. -/
theorem of_fire {trigger : Trigger} {now : Timestamp} {change : Run → Run} {run next : Run}
    (h : run.fire trigger now change = .ok next) :
    next.id = (change run).id ∧ next.projectId = (change run).projectId := by
  unfold fire at h
  split at h
  · rw [← Except.ok.inj h]
    exact ⟨rfl, rfl⟩
  · cases h

end Run

namespace RunStore

theorem get?_update_eq (s : RunStore) (run : Run) (id : String) :
    (s.update run).get? id = if id = run.id then
      (s.get? run.id).map (fun kept =>
        { kept with
          status := run.status
          errorMessage := run.errorMessage
          diff := run.diff
          completedAt := run.completedAt })
    else s.get? id :=
  Table.find?_modify ..

/-- Recording how far a stored run has come. -/
theorem get?_update {s : RunStore} {run ended : Run} (hrun : s.get? run.id = some run)
    (hended : run.Follows ended) (id : String) :
    (s.update ended).get? id = if id = run.id then some ended else s.get? id := by
  rw [get?_update_eq, hended.id, hrun, Option.map_some]
  split
  · exact congrArg some hended.symm
  · rfl

theorem update_update (s : RunStore) {a b : Run} (h : a.id = b.id) :
    (s.update a).update b = s.update b := by
  unfold update
  rw [h, Table.modify_modify]

theorem get?_erase (s : RunStore) (id other : String) :
    (s.erase id).get? other = if other = id then none else s.get? other :=
  Table.find?_erase ..

end RunStore

namespace Service

/-! ## What can happen -/

/-- The service with one more pending run and its job. -/
def admitted (s : Service) (projectId : String) (request : RunRequest) : Service :=
  { s with
    issued := s.issued + 1
    runs := ⟨s.runs.runs.insert (runId (s.issued + 1)) (s.newRun projectId request)⟩
    queue := s.queue ++ [⟨runId (s.issued + 1), request.facts⟩] }

/-- The next run gets an identifier that no waiting job has, and none that is spared. -/
def NextFresh (s : Service) (spared : List String) : Prop :=
  runId (s.issued + 1) ∉ s.queue.map (·.runId) ∧ runId (s.issued + 1) ∉ spared

instance (s : Service) (spared : List String) : Decidable (s.NextFresh spared) :=
  inferInstanceAs (Decidable (_ ∧ _))

/-- One change of the stores, of the waiting jobs or of the surroundings. No run gets one of the
spared identifiers. -/
inductive Change (spared : List String) : Service → Service → Prop
  | draw (s : Service) (n : Nat) : Change spared s { s with issued := n }
  | setClock (s : Service) (now : Timestamp) : Change spared s { s with clock := now }
  | defer (s : Service) (deferred : Bool) : Change spared s { s with deferred }
  | disturb (s : Service) (breaking : Option (Stage × String)) :
      Change spared s { s with conditions := { s.conditions with breaking } }
  | takeJobs (s : Service) (queue : List Job) (left : queue.Sublist s.queue) :
      Change spared s { s with queue }
  | keepBaseline (s : Service) (projectId : String) (snapshot : Snapshot) :
      Change spared s
        { s with graphs := ⟨s.graphs.snapshots.insert (baselineSpace projectId) snapshot⟩ }
  | accept (s : Service) (projectId : String) (request : RunRequest)
      (new : s.runs.get? (runId (s.issued + 1)) = none) (fresh : s.NextFresh spared) :
      Change spared s (s.admitted projectId request)
  | fail (s : Service) (run : Run) (message : String) (stored : s.runs.get? run.id = some run)
      (pending : run.status = .pending) :
      Change spared s { s with
        runs := s.runs.update (run.failedAt message s.clock)
        graphs := s.graphs.erase run.space }
  | finish (s : Service) (run : Run) (diff : GraphDiff) (snapshot : Snapshot)
      (stored : s.runs.get? run.id = some run) (pending : run.status = .pending)
      (taken : run.id ∉ s.queue.map (·.runId)) :
      Change spared s { s with
        runs := s.runs.update (run.finishedAt diff s.clock)
        graphs := ⟨s.graphs.snapshots.insert run.space snapshot⟩ }
  | drop (s : Service) (run : Run) (stored : s.runs.get? run.id = some run)
      (failed : run.status = .failed) :
      Change spared s { s with graphs := s.graphs.erase run.space }
  | remove (s : Service) (run : Run) (stored : s.runs.get? run.id = some run)
      (ended : run.status.isTerminal = true) :
      Change spared s { s with runs := s.runs.erase run.id, graphs := s.graphs.erase run.space }

/-! ## What holds in every state -/

/-- A stored run is completed and this is its space. -/
def OfCompleted (s : Service) (space : String) : Prop :=
  ∃ run, s.runs.get? run.id = some run ∧ run.status = .completed ∧ space = run.space

structure Sound (s : Service) : Prop where
  once : s.runs.runs.Distinct
  whole : s.runs.runs.All (fun id run => run.id = id ∧ run.Whole)
  numbered : s.runs.runs.All (fun id _ => ∃ n, id = runId n)
  spaces : ∀ space ∈ s.graphs.snapshots.keys, (∃ p, space = baselineSpace p) ∨ s.OfCompleted space
  kept : ∀ space, s.OfCompleted space → space ∈ s.graphs.snapshots.keys
  jobsOnce : (s.queue.map (·.runId)).Nodup
  waiting : ∀ id ∈ s.queue.map (·.runId), ∀ run, s.runs.get? id = some run →
    run.status ≠ .completed
  unlocked : s.conditions.locked = false

variable {s t : Service} {spared : List String}

theorem Sound.space_ne_baselineSpace (h : s.Sound) {run : Run}
    (hrun : s.runs.get? run.id = some run)
    (projectId : String) : run.space ≠ baselineSpace projectId := by
  obtain ⟨n, hn⟩ := h.numbered run.id run hrun
  unfold Run.space
  rw [hn]
  exact candidateSpace_ne_baselineSpace _ _ _

theorem id_of_space {a b : Run} {m n : Nat} (ha : a.id = runId m) (hb : b.id = runId n)
    (heq : a.space = b.space) : a.id = b.id := by
  unfold Run.space at heq
  rw [ha, hb] at heq ⊢
  rw [(candidateSpace_injective heq).2]

theorem Sound.id_of_space (h : s.Sound) {a b : Run} (ha : s.runs.get? a.id = some a)
    (hb : s.runs.get? b.id = some b) (heq : a.space = b.space) : a.id = b.id := by
  obtain ⟨m, hm⟩ := h.numbered a.id a ha
  obtain ⟨n, hn⟩ := h.numbered b.id b hb
  exact Service.id_of_space hm hn heq

theorem Sound.eq_of_space (h : s.Sound) {a b : Run} (ha : s.runs.get? a.id = some a)
    (hb : s.runs.get? b.id = some b) (heq : a.space = b.space) : a = b := by
  rw [h.id_of_space ha hb heq, hb] at ha
  exact (Option.some.inj ha).symm

/-- The graph of a run is kept just while the run is completed. -/
theorem Sound.space_mem_iff (h : s.Sound) {run : Run} (hrun : s.runs.get? run.id = some run) :
    run.space ∈ s.graphs.snapshots.keys ↔ run.status = .completed := by
  constructor
  · intro hmem
    rcases h.spaces run.space hmem with ⟨p, hp⟩ | ⟨other, hother, hcompleted, hspace⟩
    · exact absurd hp (h.space_ne_baselineSpace hrun p)
    · rw [h.eq_of_space hrun hother hspace]
      exact hcompleted
  · intro hcompleted
    exact h.kept run.space ⟨run, hrun, hcompleted, rfl⟩

theorem sound_new (policy : Policy) (clock : Timestamp) : (new policy clock).Sound where
  once := List.nodup_nil
  whole := Table.All.empty
  numbered := Table.All.empty
  spaces := by simp [new, GraphStore.empty]
  kept := by
    rintro space ⟨run, hrun, _⟩
    cases hrun
  jobsOnce := List.nodup_nil
  waiting := by simp [new]
  unlocked := rfl

theorem Sound.keepBaseline (h : s.Sound) (projectId : String) (snapshot : Snapshot) :
    Sound { s with graphs := ⟨s.graphs.snapshots.insert (baselineSpace projectId) snapshot⟩ } where
  once := h.once
  whole := h.whole
  numbered := h.numbered
  spaces := by
    intro space hspace
    rw [Table.keys_insert, mem_addNew] at hspace
    rcases hspace with hspace | rfl
    · exact h.spaces space hspace
    · exact .inl ⟨projectId, rfl⟩
  kept := by
    intro space hspace
    rw [Table.keys_insert, mem_addNew]
    exact .inl (h.kept space hspace)
  jobsOnce := h.jobsOnce
  waiting := h.waiting
  unlocked := h.unlocked

theorem get?_admitted (s : Service) (projectId : String) (request : RunRequest) (id : String) :
    (s.admitted projectId request).runs.get? id =
      if id = runId (s.issued + 1) then some (s.newRun projectId request) else s.runs.get? id :=
  Table.find?_insert ..

theorem Sound.accept (h : s.Sound) (projectId : String) (request : RunRequest)
    (new : s.runs.get? (runId (s.issued + 1)) = none)
    (hfresh : runId (s.issued + 1) ∉ s.queue.map (·.runId)) :
    (s.admitted projectId request).Sound where
  once := Table.distinct_insert h.once _ _
  whole := h.whole.insert ⟨rfl, rfl, rfl, rfl⟩
  numbered := h.numbered.insert ⟨s.issued + 1, rfl⟩
  spaces := by
    intro space hspace
    rcases h.spaces space hspace with hbaseline | ⟨run, hrun, hcompleted, heq⟩
    · exact .inl hbaseline
    · have hother : run.id ≠ runId (s.issued + 1) := by
        intro hid
        rw [hid, new] at hrun
        cases hrun
      refine .inr ⟨run, ?_, hcompleted, heq⟩
      rw [get?_admitted, if_neg hother]
      exact hrun
  kept := by
    rintro space ⟨run, hrun, hcompleted, heq⟩
    rw [get?_admitted] at hrun
    split at hrun
    · -- The new run is pending.
      rw [← Option.some.inj hrun] at hcompleted
      cases hcompleted
    · exact h.kept space ⟨run, hrun, hcompleted, heq⟩
  jobsOnce := by
    simp only [admitted, List.map_append, List.map_cons, List.map_nil]
    rw [List.nodup_append]
    refine ⟨h.jobsOnce, by simp, ?_⟩
    rintro a ha b hb rfl
    rw [List.mem_singleton.mp hb] at ha
    exact hfresh ha
  waiting := by
    intro id hid run hrun
    simp only [admitted, List.map_append, List.map_cons, List.map_nil, List.mem_append,
      List.mem_singleton] at hid
    rw [get?_admitted] at hrun
    split at hrun
    · rw [← Option.some.inj hrun]
      intro hcompleted
      cases hcompleted
    · rename_i hother
      exact h.waiting id (hid.resolve_right hother) run hrun
  unlocked := h.unlocked

/-- A pending run ends. Only its record and what is kept in its space change, and its graph is kept
just if it is completed, in which case no job waits for it. -/
theorem Sound.settle (h : s.Sound) {run ended : Run} {graphs : GraphStore}
    (hrun : s.runs.get? run.id = some run) (hpending : run.status = .pending)
    (hended : run.Follows ended) (hwhole : ended.Whole)
    (hothers : ∀ space, space ≠ run.space →
      (space ∈ graphs.snapshots.keys ↔ space ∈ s.graphs.snapshots.keys))
    (hown : run.space ∈ graphs.snapshots.keys ↔ ended.status = .completed)
    (htaken : ended.status = .completed → run.id ∉ s.queue.map (·.runId)) :
    Sound { s with runs := s.runs.update ended, graphs := graphs } := by
  have hget := RunStore.get?_update hrun hended
  have hself : (s.runs.update ended).get? ended.id = some ended := by
    rw [hget, if_pos hended.id]
  constructor
  · exact Table.distinct_modify h.once _ _
  · intro id other hother
    have hfound : (s.runs.update ended).get? id = some other := hother
    rw [hget] at hfound
    split at hfound
    · rename_i hid
      rw [← Option.some.inj hfound, hid]
      exact ⟨hended.id, hwhole⟩
    · exact h.whole id other hfound
  · intro id other hother
    have hfound : (s.runs.update ended).get? id = some other := hother
    rw [hget] at hfound
    split at hfound
    · rename_i hid
      rw [hid]
      exact h.numbered run.id run hrun
    · exact h.numbered id other hfound
  · intro space hspace
    by_cases hmine : space = run.space
    · rw [hmine] at hspace ⊢
      exact .inr ⟨ended, hself, hown.mp hspace, hended.space.symm⟩
    · rcases h.spaces space ((hothers space hmine).mp hspace) with hbaseline | hcompleted
      · exact .inl hbaseline
      · obtain ⟨other, hother, hcompleted, heq⟩ := hcompleted
        have hne : other.id ≠ run.id := by
          intro hid
          rw [hid, hrun] at hother
          rw [← Option.some.inj hother, hpending] at hcompleted
          cases hcompleted
        refine .inr ⟨other, ?_, hcompleted, heq⟩
        change (s.runs.update ended).get? other.id = some other
        rw [hget, if_neg hne, hother]
  · rintro space ⟨other, hother, hcompleted, heq⟩
    have hfound : (s.runs.update ended).get? other.id = some other := hother
    rw [hget] at hfound
    split at hfound
    · rw [heq, ← Option.some.inj hfound, hended.space]
      rw [← Option.some.inj hfound] at hcompleted
      exact hown.mpr hcompleted
    · rename_i hne
      have hapart : space ≠ run.space := by
        rw [heq]
        exact fun hsame => hne (h.id_of_space hfound hrun hsame)
      exact (hothers space hapart).mpr (h.kept space ⟨other, hfound, hcompleted, heq⟩)
  · exact h.jobsOnce
  · intro id hid other hother hcompleted
    have hfound : (s.runs.update ended).get? id = some other := hother
    rw [hget] at hfound
    split at hfound
    · rename_i hmine
      rw [← Option.some.inj hfound] at hcompleted
      exact htaken hcompleted (hmine ▸ hid)
    · exact h.waiting id hid other hfound hcompleted
  · exact h.unlocked

theorem mem_erase_iff (graphs : GraphStore) (space other : String) :
    other ∈ (graphs.erase space).snapshots.keys ↔
      other ∈ graphs.snapshots.keys ∧ other ≠ space := by
  have hkeys : (graphs.erase space).snapshots.keys = graphs.snapshots.keys.filter (· ≠ space) :=
    Table.keys_erase ..
  rw [hkeys, List.mem_filter, decide_eq_true_iff]

theorem Sound.fail (h : s.Sound) {run : Run} (hrun : s.runs.get? run.id = some run)
    (hpending : run.status = .pending) (message : String) :
    Sound { s with
      runs := s.runs.update (run.failedAt message s.clock)
      graphs := s.graphs.erase run.space } := by
  have hwhole := (h.whole run.id run hrun).2
  apply h.settle hrun hpending
  · exact run.follows_failedAt _ _
  · exact Run.whole_failedAt hwhole hpending message s.clock
  · intro space hspace
    rw [mem_erase_iff]
    exact and_iff_left hspace
  · rw [mem_erase_iff]
    simp [Run.failedAt]
  · intro hcompleted
    cases hcompleted

theorem Sound.finish (h : s.Sound) {run : Run} (hrun : s.runs.get? run.id = some run)
    (hpending : run.status = .pending) (htaken : run.id ∉ s.queue.map (·.runId)) (diff : GraphDiff)
    (snapshot : Snapshot) :
    Sound { s with
      runs := s.runs.update (run.finishedAt diff s.clock)
      graphs := ⟨s.graphs.snapshots.insert run.space snapshot⟩ } := by
  have hwhole := (h.whole run.id run hrun).2
  apply h.settle hrun hpending
  · exact run.follows_finishedAt _ _
  · exact Run.whole_finishedAt hwhole hpending diff s.clock
  · intro space hspace
    rw [Table.keys_insert, mem_addNew]
    exact or_iff_left hspace
  · rw [Table.keys_insert, mem_addNew]
    simp [Run.finishedAt]
  · exact fun _ => htaken

/-- What is dropped for a run that is not completed was not kept. -/
theorem Sound.drop (h : s.Sound) {run : Run} (hrun : s.runs.get? run.id = some run)
    (hfailed : run.status = .failed) : Sound { s with graphs := s.graphs.erase run.space } := by
  have hnone : run.space ∉ s.graphs.snapshots.keys := by
    rw [h.space_mem_iff hrun, hfailed]
    intro heq
    cases heq
  have hkeys : ∀ space, space ∈ (s.graphs.erase run.space).snapshots.keys ↔
      space ∈ s.graphs.snapshots.keys := by
    intro space
    rw [mem_erase_iff]
    exact and_iff_left_of_imp fun hmem heq => hnone (heq ▸ hmem)
  exact
    { once := h.once
      whole := h.whole
      numbered := h.numbered
      spaces := fun space hspace => h.spaces space ((hkeys space).mp hspace)
      kept := fun space hspace => (hkeys space).mpr (h.kept space hspace)
      jobsOnce := h.jobsOnce
      waiting := h.waiting
      unlocked := h.unlocked }

theorem Sound.remove (h : s.Sound) {run : Run} (hrun : s.runs.get? run.id = some run) :
    Sound { s with runs := s.runs.erase run.id, graphs := s.graphs.erase run.space } := by
  have hget := RunStore.get?_erase s.runs run.id
  constructor
  · exact Table.distinct_erase h.once _
  · exact h.whole.erase _
  · exact h.numbered.erase _
  · intro space hspace
    obtain ⟨hspace, hapart⟩ := (mem_erase_iff _ _ _).mp hspace
    rcases h.spaces space hspace with hbaseline | ⟨other, hother, hcompleted, heq⟩
    · exact .inl hbaseline
    · have hne : other.id ≠ run.id := by
        intro hid
        rw [hid, hrun] at hother
        rw [heq, Option.some.inj hother] at hapart
        exact hapart rfl
      refine .inr ⟨other, ?_, hcompleted, heq⟩
      change (s.runs.erase run.id).get? other.id = some other
      rw [hget, if_neg hne, hother]
  · rintro space ⟨other, hother, hcompleted, heq⟩
    have hfound : (s.runs.erase run.id).get? other.id = some other := hother
    rw [hget] at hfound
    split at hfound
    · cases hfound
    · rename_i hne
      refine (mem_erase_iff _ _ _).mpr ⟨h.kept space ⟨other, hfound, hcompleted, heq⟩, ?_⟩
      rw [heq]
      exact fun hsame => hne (h.id_of_space hfound hrun hsame)
  · exact h.jobsOnce
  · intro id hid other hother
    have hfound : (s.runs.erase run.id).get? id = some other := hother
    rw [hget] at hfound
    split at hfound
    · cases hfound
    · exact h.waiting id hid other hfound
  · exact h.unlocked

/-- Every change keeps the stores sound. -/
theorem Change.sound (h : Change spared s t) (hs : s.Sound) : t.Sound := by
  cases h with
  | draw | setClock | defer | disturb => exact { hs with }
  | takeJobs queue left =>
      have hids := left.map (·.runId)
      exact
        { hs with
          jobsOnce := hs.jobsOnce.sublist hids
          waiting := fun id hid => hs.waiting id (hids.subset hid) }
  | keepBaseline projectId snapshot => exact hs.keepBaseline projectId snapshot
  | accept projectId request new fresh => exact hs.accept projectId request new fresh.1
  | fail run message stored pending => exact hs.fail stored pending message
  | finish run diff snapshot stored pending taken =>
      exact hs.finish stored pending taken diff snapshot
  | drop run stored failed => exact hs.drop stored failed
  | remove run stored ended => exact hs.remove stored

/-! ## Runs that have ended -/

/-- A run and its graph are as they were. -/
def Stays (run : Run) (s t : Service) : Prop :=
  t.runs.get? run.id = some run ∧
    t.graphs.snapshots.find? run.space = s.graphs.snapshots.find? run.space

/-- A run was removed together with its graph. -/
def Gone (run : Run) (t : Service) : Prop :=
  t.runs.get? run.id = none ∧ t.graphs.snapshots.find? run.space = none

theorem find?_graphs_erase (graphs : GraphStore) (space other : String) :
    (graphs.erase space).snapshots.find? other =
      if other = space then none else graphs.snapshots.find? other := Table.find?_erase ..

/-- A run that has ended stays as it is, or is removed together with its graph. -/
theorem Change.lasting (h : Change spared s t) (hs : s.Sound) {run : Run}
    (hrun : s.runs.get? run.id = some run) (hended : run.status.isTerminal = true) :
    Stays run s t ∨ Gone run t := by
  have hapart : ∀ other : Run, s.runs.get? other.id = some other → other.status = .pending →
      run.id ≠ other.id ∧ run.space ≠ other.space := by
    intro other hother hpending
    have hne : run ≠ other := by
      rintro rfl
      rw [hpending] at hended
      cases hended
    constructor
    · intro hid
      rw [hid, hother] at hrun
      exact hne (Option.some.inj hrun).symm
    · exact fun hspace => hne (hs.eq_of_space hrun hother hspace)
  cases h with
  | draw | setClock | defer | disturb | takeJobs => exact .inl ⟨hrun, rfl⟩
  | keepBaseline projectId snapshot =>
      refine .inl ⟨hrun, ?_⟩
      rw [Table.find?_insert, if_neg (hs.space_ne_baselineSpace hrun projectId)]
  | accept projectId request new fresh =>
      refine .inl ⟨?_, rfl⟩
      have hne : run.id ≠ runId (s.issued + 1) := by
        intro hid
        rw [hid, new] at hrun
        cases hrun
      rw [get?_admitted, if_neg hne, hrun]
  | fail other message stored pending =>
      obtain ⟨hid, hspace⟩ := hapart other stored pending
      refine .inl ⟨?_, ?_⟩
      · rw [RunStore.get?_update stored (other.follows_failedAt _ _), if_neg hid, hrun]
      · rw [find?_graphs_erase, if_neg hspace]
  | finish other diff snapshot stored pending taken =>
      obtain ⟨hid, hspace⟩ := hapart other stored pending
      refine .inl ⟨?_, ?_⟩
      · rw [RunStore.get?_update stored (other.follows_finishedAt _ _), if_neg hid, hrun]
      · rw [Table.find?_insert, if_neg hspace]
  | drop other stored failed =>
      refine .inl ⟨hrun, ?_⟩
      rw [find?_graphs_erase]
      split
      · -- There is nothing in the space of a failed run.
        rename_i hspace
        rw [eq_comm, Table.find?_eq_none_iff, hspace, hs.space_mem_iff stored, failed]
        intro heq
        cases heq
      · rfl
  | remove other stored ended =>
      by_cases hid : run.id = other.id
      · have hsame : run = other := by
          rw [hid, stored] at hrun
          exact (Option.some.inj hrun).symm
        refine .inr ⟨?_, ?_⟩
        · rw [RunStore.get?_erase, if_pos hid]
        · rw [find?_graphs_erase, if_pos (congrArg Run.space hsame)]
      · refine .inl ⟨?_, ?_⟩
        · rw [RunStore.get?_erase, if_neg hid, hrun]
        · rw [find?_graphs_erase, if_neg fun hspace => hid (hs.id_of_space hrun stored hspace)]

/-- What has a spared identifier does not come back. -/
theorem Change.gone (h : Change spared s t) (hs : s.Sound) {run : Run} {n : Nat}
    (hid : run.id = runId n) (hspared : run.id ∈ spared) (hgone : Gone run s) : Gone run t := by
  obtain ⟨hnone, hgraph⟩ := hgone
  have hapart : ∀ other : Run, s.runs.get? other.id = some other →
      run.id ≠ other.id ∧ run.space ≠ other.space := by
    intro other hother
    have hne : run.id ≠ other.id := by
      intro heq
      rw [heq, hother] at hnone
      cases hnone
    refine ⟨hne, fun hspace => ?_⟩
    obtain ⟨m, hm⟩ := hs.numbered other.id other hother
    exact hne (id_of_space hid hm hspace)
  cases h with
  | draw | setClock | defer | disturb | takeJobs => exact ⟨hnone, hgraph⟩
  | keepBaseline projectId snapshot =>
      have hne : run.space ≠ baselineSpace projectId := by
        unfold Run.space
        rw [hid]
        exact candidateSpace_ne_baselineSpace _ _ _
      refine ⟨hnone, ?_⟩
      rw [Table.find?_insert, if_neg hne, hgraph]
  | accept projectId request new fresh =>
      have hne : run.id ≠ runId (s.issued + 1) := fun heq => fresh.2 (heq ▸ hspared)
      refine ⟨?_, hgraph⟩
      rw [get?_admitted, if_neg hne, hnone]
  | fail other message stored pending =>
      obtain ⟨hne, _⟩ := hapart other stored
      refine ⟨?_, ?_⟩
      · rw [RunStore.get?_update stored (other.follows_failedAt _ _), if_neg hne, hnone]
      · rw [find?_graphs_erase, hgraph, ite_self]
  | finish other diff snapshot stored pending taken =>
      obtain ⟨hne, hspace⟩ := hapart other stored
      refine ⟨?_, ?_⟩
      · rw [RunStore.get?_update stored (other.follows_finishedAt _ _), if_neg hne, hnone]
      · rw [Table.find?_insert, if_neg hspace, hgraph]
  | drop other stored failed =>
      refine ⟨hnone, ?_⟩
      rw [find?_graphs_erase, hgraph, ite_self]
  | remove other stored ended =>
      refine ⟨?_, ?_⟩
      · rw [RunStore.get?_erase, hnone, ite_self]
      · rw [find?_graphs_erase, hgraph, ite_self]

/-! ## Sequences of changes -/

/-- Any number of changes, one after the other. -/
abbrev Changes (spared : List String) : Service → Service → Prop :=
  Relation.ReflTransGen (Change spared)

theorem Changes.sound (h : Changes spared s t) (hs : s.Sound) : t.Sound := by
  induction h with
  | refl => exact hs
  | tail _ hchange ih => exact hchange.sound ih

theorem Changes.lasting {run : Run} (h : Changes [run.id] s t) (hs : s.Sound)
    (hrun : s.runs.get? run.id = some run) (hended : run.status.isTerminal = true) :
    Stays run s t ∨ Gone run t := by
  obtain ⟨n, hid⟩ := hs.numbered run.id run hrun
  induction h with
  | refl => exact .inl ⟨hrun, rfl⟩
  | tail hchanges hchange ih =>
      have hmid := Changes.sound hchanges hs
      rcases ih with ⟨hstored, hgraph⟩ | hgone
      · rcases hchange.lasting hmid hstored hended with ⟨hstored', hgraph'⟩ | hgone
        · exact .inl ⟨hstored', hgraph'.trans hgraph⟩
        · exact .inr hgone
      · exact .inr (hchange.gone hmid hid List.mem_cons_self hgone)

end Service

end ArchGraph
