import ArchGraph.Proofs.CandidateRuns

/-!
Doing the job of a run once more after it has ended. The run is refused and its record stays as it
is, but a refusal is cleaned up like a failed evaluation: what is kept in the space of the run is
dropped. So nothing changes just where nothing is kept there (`ended_run_processed_again`). That is
so of a failed run, and never of a completed one, whose diff then outlives its graph
(`completed_run_loses_graph`).
-/

namespace ArchGraph.Service

variable {s : Service} {run : Run}

theorem process_ended (stored : s.runs.get? run.id = some run)
    (ended : run.status.isTerminal = true) (facts : FactSet) :
    s.process run.id facts = .ok (run, s.dropGraph run.space) := by
  unfold process requireRun
  rw [stored]
  exact congrArg Except.ok (evaluateRun_of_terminal ended facts)

theorem dropGraph_locked (locked : s.conditions.locked = true) (space : String) :
    s.dropGraph space = s := by
  unfold dropGraph deleteGraph
  simp [locked]

/-- Dropping a graph changes nothing if there is none, or if graphs cannot be deleted. -/
theorem dropGraph_eq_self_iff (space : String) :
    s.dropGraph space = s ↔ s.conditions.locked = true ∨ s.graphs.contains space = false := by
  cases hlocked : s.conditions.locked with
  | true => simp [dropGraph_locked hlocked]
  | false =>
      have herase : s.dropGraph space = s ↔
          s.graphs.snapshots.erase space = s.graphs.snapshots := by
        rw [dropGraph_eq hlocked]
        constructor
        · exact fun h => congrArg (fun t => t.graphs.snapshots) h
        · intro h
          rw [GraphStore.erase, h]
      have hkept : s.graphs.contains space = false ↔ space ∉ s.graphs.snapshots.keys := by
        rw [← Bool.not_eq_true]
        exact not_congr (Table.contains_iff _ _)
      rw [herase, Table.erase_eq_self_iff, hkept]
      simp

/-- In the states that operations lead to, a run that has ended has a graph just if it is
completed. -/
theorem Sound.dropGraph_harmless_iff (h : s.Sound) (stored : s.runs.get? run.id = some run)
    (ended : run.status.isTerminal = true) : s.dropGraph run.space = s ↔ run.status = .failed := by
  have hkept : s.graphs.contains run.space = true ↔ run.status = .completed :=
    (Table.contains_iff _ _).trans (h.space_mem_iff stored)
  rw [dropGraph_eq_self_iff, h.unlocked, ← Bool.not_eq_true (s.graphs.contains run.space), hkept]
  rcases (Run.terminal_iff run.status).mp ended with hstatus | hstatus <;> simp [hstatus]

/-- **What becomes of a run that has ended when its job is done again.** It comes back as it is, no
record changes, and no graph but its own, which is dropped where graphs can be deleted. So nothing
changes at all just if there is no graph in its space or graphs cannot be deleted; in the states
that operations lead to, just if the run has failed. -/
theorem ended_run_processed_again (s : Service) (run : Run) (facts : FactSet)
    (stored : s.runs.get? run.id = some run) (ended : run.status.isTerminal = true) :
    ∃ t, s.process run.id facts = .ok (run, t) ∧
      t.runs = s.runs ∧
      (∀ space, t.graphs.snapshots.find? space =
        if space = run.space ∧ s.conditions.locked = false then none
        else s.graphs.snapshots.find? space) ∧
      (t = s ↔ s.conditions.locked = true ∨ s.graphs.contains run.space = false) ∧
      ∀ policy, Reachable policy s → (t = s ↔ run.status = .failed) := by
  refine ⟨_, process_ended stored ended facts, ?_, ?_, dropGraph_eq_self_iff run.space,
    fun _ hreachable => hreachable.sound.dropGraph_harmless_iff stored ended⟩
  · cases hlocked : s.conditions.locked with
    | true => rw [dropGraph_locked hlocked]
    | false => rw [dropGraph_eq hlocked]
  · intro space
    cases hlocked : s.conditions.locked with
    | true => simp [dropGraph_locked hlocked]
    | false =>
        rw [dropGraph_eq hlocked, find?_graphs_erase]
        simp

/-- One of two runs has failed and the other is completed. -/
theorem bothDone_stored :
    (∃ run, bothDone.runs.get? run.id = some run ∧ run.id = "00000001" ∧ run.projectId = "shop" ∧
      run.status = .failed) ∧
    ∃ run, bothDone.runs.get? run.id = some run ∧ run.id = "00000002" ∧ run.projectId = "shop" ∧
      run.status = .completed := by
  have hfind :
      ∀ id status, (bothDone.runs.get? id).map (fun run => (run.id, run.projectId, run.status)) =
      some (id, "shop", status) → ∃ run, bothDone.runs.get? run.id = some run ∧ run.id = id ∧
        run.projectId = "shop" ∧ run.status = status := by
    intro id status h
    obtain ⟨run, hrun, heq⟩ := Option.map_eq_some_iff.mp h
    simp only [Prod.mk.injEq] at heq
    exact ⟨run, by rw [heq.1, hrun], heq⟩
  exact ⟨hfind _ _ (by decide +kernel), hfind _ _ (by decide +kernel)⟩

/-- The failed run is left as it is. -/
theorem failed_run_processed_again :
    ∃ run, bothDone.runs.get? run.id = some run ∧ run.status = .failed ∧
      bothDone.process run.id featureRequest.facts = .ok (run, bothDone) := by
  obtain ⟨run, stored, hid, hproject, hstatus⟩ := bothDone_stored.1
  have ended : run.status.isTerminal = true := by rw [hstatus]; rfl
  obtain ⟨t, hprocess, _, _, hsame, _⟩ :=
    ended_run_processed_again bothDone run featureRequest.facts stored ended
  have hnone : bothDone.graphs.contains run.space = false := by
    rw [Run.space, hid, hproject]
    decide +kernel
  rw [hsame.mpr (.inr hnone)] at hprocess
  exact ⟨run, stored, hstatus, hprocess⟩

/-- The completed run stays completed, and its graph is gone. -/
theorem completed_run_loses_graph :
    ∃ run t, bothDone.runs.get? run.id = some run ∧ run.status = .completed ∧
      bothDone.graphs.contains run.space = true ∧
      bothDone.process run.id featureRequest.facts = .ok (run, t) ∧
      t.runs.get? run.id = some run ∧ t.graphs.contains run.space = false := by
  obtain ⟨run, stored, hid, hproject, hstatus⟩ := bothDone_stored.2
  have ended : run.status.isTerminal = true := by rw [hstatus]; rfl
  have unlocked : bothDone.conditions.locked = false := by decide +kernel
  have hprocess := process_ended stored ended featureRequest.facts
  rw [dropGraph_eq unlocked] at hprocess
  refine ⟨run, _, stored, hstatus, ?_, hprocess, stored, ?_⟩
  · rw [Run.space, hid, hproject]
    decide +kernel
  · simp [GraphStore.contains, Table.contains, find?_graphs_erase]

end ArchGraph.Service
