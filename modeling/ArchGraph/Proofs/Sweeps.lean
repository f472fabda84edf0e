import ArchGraph.Proofs.CandidateRuns
import ArchGraph.Proofs.Instants

/-!
What a sweep removes, and in which order runs are listed. Both go by the stored texts of times; in
universal time these are ordered as the instants are, so a sweep removes the runs that have ended
and whose time is over, each with its graph, and nothing else (`sweep_removes_due_runs`).
-/

namespace ArchGraph

/-- A run that has ended, and whose time is over. -/
def Run.Due (now : Timestamp) (run : Run) : Prop :=
  (run.status = .completed ∨ run.status = .failed) ∧ run.expiresAt.instant ≤ now.instant

instance (now : Timestamp) (run : Run) : Decidable (run.Due now) :=
  inferInstanceAs (Decidable (_ ∧ _))

namespace RunStore

/-- Every run is stored once, under its own identifier. -/
structure Keyed (s : RunStore) : Prop where
  once : s.runs.Distinct
  own : s.runs.All (fun id run => run.id = id)

/-- The stored times that runs are compared by are in universal time. -/
def InUtc (s : RunStore) : Prop := ∀ run ∈ s.runs.values, run.createdAt.Utc ∧ run.expiresAt.Utc

variable {s : RunStore} {now : Timestamp}

theorem isExpired_iff {run : Run} (hrun : run.expiresAt.Utc) (hnow : now.Utc) :
    isExpired now run = true ↔ run.Due now := by
  unfold isExpired Run.Due
  rw [Bool.and_eq_true, Run.terminal_iff, decide_eq_true_iff, Timestamp.storedText_le_iff hrun hnow]

theorem InUtc.expired_eq (h : s.InUtc) (hnow : now.Utc) :
    s.expired now = s.runs.values.filter (fun run => run.Due now) := by
  apply List.filter_congr
  intro run hrun
  rw [Bool.eq_iff_iff, isExpired_iff (h run hrun).2 hnow, decide_eq_true_iff]

/-- Taking out the identifiers of some runs takes out these runs. -/
theorem Keyed.erased_iff (h : s.Keyed) {e : String × Run} (he : e ∈ s.runs.entries)
    (p : Run → Bool) :
    e.1 ∈ (s.runs.values.filter p).map (·.id) ↔ p e.2 = true := by
  have hfind := Table.find?_of_mem h.once he
  constructor
  · intro hmem
    obtain ⟨run, hrun, hid⟩ := List.mem_map.mp hmem
    obtain ⟨hstored, hp⟩ := List.mem_filter.mp hrun
    have hfound := (Table.mem_values_iff h.once h.own).mp hstored
    rw [hid, hfind] at hfound
    rwa [Option.some.inj hfound]
  · intro hp
    have hstored : e.2 ∈ s.runs.values := List.mem_map_of_mem he
    exact List.mem_map.mpr ⟨e.2, List.mem_filter.mpr ⟨hstored, hp⟩, h.own e.1 e.2 hfind⟩

/-! ## The order of a listing -/

theorem listedBefore_iff (a b : Run) : listedBefore a b = true ↔
    b.createdAt.storedText < a.createdAt.storedText ∨
      a.createdAt.storedText = b.createdAt.storedText ∧ a.id ≤ b.id := by
  simp [listedBefore]

theorem listedBefore_trans (a b c : Run) (hab : listedBefore a b = true)
    (hbc : listedBefore b c = true) : listedBefore a c = true := by
  rw [listedBefore_iff] at hab hbc ⊢
  rcases hab with hab | ⟨hab, hab'⟩ <;> rcases hbc with hbc | ⟨hbc, hbc'⟩
  · exact .inl (String.lt_trans hbc hab)
  · rw [hbc] at hab
    exact .inl hab
  · rw [← hab] at hbc
    exact .inl hbc
  · exact .inr ⟨hab.trans hbc, String.le_trans hab' hbc'⟩

theorem listedBefore_total (a b : Run) : (listedBefore a b || listedBefore b a) = true := by
  rw [Bool.or_eq_true, listedBefore_iff, listedBefore_iff]
  rcases name_trichotomy a.createdAt.storedText b.createdAt.storedText with h | h | h
  · exact .inr (.inl h)
  · rcases String.le_total a.id b.id with h' | h'
    · exact .inl (.inr ⟨h, h'⟩)
    · exact .inr (.inr ⟨h.symm, h'⟩)
  · exact .inl (.inl h)

end RunStore

/-- The run was created later, or at the same instant and its identifier is the lesser. -/
def Run.Newer (a b : Run) : Prop :=
  b.createdAt.instant < a.createdAt.instant ∨
    a.createdAt.instant = b.createdAt.instant ∧ a.id < b.id

namespace RunStore

variable {s : RunStore}

theorem Keyed.nodup_ids (h : s.Keyed) (p : Run → Bool) :
    ((s.runs.values.filter p).map (·.id)).Nodup := by
  have hall : (s.runs.values.map (·.id)).Nodup := by
    rw [Table.map_values h.once h.own]
    exact h.once
  exact hall.sublist (List.filter_sublist.map _)

theorem Keyed.ofProject_newest_first (h : s.Keyed) (utc : s.InUtc) (projectId : String) :
    (s.ofProject projectId).Pairwise Run.Newer := by
  have hperm := List.mergeSort_perm (s.runs.values.filter (·.projectId == projectId)) listedBefore
  have hsorted := List.pairwise_mergeSort listedBefore_trans listedBefore_total
    (s.runs.values.filter (·.projectId == projectId))
  have hids : (s.ofProject projectId).Pairwise (fun a b => a.id ≠ b.id) :=
    List.pairwise_map.mp ((hperm.map _).nodup_iff.mpr (h.nodup_ids _))
  have hutc : ∀ run ∈ s.ofProject projectId, run.createdAt.Utc := by
    intro run hrun
    exact (utc run (List.mem_filter.mp (hperm.mem_iff.mp hrun)).1).1
  refine List.Pairwise.imp_of_mem ?_ (hsorted.and hids)
  rintro a b ha hb ⟨hlisted, hne⟩
  rcases (listedBefore_iff a b).mp hlisted with hnewer | ⟨hsame, hid⟩
  · exact .inl ((Timestamp.storedText_lt_iff (hutc b hb) (hutc a ha)).mp hnewer)
  · exact .inr ⟨(Timestamp.storedText_eq_iff (hutc a ha) (hutc b hb)).mp hsame,
      lt_of_nameLE_of_ne _ _ (decide_eq_true hid) hne⟩

end RunStore

namespace Service

variable {s : Service} {now : Timestamp}

theorem discardAll_eq (unlocked : s.conditions.locked = false) (runs : List Run) :
    s.discardAll runs = (.ok (), { s with
      runs := ⟨runs.foldl (fun t run => t.erase run.id) s.runs.runs⟩
      graphs := ⟨runs.foldl (fun t run => t.erase run.space) s.graphs.snapshots⟩ }) := by
  induction runs generalizing s with
  | nil => rfl
  | cons run runs ih =>
      unfold discardAll
      rw [discard_eq unlocked]
      exact ih unlocked

/-- The stored runs that a sweep is to remove. -/
def dueRuns (s : Service) (now : Timestamp) : List Run :=
  s.runs.runs.values.filter (fun run => run.Due now)

/-- What a sweep leaves: the runs that are not due, the graphs in the spaces of no run that is, and
all else as it was. -/
structure SweptAt (now : Timestamp) (s t : Service) : Prop where
  runs : t.runs.runs.entries = s.runs.runs.entries.filter (fun e => ¬ e.2.Due now)
  graphs : t.graphs.snapshots.entries =
    s.graphs.snapshots.entries.filter (fun e => e.1 ∉ (s.dueRuns now).map Run.space)
  rest : t = { s with runs := t.runs, graphs := t.graphs }
  /-- With identifiers as the service gives them, no run that stays and no project loses a graph. -/
  others : (∀ run ∈ s.runs.runs.values, IsHex run.id) →
    (∀ run ∈ t.runs.runs.values,
      t.graphs.snapshots.find? run.space = s.graphs.snapshots.find? run.space) ∧
    ∀ projectId, t.graphs.snapshots.find? (baselineSpace projectId) =
      s.graphs.snapshots.find? (baselineSpace projectId)

/-- A run that a sweep leaves was there before and is not due. -/
theorem of_mem_kept {run : Run} (h : run ∈ (⟨s.runs.runs.entries.filter (fun e => ¬ e.2.Due now)⟩ :
    Table String Run).values) : run ∈ s.runs.runs.values ∧ ¬ run.Due now := by
  obtain ⟨e, he, rfl⟩ := List.mem_map.mp h
  obtain ⟨he, hleft⟩ := List.mem_filter.mp he
  exact ⟨List.mem_map_of_mem he, of_decide_eq_true hleft⟩

theorem sweep_of_none (h : s.runs.expired now = []) : s.sweep now = (.ok 0, s) := by
  unfold sweep
  simp only [h]
  rfl

section

variable (keyed : s.runs.Keyed) (utc : s.runs.InUtc) (hnow : now.Utc)
  (unlocked : s.conditions.locked = false)

include keyed utc hnow unlocked

theorem sweep_eq :
    s.sweep now = (.ok (s.dueRuns now).length, { s with
      runs := ⟨⟨s.runs.runs.entries.filter (fun e => ¬ e.2.Due now)⟩⟩
      graphs := ⟨⟨s.graphs.snapshots.entries.filter
        (fun e => e.1 ∉ (s.dueRuns now).map Run.space)⟩⟩ }) := by
  have hexpired : s.runs.expired now = s.dueRuns now := utc.expired_eq hnow
  have hruns : (s.dueRuns now).foldl (fun t run => t.erase run.id) s.runs.runs =
      ⟨s.runs.runs.entries.filter (fun e => ¬ e.2.Due now)⟩ := by
    rw [Table.foldl_erase]
    congr 1
    apply List.filter_congr
    intro e he
    have hdue := keyed.erased_iff he (fun run => run.Due now)
    rw [decide_eq_true_iff] at hdue
    rw [decide_eq_decide]
    exact not_congr hdue
  have hgraphs : (s.dueRuns now).foldl (fun t run => t.erase run.space) s.graphs.snapshots =
      ⟨s.graphs.snapshots.entries.filter (fun e => e.1 ∉ (s.dueRuns now).map Run.space)⟩ :=
    Table.foldl_erase Run.space _ _
  unfold sweep
  simp only [hexpired, discardAll_eq unlocked, hruns, hgraphs]
  rfl

theorem SweptAt.of_sweep : SweptAt now s (s.sweep now).2 := by
  rw [sweep_eq keyed utc hnow unlocked]
  refine ⟨rfl, rfl, rfl, fun hex => ?_⟩
  -- A space is left alone unless it is that of a run that is due.
  have hkept : ∀ space, space ∉ (s.dueRuns now).map Run.space →
      (⟨s.graphs.snapshots.entries.filter (fun e => e.1 ∉ (s.dueRuns now).map Run.space)⟩ :
        Table String Snapshot).find? space = s.graphs.snapshots.find? space := by
    intro space hspace
    have hfilter := Table.find?_filter s.graphs.snapshots
      (fun space => space ∉ (s.dueRuns now).map Run.space) space
    rwa [if_pos (decide_eq_true hspace)] at hfilter
  constructor
  · intro run hrun
    obtain ⟨hrun, hleft⟩ := of_mem_kept hrun
    apply hkept
    intro hspace
    obtain ⟨due, hdue, hsame⟩ := List.mem_map.mp hspace
    obtain ⟨hstored, hdue⟩ := List.mem_filter.mp hdue
    have hid : due.id = run.id := (eq_of_candidateSpace (hex due hstored) (hex run hrun) hsame).2
    have hfound := (Table.mem_values_iff keyed.once keyed.own).mp hstored
    rw [hid, (Table.mem_values_iff keyed.once keyed.own).mp hrun] at hfound
    rw [Option.some.inj hfound] at hleft
    exact hleft (of_decide_eq_true hdue)
  · intro projectId
    apply hkept
    intro hspace
    obtain ⟨due, hdue, hsame⟩ := List.mem_map.mp hspace
    exact (hex due (List.mem_filter.mp hdue).1).candidateSpace_ne _ _ hsame

/-- After a sweep nothing is left to remove. -/
theorem sweep_again : (s.sweep now).2.sweep now = (.ok 0, (s.sweep now).2) := by
  apply sweep_of_none
  rw [sweep_eq keyed utc hnow unlocked]
  apply List.filter_eq_nil_iff.mpr
  intro run hrun hexpired
  obtain ⟨hrun, hleft⟩ := of_mem_kept hrun
  exact hleft ((RunStore.isExpired_iff (utc run hrun).2 hnow).mp hexpired)

end

/-- **A sweep removes the runs that are due, each with its graph, and nothing else.** It tells how
many there were, and a second one finds none. Runs are listed by the instants they were created
at. -/
theorem sweep_removes_due_runs (s : Service) (now : Timestamp) (keyed : s.runs.Keyed)
    (utc : s.runs.InUtc) (hnow : now.Utc) (unlocked : s.conditions.locked = false) :
    (∀ t u : Timestamp, t.Utc → u.Utc → (t.storedText ≤ u.storedText ↔ t.instant ≤ u.instant)) ∧
    (s.sweep now).1 = .ok (s.dueRuns now).length ∧
    SweptAt now s (s.sweep now).2 ∧
    (s.sweep now).2.sweep now = (.ok 0, (s.sweep now).2) ∧
    ∀ projectId, (s.list projectId).Perm (s.runs.runs.values.filter (·.projectId == projectId)) ∧
      (s.list projectId).Pairwise Run.Newer := by
  refine ⟨fun t u => Timestamp.storedText_le_iff, ?_, ?_, ?_, fun projectId => ⟨?_, ?_⟩⟩
  · rw [sweep_eq keyed utc hnow unlocked]
  · exact SweptAt.of_sweep keyed utc hnow unlocked
  · exact sweep_again keyed utc hnow unlocked
  · exact List.mergeSort_perm _ _
  · exact keyed.ofProject_newest_first utc projectId

/-! Three runs of which one is due at midnight: the second has a microsecond left, and the third has
not ended. The first was created half a second after the others. -/

def midnight : Timestamp := ⟨2026, 1, 1, 0, 0, 0, 0, some 0⟩

def lastSecond : Timestamp := ⟨2025, 12, 31, 23, 59, 59, 0, some 0⟩

def expiringAt (id : String) (status : RunStatus) (createdAt expiresAt : Timestamp) : Run :=
  ⟨id, "shop", "feature", "main", none, status, none, createdAt, none, expiresAt, none⟩

def aroundMidnight : Service :=
  { new ⟨80, 24, 100⟩ midnight with
    runs := ⟨⟨[
      ("0000000a", expiringAt "0000000a" .completed
        { lastSecond with microsecond := 500000 } midnight),
      ("0000000c", expiringAt "0000000c" .analyzing lastSecond lastSecond),
      ("0000000b", expiringAt "0000000b" .failed lastSecond { midnight with microsecond := 1 })]⟩⟩
    graphs := ⟨⟨[("shop::baseline", ⟨"shop", .null, 0, 0⟩),
      ("shop::candidate::0000000a", ⟨"shop", .null, 0, 0⟩),
      ("shop::candidate::0000000c", ⟨"shop", .null, 0, 0⟩)]⟩⟩ }

theorem aroundMidnight_swept :
    aroundMidnight.runs.Keyed ∧ aroundMidnight.runs.InUtc ∧ midnight.Utc ∧
    (aroundMidnight.sweep midnight).1 = .ok 1 ∧
    (aroundMidnight.sweep midnight).2.runs.runs.keys = ["0000000c", "0000000b"] ∧
    (aroundMidnight.sweep midnight).2.graphs.snapshots.keys =
      ["shop::baseline", "shop::candidate::0000000c"] ∧
    SweptAt midnight aroundMidnight (aroundMidnight.sweep midnight).2 ∧
    (aroundMidnight.list "shop").Pairwise Run.Newer := by
  have hkeyed : aroundMidnight.runs.Keyed := by
    have honce : aroundMidnight.runs.runs.keys.Nodup := by decide
    refine ⟨honce, fun id run hrun => ?_⟩
    have hmem := Table.mem_entries_of_find? hrun
    simp only [aroundMidnight, List.mem_cons, Prod.mk.injEq, List.not_mem_nil, or_false] at hmem
    rcases hmem with ⟨rfl, rfl⟩ | ⟨rfl, rfl⟩ | ⟨rfl, rfl⟩ <;> rfl
  have hnow : midnight.Utc := by constructor <;> decide
  have hutc : aroundMidnight.runs.InUtc := by
    intro run hrun
    simp only [aroundMidnight, Table.values, List.map_cons, List.map_nil, List.mem_cons,
      List.not_mem_nil, or_false] at hrun
    rcases hrun with rfl | rfl | rfl <;> constructor <;> constructor <;> decide
  obtain ⟨_, _, hswept, _, hlisted⟩ :=
    sweep_removes_due_runs aroundMidnight midnight hkeyed hutc hnow rfl
  refine ⟨hkeyed, hutc, hnow, ?_, ?_, ?_, hswept, (hlisted "shop").2⟩ <;> decide +kernel

end Service

end ArchGraph
