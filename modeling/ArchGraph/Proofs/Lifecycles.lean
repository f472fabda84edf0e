import ArchGraph.Proofs.RunChanges

/-!
Several lifecycles of one run. Each holds a copy of the run that was taken from the store, moves its
copy on and records it. Only the copy is asked whether a move is allowed.

So what is stored of a run that has ended is final just when every copy that was taken of it has
ended too (`ended_run_final_iff`). A copy that has not ended overwrites it: in
`interrupted_run_overwritten` a worker completes a run that was failed behind its back.
-/

namespace ArchGraph

/-- What is recorded of how a run ended. -/
def Run.outcome (run : Run) : RunStatus × Option GraphDiff × Option String :=
  (run.status, run.diff, run.errorMessage)

namespace RunStore

def outcome? (s : RunStore) (id : String) : Option (RunStatus × Option GraphDiff × Option String) :=
  (s.get? id).map Run.outcome

theorem outcome?_of_get? {s : RunStore} {id : String} {run : Run} (h : s.get? id = some run) :
    s.outcome? id = some run.outcome := by
  unfold outcome?
  rw [h, Option.map_some]

/-- The last record of a run counts, whatever was stored of it before. -/
theorem outcome?_update {s : RunStore} {run kept : Run} (h : s.get? run.id = some kept) :
    (s.update run).outcome? run.id = some run.outcome := by
  unfold outcome?
  rw [get?_update_eq, if_pos rfl, h]
  rfl

end RunStore

/-- What a lifecycle can be asked to do. -/
inductive Move where
  | begin
  | complete (diff : GraphDiff)
  | abort (message : String)

namespace Move

def trigger : Move → Trigger
  | .begin => .start
  | .complete _ => .finish
  | .abort _ => .fail

def fire (now : Timestamp) (run : Run) : Move → Except Failure Run
  | .begin => run.start now
  | .complete diff => run.finish diff now
  | .abort message => run.fail message now

variable {now : Timestamp} {run next : Run}

theorem fire_ended (h : run.status.isTerminal = true) (move : Move) :
    move.fire now run = .error (run.invalidTransition move.trigger) := by
  cases move <;> simp only [fire, trigger, Run.start, Run.finish, Run.fail, Run.fire_ended h]

theorem id_of_fire {move : Move} (h : move.fire now run = .ok next) : next.id = run.id := by
  unfold fire at h
  cases move with
  | begin => exact (Run.of_fire h).1
  | complete diff => exact (Run.of_fire h).1
  | abort message => exact (Run.of_fire h).1

end Move

/-- A store, and the copies of its runs that lifecycles hold. -/
structure Lifecycles where
  store : RunStore
  copies : List Run

namespace Lifecycles

/-- Ask one lifecycle for a move. A move that its copy allows is recorded under the identifier of
the run; any other changes nothing. -/
def act (c : Lifecycles) (k : Nat) (move : Move) (now : Timestamp) :
    Except Failure Unit × Lifecycles :=
  match c.copies[k]? with
  | none => (.ok (), c)
  | some copy =>
    match move.fire now copy with
    | .ok next => (.ok (), ⟨c.store.update next, c.copies.set k next⟩)
    | .error failure => (.error failure, c)

inductive Step : Lifecycles → Lifecycles → Prop
  | take (c : Lifecycles) (run : Run) (stored : c.store.get? run.id = some run) :
      Step c { c with copies := c.copies ++ [run] }
  | act (c : Lifecycles) (k : Nat) (move : Move) (now : Timestamp) : Step c (c.act k move now).2

/-- By any number of steps, of any lifecycles in any order. -/
abbrev Leads : Lifecycles → Lifecycles → Prop := Relation.ReflTransGen Step

/-- What is stored of a run never changes again, and each of its lifecycles refuses every move. -/
structure Final (c : Lifecycles) (id : String) : Prop where
  unchanged : ∀ d, Leads c d → d.store.outcome? id = c.store.outcome? id
  refused : ∀ d, Leads c d → ∀ k copy, d.copies[k]? = some copy → copy.id = id → ∀ move now,
    ∃ failure, (d.act k move now).1 = .error failure ∧ failure.kind = .invalidTransition

/-- Every copy that is held of a run has ended. -/
def CopiesEnded (c : Lifecycles) (id : String) : Prop :=
  ∀ copy ∈ c.copies, copy.id = id → copy.status.isTerminal = true

variable {c d : Lifecycles} {run copy next : Run} {k : Nat} {move : Move} {now : Timestamp}

theorem act_of_ok (hcopy : c.copies[k]? = some copy) (hfire : move.fire now copy = .ok next) :
    c.act k move now = (.ok (), ⟨c.store.update next, c.copies.set k next⟩) := by
  unfold act
  simp only [hcopy, hfire]

theorem act_of_error {failure : Failure} (hcopy : c.copies[k]? = some copy)
    (hfire : move.fire now copy = .error failure) : c.act k move now = (.error failure, c) := by
  unfold act
  simp only [hcopy, hfire]

theorem act_cases (c : Lifecycles) (k : Nat) (move : Move) (now : Timestamp) :
    (c.act k move now).2 = c ∨
      ∃ copy next, copy ∈ c.copies ∧ move.fire now copy = .ok next ∧
        (c.act k move now).2 = ⟨c.store.update next, c.copies.set k next⟩ := by
  cases hcopy : c.copies[k]? with
  | none =>
      left
      unfold act
      rw [hcopy]
  | some copy =>
      cases hfire : move.fire now copy with
      | error failure => exact .inl (congrArg Prod.snd (act_of_error hcopy hfire))
      | ok next =>
          exact .inr ⟨copy, next, List.mem_of_getElem? hcopy, hfire,
            congrArg Prod.snd (act_of_ok hcopy hfire)⟩

/-! ## All copies have ended -/

/-- A copy that moves on is of another run, and a copy that is taken of this one has ended. -/
theorem Step.keeps (h : Step c d) (ended : run.status.isTerminal = true)
    (stored : c.store.get? run.id = some run) (copies : c.CopiesEnded run.id) :
    d.store.get? run.id = some run ∧ d.CopiesEnded run.id := by
  cases h with
  | take other hother =>
      refine ⟨stored, fun copy hcopy hid => ?_⟩
      rcases List.mem_append.mp hcopy with hheld | htaken
      · exact copies copy hheld hid
      · rw [List.mem_singleton.mp htaken] at hid ⊢
        rw [hid, stored] at hother
        rwa [← Option.some.inj hother]
  | act k move now =>
      rcases act_cases c k move now with hsame | ⟨copy, next, hcopy, hfire, hnext⟩
      · rw [hsame]
        exact ⟨stored, copies⟩
      · have hother : next.id ≠ run.id := by
          rw [Move.id_of_fire hfire]
          intro hid
          rw [Move.fire_ended (copies copy hcopy hid)] at hfire
          cases hfire
        rw [hnext]
        constructor
        · rw [RunStore.get?_update_eq, if_neg hother.symm]
          exact stored
        · intro held hheld hid
          rcases List.mem_or_eq_of_mem_set hheld with hheld | rfl
          · exact copies held hheld hid
          · exact absurd hid hother

theorem Leads.keeps (h : Leads c d) (ended : run.status.isTerminal = true)
    (stored : c.store.get? run.id = some run) (copies : c.CopiesEnded run.id) :
    d.store.get? run.id = some run ∧ d.CopiesEnded run.id := by
  induction h with
  | refl => exact ⟨stored, copies⟩
  | tail _ step ih => exact step.keeps ended ih.1 ih.2

theorem final_of_copiesEnded (ended : run.status.isTerminal = true)
    (stored : c.store.get? run.id = some run) (copies : c.CopiesEnded run.id) : c.Final run.id where
  unchanged d hd := by
    have hkept := (Leads.keeps hd ended stored copies).1
    rw [RunStore.outcome?_of_get? hkept, RunStore.outcome?_of_get? stored]
  refused d hd k copy hcopy hid move now := by
    have hended := (Leads.keeps hd ended stored copies).2 copy (List.mem_of_getElem? hcopy) hid
    exact ⟨_, congrArg Prod.fst (act_of_error hcopy (Move.fire_ended hended move)), rfl⟩

/-! ## A copy has not ended -/

theorem outcome?_abort {kept : Run} (hcopy : c.copies[k]? = some copy)
    (hopen : copy.status.isTerminal = false) (stored : c.store.get? copy.id = some kept)
    (message : String) (now : Timestamp) :
    (c.act k (.abort message) now).2.store.outcome? copy.id =
      some (.failed, copy.diff, some message) := by
  have hfire : (Move.abort message).fire now copy = .ok (copy.failedAt message now) :=
    Run.fail_eq hopen message now
  have hkept : c.store.get? (copy.failedAt message now).id = some kept := stored
  rw [act_of_ok hcopy hfire]
  exact RunStore.outcome?_update hkept

theorem not_final_of_open (hcopy : copy ∈ c.copies) (hopen : copy.status.isTerminal = false)
    (stored : c.store.get? copy.id = some run) : ¬ c.Final copy.id := by
  intro hfinal
  obtain ⟨k, hk⟩ := List.getElem?_of_mem hcopy
  -- Two messages: only one of them can be the one that is stored.
  have habort (message : String) :
      c.store.outcome? copy.id = some (.failed, copy.diff, some message) :=
    (hfinal.unchanged _ (.single (.act c k (.abort message) run.createdAt))).symm.trans
      (outcome?_abort hk hopen stored message run.createdAt)
  have htwo := (habort "a").symm.trans (habort "b")
  simp at htwo

/-- **When a run that has ended is final.** What is stored of it never changes again, and all its
lifecycles refuse every move, just if each of them holds a copy that has ended: nothing but the copy
is asked, and what it records replaces what is stored. -/
theorem ended_run_final_iff (c : Lifecycles) (run : Run) (stored : c.store.get? run.id = some run)
    (ended : run.status.isTerminal = true) :
    c.Final run.id ↔ ∀ copy ∈ c.copies, copy.id = run.id → copy.status.isTerminal = true := by
  constructor
  · intro hfinal copy hcopy hid
    by_contra hopen
    rw [Bool.not_eq_true] at hopen
    rw [← hid] at hfinal stored
    exact not_final_of_open hcopy hopen stored hfinal
  · intro copies
    exact final_of_copiesEnded ended stored copies

/-! ## A worker and a service that starts

A worker has begun with a run when another service starts on the same store. It takes the run for
one that was left behind and fails it, and then the worker is done. -/

def newYear : Timestamp := ⟨2026, 1, 1, 0, 0, 0, 0, some 0⟩

def submitted : Run :=
  ⟨"r1", "shop", "feature", "main", none, .pending, none, newYear, none, newYear, none⟩

def noChanges : GraphDiff :=
  ⟨"shop::baseline", "shop::candidate::r1", [], [], [], [], [], [], [], .empty⟩

def unopened : Lifecycles := ⟨⟨(∅ : Table String Run).insert "r1" submitted⟩, []⟩

def working : Lifecycles := ({ unopened with copies := [submitted] }.act 0 .begin newYear).2

def interrupted : Lifecycles :=
  ({ working with copies := working.copies ++ [{ submitted with status := .analyzing }] }.act 1
    (.abort Service.interruptedMessage) newYear).2

def overwritten : Lifecycles := (interrupted.act 0 (.complete noChanges) newYear).2

theorem interrupted_run_overwritten :
    Leads unopened interrupted ∧
      ({ Service.new ⟨80, 24, 100⟩ newYear with runs := working.store }.failInterrupted).2.runs =
        interrupted.store ∧
      interrupted.store.outcome? "r1" = some (.failed, none, some Service.interruptedMessage) ∧
      (interrupted.act 0 (.complete noChanges) newYear).1 = .ok () ∧
      overwritten.store.outcome? "r1" = some (.completed, some noChanges, none) := by
  refine ⟨?_, rfl, rfl, rfl, rfl⟩
  have hbegun : Leads unopened working :=
    (Relation.ReflTransGen.single (.take unopened submitted rfl)).tail (.act _ 0 .begin newYear)
  exact (hbegun.tail (.take working { submitted with status := .analyzing } rfl)).tail
    (.act _ 1 (.abort Service.interruptedMessage) newYear)

/-- The failed run is not final while the worker holds its copy, and the completed one is. -/
theorem final_once_overwritten :
    interrupted.store.get? "r1" = some (submitted.failedAt Service.interruptedMessage newYear) ∧
      ¬ interrupted.Final "r1" ∧
      overwritten.store.get? "r1" = some (submitted.finishedAt noChanges newYear) ∧
      overwritten.Final "r1" := by
  refine ⟨rfl, ?_, rfl, ?_⟩
  · intro hfinal
    have hcopies := (ended_run_final_iff interrupted
      (submitted.failedAt Service.interruptedMessage newYear) rfl rfl).mp hfinal
    exact absurd (hcopies { submitted with status := .analyzing } (.head _) rfl) (by decide)
  · refine (ended_run_final_iff overwritten (submitted.finishedAt noChanges newYear) rfl rfl).mpr ?_
    intro copy hcopy _
    rcases List.mem_cons.mp hcopy with rfl | hcopy
    · rfl
    · rw [List.mem_singleton.mp hcopy]
      rfl

end Lifecycles

end ArchGraph
