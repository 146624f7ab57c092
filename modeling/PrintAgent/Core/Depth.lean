import Mathlib.Data.Set.Card
import PrintAgent.Core.Base

/-!
# The queue depth

`active_count` is the number of keys of `_tasks`.  A key goes in with the task, and is taken out by the
`finally` of `_process`, which belongs to a `try` that begins after the first read of the row.

* `queue_depth_exact`   the keys are the jobs whose task is not done, in every run in which a
                        `CancelledError` reaches a task inside the `try` only;
* `queue_depth_leaks`   a task that is cancelled while it reads its row leaves its key behind.
-/

namespace PrintAgent

namespace Job
variable {jobId : String} {x y : Job} {b : JobAct}

/-- a `CancelledError` reaches the task inside the `try` -/
def throwsInTry (x : Job) : JobAct → Bool
  | .taskThrow => x.task.all fun t => t.await.inTry
  | _ => true

def WorkedOn (x : Job) : Prop := ∃ t, x.task = some t ∧ t.isDone = false

structure Depth (x : Job) : Prop where
  entry : x.entry = true ↔ x.WorkedOn
  /-- the row does not vanish -/
  answered : ∀ t, x.task = some t → t.await = .get → t.fut ≠ some (.record none)

theorem depth_init : Depth .init where
  entry := iff_of_false Bool.false_ne_true fun ⟨_, ht, _⟩ => by cases ht
  answered t ht := by cases ht

/-! ## one step -/

theorem workedOn_some {t : Task} (ht : x.task = some t) : x.WorkedOn ↔ t.isDone = false := by
  constructor
  · rintro ⟨t', ht', hd⟩
    rw [ht] at ht'
    rwa [Option.some.inj ht']
  · intro hd
    exact ⟨t, ht, hd⟩

theorem not_done_of_flow {a a' : Await} {cr : Bool} (h : Flow cr a a') : a ≠ .ended ∧ a' ≠ .ended := by
  cases h with
  | early ha hb =>
    constructor
    · rintro rfl
      cases ha
    · rintro rfl
      cases hb
  | toPrinting ha _ _ _ =>
    refine ⟨?_, by simp⟩
    rintro rfl
    cases ha
  | toFailed ha _ _ =>
    refine ⟨?_, by simp⟩
    rintro rfl
    cases ha
  | _ => simp

theorem isDone_eq_false {t : Task} : t.isDone = false ↔ t.await ≠ .ended := by
  simp [Task.isDone]

theorem isDone_cancel (t : Task) : t.cancel.isDone = t.isDone := by
  rw [Task.isDone, Task.cancel_await, Task.isDone]

/-- the `finally` takes the key out as the task ends -/
theorem entry_endTask : (x.endTask true).entry = true ↔ (x.endTask true).WorkedOn := by
  refine iff_of_false Bool.false_ne_true ?_
  rintro ⟨t, ht, hd⟩
  cases ht
  cases hd

theorem depth_entry (h : x.Depth) (hc : x.throwsInTry b = true) (hs : Step jobId x b y) :
    y.entry = true ↔ y.WorkedOn := by
  have hsame : ∀ {t t' : Task} {z : Job}, x.task = some t → z.task = some t' → z.entry = x.entry →
      t'.isDone = t.isDone → (z.entry = true ↔ z.WorkedOn) := by
    intro t t' z ht ht' he hd
    rw [he, h.entry, workedOn_some ht, workedOn_some ht', hd]
  have hcreated : x.createTask.entry = true ↔ x.createTask.WorkedOn := iff_of_true rfl ⟨.new, rfl, rfl⟩
  cases hs with
  | resumeRows hl =>
    rename_i resume
    cases resume with
    | false => exact h.entry
    | true => exact hcreated
  | handlerCancelTask hh hfut hr =>
    rcases x.cancelTask_cases jobId with ⟨he, _⟩ | ⟨t, _, ht, he⟩
    · rw [he]
      exact h.entry
    · rw [he]
      exact hsame ht rfl rfl (isDone_cancel t)
  | handlerCreateTask => exact hcreated
  | taskCall now ht _ => exact hsame ht rfl rfl rfl
  | taskAnswer ht _ _ => exact hsame ht rfl rfl rfl
  | taskSend ht _ => exact hsame ht rfl rfl rfl
  | taskPrint raises ht _ => exact hsame ht rfl rfl rfl
  | taskAwait pathExists socket ht hn hfut hr =>
    obtain ⟨ha, ha'⟩ := not_done_of_flow (Await.flow_of_resume hr)
    refine hsame ht rfl rfl ?_
    rw [isDone_eq_false.mpr ha]
    exact isDone_eq_false.mpr ha'
  | taskRet pathExists socket ht hn hfut hr =>
    rename_i t ans inTry
    cases inTry with
    | true => exact entry_endTask
    | false =>
      -- only a missing row ends the task before the `try`
      obtain ⟨ha, hans⟩ : t.await = .get ∧ ans = .record none := by
        have hends := Await.ends_of_resume hr
        generalize t.await = a at hends
        cases hends
        exact ⟨rfl, rfl⟩
      exact absurd (hans ▸ hfut) (h.answered t ht ha)
  | taskThrow ht hcan hd =>
    rename_i t
    have hin : t.await.inTry = true := by
      have hall : x.task.all (fun t => t.await.inTry) = true := hc
      rwa [ht] at hall
    rw [hin]
    exact entry_endTask
  | crash => exact iff_of_false Bool.false_ne_true fun ⟨_, ht, _⟩ => by cases ht
  | _ => exact h.entry

theorem depth_answered (hf : x.Fit) (h : x.Depth) (hs : Step jobId x b y) :
    ∀ t, y.task = some t → t.await = .get → t.fut ≠ some (.record none) := by
  intro t ht ha
  cases hs with
  | resumeRows hl =>
    rename_i resume
    cases resume with
    | false => exact h.answered t ht ha
    | true =>
      cases ht
      cases ha
  | handlerCancelTask hh hfut hr =>
    rcases x.cancelTask_cases jobId with ⟨he, _⟩ | ⟨t', _, ht', he⟩
    · rw [he] at ht
      exact h.answered t ht ha
    · rw [he] at ht
      cases ht
      rw [Task.cancel_fut]
      rw [Task.cancel_await] at ha
      exact h.answered t' ht' ha
  | handlerCreateTask =>
    cases ht
    cases ha
  | taskCall now ht' hcall =>
    rename_i t' c
    obtain ⟨row, hrow⟩ := hf.stored t' ht'
    cases ht
    intro hans
    rw [hrow] at hans
    cases c <;> cases hans
  | taskAnswer ht' hw hacc =>
    rename_i t' ans
    cases ht
    have ha : t'.await = .get := ha
    rw [ha] at hacc
    cases hacc
  | taskSend => cases ht; simp [Task.answer]
  | taskPrint raises => cases ht; cases raises <;> simp [Task.answer]
  | taskAwait pathExists socket ht' hn hfut hr =>
    rename_i t' ans a
    cases ht
    intro hans
    obtain ⟨e, he⟩ := Task.event_of_goTo (by rw [hans]; rfl)
    have ha : a = .get := ha
    rw [ha] at he
    cases he
  | taskRet => cases ht; cases ha
  | taskThrow => cases ht; cases ha
  | crash => cases ht
  | _ => exact h.answered t ht ha

theorem depth_step (hf : x.Fit) (h : x.Depth) (hc : x.throwsInTry b = true) (hs : Step jobId x b y) :
    y.Depth where
  entry := depth_entry h hc hs
  answered := depth_answered hf h hs

end Job

/-! ## the agent -/

namespace Agent

/-- a `CancelledError` reaches a task inside the `try` -/
def throwsInTry (s : Agent) : Act → Bool
  | .taskThrow jobId _ => (s.slots jobId).tasks.all fun t => t.await.inTry
  | _ => true

/-- the keys of `_tasks` -/
def activeJobs (s : Agent) : Set String := {jobId | (s.slots jobId).entry.isSome}

noncomputable def activeCount (s : Agent) : Nat := s.activeJobs.ncard

/-- the jobs with a `_process` task that is not done -/
def workedOn (s : Agent) : Set String := {jobId | ∃ t ∈ (s.slots jobId).tasks, t.isDone = false}

theorem seenAs_throwsInTry {s : Agent} {a : Act} (j : String) (h : s.throwsInTry a = true) :
    Machine.SeenAs (view j) (seen j) (fun x b => x.throwsInTry b = true) s a := by
  intro b hb
  cases b with
  | taskThrow =>
    cases a with
    | taskThrow k i =>
      obtain rfl : k = j := by
        by_contra hk
        rw [seen, if_neg hk] at hb
        cases hb
      show (s.slots k).tasks.head?.all (fun t => t.await.inTry) = true
      cases ht : (s.slots k).tasks.head? with
      | none => rfl
      | some t => exact List.all_eq_true.mp h t (List.mem_of_head? ht)
    | _ => simp [seen] at hb
  | _ => rfl

theorem depth_of_reach {s : Agent} (h : agent.Reach (fun s a => s.throwsInTry a = true) s) (j : String) :
    (s.view j).Depth :=
  job_invariant (D := fun x b => x.throwsInTry b = true) Job.depth_init
    (fun _ _ _ hf _ hd hc hs => Job.depth_step hf hd hc hs) (fun _ _ hc => seenAs_throwsInTry j hc) h

theorem activeJobs_finite {s : Agent} (hs : s.Sound) : s.activeJobs.Finite := by
  refine Set.Finite.subset (List.finite_toSet (s.store.rows.map (·.jobId))) fun j hj => ?_
  obtain ⟨i, hi⟩ := Option.isSome_iff_exists.mp hj
  have hlt := (hs.slot j).entry i hi
  have hrow := (hs.slot j).stored (List.ne_nil_of_length_pos (by omega))
  obtain ⟨row, hrow⟩ := Option.isSome_iff_exists.mp hrow
  obtain ⟨hmem, hid⟩ := Table.get_mem hrow
  exact List.mem_map.mpr ⟨row, hmem, hid⟩

/-- **The queue depth is exact**, while no `CancelledError` reaches a task that is still reading its row. -/
theorem queue_depth_exact {s : Agent} (h : agent.Reach (fun s a => s.throwsInTry a = true) s) :
    s.activeJobs = s.workedOn ∧ s.activeJobs.Finite ∧ s.activeCount = s.workedOn.ncard ∧
      ((∀ j, ∀ t ∈ (s.slots j).tasks, t.isDone = true) → s.activeCount = 0) := by
  have hsame : s.activeJobs = s.workedOn := by
    ext j
    have htasks := (sound_of_reach h.any).tasks_eq j
    show (s.view j).entry = true ↔ ∃ t ∈ (s.slots j).tasks, t.isDone = false
    rw [(depth_of_reach h j).entry, htasks]
    simp [Job.WorkedOn]
  refine ⟨hsame, activeJobs_finite (sound_of_reach h.any), congrArg Set.ncard hsame, fun hdone => ?_⟩
  have hnone : s.workedOn = ∅ := by
    ext j
    refine iff_of_false ?_ (Set.notMem_empty j)
    rintro ⟨t, ht, hd⟩
    rw [hdone j t ht] at hd
    cases hd
  rw [activeCount, hsame, hnone, Set.ncard_empty]

/-- a task that is cancelled while it waits for its printer -/
def cancelledWaiting : List Act :=
  Schedule.startup "1" ++ Schedule.connect ++ Schedule.accept "2" Schedule.exampleJob ++
    Schedule.download "3" "/tmp/a.pdf" "a" ++ Schedule.readForCancel "4" "a" ++ [.handlerResume, .taskThrow "a" 0]

theorem isSome_cancelledWaiting : (agent.run agent.init cancelledWaiting).isSome = true := by decide

/-- its key is gone with it -/
theorem queue_depth_exact_waiting :
    (agent.after cancelledWaiting isSome_cancelledWaiting).activeJobs
        = (agent.after cancelledWaiting isSome_cancelledWaiting).workedOn ∧
      "a" ∉ (agent.after cancelledWaiting isSome_cancelledWaiting).workedOn := by
  have hexact := (queue_depth_exact (.of_obeys cancelledWaiting isSome_cancelledWaiting (by decide))).1
  refine ⟨hexact, ?_⟩
  rintro ⟨t, ht, hd⟩
  have ht : t ∈ [Task.finished] := ht
  rw [List.mem_singleton.mp ht] at hd
  cases hd

/-- the cancel finds the row `RECEIVED`, and the task is still reading it -/
theorem queue_depth_leaks :
    ¬ ∀ s : Agent, agent.Reach Machine.Any s → s.activeJobs = s.workedOn := by
  intro h
  have hrun : (agent.run agent.init (Schedule.startup "1" ++ Schedule.connect ++
    Schedule.accept "2" Schedule.exampleJob ++ [.taskResume "a" 0 false] ++
    Schedule.readForCancel "3" "a" ++ [.handlerResume, .taskThrow "a" 0])).isSome = true := by decide
  have hsame := h _ (.after _ hrun)
  have hkey : "a" ∈ (agent.after _ hrun).activeJobs := by
    show ((agent.after _ hrun).slots "a").entry.isSome = true
    rfl
  rw [hsame] at hkey
  obtain ⟨t, ht, hd⟩ := hkey
  have ht : t ∈ [Task.finished] := ht
  rw [List.mem_singleton.mp ht] at hd
  cases hd

end Agent

end PrintAgent
