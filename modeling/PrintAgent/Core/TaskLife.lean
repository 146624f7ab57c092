import PrintAgent.Core.Base

/-!
# The life of a `_process` task

A task goes from one await to the next; the loop of `_wait_for_printer` ends after a minute of sleeps.  And
what it awaits can always be answered: none of its awaits depends on another job.

* `Await.rank`        how many awaits are left at most, the one it is at included (`rank_resume`);
* `Task.Answered`     the answer that a task has is one that its await goes on with (`resume_of_takes`);
* `Job.due`           what is left of a job's task, answers included (`due_step`);
* `tasks_end`         a task makes 70 steps at most, and at any moment it gets to its end by its own steps alone.
-/

namespace PrintAgent

/-! ## what is left -/

namespace Await

/-- how many sleeps are left after `waited` seconds -/
def sleepsLeft (waited : Nat) : Nat :=
  (waitForPrinterMaxSeconds - waited + waitForPrinterPollSeconds - 1) / waitForPrinterPollSeconds

def rank : Await → Nat
  | .ended => 0
  | .sendCompleted | .sendFailed _ _ => 1
  | .setCompleted | .setFailed _ _ => 2
  | .print _ _ => 3
  | .sendStarted _ _ => 4
  | .setPrinting _ _ => 5
  | .pollStatus _ _ waited => 6 + 2 * sleepsLeft waited
  | .sleep _ _ waited => 7 + 2 * sleepsLeft (waited + waitForPrinterPollSeconds)
  | .setWaiting _ _ => 30
  | .getStatus _ _ => 31
  | .setLocalFilePath _ _ => 32
  | .download _ => 33
  | .get => 34
  | .start => 35

theorem sleepsLeft_add {waited : Nat} (h : waited < waitForPrinterMaxSeconds) :
    sleepsLeft (waited + waitForPrinterPollSeconds) + 1 ≤ sleepsLeft waited := by
  unfold sleepsLeft waitForPrinterMaxSeconds waitForPrinterPollSeconds at *
  omega

section Rank
variable {c e : Bool} {ans : Answer} {record : PrintJobRecord} {path : String} {waited : Nat}

def nextRank : Next → Nat
  | .await a => a.rank
  | .ret _ => 0

theorem rank_waitForPrinter : nextRank (waitForPrinter c record path) ≤ 31 := by
  unfold waitForPrinter
  split
  · exact Nat.zero_le _
  · exact Nat.le_refl _

theorem rank_printerOnline : nextRank (printerOnline c record path) ≤ 5 := by
  unfold printerOnline
  split
  · exact Nat.zero_le _
  · exact Nat.le_refl _

theorem rank_pollLoop : nextRank (pollLoop c record path waited) < 6 + 2 * sleepsLeft waited := by
  have hoffline : nextRank (printerOffline record) < 6 + 2 * sleepsLeft waited := by
    show 2 < 6 + 2 * sleepsLeft waited
    omega
  unfold pollLoop
  split
  · rename_i hlt
    split
    · exact hoffline
    · have hleft := sleepsLeft_add hlt
      show 7 + 2 * sleepsLeft (waited + waitForPrinterPollSeconds) < 6 + 2 * sleepsLeft waited
      omega
  · exact hoffline

/-- every await leads to fewer -/
theorem rank_resume {a : Await} {n : Next} (h : a.resume c e ans = some n) : nextRank n < a.rank := by
  unfold resume at h
  split at h
  case h_3 =>
    split at h
    · cases h
      show 33 < 34
      omega
    · split at h
      · cases h
        show 33 < 34
        omega
      · rw [← Option.some.inj h]
        exact Nat.lt_of_le_of_lt rank_waitForPrinter (by decide)
  case h_7 =>
    rw [← Option.some.inj h]
    exact Nat.lt_of_le_of_lt rank_waitForPrinter (show 31 < 32 by omega)
  case h_8 =>
    rw [← Option.some.inj h]
    exact Nat.lt_of_le_of_lt rank_printerOnline (show 5 < 31 by omega)
  case h_11 =>
    rw [← Option.some.inj h]
    exact rank_pollLoop
  case h_12 =>
    cases h
    simp only [rank, nextRank]
    omega
  case h_13 =>
    rw [← Option.some.inj h]
    refine Nat.lt_of_le_of_lt rank_printerOnline ?_
    simp only [rank]
    omega
  case h_14 =>
    rw [← Option.some.inj h]
    exact rank_pollLoop
  case h_15 =>
    cases h
    simp only [rank, nextRank]
    omega
  case h_24 => cases h
  all_goals
    cases h
    simp [rank, nextRank, fail]

theorem rank_le {a : Await} (h : a ≠ .start) : a.rank ≤ 34 := by
  have hsleeps : ∀ waited, sleepsLeft waited ≤ 12 := by
    intro waited
    unfold sleepsLeft waitForPrinterMaxSeconds waitForPrinterPollSeconds
    omega
  have hlater : ∀ waited, sleepsLeft (waited + waitForPrinterPollSeconds) ≤ 11 := by
    intro waited
    unfold sleepsLeft waitForPrinterMaxSeconds waitForPrinterPollSeconds
    omega
  cases a with
  | start => exact absurd rfl h
  | pollStatus record path waited =>
    have hleft := hsleeps waited
    show 6 + 2 * sleepsLeft waited ≤ 34
    omega
  | sleep record path waited =>
    have hleft := hlater waited
    show 7 + 2 * sleepsLeft (waited + waitForPrinterPollSeconds) ≤ 34
    omega
  | _ => simp [rank]

end Rank

end Await

/-! ## what can be answered -/

namespace Await

def takes : Await → Answer → Bool
  | .start, .done => true
  | .get, .record _ => true
  | .setLocalFilePath _ _, .done | .setWaiting _ _, .done | .setPrinting _ _, .done | .sendStarted _ _, .done
  | .setCompleted, .done | .sendCompleted, .done | .setFailed _ _, .done | .sendFailed _ _, .done => true
  | .print _ _, .done | .print _ _, .raised _ => true
  | a, ans => a.accepts ans

theorem takes_of_accepts {a : Await} {ans : Answer} (h : a.accepts ans = true) : a.takes ans = true := by
  cases a <;> cases ans <;> first | exact h | rfl

theorem resume_of_takes {a : Await} {ans : Answer} (h : a.takes ans = true) (c e : Bool) :
    (a.resume c e ans).isSome = true := by
  cases a with
  | get =>
    cases ans with
    | record o =>
      cases o with
      | none => rfl
      | some record =>
        cases hp : record.localFilePath with
        | none =>
          simp only [resume, hp]
          rfl
        | some path =>
          simp only [resume, hp]
          split <;> rfl
    | _ => cases h
  | getStatus record path | pollStatus record path waited =>
    cases ans with
    | status online => cases online <;> rfl
    | raised message => rfl
    | _ => cases h
  | _ => cases ans <;> first | rfl | cases h

theorem takes_of_storeCall {a : Await} {sc : StoreCall} (h : a.storeCall = some sc) (now jobId : String)
    (row : Option PrintJobRow) : a.takes (rowCall now jobId row sc).1 = true := by
  cases a <;> cases h <;> rfl

theorem takes_of_event {a : Await} {jobId : String} {e : JobEvent} (h : a.event jobId = some e) :
    a.takes .done = true := by
  cases a <;> first | rfl | cases h

theorem takes_of_printCall {a : Await} {jobId : String} {p : PrintCall} (h : a.printCall jobId = some p)
    (raises : Option String) : a.takes (raises.elim .done .raised) = true := by
  cases a <;> cases h
  cases raises <;> rfl

theorem waits_for {a : Await} (hs : a ≠ .start) (hd : a ≠ .ended) (jobId : String) :
    (∃ sc, a.storeCall = some sc) ∨ (∃ e, a.event jobId = some e) ∨ (∃ p, a.printCall jobId = some p) ∨
      ∃ ans, a.accepts ans = true := by
  cases a with
  | start => exact absurd rfl hs
  | ended => exact absurd rfl hd
  | get | setLocalFilePath | setWaiting | setPrinting | setCompleted | setFailed => exact .inl ⟨_, rfl⟩
  | sendStarted | sendCompleted | sendFailed => exact .inr (.inl ⟨_, rfl⟩)
  | print => exact .inr (.inr (.inl ⟨_, rfl⟩))
  | download record => exact .inr (.inr (.inr ⟨.raised "", rfl⟩))
  | getStatus record path => exact .inr (.inr (.inr ⟨.raised "", rfl⟩))
  | sleep record path waited => exact .inr (.inr (.inr ⟨.done, rfl⟩))
  | pollStatus record path waited => exact .inr (.inr (.inr ⟨.raised "", rfl⟩))

theorem resume_ne_start {a : Await} {c e : Bool} {ans : Answer} : a.resume c e ans ≠ some (.await .start) := by
  intro h
  have hless : 35 < a.rank := rank_resume h
  by_cases hs : a = .start
  · subst hs
    exact Nat.lt_irrefl _ hless
  · have hbound := rank_le hs
    omega

end Await

namespace Task

/-- the answer that a task has is one that its await goes on with; a new task has one -/
structure Answered (t : Task) : Prop where
  takes : ∀ ans, t.fut = some ans → t.await.takes ans = true
  start : t.await = .start → t.fut.isSome = true

theorem answered_new : Answered .new where
  takes ans h := by cases h; rfl
  start _ := rfl

theorem answered_finished : Answered .finished where
  takes _ h := by cases h
  start h := by cases h

variable {t : Task}

theorem Answered.cancel (h : t.Answered) : t.cancel.Answered where
  takes ans hf := by
    rw [cancel_fut] at hf
    rw [cancel_await]
    exact h.takes ans hf
  start ha := by
    rw [cancel_await] at ha
    rw [cancel_fut]
    exact h.start ha

theorem answered_answer {ans : Answer} (h : t.await.takes ans = true) : (t.answer ans).Answered where
  takes ans' hf := by
    cases hf
    exact h
  start _ := rfl

theorem answered_goTo {jobId : String} {socket : Bool} {a : Await} (h : a ≠ .start) :
    (goTo jobId socket a).Answered where
  takes ans hf := by
    cases he : a.event jobId with
    | none =>
      simp only [goTo, he] at hf
      cases hf
    | some e =>
      cases socket with
      | true =>
        simp only [goTo, he] at hf
        cases hf
      | false =>
        simp only [goTo, he] at hf
        cases hf
        exact Await.takes_of_event he
  start ha := absurd ha h

/-! how much of a task is left -/

/-- what is left of a task: each await is answered, and then goes on -/
def due (t : Task) : Nat := 2 * t.await.rank + if t.fut.isNone then 1 else 0

theorem due_cancel : t.cancel.due = t.due := by
  unfold due
  rw [cancel_await, cancel_fut]

theorem due_answer {ans : Answer} (h : t.fut = none) : (t.answer ans).due + 1 = t.due := by
  unfold due
  rw [h]
  rfl

theorem due_goTo {jobId : String} {socket : Bool} {a : Await} {ans : Answer} (hf : t.fut = some ans)
    (h : a.rank < t.await.rank) : (goTo jobId socket a).due + 1 ≤ t.due := by
  have hnext : (goTo jobId socket a).due ≤ 2 * a.rank + 1 := by
    show 2 * a.rank + (if _ then 1 else 0) ≤ _
    split <;> omega
  have hhere : t.due = 2 * t.await.rank := by
    unfold due
    rw [hf]
    rfl
  omega

theorem due_finished (h : t.isDone = false) : (finished).due + 1 ≤ t.due := by
  have hrank : 1 ≤ t.await.rank := by
    cases ha : t.await <;> simp [isDone, ha, Await.rank] at h ⊢ <;> omega
  show 1 + 1 ≤ 2 * t.await.rank + _
  omega

end Task

namespace Job
variable {jobId : String} {x y : Job} {b : JobAct}

/-! ## one job -/

def TaskAnswered (x : Job) : Prop := ∀ t, x.task = some t → t.Answered

theorem taskAnswered_step (h : x.TaskAnswered) (hs : Step jobId x b y) : y.TaskAnswered := by
  intro t hy
  cases hs with
  | resumeRows hl =>
    rename_i resume
    cases resume with
    | false => exact h t hy
    | true =>
      cases hy
      exact Task.answered_new
  | handlerCancelTask =>
    rcases x.cancelTask_cases jobId with ⟨he, _⟩ | ⟨t', _, ht, he⟩
    · rw [he] at hy
      exact h t hy
    · rw [he] at hy
      cases hy
      exact (h t' ht).cancel
  | handlerCreateTask =>
    cases hy
    exact Task.answered_new
  | taskCall now ht hc =>
    cases hy
    exact Task.answered_answer (Await.takes_of_storeCall (Task.of_pendingStoreCall hc).2.2 now jobId x.row)
  | taskAnswer ht hw ha =>
    cases hy
    exact Task.answered_answer (Await.takes_of_accepts ha)
  | taskSend ht he =>
    cases hy
    exact Task.answered_answer (Await.takes_of_event (Task.of_pendingEvent he).2.2)
  | taskPrint raises ht hp =>
    cases hy
    exact Task.answered_answer (Await.takes_of_printCall (Task.of_pendingPrint hp).2.2 raises)
  | taskAwait pathExists socket ht hn hfut hr =>
    cases hy
    refine Task.answered_goTo fun he => ?_
    rw [he] at hr
    exact Await.resume_ne_start hr
  | taskRet =>
    cases hy
    exact Task.answered_finished
  | taskThrow =>
    cases hy
    exact Task.answered_finished
  | crash => cases hy
  | _ => exact h t hy

/-- what is left of the job's task, or of the one that may still be created -/
def due (x : Job) : Nat := (x.task.map Task.due).getD 70

theorem due_of_task {t : Task} (h : x.task = some t) : x.due = t.due := by
  unfold due
  rw [h]
  rfl

theorem due_congr (h : y.task = x.task) : y.due = x.due := by
  unfold due
  rw [h]

/-- every step of the task uses up some of it, and no other step gives any back -/
theorem due_step (hf : x.Fit) (hb : x.Base) (hs : Step jobId x b y) (hc : b ≠ .crash) :
    y.due + (if b.isTask then 1 else 0) ≤ x.due := by
  have hcreated : Creates x b → y.task = some .new → y.due ≤ x.due := by
    intro hcr hy
    have hnone : x.due = 70 := by
      unfold due
      rw [(hb.of_creates hf hcr).1]
      rfl
    rw [due_of_task hy, hnone]
    exact Nat.le_refl 70
  cases hs with
  | resumeRows hl =>
    rename_i resume
    cases resume with
    | false => exact Nat.le_of_eq (due_congr rfl)
    | true => exact hcreated (.resumed hl) rfl
  | handlerCancelTask =>
    refine Nat.le_of_eq ?_
    rcases x.cancelTask_cases jobId with ⟨he, _⟩ | ⟨t', _, ht, he⟩
    · rw [he]
      exact due_congr rfl
    · rw [due_of_task ht, ← Task.due_cancel]
      exact due_of_task (t := t'.cancel) (by rw [he])
  | handlerCreateTask hh hfut hr =>
    exact hcreated (.dispatched hh (HandlerAwait.flow_of_resume hr).of_createTask) rfl
  | taskCall now ht hcall =>
    rw [due_of_task ht, ← Task.due_answer (Task.of_pendingStoreCall hcall).2.1]
    exact Nat.le_refl _
  | taskAnswer ht hw ha =>
    rw [due_of_task ht, ← Task.due_answer (Task.of_isWaiting hw).1]
    exact Nat.le_refl _
  | taskSend ht he =>
    rw [due_of_task ht, ← Task.due_answer (Task.of_pendingEvent he).2.1]
    exact Nat.le_refl _
  | taskPrint raises ht hp =>
    rw [due_of_task ht, ← Task.due_answer (Task.of_pendingPrint hp).2.1]
    exact Nat.le_refl _
  | taskAwait pathExists socket ht hn hfut hr =>
    rw [due_of_task ht]
    exact Task.due_goTo hfut (Await.rank_resume hr)
  | taskRet pathExists socket ht hn hfut hr =>
    rw [due_of_task ht]
    exact Task.due_finished (decide_eq_false (Task.of_isLive (isLive_of_resume hn hr)).2)
  | taskThrow ht hcancelled hd =>
    rw [due_of_task ht]
    exact Task.due_finished hd
  | crash => exact absurd rfl hc
  | _ => exact Nat.le_of_eq (due_congr rfl)

end Job

/-! ## the agent -/

def Act.isTaskOf (jobId : String) : Act → Bool
  | .taskCall k _ _ | .taskAnswer k _ _ | .taskSend k _ _ | .taskPrint k _ _ | .taskResume k _ _ | .taskThrow k _ =>
    k = jobId
  | _ => false

namespace Agent
variable {s s' : Agent} {a : Act} {jobId : String} {i : Nat} {t : Task}

theorem isTask_of_seen {b : JobAct} (h : s.seen jobId a = some b) : b.isTask = a.isTaskOf jobId := by
  cases a <;> simp only [seen, Option.map_eq_some_iff, Option.ite_none_right_eq_some, reduceCtorEq] at h <;>
    first
    | (obtain ⟨hk, hb⟩ := h; cases hb; simp [JobAct.isTask, Act.isTaskOf, hk])
    | (obtain ⟨hd, -, rfl⟩ := h; rfl)

theorem isTaskOf_of_unseen (h : s.seen jobId a = none) : a.isTaskOf jobId = false := by
  cases a <;> first | rfl | simpa [seen, Act.isTaskOf] using h

/-- **What a task has left is used up by its own steps.** -/
theorem due_step (jobId : String) (hr : agent.Reach Machine.Any s) (hc : a ≠ .crash) (ha : agent.step s a = some s') :
    (s'.view jobId).due + (if a.isTaskOf jobId then 1 else 0) ≤ (s.view jobId).due := by
  rcases seen_step hr ha with ⟨hsame, hnone⟩ | ⟨b, hb, hf, hbase, hstep⟩
  · rw [hsame, isTaskOf_of_unseen hnone]
    exact Nat.le_refl _
  · rw [← isTask_of_seen hb]
    refine Job.due_step hf hbase hstep fun he => ?_
    subst he
    cases a <;> simp [seen] at hb
    exact hc rfl

theorem taskAnswered_of_reach (h : agent.Reach Machine.Any s) (jobId : String) : (s.view jobId).TaskAnswered :=
  job_invariant (D := fun _ _ => True) (I := Job.TaskAnswered) (fun _ ht => by cases ht)
    (fun _ _ _ _ _ hx _ hs => Job.taskAnswered_step hx hs) (fun _ _ _ _ _ => trivial) h

/-- the task's own answers and resumptions are always possible: it waits for no other job -/
theorem can_go_on (hr : agent.Reach Machine.Any s) (ht : s.task jobId i = some t) (hd : t.isDone = false) :
    ∃ a, a.isTaskOf jobId = true ∧ (s.step a).isSome = true := by
  have hanswered := taskAnswered_of_reach hr jobId t (view_task (sound_of_reach hr) ht).1
  cases hcancelled : t.cancelled with
  | true =>
    refine ⟨.taskThrow jobId i, decide_eq_true rfl, ?_⟩
    simp only [step, ht, hcancelled, hd, Option.bind_eq_bind, Option.bind_some]
    rfl
  | false =>
    cases hfut : t.fut with
    | some ans =>
      obtain ⟨n, hn⟩ := Option.isSome_iff_exists.mp
        (Await.resume_of_takes (hanswered.takes ans hfut) (s.slots jobId).cancelRequested true)
      refine ⟨.taskResume jobId i true, decide_eq_true rfl, ?_⟩
      simp only [step, ht, hcancelled, hfut, hn, Option.bind_eq_bind, Option.bind_some]
      rfl
    | none =>
      have hwaits : t.isWaiting = true := by simp [Task.isWaiting, hcancelled, hfut]
      have hstart : t.await ≠ .start := fun he => by
        have hsome := hanswered.start he
        rw [hfut] at hsome
        cases hsome
      rcases Await.waits_for hstart (of_decide_eq_false hd) jobId with
        ⟨c, hc⟩ | ⟨e, he⟩ | ⟨p, hp⟩ | ⟨ans, hans⟩
      · refine ⟨.taskCall jobId i "", decide_eq_true rfl, ?_⟩
        simp only [step, ht, Task.pendingStoreCall, hwaits, hc, if_true, Option.bind_eq_bind, Option.bind_some]
        rfl
      · refine ⟨.taskSend jobId i true, decide_eq_true rfl, ?_⟩
        simp only [step, ht, Task.pendingEvent, hwaits, he, if_true, Option.bind_eq_bind, Option.bind_some]
        rfl
      · refine ⟨.taskPrint jobId i none, decide_eq_true rfl, ?_⟩
        simp only [step, ht, Task.pendingPrint, hwaits, hp, if_true, Option.bind_eq_bind, Option.bind_some]
        rfl
      · refine ⟨.taskAnswer jobId i ans, decide_eq_true rfl, ?_⟩
        simp only [step, ht, hwaits, hans, Option.bind_eq_bind, Option.bind_some]
        rfl

theorem task_of_own (hr : agent.Reach Machine.Any s) (ht : s.task jobId i = some t) (hown : a.isTaskOf jobId = true)
    (ha : agent.step s a = some s') : ∃ t', s'.task jobId i = some t' := by
  obtain ⟨hview, rfl⟩ := view_task (sound_of_reach hr) ht
  have hslots := (sound_of_reach (hr.step trivial ha)).tasks_eq jobId
  have htask : ∃ t', (s'.view jobId).task = some t' := by
    rcases seen_step hr ha with ⟨hsame, -⟩ | ⟨b, hb, -, -, hstep⟩
    · rw [hsame]
      exact ⟨t, hview⟩
    · refine Job.isSome_task_step hstep (fun he => ?_) ⟨t, hview⟩
      have hcost := isTask_of_seen hb
      rw [he, hown] at hcost
      cases hcost
  obtain ⟨t', ht'⟩ := htask
  refine ⟨t', ?_⟩
  unfold task
  rw [hslots, ht']
  rfl

/-- a task that runs alone gets to its end -/
theorem ends_alone (hr : agent.Reach Machine.Any s) (ht : s.task jobId i = some t) :
    ∃ as s' t', (∀ a ∈ as, a.isTaskOf jobId = true) ∧ as.length ≤ (s.view jobId).due ∧
      agent.run s as = some s' ∧ s'.task jobId i = some t' ∧ t'.isDone = true := by
  generalize hn : (s.view jobId).due = n
  induction n using Nat.strongRecOn generalizing s t with
  | ind n ih =>
    cases hd : t.isDone with
    | true => exact ⟨[], s, t, fun _ ha => absurd ha List.not_mem_nil, Nat.zero_le n, rfl, ht, hd⟩
    | false =>
      obtain ⟨a, hown, hpossible⟩ := can_go_on hr ht hd
      obtain ⟨s₁, hstep⟩ := Option.isSome_iff_exists.mp hpossible
      have hr₁ : agent.Reach Machine.Any s₁ := hr.step trivial hstep
      have hless := due_step jobId hr (fun he => by rw [he] at hown; cases hown) hstep
      rw [hown, if_pos rfl, hn] at hless
      obtain ⟨t₁, ht₁⟩ := task_of_own hr ht hown hstep
      obtain ⟨as, s', t', howns, hlen, hrun, ht', hd'⟩ := ih _ (by omega) hr₁ ht₁ rfl
      refine ⟨a :: as, s', t', fun b hb => ?_, ?_, agent.run_cons_eq_some.mpr ⟨s₁, hstep, hrun⟩, ht', hd'⟩
      · rcases List.mem_cons.mp hb with rfl | hb
        · exact hown
        · exact howns b hb
      · rw [List.length_cons]
        omega

end Agent

/-- a job whose printer is offline, up to the first sleep -/
def Schedule.offline : List Act :=
  startup "1" ++ connect ++ accept "2" exampleJob ++ download "3" "/tmp/a" "a" ++ getStatus false "a" ++
    [.taskCall "a" 0 "4", .taskResume "a" 0 true]

end PrintAgent
