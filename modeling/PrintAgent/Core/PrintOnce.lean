import PrintAgent.Core.Base

/-!
# At most one print per job

`print_at_most_once`: over a whole run, lives and crashes included, `PrinterManager.print` is called
at most once for a job.  The invariant (`Job.Once`): a job that was printed, or whose print was left
to a thread, is `spent`: its row can never be resumed again, and no `WAITING_FOR_PRINTER` write that
would make it so is on its way.
-/

namespace PrintAgent

def Task.beforePrint (t : Task) : Bool :=
  match t.await with
  | .setPrinting _ _ | .sendStarted _ _ => true
  | .print _ _ => t.fut.isNone
  | a => a.isEarly

theorem Await.of_printCall {a : Await} {j : String} {p : PrintCall} (h : a.printCall j = some p) :
    ∃ record path, a = .print record path := by
  cases a <;> cases h
  exact ⟨_, _, rfl⟩

namespace Task
variable {t : Task} {j : String}

theorem beforePrint_of_pendingPrint {p : PrintCall} (h : t.pendingPrint j = some p) :
    t.beforePrint = true := by
  obtain ⟨_, hf, hp⟩ := of_pendingPrint h
  obtain ⟨record, path, ha⟩ := Await.of_printCall hp
  simp [beforePrint, ha, hf]

theorem beforePrint_answer {ans : Answer}
    (h : (t.answer ans).beforePrint = true) : t.beforePrint = true := by
  unfold beforePrint answer at *
  cases ha : t.await <;> simp_all

theorem beforePrint_answer_of_pendingPrint {p : PrintCall} (h : t.pendingPrint j = some p)
    (ans : Answer) : (t.answer ans).beforePrint = false := by
  obtain ⟨record, path, ha⟩ := Await.of_printCall (of_pendingPrint h).2.2
  simp [beforePrint, answer, ha]

theorem beforePrint_of_flow {cr socket : Bool} {a : Await} (h : Flow cr t.await a)
    (hb : (goTo j socket a).beforePrint = true) : t.beforePrint = true := by
  unfold beforePrint at *
  generalize t.await = a' at *
  cases h with
  | early ha hb =>
    cases a' <;> first | rfl | cases ha
  | toPrinting ha _ _ _ => cases a' <;> first | rfl | cases ha
  | toFailed ha _ _ => cases hb
  | toStarted _ _ => rfl
  | toPrint _ _ => rfl
  | printed _ _ => cases hb
  | printFailed _ _ _ _ => cases hb
  | toCompleted => cases hb
  | toFailedEvent _ _ => cases hb

end Task

namespace Job

/-- the job was printed, or a thread still has its print call -/
def Printed (x : Job) : Prop := x.prints ≠ [] ∨ ∃ p, ThreadCall.print p ∈ x.leftBehind

structure Once (x : Job) : Prop where
  le_one : x.prints.length ≤ 1
  left : ∀ p, ThreadCall.print p ∈ x.leftBehind → x.prints = []
  unprinted : ∀ t, x.task = some t → t.isLive = true → t.beforePrint = true → x.prints = []
  spent : x.Printed → ∃ st, x.status = some st ∧ st.isResumable = false
  noWaiting : x.Printed → ∀ c, ThreadCall.store c ∈ x.leftBehind →
    c.written ≠ some .waitingForPrinter

theorem once_init : Once .init where
  le_one := Nat.zero_le _
  left _ h := absurd h List.not_mem_nil
  unprinted _ h := by cases h
  spent h := by
    rcases h with h | ⟨_, h⟩
    · exact absurd rfl h
    · cases h
  noWaiting _ _ h := absurd h List.not_mem_nil

variable {jobId : String} {x y : Job} {b : JobAct}

theorem Base.printing_of_pendingPrint (hf : x.Fit) (hb : x.Base) {t : Task} (ht : x.task = some t)
    {p : PrintCall} (hp : t.pendingPrint jobId = some p) : x.status = some .printing := by
  obtain ⟨hl, _, hp⟩ := Task.of_pendingPrint hp
  obtain ⟨record, path, ha⟩ := Await.of_printCall hp
  obtain ⟨st, hst, hex⟩ := Base.status_of_live hf hb ht hl
  rw [ha] at hex
  exact hst.trans (congrArg some hex)

theorem once_unprinted (hf : x.Fit) (hb : x.Base) (ho : x.Once) (hs : Step jobId x b y) :
    ∀ t, y.task = some t → t.isLive = true → t.beforePrint = true → x.prints = [] := by
  intro t ht hl hbefore
  have htask := task_step hs
  rw [ht] at htask
  cases htask with
  | same _ he => exact ho.unprinted t he.symm hl hbefore
  | created hc =>
    obtain ⟨_, st, hst, hr⟩ := hb.of_creates hf hc
    by_contra hp
    obtain ⟨st', hst', hr'⟩ := ho.spent (.inl hp)
    rw [hst] at hst'
    cases hst'
    rw [hr] at hr'
    cases hr'
  | cancelled => simp at hl
  | answered ans ht' hl' hfut => exact ho.unprinted _ ht' hl' (Task.beforePrint_answer hbefore)
  | went pathExists socket ht' hl' hfut hflow =>
    exact ho.unprinted _ ht' hl' (Task.beforePrint_of_flow hflow hbefore)
  | ended => cases hl
  | thrown => cases hl

theorem once_status (hb : x.Base) (ho : x.Once) (hp : x.Printed)
    (hs : Step jobId x b y) : ∃ st, y.status = some st ∧ st.isResumable = false := by
  obtain ⟨st, hst, hr⟩ := ho.spent hp
  have hstat := status_step hs hb.leftCall
  generalize y.status = o at hstat
  cases hstat with
  | same he => exact ⟨st, he.trans hst, hr⟩
  | inserted now hh hfut ha hrow =>
    obtain ⟨row, hrow', _⟩ := status_eq_some.mp hst
    rw [hrow] at hrow'
    cases hrow'
  | restarted now hl hst' => exact ⟨_, rfl, rfl⟩
  | cancelled now hh hfut ha hst' => exact ⟨_, rfl, rfl⟩
  | worked now ht hl hfut hc hw hst' =>
    rcases Await.written_cases hc hw with ⟨_, ha⟩ | ⟨rfl, _⟩ | ⟨rfl, _⟩ | ⟨rfl, _⟩
    · -- an early task has a row that can be resumed
      have hex := (Await.expects_of_isEarly ha).mp (hb.live _ ht hl st hst)
      rw [hr] at hex
      cases hex
    · exact ⟨_, rfl, rfl⟩
    · exact ⟨_, rfl, rfl⟩
    · exact ⟨_, rfl, rfl⟩
  | left now hn hw hst' =>
    have hmem := List.mem_of_getElem? hn
    obtain ⟨a, ha⟩ := hb.leftCall _ hmem
    rcases Await.written_cases ha hw with ⟨rfl, _⟩ | ⟨rfl, _⟩ | ⟨rfl, _⟩ | ⟨rfl, _⟩
    · exact absurd hw (ho.noWaiting hp _ hmem)
    · exact ⟨_, rfl, rfl⟩
    · exact ⟨_, rfl, rfl⟩
    · exact ⟨_, rfl, rfl⟩

/-- a job is printed by its live task, whose row is `PRINTING`, or was printed before -/
theorem printed_step (hf : x.Fit) (hb : x.Base) (hs : Step jobId x b y) (hp : y.Printed) :
    x.Printed ∨ (y.status = some .printing ∧ ∀ c, ThreadCall.store c ∉ y.leftBehind) := by
  rcases hp with hp | ⟨p, hp⟩
  · rcases prints_step hs with he | ⟨t, p, ans, ht, hpend, _, hleft, hst, _⟩ | ⟨n, p, hn, _⟩
    · exact .inl (.inl (he ▸ hp))
    · refine .inr ⟨hst.trans (hb.printing_of_pendingPrint hf ht hpend), fun c hc => ?_⟩
      rw [hleft, hb.leftBehind_of_live ht (Task.of_pendingPrint hpend).1] at hc
      cases hc
    · exact .inl (.inr ⟨p, List.mem_of_getElem? hn⟩)
  · rcases leftBehind_step hs with hsub | ⟨t, _, _, ht, _, _, _, _, _, _, rfl⟩
    · exact .inl (.inr ⟨p, hsub.subset hp⟩)
    · rcases List.mem_append.mp hp with hold | hnew
      · exact .inl (.inr ⟨p, hold⟩)
      · rcases Task.mem_pendingThreadCall.mp hnew with ⟨sc, _, he⟩ | ⟨p', hp', _⟩
        · cases he
        · have hst : x.status = some .printing := hb.printing_of_pendingPrint hf ht hp'
          refine .inr ⟨hst, fun c hc => ?_⟩
          obtain ⟨hl, _, hcall⟩ := Task.of_pendingPrint hp'
          have hc : ThreadCall.store c ∈ x.leftBehind ++ t.pendingThreadCall jobId := hc
          rw [hb.leftBehind_of_live ht hl, List.nil_append] at hc
          rcases Task.mem_pendingThreadCall.mp hc with ⟨sc, hsc, _⟩ | ⟨_, _, he⟩
          · have hsc := (Task.of_pendingStoreCall hsc).2.2
            rw [Await.storeCall_of_printCall hcall] at hsc
            cases hsc
          · cases he

theorem once_le_one (ho : x.Once) (hs : Step jobId x b y) : y.prints.length ≤ 1 := by
  rcases prints_step hs with he | ⟨t, p, ans, ht, hp, _, _, _, he⟩ | ⟨n, p, hn, _, _, _, he⟩
  · rw [he]
    exact ho.le_one
  · rw [he, ho.unprinted t ht (Task.of_pendingPrint hp).1 (Task.beforePrint_of_pendingPrint hp)]
    exact Nat.le_refl 1
  · rw [he, ho.left p (List.mem_of_getElem? hn)]
    exact Nat.le_refl 1

theorem once_left (hb : x.Base) (ho : x.Once) (hs : Step jobId x b y) :
    ∀ p, ThreadCall.print p ∈ y.leftBehind → y.prints = [] := by
  intro p hp
  have hold : ThreadCall.print p ∈ x.leftBehind → y.prints = [] := by
    intro hp'
    rcases prints_step hs with he | ⟨t, p', ans, ht, hpend, _⟩ | ⟨n, p', hn, _, hleft, _⟩
    · rw [he]
      exact ho.left p hp'
    · rw [hb.leftBehind_of_live ht (Task.of_pendingPrint hpend).1] at hp'
      cases hp'
    · rw [hleft, hb.eraseIdx_leftBehind hn] at hp
      cases hp
  rcases leftBehind_step hs with hsub | ⟨t, _, _, ht, _, _, _, _, _, _, rfl⟩
  · exact hold (hsub.subset hp)
  · rcases List.mem_append.mp hp with hp' | hnew
    · exact hold hp'
    · rcases Task.mem_pendingThreadCall.mp hnew with ⟨sc, _, he⟩ | ⟨p', hp', _⟩
      · cases he
      · exact ho.unprinted t ht (Task.of_pendingPrint hp').1 (Task.beforePrint_of_pendingPrint hp')

theorem once_noWaiting (hb : x.Base) (ho : x.Once) (hp : x.Printed) (hs : Step jobId x b y) :
    ∀ c, ThreadCall.store c ∈ y.leftBehind → c.written ≠ some .waitingForPrinter := by
  intro c hc hw
  rcases leftBehind_step hs with hsub | ⟨t, _, _, ht, _, _, _, _, _, _, rfl⟩
  · exact ho.noWaiting hp c (hsub.subset hc) hw
  · rcases List.mem_append.mp hc with hold | hnew
    · exact ho.noWaiting hp c hold hw
    · rcases Task.mem_pendingThreadCall.mp hnew with ⟨sc, hsc, he⟩ | ⟨_, _, he⟩
      · cases he
        obtain ⟨hl, _, hcall⟩ := Task.of_pendingStoreCall hsc
        obtain ⟨st, hst, hr⟩ := ho.spent hp
        rcases Await.written_cases hcall hw with ⟨_, ha⟩ | ⟨he, _⟩ | ⟨he, _⟩ | ⟨he, _⟩
        · have hex := (Await.expects_of_isEarly ha).mp (hb.live t ht hl st hst)
          rw [hr] at hex
          cases hex
        all_goals cases he
      · cases he

theorem once_step (hf : x.Fit) (hb : x.Base) (ho : x.Once) (hs : Step jobId x b y) : y.Once where
  le_one := once_le_one ho hs
  left := once_left hb ho hs
  unprinted t ht hl hbefore := by
    have hx := once_unprinted hf hb ho hs t ht hl hbefore
    rcases prints_step hs with he | ⟨t', p, ans, _, hp, hy, _⟩ | ⟨n, p, hn, hy, _⟩
    · rw [he]
      exact hx
    · rw [ht] at hy
      cases hy
      rw [Task.beforePrint_answer_of_pendingPrint hp ans] at hbefore
      cases hbefore
    · rw [hb.leftBehind_of_live (hy.symm.trans ht) hl] at hn
      cases hn
  spent hp := by
    rcases printed_step hf hb hs hp with hx | ⟨hst, _⟩
    · exact once_status hb ho hx hs
    · exact ⟨_, hst, rfl⟩
  noWaiting hp c hc := by
    rcases printed_step hf hb hs hp with hx | ⟨_, hno⟩
    · exact once_noWaiting hb ho hx hs c hc
    · exact absurd hc (hno c)

end Job

theorem Agent.once_of_reach {s : Agent} (h : agent.Reach Machine.Any s) (jobId : String) :
    (s.view jobId).Once :=
  Agent.job_invariant (D := fun _ _ => True) Job.once_init
    (fun _ _ _ hf hb ho _ hs => Job.once_step hf hb ho hs) (fun _ _ _ _ _ => trivial) h

/-- **At most one print per job.** -/
theorem print_at_most_once {s : Agent} (h : agent.Reach Machine.Any s) (jobId : String) :
    (s.prints.filter (·.jobId = jobId)).length ≤ 1 :=
  (Agent.once_of_reach h jobId).le_one

/-- a job is printed; the agent crashes and starts again; the hub dispatches the job again -/
def Schedule.printedThenRestarted (message : PrintJobDispatch) : List Act :=
  startup "1" ++ connect ++ accept "2" message ++ download "3" "/tmp/a.pdf" message.jobId ++
    getStatus true message.jobId ++ start "4" message.jobId ++
    [.taskPrint message.jobId 0 none, .crash] ++ startup "5" ++
    [.connect, .authenticated, .flushSend true, .flushEnd, .synced, .dispatch message,
      .handlerCall "6", .handlerResume, .handlerSend true, .handlerResume]

theorem print_at_most_once_restarted :
    (((agent.after (Schedule.printedThenRestarted Schedule.exampleJob)
      (by decide)).prints).filter (·.jobId = "a")).length ≤ 1 :=
  print_at_most_once (.after _ (by decide)) "a"

end PrintAgent
