import PrintAgent.Core.Job

/-!
# What a step does to a job

`Job.Step` says of each kind of step what the job is afterwards.  Here the same is said the other
way round, for each part of the job: who can have changed it, and how.

* `StatusStep`, `status_step`          the status of the row;
* `TaskStep`, `task_step`              the task;
* `HandlerStep`, `handler_step`        the handler;
* `HandedStep`, `handed_step`          the events handed over;
* `leftBehind_step`, `prints_step`     the calls left behind, and the print calls.
-/

namespace PrintAgent

/-! ## what a call writes -/

namespace StoreCall

def written : StoreCall → Option PrintJobStatus
  | .updateStatus status _ _ => some status
  | _ => none

end StoreCall

/-- the statuses that `_process` writes, and where -/
theorem Await.written_cases {a : Await} {c : StoreCall} {st : PrintJobStatus}
    (hc : a.storeCall = some c) (hw : c.written = some st) :
    (st = .waitingForPrinter ∧ a.isEarly = true) ∨
    (st = .printing ∧ ∃ record path, a = .setPrinting record path) ∨
    (st = .completed ∧ a = .setCompleted) ∨
    (st = .failed ∧ ∃ errorCode message, a = .setFailed errorCode message) := by
  cases a <;> cases hc <;> cases hw
  · exact .inl ⟨rfl, rfl⟩
  · exact .inr (.inl ⟨rfl, _, _, rfl⟩)
  · exact .inr (.inr (.inl ⟨rfl, rfl⟩))
  · exact .inr (.inr (.inr ⟨rfl, _, _, rfl⟩))

theorem status_rowCall (now jobId : String) (row : PrintJobRow) (c : StoreCall) :
    ∃ row', (rowCall now jobId (some row) c).2 = some row' ∧
      row'.status = c.written.getD row.status := by
  cases c with
  | get => exact ⟨row, rfl, rfl⟩
  | insertReceived job => exact ⟨row, rfl, rfl⟩
  | updateStatus status errorCode errorMessage => exact ⟨_, rfl, by simp [StoreCall.written]⟩
  | setLocalFilePath path => exact ⟨_, rfl, rfl⟩

/-! ## what a task or a handler that waits is like -/

namespace Task
variable {t : Task} {j : String}

@[simp] theorem cancel_isLive : t.cancel.isLive = false := by
  unfold cancel
  split
  · rename_i hd; simp [isLive, hd]
  · rfl

@[simp] theorem cancel_await : t.cancel.await = t.await := by unfold cancel; split <;> rfl
@[simp] theorem cancel_fut : t.cancel.fut = t.fut := by unfold cancel; split <;> rfl
@[simp] theorem answer_isLive (ans : Answer) : (t.answer ans).isLive = t.isLive := rfl

theorem of_isWaiting (h : t.isWaiting = true) : t.fut = none ∧ t.cancelled = false := by
  unfold isWaiting at h
  rw [Bool.and_eq_true, Option.isNone_iff_eq_none, Bool.not_eq_true'] at h
  exact h

theorem isLive_of (hc : t.cancelled = false) (ha : t.await ≠ .ended) : t.isLive = true := by
  simp [isLive, isDone, hc, ha]

theorem of_isLive (h : t.isLive = true) : t.cancelled = false ∧ t.await ≠ .ended := by
  simpa [isLive, isDone] using h

theorem of_pendingStoreCall {c : StoreCall} (h : t.pendingStoreCall = some c) :
    t.isLive = true ∧ t.fut = none ∧ t.await.storeCall = some c := by
  unfold pendingStoreCall at h
  split at h
  · rename_i hw
    obtain ⟨hf, hc⟩ := of_isWaiting hw
    have hne : t.await ≠ .ended := fun he => by rw [he] at h; cases h
    exact ⟨isLive_of hc hne, hf, h⟩
  · cases h

theorem of_pendingEvent {e : JobEvent} (h : t.pendingEvent j = some e) :
    t.isLive = true ∧ t.fut = none ∧ t.await.event j = some e := by
  unfold pendingEvent at h
  split at h
  · rename_i hw
    obtain ⟨hf, hc⟩ := of_isWaiting hw
    have hne : t.await ≠ .ended := fun he => by rw [he] at h; cases h
    exact ⟨isLive_of hc hne, hf, h⟩
  · cases h

theorem of_pendingPrint {p : PrintCall} (h : t.pendingPrint j = some p) :
    t.isLive = true ∧ t.fut = none ∧ t.await.printCall j = some p := by
  unfold pendingPrint at h
  split at h
  · rename_i hw
    obtain ⟨hf, hc⟩ := of_isWaiting hw
    have hne : t.await ≠ .ended := fun he => by rw [he] at h; cases h
    exact ⟨isLive_of hc hne, hf, h⟩
  · cases h

theorem mem_pendingThreadCall {c : ThreadCall} :
    c ∈ t.pendingThreadCall j ↔
      (∃ sc, t.pendingStoreCall = some sc ∧ c = .store sc) ∨
      ∃ p, t.pendingPrint j = some p ∧ c = .print p := by
  rw [pendingThreadCall, List.mem_append, Option.mem_toList, Option.mem_toList,
    Option.map_eq_some_iff, Option.map_eq_some_iff]
  simp only [eq_comm]

theorem pendingThreadCall_length : (t.pendingThreadCall j).length ≤ 1 := by
  unfold pendingThreadCall pendingStoreCall pendingPrint
  split
  · cases t.await <;> simp [Await.storeCall, Await.printCall]
  · simp

theorem pendingThreadCall_of_not_live (hl : t.isLive = false) : t.pendingThreadCall j = [] := by
  refine List.eq_nil_iff_forall_not_mem.mpr fun c hc => ?_
  rcases mem_pendingThreadCall.mp hc with ⟨sc, hsc, _⟩ | ⟨p, hp, _⟩
  · rw [(of_pendingStoreCall hsc).1] at hl
    cases hl
  · rw [(of_pendingPrint hp).1] at hl
    cases hl

end Task

theorem Await.storeCall_of_event {a : Await} {j : String} {e : JobEvent} (h : a.event j = some e) :
    a.storeCall = none := by
  cases a <;> first | rfl | cases h

theorem Await.event_cases {a : Await} {j : String} {e : JobEvent} (h : a.event j = some e) :
    (e = .started j ∧ ∃ record path, a = .sendStarted record path) ∨
    (e = .completed j ∧ a = .sendCompleted) ∨
    ∃ errorCode message, e = .failed j (some errorCode) (some message) ∧
      a = .sendFailed errorCode message := by
  cases a <;> cases h
  · exact .inl ⟨rfl, _, _, rfl⟩
  · exact .inr (.inl ⟨rfl, rfl⟩)
  · exact .inr (.inr ⟨_, _, rfl, rfl⟩)

theorem Task.event_of_goTo {j : String} {socket : Bool} {a : Await}
    (h : (Task.goTo j socket a).fut.isSome = true) : ∃ e, a.event j = some e := by
  unfold Task.goTo at h
  cases he : a.event j with
  | none => simp [he] at h
  | some e => exact ⟨e, rfl⟩

theorem Await.storeCall_of_printCall {a : Await} {j : String} {p : PrintCall}
    (h : a.printCall j = some p) : a.storeCall = none := by
  cases a <;> first | rfl | cases h

theorem Await.storeCall_of_accepts {a : Await} {ans : Answer} (h : a.accepts ans = true) :
    a.storeCall = none := by
  cases a <;> first | rfl | cases h

theorem Handler.of_pendingStoreCall {h : Handler} {c : StoreCall} (hc : h.pendingStoreCall = some c) :
    h.fut = none ∧ h.await.storeCall = some c := by
  unfold Handler.pendingStoreCall at hc
  split at hc
  · rename_i hn
    exact ⟨Option.isNone_iff_eq_none.mp hn, hc⟩
  · cases hc

theorem Handler.of_pendingEvent {h : Handler} {e : JobEvent} (he : h.pendingEvent = some e) :
    h.fut = none ∧ h.await.event h.jobId = some e := by
  unfold Handler.pendingEvent at he
  split at he
  · rename_i hn
    exact ⟨Option.isNone_iff_eq_none.mp hn, he⟩
  · cases he

/-! ## what a step does to the status -/

namespace Job
variable {jobId : String} {x y : Job} {b : JobAct}

theorem status_eq_some {x : Job} {st : PrintJobStatus} :
    x.status = some st ↔ ∃ row, x.row = some row ∧ row.status = st := Option.map_eq_some_iff

/-- who changes the status of a job, and to what; `st` is the status after the step -/
inductive StatusStep (x : Job) : JobAct → Option PrintJobStatus → Prop
  | same {b : JobAct} {o : Option PrintJobStatus} (he : o = x.status) : StatusStep x b o
  /-- `handle_dispatch` inserts the row -/
  | inserted {h : Handler} {d : PrintJobDispatch} (now : String) (hh : x.handler = some h)
      (hf : h.fut = none) (ha : h.await = .insertReceived d) (hr : x.row = none) :
      StatusStep x (.handlerCall now) (some .received)
  /-- startup recovery fails a row that was `PRINTING` -/
  | restarted (now : String) (hl : x.life = .marking none) (hst : x.status = some .printing) :
      StatusStep x (.markStuck now) (some .failed)
  /-- `handle_cancel` writes `CANCELLED` -/
  | cancelled {h : Handler} {st : PrintJobStatus} (now : String) (hh : x.handler = some h)
      (hf : h.fut = none) (ha : h.await = .setCancelled) (hst : x.status = some st) :
      StatusStep x (.handlerCall now) (some .cancelled)
  /-- the live task writes -/
  | worked {t : Task} {c : StoreCall} {st st' : PrintJobStatus} (now : String)
      (ht : x.task = some t) (hl : t.isLive = true) (hf : t.fut = none)
      (hc : t.await.storeCall = some c) (hw : c.written = some st') (hst : x.status = some st) :
      StatusStep x (.taskCall now) (some st')
  /-- a call left behind writes -/
  | left {n : Nat} {c : StoreCall} {st st' : PrintJobStatus} (now : String)
      (hn : x.leftBehind[n]? = some (.store c)) (hw : c.written = some st')
      (hst : x.status = some st) : StatusStep x (.leftCall n now) (some st')

theorem status_call (x : Job) (now jobId : String) (c : StoreCall) :
    (((rowCall now jobId x.row c).2.map (·.status)) = x.status) ∨
    (∃ job, c = .insertReceived job ∧ x.row = none ∧
      (rowCall now jobId x.row c).2.map (·.status) = some .received) ∨
    (∃ st st', c.written = some st' ∧ x.status = some st ∧
      (rowCall now jobId x.row c).2.map (·.status) = some st') := by
  cases hrow : x.row with
  | none =>
    cases c with
    | insertReceived job => exact .inr (.inl ⟨job, rfl, rfl, rfl⟩)
    | get => exact .inl (by simp [rowCall, status, hrow])
    | updateStatus status errorCode errorMessage => exact .inl (by simp [rowCall, Job.status, hrow])
    | setLocalFilePath path => exact .inl (by simp [rowCall, status, hrow])
  | some row =>
    obtain ⟨row', hrow', hst⟩ := status_rowCall now jobId row c
    rw [hrow']
    cases hw : c.written with
    | none => exact .inl (by simp [status, hrow, hst, hw])
    | some st' => exact .inr (.inr ⟨row.status, st', rfl, by simp [status, hrow], by simp [hst, hw]⟩)

theorem status_step (hs : Step jobId x b y)
    (hleft : ∀ c, ThreadCall.store c ∈ x.leftBehind → ∃ a : Await, a.storeCall = some c) :
    StatusStep x b y.status := by
  have hinsert : ∀ {a : Await} {job : NewJob}, a.storeCall ≠ some (.insertReceived job) := by
    intro a job
    cases a <;> simp [Await.storeCall]
  cases hs with
  | markStuck now hl =>
    by_cases hst : x.status = some .printing
    · obtain ⟨row, hrow, hst'⟩ := status_eq_some.mp hst
      have hy : status { x with
          life := .marking (some (x.status = some .printing))
          row := x.row.map fun row => if row.status = .printing then row.markFailed now else row }
          = some .failed := by simp [status, hrow, hst']
      rw [hy]
      exact .restarted now hl hst
    · have hy : status { x with
          life := .marking (some (x.status = some .printing))
          row := x.row.map fun row => if row.status = .printing then row.markFailed now else row }
          = x.status := by
        cases hrow : x.row with
        | none => simp [status, hrow]
        | some row =>
          have hne : row.status ≠ .printing := fun he => hst (status_eq_some.mpr ⟨row, hrow, he⟩)
          simp [status, hrow, hne]
      rw [hy]
      exact .same rfl
  | handlerCall now hh hc =>
    rename_i h c
    obtain ⟨hf, hc⟩ := Handler.of_pendingStoreCall hc
    show StatusStep x _ ((rowCall now jobId x.row c).2.map (·.status))
    rcases x.status_call now jobId c with he | ⟨job, rfl, hrow, he⟩ | ⟨st, st', hw, hst, he⟩
    · rw [he]; exact .same rfl
    · obtain ⟨d, ha⟩ : ∃ d, h.await = .insertReceived d := by
        generalize h.await = a at hc
        cases a <;> cases hc
        exact ⟨_, rfl⟩
      rw [he]; exact .inserted now hh hf ha hrow
    · have ha : h.await = .setCancelled ∧ st' = .cancelled := by
        generalize h.await = a at hc
        cases a <;> cases hc <;> cases hw
        exact ⟨rfl, rfl⟩
      rw [he, ha.2]; exact .cancelled now hh hf ha.1 hst
  | taskCall now ht hc =>
    rename_i t c
    obtain ⟨hl, hf, hc⟩ := Task.of_pendingStoreCall hc
    show StatusStep x _ ((rowCall now jobId x.row c).2.map (·.status))
    rcases x.status_call now jobId c with he | ⟨job, rfl, hrow, he⟩ | ⟨st, st', hw, hst, he⟩
    · rw [he]; exact .same rfl
    · exact absurd hc hinsert
    · rw [he]; exact .worked now ht hl hf hc hw hst
  | leftCall now hn =>
    rename_i n c
    show StatusStep x _ ((rowCall now jobId x.row c).2.map (·.status))
    rcases x.status_call now jobId c with he | ⟨job, rfl, hrow, he⟩ | ⟨st, st', hw, hst, he⟩
    · rw [he]; exact .same rfl
    · obtain ⟨a, ha⟩ := hleft _ (List.mem_of_getElem? hn)
      exact absurd ha hinsert
    · rw [he]; exact .left now hn hw hst
  | resumeRows hl =>
    rename_i resume
    cases resume <;> exact .same rfl
  | handlerCancelTask hh hf hr =>
    show StatusStep x _ ((x.cancelTask jobId).row.map (·.status))
    rw [cancelTask_row]
    exact .same rfl
  | _ => exact .same rfl

/-! ## what a step does to the task -/

/-- a task is created: by startup recovery, or at the end of `handle_dispatch` -/
inductive Creates (x : Job) : JobAct → Prop
  | resumed (hl : x.life = .listing (some true)) : Creates x .resumeRows
  | dispatched {h : Handler} (hh : x.handler = some h) (ha : h.await = .sendReceived) :
      Creates x .handlerResume

/-- what becomes of the task of a job; the option is the task after the step -/
inductive TaskStep (jobId : String) (x : Job) : JobAct → Option Task → Prop
  | same {b : JobAct} {o : Option Task} (hb : b.isTask = false) (he : o = x.task) :
      TaskStep jobId x b o
  | created {b : JobAct} (hc : Creates x b) : TaskStep jobId x b (some .new)
  /-- `handle_cancel` cancels it -/
  | cancelled {t : Task} {h : Handler} {record : PrintJobRecord} (hh : x.handler = some h)
      (ha : h.await = .getRecord) (hfut : h.fut = some (.record (some record)))
      (hr : record.status.isResumable = true) (ht : x.task = some t) :
      TaskStep jobId x .handlerResume (some t.cancel)
  /-- what it awaits is answered -/
  | answered {b : JobAct} {t : Task} (ans : Answer) (ht : x.task = some t) (hl : t.isLive = true)
      (hf : t.fut = none) : TaskStep jobId x b (some (t.answer ans))
  /-- it goes on -/
  | went {t : Task} {ans : Answer} {a : Await} (pathExists socket : Bool) (ht : x.task = some t)
      (hl : t.isLive = true) (hfut : t.fut = some ans) (hf : Flow x.cancelRequested t.await a) :
      TaskStep jobId x (.taskResume pathExists socket) (some (.goTo jobId socket a))
  /-- it returns or raises -/
  | ended {t : Task} {ans : Answer} {inTry : Bool} (pathExists socket : Bool) (ht : x.task = some t)
      (hl : t.isLive = true) (hfut : t.fut = some ans)
      (hf : Await.Ends x.cancelRequested t.await ans inTry) :
      TaskStep jobId x (.taskResume pathExists socket) (some .finished)
  /-- a `CancelledError` reaches it -/
  | thrown {t : Task} (ht : x.task = some t) (hl : t.isLive = false) :
      TaskStep jobId x .taskThrow (some .finished)
  | gone : TaskStep jobId x .crash none

theorem isLive_of_resume {t : Task} {c e : Bool} {ans : Answer} {n : Next}
    (hn : t.cancelled = false) (hr : t.await.resume c e ans = some n) : t.isLive = true :=
  Task.isLive_of hn fun he => by rw [he] at hr; cases hr

theorem task_step (hs : Step jobId x b y) : TaskStep jobId x b y.task := by
  cases hs with
  | resumeRows hl =>
    rename_i resume
    cases resume with
    | false => exact .same rfl rfl
    | true => exact .created (.resumed hl)
  | handlerCancelTask hh hfut hr =>
    obtain ⟨ha, record, rfl, hres⟩ := (HandlerAwait.flow_of_resume hr).of_cancelTask
    rcases x.cancelTask_cases jobId with ⟨he, _⟩ | ⟨t, _, ht, he⟩
    · rw [he]; exact .same rfl rfl
    · rw [he]; exact .cancelled hh ha hfut hres ht
  | handlerCreateTask hh hfut hr =>
    exact .created (.dispatched hh (HandlerAwait.flow_of_resume hr).of_createTask)
  | taskCall now ht hc =>
    obtain ⟨hl, hfut, _⟩ := Task.of_pendingStoreCall hc
    exact .answered _ ht hl hfut
  | taskAnswer ht hw ha =>
    obtain ⟨hfut, hc⟩ := Task.of_isWaiting hw
    refine .answered _ ht (Task.isLive_of hc fun he => ?_) hfut
    rw [he] at ha
    cases ha
  | taskSend ht he =>
    obtain ⟨hl, hfut, _⟩ := Task.of_pendingEvent he
    exact .answered _ ht hl hfut
  | taskPrint raises ht hp =>
    obtain ⟨hl, hfut, _⟩ := Task.of_pendingPrint hp
    exact .answered _ ht hl hfut
  | taskAwait pathExists socket ht hn hfut hr =>
    exact .went pathExists socket ht (isLive_of_resume hn hr) hfut (Await.flow_of_resume hr)
  | taskRet pathExists socket ht hn hfut hr =>
    exact .ended pathExists socket ht (isLive_of_resume hn hr) hfut (Await.ends_of_resume hr)
  | taskThrow ht hc hd => exact .thrown ht (by simp [Task.isLive, hc])
  | crash => exact .gone
  | _ => exact .same rfl rfl

theorem task_of_not_live (hl : ∀ t, x.task = some t → t.isLive = false) (hs : Step jobId x b y) :
    (∀ t, y.task = some t → t.isLive = false) ∨ Creates x b := by
  have htask := task_step hs
  generalize y.task = o at htask
  have hno : ∀ {t : Task}, x.task = some t → t.isLive = true → False := fun ht hl' => by
    rw [hl _ ht] at hl'
    cases hl'
  cases htask with
  | same _ he => exact .inl (he ▸ hl)
  | created hc => exact .inr hc
  | cancelled => exact .inl fun t ht => by cases ht; exact Task.cancel_isLive
  | answered ans ht hl' => exact (hno ht hl').elim
  | went pathExists socket ht hl' => exact (hno ht hl').elim
  | ended => exact .inl fun t ht => by cases ht; rfl
  | thrown => exact .inl fun t ht => by cases ht; rfl
  | gone => exact .inl fun t ht => by cases ht

theorem isSome_task_step (hs : Step jobId x b y) (hb : b ≠ .crash) (ht : ∃ t, x.task = some t) :
    ∃ t, y.task = some t := by
  have htask := task_step hs
  generalize y.task = o at htask
  cases htask with
  | same _ he => exact he ▸ ht
  | gone => exact absurd rfl hb
  | _ => exact ⟨_, rfl⟩

/-! ## what a step does to the handler -/

/-- what becomes of the handler of a job; the option is the handler after the step -/
inductive HandlerStep (jobId : String) (x : Job) : JobAct → Option Handler → Prop
  | same {b : JobAct} {o : Option Handler} (hb : b.isHandler = false) (he : o = x.handler) :
      HandlerStep jobId x b o
  | dispatch (message : PrintJobDispatch) (hh : x.handler = none) :
      HandlerStep jobId x (.dispatch message) (some ⟨jobId, .getExisting message, none⟩)
  | cancel (hh : x.handler = none) : HandlerStep jobId x .cancel (some ⟨jobId, .getRecord, none⟩)
  /-- its store call takes effect -/
  | called {h : Handler} {c : StoreCall} (now : String) (hh : x.handler = some h)
      (hf : h.fut = none) (hc : h.await.storeCall = some c) :
      HandlerStep jobId x (.handlerCall now) (some (h.answer (rowCall now jobId x.row c).1))
  /-- its send ends -/
  | sent {h : Handler} {e : JobEvent} (hh : x.handler = some h) (hf : h.fut = none)
      (he : h.await.event h.jobId = some e) : HandlerStep jobId x .handlerSend (some (h.answer .done))
  /-- it goes on -/
  | went {h : Handler} {ans : Answer} {a : HandlerAwait} (hh : x.handler = some h)
      (hfut : h.fut = some ans) (hf : HandlerFlow h.await ans (.await a)) :
      HandlerStep jobId x .handlerResume (some ⟨jobId, a, none⟩)
  /-- `handle_cancel` goes on with the cancel -/
  | cancelling {h : Handler} {record : PrintJobRecord} (hh : x.handler = some h)
      (ha : h.await = .getRecord) (hfut : h.fut = some (.record (some record)))
      (hr : record.status.isResumable = true) :
      HandlerStep jobId x .handlerResume (some ⟨jobId, .setCancelled, none⟩)
  /-- `handle_dispatch` creates the task and ends -/
  | creating {h : Handler} (hh : x.handler = some h) (ha : h.await = .sendReceived) :
      HandlerStep jobId x .handlerResume none
  | ended {h : Handler} {ans : Answer} (hh : x.handler = some h) (hfut : h.fut = some ans)
      (hf : HandlerFlow h.await ans .ret) : HandlerStep jobId x .handlerResume none
  | gone : HandlerStep jobId x .crash none

theorem handler_step (hs : Step jobId x b y) :
    HandlerStep jobId x b y.handler := by
  cases hs with
  | resumeRows hl => rename_i resume; cases resume <;> exact .same rfl rfl
  | dispatch message hl hh => exact .dispatch message hh
  | cancel hl hh => exact .cancel hh
  | handlerCall now hh hc =>
    obtain ⟨hf, hc⟩ := Handler.of_pendingStoreCall hc
    exact .called now hh hf hc
  | handlerSend hh he =>
    obtain ⟨hf, he⟩ := Handler.of_pendingEvent he
    exact .sent hh hf he
  | handlerAwait hh hfut hr => exact .went hh hfut (HandlerAwait.flow_of_resume hr)
  | handlerCancelTask hh hfut hr =>
    obtain ⟨ha, record, rfl, hres⟩ := (HandlerAwait.flow_of_resume hr).of_cancelTask
    exact .cancelling hh ha hfut hres
  | handlerCreateTask hh hfut hr =>
    exact .creating hh (HandlerAwait.flow_of_resume hr).of_createTask
  | handlerRet hh hfut hr => exact .ended hh hfut (HandlerAwait.flow_of_resume hr)
  | crash => exact .gone
  | _ => exact .same rfl rfl

theorem of_setCancelled (hs : Step jobId x b y) {h : Handler} (hh : y.handler = some h)
    (ha : h.await = .setCancelled) :
    (b.isHandler = false ∧ x.handler = some h) ∨
    (∃ now h', b = .handlerCall now ∧ x.handler = some h' ∧ h'.await = .setCancelled ∧
      h'.fut = none ∧ h.fut ≠ none) ∨
    ∃ h' record, b = .handlerResume ∧ x.handler = some h' ∧ h'.await = .getRecord ∧
      h'.fut = some (.record (some record)) ∧ record.status.isResumable = true ∧ h.fut = none := by
  have hhand := handler_step hs
  rw [hh] at hhand
  cases hhand with
  | same hno he => exact .inl ⟨hno, he.symm⟩
  | dispatch => cases ha
  | cancel => cases ha
  | called now hh' hf hc => exact .inr (.inl ⟨now, _, rfl, hh', ha, hf, by simp [Handler.answer]⟩)
  | sent hh' hf he =>
    rename_i h' e
    have ha : h'.await = .setCancelled := ha
    rw [ha] at he
    cases he
  | went hh' hfut hflow =>
    cases ha
    exact hflow.ne_setCancelled.elim
  | cancelling hh' ha' hfut hr => exact .inr (.inr ⟨_, _, rfl, hh', ha', hfut, hr, rfl⟩)

theorem of_sendCancelled (hs : Step jobId x b y) {h : Handler} (hh : y.handler = some h)
    (ha : h.await = .sendCancelled) :
    (∃ h', x.handler = some h' ∧ h'.await = .sendCancelled) ∨
    ∃ h', b = .handlerResume ∧ x.handler = some h' ∧ h'.await = .setCancelled ∧
      h'.fut = some .done := by
  have hhand := handler_step hs
  rw [hh] at hhand
  cases hhand with
  | same _ he => exact .inl ⟨h, he.symm, ha⟩
  | dispatch => cases ha
  | cancel => cases ha
  | called now hh' => exact .inl ⟨_, hh', ha⟩
  | sent hh' => exact .inl ⟨_, hh', ha⟩
  | went hh' hfut hflow =>
    cases ha
    obtain ⟨ha, rfl⟩ := hflow.of_sendCancelled
    exact .inr ⟨_, rfl, hh', ha, hfut⟩
  | cancelling => cases ha

theorem of_record (hs : Step jobId x b y) {h : Handler} {record : PrintJobRecord}
    (hh : y.handler = some h) (hfut : h.fut = some (.record (some record))) :
    x.handler = some h ∨
    ∃ h' row, x.handler = some h' ∧ h'.await.storeCall = some .get ∧ x.row = some row ∧
      row.toPrintJobRecord = record := by
  have hhand := handler_step hs
  rw [hh] at hhand
  cases hhand with
  | same _ he => exact .inl he.symm
  | dispatch => cases hfut
  | cancel => cases hfut
  | called now hh' hf hc =>
    rename_i h' c
    have hrec : (rowCall now jobId x.row c).1 = .record (some record) := Option.some.inj hfut
    cases c with
    | get =>
      obtain ⟨row, hrow, he⟩ := Option.map_eq_some_iff.mp (Answer.record.inj hrec)
      exact .inr ⟨h', row, hh', hc, hrow, he⟩
    | insertReceived => cases hrec
    | updateStatus => cases hrec
    | setLocalFilePath => cases hrec
  | sent => cases hfut
  | went => cases hfut
  | cancelling => cases hfut

/-! ## what a step hands over -/

/-- who hands an event of the job to `WsClient.send` -/
inductive HandedStep (jobId : String) (x : Job) : JobAct → Option JobEvent → Prop
  | nothing {b : JobAct} : HandedStep jobId x b none
  /-- startup recovery -/
  | restarted (hl : x.life = .marking (some true)) :
      HandedStep jobId x .handStuck (some (Agent.restartEvent jobId))
  /-- `handle_dispatch`, for the row it inserted -/
  | received {h : Handler} (hh : x.handler = some h) {d : PrintJobDispatch}
      (ha : h.await = .insertReceived d) (hfut : h.fut = some (.inserted true)) :
      HandedStep jobId x .handlerResume (some (.received jobId))
  /-- `_resend_terminal_event` -/
  | resent {h : Handler} (hh : x.handler = some h) {record : PrintJobRecord}
      (ha : h.await = .getRaced ∨ ∃ d, h.await = .getExisting d)
      (hfut : h.fut = some (.record (some record))) (ht : record.status.isTerminal = true)
      {e : JobEvent} (he : e.status = record.status) : HandedStep jobId x .handlerResume (some e)
  /-- `handle_cancel` -/
  | cancelled {h : Handler} (hh : x.handler = some h) (ha : h.await = .setCancelled)
      (hfut : h.fut = some .done) : HandedStep jobId x .handlerResume (some (.cancelled jobId))
  /-- the task -/
  | worked {t : Task} {ans : Answer} {a : Await} (pathExists socket : Bool) (ht : x.task = some t)
      (hl : t.isLive = true) (hfut : t.fut = some ans) (hf : Flow x.cancelRequested t.await a)
      {e : JobEvent} (he : a.event jobId = some e) :
      HandedStep jobId x (.taskResume pathExists socket) (some e)

theorem handed_step (hs : Step jobId x b y) :
    ∃ o, y.handed = x.handed ++ o.toList ∧ HandedStep jobId x b o := by
  cases hs with
  | handStuck hl =>
    rename_i stuck
    cases stuck with
    | false => exact ⟨none, rfl, .nothing⟩
    | true => exact ⟨_, rfl, .restarted hl⟩
  | resumeRows hl =>
    rename_i resume
    cases resume <;> exact ⟨none, (List.append_nil _).symm, .nothing⟩
  | handlerAwait hh hfut hr =>
    rename_i h ans a
    refine ⟨_, rfl, ?_⟩
    have hflow := HandlerAwait.flow_of_resume hr
    generalize ha : h.await = a' at hflow
    cases hflow with
    | insert => exact .nothing
    | inserted d => exact .received hh ha hfut
    | raced => exact .nothing
    | resend hor ht hj he => exact .resent hh (ha ▸ hor) hfut ht he
    | cancelled => exact .cancelled hh ha hfut
  | handlerCancelTask hh hfut hr =>
    exact ⟨none, (x.cancelTask_handed jobId).trans (List.append_nil _).symm, .nothing⟩
  | taskAwait pathExists socket ht hn hfut hr =>
    rename_i t ans a
    have hl : t.isLive = true := Task.isLive_of hn fun he => by rw [he] at hr; cases hr
    refine ⟨_, rfl, ?_⟩
    cases he : a.event jobId with
    | none => exact .nothing
    | some e => exact .worked pathExists socket ht hl hfut (Await.flow_of_resume hr) he
  | _ => exact ⟨none, (List.append_nil _).symm, .nothing⟩

/-! ## what a step leaves behind, and the prints -/

/-- calls are left behind by a cancel that goes on, for a task that is in `_tasks` -/
theorem leftBehind_step (hs : Step jobId x b y) :
    y.leftBehind.Sublist x.leftBehind ∨
    ∃ t h record, x.task = some t ∧ x.entry = true ∧ x.handler = some h ∧ h.await = .getRecord ∧
      h.fut = some (.record (some record)) ∧ record.status.isResumable = true ∧ b = .handlerResume ∧
      y = { x with
        task := some t.cancel, leftBehind := x.leftBehind ++ t.pendingThreadCall jobId
        handler := some ⟨jobId, .setCancelled, none⟩ } := by
  cases hs with
  | resumeRows hlife =>
    rename_i resume
    cases resume <;> exact .inl (List.Sublist.refl _)
  | handlerCancelTask hh hfut hr =>
    obtain ⟨ha, record, rfl, hres⟩ := (HandlerAwait.flow_of_resume hr).of_cancelTask
    rcases x.cancelTask_cases jobId with ⟨he, _⟩ | ⟨t, hent, ht, he⟩
    · rw [he]; exact .inl (List.Sublist.refl _)
    · rw [he]; exact .inr ⟨t, _, record, ht, hent, hh, ha, hfut, hres, rfl, rfl⟩
  | leftCall => exact .inl (List.eraseIdx_sublist ..)
  | leftPrint => exact .inl (List.eraseIdx_sublist ..)
  | leftDrop => exact .inl (List.eraseIdx_sublist ..)
  | crash => exact .inl (List.nil_sublist _)
  | _ => exact .inl (List.Sublist.refl _)

theorem leftBehind_sublist_of_stopped (hs : Step jobId x b y)
    (hstop : ∀ t, x.task = some t → t.isLive = false) : y.leftBehind.Sublist x.leftBehind := by
  rcases leftBehind_step hs with hsub | ⟨t, _, _, ht, _, _, _, _, _, _, rfl⟩
  · exact hsub
  · show (x.leftBehind ++ t.pendingThreadCall jobId).Sublist x.leftBehind
    rw [Task.pendingThreadCall_of_not_live (hstop t ht), List.append_nil]

theorem prints_handlerResume (hs : Step jobId x .handlerResume y) : y.prints = x.prints := by
  cases hs with
  | handlerCancelTask => exact x.cancelTask_prints jobId
  | _ => rfl

/-- where the prints come from -/
theorem prints_step (hs : Step jobId x b y) :
    y.prints = x.prints ∨
    (∃ t p ans, x.task = some t ∧ t.pendingPrint jobId = some p ∧ y.task = some (t.answer ans) ∧
      y.leftBehind = x.leftBehind ∧ y.status = x.status ∧ y.prints = x.prints ++ [p]) ∨
    (∃ n p, x.leftBehind[n]? = some (.print p) ∧ y.task = x.task ∧
      y.leftBehind = x.leftBehind.eraseIdx n ∧ y.status = x.status ∧
      y.prints = x.prints ++ [p]) := by
  cases hs with
  | resumeRows hl => rename_i resume; cases resume <;> exact .inl rfl
  | handlerCancelTask => exact .inl (x.cancelTask_prints jobId)
  | taskPrint raises ht hp => exact .inr (.inl ⟨_, _, _, ht, hp, rfl, rfl, rfl, rfl⟩)
  | leftPrint hn => exact .inr (.inr ⟨_, _, hn, rfl, rfl, rfl, rfl⟩)
  | _ => exact .inl rfl

end Job

end PrintAgent
