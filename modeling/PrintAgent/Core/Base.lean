import PrintAgent.Core.Moves
import PrintAgent.Core.View

/-!
# What holds of a job in every run

`Job.Base` ties the persisted status of a job to its task, its handler and the calls left behind.
The idea: a status is written by a live `_process` task, by `handle_cancel` once it has stopped the
task, or by a call that a stopped task left behind, so while a task is live its row is where the
task put it (`Await.Expects`).  It holds in every run, racing cancels and crashes included
(`base_of_reach`); `Agent.job_invariant` is the rule by which the properties of jobs are proved on
top of it.
-/

namespace PrintAgent

namespace Await

/-- the record and the path that `_process` holds -/
def locals : Await → Option (PrintJobRecord × String)
  | .setLocalFilePath record path | .getStatus record path | .setWaiting record path
  | .sleep record path _ | .pollStatus record path _ | .setPrinting record path
  | .sendStarted record path | .print record path => some (record, path)
  | _ => none

/-- the record that `_process` holds -/
def record : Await → Option PrintJobRecord
  | .download record => some record
  | a => a.locals.map Prod.fst

/-- the statuses a row can have while a live task is at the await, before and after the answer -/
def Expects (answered : Bool) (status : PrintJobStatus) : Await → Prop
  | .setPrinting _ _ => if answered then status = .printing else status.isResumable = true
  | .sendStarted _ _ | .print _ _ => status = .printing
  | .setCompleted => if answered then status = .completed else status = .printing
  | .sendCompleted => status = .completed
  | .setFailed _ _ =>
    if answered then status = .failed else status.isResumable = true ∨ status = .printing
  | .sendFailed _ _ => status = .failed
  | .ended => True
  | _ => status.isResumable = true

theorem expects_of_isEarly {a : Await} (ha : a.isEarly = true) {b : Bool} {st : PrintJobStatus} :
    a.Expects b st ↔ st.isResumable = true := by
  cases a <;> first | rfl | cases ha

theorem expects_answered {a : Await} (ha : a.storeCall = none) {b c : Bool} {st : PrintJobStatus}
    (h : a.Expects b st) : a.Expects c st := by
  cases a <;> first | exact h | cases ha

theorem expects_flow {a b : Await} {cr : Bool} (h : Flow cr a b) {st : PrintJobStatus}
    (ha : a.Expects true st) (c : Bool) (hc : c = true → b.storeCall = none) : b.Expects c st := by
  have hnone : b.Expects false st := by
    cases h with
    | early hae hbe => exact (expects_of_isEarly hbe).mpr ((expects_of_isEarly hae).mp ha)
    | toPrinting hae _ _ _ => exact (expects_of_isEarly hae).mp ha
    | toFailed hae _ _ => exact .inl ((expects_of_isEarly hae).mp ha)
    | toStarted _ _ => exact ha
    | toPrint _ _ => exact ha
    | printed _ _ => exact ha
    | printFailed _ _ _ _ => exact .inr ha
    | toCompleted => exact ha
    | toFailedEvent _ _ => exact ha
  cases c with
  | false => exact hnone
  | true => exact expects_answered (hc rfl) hnone

end Await

/-- the status that the call of an await writes is the one expected once it answered -/
theorem Await.expects_call {a : Await} {c : StoreCall} (hc : a.storeCall = some c)
    {st : PrintJobStatus} (h : a.Expects false st) : a.Expects true (c.written.getD st) := by
  cases a <;> cases hc <;> first | exact h | rfl

/-! ## the view of a sound agent -/

def Job.Asleep (x : Job) : Prop :=
  x.task = none ∧ x.leftBehind = [] ∧ x.handler = none ∧ x.entry = false ∧ x.cancelRequested = false

/-- what `Agent.Sound` says about one job -/
structure Job.Fit (x : Job) : Prop where
  asleep : x.life ≠ .running → x.Asleep
  stored : ∀ t, x.task = some t → ∃ row, x.row = some row
  fresh : ∀ h, x.handler = some h → h.hasInserted → x.task = none ∧ ∃ row, x.row = some row

theorem Job.Fit.running {x : Job} (hf : x.Fit) {h : Handler} (hh : x.handler = some h) :
    x.life = .running := by
  by_contra hl
  rw [(hf.asleep hl).2.2.1] at hh
  cases hh

theorem Agent.handler_view {s : Agent} {j : String} {h : Handler} :
    (s.view j).handler = some h ↔ s.ws.loop = .handling h ∧ h.jobId = j := by
  show s.ws.handler.filter (·.jobId = j) = some h ↔ _
  rw [Option.filter_eq_some_iff, handler_eq_some, decide_eq_true_iff]

theorem Agent.Sound.fit {s : Agent} (hs : s.Sound) (j : String) : (s.view j).Fit := by
  constructor
  · intro hl
    have hdown : s.life ≠ .running := fun he => hl (by simp [view, he, Life.view])
    obtain ⟨hslots, hloop⟩ := hs.asleep hdown
    have hidle : s.handlerOf j = none := handlerOf_idle fun hd he => by rw [hloop] at he; cases he
    simp [Job.Asleep, view, hslots j, Slot.empty, hidle]
  · intro t ht
    have hne : (s.slots j).tasks ≠ [] := fun he => by simp [view, he] at ht
    exact Option.isSome_iff_exists.mp ((hs.slot j).stored hne)
  · intro h hh hi
    obtain ⟨hw, rfl⟩ := Agent.handler_view.mp hh
    obtain ⟨ht, hrow⟩ := hs.fresh h hw hi
    exact ⟨by simp [view, ht], Option.isSome_iff_exists.mp hrow⟩

theorem Agent.Sound.tasks_eq {s : Agent} (hs : s.Sound) (j : String) :
    (s.slots j).tasks = (s.view j).task.toList := by
  have hone := (hs.slot j).one
  show (s.slots j).tasks = (s.slots j).tasks.head?.toList
  match h : (s.slots j).tasks with
  | [] => rfl
  | [t] => rfl
  | t :: u :: l => rw [h] at hone; simp at hone

/-! ## the invariant -/

/-- `handle_cancel` has gone on: it has cancelled the task -/
def Handler.hasCancelled (h : Handler) : Prop := h.await = .setCancelled ∨ h.await = .sendCancelled

def Handler.hasFound (h : Handler) : Prop :=
  h.hasCancelled ∨ ∃ record, h.fut = some (.record (some record))

namespace Job

/-- `handle_cancel` is about to write `CANCELLED` -/
def Cancelling (x : Job) : Prop :=
  ∃ h, x.handler = some h ∧ h.await = .setCancelled ∧ h.fut = none

structure Base (x : Job) : Prop where
  /-- a row is never `QUEUED` -/
  notQueued : x.status ≠ some .queued
  /-- while the task is live, the row is where the task put it -/
  live : ∀ t, x.task = some t → t.isLive = true → ∀ st, x.status = some st →
    t.await.Expects t.fut.isSome st
  /-- a cancel that goes on has stopped the task -/
  stopped : ∀ h, x.handler = some h → h.hasCancelled → ∀ t, x.task = some t → t.isLive = false
  /-- a call is left behind by a task that is stopped, and there is one at most -/
  left : x.leftBehind ≠ [] → ∃ t, x.task = some t ∧ t.isLive = false
  leftOne : x.leftBehind.length ≤ 1
  leftCall : ∀ c, ThreadCall.store c ∈ x.leftBehind → ∃ a : Await, a.storeCall = some c
  /-- and it is left behind by a cancel that writes `CANCELLED`, or has -/
  landing : x.leftBehind ≠ [] → x.Cancelling ∨ x.status = some .cancelled
  /-- `_tasks` has the job as long as its task is not done -/
  entry : x.entry = false → ∀ t, x.task = some t → t.isLive = false
  /-- the row that the running `handle_dispatch` inserted is still `RECEIVED` -/
  fresh : ∀ h, x.handler = some h → h.hasInserted → x.status = some .received
  /-- the row that the running handler has found is there -/
  found : ∀ h, x.handler = some h → h.hasFound → ∃ st, x.status = some st
  /-- recovery resumes the job if its row can be resumed -/
  listed : ∀ b, x.life = .listing (some b) → b = x.status.any PrintJobStatus.isResumable

theorem base_of_down {x : Job} (hl : x.life = .down) (ht : x.task = none) (hn : x.leftBehind = [])
    (hh : x.handler = none) (hq : x.status ≠ some .queued) : x.Base where
  notQueued := hq
  live _ ht' := by rw [ht] at ht'; cases ht'
  stopped _ hh' := by rw [hh] at hh'; cases hh'
  left h := absurd hn h
  leftOne := by rw [hn]; exact Nat.zero_le _
  leftCall _ hc := by rw [hn] at hc; cases hc
  landing h := absurd hn h
  entry _ _ ht' := by rw [ht] at ht'; cases ht'
  fresh _ hh' := by rw [hh] at hh'; cases hh'
  found _ hh' := by rw [hh] at hh'; cases hh'
  listed _ hl' := by rw [hl] at hl'; cases hl'

theorem base_init : Base .init := base_of_down rfl rfl rfl rfl (by simp [init, status])

variable {jobId : String} {x y : Job} {b : JobAct}

theorem status_handlerResume (hb : x.Base) (hs : Step jobId x .handlerResume y) :
    y.status = x.status := by
  have hstat := status_step hs hb.leftCall
  generalize y.status = o at hstat
  cases hstat with
  | same he => exact he

/-! one step keeps each of the parts -/

theorem notQueued_step (hb : x.Base) (hs : Step jobId x b y) : y.status ≠ some .queued := by
  have hawait : ∀ {a : Await} {c : StoreCall}, a.storeCall = some c → c.written ≠ some .queued := by
    intro a c hc
    cases a <;> cases hc <;> simp [StoreCall.written]
  have hst := status_step hs hb.leftCall
  generalize y.status = st at hst
  cases hst with
  | same he => exact he ▸ hb.notQueued
  | inserted => simp
  | restarted => simp
  | cancelled => simp
  | worked now ht hl hf hc hw hst =>
    rintro ⟨⟩
    exact hawait hc hw
  | left now hn hw hst =>
    rintro ⟨⟩
    obtain ⟨a, ha⟩ := hb.leftCall _ (List.mem_of_getElem? hn)
    exact hawait ha hw

theorem live_step (hf : x.Fit) (hb : x.Base) (hs : Step jobId x b y) :
    ∀ t, y.task = some t → t.isLive = true → ∀ st, y.status = some st →
      t.await.Expects t.fut.isSome st := by
  intro t ht hl st hst
  have hstat := status_step hs hb.leftCall
  rw [hst] at hstat
  have hsame : x.task = some t → x.status = some st → t.await.Expects t.fut.isSome st :=
    fun ht hst => hb.live t ht hl st hst
  -- an answer to something that is not a store call
  have hanswered : ∀ t' : Task, x.task = some t' → t'.isLive = true →
      t'.await.storeCall = none → x.status = some st → t'.await.Expects true st :=
    fun t' ht' hl' hc hst => Await.expects_answered hc (hb.live t' ht' hl' st hst)
  cases hs with
  | markStuck now hlife =>
    have hnone := (hf.asleep (by simp [hlife])).1
    exact absurd ht (by simp [hnone])
  | resumeRows hlife =>
    rename_i resume
    cases resume with
    | false => exact hsame ht hst
    | true =>
      cases ht
      have hres := hb.listed true hlife
      have hst : x.status = some st := hst
      rw [hst] at hres
      exact hres.symm
  | handlerCall now hh hc =>
    cases hstat with
    | same he => exact hsame ht he.symm
    | inserted now hh hfut ha hr =>
      obtain ⟨row, hrow⟩ := hf.stored t ht
      rw [hr] at hrow
      cases hrow
    | cancelled now hh hfut ha hst' =>
      exact absurd hl (by simp [hb.stopped _ hh (.inl ha) t ht])
  | handlerCancelTask hh hr hn =>
    rcases x.cancelTask_cases jobId with ⟨he, _⟩ | ⟨t', _, _, he⟩
    · rw [he] at ht hst
      exact hsame ht hst
    · rw [he] at ht
      cases ht
      simp at hl
  | handlerCreateTask hh hfut hr =>
    cases ht
    have hrec := hb.fresh _ hh (.inl (HandlerAwait.flow_of_resume hr).of_createTask)
    have hst : x.status = some st := hst
    rw [hrec] at hst
    cases hst
    rfl
  | taskCall now ht' hc =>
    rename_i t' c
    obtain ⟨hl', hfut, hc'⟩ := Task.of_pendingStoreCall hc
    cases ht
    obtain ⟨row, hrow⟩ := hf.stored t' ht'
    obtain ⟨row', hrow', hst'⟩ := status_rowCall now jobId row c
    have hst : (rowCall now jobId x.row c).2.map (·.status) = some st := hst
    rw [hrow, hrow'] at hst
    cases hst
    have hlive := hb.live t' ht' hl' row.status (status_eq_some.mpr ⟨row, hrow, rfl⟩)
    rw [hfut] at hlive
    show t'.await.Expects true row'.status
    rw [hst']
    exact Await.expects_call hc' hlive
  | taskAnswer ht' hw ha =>
    cases ht
    have hans := hanswered _ ht' hl (Await.storeCall_of_accepts ha) hst
    exact hans
  | taskSend ht' he =>
    cases ht
    have hans := hanswered _ ht' hl (Await.storeCall_of_event (Task.of_pendingEvent he).2.2) hst
    exact hans
  | taskPrint raises ht' hp =>
    cases ht
    have hans := hanswered _ ht' hl (Await.storeCall_of_printCall (Task.of_pendingPrint hp).2.2) hst
    exact hans
  | taskAwait pathExists socket ht' hn hfut hr =>
    rename_i t' ans a
    cases ht
    have hflow := Await.flow_of_resume hr
    have hne : t'.await ≠ .ended := fun he => by rw [he] at hr; cases hr
    have hlive := hb.live t' ht' (Task.isLive_of hn hne) st hst
    rw [hfut] at hlive
    refine Await.expects_flow hflow hlive _ fun hsome => ?_
    obtain ⟨e, he⟩ := Task.event_of_goTo hsome
    exact Await.storeCall_of_event he
  | taskRet pathExists socket ht' hn hfut hr => cases ht; cases hl
  | taskThrow ht' hc hd => cases ht; cases hl
  | leftCall now hn =>
    obtain ⟨t', ht', hl'⟩ := hb.left fun he => by simp [he] at hn
    have ht : x.task = some t := ht
    rw [ht] at ht'
    cases ht'
    exact absurd hl (by simp [hl'])
  | crash => cases ht
  | _ => exact hsame ht hst

theorem stopped_of_cancelTask (hb : x.Base) (hs : Step jobId x .handlerResume y)
    (hy : ∃ h', y.handler = some h' ∧ h'.await = .setCancelled) :
    ∀ t, y.task = some t → t.isLive = false := by
  obtain ⟨h', hy, ha'⟩ := hy
  cases hs with
  | handlerAwait hh' hfut hr =>
    cases hy
    cases ha'
    exact (HandlerAwait.flow_of_resume hr).ne_setCancelled.elim
  | handlerCancelTask hh' hfut hr =>
    intro t ht
    rcases x.cancelTask_cases jobId with ⟨he, hno⟩ | ⟨t', _, _, he⟩
    · rw [he] at ht
      have ht : x.task = some t := ht
      rcases hno with hno | hno
      · exact hb.entry hno t ht
      · rw [hno] at ht
        cases ht
    · rw [he] at ht
      cases ht
      exact Task.cancel_isLive
  | handlerCreateTask => cases hy
  | handlerRet => cases hy

theorem stopped_step (hf : x.Fit) (hb : x.Base) (hs : Step jobId x b y) :
    ∀ h, y.handler = some h → h.hasCancelled → ∀ t, y.task = some t → t.isLive = false := by
  have hold : ∀ h', x.handler = some h' → h'.hasCancelled →
      ∀ t, y.task = some t → t.isLive = false := by
    intro h' hh' hc'
    rcases task_of_not_live (hb.stopped h' hh' hc') hs with hstop | hcr
    · exact hstop
    · cases hcr with
      | resumed hl =>
        have hnone := (hf.asleep (by simp [hl])).2.2.1
        rw [hnone] at hh'
        cases hh'
      | dispatched hh ha =>
        rw [hh] at hh'
        cases hh'
        rcases hc' with hc' | hc' <;> rw [ha] at hc' <;> cases hc'
  intro h hh hc
  rcases hc with ha | ha
  · rcases of_setCancelled hs hh ha with ⟨_, he⟩ | ⟨_, h', _, hh', ha', _⟩ | ⟨_, _, rfl, _⟩
    · exact hold h he (.inl ha)
    · exact hold h' hh' (.inl ha')
    · exact stopped_of_cancelTask hb hs ⟨h, hh, ha⟩
  · rcases of_sendCancelled hs hh ha with ⟨h', hh', ha'⟩ | ⟨h', _, hh', ha', _⟩
    · exact hold h' hh' (.inr ha')
    · exact hold h' hh' (.inl ha')

theorem left_step (hf : x.Fit) (hb : x.Base) (hs : Step jobId x b y) (hne : y.leftBehind ≠ []) :
    ∃ t, y.task = some t ∧ t.isLive = false := by
  rcases leftBehind_step hs with hsub | ⟨t, _, _, _, _, _, _, _, _, _, rfl⟩
  · have hx : x.leftBehind ≠ [] := fun he => hne (List.eq_nil_of_sublist_nil (he ▸ hsub))
    obtain ⟨t, ht, hl⟩ := hb.left hx
    have hcrash : b ≠ .crash := fun he => by
      subst he
      cases hs
      exact hne rfl
    obtain ⟨t', ht'⟩ := isSome_task_step hs hcrash ⟨t, ht⟩
    have hstop : ∀ u, x.task = some u → u.isLive = false := fun u hu => by
      rw [ht] at hu
      cases hu
      exact hl
    rcases task_of_not_live hstop hs with hstop' | hcr
    · exact ⟨t', ht', hstop' t' ht'⟩
    · cases hcr with
      | resumed hlife => exact absurd (hf.asleep (by simp [hlife])).2.1 hx
      | dispatched hh ha =>
        have hnone := (hf.fresh _ hh (.inl ha)).1
        rw [ht] at hnone
        cases hnone
  · exact ⟨_, rfl, Task.cancel_isLive⟩

theorem leftOne_step (hb : x.Base) (hs : Step jobId x b y) : y.leftBehind.length ≤ 1 := by
  rcases leftBehind_step hs with hsub | ⟨t, _, _, ht, _, _, _, _, _, _, rfl⟩
  · exact Nat.le_trans hsub.length_le hb.leftOne
  · rw [List.length_append]
    by_cases hx : x.leftBehind = []
    · rw [hx]
      simpa using Task.pendingThreadCall_length
    · -- the task was stopped before, so it waits for nothing
      obtain ⟨t', ht', hl⟩ := hb.left hx
      rw [ht] at ht'
      cases ht'
      rw [Task.pendingThreadCall_of_not_live hl]
      exact hb.leftOne

theorem leftCall_step (hb : x.Base) (hs : Step jobId x b y) :
    ∀ c, ThreadCall.store c ∈ y.leftBehind → ∃ a : Await, a.storeCall = some c := by
  intro c hc
  rcases leftBehind_step hs with hsub | ⟨t, _, _, _, _, _, _, _, _, _, rfl⟩
  · exact hb.leftCall c (hsub.subset hc)
  · rcases List.mem_append.mp hc with hold | hnew
    · exact hb.leftCall c hold
    · rcases Task.mem_pendingThreadCall.mp hnew with ⟨sc, hsc, he⟩ | ⟨p, _, he⟩
      · cases he
        exact ⟨t.await, (Task.of_pendingStoreCall hsc).2.2⟩
      · cases he

theorem Base.eraseIdx_leftBehind (hb : x.Base) {n : Nat} {c : ThreadCall}
    (hn : x.leftBehind[n]? = some c) : x.leftBehind.eraseIdx n = [] := by
  have hone := hb.leftOne
  match hl : x.leftBehind with
  | [] => simp [hl] at hn
  | [d] =>
    match n with
    | 0 => rfl
    | n + 1 => simp [hl] at hn
  | d :: e :: l => simp [hl] at hone

/-- while a call is left behind, only `handle_cancel` changes the status, unless the call does -/
theorem status_of_leftBehind (hf : x.Fit) (hb : x.Base) (hs : Step jobId x b y) {c : ThreadCall}
    (hx : c ∈ x.leftBehind) (hy : c ∈ y.leftBehind) :
    y.status = x.status ∨ y.status = some .cancelled := by
  obtain ⟨t, ht, hl⟩ := hb.left (List.ne_nil_of_mem hx)
  have hstat := status_step hs hb.leftCall
  generalize y.status = o at hstat
  cases hstat with
  | same he => exact .inl he
  | inserted now _ _ _ hrow =>
    obtain ⟨row, hrow'⟩ := hf.stored t ht
    rw [hrow] at hrow'
    cases hrow'
  | restarted now hlife _ =>
    have hno := (hf.asleep (by simp [hlife])).1
    rw [ht] at hno
    cases hno
  | cancelled => exact .inr rfl
  | worked now ht' hl' =>
    rw [ht] at ht'
    cases ht'
    rw [hl] at hl'
    cases hl'
  | left now hn =>
    -- the one call left behind takes effect, and is gone
    cases hs with
    | leftCall now' _ =>
      have hy : c ∈ x.leftBehind.eraseIdx _ := hy
      rw [hb.eraseIdx_leftBehind hn] at hy
      cases hy

theorem Base.status_of_setCancelled (hb : x.Base) {h : Handler} (hh : x.handler = some h)
    (ha : h.await = .setCancelled) {now : String}
    (hs : Step jobId x (.handlerCall now) y) : y.status = some .cancelled := by
  obtain ⟨st, hst⟩ := hb.found h hh (.inl (.inl ha))
  obtain ⟨row, hrow, _⟩ := status_eq_some.mp hst
  cases hs with
  | handlerCall _ hh' hc =>
    rw [hh] at hh'
    cases hh'
    obtain ⟨_, hc⟩ := Handler.of_pendingStoreCall hc
    rw [ha] at hc
    cases hc
    simp [status, hrow, rowCall]

theorem cancelling_step (hb : x.Base) (hx : x.Cancelling) (hs : Step jobId x b y) :
    y.Cancelling ∨ y.status = some .cancelled ∨ b = .crash := by
  obtain ⟨h, hh, ha, hfut⟩ := hx
  have hsame : ∀ {h'}, x.handler = some h' → h' = h := fun hh' => by
    rw [hh] at hh'
    exact (Option.some.inj hh').symm
  have hhand := handler_step hs
  generalize hy : y.handler = o at hhand
  cases hhand with
  | same _ he => exact .inl ⟨h, hy.trans (he.trans hh), ha, hfut⟩
  | dispatch _ hno => rw [hh] at hno; cases hno
  | cancel hno => rw [hh] at hno; cases hno
  | called now hh' => exact .inr (.inl (hb.status_of_setCancelled hh ha hs))
  | sent hh' hf he =>
    rw [hsame hh', ha] at he
    cases he
  | went hh' hfut' =>
    rw [hsame hh', hfut] at hfut'
    cases hfut'
  | cancelling hh' _ hfut' =>
    rw [hsame hh', hfut] at hfut'
    cases hfut'
  | creating hh' ha' =>
    rw [hsame hh', ha] at ha'
    cases ha'
  | ended hh' hfut' =>
    rw [hsame hh', hfut] at hfut'
    cases hfut'
  | gone => exact .inr (.inr rfl)

theorem landing_step (hf : x.Fit) (hb : x.Base) (hs : Step jobId x b y) (hne : y.leftBehind ≠ []) :
    y.Cancelling ∨ y.status = some .cancelled := by
  rcases leftBehind_step hs with hsub | ⟨t, h, record, _, _, _, _, _, _, _, rfl⟩
  · obtain ⟨c, hy⟩ := List.exists_mem_of_ne_nil _ hne
    have hx := hsub.subset hy
    rcases hb.landing (List.ne_nil_of_mem hx) with hcan | hcan
    · rcases cancelling_step hb hcan hs with hy' | hy' | rfl
      · exact .inl hy'
      · exact .inr hy'
      · cases hs
        exact absurd rfl hne
    · right
      rcases status_of_leftBehind hf hb hs hx hy with he | he
      · exact he.trans hcan
      · exact he
  · exact .inl ⟨_, rfl, rfl, rfl⟩

theorem entry_step (hb : x.Base) (hs : Step jobId x b y) (he : y.entry = false) :
    ∀ t, y.task = some t → t.isLive = false := by
  have hx : x.entry = false → (∀ t, y.task = some t → t.isLive = false) ∨ Creates x b :=
    fun hx => task_of_not_live (hb.entry hx) hs
  cases hs with
  | resumeRows hlife =>
    rename_i resume
    cases resume with
    | false => exact hb.entry he
    | true => cases he
  | handlerAwait => exact hb.entry he
  | handlerCancelTask hh hfut hr =>
    intro t ht
    rcases x.cancelTask_cases jobId with ⟨hsame, _⟩ | ⟨t', hent, _, hsame⟩
    · rw [hsame] at he ht
      exact hb.entry he t ht
    · rw [hsame] at he
      have he : x.entry = false := he
      rw [hent] at he
      cases he
  | handlerCreateTask => cases he
  | handlerRet => exact hb.entry he
  | taskRet pathExists socket ht hn hfut hr =>
    intro t ht'
    cases ht'
    rfl
  | taskThrow ht hc hd =>
    intro t ht'
    cases ht'
    rfl
  | crash =>
    intro t ht'
    cases ht'
  | _ =>
    rcases hx he with hstop | hcr
    · exact hstop
    · cases hcr

theorem status_of_hasInserted (hf : x.Fit) (hb : x.Base) (hs : Step jobId x b y) {h : Handler}
    (hh : x.handler = some h) (hi : h.hasInserted) : y.status = x.status := by
  have hnone := (hf.fresh h hh hi).1
  have hstat := status_step hs hb.leftCall
  generalize y.status = o at hstat
  cases hstat with
  | same he => exact he
  | inserted now hh' hfut ha hr =>
    rw [hh] at hh'
    cases hh'
    rcases hi with hi | ⟨d, _, hfut'⟩
    · rw [ha] at hi
      cases hi
    · rw [hfut] at hfut'
      cases hfut'
  | restarted now hl hst =>
    have hno := (hf.asleep (by simp [hl])).2.2.1
    rw [hh] at hno
    cases hno
  | cancelled now hh' hfut ha hst =>
    rw [hh] at hh'
    cases hh'
    rcases hi with hi | ⟨d, hi, _⟩ <;> rw [ha] at hi <;> cases hi
  | worked now ht => rw [hnone] at ht; cases ht
  | left now hn =>
    obtain ⟨t, ht, _⟩ := hb.left fun he => by simp [he] at hn
    rw [hnone] at ht
    cases ht

theorem fresh_step (hf : x.Fit) (hb : x.Base) (hs : Step jobId x b y) :
    ∀ h, y.handler = some h → h.hasInserted → y.status = some .received := by
  intro h hh hi
  have hold : ∀ h', x.handler = some h' → h'.hasInserted → y.status = some .received :=
    fun h' hh' hi' => (status_of_hasInserted hf hb hs hh' hi').trans (hb.fresh h' hh' hi')
  cases hs with
  | dispatch message hl hh' =>
    cases hh
    rcases hi with hi | ⟨d, hi, hfut⟩
    · cases hi
    · cases hi
  | cancel hl hh' =>
    cases hh
    rcases hi with hi | ⟨d, hi, hfut⟩ <;> cases hi
  | handlerCall now hh' hc =>
    rename_i h' c
    cases hh
    obtain ⟨_, hc⟩ := Handler.of_pendingStoreCall hc
    rcases hi with hi | ⟨d, hi, hfut⟩
    · have ha : h'.await = .sendReceived := hi
      rw [ha] at hc
      cases hc
    · have ha : h'.await = .insertReceived d := hi
      rw [ha] at hc
      cases hc
      have hans : Answer.inserted x.row.isNone = .inserted true := Option.some.inj hfut
      have hnone : x.row = none := by simpa using hans
      show ((rowCall now jobId x.row (.insertReceived d.newJob)).2.map (·.status)) = _
      rw [hnone]
      rfl
  | handlerSend hh' he =>
    rename_i h' e
    cases hh
    rcases hi with hi | ⟨d, hi, hfut⟩
    · exact hold h' hh' (.inl hi)
    · cases hfut
  | handlerAwait hh' hfut hr =>
    rename_i h' ans a
    cases hh
    rcases hi with hi | ⟨d, hi, hfut'⟩
    · have ha : a = .sendReceived := hi
      subst ha
      obtain ⟨⟨d, hd⟩, rfl⟩ := (HandlerAwait.flow_of_resume hr).of_sendReceived
      exact hold h' hh' (.inr ⟨d, hd, hfut⟩)
    · cases hfut'
  | handlerCancelTask hh' hfut hr =>
    cases hh
    rcases hi with hi | ⟨d, hi, _⟩ <;> cases hi
  | handlerCreateTask => cases hh
  | handlerRet => cases hh
  | crash => cases hh
  | resumeRows hl =>
    rename_i resume
    refine hold h ?_ hi
    cases resume <;> exact hh
  | _ => exact hold h hh hi

theorem stored_step (hb : x.Base) (hs : Step jobId x b y) (hx : ∃ st, x.status = some st) :
    ∃ st, y.status = some st := by
  have hstat := status_step hs hb.leftCall
  generalize y.status = o at hstat
  cases hstat with
  | same he => exact he ▸ hx
  | _ => exact ⟨_, rfl⟩

theorem handler_of_insert (hb : x.Base) (hs : Step jobId x b y) (hnone : x.row = none)
    (hy : ∃ st, y.status = some st) : ∃ h d, y.handler = some h ∧ h.await = .insertReceived d ∧
      h.fut = some (.inserted true) := by
  obtain ⟨st, hst⟩ := hy
  have hno : ∀ {st}, x.status = some st → False := fun hx => by
    obtain ⟨row, hrow, _⟩ := status_eq_some.mp hx
    rw [hnone] at hrow
    cases hrow
  have hstat := status_step hs hb.leftCall
  rw [hst] at hstat
  cases hstat with
  | same he => exact (hno he.symm).elim
  | inserted now hh hfut ha hrow =>
    rename_i h d
    refine ⟨h.answer (.inserted true), d, ?_, ha, rfl⟩
    cases hs with
    | handlerCall _ hh' hc =>
      rw [hh] at hh'
      cases hh'
      have hc := (Handler.of_pendingStoreCall hc).2
      rw [ha] at hc
      cases hc
      show some (h.answer (.inserted x.row.isNone)) = _
      rw [hrow]
      rfl
  | restarted now _ hx => exact (hno hx).elim
  | cancelled now _ _ _ hx => exact (hno hx).elim
  | worked now _ _ _ _ _ hx => exact (hno hx).elim
  | left now _ _ hx => exact (hno hx).elim

theorem found_step (hb : x.Base) (hs : Step jobId x b y) :
    ∀ h, y.handler = some h → h.hasFound → ∃ st, y.status = some st := by
  intro h hh hfound
  refine stored_step hb hs ?_
  rcases hfound with (ha | ha) | ⟨record, hrec⟩
  · rcases of_setCancelled hs hh ha with ⟨_, he⟩ | ⟨_, h', _, hh', ha', _⟩ | ⟨h', _, _, hh', _, hfut, _⟩
    · exact hb.found h he (.inl (.inl ha))
    · exact hb.found h' hh' (.inl (.inl ha'))
    · exact hb.found h' hh' (.inr ⟨_, hfut⟩)
  · rcases of_sendCancelled hs hh ha with ⟨h', hh', ha'⟩ | ⟨h', _, hh', ha', _⟩
    · exact hb.found h' hh' (.inl (.inr ha'))
    · exact hb.found h' hh' (.inl (.inl ha'))
  · rcases of_record hs hh hrec with he | ⟨_, row, _, _, hrow, _⟩
    · exact hb.found h he (.inr ⟨record, hrec⟩)
    · exact ⟨_, status_eq_some.mpr ⟨row, hrow, rfl⟩⟩

theorem listed_step (hf : x.Fit) (hb : x.Base) (hs : Step jobId x b y) :
    ∀ r, y.life = .listing (some r) → r = y.status.any PrintJobStatus.isResumable := by
  intro r hl
  have hold : x.life = .listing (some r) → r = y.status.any PrintJobStatus.isResumable := by
    intro hx
    obtain ⟨ht, hleft, hh, _⟩ := hf.asleep (by simp [hx])
    have hstat := status_step hs hb.leftCall
    generalize y.status = o at hstat
    cases hstat with
    | same he => rw [he]; exact hb.listed r hx
    | inserted now hh' => rw [hh] at hh'; cases hh'
    | restarted now hx' => rw [hx] at hx'; cases hx'
    | cancelled now hh' => rw [hh] at hh'; cases hh'
    | worked now ht' => rw [ht] at ht'; cases ht'
    | left now hn => rw [hleft] at hn; cases hn
  cases hs with
  | boot => cases hl
  | markStuck => cases hl
  | handStuck => cases hl
  | listRows => cases hl; rfl
  | resumeRows => cases hl
  | crash => cases hl
  | handlerCancelTask => exact hold ((x.cancelTask_life jobId).symm.trans hl)
  | _ => exact hold hl

theorem base_step (hf : x.Fit) (hb : x.Base) (hs : Step jobId x b y) : y.Base where
  notQueued := notQueued_step hb hs
  live := live_step hf hb hs
  stopped := stopped_step hf hb hs
  left hne := left_step hf hb hs hne
  leftOne := leftOne_step hb hs
  leftCall := leftCall_step hb hs
  landing hne := landing_step hf hb hs hne
  entry he := entry_step hb hs he
  fresh := fresh_step hf hb hs
  found := found_step hb hs
  listed := listed_step hf hb hs

end Job

/-! ## consequences -/

namespace Job

section Consequences
variable {x : Job}

theorem Base.leftBehind_of_live (hb : x.Base) {t : Task} (ht : x.task = some t)
    (hl : t.isLive = true) : x.leftBehind = [] := by
  by_contra hne
  obtain ⟨t', ht', hl'⟩ := hb.left hne
  rw [ht] at ht'
  cases ht'
  rw [hl] at hl'
  cases hl'

theorem Base.status_of_live (hf : x.Fit) (hb : x.Base) {t : Task} (ht : x.task = some t)
    (hl : t.isLive = true) : ∃ st, x.status = some st ∧ t.await.Expects t.fut.isSome st := by
  obtain ⟨row, hrow⟩ := hf.stored t ht
  have hst : x.status = some row.status := status_eq_some.mpr ⟨row, hrow, rfl⟩
  exact ⟨row.status, hst, hb.live t ht hl _ hst⟩

theorem Base.of_creates (hf : x.Fit) (hb : x.Base) {b : JobAct} (hc : Creates x b) :
    x.task = none ∧ ∃ st, x.status = some st ∧ st.isResumable = true := by
  cases hc with
  | resumed hl =>
    obtain ⟨st, hst, hr⟩ := (Option.any_eq_true _ _).mp (hb.listed true hl).symm
    exact ⟨(hf.asleep (by simp [hl])).1, st, hst, hr⟩
  | dispatched hh ha =>
    exact ⟨(hf.fresh _ hh (.inl ha)).1, _, hb.fresh _ hh (.inl ha), rfl⟩

theorem Base.status_of_worked (hf : x.Fit) (hb : x.Base) {t : Task} {ans : Answer} {a : Await}
    {jobId : String} {e : JobEvent} (ht : x.task = some t) (hl : t.isLive = true)
    (hfut : t.fut = some ans) (hflow : Flow x.cancelRequested t.await a)
    (he : a.event jobId = some e) : x.status = some e.status := by
  obtain ⟨st, hst, hex⟩ := hb.status_of_live hf ht hl
  rw [hfut] at hex
  generalize t.await = a' at hflow hex
  cases hflow with
  | early _ ha => cases a <;> first | cases he; done | cases ha
  | toStarted _ _ => cases he; exact hst.trans (congrArg some hex)
  | toCompleted => cases he; exact hst.trans (congrArg some hex)
  | toFailedEvent _ _ => cases he; exact hst.trans (congrArg some hex)
  | _ => cases he

end Consequences

end Job

/-! ## the rule for properties of jobs -/

namespace Agent
variable {C : Agent → Act → Prop} {D : Job → JobAct → Prop} {I : Job → Prop} {j : String}

theorem base_of_reach {s : Agent} (h : agent.Reach Machine.Any s) : (s.view j).Base :=
  h.invariant_view (D := fun _ _ => True) ((agent_shows j).with fun _ hs => hs.fit j)
    (fun _ hr => sound_of_reach hr) (fun _ _ _ hb _ hs => Job.base_step hs.1 hb hs.2) Job.base_init
    fun _ _ _ _ _ => trivial

/-- the steps of the agent as steps of the job, with what always holds of the job before them -/
theorem agent_shows_base (j : String) :
    agent.Shows (fun s => s.Sound ∧ (s.view j).Base) (view j) (seen j)
      fun x b y => (x.Fit ∧ x.Base) ∧ Job.Step j x b y :=
  Machine.Shows.with (fun s a s' hs => agent_shows j s a s' hs.1) fun _ hs => ⟨hs.1.fit j, hs.2⟩

/-- an invariant of the steps of a job holds in every reachable state -/
theorem job_invariant (hinit : I .init)
    (hstep : ∀ x b y, x.Fit → x.Base → I x → D x b → Job.Step j x b y → I y)
    (hC : ∀ s a, C s a → Machine.SeenAs (view j) (seen j) D s a) {s : Agent}
    (h : agent.Reach C s) : I (s.view j) :=
  h.invariant_view (agent_shows_base j) (fun _ hr => ⟨sound_of_reach hr, base_of_reach hr⟩)
    (fun x b y hI hD hs => hstep x b y hs.1.1 hs.1.2 hI hD hs.2) hinit hC

/-- an invariant of the steps of a job holds to the end of every run it holds at the start of -/
theorem job_path_invariant
    (hstep : ∀ x b y, x.Fit → x.Base → I x → D x b → Job.Step j x b y → I y)
    (hC : ∀ s a, C s a → Machine.SeenAs (view j) (seen j) D s a) {s s' : Agent} {as : List Act}
    (hr : agent.Reach Machine.Any s) (h : agent.Path C s as s') (hs : I (s.view j)) :
    I (s'.view j) :=
  h.invariant_view (agent_shows_base j) (fun _ hr => ⟨sound_of_reach hr, base_of_reach hr⟩)
    (fun x b y hI hD hs => hstep x b y hs.1.1 hs.1.2 hI hD hs.2) hC hr hs

/-! ## what the job sees of a step -/

section Seen
variable {s s' : Agent} {j : String} {a : Act}

theorem Sound.seen_step (hs : s.Sound) (ha : s.step a = some s') :
    s'.view j = s.view j ∧ s.seen j a = none ∨
      ∃ b, s.seen j a = some b ∧ (s.view j).Fit ∧ Job.Step j (s.view j) b (s'.view j) := by
  have hshow := agent_shows j s a s' hs ha
  cases hseen : s.seen j a with
  | none =>
    rw [hseen] at hshow
    exact .inl ⟨hshow, rfl⟩
  | some b =>
    rw [hseen] at hshow
    exact .inr ⟨b, rfl, hs.fit j, hshow⟩

theorem seen_step (hr : agent.Reach Machine.Any s) (ha : agent.step s a = some s') :
    s'.view j = s.view j ∧ s.seen j a = none ∨
      ∃ b, s.seen j a = some b ∧ (s.view j).Fit ∧ (s.view j).Base ∧
        Job.Step j (s.view j) b (s'.view j) := by
  rcases (sound_of_reach hr).seen_step ha with hsame | ⟨b, hb, hf, hstep⟩
  · exact .inl hsame
  · exact .inr ⟨b, hb, hf, base_of_reach hr, hstep⟩

theorem Sound.base_step (hs : s.Sound) (hb : (s.view j).Base) (ha : s.step a = some s') :
    (s'.view j).Base := by
  rcases hs.seen_step ha with ⟨hsame, _⟩ | ⟨b, _, hf, hstep⟩
  · rw [hsame]
    exact hb
  · exact Job.base_step hf hb hstep

theorem crash_of_seen (h : s.seen j a = some .crash) : a = .crash := by
  cases a <;> simp [seen] at h ⊢

theorem handStuck_of_seen (h : s.seen j a = some .handStuck) : a = .handStuck := by
  cases a <;> simp [seen] at h ⊢

theorem handlerResume_of_seen (h : s.seen j a = some .handlerResume) : a = .handlerResume := by
  cases a <;> simp [seen] at h ⊢

theorem handlerCall_of_seen {now : String} (h : s.seen j a = some (.handlerCall now)) :
    a = .handlerCall now := by
  cases a <;> simp [seen] at h ⊢
  exact h.2

theorem dispatch_of_seen {message : PrintJobDispatch} (h : s.seen j a = some (.dispatch message)) :
    a = .dispatch message := by
  cases a <;> simp [seen] at h ⊢
  exact h.2

theorem cancel_of_seen (h : s.seen j a = some .cancel) : ∃ message, a = .cancel message := by
  cases a <;> simp [seen] at h ⊢

theorem taskAnswer_of_seen {ans : Answer} (h : s.seen j a = some (.taskAnswer ans)) :
    ∃ i, a = .taskAnswer j i ans := by
  cases a <;> simp [seen] at h ⊢
  exact ⟨h.1, h.2⟩

theorem taskResume_of_seen {e socket : Bool} (h : s.seen j a = some (.taskResume e socket)) :
    ∃ i, a = .taskResume j i e := by
  cases a <;> simp [seen] at h ⊢
  exact ⟨h.1, h.2.1⟩

end Seen

end Agent

end PrintAgent
