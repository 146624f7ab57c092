import PrintAgent.Core.Base

/-!
# What the row remembers of a failure

A `print.job.failed` is sent by `_fail` and by startup recovery, after they wrote the row, and sent again
by `_resend_terminal_event` from the row.  `Job.Told` says that the row keeps the error fields of every one
that was handed over, so they are all the same event (`failed_unique`).

* `RowStep`, `row_step`     who changes the row of a job, and how;
* `Job.Told`                the invariant, and `told_of_reach`.
-/

namespace PrintAgent

namespace PrintJobRow
variable (now : String) (status : PrintJobStatus) (errorCode errorMessage : Option String) (row : PrintJobRow)

@[simp] theorem updateStatus_errorCode :
    (updateStatus now status errorCode errorMessage row).errorCode = (errorCode <|> row.errorCode) := by
  simp [updateStatus]

@[simp] theorem updateStatus_errorMessage :
    (updateStatus now status errorCode errorMessage row).errorMessage
      = (errorMessage <|> row.errorMessage) := by
  simp [updateStatus]

end PrintJobRow

namespace Job
variable {jobId : String} {x y : Job} {b : JobAct}

/-! ## what a step does to the row -/

/-- who changes the row of a job; the option is the row after the step -/
inductive RowStep (jobId : String) (x : Job) : JobAct → Option PrintJobRow → Prop
  | same {b : JobAct} {o : Option PrintJobRow} (he : o = x.row) : RowStep jobId x b o
  | inserted {h : Handler} {d : PrintJobDispatch} (now : String) (hh : x.handler = some h)
      (hfut : h.fut = none) (ha : h.await = .insertReceived d) (hrow : x.row = none) :
      RowStep jobId x (.handlerCall now) (some (.inserted now jobId d.newJob))
  | restarted {row : PrintJobRow} (now : String) (hl : x.life = .marking none) (hrow : x.row = some row)
      (hst : row.status = .printing) : RowStep jobId x (.markStuck now) (some (row.markFailed now))
  | cancelled {h : Handler} {row : PrintJobRow} (now : String) (hh : x.handler = some h)
      (hfut : h.fut = none) (ha : h.await = .setCancelled) (hrow : x.row = some row) :
      RowStep jobId x (.handlerCall now) (some (row.updateStatus now .cancelled none none))
  | worked {t : Task} {c : StoreCall} {row : PrintJobRow} (now : String) (ht : x.task = some t)
      (hl : t.isLive = true) (hfut : t.fut = none) (hc : t.await.storeCall = some c)
      (hrow : x.row = some row) : RowStep jobId x (.taskCall now) (rowCall now jobId (some row) c).2
  | left {n : Nat} {c : StoreCall} {row : PrintJobRow} (now : String)
      (hn : x.leftBehind[n]? = some (.store c)) (hrow : x.row = some row) :
      RowStep jobId x (.leftCall n now) (rowCall now jobId (some row) c).2

theorem row_step (hf : x.Fit) (hb : x.Base) (hs : Step jobId x b y) : RowStep jobId x b y.row := by
  cases hs with
  | markStuck now hl =>
    show RowStep jobId x _ (x.row.map fun row => if row.status = .printing then row.markFailed now else row)
    cases hrow : x.row with
    | none => exact .same hrow.symm
    | some row =>
      by_cases hst : row.status = .printing
      · rw [Option.map_some, if_pos hst]
        exact .restarted now hl hrow hst
      · rw [Option.map_some, if_neg hst]
        exact .same hrow.symm
  | handlerCall now hh hc =>
    rename_i h c
    obtain ⟨hfut, hc⟩ := Handler.of_pendingStoreCall hc
    show RowStep jobId x _ (rowCall now jobId x.row c).2
    generalize ha : h.await = a at hc
    cases a <;> cases hc
    · exact .same rfl
    · rename_i d
      cases hrow : x.row with
      | none => exact .inserted now hh hfut ha hrow
      | some row => exact .same hrow.symm
    · exact .same rfl
    · exact .same rfl
    · obtain ⟨st, hst⟩ := hb.found h hh (.inl (.inl ha))
      obtain ⟨row, hrow, _⟩ := status_eq_some.mp hst
      rw [hrow]
      exact .cancelled now hh hfut ha hrow
  | taskCall now ht hc =>
    rename_i t c
    obtain ⟨hl, hfut, hc⟩ := Task.of_pendingStoreCall hc
    obtain ⟨row, hrow⟩ := hf.stored t ht
    show RowStep jobId x _ (rowCall now jobId x.row c).2
    rw [hrow]
    exact .worked now ht hl hfut hc hrow
  | leftCall now hn =>
    rename_i n c
    obtain ⟨t, ht, _⟩ := hb.left fun he => by simp [he] at hn
    obtain ⟨row, hrow⟩ := hf.stored t ht
    show RowStep jobId x _ (rowCall now jobId x.row c).2
    rw [hrow]
    exact .left now hn hrow
  | resumeRows hl =>
    rename_i resume
    cases resume <;> exact .same rfl
  | handlerCancelTask hh hfut hr => exact .same (x.cancelTask_row jobId)
  | _ => exact .same rfl

/-! ## what does not change any more -/

/-- the row is `FAILED` or `CANCELLED` -/
def Settled (x : Job) : Prop := x.status = some .failed ∨ x.status = some .cancelled

/-- the row is `FAILED`, with these error fields -/
def FailedWith (x : Job) (errorCode message : Option String) : Prop :=
  ∃ row, x.row = some row ∧ row.status = .failed ∧ row.errorCode = errorCode ∧ row.errorMessage = message

/-- the row has failed with these error fields, though it may be `CANCELLED` by now -/
def Remembers (x : Job) (errorCode message : Option String) : Prop :=
  ∃ row, x.row = some row ∧ (row.status = .failed ∨ row.status = .cancelled) ∧
    row.errorCode = errorCode ∧ row.errorMessage = message

section Settled
variable {c m : Option String}

theorem FailedWith.remembers (h : x.FailedWith c m) : x.Remembers c m := by
  obtain ⟨row, hrow, hst, hfields⟩ := h
  exact ⟨row, hrow, .inl hst, hfields⟩

theorem FailedWith.status (h : x.FailedWith c m) : x.status = some .failed := by
  obtain ⟨row, hrow, hst, _⟩ := h
  exact status_eq_some.mpr ⟨row, hrow, hst⟩

theorem Remembers.settled (h : x.Remembers c m) : x.Settled := by
  obtain ⟨row, hrow, hst, _⟩ := h
  rcases hst with hst | hst
  · exact .inl (status_eq_some.mpr ⟨row, hrow, hst⟩)
  · exact .inr (status_eq_some.mpr ⟨row, hrow, hst⟩)

theorem calls_of_settled (hf : x.Fit) (hb : x.Base) (h : x.Settled) {t : Task} (ht : x.task = some t)
    (hl : t.isLive = true) (hfut : t.fut = none) :
    t.await.storeCall = none ∧ ∀ j, t.await.printCall j = none := by
  obtain ⟨st, hst, hex⟩ := hb.status_of_live hf ht hl
  have hsettled : st = .failed ∨ st = .cancelled := by
    rcases h with h | h
    · exact .inl (Option.some.inj (hst.symm.trans h))
    · exact .inr (Option.some.inj (hst.symm.trans h))
  have hres : ¬ st.isResumable = true := by rcases hsettled with rfl | rfl <;> decide
  have hprinting : st ≠ .printing := by rcases hsettled with rfl | rfl <;> decide
  rw [hfut] at hex
  generalize t.await = a at hex
  cases a with
  | sendStarted => exact absurd hex hprinting
  | print => exact absurd hex hprinting
  | setCompleted => exact absurd hex hprinting
  | setFailed => exact (hex.elim hres hprinting).elim
  | sendCompleted => exact ⟨rfl, fun _ => rfl⟩
  | sendFailed => exact ⟨rfl, fun _ => rfl⟩
  | ended => exact ⟨rfl, fun _ => rfl⟩
  | _ => exact absurd hex hres

theorem pendingThreadCall_of_settled (hf : x.Fit) (hb : x.Base) (h : x.Settled) {t : Task}
    (ht : x.task = some t) : t.pendingThreadCall jobId = [] := by
  refine List.eq_nil_iff_forall_not_mem.mpr fun c hc => ?_
  rcases Task.mem_pendingThreadCall.mp hc with ⟨sc, hsc, _⟩ | ⟨p, hp, _⟩
  · obtain ⟨hl, hfut, hcall⟩ := Task.of_pendingStoreCall hsc
    cases (calls_of_settled hf hb h ht hl hfut).1.symm.trans hcall
  · obtain ⟨hl, hfut, hcall⟩ := Task.of_pendingPrint hp
    cases ((calls_of_settled hf hb h ht hl hfut).2 jobId).symm.trans hcall

theorem leftBehind_of_settled (hf : x.Fit) (hb : x.Base) (h : x.Settled) (hn : x.leftBehind = [])
    (hs : Step jobId x b y) : y.leftBehind = [] := by
  rcases leftBehind_step hs with hsub | ⟨t, _, _, ht, _, _, _, _, _, _, rfl⟩
  · rw [hn] at hsub
    exact List.sublist_nil.mp hsub
  · show x.leftBehind ++ t.pendingThreadCall jobId = []
    rw [hn, pendingThreadCall_of_settled hf hb h ht, List.append_nil]

theorem row_of_settled (hf : x.Fit) (hb : x.Base) (h : x.Settled) (hn : x.leftBehind = [])
    (hs : Step jobId x b y) :
    y.row = x.row ∨ x.Cancelling ∧
      ∃ now row, x.row = some row ∧ y.row = some (row.updateStatus now .cancelled none none) := by
  have hrow := row_step hf hb hs
  generalize y.row = o at hrow
  cases hrow with
  | same he => exact .inl he
  | inserted now hh hfut ha hrow =>
    rcases h with h | h <;> simp [status, hrow] at h
  | restarted now hl hrow hst =>
    rcases h with h | h <;> simp [status, hrow, hst] at h
  | cancelled now hh hfut ha hrow => exact .inr ⟨⟨_, hh, ha, hfut⟩, now, _, hrow, rfl⟩
  | worked now ht hl hfut hc hrow =>
    cases (calls_of_settled hf hb h ht hl hfut).1.symm.trans hc
  | left now hleft =>
    rw [hn] at hleft
    cases hleft

theorem Remembers.step (hf : x.Fit) (hb : x.Base) (h : x.Remembers c m) (hn : x.leftBehind = [])
    (hs : Step jobId x b y) : y.leftBehind = [] ∧ y.Remembers c m := by
  refine ⟨leftBehind_of_settled hf hb h.settled hn hs, ?_⟩
  have hrow' := row_of_settled hf hb h.settled hn hs
  obtain ⟨row, hrow, hst, hc, hm⟩ := h
  rcases hrow' with he | ⟨_, now, row', hrow', he⟩
  · exact ⟨row, he.trans hrow, hst, hc, hm⟩
  · cases hrow.symm.trans hrow'
    refine ⟨_, he, .inr (PrintJobRow.updateStatus_status ..), ?_, ?_⟩
    · rw [PrintJobRow.updateStatus_errorCode]
      exact hc
    · rw [PrintJobRow.updateStatus_errorMessage]
      exact hm

theorem FailedWith.step (hf : x.Fit) (hb : x.Base) (h : x.FailedWith c m) (hn : x.leftBehind = [])
    (hno : ¬ x.Cancelling) (hs : Step jobId x b y) : y.FailedWith c m := by
  rcases row_of_settled hf hb h.remembers.settled hn hs with he | ⟨hcan, _⟩
  · obtain ⟨row, hrow, hfields⟩ := h
    exact ⟨row, he.trans hrow, hfields⟩
  · exact absurd hcan hno

theorem FailedWith.of_live (hf : x.Fit) (hb : x.Base) {t : Task} (htask : x.task = some t)
    (hl : t.isLive = true) (h : x.FailedWith c m) (hs : Step jobId x b y) : y.FailedWith c m := by
  refine h.step hf hb (hb.leftBehind_of_live htask hl) (fun ⟨h, hh, ha, _⟩ => ?_) hs
  rw [hb.stopped h hh (.inl ha) t htask] at hl
  cases hl

end Settled

/-! ## the events of `_resend_terminal_event` -/

end Job

/-- the event that reports the status of the record, if that is terminal -/
def PrintJobRecord.verdict (record : PrintJobRecord) : Option JobEvent :=
  match record.status with
  | .completed => some (.completed record.jobId)
  | .failed => some (.failed record.jobId record.errorCode record.errorMessage)
  | .cancelled => some (.cancelled record.jobId)
  | _ => none

theorem PrintJobRecord.of_verdict_failed (record : PrintJobRecord) {j : String} {c m : Option String}
    (h : record.verdict = some (.failed j c m)) :
    record.status = .failed ∧ record.errorCode = c ∧ record.errorMessage = m := by
  unfold verdict at h
  split at h
  case h_2 hst =>
    cases h
    exact ⟨hst, rfl, rfl⟩
  all_goals cases h

namespace HandlerAwait

theorem verdict_of_resend {a : HandlerAwait} {ans : Answer} {e : JobEvent}
    (h : a.resume ans = some (.await (.resend e))) :
    ∃ record, ans = .record (some record) ∧ record.verdict = some e := by
  have hresend : ∀ record : PrintJobRecord,
      (if record.status.isTerminal then resendTerminalEvent record else .ret) = .await (.resend e) →
        record.verdict = some e := by
    intro record h
    unfold resendTerminalEvent at h
    unfold PrintJobRecord.verdict
    cases hst : record.status <;> rw [hst] at h <;> cases h <;> rfl
  unfold resume at h
  split at h
  case h_1 d record => exact ⟨record, rfl, hresend record (Option.some.inj h)⟩
  case h_5 record => exact ⟨record, rfl, hresend record (Option.some.inj h)⟩
  case h_10 record =>
    have h := Option.some.inj h
    split at h <;> cases h
  all_goals cases h

end HandlerAwait

/-- the error fields of the failure that the await reports, once the row has them -/
def Await.reports (answered : Bool) : Await → Option (String × String)
  | .setFailed errorCode message => if answered then some (errorCode, message) else none
  | .sendFailed errorCode message => some (errorCode, message)
  | _ => none

namespace Job
variable {jobId : String} {x y : Job} {b : JobAct}

/-! ## the invariant -/

structure Told (jobId : String) (x : Job) : Prop where
  /-- no call is left behind for a row that has failed -/
  left : x.leftBehind ≠ [] → x.status ≠ some .failed
  /-- the live task reports what it has written -/
  task : ∀ t errorCode message, x.task = some t → t.isLive = true →
    t.await.reports t.fut.isSome = some (errorCode, message) → x.FailedWith (some errorCode) (some message)
  /-- a handler that has read a failed row still finds it so -/
  handler : ∀ h record, x.handler = some h → h.fut = some (.record (some record)) →
    record.status = .failed → x.FailedWith record.errorCode record.errorMessage
  /-- startup recovery has failed the row -/
  stuck : x.life = .marking (some true) →
    x.FailedWith (some PrintJobRow.restartErrorCode) (some PrintJobRow.restartErrorMessage)
  /-- the row remembers every failure that was handed over -/
  handed : ∀ errorCode message, .failed jobId errorCode message ∈ x.handed →
    x.leftBehind = [] ∧ x.Remembers errorCode message

theorem told_init : Told jobId .init where
  left h := absurd rfl h
  task _ _ _ h := by cases h
  handler _ _ h := by cases h
  stuck h := by cases h
  handed _ _ h := by cases h

theorem call_of_answered (hs : Step jobId x b y) {t : Task} {ans : Answer} (ht : x.task = some t)
    (hfut : t.fut = none) (hy : y.task = some (t.answer ans))
    (hcall : t.await.storeCall ≠ none) :
    ∃ now c, t.await.storeCall = some c ∧ y.row = (rowCall now jobId x.row c).2 := by
  have hsame : ∀ {t'}, x.task = some t' → t' = t := fun ht' => Option.some.inj (ht'.symm.trans ht)
  have hkept : x.task ≠ some (t.answer ans) := by
    intro he
    have hno : (t.answer ans).fut = none := by rw [hsame he]; exact hfut
    cases hno
  have hnew : t.answer ans ≠ .new := by
    intro he
    have ha : t.await = .start := congrArg Task.await he
    rw [ha] at hcall
    exact hcall rfl
  have hdone : t.answer ans ≠ .finished := by
    intro he
    cases congrArg Task.fut he
  cases hs with
  | taskCall now ht' hc =>
    cases hsame ht'
    exact ⟨now, _, (Task.of_pendingStoreCall hc).2.2, rfl⟩
  | taskAnswer ht' hw ha =>
    cases hsame ht'
    exact absurd (Await.storeCall_of_accepts ha) hcall
  | taskSend ht' he =>
    cases hsame ht'
    exact absurd (Await.storeCall_of_event (Task.of_pendingEvent he).2.2) hcall
  | taskPrint raises ht' hp =>
    cases hsame ht'
    exact absurd (Await.storeCall_of_printCall (Task.of_pendingPrint hp).2.2) hcall
  | taskAwait pathExists socket ht' hn hfut' =>
    cases hsame ht'
    cases hfut.symm.trans hfut'
  | taskRet => exact absurd (Option.some.inj hy).symm hdone
  | taskThrow => exact absurd (Option.some.inj hy).symm hdone
  | crash => cases hy
  | handlerCreateTask => exact absurd (Option.some.inj hy).symm hnew
  | resumeRows hlife =>
    rename_i resume
    cases resume with
    | false => exact absurd hy hkept
    | true => exact absurd (Option.some.inj hy).symm hnew
  | handlerCancelTask =>
    rcases x.cancelTask_cases jobId with ⟨he, _⟩ | ⟨t', _, ht', he⟩
    · rw [he] at hy
      exact absurd hy hkept
    · rw [he] at hy
      cases hsame ht'
      have hno : t.cancel.fut = (t.answer ans).fut := congrArg Task.fut (Option.some.inj hy)
      rw [Task.cancel_fut, hfut] at hno
      cases hno
  | _ => exact absurd hy hkept

/-! one step keeps each of the parts -/

section Step
variable (hf : x.Fit) (hb : x.Base) (ht : x.Told jobId) (hs : Step jobId x b y)
include hf hb ht hs

theorem Told.left_step (hne : y.leftBehind ≠ []) : y.status ≠ some .failed := by
  rcases leftBehind_step hs with hsub | ⟨t, h, record, htask, _, hh, ha, _, _, rfl, rfl⟩
  · obtain ⟨c, hy⟩ := List.exists_mem_of_ne_nil _ hne
    have hx := hsub.subset hy
    rcases status_of_leftBehind hf hb hs hx hy with he | he
    · rw [he]
      exact ht.left (List.ne_nil_of_mem hx)
    · rw [he]
      decide
  · intro hst
    have hset : x.Settled := .inl hst
    have hleft : x.leftBehind ≠ [] := by
      rwa [pendingThreadCall_of_settled hf hb hset htask, List.append_nil] at hne
    exact ht.left hleft hst

theorem Told.task_step : ∀ t errorCode message, y.task = some t → t.isLive = true →
    t.await.reports t.fut.isSome = some (errorCode, message) →
      y.FailedWith (some errorCode) (some message) := by
  intro t errorCode message htask hl hrep
  have hstep := Job.task_step hs
  rw [htask] at hstep
  -- what a task reports already is in the row
  have hkeep : ∀ t' : Task, x.task = some t' → t'.isLive = true →
      t'.await.reports t'.fut.isSome = some (errorCode, message) → y.FailedWith (some errorCode) (some message) :=
    fun t' ht' hl' hrep' => (ht.task t' errorCode message ht' hl' hrep').of_live hf hb ht' hl' hs
  cases hstep with
  | same _ he => exact hkeep t he.symm hl hrep
  | created => cases hrep
  | cancelled => simp at hl
  | answered ans ht' hl' hfut =>
    rename_i t'
    have hrep : t'.await.reports true = some (errorCode, message) := hrep
    cases ha : t'.await with
    | setFailed errorCode' message' =>
      rw [ha] at hrep
      cases hrep
      obtain ⟨now, c, hc, hrow'⟩ := call_of_answered hs ht' hfut htask (by rw [ha]; simp [Await.storeCall])
      obtain ⟨row, hrow⟩ := hf.stored t' ht'
      rw [ha] at hc
      cases hc
      rw [hrow] at hrow'
      refine ⟨_, hrow', PrintJobRow.updateStatus_status .., ?_, ?_⟩
      · exact PrintJobRow.updateStatus_errorCode ..
      · exact PrintJobRow.updateStatus_errorMessage ..
    | sendFailed errorCode' message' =>
      rw [ha] at hrep
      exact hkeep t' ht' hl' (by rw [ha]; exact hrep)
    | _ =>
      rw [ha] at hrep
      cases hrep
  | went pathExists socket ht' hl' hfut hflow =>
    rename_i t' ans a
    have hrep : a.reports (Task.goTo jobId socket a).fut.isSome = some (errorCode, message) := hrep
    refine hkeep t' ht' hl' ?_
    rw [hfut]
    generalize t'.await = a' at hflow
    cases hflow with
    | toFailedEvent errorCode' message' =>
      cases hrep
      rfl
    | early _ ha => cases a <;> first | cases hrep; done | cases ha
    | _ => cases hrep
  | ended => cases hl
  | thrown => cases hl

theorem Told.handler_step : ∀ h record, y.handler = some h → h.fut = some (.record (some record)) →
    record.status = .failed → y.FailedWith record.errorCode record.errorMessage := by
  intro h record hh hfut hst
  have hfailed : x.FailedWith record.errorCode record.errorMessage ∧ ¬ x.Cancelling := by
    rcases of_record hs hh hfut with hh' | ⟨h', row, hh', hcall, hrow, rfl⟩
    · refine ⟨ht.handler h record hh' hfut hst, fun ⟨h₁, hh₁, _, hnone⟩ => ?_⟩
      cases hh'.symm.trans hh₁
      cases hfut.symm.trans hnone
    · refine ⟨⟨row, hrow, hst, rfl, rfl⟩, fun ⟨h₁, hh₁, ha, _⟩ => ?_⟩
      cases hh'.symm.trans hh₁
      rw [ha] at hcall
      cases hcall
  have hleft : x.leftBehind = [] := by
    by_contra hne
    exact ht.left hne hfailed.1.status
  exact hfailed.1.step hf hb hleft hfailed.2 hs

theorem Told.stuck_step (hl : y.life = .marking (some true)) :
    y.FailedWith (some PrintJobRow.restartErrorCode) (some PrintJobRow.restartErrorMessage) := by
  have hkeep : x.life = .marking (some true) →
      y.FailedWith (some PrintJobRow.restartErrorCode) (some PrintJobRow.restartErrorMessage) := by
    intro hlife
    obtain ⟨_, hleft, hhand, _⟩ := hf.asleep (by simp [hlife])
    refine (ht.stuck hlife).step hf hb hleft (fun ⟨h, hh, _⟩ => ?_) hs
    rw [hhand] at hh
    cases hh
  cases hs with
  | markStuck now hlife =>
    have hst : x.status = some .printing := by simpa using hl
    obtain ⟨row, hrow, hst⟩ := status_eq_some.mp hst
    refine ⟨row.markFailed now, ?_, rfl, rfl, rfl⟩
    show (x.row.map fun row => if row.status = .printing then row.markFailed now else row) = _
    rw [hrow, Option.map_some, if_pos hst]
  | boot => cases hl
  | handStuck => cases hl
  | listRows => cases hl
  | resumeRows => cases hl
  | crash => cases hl
  | handlerCancelTask => exact hkeep ((x.cancelTask_life jobId).symm.trans hl)
  | _ => exact hkeep hl

theorem Told.handed_step : ∀ errorCode message, .failed jobId errorCode message ∈ y.handed →
    y.leftBehind = [] ∧ y.Remembers errorCode message := by
  intro errorCode message hmem
  -- handed over before, or now that the row has failed
  have hwas : x.leftBehind = [] ∧ x.Remembers errorCode message := by
    have hold : .failed jobId errorCode message ∈ x.handed → x.leftBehind = [] ∧ x.Remembers errorCode message :=
      ht.handed errorCode message
    have hnow : ∀ {o : Option JobEvent}, .failed jobId errorCode message ∈ x.handed ++ o.toList →
        (o = some (.failed jobId errorCode message) → x.FailedWith errorCode message) →
        x.leftBehind = [] ∧ x.Remembers errorCode message := by
      intro o hmem hfailed
      rcases List.mem_append.mp hmem with hmem | hmem
      · exact hold hmem
      · have hfw := hfailed (Option.mem_toList.mp hmem)
        refine ⟨?_, hfw.remembers⟩
        by_contra hne
        exact ht.left hne hfw.status
    cases hs with
    | handStuck hlife =>
      rename_i stuck
      cases stuck with
      | false => exact hold (by simpa using hmem)
      | true =>
        refine hnow (o := some (Agent.restartEvent jobId)) hmem fun he => ?_
        cases he
        exact ht.stuck hlife
    | handlerAwait hh hfut hr =>
      rename_i h ans a
      refine hnow hmem fun he => ?_
      cases a with
      | resend e =>
        cases he
        obtain ⟨record, rfl, hverdict⟩ := HandlerAwait.verdict_of_resend hr
        obtain ⟨hst, rfl, rfl⟩ := record.of_verdict_failed hverdict
        exact ht.handler h record hh hfut hst
      | _ => cases he
    | taskAwait pathExists socket ht' hn hfut hr =>
      rename_i t ans a
      refine hnow hmem fun he => ?_
      have hflow := Await.flow_of_resume hr
      have hl : t.isLive = true := isLive_of_resume hn hr
      rcases Await.event_cases he with ⟨hno, _⟩ | ⟨hno, _⟩ | ⟨errorCode', message', heq, rfl⟩
      · cases hno
      · cases hno
      · cases heq
        refine ht.task t _ _ ht' hl ?_
        rw [hfut]
        generalize t.await = a' at hflow
        cases hflow with
        | toFailedEvent => rfl
        | early _ ha => cases ha
    | resumeRows hlife =>
      rename_i resume
      cases resume <;> exact hold hmem
    | handlerCancelTask => exact hold ((x.cancelTask_handed jobId) ▸ hmem)
    | _ => exact hold hmem
  exact hwas.2.step hf hb hwas.1 hs

end Step

theorem told_step (hf : x.Fit) (hb : x.Base) (ht : x.Told jobId) (hs : Step jobId x b y) : y.Told jobId where
  left := ht.left_step hf hb hs
  task := ht.task_step hf hb hs
  handler := ht.handler_step hf hb hs
  stuck := ht.stuck_step hf hb hs
  handed := ht.handed_step hf hb hs

/-- every failure of the job that was handed over is the same event -/
theorem Told.failed_unique (ht : x.Told jobId) {c m c' m' : Option String}
    (h : .failed jobId c m ∈ x.handed) (h' : .failed jobId c' m' ∈ x.handed) : c = c' ∧ m = m' := by
  obtain ⟨row, hrow, _, hc, hm⟩ := (ht.handed c m h).2
  obtain ⟨row', hrow', _, hc', hm'⟩ := (ht.handed c' m' h').2
  cases hrow.symm.trans hrow'
  exact ⟨hc.symm.trans hc', hm.symm.trans hm'⟩

end Job

namespace Agent

theorem told_of_reach {s : Agent} (h : agent.Reach Machine.Any s) (j : String) : (s.view j).Told j :=
  job_invariant (D := fun _ _ => True) Job.told_init (fun _ _ _ hf hb ht _ hs => Job.told_step hf hb ht hs)
    (fun _ _ _ _ _ => trivial) h

end Agent

end PrintAgent
