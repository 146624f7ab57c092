import PrintAgent.Db.QueueStore

/-!
# The job worker

`core/job_worker.py` as coroutines.  A coroutine runs without interruption from one `await` to the
next, so it is given by where it is suspended, with the locals it still needs, and by one function
that says where it goes from there:

* `Await`, `Await.resume`                    `_process`, with `_wait_for_printer` and `_fail`;
* `HandlerAwait`, `HandlerAwait.resume`      `handle_dispatch` and `handle_cancel`, with
                                             `_resend_terminal_event`;
* `Task`, `Task.cancel`                      a task running `_process`, and `task.cancel()`;
* `Flow`, `HandlerFlow`                      the ways they get from one await to the next.

What is awaited is a call handed to a thread (`storeCall`, `printCall`), a `WsClient.send`
(`event`), or a call whose outcome the environment picks: the download, `get_status` and `sleep`
(`accepts`).  The answer waits in `fut` until the event loop resumes the coroutine.
-/

namespace PrintAgent

def waitForPrinterPollSeconds : Nat := 5

def waitForPrinterMaxSeconds : Nat := 60

/-- a call of `PrinterManager.print`, with the job it is made for -/
structure PrintCall where
  jobId : String
  localPrinterId : String
  filePath : String
  copies : Int
  deriving DecidableEq, Repr

/-! ## `_process` -/

/-- the awaits of `_process`, in the order of the code; `start` is a task before its first step,
`ended` a task that is done -/
inductive Await where
  | start
  | get
  | download (record : PrintJobRecord)
  | setLocalFilePath (record : PrintJobRecord) (path : String)
  | getStatus (record : PrintJobRecord) (path : String)
  | setWaiting (record : PrintJobRecord) (path : String)
  | sleep (record : PrintJobRecord) (path : String) (waited : Nat)
  | pollStatus (record : PrintJobRecord) (path : String) (waited : Nat)
  | setPrinting (record : PrintJobRecord) (path : String)
  | sendStarted (record : PrintJobRecord) (path : String)
  | print (record : PrintJobRecord) (path : String)
  | setCompleted
  | sendCompleted
  | setFailed (errorCode message : String)
  | sendFailed (errorCode message : String)
  | ended
  deriving DecidableEq, Repr

/-- where `_process` goes from an await: to the next await, or it returns or raises; `inTry` says
whether it ends inside the `try`, whose `finally` clears the job's entries -/
inductive Next where
  | await (a : Await)
  | ret (inTry : Bool)
  deriving DecidableEq, Repr

namespace Await

def storeCall : Await → Option StoreCall
  | .get => some .get
  | .setLocalFilePath _ path => some (.setLocalFilePath path)
  | .setWaiting _ _ => some (.updateStatus .waitingForPrinter none none)
  | .setPrinting _ _ => some (.updateStatus .printing none none)
  | .setCompleted => some (.updateStatus .completed none none)
  | .setFailed errorCode message => some (.updateStatus .failed (some errorCode) (some message))
  | _ => none

def event (jobId : String) : Await → Option JobEvent
  | .sendStarted _ _ => some (.started jobId)
  | .sendCompleted => some (.completed jobId)
  | .sendFailed errorCode message => some (.failed jobId (some errorCode) (some message))
  | _ => none

def printCall (jobId : String) : Await → Option PrintCall
  | .print record path => some ⟨jobId, record.printerLocalId, path, record.copies⟩
  | _ => none

/-- the outcomes the environment may pick for an await that is not a thread call nor a send:
`download_document` and `get_status` return or raise, `sleep` returns -/
def accepts : Await → Answer → Bool
  | .download _, .downloaded _ | .download _, .downloadError _ _ | .download _, .raised _ => true
  | .getStatus _ _, .status _ | .getStatus _ _, .raised _ => true
  | .pollStatus _ _ _, .status _ | .pollStatus _ _ _, .raised _ => true
  | .sleep _ _ _, .done => true
  | _, _ => false

/-- the coroutine has entered the `try` block -/
def inTry : Await → Bool
  | .start | .get | .ended => false
  | _ => true

/-- `_fail`, up to its first await -/
def fail (errorCode message : String) : Next := .await (.setFailed errorCode message)

/-- what follows `_wait_for_printer` when it returned `False` -/
def printerOffline (record : PrintJobRecord) : Next :=
  fail "PRINTER_OFFLINE" ("Printer " ++ record.printerLocalId ++ " did not come online")

/-- the first check of `_cancel_requested`, then `_wait_for_printer` up to its first await -/
def waitForPrinter (cancelRequested : Bool) (record : PrintJobRecord) (path : String) : Next :=
  if cancelRequested then .ret true else .await (.getStatus record path)

/-- the loop test of `_wait_for_printer`, and the check of `_cancel_requested` in its body -/
def pollLoop (cancelRequested : Bool) (record : PrintJobRecord) (path : String) (waited : Nat) :
    Next :=
  if waited < waitForPrinterMaxSeconds then
    if cancelRequested then printerOffline record else .await (.sleep record path waited)
  else printerOffline record

/-- `_wait_for_printer` returned `True`: the second check of `_cancel_requested`, then the write -/
def printerOnline (cancelRequested : Bool) (record : PrintJobRecord) (path : String) : Next :=
  if cancelRequested then .ret true else .await (.setPrinting record path)

/-- `_process` from one await to the next.  `cancelRequested` is `job_id in _cancel_requested` and
`pathExists` is `Path(local_path).exists()`, both at this moment. -/
def resume (cancelRequested pathExists : Bool) : Await → Answer → Option Next
  | .start, .done => some (.await .get)
  | .get, .record none => some (.ret false)
  | .get, .record (some record) =>
    match record.localFilePath with
    | none => some (.await (.download record))
    | some path =>
      if path = "" ∨ pathExists = false then some (.await (.download record))
      else some (waitForPrinter cancelRequested record path)
  | .download record, .downloaded path => some (.await (.setLocalFilePath record path))
  | .download _, .downloadError errorCode message => some (fail errorCode message)
  | .download _, .raised _ => some (.ret true)
  | .setLocalFilePath record path, .done => some (waitForPrinter cancelRequested record path)
  | .getStatus record path, .status true => some (printerOnline cancelRequested record path)
  | .getStatus record path, .status false => some (.await (.setWaiting record path))
  | .getStatus _ _, .raised _ => some (.ret true)
  | .setWaiting record path, .done => some (pollLoop cancelRequested record path 0)
  | .sleep record path waited, .done =>
    some (.await (.pollStatus record path (waited + waitForPrinterPollSeconds)))
  | .pollStatus record path _, .status true => some (printerOnline cancelRequested record path)
  | .pollStatus record path waited, .status false =>
    some (pollLoop cancelRequested record path waited)
  | .pollStatus _ _ _, .raised _ => some (.ret true)
  | .setPrinting record path, .done => some (.await (.sendStarted record path))
  | .sendStarted record path, .done => some (.await (.print record path))
  | .print _ _, .done => some (.await .setCompleted)
  | .print _ _, .raised message => some (fail "PRINTER_ERROR" message)
  | .setCompleted, .done => some (.await .sendCompleted)
  | .sendCompleted, .done => some (.ret true)
  | .setFailed errorCode message, .done => some (.await (.sendFailed errorCode message))
  | .sendFailed _ _, .done => some (.ret true)
  | _, _ => none

/-- the coroutine has not yet submitted a `PRINTING`, `COMPLETED` or `FAILED` write -/
def isEarly : Await → Bool
  | .start | .get | .download _ | .setLocalFilePath _ _ | .getStatus _ _ | .setWaiting _ _
  | .sleep _ _ _ | .pollStatus _ _ _ => true
  | _ => false

end Await

/-- the ways from one await of `_process` to the next -/
inductive Flow (cancelRequested : Bool) : Await → Await → Prop
  | early {a b : Await} (ha : a.isEarly = true) (hb : b.isEarly = true) : Flow cancelRequested a b
  | toPrinting {a : Await} (ha : a.isEarly = true) (hc : cancelRequested = false)
      (record : PrintJobRecord) (path : String) : Flow cancelRequested a (.setPrinting record path)
  | toFailed {a : Await} (ha : a.isEarly = true) (errorCode message : String) :
      Flow cancelRequested a (.setFailed errorCode message)
  | toStarted (record : PrintJobRecord) (path : String) :
      Flow cancelRequested (.setPrinting record path) (.sendStarted record path)
  | toPrint (record : PrintJobRecord) (path : String) :
      Flow cancelRequested (.sendStarted record path) (.print record path)
  | printed (record : PrintJobRecord) (path : String) :
      Flow cancelRequested (.print record path) .setCompleted
  | printFailed (record : PrintJobRecord) (path errorCode message : String) :
      Flow cancelRequested (.print record path) (.setFailed errorCode message)
  | toCompleted : Flow cancelRequested .setCompleted .sendCompleted
  | toFailedEvent (errorCode message : String) :
      Flow cancelRequested (.setFailed errorCode message) (.sendFailed errorCode message)

namespace Await
variable {c e : Bool} {a b : Await} {ans : Answer}

theorem waitForPrinter_await {record : PrintJobRecord} {path : String}
    (h : waitForPrinter c record path = .await b) : b = .getStatus record path := by
  unfold waitForPrinter at h
  split at h
  · cases h
  · exact (Next.await.inj h).symm

theorem printerOnline_await {record : PrintJobRecord} {path : String}
    (h : printerOnline c record path = .await b) : c = false ∧ b = .setPrinting record path := by
  unfold printerOnline at h
  split at h
  · cases h
  · rename_i hc
    exact ⟨by simpa using hc, (Next.await.inj h).symm⟩

theorem pollLoop_await {record : PrintJobRecord} {path : String} {waited : Nat}
    (h : pollLoop c record path waited = .await b) :
    b = .sleep record path waited ∨ ∃ errorCode message, b = .setFailed errorCode message := by
  unfold pollLoop printerOffline fail at h
  split at h
  · split at h
    · exact .inr ⟨_, _, (Next.await.inj h).symm⟩
    · exact .inl (Next.await.inj h).symm
  · exact .inr ⟨_, _, (Next.await.inj h).symm⟩

/-- every resumption that goes on follows `Flow` -/
theorem flow_of_resume (h : a.resume c e ans = some (.await b)) : Flow c a b := by
  unfold resume at h
  split at h
  case h_1 => cases h; exact .early rfl rfl
  case h_2 => cases h
  case h_3 =>
    split at h
    · cases h; exact .early rfl rfl
    · split at h
      · cases h; exact .early rfl rfl
      · rw [waitForPrinter_await (Option.some.inj h)]; exact .early rfl rfl
  case h_4 => cases h; exact .early rfl rfl
  case h_5 => cases h; exact .toFailed rfl _ _
  case h_6 => cases h
  case h_7 => rw [waitForPrinter_await (Option.some.inj h)]; exact .early rfl rfl
  case h_8 =>
    obtain ⟨hc, rfl⟩ := printerOnline_await (Option.some.inj h)
    exact .toPrinting rfl hc _ _
  case h_9 => cases h; exact .early rfl rfl
  case h_10 => cases h
  case h_11 =>
    rcases pollLoop_await (Option.some.inj h) with rfl | ⟨_, _, rfl⟩
    · exact .early rfl rfl
    · exact .toFailed rfl _ _
  case h_12 => cases h; exact .early rfl rfl
  case h_13 =>
    obtain ⟨hc, rfl⟩ := printerOnline_await (Option.some.inj h)
    exact .toPrinting rfl hc _ _
  case h_14 =>
    rcases pollLoop_await (Option.some.inj h) with rfl | ⟨_, _, rfl⟩
    · exact .early rfl rfl
    · exact .toFailed rfl _ _
  case h_15 => cases h
  case h_16 => cases h; exact .toStarted _ _
  case h_17 => cases h; exact .toPrint _ _
  case h_18 => cases h; exact .printed _ _
  case h_19 => cases h; exact .printFailed _ _ _ _
  case h_20 => cases h; exact .toCompleted
  case h_21 => cases h
  case h_22 => cases h; exact .toFailedEvent _ _
  case h_23 => cases h
  case h_24 => cases h

/-- why `_process` ends: its event is sent, or it ends early -/
inductive Ends (cancelRequested : Bool) : Await → Answer → Bool → Prop
  | completed (ans : Answer) : Ends cancelRequested .sendCompleted ans true
  | failed (errorCode message : String) (ans : Answer) :
      Ends cancelRequested (.sendFailed errorCode message) ans true
  | vanished : Ends cancelRequested .get (.record none) false
  | raised {a : Await} (ha : a.isEarly = true) (message : String) :
      Ends cancelRequested a (.raised message) true
  | cancelled {a : Await} (ha : a.isEarly = true) (hc : cancelRequested = true) (ans : Answer) :
      Ends cancelRequested a ans true

theorem ends_of_resume {t : Bool} (h : a.resume c e ans = some (.ret t)) : Ends c a ans t := by
  have hw : ∀ {record path}, waitForPrinter c record path = .ret t → c = true ∧ t = true := by
    intro record path hr
    unfold waitForPrinter at hr
    split at hr
    · rename_i hc; exact ⟨hc, (Next.ret.inj hr).symm⟩
    · cases hr
  have ho : ∀ {record path}, printerOnline c record path = .ret t → c = true ∧ t = true := by
    intro record path hr
    unfold printerOnline at hr
    split at hr
    · rename_i hc; exact ⟨hc, (Next.ret.inj hr).symm⟩
    · cases hr
  have hp : ∀ {record path waited}, pollLoop c record path waited ≠ .ret t := by
    intro record path waited hr
    unfold pollLoop printerOffline fail at hr
    split at hr
    · split at hr <;> cases hr
    · cases hr
  unfold resume at h
  split at h <;> try cases h
  case h_2 => exact .vanished
  case h_3 =>
    split at h
    · cases h
    · split at h
      · cases h
      · obtain ⟨hc, rfl⟩ := hw (Option.some.inj h); exact .cancelled rfl hc _
  case h_6 => exact .raised rfl _
  case h_7 => obtain ⟨hc, rfl⟩ := hw (Option.some.inj h); exact .cancelled rfl hc _
  case h_8 => obtain ⟨hc, rfl⟩ := ho (Option.some.inj h); exact .cancelled rfl hc _
  case h_10 => exact .raised rfl _
  case h_11 => exact absurd (Option.some.inj h) hp
  case h_13 => obtain ⟨hc, rfl⟩ := ho (Option.some.inj h); exact .cancelled rfl hc _
  case h_14 => exact absurd (Option.some.inj h) hp
  case h_15 => exact .raised rfl _
  case h_21 => exact .completed _
  case h_23 => exact .failed _ _ _

end Await

/-! ## tasks -/

/-- a call handed to a thread that changes something outside the event loop -/
inductive ThreadCall where
  | store (call : StoreCall)
  | print (call : PrintCall)
  deriving DecidableEq, Repr

/-- a task running `_process`.  `fut` is the answer of what it awaits, once it is there; `cancelled`
says that `cancel()` was called on it and the `CancelledError` is not delivered yet. -/
structure Task where
  await : Await
  fut : Option Answer
  cancelled : Bool
  deriving DecidableEq, Repr

namespace Task

/-- `asyncio.create_task(self._process(job_id))` -/
def new : Task := ⟨.start, some .done, false⟩

def isDone (t : Task) : Bool := t.await = .ended

/-- the task will go on from its await: it is not done, and no `CancelledError` is on its way -/
def isLive (t : Task) : Bool := !t.cancelled && !t.isDone

/-- the task waits for an answer that is not there yet -/
def isWaiting (t : Task) : Bool := t.fut.isNone && !t.cancelled

def pendingStoreCall (t : Task) : Option StoreCall :=
  if t.isWaiting then t.await.storeCall else none

def pendingPrint (jobId : String) (t : Task) : Option PrintCall :=
  if t.isWaiting then t.await.printCall jobId else none

def pendingEvent (jobId : String) (t : Task) : Option JobEvent :=
  if t.isWaiting then t.await.event jobId else none

/-- the thread call the task has submitted and that has not taken effect -/
def pendingThreadCall (jobId : String) (t : Task) : List ThreadCall :=
  (t.pendingStoreCall.map .store).toList ++ ((t.pendingPrint jobId).map .print).toList

/-- `task.cancel()`: the `CancelledError` is thrown at the await; nothing if the task is done -/
def cancel (t : Task) : Task := if t.isDone then t else { t with cancelled := true }

/-- the await's thread call answered, or the environment picked its outcome -/
def answer (t : Task) (ans : Answer) : Task := { t with fut := some ans }

/-- the task went on to the await `a`; a send without a socket returns at once -/
def goTo (jobId : String) (socket : Bool) (a : Await) : Task :=
  ⟨a, if (a.event jobId).isSome && !socket then some .done else none, false⟩

def finished : Task := ⟨.ended, none, false⟩

end Task

/-! ## the handlers of inbound messages -/

/-- the awaits of `handle_dispatch` and of `handle_cancel` -/
inductive HandlerAwait where
  | getExisting (dispatch : PrintJobDispatch)
  | insertReceived (dispatch : PrintJobDispatch)
  | getRaced
  | sendReceived
  | resend (event : JobEvent)
  | getRecord
  | setCancelled
  | sendCancelled
  deriving DecidableEq, Repr

/-- where a handler goes from an await: to the next await, to `setCancelled` after cancelling the
job's task, to its end after creating the job's task, or to its end -/
inductive HandlerNext where
  | await (a : HandlerAwait)
  | cancelTask
  | createTask
  | ret
  deriving DecidableEq, Repr

namespace HandlerAwait

def storeCall : HandlerAwait → Option StoreCall
  | .getExisting _ | .getRaced | .getRecord => some .get
  | .insertReceived dispatch => some (.insertReceived dispatch.newJob)
  | .setCancelled => some (.updateStatus .cancelled none none)
  | .sendReceived | .resend _ | .sendCancelled => none

def event (jobId : String) : HandlerAwait → Option JobEvent
  | .sendReceived => some (.received jobId)
  | .resend event => some event
  | .sendCancelled => some (.cancelled jobId)
  | _ => none

def isCancel : HandlerAwait → Bool
  | .getRecord | .setCancelled | .sendCancelled => true
  | _ => false

def resendTerminalEvent (record : PrintJobRecord) : HandlerNext :=
  match record.status with
  | .completed => .await (.resend (.completed record.jobId))
  | .failed => .await (.resend (.failed record.jobId record.errorCode record.errorMessage))
  | .cancelled => .await (.resend (.cancelled record.jobId))
  | _ => .ret

/-- `handle_dispatch` and `handle_cancel` from one await to the next -/
def resume : HandlerAwait → Answer → Option HandlerNext
  | .getExisting _, .record (some record) =>
    some (if record.status.isTerminal then resendTerminalEvent record else .ret)
  | .getExisting dispatch, .record none => some (.await (.insertReceived dispatch))
  | .insertReceived _, .inserted true => some (.await .sendReceived)
  | .insertReceived _, .inserted false => some (.await .getRaced)
  | .getRaced, .record (some record) =>
    some (if record.status.isTerminal then resendTerminalEvent record else .ret)
  | .getRaced, .record none => some .ret
  | .sendReceived, .done => some .createTask
  | .resend _, .done => some .ret
  | .getRecord, .record none => some .ret
  | .getRecord, .record (some record) =>
    some (if record.status.isResumable then .cancelTask else .ret)
  | .setCancelled, .done => some (.await .sendCancelled)
  | .sendCancelled, .done => some .ret
  | _, _ => none

end HandlerAwait

/-- the ways of `handle_dispatch` and `handle_cancel` from one await on -/
inductive HandlerFlow : HandlerAwait → Answer → HandlerNext → Prop
  | insert (dispatch : PrintJobDispatch) :
      HandlerFlow (.getExisting dispatch) (.record none) (.await (.insertReceived dispatch))
  | inserted (dispatch : PrintJobDispatch) :
      HandlerFlow (.insertReceived dispatch) (.inserted true) (.await .sendReceived)
  | raced (dispatch : PrintJobDispatch) :
      HandlerFlow (.insertReceived dispatch) (.inserted false) (.await .getRaced)
  | known {a : HandlerAwait} (ha : a = .getRaced ∨ ∃ dispatch, a = .getExisting dispatch)
      (record : PrintJobRecord) : HandlerFlow a (.record (some record)) .ret
  | resend {a : HandlerAwait} (ha : a = .getRaced ∨ ∃ dispatch, a = .getExisting dispatch)
      {record : PrintJobRecord} (ht : record.status.isTerminal = true) {event : JobEvent}
      (hj : event.jobId = record.jobId) (he : event.status = record.status) :
      HandlerFlow a (.record (some record)) (.await (.resend event))
  | vanished : HandlerFlow .getRaced (.record none) .ret
  | create : HandlerFlow .sendReceived .done .createTask
  | resent (event : JobEvent) : HandlerFlow (.resend event) .done .ret
  | unknown : HandlerFlow .getRecord (.record none) .ret
  | late {record : PrintJobRecord} (hs : record.status.isResumable = false) :
      HandlerFlow .getRecord (.record (some record)) .ret
  | cancelTask {record : PrintJobRecord} (hs : record.status.isResumable = true) :
      HandlerFlow .getRecord (.record (some record)) .cancelTask
  | cancelled : HandlerFlow .setCancelled .done (.await .sendCancelled)
  | sent : HandlerFlow .sendCancelled .done .ret

namespace HandlerAwait

/-- `_resend_terminal_event` reports the status of the record, if it is terminal -/
theorem flow_of_resendTerminalEvent {a : HandlerAwait}
    (ha : a = .getRaced ∨ ∃ dispatch, a = .getExisting dispatch) (record : PrintJobRecord) :
    HandlerFlow a (.record (some record))
      (if record.status.isTerminal then resendTerminalEvent record else .ret) := by
  unfold resendTerminalEvent
  cases hst : record.status with
  | completed => exact .resend ha (by rw [hst]; rfl) rfl hst.symm
  | failed => exact .resend ha (by rw [hst]; rfl) rfl hst.symm
  | cancelled => exact .resend ha (by rw [hst]; rfl) rfl hst.symm
  | queued => exact .known ha record
  | received => exact .known ha record
  | printing => exact .known ha record
  | waitingForPrinter => exact .known ha record

theorem flow_of_resume {a : HandlerAwait} {ans : Answer} {n : HandlerNext}
    (h : a.resume ans = some n) : HandlerFlow a ans n := by
  unfold resume at h
  split at h
  case h_1 d record => rw [← Option.some.inj h]; exact flow_of_resendTerminalEvent (.inr ⟨d, rfl⟩) record
  case h_2 => cases h; exact .insert _
  case h_3 => cases h; exact .inserted _
  case h_4 => cases h; exact .raced _
  case h_5 record => rw [← Option.some.inj h]; exact flow_of_resendTerminalEvent (.inl rfl) record
  case h_6 => cases h; exact .vanished
  case h_7 => cases h; exact .create
  case h_8 => cases h; exact .resent _
  case h_9 => cases h; exact .unknown
  case h_10 record =>
    rw [← Option.some.inj h]
    split
    · exact .cancelTask (by assumption)
    · rename_i hs; exact .late (by simpa using hs)
  case h_11 => cases h; exact .cancelled
  case h_12 => cases h; exact .sent
  case h_13 => cases h

end HandlerAwait

namespace HandlerFlow
variable {a : HandlerAwait} {ans : Answer} {n : HandlerNext}

theorem next_inserted {dispatch : PrintJobDispatch}
    (h : HandlerFlow (.insertReceived dispatch) (.inserted true) n) : n = .await .sendReceived := by
  cases h
  rfl

theorem next_sendReceived (h : HandlerFlow .sendReceived ans n) : n = .createTask := by
  cases h with
  | known ha | resend ha => rcases ha with ha | ⟨_, ha⟩ <;> cases ha
  | create => rfl

theorem next_setCancelled (h : HandlerFlow .setCancelled ans n) : n = .await .sendCancelled := by
  cases h with
  | known ha | resend ha => rcases ha with ha | ⟨_, ha⟩ <;> cases ha
  | cancelled => rfl

theorem next_sendCancelled (h : HandlerFlow .sendCancelled ans n) : n = .ret := by
  cases h with
  | known ha | resend ha => rcases ha with ha | ⟨_, ha⟩ <;> cases ha
  | sent => rfl

theorem next_getRecord {record : PrintJobRecord}
    (h : HandlerFlow .getRecord (.record (some record)) n) :
    n = if record.status.isResumable then .cancelTask else .ret := by
  cases h with
  | known ha | resend ha => rcases ha with ha | ⟨_, ha⟩ <;> cases ha
  | late hs => rw [hs]; rfl
  | cancelTask hs => rw [hs]; rfl

/-- the task is created right after `print.job.received` was sent -/
theorem of_createTask (h : HandlerFlow a ans .createTask) : a = .sendReceived := by
  cases h
  rfl

theorem of_sendReceived (h : HandlerFlow a ans (.await .sendReceived)) :
    (∃ dispatch, a = .insertReceived dispatch) ∧ ans = .inserted true := by
  cases h
  exact ⟨⟨_, rfl⟩, rfl⟩

theorem of_cancelTask (h : HandlerFlow a ans .cancelTask) :
    a = .getRecord ∧ ∃ record, ans = .record (some record) ∧ record.status.isResumable = true := by
  cases h with
  | cancelTask hs => exact ⟨rfl, _, rfl, hs⟩

theorem ne_setCancelled (h : HandlerFlow a ans (.await .setCancelled)) : False := by
  cases h

theorem ne_getRecord (h : HandlerFlow a ans (.await .getRecord)) : False := by
  cases h

theorem isCancel {b : HandlerAwait} (h : HandlerFlow a ans (.await b)) : b.isCancel = a.isCancel := by
  cases h with
  | resend ha => rcases ha with rfl | ⟨_, rfl⟩ <;> rfl
  | _ => rfl

theorem of_sendCancelled (h : HandlerFlow a ans (.await .sendCancelled)) :
    a = .setCancelled ∧ ans = .done := by
  cases h
  exact ⟨rfl, rfl⟩

end HandlerFlow

structure Handler where
  jobId : String
  await : HandlerAwait
  fut : Option Answer
  deriving DecidableEq, Repr

namespace Handler

def pendingStoreCall (h : Handler) : Option StoreCall :=
  if h.fut.isNone then h.await.storeCall else none

def pendingEvent (h : Handler) : Option JobEvent :=
  if h.fut.isNone then h.await.event h.jobId else none

def answer (h : Handler) (ans : Answer) : Handler := { h with fut := some ans }

end Handler

end PrintAgent
