import PrintAgent.Core.Agent

/-!
# The agent as one job sees it

Everything the agent does for a job touches only the job's own row, its entries in memory and the
handler, if the running handler is for it.  `Job` is that part of the state, with at most one task;
`Job.Step` says how it moves, one constructor for each kind of thing that can happen, and
`Agent.view` cuts it out of the agent.  That the agent, seen by a job, moves by `Job.Step` is
`agent_shows` (`Core/View.lean`); properties of runs are proved of `Job.Step`.
-/

namespace PrintAgent

inductive JobLife where
  | down
  /-- the answer says whether the job is among the ids found `PRINTING` -/
  | marking (fut : Option Bool)
  /-- the answer says whether the job is among the records to resume -/
  | listing (fut : Option Bool)
  | running
  deriving DecidableEq, Repr

structure Job where
  life : JobLife
  row : Option PrintJobRow
  cancelRequested : Bool
  /-- the id is a key of `_tasks` -/
  entry : Bool
  /-- the `_process` task created for the id in this life -/
  task : Option Task
  leftBehind : List ThreadCall
  handler : Option Handler
  handed : List JobEvent
  prints : List PrintCall

/-- what can happen, as one job sees it; `socket` says whether there is one at that moment -/
inductive JobAct where
  | boot
  | markStuck (now : String)
  | handStuck
  | listRows
  | resumeRows
  | dispatch (message : PrintJobDispatch)
  | cancel
  | handlerCall (now : String)
  | handlerSend
  | handlerResume
  | taskCall (now : String)
  | taskAnswer (answer : Answer)
  | taskSend
  | taskPrint (raises : Option String)
  | taskResume (pathExists socket : Bool)
  | taskThrow
  | leftCall (n : Nat) (now : String)
  | leftPrint (n : Nat)
  | leftDrop (n : Nat)
  | crash
  deriving DecidableEq, Repr

namespace JobAct

def isHandler : JobAct → Bool
  | .handlerCall _ | .handlerSend | .handlerResume => true
  | _ => false

def isTask : JobAct → Bool
  | .taskCall _ | .taskAnswer _ | .taskSend | .taskPrint _ | .taskResume _ _ | .taskThrow => true
  | _ => false

end JobAct

namespace Job

def init : Job := ⟨.down, none, false, false, none, [], none, [], []⟩

def status (x : Job) : Option PrintJobStatus := x.row.map (·.status)

/-- the task ends; inside the `try` its `finally` clears the entry and the cancel flag -/
def endTask (x : Job) (inTry : Bool) : Job :=
  { x with
    task := some .finished
    entry := if inTry then false else x.entry
    cancelRequested := if inTry then false else x.cancelRequested }

/-- `handle_cancel` cancels the task that `_tasks` holds for the job -/
def cancelTask (jobId : String) (x : Job) : Job :=
  match x.entry, x.task with
  | true, some t =>
    { x with task := some t.cancel, leftBehind := x.leftBehind ++ t.pendingThreadCall jobId }
  | _, _ => x

def createTask (x : Job) : Job := { x with task := some .new, entry := true }

section CancelTask
variable (jobId : String) (x : Job)

@[simp] theorem cancelTask_life : (x.cancelTask jobId).life = x.life := by
  unfold cancelTask; split <;> rfl
@[simp] theorem cancelTask_row : (x.cancelTask jobId).row = x.row := by
  unfold cancelTask; split <;> rfl
@[simp] theorem cancelTask_cancelRequested :
    (x.cancelTask jobId).cancelRequested = x.cancelRequested := by
  unfold cancelTask; split <;> rfl
@[simp] theorem cancelTask_entry : (x.cancelTask jobId).entry = x.entry := by
  unfold cancelTask; split <;> rfl
@[simp] theorem cancelTask_handed : (x.cancelTask jobId).handed = x.handed := by
  unfold cancelTask; split <;> rfl
@[simp] theorem cancelTask_prints : (x.cancelTask jobId).prints = x.prints := by
  unfold cancelTask; split <;> rfl

theorem cancelTask_cases :
    (x.cancelTask jobId = x ∧ (x.entry = false ∨ x.task = none)) ∨
    ∃ t, x.entry = true ∧ x.task = some t ∧ x.cancelTask jobId =
      { x with task := some t.cancel, leftBehind := x.leftBehind ++ t.pendingThreadCall jobId } := by
  unfold cancelTask
  cases he : x.entry with
  | false => exact .inl ⟨rfl, .inl rfl⟩
  | true =>
    cases ht : x.task with
    | none => exact .inl ⟨rfl, .inr rfl⟩
    | some t => exact .inr ⟨t, rfl, rfl, rfl⟩

end CancelTask

inductive Step (jobId : String) : Job → JobAct → Job → Prop
  | boot {x : Job} (hl : x.life = .down) : Step jobId x .boot { x with life := .marking none }
  | markStuck {x : Job} (now : String) (hl : x.life = .marking none) :
      Step jobId x (.markStuck now)
        { x with
          life := .marking (some (x.status = some .printing))
          row := x.row.map fun row => if row.status = .printing then row.markFailed now else row }
  | handStuck {x : Job} {stuck : Bool} (hl : x.life = .marking (some stuck)) :
      Step jobId x .handStuck
        { x with
          life := .listing none
          handed := x.handed ++ if stuck then [Agent.restartEvent jobId] else [] }
  | listRows {x : Job} (hl : x.life = .listing none) :
      Step jobId x .listRows
        { x with life := .listing (some (x.status.any PrintJobStatus.isResumable)) }
  | resumeRows {x : Job} {resume : Bool} (hl : x.life = .listing (some resume)) :
      Step jobId x .resumeRows
        { (if resume then x.createTask else x) with life := .running }
  | dispatch {x : Job} (message : PrintJobDispatch) (hl : x.life = .running)
      (hh : x.handler = none) :
      Step jobId x (.dispatch message) { x with handler := some ⟨jobId, .getExisting message, none⟩ }
  | cancel {x : Job} (hl : x.life = .running) (hh : x.handler = none) :
      Step jobId x .cancel
        { x with cancelRequested := true, handler := some ⟨jobId, .getRecord, none⟩ }
  | handlerCall {x : Job} {h : Handler} {c : StoreCall} (now : String) (hh : x.handler = some h)
      (hc : h.pendingStoreCall = some c) :
      Step jobId x (.handlerCall now)
        { x with
          row := (rowCall now jobId x.row c).2
          handler := some (h.answer (rowCall now jobId x.row c).1) }
  | handlerSend {x : Job} {h : Handler} {e : JobEvent} (hh : x.handler = some h)
      (he : h.pendingEvent = some e) :
      Step jobId x .handlerSend { x with handler := some (h.answer .done) }
  | handlerAwait {x : Job} {h : Handler} {ans : Answer} {a : HandlerAwait}
      (hh : x.handler = some h) (hf : h.fut = some ans) (hr : h.await.resume ans = some (.await a)) :
      Step jobId x .handlerResume
        { x with
          handler := some ⟨jobId, a, none⟩
          handed := x.handed ++ (a.event jobId).toList }
  | handlerCancelTask {x : Job} {h : Handler} {ans : Answer}
      (hh : x.handler = some h) (hf : h.fut = some ans) (hr : h.await.resume ans = some .cancelTask) :
      Step jobId x .handlerResume
        { x.cancelTask jobId with handler := some ⟨jobId, .setCancelled, none⟩ }
  | handlerCreateTask {x : Job} {h : Handler} {ans : Answer}
      (hh : x.handler = some h) (hf : h.fut = some ans) (hr : h.await.resume ans = some .createTask) :
      Step jobId x .handlerResume { x.createTask with handler := none }
  | handlerRet {x : Job} {h : Handler} {ans : Answer}
      (hh : x.handler = some h) (hf : h.fut = some ans) (hr : h.await.resume ans = some .ret) :
      Step jobId x .handlerResume { x with handler := none }
  | taskCall {x : Job} {t : Task} {c : StoreCall} (now : String) (ht : x.task = some t)
      (hc : t.pendingStoreCall = some c) :
      Step jobId x (.taskCall now)
        { x with
          row := (rowCall now jobId x.row c).2
          task := some (t.answer (rowCall now jobId x.row c).1) }
  | taskAnswer {x : Job} {t : Task} {ans : Answer} (ht : x.task = some t)
      (hw : t.isWaiting = true) (ha : t.await.accepts ans = true) :
      Step jobId x (.taskAnswer ans) { x with task := some (t.answer ans) }
  | taskSend {x : Job} {t : Task} {e : JobEvent} (ht : x.task = some t)
      (he : t.pendingEvent jobId = some e) :
      Step jobId x .taskSend { x with task := some (t.answer .done) }
  | taskPrint {x : Job} {t : Task} {p : PrintCall} (raises : Option String) (ht : x.task = some t)
      (hp : t.pendingPrint jobId = some p) :
      Step jobId x (.taskPrint raises)
        { x with
          task := some (t.answer (raises.elim .done .raised))
          prints := x.prints ++ [p] }
  | taskAwait {x : Job} {t : Task} {ans : Answer} {a : Await} (pathExists socket : Bool)
      (ht : x.task = some t) (hn : t.cancelled = false) (hf : t.fut = some ans)
      (hr : t.await.resume x.cancelRequested pathExists ans = some (.await a)) :
      Step jobId x (.taskResume pathExists socket)
        { x with
          task := some (.goTo jobId socket a)
          handed := x.handed ++ (a.event jobId).toList }
  | taskRet {x : Job} {t : Task} {ans : Answer} {inTry : Bool} (pathExists socket : Bool)
      (ht : x.task = some t) (hn : t.cancelled = false) (hf : t.fut = some ans)
      (hr : t.await.resume x.cancelRequested pathExists ans = some (.ret inTry)) :
      Step jobId x (.taskResume pathExists socket) (x.endTask inTry)
  | taskThrow {x : Job} {t : Task} (ht : x.task = some t) (hc : t.cancelled = true)
      (hd : t.isDone = false) : Step jobId x .taskThrow (x.endTask t.await.inTry)
  | leftCall {x : Job} {n : Nat} {c : StoreCall} (now : String)
      (hn : x.leftBehind[n]? = some (.store c)) :
      Step jobId x (.leftCall n now)
        { x with
          row := (rowCall now jobId x.row c).2
          leftBehind := x.leftBehind.eraseIdx n }
  | leftPrint {x : Job} {n : Nat} {p : PrintCall} (hn : x.leftBehind[n]? = some (.print p)) :
      Step jobId x (.leftPrint n)
        { x with prints := x.prints ++ [p], leftBehind := x.leftBehind.eraseIdx n }
  | leftDrop {x : Job} {n : Nat} (hn : n < x.leftBehind.length) :
      Step jobId x (.leftDrop n) { x with leftBehind := x.leftBehind.eraseIdx n }
  | crash {x : Job} :
      Step jobId x .crash
        { x with
          life := .down, cancelRequested := false, entry := false, task := none, leftBehind := []
          handler := none }

end Job

/-! ## the view -/

def Life.view (jobId : String) : Life → JobLife
  | .down => .down
  | .marking fut => .marking (fut.map fun jobIds => decide (jobId ∈ jobIds))
  | .listing fut => .listing (fut.map fun records => decide (jobId ∈ Agent.resumable records))
  | .running => .running

namespace Agent

/-- the handler the receive loop awaits, if it is one for the job -/
def handlerOf (s : Agent) (jobId : String) : Option Handler :=
  s.ws.handler.filter (·.jobId = jobId)

def view (jobId : String) (s : Agent) : Job where
  life := s.life.view jobId
  row := s.store.row jobId
  cancelRequested := (s.slots jobId).cancelRequested
  entry := (s.slots jobId).entry.isSome
  task := (s.slots jobId).tasks.head?
  leftBehind := (s.slots jobId).leftBehind
  handler := s.handlerOf jobId
  handed := s.handed.filter (·.jobId = jobId)
  prints := s.prints.filter (·.jobId = jobId)

def seen (jobId : String) (s : Agent) : Act → Option JobAct
  | .boot => some .boot
  | .markStuck now => some (.markStuck now)
  | .handStuck => some .handStuck
  | .listRows => some .listRows
  | .resumeRows => some .resumeRows
  | .connect | .authenticated | .flushSend _ | .flushEnd | .synced | .disconnect => none
  | .dispatch message => if message.jobId = jobId then some (.dispatch message) else none
  | .cancel message => if message.jobId = jobId then some .cancel else none
  | .handlerCall now => (s.handlerOf jobId).map fun _ => .handlerCall now
  | .handlerSend _ => (s.handlerOf jobId).map fun _ => .handlerSend
  | .handlerResume => (s.handlerOf jobId).map fun _ => .handlerResume
  | .taskCall k _ now => if k = jobId then some (.taskCall now) else none
  | .taskAnswer k _ ans => if k = jobId then some (.taskAnswer ans) else none
  | .taskSend k _ _ => if k = jobId then some .taskSend else none
  | .taskPrint k _ raises => if k = jobId then some (.taskPrint raises) else none
  | .taskResume k _ pathExists =>
    if k = jobId then some (.taskResume pathExists s.ws.socket) else none
  | .taskThrow k _ => if k = jobId then some .taskThrow else none
  | .leftCall k n now => if k = jobId then some (.leftCall n now) else none
  | .leftPrint k n => if k = jobId then some (.leftPrint n) else none
  | .leftDrop k n => if k = jobId then some (.leftDrop n) else none
  | .crash => some .crash

end Agent

end PrintAgent
