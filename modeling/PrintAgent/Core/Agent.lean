import PrintAgent.Core.JobWorker
import PrintAgent.Lib.Machine
import PrintAgent.Net.WsClient

/-!
# The agent

`core/agent.py`: one process life after another, from `_recover_on_startup` to a crash, with
everything that can happen in between.  `Act` is one thing that can happen; it carries the choices
of the environment (clock readings, outcomes of calls, which race is won), so a list of `Act`s is a
schedule.  `Agent.step` says what it does, `none` if it cannot happen now.

* A life starts with the two store calls of `_recover_on_startup`; then `run_forever` and the
  resumed tasks run.
* `run_forever` awaits each inbound handler before it reads the next frame, so at most one handler
  is running; tasks run beside it.
* A call handed to a thread takes effect at any later time (`taskCall`, `handlerCall`, `taskPrint`).
  Cancelling a task leaves its thread call behind, which still takes effect (`leftCall`,
  `leftPrint`) or, if the pool had not started it, is dropped (`leftDrop`).
* A crash keeps the store and loses everything else.

`handed`, `prints` and `written` are the history of the whole run, over all lives: the events handed
to `WsClient.send`, the calls of `PrinterManager.print`, the frames written to a socket.
-/

namespace PrintAgent

inductive Life where
  /-- no process -/
  | down
  /-- `_recover_on_startup` awaits `mark_stuck_printing_as_failed` -/
  | marking (fut : Option (List String))
  /-- `_recover_on_startup` awaits `list_non_terminal` -/
  | listing (fut : Option (List PrintJobRecord))
  | running
  deriving DecidableEq, Repr

/-- what the process holds in memory for one job id: `job_id in _cancel_requested`, the `_process`
tasks created for the id in this life, the one that `_tasks` maps the id to, and the thread calls
that cancelled tasks of the id left behind -/
structure Slot where
  cancelRequested : Bool
  tasks : List Task
  entry : Option Nat
  leftBehind : List ThreadCall

namespace Slot

def empty : Slot := ⟨false, [], none, []⟩

/-- `self._tasks[job_id] = asyncio.create_task(self._process(job_id))` -/
def createTask (slot : Slot) : Slot :=
  { slot with tasks := slot.tasks ++ [.new], entry := some slot.tasks.length }

def setTask (slot : Slot) (i : Nat) (t : Task) : Slot := { slot with tasks := slot.tasks.set i t }

/-- task `i` ends; inside the `try` its `finally` pops the entry and discards the cancel flag -/
def endTask (slot : Slot) (i : Nat) (inTry : Bool) : Slot :=
  { slot.setTask i .finished with
    entry := if inTry then none else slot.entry
    cancelRequested := if inTry then false else slot.cancelRequested }

/-- `task = self._tasks.get(job_id)`, and `task.cancel()` if there is one -/
def cancelTask (jobId : String) (slot : Slot) : Slot :=
  match slot.entry.bind fun i => slot.tasks[i]?.map fun t => (i, t) with
  | none => slot
  | some (i, t) =>
    { slot.setTask i t.cancel with leftBehind := slot.leftBehind ++ t.pendingThreadCall jobId }

end Slot

structure Agent where
  store : QueueStore
  life : Life
  ws : WsClient Handler
  slots : String → Slot
  handed : List JobEvent
  prints : List PrintCall
  written : List JobEvent

inductive Act where
  /-- the process starts, and its startup recovery goes through -/
  | boot
  | markStuck (now : String)
  | handStuck
  | listRows
  | resumeRows
  /-- `run_forever` -/
  | connect
  | authenticated
  | flushSend (written : Bool)
  | flushEnd
  | synced
  | disconnect
  | dispatch (message : PrintJobDispatch)
  | cancel (message : PrintJobCancel)
  /-- the handler the receive loop awaits: its thread call takes effect, its send ends, it is resumed -/
  | handlerCall (now : String)
  | handlerSend (written : Bool)
  | handlerResume
  /-- task `i` of a job: its thread call takes effect, the environment answers, its send ends, the
  printer is called, it is resumed, a `CancelledError` reaches it -/
  | taskCall (jobId : String) (i : Nat) (now : String)
  | taskAnswer (jobId : String) (i : Nat) (answer : Answer)
  | taskSend (jobId : String) (i : Nat) (written : Bool)
  | taskPrint (jobId : String) (i : Nat) (raises : Option String)
  | taskResume (jobId : String) (i : Nat) (pathExists : Bool)
  | taskThrow (jobId : String) (i : Nat)
  /-- the `n`-th call that the job's cancelled tasks left behind -/
  | leftCall (jobId : String) (n : Nat) (now : String)
  | leftPrint (jobId : String) (n : Nat)
  | leftDrop (jobId : String) (n : Nat)
  | crash
  deriving DecidableEq, Repr

namespace Agent

/-- no process, an empty queue file, no history -/
def init : Agent := ⟨.empty, .down, .init, fun _ => .empty, [], [], []⟩

def setSlot (s : Agent) (jobId : String) (slot : Slot) : Agent :=
  { s with slots := Function.update s.slots jobId slot }

def setTask (s : Agent) (jobId : String) (i : Nat) (t : Task) : Agent :=
  s.setSlot jobId ((s.slots jobId).setTask i t)

def task (s : Agent) (jobId : String) (i : Nat) : Option Task := (s.slots jobId).tasks[i]?

def setLoop (s : Agent) (loop : Loop Handler) : Agent := { s with ws := s.ws.setLoop loop }

/-- the await hands its event, if it is a send, to `WsClient.send` -/
def hand (s : Agent) (event : Option JobEvent) : Agent :=
  match event with
  | none => s
  | some e => { s with handed := s.handed ++ [e], ws := s.ws.send e }

def sendEnds (s : Agent) (e : JobEvent) (written : Bool) : Agent :=
  { s with ws := s.ws.sendEnds e written, written := if written then s.written ++ [e] else s.written }

/-- the event of `_recover_on_startup` for a job it found `PRINTING` -/
def restartEvent (jobId : String) : JobEvent :=
  .failed jobId (some PrintJobRow.restartErrorCode) (some PrintJobRow.restartErrorMessage)

/-- the events handed over by `_recover_on_startup`: there is no socket yet -/
def handAll (s : Agent) (events : List JobEvent) : Agent :=
  { s with
    handed := s.handed ++ events
    ws := { s.ws with durableQueue := s.ws.durableQueue ++ events } }

/-- the records that `_recover_on_startup` resumes -/
def resumable (records : List PrintJobRecord) : List String :=
  (records.filter fun record => record.status.isResumable).map (·.jobId)

/-- `resume_job` for each id -/
def resumeJobs (s : Agent) (jobIds : List String) : Agent :=
  jobIds.foldl (fun s jobId => s.setSlot jobId (s.slots jobId).createTask) s

/-- the process is gone: the committed store and the history remain -/
def crash (s : Agent) : Agent := { s with life := .down, ws := .init, slots := fun _ => .empty }

def resumeHandler (s : Agent) (h : Handler) : HandlerNext → Agent
  | .await a => (s.hand (a.event h.jobId)).setLoop (.handling ⟨h.jobId, a, none⟩)
  | .cancelTask =>
    (s.setSlot h.jobId ((s.slots h.jobId).cancelTask h.jobId)).setLoop
      (.handling ⟨h.jobId, .setCancelled, none⟩)
  | .createTask => (s.setSlot h.jobId (s.slots h.jobId).createTask).setLoop .receiving
  | .ret => s.setLoop .receiving

def resumeTask (s : Agent) (jobId : String) (i : Nat) : Next → Agent
  | .await a => (s.setTask jobId i (.goTo jobId s.ws.socket a)).hand (a.event jobId)
  | .ret inTry => s.setSlot jobId ((s.slots jobId).endTask i inTry)

def step (s : Agent) : Act → Option Agent
  | .boot => if s.life = .down then some { s with life := .marking none } else none
  | .markStuck now =>
    if s.life = .marking none then
      let r := s.store.markStuckPrintingAsFailed now
      some { s with life := .marking (some r.1), store := r.2 }
    else none
  | .handStuck =>
    match s.life with
    | .marking (some jobIds) => some { s.handAll (jobIds.map restartEvent) with life := .listing none }
    | _ => none
  | .listRows =>
    if s.life = .listing none then some { s with life := .listing (some s.store.listNonTerminal) }
    else none
  | .resumeRows =>
    match s.life with
    | .listing (some records) => some { s.resumeJobs (resumable records) with life := .running }
    | _ => none
  | .connect =>
    match s.life, s.ws.loop with
    | .running, .connecting => some (s.setLoop .authenticating)
    | _, _ => none
  | .authenticated =>
    match s.ws.loop with
    | .authenticating => some { s with ws := s.ws.beginFlush }
    | _ => none
  | .flushSend written =>
    match s.ws.loop with
    | .flushing (e :: pending) => some ((s.sendEnds e written).setLoop (.flushing pending))
    | _ => none
  | .flushEnd =>
    match s.ws.loop with
    | .flushing [] => some (s.setLoop .syncing)
    | _ => none
  | .synced =>
    match s.ws.loop with
    | .syncing => some (s.setLoop .receiving)
    | _ => none
  | .disconnect =>
    match s.ws.loop with
    | .authenticating | .syncing | .receiving => some (s.setLoop .connecting)
    | _ => none
  | .dispatch message =>
    match s.ws.loop with
    | .receiving => some (s.setLoop (.handling ⟨message.jobId, .getExisting message, none⟩))
    | _ => none
  | .cancel message =>
    match s.ws.loop with
    | .receiving =>
      some ((s.setSlot message.jobId { s.slots message.jobId with cancelRequested := true }).setLoop
        (.handling ⟨message.jobId, .getRecord, none⟩))
    | _ => none
  | .handlerCall now => do
    let h ← s.ws.handler
    let c ← h.pendingStoreCall
    let r := s.store.call now h.jobId c
    some { s.setLoop (.handling (h.answer r.1)) with store := r.2 }
  | .handlerSend written => do
    let h ← s.ws.handler
    let e ← h.pendingEvent
    some ((s.sendEnds e written).setLoop (.handling (h.answer .done)))
  | .handlerResume => do
    let h ← s.ws.handler
    let ans ← h.fut
    let n ← h.await.resume ans
    some (s.resumeHandler h n)
  | .taskCall jobId i now => do
    let t ← s.task jobId i
    let c ← t.pendingStoreCall
    let r := s.store.call now jobId c
    some { s.setTask jobId i (t.answer r.1) with store := r.2 }
  | .taskAnswer jobId i ans => do
    let t ← s.task jobId i
    if t.isWaiting && t.await.accepts ans then some (s.setTask jobId i (t.answer ans)) else none
  | .taskSend jobId i written => do
    let t ← s.task jobId i
    let e ← t.pendingEvent jobId
    some ((s.sendEnds e written).setTask jobId i (t.answer .done))
  | .taskPrint jobId i raises => do
    let t ← s.task jobId i
    let p ← t.pendingPrint jobId
    some { s.setTask jobId i (t.answer (raises.elim .done .raised)) with prints := s.prints ++ [p] }
  | .taskResume jobId i pathExists => do
    let t ← s.task jobId i
    if t.cancelled then none
    else do
      let ans ← t.fut
      let n ← t.await.resume (s.slots jobId).cancelRequested pathExists ans
      some (s.resumeTask jobId i n)
  | .taskThrow jobId i => do
    let t ← s.task jobId i
    if t.cancelled && !t.isDone then some (s.setSlot jobId ((s.slots jobId).endTask i t.await.inTry))
    else none
  | .leftCall jobId n now => do
    match (s.slots jobId).leftBehind[n]? with
    | some (.store c) =>
      some { s.setSlot jobId
          { s.slots jobId with leftBehind := (s.slots jobId).leftBehind.eraseIdx n } with
        store := (s.store.call now jobId c).2 }
    | _ => none
  | .leftPrint jobId n => do
    match (s.slots jobId).leftBehind[n]? with
    | some (.print p) =>
      some { s.setSlot jobId
          { s.slots jobId with leftBehind := (s.slots jobId).leftBehind.eraseIdx n } with
        prints := s.prints ++ [p] }
    | _ => none
  | .leftDrop jobId n =>
    if n < (s.slots jobId).leftBehind.length then
      some (s.setSlot jobId
        { s.slots jobId with leftBehind := (s.slots jobId).leftBehind.eraseIdx n })
    else none
  | .crash => some s.crash

end Agent

def agent : Machine Agent Act := ⟨Agent.init, Agent.step⟩

/-! ## pieces of schedules -/

namespace Schedule

def exampleJob : PrintJobDispatch := ⟨"a", "p", "invoice", "1", "u", 1⟩

def startup (now : String) : List Act := [.boot, .markStuck now, .handStuck, .listRows, .resumeRows]

def connect : List Act := [.connect, .authenticated, .flushEnd, .synced]

/-- `handle_dispatch` of a new job, from start to end -/
def accept (now : String) (message : PrintJobDispatch) : List Act :=
  [.dispatch message, .handlerCall now, .handlerResume, .handlerCall now, .handlerResume,
    .handlerSend true, .handlerResume]

/-- `handle_cancel` up to the answer of its read -/
def readForCancel (now jobId : String) : List Act := [.cancel ⟨jobId⟩, .handlerCall now]

/-- `handle_cancel` from the answer of its read to its end -/
def goOnWithCancel (now : String) : List Act :=
  [.handlerResume, .handlerCall now, .handlerResume, .handlerSend true, .handlerResume]

/-- the task from its start to its first `get_status` -/
def download (now path jobId : String) : List Act :=
  [.taskResume jobId 0 false, .taskCall jobId 0 now, .taskResume jobId 0 false,
    .taskAnswer jobId 0 (.downloaded path), .taskResume jobId 0 true, .taskCall jobId 0 now,
    .taskResume jobId 0 true]

/-- `get_status` answers, and the task goes on to the status write that follows -/
def getStatus (online : Bool) (jobId : String) : List Act :=
  [.taskAnswer jobId 0 (.status online), .taskResume jobId 0 true]

/-- the task from its `PRINTING` write to its print call -/
def start (now jobId : String) : List Act :=
  [.taskCall jobId 0 now, .taskResume jobId 0 true, .taskSend jobId 0 true, .taskResume jobId 0 true]

def print (now jobId : String) : List Act :=
  [.taskPrint jobId 0 none, .taskResume jobId 0 true, .taskCall jobId 0 now,
    .taskResume jobId 0 true, .taskSend jobId 0 true, .taskResume jobId 0 true]

end Schedule

end PrintAgent
