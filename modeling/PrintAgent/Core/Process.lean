import PrintAgent.Core.Base

/-!
# The agent from its start to its end

`Agent.run` of `core/agent.py` with `Agent.stop`: the agent, where `run_forever` stands in its loop,
and the end of the three loops that `run` gathers.

* `Process`, `Process.step`   a step of the agent is one here (`ProcessAct.agent`), as long as
                              `run_forever` is in its `async with` when it reads the socket, and the
                              store is open when a call reaches it;
* `Process.Fits`              what always holds between the two (`fits_of_reach`);
* `of_step_…`                 what a step of the agent can change in a running process.

`Agent.stop` sets the events of all loops without an await in between, so they have one flag.  The
exceptions that end a loop, and `run` with it, are not steps here (`Core/Forever.lean` is about them).
Once the store is closed a call that reaches it raises in the task that made it, and `asyncio.run`
cancels the tasks that are left.
-/

namespace PrintAgent

/-- where `run_forever` stands in its loop -/
inductive Round where
  /-- before the test of `_stop_event` at the head -/
  | head
  /-- in `websockets.connect`, or on the connection that it made -/
  | connection
  /-- in the `finally` -/
  | leaving
  /-- waits for the delay to pass, or for `stop` -/
  | backoff
  | returned
  deriving DecidableEq, Repr

structure Process where
  agent : Agent
  round : Round
  stopped : Bool
  heartbeatEnded : Bool
  syncEnded : Bool
  /-- the store is closed, and `run` returns -/
  closed : Bool
  /-- the connection attempts of this process -/
  attempts : Nat
  /-- the frames passed to `on_inbound_message` in this process, with the number of the attempt that
  made the connection they came on -/
  passed : List (Nat × InboundHubMessage)

inductive ProcessAct where
  | agent (a : Act)
  /-- a frame is received, and passed to `on_inbound_message` -/
  | frame (message : InboundHubMessage)
  | stop
  /-- `run_forever`: the test at the head, `websockets.connect` raises, the connection ends, the
  `finally` is through, the delay is over -/
  | iterate
  | refused
  | disconnect
  | disconnected
  | backoffEnds
  /-- `_heartbeat_loop` and `run_periodic_sync` see the event -/
  | heartbeatEnds
  | syncEnds
  /-- `gather` returns, and `run` closes the store -/
  | close
  /-- the pending call of task `i` of a job reaches the closed store -/
  | callRaises (jobId : String) (i : Nat)
  /-- `asyncio.run` cancels task `i` of a job -/
  | cancelLeft (jobId : String) (i : Nat)
  | crash
  deriving DecidableEq, Repr

/-- a store call of a task, or of one that was cancelled -/
def Act.isTaskCall : Act → Bool
  | .taskCall .. | .leftCall .. => true
  | _ => false

/-- a frame is passed to `on_inbound_message`; only the dispatches and the cancels are looked at -/
def Agent.receive (s : Agent) : InboundHubMessage → Option Agent
  | .dispatch message => s.step (.dispatch message)
  | .cancel message => s.step (.cancel message)
  | .authenticated _ | .authenticateRejected =>
    match s.ws.loop with
    | .receiving => some s
    | _ => none

namespace Process

def init : Process := ⟨.init, .head, false, false, false, false, 0, []⟩

/-- the step of the agent can happen where the process stands, and is not one that has its own
`ProcessAct` -/
def takes (s : Process) (a : Act) : Bool :=
  match a with
  | .dispatch _ | .cancel _ | .disconnect | .crash => false
  | .connect => s.round = .connection
  | a => !a.isTaskCall || !s.closed

def step (s : Process) : ProcessAct → Option Process
  | .agent a =>
    if s.takes a then (s.agent.step a).map fun agent => { s with agent := agent } else none
  | .frame message =>
    (s.agent.receive message).map fun agent =>
      { s with agent := agent, passed := s.passed ++ [(s.attempts, message)] }
  | .stop => some { s with stopped := true }
  | .iterate =>
    if s.agent.life = .running ∧ s.round = .head then
      some <|
        if s.stopped then { s with round := .returned }
        else { s with round := .connection, attempts := s.attempts + 1 }
    else none
  | .refused =>
    if s.round = .connection ∧ s.agent.ws.socket = false then some { s with round := .leaving }
    else none
  | .disconnect =>
    (s.agent.step .disconnect).map fun agent => { s with agent := agent, round := .leaving }
  | .disconnected =>
    if s.round = .leaving then some { s with round := if s.stopped then .returned else .backoff }
    else none
  | .backoffEnds => if s.round = .backoff then some { s with round := .head } else none
  | .heartbeatEnds =>
    if s.agent.life = .running ∧ s.stopped = true then some { s with heartbeatEnded := true }
    else none
  | .syncEnds =>
    if s.agent.life = .running ∧ s.stopped = true then some { s with syncEnded := true } else none
  | .close =>
    if s.round = .returned ∧ s.heartbeatEnded = true ∧ s.syncEnded = true ∧ s.closed = false then
      some { s with closed := true }
    else none
  | .callRaises jobId i => do
    let t ← s.agent.task jobId i
    if s.closed && t.pendingStoreCall.isSome then
      some { s with
        agent := s.agent.setSlot jobId ((s.agent.slots jobId).endTask i t.await.inTry) }
    else none
  | .cancelLeft jobId i => do
    let t ← s.agent.task jobId i
    let slot := s.agent.slots jobId
    if s.closed then
      some { s with
        agent := s.agent.setSlot jobId
          { slot.setTask i t.cancel with
            leftBehind := slot.leftBehind ++ t.pendingThreadCall jobId } }
    else none
  | .crash => some { init with agent := s.agent.crash }

end Process

def process : Machine Process ProcessAct := ⟨Process.init, Process.step⟩

/-! ## what a step of the agent can change in a running process -/

namespace Agent
variable {s s' : Agent} {a : Act} {j k : String}

theorem tasks_setSlot {slot : Slot} (h : slot.tasks.length = (s.slots k).tasks.length) :
    ((s.setSlot k slot).slots j).tasks.length = (s.slots j).tasks.length := by
  by_cases hj : j = k
  · rw [hj, setSlot_self]
    exact h
  · rw [setSlot_of_ne _ _ _ _ hj]

theorem socket_eq_false : s.ws.socket = false ↔ s.ws.loop = .connecting := by
  unfold WsClient.socket
  split
  · rename_i hl
    exact iff_of_true rfl hl
  · rename_i hl
    exact iff_of_false (by simp) hl

theorem handler_of_socket (h : s.ws.socket = false) : s.ws.handler = none := by
  rw [WsClient.handler, socket_eq_false.mp h]

theorem receive_step {message : InboundHubMessage} (h : s.receive message = some s') :
    s.ws.loop = .receiving ∧
      (s' = s ∨ (∃ m, message = .dispatch m ∧ s.step (.dispatch m) = some s') ∨
        ∃ m, message = .cancel m ∧ s.step (.cancel m) = some s') := by
  cases message with
  | dispatch m =>
    refine ⟨?_, .inr (.inl ⟨m, rfl, h⟩)⟩
    simp only [receive, step] at h
    split at h
    · assumption
    · cases h
  | cancel m =>
    refine ⟨?_, .inr (.inr ⟨m, rfl, h⟩)⟩
    simp only [receive, step] at h
    split at h
    · assumption
    · cases h
  | _ =>
    simp only [receive] at h
    split at h
    · cases h
      exact ⟨by assumption, .inl rfl⟩
    · cases h

/-- what a step other than a crash leaves as it was -/
structure Goes (s : Agent) (a : Act) (s' : Agent) : Prop where
  life : s.life = .running → s'.life = .running
  socket : s.ws.socket = false → a ≠ .connect → s'.ws.socket = false
  store : s.life = .running → s.ws.socket = false → a.isTaskCall = false → s'.store = s.store
  /-- once startup recovery is over only a handler creates a task -/
  tasks : s.life = .running → ∀ j, (s'.slots j).tasks.length = (s.slots j).tasks.length ∨
    ∃ hd, s.ws.loop = .handling hd ∧ hd.jobId = j ∧ hd.await = .sendReceived

theorem socket_of_loop (hw : s'.ws.loop = s.ws.loop) (hs : s.ws.socket = false) :
    s'.ws.socket = false := by
  rw [socket_eq_false] at hs ⊢
  exact hw.trans hs

theorem Goes.of_startup (hl : s.life ≠ .running) (hw : s'.ws.loop = s.ws.loop) : Goes s a s' where
  life h := absurd h hl
  socket hs _ := socket_of_loop hw hs
  store h := absurd h hl
  tasks h := absurd h hl

theorem Goes.of_slot (hl : s'.life = s.life) (hw : s'.ws.loop = s.ws.loop)
    (hst : a.isTaskCall = false → s'.store = s.store) {slot : Slot}
    (hs : s'.slots = (s.setSlot k slot).slots)
    (hn : slot.tasks.length = (s.slots k).tasks.length) : Goes s a s' where
  life h := hl.trans h
  socket hs _ := socket_of_loop hw hs
  store _ _ ha := hst ha
  tasks _ j := by
    left
    rw [hs]
    exact tasks_setSlot hn

theorem Goes.of_handling (hl : s'.life = s.life) {hd : Handler} (hw : s.ws.loop = .handling hd)
    (ht : ∀ j, (s'.slots j).tasks.length = (s.slots j).tasks.length ∨
      hd.jobId = j ∧ hd.await = .sendReceived) : Goes s a s' where
  life h := hl.trans h
  socket hs := by
    rw [socket_eq_false, hw] at hs
    cases hs
  store _ hs := by
    rw [socket_eq_false, hw] at hs
    cases hs
  tasks _ j := by
    rcases ht j with hj | ⟨hj, ha⟩
    · exact .inl hj
    · exact .inr ⟨hd, hw, hj, ha⟩

theorem Goes.of_loop (hl : s'.life = s.life)
    (hw : a = .connect ∨ s.ws.socket = true ∨ s'.ws.socket = false) (hst : s'.store = s.store)
    (hs : s'.slots = s.slots) : Goes s a s' where
  life h := hl.trans h
  socket hno ha := by
    rcases hw with hw | hw | hw
    · exact absurd hw ha
    · rw [hno] at hw
      cases hw
    · exact hw
  store _ _ _ := hst
  tasks _ j := .inl (by rw [hs])

theorem tasks_setTask (slot : Slot) (i : Nat) (t : Task) :
    (slot.setTask i t).tasks.length = slot.tasks.length := List.length_set

theorem tasks_endTask (slot : Slot) (i : Nat) (inTry : Bool) :
    (slot.endTask i inTry).tasks.length = slot.tasks.length := List.length_set

theorem tasks_cancelTask (slot : Slot) : (slot.cancelTask k).tasks.length = slot.tasks.length := by
  unfold Slot.cancelTask
  split
  · rfl
  · exact tasks_setTask slot _ _

theorem step_goes (h : s.step a = some s') (ha : a ≠ .crash) : s.Goes a s' := by
  cases a with
  | boot =>
    simp only [step] at h
    split at h <;> cases h
    rename_i hl
    exact .of_startup (by simp [hl]) rfl
  | markStuck now =>
    simp only [step] at h
    split at h <;> cases h
    rename_i hl
    exact .of_startup (by simp [hl]) rfl
  | handStuck =>
    simp only [step] at h
    split at h <;> cases h
    rename_i jobIds hl
    exact .of_startup (by simp [hl]) rfl
  | listRows =>
    simp only [step] at h
    split at h <;> cases h
    rename_i hl
    exact .of_startup (by simp [hl]) rfl
  | resumeRows =>
    simp only [step] at h
    split at h <;> cases h
    rename_i records hl
    have hws := (s.resumeJobs_fields (resumable records)).2.2.1
    exact .of_startup (by simp [hl]) (congrArg WsClient.loop hws)
  | crash => exact absurd rfl ha
  | connect =>
    simp only [step] at h
    split at h <;> cases h
    exact .of_loop rfl (.inl rfl) rfl rfl
  | authenticated =>
    simp only [step] at h
    split at h <;> cases h
    rename_i hw
    exact .of_loop rfl (.inr (.inl (by simp [WsClient.socket, hw]))) rfl rfl
  | flushSend w =>
    simp only [step] at h
    split at h <;> cases h
    rename_i hw
    exact .of_loop rfl (.inr (.inl (by simp [WsClient.socket, hw]))) rfl rfl
  | flushEnd =>
    simp only [step] at h
    split at h <;> cases h
    rename_i hw
    exact .of_loop rfl (.inr (.inl (by simp [WsClient.socket, hw]))) rfl rfl
  | synced =>
    simp only [step] at h
    split at h <;> cases h
    rename_i hw
    exact .of_loop rfl (.inr (.inl (by simp [WsClient.socket, hw]))) rfl rfl
  | disconnect =>
    simp only [step] at h
    split at h <;> cases h
    all_goals exact .of_loop rfl (.inr (.inr rfl)) rfl rfl
  | dispatch message =>
    simp only [step] at h
    split at h <;> cases h
    rename_i hw
    exact .of_loop rfl (.inr (.inl (by simp [WsClient.socket, hw]))) rfl rfl
  | cancel message =>
    simp only [step] at h
    split at h <;> cases h
    rename_i hw
    refine ⟨id, fun hno => ?_, fun _ _ _ => rfl, fun _ j => .inl (tasks_setSlot rfl)⟩
    rw [socket_eq_false, hw] at hno
    cases hno
  | handlerCall now =>
    obtain ⟨hd, c, hw, _, rfl⟩ := of_step_handlerCall h
    exact .of_handling rfl hw fun j => .inl rfl
  | handlerSend w =>
    obtain ⟨hd, e, hw, _, rfl⟩ := of_step_handlerSend h
    exact .of_handling rfl hw fun j => .inl rfl
  | handlerResume =>
    obtain ⟨hd, ans, n, hw, _, hr, rfl⟩ := of_step_handlerResume h
    cases n with
    | await a => exact .of_handling (hand_life _ _) hw fun j => .inl (by simp [resumeHandler])
    | cancelTask => exact .of_handling rfl hw fun j => .inl (tasks_setSlot (tasks_cancelTask _))
    | createTask =>
      have hsent := (HandlerAwait.flow_of_resume hr).of_createTask
      refine .of_handling rfl hw fun j => ?_
      by_cases hj : hd.jobId = j
      · exact .inr ⟨hj, hsent⟩
      · left
        show ((s.setSlot hd.jobId _).slots j).tasks.length = _
        rw [setSlot_of_ne _ _ _ _ fun he => hj he.symm]
    | ret => exact .of_handling rfl hw fun j => .inl rfl
  | taskCall j i now =>
    obtain ⟨t, c, _, _, rfl⟩ := of_step_taskCall h
    exact .of_slot rfl rfl (fun ha => by cases ha) rfl (tasks_setTask _ i _)
  | taskAnswer j i ans =>
    obtain ⟨t, _, _, _, rfl⟩ := of_step_taskAnswer h
    exact .of_slot rfl rfl (fun _ => rfl) rfl (tasks_setTask _ i _)
  | taskSend j i w =>
    obtain ⟨t, e, _, _, rfl⟩ := of_step_taskSend h
    exact .of_slot rfl (sendEnds_loop s e w) (fun _ => rfl) rfl (tasks_setTask _ i _)
  | taskPrint j i raises =>
    obtain ⟨t, p, _, _, rfl⟩ := of_step_taskPrint h
    exact .of_slot rfl rfl (fun _ => rfl) rfl (tasks_setTask _ i _)
  | taskResume j i e =>
    obtain ⟨t, ans, n, _, _, _, _, rfl⟩ := of_step_taskResume h
    cases n with
    | await a =>
      exact .of_slot (hand_life _ _) (hand_loop _ _) (fun _ => hand_store _ _)
        (hand_slots _ _) (tasks_setTask _ i _)
    | ret inTry => exact .of_slot rfl rfl (fun _ => rfl) rfl (tasks_endTask _ i inTry)
  | taskThrow j i =>
    obtain ⟨t, _, _, _, rfl⟩ := of_step_taskThrow h
    exact .of_slot rfl rfl (fun _ => rfl) rfl (tasks_endTask _ i _)
  | leftCall j n now =>
    obtain ⟨c, _, rfl⟩ := of_step_leftCall h
    exact .of_slot rfl rfl (fun ha => by cases ha) rfl rfl
  | leftPrint j n =>
    obtain ⟨p, _, rfl⟩ := of_step_leftPrint h
    exact .of_slot rfl rfl (fun _ => rfl) rfl rfl
  | leftDrop j n =>
    obtain ⟨_, rfl⟩ := of_step_leftDrop h
    exact .of_slot rfl rfl (fun _ => rfl) rfl rfl

end Agent

theorem Agent.Sound.handler_of_step {s s' : Agent} {a : Act} (hs : s.Sound)
    (h : s.step a = some s') {h' : Handler} (hw : s'.ws.loop = .handling h') :
    (∃ message, a = .dispatch message ∧ h' = ⟨message.jobId, .getExisting message, none⟩) ∨
    (∃ message, a = .cancel message ∧ h' = ⟨message.jobId, .getRecord, none⟩) ∨
    ∃ hd, s.ws.loop = .handling hd ∧ hd.jobId = h'.jobId ∧ hd.await.isCancel = h'.await.isCancel := by
  have hh : (s'.view h'.jobId).handler = some h' := handler_view.mpr ⟨hw, rfl⟩
  have hold : ∀ hd, (s.view h'.jobId).handler = some hd → hd.await.isCancel = h'.await.isCancel →
      ∃ hd, s.ws.loop = .handling hd ∧ hd.jobId = h'.jobId ∧ hd.await.isCancel = h'.await.isCancel := by
    intro hd hhd hc
    obtain ⟨hw', hj⟩ := handler_view.mp hhd
    exact ⟨hd, hw', hj, hc⟩
  rcases hs.seen_step h with ⟨hv, _⟩ | ⟨b, hseen, _, hstep⟩
  · rw [hv] at hh
    exact .inr (.inr (hold _ hh rfl))
  · have hhand := Job.handler_step hstep
    generalize (s'.view h'.jobId).handler = o at hhand hh
    have hawait : ∀ {hd : Handler}, some hd = some h' → hd.await = h'.await :=
      fun he => congrArg Handler.await (Option.some.inj he)
    cases hhand with
    | same _ he => exact .inr (.inr (hold _ (he.symm.trans hh) rfl))
    | dispatch message _ =>
      have ha := dispatch_of_seen hseen
      subst ha
      have hloop : s'.ws.loop = .handling ⟨message.jobId, .getExisting message, none⟩ := by
        simp only [step] at h
        split at h <;> cases h
        rfl
      rw [hw] at hloop
      exact .inl ⟨message, rfl, Loop.handling.inj hloop⟩
    | cancel _ =>
      obtain ⟨message, rfl⟩ := cancel_of_seen hseen
      have hloop : s'.ws.loop = .handling ⟨message.jobId, .getRecord, none⟩ := by
        simp only [step] at h
        split at h <;> cases h
        rfl
      rw [hw] at hloop
      exact .inr (.inl ⟨message, rfl, Loop.handling.inj hloop⟩)
    | called now hh' _ _ => exact .inr (.inr (hold _ hh' (congrArg _ (by rw [← hawait hh]; rfl))))
    | sent hh' _ _ => exact .inr (.inr (hold _ hh' (congrArg _ (by rw [← hawait hh]; rfl))))
    | went hh' _ hf => exact .inr (.inr (hold _ hh' (hf.isCancel.symm.trans (congrArg _ (hawait hh)))))
    | cancelling hh' ha _ _ =>
      refine .inr (.inr (hold _ hh' ?_))
      rw [ha, ← hawait hh]
      rfl
    | creating => cases hh
    | ended => cases hh
    | gone => cases hh

/-! ## what always holds of a process -/

namespace Process

structure Fits (s : Process) : Prop where
  /-- there is a socket only in the `async with` -/
  socket : s.agent.ws.socket = true → s.round = .connection
  /-- `run_forever` starts once startup recovery is over -/
  running : s.round ≠ .head → s.agent.life = .running
  returned : s.round = .returned → s.stopped = true
  closed : s.closed = true → s.round = .returned
  /-- the running handler is the one of a frame that came on this connection -/
  handler : ∀ h, s.agent.ws.loop = .handling h → h.await.isCancel = false →
    ∃ message, (s.attempts, .dispatch message) ∈ s.passed ∧ message.jobId = h.jobId
  sound : s.closed = false → s.agent.Sound
  base : s.closed = false → ∀ j, (s.agent.view j).Base
  notQueued : ∀ j, (s.agent.view j).status ≠ some .queued

variable {s s' : Process} {a : ProcessAct}

theorem Fits.offline (h : s.Fits) (hr : s.round ≠ .connection) : s.agent.ws.socket = false := by
  cases hs : s.agent.ws.socket with
  | false => rfl
  | true => exact absurd (h.socket hs) hr

theorem Fits.idle (h : s.Fits) (hr : s.round ≠ .connection) (hd : Handler) :
    s.agent.ws.loop ≠ .handling hd := by
  intro hw
  have hno := Agent.socket_eq_false.mp (h.offline hr)
  rw [hw] at hno
  cases hno

theorem Fits.isOpen (h : s.Fits) (hr : s.round ≠ .returned) : s.closed = false := by
  by_contra hc
  exact hr (h.closed (by simpa using hc))

/-- without a socket `run_forever` goes on -/
theorem Fits.move (h : s.Fits) (hoff : s.agent.ws.socket = false) (hrun : s.agent.life = .running)
    (hopen : s.closed = false) (round : Round) (hstop : round = .returned → s.stopped = true)
    (attempts : Nat) : Fits { s with round := round, attempts := attempts } where
  socket hsock := by
    have hsock : s.agent.ws.socket = true := hsock
    rw [hoff] at hsock
    cases hsock
  running _ := hrun
  returned := hstop
  closed hc := by
    have hc : s.closed = true := hc
    rw [hopen] at hc
    cases hc
  handler hd hw := by
    have hw : s.agent.ws.loop = .handling hd := hw
    rw [Agent.socket_eq_false.mp hoff] at hw
    cases hw
  sound := h.sound
  base := h.base
  notQueued := h.notQueued

theorem fits_init : Fits init where
  socket h := by cases h
  running h := absurd rfl h
  returned h := by cases h
  closed h := by cases h
  handler h hw := by cases hw
  sound _ := Agent.sound_of_down rfl rfl fun _ => rfl
  base _ _ := Job.base_init
  notQueued _ := by simp [init, Agent.init, Agent.view, Job.status]

theorem of_step_agent {b : Act} (h : s.step (.agent b) = some s') :
    s.takes b = true ∧ ∃ agent, s.agent.step b = some agent ∧ s' = { s with agent := agent } := by
  simp only [step] at h
  split at h
  · obtain ⟨agent, hb, rfl⟩ := Option.map_eq_some_iff.mp h
    exact ⟨by assumption, agent, hb, rfl⟩
  · cases h

theorem takes_connect (h : s.takes .connect = true) : s.round = .connection := by
  simpa [takes] using h

theorem takes_call {b : Act} (h : s.takes b = true) (hb : b.isTaskCall = true) : s.closed = false := by
  cases b <;> first | cases hb; done | simpa [takes, Act.isTaskCall] using h

theorem takes_crash : s.takes .crash = false := rfl

theorem Fits.of_agent (h : s.Fits) {b : Act} {agent : Agent} (hb : s.agent.step b = some agent)
    (hcrash : b ≠ .crash) (hconnect : b = .connect → s.round = .connection)
    (hcall : s.closed = true → b.isTaskCall = false)
    (passed : List (Nat × InboundHubMessage)) (hpassed : s.passed ⊆ passed)
    (hd : ∀ message, b = .dispatch message → (s.attempts, .dispatch message) ∈ passed) :
    Fits { s with agent := agent, passed := passed } where
  socket hs := by
    by_contra hne
    have hoff := h.offline hne
    have hoff' := (Agent.step_goes hb hcrash).socket hoff fun he => hne (hconnect he)
    rw [hoff'] at hs
    cases hs
  running hne := (Agent.step_goes hb hcrash).life (h.running hne)
  returned := h.returned
  closed := h.closed
  handler h' hw hc := by
    by_cases hne : s.round = .connection
    · have hopen := h.isOpen (by rw [hne]; decide)
      rcases (h.sound hopen).handler_of_step hb hw with ⟨m, hbm, rfl⟩ | ⟨m, _, rfl⟩ | ⟨hd', hw', hj, hc'⟩
      · exact ⟨m, hd m hbm, rfl⟩
      · cases hc
      · obtain ⟨m, hm, hmj⟩ := h.handler hd' hw' (hc'.trans hc)
        exact ⟨m, hpassed hm, hmj.trans hj⟩
    · have hoff := (Agent.step_goes hb hcrash).socket (h.offline hne) fun he => hne (hconnect he)
      rw [Agent.socket_eq_false] at hoff
      have hw : agent.ws.loop = .handling h' := hw
      rw [hoff] at hw
      cases hw
  sound ho := Agent.sound_step (h.sound ho) hb
  base ho j := (h.sound ho).base_step (h.base ho j) hb
  notQueued j := by
    cases hc : s.closed with
    | false => exact ((h.sound hc).base_step (h.base hc j) hb).notQueued
    | true =>
      have hne : s.round ≠ .connection := by rw [h.closed hc]; decide
      have hstore : agent.store = s.agent.store :=
        (Agent.step_goes hb hcrash).store (h.running (by rw [h.closed hc]; decide)) (h.offline hne) (hcall hc)
      show ((agent.store.row j).map (·.status)) ≠ _
      rw [hstore]
      exact h.notQueued j

theorem Fits.of_closed (h : s.Fits) (hc : s.closed = true) (jobId : String) (slot : Slot) :
    Fits { s with agent := s.agent.setSlot jobId slot } where
  socket := h.socket
  running := h.running
  returned := h.returned
  closed := h.closed
  handler := h.handler
  sound ho := by
    have ho : s.closed = false := ho
    rw [hc] at ho
    cases ho
  base ho := by
    have ho : s.closed = false := ho
    rw [hc] at ho
    cases ho
  notQueued := h.notQueued

theorem fits_step (h : s.Fits) (hs : s.step a = some s') : s'.Fits := by
  cases a with
  | agent b =>
    obtain ⟨htakes, agent, hb, rfl⟩ := of_step_agent hs
    refine h.of_agent hb (fun he => ?_) (fun he => takes_connect (he ▸ htakes)) (fun hc => ?_) s.passed
      (List.Subset.refl _) fun m he => ?_
    · rw [he, takes_crash] at htakes
      cases htakes
    · by_contra hcall
      rw [takes_call htakes (Bool.not_eq_false _ ▸ hcall)] at hc
      cases hc
    · subst he
      cases htakes
  | frame message =>
    obtain ⟨agent, hm, rfl⟩ := Option.map_eq_some_iff.mp hs
    have hsub : s.passed ⊆ s.passed ++ [(s.attempts, message)] := List.subset_append_left _ _
    rcases (Agent.receive_step hm).2 with rfl | ⟨m, rfl, hb⟩ | ⟨m, rfl, hb⟩
    · exact {
        socket := h.socket
        running := h.running
        returned := h.returned
        closed := h.closed
        handler := fun hd hw hc => by
          obtain ⟨m, hmem, hj⟩ := h.handler hd hw hc
          exact ⟨m, hsub hmem, hj⟩
        sound := h.sound
        base := h.base
        notQueued := h.notQueued }
    · refine h.of_agent hb (fun he => by cases he) (fun he => by cases he) (fun _ => rfl) _ hsub fun m' he => ?_
      cases he
      exact List.mem_append_right _ (List.mem_singleton.mpr rfl)
    · exact h.of_agent hb (fun he => by cases he) (fun he => by cases he) (fun _ => rfl) _ hsub fun m' he => by cases he
  | stop =>
    cases hs
    exact { h with returned := fun _ => rfl }
  | iterate =>
    simp only [step] at hs
    split at hs <;> cases hs
    rename_i hhead
    have hoff := h.offline (by rw [hhead.2]; decide)
    have hopen := h.isOpen (by rw [hhead.2]; decide)
    cases hstop : s.stopped with
    | true =>
      have hmove := h.move hoff hhead.1 hopen .returned (fun _ => hstop) s.attempts
      rwa [if_pos rfl, ← hstop]
    | false =>
      have hmove := h.move hoff hhead.1 hopen .connection (fun he => by cases he) (s.attempts + 1)
      rwa [if_neg Bool.false_ne_true, ← hstop]
  | refused =>
    simp only [step] at hs
    split at hs <;> cases hs
    rename_i hconn
    have hrun := h.running (by rw [hconn.1]; decide)
    exact h.move hconn.2 hrun (h.isOpen (by rw [hconn.1]; decide)) .leaving (fun he => by cases he) _
  | disconnect =>
    obtain ⟨agent, hb, rfl⟩ := Option.map_eq_some_iff.mp hs
    have hgone : s.agent.ws.socket = true ∧ agent.ws.socket = false := by
      simp only [Agent.step] at hb
      split at hb <;> cases hb <;> rename_i hw
      all_goals exact ⟨by simp [WsClient.socket, hw], rfl⟩
    have hconn := h.socket hgone.1
    have hfits := h.of_agent hb (by simp) (by simp) (fun _ => rfl) s.passed (List.Subset.refl _)
      fun m he => by cases he
    exact hfits.move hgone.2 (hfits.running (by rw [hconn]; decide)) (h.isOpen (by rw [hconn]; decide))
      .leaving (fun he => by cases he) _
  | disconnected =>
    simp only [step] at hs
    split at hs <;> cases hs
    rename_i hleaving
    refine h.move (h.offline (by rw [hleaving]; decide)) (h.running (by rw [hleaving]; decide))
      (h.isOpen (by rw [hleaving]; decide)) _ (fun he => ?_) _
    cases hstop : s.stopped with
    | true => rfl
    | false => simp [hstop] at he
  | backoffEnds =>
    simp only [step] at hs
    split at hs <;> cases hs
    rename_i hback
    exact h.move (h.offline (by rw [hback]; decide)) (h.running (by rw [hback]; decide))
      (h.isOpen (by rw [hback]; decide)) _ (fun he => by cases he) _
  | heartbeatEnds =>
    simp only [step] at hs
    split at hs <;> cases hs
    exact { h with }
  | syncEnds =>
    simp only [step] at hs
    split at hs <;> cases hs
    exact { h with }
  | close =>
    simp only [step] at hs
    split at hs <;> cases hs
    rename_i hret
    exact { h with
      closed := fun _ => hret.1
      sound := fun ho => by cases ho
      base := fun ho => by cases ho }
  | callRaises jobId i =>
    obtain ⟨t, _, hs⟩ := Option.bind_eq_some_iff.mp hs
    split at hs <;> cases hs
    rename_i hc
    exact h.of_closed (Bool.and_eq_true_iff.mp hc).1 jobId _
  | cancelLeft jobId i =>
    obtain ⟨t, _, hs⟩ := Option.bind_eq_some_iff.mp hs
    split at hs <;> cases hs
    exact h.of_closed (by assumption) jobId _
  | crash =>
    cases hs
    have hbase : ∀ j, (s.agent.crash.view j).Base := fun j =>
      Job.base_of_down rfl rfl rfl rfl (h.notQueued j)
    exact {
      socket := fun hsock => by cases hsock
      running := fun hne => absurd rfl hne
      returned := fun he => by cases he
      closed := fun hc => by cases hc
      handler := fun hd hw => by cases hw
      sound := fun _ => Agent.sound_of_down rfl rfl fun _ => rfl
      base := fun _ => hbase
      notQueued := fun j => (hbase j).notQueued }

end Process

theorem fits_of_reach {s : Process} (h : process.Reach Machine.Any s) : s.Fits :=
  h.invariant (I := Process.Fits) Process.fits_init fun _ _ _ _ hs _ hstep => Process.fits_step hs hstep

end PrintAgent
