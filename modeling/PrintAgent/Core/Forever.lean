import PrintAgent.Net.ClientStep

/-!
# The loops that are to run until `stop`

`run_forever` beside `_heartbeat_loop` of `core/agent.py`.  `Agent.stop` sets the events of both loops
without an await in between, so they have one flag.

The exceptions that end a loop are the ones nobody catches: what `websockets.connect` raises besides
`OSError` and `TimeoutError`, what `decode` and the handler of a frame raise, an interval that does not
fit a float, and the status file's `OSError` in the `finally` and in the heartbeat loop.  `survives` is the
condition that none of them comes up; under it `loops_go_on`.  `loops_die` is a handshake answered with
an HTTP error, and a status file that cannot be written after a heartbeat.
-/

namespace PrintAgent

open PyJson (Str Value Source Limits)

/-- where `_heartbeat_loop` stands -/
inductive Heartbeat where
  /-- waits for the interval to pass, or for `stop` -/
  | waiting
  /-- in `_usage_if_due` -/
  | sampling
  /-- in `send` -/
  | sending (number : Nat)
  | returned
  | raised (exc : Exc)
  deriving DecidableEq, Repr

structure Loops where
  client : Client
  heartbeat : Heartbeat

inductive LoopsAct where
  | client (a : ClientAct)
  | wake
  /-- `_usage_if_due` returns, without usage if the sample raises -/
  | sampled (raises : Bool)
  | beaten (statusRaises : Option Exc)

namespace Loops

def init : Loops := ⟨.init, .waiting⟩

section
variable (limits : Limits) (validate : InboundModel → Value → Except Exc (InboundHubMessage Str))

def step (s : Loops) : LoopsAct → Option Loops
  | .client a => (s.client.step limits validate a).map fun client => { s with client := client }
  | .wake =>
    if s.heartbeat = .waiting then
      some { s with
        heartbeat :=
          if s.client.stopped then .returned else if s.client.connected then .sampling else .waiting }
    else none
  | .sampled _ =>
    if s.heartbeat = .sampling then
      some ⟨s.client.send .heartbeat false, .sending s.client.calls.length⟩
    else none
  | .beaten statusRaises =>
    match s.heartbeat with
    | .sending number =>
      if s.client.returned.any (·.number = number) then
        some { s with
          heartbeat :=
            match statusRaises with
            | none => .waiting
            | some e => .raised e }
      else none
    | _ => none

end

end Loops

def loops (limits : Limits) (validate : InboundModel → Value → Except Exc (InboundHubMessage Str)) :
    Machine Loops LoopsAct := ⟨Loops.init, Loops.step limits validate⟩

/-! ## the condition -/

namespace Client

/-- nothing comes up in `run_forever` that it does not catch -/
def survives (limits : Limits) (s : Client) : ClientAct → Bool
  | .connect raises => raises.all Exc.isCaught
  | .reply raw | .receive raw => isReadable limits raw
  | .flushed statusRaises =>
    statusRaises.all Exc.isCaught &&
      match s.phase with
      | .flushing _ intervalMs _ => !overflowsFloat intervalMs
      | _ => true
  | .handled _ =>
    match s.phase with
    | .handling _ message => message.isStorable
    | _ => true
  | .disconnected statusRaises => statusRaises.isNone
  | _ => true

/-- where `run_forever` goes on to from a connection that has ended, up to the next attempt -/
def onward : Phase → Option Phase
  | .leaving _ => some .backoff
  | .backoff => some .head
  | .head => some .connecting
  | _ => none

/-- `run_forever` has not ended but by `stop`, and is not about to -/
structure Lives (s : Client) : Prop where
  raised : ∀ e, s.phase ≠ .raised e
  leaving : ∀ e, s.phase = .leaving (some e) → e.isCaught = true
  returned : s.phase = .returned → s.stopped = true

variable {limits : Limits} {validate : InboundModel → Value → Except Exc (InboundHubMessage Str)}
  {s s' : Client} {a : ClientAct}

def inLoop : Phase → Bool
  | .leaving _ | .returned | .raised _ => false
  | _ => true

theorem Lives.of_inLoop (h : inLoop s.phase = true) : Lives s := by
  refine ⟨fun e he => ?_, fun e he => ?_, fun he => ?_⟩ <;> rw [he] at h <;> cases h

theorem Lives.of_leaving {exc : Option Exc} (hp : s.phase = .leaving exc)
    (h : ∀ e, exc = some e → e.isCaught = true) : Lives s := by
  refine ⟨fun e he => ?_, fun e he => ?_, fun he => ?_⟩ <;> rw [hp] at he <;> cases he
  exact h e rfl

theorem Lives.same (h : Lives s) (hp : s'.phase = s.phase) (hs : s.stopped = true → s'.stopped = true) :
    Lives s' := by
  refine ⟨?_, ?_, ?_⟩ <;> rw [hp]
  · exact h.raised
  · exact h.leaving
  · exact fun hr => hs (h.returned hr)

theorem beginSend_phase (s : Client) (call : SendCall) (flush : Bool) :
    ((s.beginSend call flush).phase = s.phase ∨
      (s.beginSend call flush).phase = flushGoesOn flush s.phase) ∧
    (s.beginSend call flush).stopped = s.stopped := by
  cases hs : s.socket with
  | none =>
    rw [beginSend, hs]
    show (((s.keep call).sendReturns call flush).phase = _ ∨ _) ∧ _
    rw [sendReturns_eq]
    cases hd : call.durable <;> simp [keep, hd]
  | some conn =>
    rw [beginSend, hs]
    exact ⟨.inl rfl, rfl⟩

theorem sendEnds_phase (s : Client) (x : Sending) :
    (s.sendEnds x).phase = flushGoesOn x.flush s.phase ∧ (s.sendEnds x).stopped = s.stopped := by
  cases ho : s.isOpen x.conn with
  | true => rw [sendEnds_open ho]; exact ⟨rfl, rfl⟩
  | false => rw [sendEnds_closed ho]; exact ⟨rfl, rfl⟩

theorem flushGoesOn_or (flush : Bool) (phase : Phase) :
    flushGoesOn flush phase = phase ∨
      inLoop phase = true ∧ inLoop (flushGoesOn flush phase) = true ∧ onward phase = none := by
  cases phase with
  | flushSending conn intervalMs pending =>
    cases flush with
    | false => exact .inl rfl
    | true => exact .inr ⟨rfl, rfl, rfl⟩
  | _ => exact .inl rfl

theorem not_canRaise {message : InboundHubMessage Str} (h : message.isStorable = true) (e : Exc) :
    message.canRaise e ≠ true := by
  obtain ⟨htexts, hfits⟩ := Bool.and_eq_true_iff.mp h
  cases e <;> simp [InboundHubMessage.canRaise, htexts, hfits]

theorem not_error_of_isReadable {raw : Source} {e : Exc} (h : isReadable limits raw = true) :
    decode limits validate raw ≠ .error e := by
  obtain ⟨r, hr⟩ := exists_decode_eq_ok.mpr h
  rw [hr]
  exact fun hno => by cases hno

theorem Lives.disconnected_phase (limits : Limits) (h : Lives s) {exc statusRaises : Option Exc}
    (hp : s.phase = .leaving exc) (hok : s.survives limits (.disconnected statusRaises) = true) :
    (s.disconnected exc statusRaises).phase = if s.stopped then .returned else .backoff := by
  have hnone : statusRaises = none := by simpa [survives] using hok
  have hcaught : exc.filter (fun e => !e.isCaught) = none := by
    cases exc with
    | none => rfl
    | some e => simp [Option.filter, h.leaving e hp]
  simp only [Client.disconnected, hnone, hcaught]
  rfl

theorem Lives.step (h : Lives s) (hok : s.survives limits a = true)
    (hstep : Step limits validate s a s') : Lives s' := by
  cases hstep with
  | iterate hp =>
    cases hs : s.stopped with
    | true =>
      refine ⟨fun e he => (by cases he), fun e he => (by cases he), fun _ => hs⟩
    | false => exact .of_inLoop rfl
  | connectRaises e hp =>
    refine .of_leaving rfl fun e' he => ?_
    cases he
    simpa [survives] using hok
  | replyRaises hp hd => exact absurd hd (not_error_of_isReadable hok)
  | receiveRaises hp hd => exact absurd hd (not_error_of_isReadable hok)
  | noReply timedOut hp =>
    refine .of_leaving rfl fun e he => ?_
    cases timedOut <;> cases he <;> rfl
  | authSendRaises hp | rejected hp hd =>
    refine .of_leaving rfl fun e he => ?_
    cases he
    rfl
  | intervalOverflows statusRaises hp ho =>
    rw [survives, hp] at hok
    simp [ho] at hok
  | statusRaises e hp =>
    refine .of_leaving rfl fun e' he => ?_
    cases he
    rw [survives, Bool.and_eq_true] at hok
    exact hok.1
  | handlerRaises hp hc =>
    simp only [survives, hp] at hok
    exact absurd hc (not_canRaise hok _)
  | ends cleanly hp =>
    refine .of_leaving rfl fun e he => ?_
    cases cleanly with
    | true => cases he
    | false => cases he; rfl
  | disconnected statusRaises hp =>
    rename_i exc
    have hphase := h.disconnected_phase limits hp hok
    cases hs : s.stopped with
    | true =>
      rw [hs, if_pos rfl] at hphase
      refine ⟨fun e he => ?_, fun e he => ?_, fun _ => hs⟩ <;> rw [hphase] at he <;> cases he
    | false =>
      rw [hs, if_neg Bool.false_ne_true] at hphase
      exact .of_inLoop (by rw [hphase]; rfl)
  | receiveDrops hp => exact h
  | discovered printers hp =>
    exact .of_inLoop (by rw [(send_phase _ _ _).1]; rfl)
  | flushNext hp =>
    rename_i conn intervalMs call pending
    have hphase := (beginSend_phase (s.setPhase (.flushSending conn intervalMs pending)) call true).1
    exact .of_inLoop (by rcases hphase with he | he <;> rw [he] <;> rfl)
  | send message durable =>
    exact h.same (send_phase s message durable).1 fun hs => (send_phase s message durable).2.trans hs
  | stop => exact h.same rfl fun _ => rfl
  | sendEnds hi =>
    rename_i i x
    obtain ⟨hp, hs⟩ := sendEnds_phase { s with sending := s.sending.eraseIdx i } x
    rcases flushGoesOn_or x.flush s.phase with hf | ⟨-, hf, -⟩
    · exact h.same (hp.trans hf) fun hst => hs.trans hst
    · exact .of_inLoop (by rw [hp]; exact hf)
  | drop hc => exact h.same rfl id
  | connect hp | authSent hp ho | authenticated hp hd | flushed hp | discoveryFails hp
  | synced hp hr | receive hp hd | handled hp | backoffEnds hp => exact .of_inLoop rfl

/-- where the loop stands after a step: it goes onward, or does not move -/
theorem onward_of_step {p : Phase} (hp : onward s.phase = some p) (hlives : Lives s)
    (hok : s.survives limits a = true) (hs : s.stopped = false)
    (hstep : Step limits validate s a s') : s'.phase = s.phase ∨ s'.phase = p := by
  cases hstep with
  | iterate hhead =>
    rw [hhead] at hp
    cases hp
    right
    simp [setPhase, hs]
  | disconnected statusRaises hleave =>
    rename_i exc
    rw [hleave] at hp
    cases hp
    right
    rw [hlives.disconnected_phase limits hleave hok, hs]
    rfl
  | backoffEnds hback =>
    rw [hback] at hp
    cases hp
    exact .inr rfl
  | send message durable => exact .inl (send_phase s message durable).1
  | stop | drop _ | receiveDrops _ => exact .inl rfl
  | sendEnds hi =>
    rename_i i x
    left
    rw [(sendEnds_phase _ x).1]
    rcases flushGoesOn_or x.flush s.phase with hf | ⟨-, -, hf⟩
    · exact hf
    · rw [hf] at hp
      cases hp
  | connect h | connectRaises _ h | authSent h _ | authSendRaises h | replyRaises h _
  | authenticated h _ | rejected h _ | noReply _ h | flushNext h | intervalOverflows _ h _
  | statusRaises _ h | flushed h | discoveryFails h | discovered _ h | synced h _
  | receiveRaises h _ | receive h _ | handled h | handlerRaises h _ | ends _ h =>
    rw [h] at hp
    cases hp

theorem exists_onward (limits : Limits)
    (validate : InboundModel → Value → Except Exc (InboundHubMessage Str)) {p : Phase}
    (hp : onward s.phase = some p) (hlives : Lives s)
    (hs : s.stopped = false) :
    ∃ a s', s.survives limits a = true ∧ s.step limits validate a = some s' ∧ s'.phase = p := by
  cases h : s.phase with
  | leaving exc =>
    rw [h] at hp
    cases hp
    refine ⟨.disconnected none, s.disconnected exc none, rfl, ?_, ?_⟩
    · simp only [Client.step, h]
    · rw [hlives.disconnected_phase limits h rfl, hs]
      rfl
  | backoff =>
    rw [h] at hp
    cases hp
    exact ⟨.backoffEnds, s.setPhase .head, rfl, by simp only [Client.step, h, if_true], rfl⟩
  | head =>
    rw [h] at hp
    cases hp
    refine ⟨.iterate, s.setPhase .connecting, rfl, ?_, rfl⟩
    simp only [Client.step, h, hs, if_true, Bool.false_eq_true, if_false]
  | _ =>
    rw [h] at hp
    cases hp

theorem stopped_of_step (hs : s.stopped = true) (hstep : Step limits validate s a s') :
    s'.stopped = true := by
  cases hstep with
  | sendEnds hi => exact (sendEnds_phase _ _).2.trans hs
  | send message durable => exact (send_phase _ _ _).2.trans hs
  | discovered printers hp => exact (send_phase _ _ _).2.trans hs
  | flushNext hp => exact (beginSend_phase _ _ _).2.trans hs
  | stop => rfl
  | _ => exact hs

end Client

namespace Loops
variable (limits : Limits) (validate : InboundModel → Value → Except Exc (InboundHubMessage Str))

/-- nothing comes up in the two loops that they do not catch -/
def survives (s : Loops) : LoopsAct → Bool
  | .client a => s.client.survives limits a
  | .beaten statusRaises => statusRaises.isNone
  | .wake | .sampled _ => true

/-- neither loop has ended but by `stop` -/
structure Lives (s : Loops) : Prop where
  client : s.client.Lives
  heartbeat : ∀ e, s.heartbeat ≠ .raised e
  returned : s.heartbeat = .returned → s.client.stopped = true

variable {limits validate} {s s' : Loops} {a : LoopsAct}

theorem Lives.step (h : Lives s) (hok : s.survives limits a = true)
    (hstep : s.step limits validate a = some s') : Lives s' := by
  cases a with
  | client b =>
    simp only [Loops.step, Option.map_eq_some_iff] at hstep
    obtain ⟨client, hc, rfl⟩ := hstep
    have hc := Client.step_cases hc
    exact ⟨h.client.step hok hc, h.heartbeat, fun hr => Client.stopped_of_step (h.returned hr) hc⟩
  | wake =>
    simp only [Loops.step] at hstep
    split at hstep <;> cases hstep
    refine ⟨h.client, ?_, ?_⟩
    · intro e he
      cases hs : s.client.stopped <;> cases hc : s.client.connected <;> simp [hs, hc] at he
    · intro hr
      cases hs : s.client.stopped with
      | true => rfl
      | false => cases hc : s.client.connected <;> simp [hs, hc] at hr
  | sampled raises =>
    simp only [Loops.step] at hstep
    split at hstep <;> cases hstep
    refine ⟨?_, fun e he => (by cases he), fun hr => (by cases hr)⟩
    obtain ⟨hp, hs⟩ := Client.send_phase s.client .heartbeat false
    exact h.client.same hp fun hst => hs.trans hst
  | beaten statusRaises =>
    have hnone : statusRaises = none := by simpa [survives] using hok
    simp only [Loops.step, hnone] at hstep
    split at hstep
    · split at hstep <;> cases hstep
      exact ⟨h.client, fun e he => (by cases he), fun hr => (by cases hr)⟩
    · cases hstep

variable (limits validate)

/-- **Only `stop` ends the two loops.**  None of them raises, none returns before `stop`, and from a
connection that has ended `run_forever` goes on, in steps of its own and in no other way, to the next
attempt. -/
theorem loops_go_on (h : (loops limits validate).Reach (fun s a => s.survives limits a = true) s) :
    (∀ e, s.client.phase ≠ .raised e) ∧ (∀ e, s.heartbeat ≠ .raised e) ∧
    (s.client.phase = .returned ∨ s.heartbeat = .returned → s.client.stopped = true) ∧
    ∀ p, Client.onward s.client.phase = some p → s.client.stopped = false →
      (∃ a s', s.survives limits a = true ∧ (loops limits validate).step s a = some s' ∧
        s'.client.phase = p) ∧
      ∀ a s', s.survives limits a = true → (loops limits validate).step s a = some s' →
        s'.client.phase = s.client.phase ∨ s'.client.phase = p := by
  have hlives : Lives s :=
    h.invariant (I := Lives)
      ⟨.of_inLoop rfl, fun e he => (by cases he), fun hr => (by cases hr)⟩
      fun _ _ _ _ hs ok hstep => hs.step ok hstep
  refine ⟨hlives.client.raised, hlives.heartbeat, ?_, fun p hp hs => ⟨?_, ?_⟩⟩
  · rintro (hr | hr)
    · exact hlives.client.returned hr
    · exact hlives.returned hr
  · obtain ⟨a, t, hok, hstep, hphase⟩ :=
      Client.exists_onward limits validate hp hlives.client hs
    refine ⟨.client a, ⟨t, s.heartbeat⟩, hok, ?_, hphase⟩
    show (s.client.step limits validate a).map _ = _
    rw [hstep]
    rfl
  · intro a s' hok hstep
    cases a with
    | client b =>
      simp only [loops, Loops.step, Option.map_eq_some_iff] at hstep
      obtain ⟨t, hc, rfl⟩ := hstep
      exact Client.onward_of_step hp hlives.client hok hs (Client.step_cases hc)
    | wake =>
      simp only [loops, Loops.step] at hstep
      split at hstep <;> cases hstep
      exact .inl rfl
    | sampled raises =>
      simp only [loops, Loops.step] at hstep
      split at hstep <;> cases hstep
      exact .inl (Client.send_phase _ _ _).1
    | beaten statusRaises =>
      simp only [loops, Loops.step] at hstep
      split at hstep
      · split at hstep <;> cases hstep
        exact .inl rfl
      · cases hstep

/-- no network at first, then a connection with one heartbeat, which breaks -/
def reconnects : List LoopsAct :=
  [.client .iterate, .client (.connect (some .osError)), .client (.disconnected none),
    .client .backoffEnds] ++ Client.Schedule.connect.map .client ++
  [.client (.flushed (some .osError)), .client (.disconnected none), .client .backoffEnds] ++
  Client.Schedule.connect.map .client ++
  [.client (.flushed none), .client (.discovered none), .wake, .sampled false, .client (.sendEnds 0),
    .beaten none, .client (.ends false), .client (.disconnected none)]

theorem reconnects_isSome :
    ((loops Client.Schedule.limits Client.Schedule.validate).run init reconnects).isSome = true := by
  decide +kernel

theorem loops_go_on_reconnecting :
    let s := (loops Client.Schedule.limits Client.Schedule.validate).after reconnects reconnects_isSome
    (∀ e, s.client.phase ≠ .raised e) ∧ ∀ e, s.heartbeat ≠ .raised e :=
  have h := loops_go_on Client.Schedule.limits Client.Schedule.validate
    (.of_obeys reconnects reconnects_isSome (by decide +kernel))
  ⟨h.1, h.2.1⟩

def badGateway : List LoopsAct :=
  [.client .iterate, .client (.connect (some .invalidHandshake)), .client (.disconnected none)]

/-- the disk is full when the heartbeat loop writes the status file -/
def diskFull : List LoopsAct :=
  Client.Schedule.connect.map .client ++ [.wake, .sampled false, .client (.sendEnds 0), .beaten (some .osError)]

theorem loops_die :
    (¬ ∀ s, (loops Client.Schedule.limits Client.Schedule.validate).Reach Machine.Any s →
      ∀ e, s.client.phase ≠ .raised e) ∧
    ¬ ∀ s, (loops Client.Schedule.limits Client.Schedule.validate).Reach Machine.Any s →
      ∀ e, s.heartbeat ≠ .raised e := by
  constructor
  · intro h
    have hrun : ((loops Client.Schedule.limits Client.Schedule.validate).run init badGateway).isSome
        = true := by decide +kernel
    have hraised := Machine.any_after (p := fun s => s.client.phase = .raised .invalidHandshake) hrun
      (by decide +kernel)
    exact h _ (.after badGateway hrun) _ (of_decide_eq_true hraised)
  · intro h
    have hrun : ((loops Client.Schedule.limits Client.Schedule.validate).run init diskFull).isSome
        = true := by decide +kernel
    have hraised := Machine.any_after (p := fun s => s.heartbeat = .raised .osError) hrun
      (by decide +kernel)
    exact h _ (.after diskFull hrun) _ (of_decide_eq_true hraised)

end Loops

end PrintAgent
