import PrintAgent.Net.Connection

/-!
# What one step of the connection does

`Client.Step` has one constructor for each way a step can go; `Client.step_cases` is the inversion of
`Client.step`.  Properties of runs are proved by cases on `Client.Step`.
-/

namespace PrintAgent

open PyJson (Str Value Source Limits)

/-- the connection that `run_forever` uses where it stands -/
def Phase.conn : Phase → Option Nat
  | .authSending conn | .authWaiting conn | .flushing conn _ _ | .flushSending conn _ _
  | .discovering conn | .syncSending conn _ | .receiving conn | .handling conn _ => some conn
  | .head | .connecting | .leaving _ | .backoff | .returned | .raised _ => none

namespace Client

section Fields
variable (s : Client) (call : SendCall) (flush : Bool)

/-- where the flush goes on after the send of one message -/
def flushGoesOn (flush : Bool) : Phase → Phase
  | .flushSending conn intervalMs pending =>
    if flush then .flushing conn intervalMs pending else .flushSending conn intervalMs pending
  | phase => phase

theorem sendReturns_eq : s.sendReturns call flush =
    { s with
      phase := flushGoesOn flush s.phase
      returned := s.returned ++ if flush then [] else [call] } := by
  unfold sendReturns flushGoesOn
  cases flush <;> cases s <;> rename_i phase _ _ _ _ _ _ _ _ _ _ <;> cases phase <;> simp [setPhase]

theorem flushGoesOn_false (phase : Phase) : flushGoesOn false phase = phase := by
  cases phase <;> rfl

variable {s} in
theorem beginSend_over {conn : Nat} (hs : s.socket = some conn) (phase : Phase) :
    (s.setPhase phase).beginSend call flush =
      { s with phase := phase, sending := s.sending ++ [⟨call, conn, flush⟩] } := by
  rw [setPhase, beginSend, hs]

variable {s} in
theorem send_over {conn : Nat} (hs : s.socket = some conn) (message : OutboundAgentMessage)
    (durable : Bool) :
    s.send message durable = { s with
      calls := s.calls ++ [⟨s.calls.length, message, durable⟩]
      sending := s.sending ++ [⟨⟨s.calls.length, message, durable⟩, conn, false⟩] } := by
  simp only [send, beginSend, hs]

variable {s} in
theorem send_nowhere (hs : s.socket = none) (message : OutboundAgentMessage) (durable : Bool) :
    s.send message durable = { s with
      calls := s.calls ++ [⟨s.calls.length, message, durable⟩]
      returned := s.returned ++ [⟨s.calls.length, message, durable⟩]
      durableQueue :=
        s.durableQueue ++ if durable then [⟨s.calls.length, message, durable⟩] else [] } := by
  cases durable <;> simp [send, beginSend, hs, keep, sendReturns]

theorem send_phase (message : OutboundAgentMessage) (durable : Bool) :
    (s.send message durable).phase = s.phase ∧ (s.send message durable).stopped = s.stopped := by
  cases hs : s.socket with
  | none =>
    rw [send_nowhere hs]
    exact ⟨rfl, rfl⟩
  | some conn =>
    rw [send_over hs]
    exact ⟨rfl, rfl⟩

variable {s} in
theorem sendEnds_open {x : Sending} (ho : s.isOpen x.conn = true) :
    s.sendEnds x = { s with
      phase := flushGoesOn x.flush s.phase
      log := s.log ++ [.frame x.conn x.call]
      returned := s.returned ++ if x.flush then [] else [x.call] } := by
  rw [sendEnds, if_pos ho, sendReturns_eq]
  rfl

variable {s} in
theorem sendEnds_closed {x : Sending} (hc : s.isOpen x.conn = false) :
    s.sendEnds x = { s with
      phase := flushGoesOn x.flush s.phase
      durableQueue := s.durableQueue ++ if x.call.durable then [x.call] else []
      returned := s.returned ++ if x.flush then [] else [x.call] } := by
  rw [sendEnds, if_neg (by simp [hc]), sendReturns_eq]
  cases hd : x.call.durable <;> simp [keep, hd]

end Fields

variable {limits : Limits} {validate : InboundModel → Value → Except Exc (InboundHubMessage Str)}

/-- the reply is `agent.authenticated` -/
def accepts (limits : Limits) (validate : InboundModel → Value → Except Exc (InboundHubMessage Str))
    (raw : Source) : Bool :=
  match decode limits validate raw with
  | .ok (some (.authenticated _)) => true
  | _ => false

/-- one constructor for each way a step can go -/
inductive Step (limits : Limits) (validate : InboundModel → Value → Except Exc (InboundHubMessage Str)) :
    Client → ClientAct → Client → Prop
  | iterate {s : Client} (hp : s.phase = .head) :
      Step limits validate s .iterate (s.setPhase (if s.stopped then .returned else .connecting))
  | connect {s : Client} (hp : s.phase = .connecting) :
      Step limits validate s (.connect none)
        { s with
          phase := .authSending s.connections
          socket := some s.connections
          connections := s.connections + 1 }
  | connectRaises {s : Client} (e : Exc) (hp : s.phase = .connecting) :
      Step limits validate s (.connect (some e)) (s.setPhase (.leaving (some e)))
  | authSent {s : Client} {conn : Nat} (hp : s.phase = .authSending conn)
      (ho : s.isOpen conn = true) :
      Step limits validate s .authSent ((s.write (.authenticate conn)).setPhase (.authWaiting conn))
  | authSendRaises {s : Client} {conn : Nat} (hp : s.phase = .authSending conn) :
      Step limits validate s .authSent
        ((s.write (.refused conn)).leave conn (some .connectionClosed))
  | replyRaises {s : Client} {conn : Nat} {raw : Source} {e : Exc} (hp : s.phase = .authWaiting conn)
      (hd : decode limits validate raw = .error e) :
      Step limits validate s (.reply raw) ((s.write (.refused conn)).leave conn (some e))
  | authenticated {s : Client} {conn : Nat} {raw : Source} {intervalMs : Int}
      (hp : s.phase = .authWaiting conn)
      (hd : decode limits validate raw = .ok (some (.authenticated intervalMs))) :
      Step limits validate s (.reply raw)
        { s.write (.authenticated conn) with
          phase := .flushing conn intervalMs s.durableQueue
          connected := true
          durableQueue := [] }
  | rejected {s : Client} {conn : Nat} {raw : Source} (hp : s.phase = .authWaiting conn)
      (hd : accepts limits validate raw = false) :
      Step limits validate s (.reply raw)
        { (s.write (.refused conn)).leave conn (some .connectionClosed) with socket := none }
  | noReply {s : Client} {conn : Nat} (timedOut : Bool) (hp : s.phase = .authWaiting conn) :
      Step limits validate s (.noReply timedOut)
        ((s.write (.refused conn)).leave conn
          (some (if timedOut then .timeoutError else .connectionClosed)))
  | flushNext {s : Client} {conn : Nat} {intervalMs : Int} {call : SendCall}
      {pending : List SendCall} (hp : s.phase = .flushing conn intervalMs (call :: pending)) :
      Step limits validate s .flushNext
        ((s.setPhase (.flushSending conn intervalMs pending)).beginSend call true)
  | intervalOverflows {s : Client} {conn : Nat} {intervalMs : Int} (statusRaises : Option Exc)
      (hp : s.phase = .flushing conn intervalMs []) (ho : overflowsFloat intervalMs = true) :
      Step limits validate s (.flushed statusRaises) (s.leave conn (some .overflowError))
  | statusRaises {s : Client} {conn : Nat} {intervalMs : Int} (e : Exc)
      (hp : s.phase = .flushing conn intervalMs []) :
      Step limits validate s (.flushed (some e)) (s.leave conn (some e))
  | flushed {s : Client} {conn : Nat} {intervalMs : Int}
      (hp : s.phase = .flushing conn intervalMs []) :
      Step limits validate s (.flushed none) (s.setPhase (.discovering conn))
  | discoveryFails {s : Client} {conn : Nat} (hp : s.phase = .discovering conn) :
      Step limits validate s (.discovered none) (s.setPhase (.receiving conn))
  | discovered {s : Client} {conn : Nat} (printers : List DiscoveredPrinter)
      (hp : s.phase = .discovering conn) :
      Step limits validate s (.discovered (some printers))
        ((s.setPhase (.syncSending conn s.calls.length)).send (buildSyncMessage printers) false)
  | synced {s : Client} {conn number : Nat} (hp : s.phase = .syncSending conn number)
      (hr : (s.returned.any (·.number = number)) = true) :
      Step limits validate s .synced (s.setPhase (.receiving conn))
  | receiveRaises {s : Client} {conn : Nat} {raw : Source} {e : Exc} (hp : s.phase = .receiving conn)
      (hd : decode limits validate raw = .error e) :
      Step limits validate s (.receive raw) (s.leave conn (some e))
  | receiveDrops {s : Client} {conn : Nat} {raw : Source} (hp : s.phase = .receiving conn) :
      Step limits validate s (.receive raw) s
  | receive {s : Client} {conn : Nat} {raw : Source} {message : InboundHubMessage Str}
      (hp : s.phase = .receiving conn) (hd : decode limits validate raw = .ok (some message)) :
      Step limits validate s (.receive raw) (s.setPhase (.handling conn message))
  | handled {s : Client} {conn : Nat} {message : InboundHubMessage Str}
      (hp : s.phase = .handling conn message) :
      Step limits validate s (.handled none) (s.setPhase (.receiving conn))
  | handlerRaises {s : Client} {conn : Nat} {message : InboundHubMessage Str} {e : Exc}
      (hp : s.phase = .handling conn message) (hc : message.canRaise e = true) :
      Step limits validate s (.handled (some e)) (s.leave conn (some e))
  | ends {s : Client} {conn : Nat} (cleanly : Bool) (hp : s.phase = .receiving conn) :
      Step limits validate s (.ends cleanly)
        (s.leave conn (if cleanly then none else some .connectionClosed))
  | disconnected {s : Client} {exc : Option Exc} (statusRaises : Option Exc)
      (hp : s.phase = .leaving exc) :
      Step limits validate s (.disconnected statusRaises) (s.disconnected exc statusRaises)
  | backoffEnds {s : Client} (hp : s.phase = .backoff) :
      Step limits validate s .backoffEnds (s.setPhase .head)
  | send {s : Client} (message : OutboundAgentMessage) (durable : Bool) :
      Step limits validate s (.send message durable) (s.send message durable)
  | stop {s : Client} : Step limits validate s .stop { s with stopped := true }
  | sendEnds {s : Client} {i : Nat} {x : Sending} (hi : s.sending[i]? = some x) :
      Step limits validate s (.sendEnds i) ({ s with sending := s.sending.eraseIdx i }.sendEnds x)
  | drop {s : Client} {conn : Nat} (hc : conn < s.connections) :
      Step limits validate s (.drop conn) { s with closed := conn :: s.closed }

/-- **A step goes one of these ways.** -/
theorem step_cases {s s' : Client} {a : ClientAct} (h : s.step limits validate a = some s') :
    Step limits validate s a s' := by
  cases a with
  | iterate =>
    simp only [step] at h
    split at h
    · rename_i hp
      cases h
      exact .iterate hp
    · cases h
  | connect raises =>
    simp only [step] at h
    split at h
    · rename_i hp
      split at h <;> cases h
      · exact .connectRaises _ hp
      · exact .connect hp
    · cases h
  | authSent =>
    simp only [step] at h
    split at h
    · rename_i conn hp
      split at h <;> cases h
      · rename_i ho
        exact .authSent hp ho
      · exact .authSendRaises hp
    · cases h
  | reply raw =>
    simp only [step] at h
    split at h
    · rename_i conn hp
      split at h <;> cases h
      · rename_i hd
        exact .replyRaises hp hd
      · rename_i hd
        exact .authenticated hp hd
      · rename_i hother hd
        refine .rejected hp ?_
        rw [accepts, hd]
        split
        · rename_i heq
          cases heq
          exact absurd rfl (hother _)
        · rfl
    · cases h
  | noReply timedOut =>
    simp only [step] at h
    split at h <;> cases h
    exact .noReply timedOut ‹_›
  | flushNext =>
    simp only [step] at h
    split at h <;> cases h
    exact .flushNext ‹_›
  | flushed statusRaises =>
    simp only [step] at h
    split at h
    · rename_i conn intervalMs hp
      split at h
      · rename_i ho
        cases h
        exact .intervalOverflows statusRaises hp ho
      · split at h <;> cases h
        · exact .statusRaises _ hp
        · exact .flushed hp
    · cases h
  | discovered printers =>
    simp only [step] at h
    split at h
    · rename_i conn hp
      split at h <;> cases h
      · exact .discoveryFails hp
      · exact .discovered _ hp
    · cases h
  | synced =>
    simp only [step] at h
    split at h
    · rename_i conn number hp
      split at h <;> cases h
      exact .synced hp ‹_›
    · cases h
  | receive raw =>
    simp only [step] at h
    split at h
    · rename_i conn hp
      split at h <;> cases h
      · exact .receiveRaises hp ‹_›
      · exact .receiveDrops hp
      · exact .receive hp ‹_›
    · cases h
  | handled raises =>
    simp only [step] at h
    split at h
    · rename_i conn message hp
      split at h
      · cases h
        exact .handled hp
      · split at h <;> cases h
        exact .handlerRaises hp ‹_›
    · cases h
  | ends cleanly =>
    simp only [step] at h
    split at h <;> cases h
    exact .ends cleanly ‹_›
  | disconnected statusRaises =>
    simp only [step] at h
    split at h <;> cases h
    exact .disconnected statusRaises ‹_›
  | backoffEnds =>
    simp only [step] at h
    split at h <;> cases h
    exact .backoffEnds ‹_›
  | send message durable => cases h; exact .send message durable
  | stop => cases h; exact .stop
  | sendEnds i =>
    simp only [step] at h
    split at h <;> cases h
    exact .sendEnds ‹_›
  | drop conn =>
    simp only [step] at h
    split at h
    · rename_i hc
      cases h
      rw [Bool.and_eq_true, decide_eq_true_eq] at hc
      exact .drop hc.1
    · cases h

end Client

end PrintAgent
