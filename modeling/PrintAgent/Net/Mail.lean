import PrintAgent.Net.ClientStep

/-!
# The messages of the connection

`Mail` is the connection as the messages see it: what `send` was called with, where each message is
now, and the socket.  `Mail.Step` says how the messages move, and `client_shows_mail` that each step of
the connection is such a step, or leaves the messages alone.
-/

namespace PrintAgent

open PyJson (Str Value Source Limits)

structure Mail where
  calls : List SendCall
  returned : List SendCall
  /-- the frames that were written, each with its connection -/
  frames : List (Nat × SendCall)
  durableQueue : List SendCall
  /-- what a running flush has not yet attempted -/
  pending : List SendCall
  sending : List Sending
  socket : Option Nat
  /-- how many connections were made -/
  connections : Nat
  closed : List Nat

inductive MailAct where
  | send (message : OutboundAgentMessage) (durable : Bool)
  | sendEnds (i : Nat)
  | beginFlush
  | flushNext
  /-- a socket comes or goes, or a connection closes -/
  | socketChanges

namespace Mail

def written (x : Mail) : List SendCall := x.frames.map Prod.snd

inductive Step : Mail → MailAct → Mail → Prop
  | sendOver {x : Mail} {conn : Nat} (message : OutboundAgentMessage) (durable : Bool)
      (hs : x.socket = some conn) :
      Step x (.send message durable)
        { x with
          calls := x.calls ++ [⟨x.calls.length, message, durable⟩]
          sending := x.sending ++ [⟨⟨x.calls.length, message, durable⟩, conn, false⟩] }
  | sendNowhere {x : Mail} (message : OutboundAgentMessage) (durable : Bool) (hs : x.socket = none) :
      Step x (.send message durable)
        { x with
          calls := x.calls ++ [⟨x.calls.length, message, durable⟩]
          returned := x.returned ++ [⟨x.calls.length, message, durable⟩]
          durableQueue :=
            x.durableQueue ++ if durable then [⟨x.calls.length, message, durable⟩] else [] }
  | written {x : Mail} {i : Nat} {y : Sending} (hi : x.sending[i]? = some y) (ho : y.conn ∉ x.closed) :
      Step x (.sendEnds i)
        { x with
          sending := x.sending.eraseIdx i
          frames := x.frames ++ [(y.conn, y.call)]
          returned := x.returned ++ if y.flush then [] else [y.call] }
  | kept {x : Mail} {i : Nat} {y : Sending} (hi : x.sending[i]? = some y) (hc : y.conn ∈ x.closed) :
      Step x (.sendEnds i)
        { x with
          sending := x.sending.eraseIdx i
          durableQueue := x.durableQueue ++ if y.call.durable then [y.call] else []
          returned := x.returned ++ if y.flush then [] else [y.call] }
  | beginFlush {x : Mail} (hp : x.pending = []) (hf : ∀ y ∈ x.sending, y.flush = false) :
      Step x .beginFlush { x with pending := x.durableQueue, durableQueue := [] }
  | flushNext {x : Mail} {conn : Nat} {call : SendCall} {pending : List SendCall}
      (hp : x.pending = call :: pending) (hf : ∀ y ∈ x.sending, y.flush = false)
      (hs : x.socket = some conn) :
      Step x .flushNext { x with pending := pending, sending := x.sending ++ [⟨call, conn, true⟩] }
  | connects {x : Mail} (hp : x.pending = []) :
      Step x .socketChanges { x with socket := some x.connections, connections := x.connections + 1 }
  | moves {x : Mail} {socket : Option Nat} {closed : List Nat} (hp : x.pending = [])
      (hs : socket = x.socket ∨ socket = none) (hc : x.closed ⊆ closed) :
      Step x .socketChanges { x with socket := socket, closed := closed }
  | closes {x : Mail} (conn : Nat) : Step x .socketChanges { x with closed := conn :: x.closed }

end Mail

/-! ## the view -/

def Phase.pending : Phase → List SendCall
  | .flushing _ _ pending | .flushSending _ _ pending => pending
  | _ => []

def Phase.isFlushSending : Phase → Bool
  | .flushSending _ _ _ => true
  | _ => false

def LogEntry.frame? : LogEntry → Option (Nat × SendCall)
  | .frame conn call => some (conn, call)
  | _ => none

namespace Client

def frames (s : Client) : List (Nat × SendCall) := s.log.filterMap LogEntry.frame?

def written (s : Client) : List SendCall := s.frames.map Prod.snd

def mail (s : Client) : Mail where
  calls := s.calls
  returned := s.returned
  frames := s.frames
  durableQueue := s.durableQueue
  pending := s.phase.pending
  sending := s.sending
  socket := s.socket
  connections := s.connections
  closed := s.closed

section
variable (limits : Limits) (validate : InboundModel → Value → Except Exc (InboundHubMessage Str))

/-- what the messages see of something that happens -/
def seenByMail (_ : Client) : ClientAct → Option MailAct
  | .reply raw => if accepts limits validate raw then some .beginFlush else some .socketChanges
  | .flushNext => some .flushNext
  | .discovered (some printers) => some (.send (buildSyncMessage printers) false)
  | .send message durable => some (.send message durable)
  | .sendEnds i => some (.sendEnds i)
  | .connect none | .authSent | .noReply _ | .flushed _ | .receive _ | .handled _ | .ends _
  | .disconnected _ | .drop _ => some .socketChanges
  | .iterate | .connect (some _) | .discovered none | .synced | .backoffEnds | .stop => none

end

/-- the socket is that of the connection in use, and one send of the flush goes on while the flush
waits for it -/
structure Sound (s : Client) : Prop where
  socket : ∀ conn, s.phase.conn = some conn → s.socket = some conn
  flush : s.sending.countP Sending.flush = if s.phase.isFlushSending then 1 else 0

theorem Sound.init : Sound init := ⟨fun _ h => (by cases h), rfl⟩

end Client

theorem split_of_getElem? {α : Type} {l : List α} {i : Nat} {y : α} (h : l[i]? = some y) :
    ∃ l₁ l₂, l = l₁ ++ y :: l₂ ∧ l.eraseIdx i = l₁ ++ l₂ ∧ l₁.length = i := by
  obtain ⟨hi, rfl⟩ := List.getElem?_eq_some_iff.mp h
  refine ⟨l.take i, l.drop (i + 1), ?_, List.eraseIdx_eq_take_drop_succ l i, ?_⟩
  · rw [← List.drop_eq_getElem_cons hi, List.take_append_drop]
  · rw [List.length_take]
    omega

namespace Client
variable {limits : Limits} {validate : InboundModel → Value → Except Exc (InboundHubMessage Str)}

theorem Sound.of_send {s : Client} (h : Sound s) (message : OutboundAgentMessage) (durable : Bool) :
    Sound (s.send message durable) := by
  cases hs : s.socket with
  | none =>
    rw [send_nowhere hs]
    exact ⟨h.socket, h.flush⟩
  | some conn =>
    rw [send_over hs]
    refine ⟨h.socket, ?_⟩
    show (s.sending ++ [_]).countP Sending.flush = _
    rw [List.countP_append, h.flush]
    rfl

/-- the flush awaits the send of one message, and goes on when that has ended -/
theorem flushGoesOn_true {phase : Phase} (h : phase.isFlushSending = true) :
    (flushGoesOn true phase).isFlushSending = false ∧ (flushGoesOn true phase).conn = phase.conn := by
  cases phase with
  | flushSending conn intervalMs pending => exact ⟨rfl, rfl⟩
  | _ => cases h

theorem Sound.of_ended {s s' : Client} {i : Nat} {x : Sending} (h : Sound s)
    (hi : s.sending[i]? = some x) (hsock : s'.socket = s.socket)
    (hsend : s'.sending = s.sending.eraseIdx i) (hphase : s'.phase = flushGoesOn x.flush s.phase) :
    Sound s' := by
  obtain ⟨l₁, l₂, hl, he, -⟩ := split_of_getElem? hi
  have hcount := h.flush
  rw [hl, List.countP_append, List.countP_cons] at hcount
  have hcount' : s'.sending.countP Sending.flush
      = l₁.countP Sending.flush + l₂.countP Sending.flush := by
    rw [hsend, he, List.countP_append]
  cases hx : x.flush with
  | false =>
    rw [hx, flushGoesOn_false] at hphase
    rw [hx] at hcount
    refine ⟨?_, ?_⟩
    · rw [hphase, hsock]
      exact h.socket
    · rw [hcount', hphase, ← hcount]
      rfl
  | true =>
    rw [hx, if_pos rfl] at hcount
    have hwaits : s.phase.isFlushSending = true := by
      cases hb : s.phase.isFlushSending with
      | true => rfl
      | false =>
        rw [hb, if_neg Bool.false_ne_true] at hcount
        omega
    obtain ⟨hno, hconn⟩ := flushGoesOn_true hwaits
    rw [hx] at hphase
    rw [hwaits, if_pos rfl] at hcount
    refine ⟨?_, ?_⟩
    · rw [hphase, hconn, hsock]
      exact h.socket
    · rw [hcount', hphase, hno, if_neg Bool.false_ne_true]
      omega

/-- a step outside the flush, which leaves the sends alone, and either stays with its connection or
is without one -/
theorem Sound.outside {s s' : Client} (h : Sound s) (hp : s.phase.isFlushSending = false)
    (hp' : s'.phase.isFlushSending = false) (hs : s'.sending = s.sending)
    (hc : s'.phase.conn = none ∨ s'.phase.conn = s.phase.conn ∧ s'.socket = s.socket) : Sound s' := by
  refine ⟨fun conn hconn => ?_, ?_⟩
  · rcases hc with hc | ⟨hc, hsock⟩
    · rw [hc] at hconn
      cases hconn
    · rw [hsock]
      exact h.socket conn (hc ▸ hconn)
  · rw [hs, h.flush, hp, hp']

theorem disconnected_phase (s : Client) (exc statusRaises : Option Exc) :
    (∃ e, (s.disconnected exc statusRaises).phase = .raised e) ∨
    (s.disconnected exc statusRaises).phase = .returned ∧ s.stopped = true ∨
    (s.disconnected exc statusRaises).phase = .backoff := by
  simp only [disconnected]
  split
  · exact .inl ⟨_, rfl⟩
  · split
    · exact .inr (.inl ⟨rfl, ‹_›⟩)
    · exact .inr (.inr rfl)

theorem Sound.step {s s' : Client} {a : ClientAct} (h : Sound s)
    (hstep : Step limits validate s a s') : Sound s' := by
  cases hstep with
  | connect hp =>
    refine ⟨fun _ hc => (by cases hc; rfl), ?_⟩
    have hcount := h.flush
    rwa [hp] at hcount
  | flushNext hp =>
    have hsock := h.socket _ (by rw [hp]; rfl)
    have hcount := h.flush
    rw [hp] at hcount
    rw [beginSend_over _ true hsock]
    refine ⟨fun _ hc => (by cases hc; exact hsock), ?_⟩
    show (s.sending ++ [_]).countP Sending.flush = 1
    rw [List.countP_append, hcount]
    rfl
  | send message durable => exact h.of_send message durable
  | sendEnds hi =>
    rename_i i x
    cases ho : s.isOpen x.conn with
    | true =>
      rw [sendEnds_open (by exact ho)]
      exact h.of_ended hi rfl rfl rfl
    | false =>
      rw [sendEnds_closed (by exact ho)]
      exact h.of_ended hi rfl rfl rfl
  | stop => exact ⟨h.socket, h.flush⟩
  | drop _ => exact ⟨h.socket, h.flush⟩
  | receiveDrops _ => exact h
  | discovered printers hp =>
    rename_i conn
    have hsync : Sound (s.setPhase (.syncSending conn s.calls.length)) :=
      h.outside (by rw [hp]; rfl) rfl rfl (.inr ⟨by rw [hp]; rfl, rfl⟩)
    exact hsync.of_send _ _
  | iterate hp =>
    refine h.outside (by rw [hp]; rfl) ?_ rfl (.inl ?_)
    · show (if s.stopped then Phase.returned else .connecting).isFlushSending = false
      split <;> rfl
    · show (if s.stopped then Phase.returned else .connecting).conn = none
      split <;> rfl
  | disconnected _ hp =>
    rename_i exc statusRaises
    refine h.outside (by rw [hp]; rfl) ?_ rfl (.inl ?_)
    · rcases disconnected_phase s exc statusRaises with ⟨e, he⟩ | ⟨he, -⟩ | he <;> rw [he] <;> rfl
    · rcases disconnected_phase s exc statusRaises with ⟨e, he⟩ | ⟨he, -⟩ | he <;> rw [he] <;> rfl
  -- the connection is left, or there is none
  | intervalOverflows _ hp _ => exact h.outside (by rw [hp]; rfl) rfl rfl (.inl rfl)
  | statusRaises _ hp | connectRaises _ hp | noReply _ hp | ends _ hp =>
    exact h.outside (by rw [hp]; rfl) rfl rfl (.inl rfl)
  | authSendRaises hp | replyRaises hp | rejected hp | receiveRaises hp | handlerRaises hp
  | backoffEnds hp => exact h.outside (by rw [hp]; rfl) rfl rfl (.inl rfl)
  -- the loop goes on with its connection
  | authSent hp | authenticated hp | flushed hp | discoveryFails hp | synced hp | receive hp
  | handled hp => exact h.outside (by rw [hp]; rfl) rfl rfl (.inr ⟨by rw [hp]; rfl, rfl⟩)

theorem sound_of_reach {C : Client → ClientAct → Prop} {s : Client}
    (h : (client limits validate).Reach C s) : Sound s :=
  h.invariant Sound.init fun _ _ _ _ hs _ hstep => hs.step (step_cases hstep)

theorem Sound.noFlush {s : Client} (h : Sound s) (hp : s.phase.isFlushSending = false) :
    ∀ y ∈ s.sending, y.flush = false := by
  have hcount := h.flush
  rw [hp, if_neg Bool.false_ne_true, List.countP_eq_zero] at hcount
  exact fun y hy => by simpa using hcount y hy

theorem pending_flushGoesOn (flush : Bool) (phase : Phase) :
    (flushGoesOn flush phase).pending = phase.pending := by
  cases phase with
  | flushSending conn intervalMs pending => cases flush <;> rfl
  | _ => rfl

theorem mail_send {s : Client} (message : OutboundAgentMessage) (durable : Bool) :
    Mail.Step s.mail (.send message durable) (s.send message durable).mail := by
  cases hs : s.socket with
  | none =>
    rw [send_nowhere hs]
    exact .sendNowhere message durable hs
  | some conn =>
    rw [send_over hs]
    exact .sendOver message durable hs

theorem mail_sendEnds {s : Client} {i : Nat} {x : Sending} (hi : s.sending[i]? = some x) :
    Mail.Step s.mail (.sendEnds i) ({ s with sending := s.sending.eraseIdx i }.sendEnds x).mail := by
  cases ho : s.isOpen x.conn with
  | true =>
    have hw : Mail.Step s.mail (.sendEnds i) _ := .written hi (by simpa [isOpen, mail] using ho)
    rw [sendEnds_open (by exact ho)]
    convert hw using 1
    simp [mail, frames, pending_flushGoesOn, List.filterMap_append, LogEntry.frame?]
  | false =>
    have hk : Mail.Step s.mail (.sendEnds i) _ := .kept hi (by simpa [isOpen, mail] using ho)
    rw [sendEnds_closed (by exact ho)]
    convert hk using 1
    simp [mail, frames, pending_flushGoesOn]

variable (limits validate)

/-- **What the messages see of a step.** -/
theorem client_shows_mail :
    (client limits validate).Shows Sound mail (seenByMail limits validate) Mail.Step := by
  intro s a s' hU hstep
  have hstep := step_cases hstep
  -- only the socket may have changed, and a connection may have been closed
  have moves : ∀ t : Client, s.phase.pending = [] → t.phase.pending = [] → t.calls = s.calls →
      t.returned = s.returned → t.frames = s.frames → t.durableQueue = s.durableQueue →
      t.sending = s.sending → t.socket = s.socket ∨ t.socket = none →
      t.connections = s.connections → s.closed ⊆ t.closed → Mail.Step s.mail .socketChanges t.mail := by
    intro t hp hp' hc hr hw hd hs hsock hmade hcl
    have hm : Mail.Step s.mail .socketChanges _ := .moves hp hsock hcl
    convert hm using 1
    simp only [mail, hp, hp', hc, hr, hw, hd, hs, hmade]
  have refused : ∀ conn exc, s.phase.pending = [] →
      Mail.Step s.mail .socketChanges ((s.write (.refused conn)).leave conn exc).mail :=
    fun conn exc hp => moves _ hp rfl rfl rfl (by simp [frames, write, leave, LogEntry.frame?]) rfl rfl
      (.inl rfl) rfl (List.subset_cons_self _ _)
  have leaves : ∀ conn exc, s.phase.pending = [] →
      Mail.Step s.mail .socketChanges (s.leave conn exc).mail :=
    fun conn exc hp => moves _ hp rfl rfl rfl rfl rfl rfl (.inl rfl) rfl (List.subset_cons_self _ _)
  have stays : ∀ phase : Phase, s.phase.pending = [] → phase.pending = [] →
      Mail.Step s.mail .socketChanges (s.setPhase phase).mail :=
    fun phase hp hp' => moves _ hp hp' rfl rfl rfl rfl rfl (.inl rfl) rfl (List.Subset.refl _)
  have alone : ∀ phase : Phase, s.phase.pending = [] → phase.pending = [] →
      (s.setPhase phase).mail = s.mail := by
    intro phase hp hp'
    simp only [mail, setPhase, hp, hp']
    rfl
  cases hstep with
  | iterate hp => exact alone _ (by rw [hp]; rfl) (by split <;> rfl)
  | connect hp =>
    have hm : Mail.Step s.mail .socketChanges _ := .connects (by rw [mail, hp]; rfl)
    convert hm using 1
    rw [mail, mail, hp]
    rfl
  | connectRaises e hp => exact alone _ (by rw [hp]; rfl) rfl
  | authSent hp ho =>
    exact moves _ (by rw [hp]; rfl) rfl rfl rfl
      (by simp [frames, write, setPhase, LogEntry.frame?]) rfl rfl (.inl rfl) rfl (List.Subset.refl _)
  | authSendRaises hp => exact refused _ _ (by rw [hp]; rfl)
  | replyRaises hp hd =>
    have hacc : ∀ raw e, decode limits validate raw = .error e →
        seenByMail limits validate s (.reply raw) = some .socketChanges := by
      intro raw e hd
      simp [seenByMail, accepts, hd]
    rw [hacc _ _ hd]
    exact refused _ _ (by rw [hp]; rfl)
  | authenticated hp hd =>
    rename_i conn raw intervalMs
    have hacc : seenByMail limits validate s (.reply raw) = some .beginFlush := by
      simp [seenByMail, accepts, hd]
    rw [hacc]
    have hb : Mail.Step s.mail .beginFlush _ :=
      .beginFlush (by rw [mail, hp]; rfl) (hU.noFlush (by rw [hp]; rfl))
    convert hb using 1
    simp [mail, frames, write, LogEntry.frame?, Phase.pending]
  | rejected hp hd =>
    rename_i conn raw
    have hacc : seenByMail limits validate s (.reply raw) = some .socketChanges := by
      simp [seenByMail, hd]
    rw [hacc]
    exact moves _ (by rw [hp]; rfl) rfl rfl rfl (by simp [frames, write, leave, LogEntry.frame?]) rfl
      rfl (.inr rfl) rfl (List.subset_cons_self _ _)
  | noReply timedOut hp => exact refused _ _ (by rw [hp]; rfl)
  | flushNext hp =>
    have hsock := hU.socket _ (by rw [hp]; rfl)
    rw [beginSend_over _ true hsock]
    exact .flushNext (by rw [mail, hp]; rfl) (hU.noFlush (by rw [hp]; rfl)) hsock
  | intervalOverflows statusRaises hp ho => exact leaves _ _ (by rw [hp]; rfl)
  | statusRaises e hp => exact leaves _ _ (by rw [hp]; rfl)
  | flushed hp => exact stays _ (by rw [hp]; rfl) rfl
  | discoveryFails hp => exact alone _ (by rw [hp]; rfl) rfl
  | discovered printers hp =>
    rename_i conn
    have hm := mail_send (s := s.setPhase (.syncSending conn s.calls.length))
      (buildSyncMessage printers) false
    rw [alone _ (by rw [hp]; rfl) rfl] at hm
    exact hm
  | synced hp hr => exact alone _ (by rw [hp]; rfl) rfl
  | receiveRaises hp hd => exact leaves _ _ (by rw [hp]; rfl)
  | receiveDrops hp => exact stays s.phase (by rw [hp]; rfl) (by rw [hp]; rfl)
  | receive hp hd => exact stays _ (by rw [hp]; rfl) rfl
  | handled hp => exact stays _ (by rw [hp]; rfl) rfl
  | handlerRaises hp hc => exact leaves _ _ (by rw [hp]; rfl)
  | ends cleanly hp => exact leaves _ _ (by rw [hp]; rfl)
  | disconnected statusRaises hp =>
    rename_i exc
    refine moves _ (by rw [hp]; rfl) ?_ rfl rfl rfl rfl rfl (.inr rfl) rfl (List.Subset.refl _)
    rcases disconnected_phase s exc statusRaises with ⟨e, he⟩ | ⟨he, -⟩ | he <;> rw [he] <;> rfl
  | backoffEnds hp => exact alone _ (by rw [hp]; rfl) rfl
  | send message durable => exact mail_send message durable
  | stop => exact rfl
  | sendEnds hi => exact mail_sendEnds hi
  | drop hc => exact .closes _

end Client

end PrintAgent
