import PrintAgent.Net.Mail

/-!
# Nothing but `agent.authenticate` before authentication

`run_forever` sets `_socket` before `_authenticate`, and `send` looks at `_socket` alone.  So the
condition is that `send` is not called in between: while there is a socket and `connected` is not set.

`authenticated_first`: under it every other frame follows `agent.authenticated` on its connection, and
a connection that is refused carries none.  `sent_unauthenticated` is a send in between.
-/

namespace PrintAgent

open PyJson (Str Value Limits)

inductive Stage where
  | down
  | authenticating (conn : Nat)
  | up (conn : Nat)
  | leaving

def Phase.stage : Phase → Stage
  | .head | .connecting | .backoff | .returned | .raised _ => .down
  | .authSending conn | .authWaiting conn => .authenticating conn
  | .flushing conn _ _ | .flushSending conn _ _ | .discovering conn | .syncSending conn _
  | .receiving conn | .handling conn _ => .up conn
  | .leaving _ => .leaving

namespace Client

/-- `send` is not called while there is a socket and `connected` is not set -/
def awaitsAuthentication (s : Client) : ClientAct → Bool
  | .send _ _ => s.socket.isNone || s.connected
  | _ => true

/-- what has happened so far on the connection in use -/
def AtStage (s : Client) : Stage → Prop
  | .down => s.connected = false
  | .authenticating conn =>
    s.connected = false ∧ conn < s.connections ∧
      .authenticated conn ∉ s.log ∧ .refused conn ∉ s.log
  | .up _ => s.connected = true
  | .leaving => True

structure Authenticated (s : Client) : Prop where
  written : ∀ before conn call after, s.log = before ++ .frame conn call :: after →
    .authenticated conn ∈ before
  sending : ∀ y ∈ s.sending, .authenticated y.conn ∈ s.log
  connected : s.connected = true → ∀ conn, s.socket = some conn → .authenticated conn ∈ s.log
  stage : s.AtStage s.phase.stage
  apart : ∀ conn, .refused conn ∈ s.log → .authenticated conn ∉ s.log
  made : ∀ conn, .authenticated conn ∈ s.log ∨ .refused conn ∈ s.log → conn < s.connections

variable {limits : Limits} {validate : InboundModel → Value → Except Exc (InboundHubMessage Str)}
  {s s' : Client}

theorem Authenticated.init : Authenticated init := by
  refine ⟨?_, ?_, ?_, rfl, ?_, ?_⟩
  · intro before conn call after h
    simp [Client.init] at h
  · intro y hy
    cases hy
  · intro h
    cases h
  · intro conn h
    cases h
  · rintro conn (h | h) <;> cases h

theorem Authenticated.quiet (h : Authenticated s) (hlog : s'.log = s.log)
    (hsending : ∀ y ∈ s'.sending, y ∈ s.sending) (hconn : s'.connected = s.connected)
    (hsock : s'.socket = s.socket) (hmade : s'.connections = s.connections)
    (hstage : s'.phase.stage = s.phase.stage ∨ s'.phase.stage = .leaving) : Authenticated s' := by
  refine ⟨?_, ?_, ?_, ?_, ?_, ?_⟩
  · rw [hlog]
    exact h.written
  · rw [hlog]
    exact fun y hy => h.sending y (hsending y hy)
  · rw [hlog, hconn, hsock]
    exact h.connected
  · rcases hstage with hst | hst
    · have hold := h.stage
      rw [hst]
      cases hc : s.phase.stage with
      | down => rw [hc] at hold; exact hconn.trans hold
      | authenticating conn =>
        rw [hc] at hold
        obtain ⟨h₁, h₂, h₃, h₄⟩ := hold
        refine ⟨hconn.trans h₁, hmade ▸ h₂, ?_, ?_⟩ <;> rw [hlog] <;> assumption
      | up conn => rw [hc] at hold; exact hconn.trans hold
      | leaving => trivial
    · rw [hst]
      trivial
  · rw [hlog]
    exact h.apart
  · rw [hlog, hmade]
    exact h.made

theorem eq_of_snoc_frame {log before after : List LogEntry} {e : LogEntry} {conn : Nat}
    {call : SendCall} (h : log ++ [e] = before ++ .frame conn call :: after) :
    (∃ after', log = before ++ .frame conn call :: after') ∨ e = .frame conn call ∧ before = log := by
  rcases List.eq_nil_or_concat after with rfl | ⟨after', e', rfl⟩
  · right
    obtain ⟨h₁, h₂⟩ := List.append_inj' h rfl
    exact ⟨by simpa using h₂, h₁.symm⟩
  · left
    refine ⟨after', ?_⟩
    have h' : log ++ [e] = (before ++ .frame conn call :: after') ++ [e'] := by simpa using h
    exact (List.append_inj' h' rfl).1

theorem Authenticated.frame (h : Authenticated s) {y : Sending} (hy : y ∈ s.sending)
    (hlog : s'.log = s.log ++ [.frame y.conn y.call]) (hsending : ∀ z ∈ s'.sending, z ∈ s.sending)
    (hconn : s'.connected = s.connected) (hsock : s'.socket = s.socket)
    (hmade : s'.connections = s.connections) (hstage : s'.phase.stage = s.phase.stage) :
    Authenticated s' := by
  have hmem : ∀ e, e ∈ s'.log ↔ e ∈ s.log ∨ e = .frame y.conn y.call := by
    intro e
    rw [hlog, List.mem_append, List.mem_singleton]
  have hauth : ∀ conn, .authenticated conn ∈ s'.log ↔ .authenticated conn ∈ s.log := by
    intro conn
    rw [hmem]
    exact or_iff_left (by simp)
  have href : ∀ conn, .refused conn ∈ s'.log ↔ .refused conn ∈ s.log := by
    intro conn
    rw [hmem]
    exact or_iff_left (by simp)
  refine ⟨?_, ?_, ?_, ?_, ?_, ?_⟩
  · intro before conn call after heq
    rw [hlog] at heq
    rcases eq_of_snoc_frame heq with ⟨after', hold⟩ | ⟨he, rfl⟩
    · exact h.written before conn call after' hold
    · cases he
      exact h.sending y hy
  · exact fun z hz => (hauth _).mpr (h.sending z (hsending z hz))
  · rw [hconn, hsock]
    exact fun hc conn hs => (hauth conn).mpr (h.connected hc conn hs)
  · have hold := h.stage
    rw [hstage]
    cases hc : s.phase.stage with
    | down => rw [hc] at hold; exact hconn.trans hold
    | authenticating conn =>
      rw [hc] at hold
      obtain ⟨h₁, h₂, h₃, h₄⟩ := hold
      exact ⟨hconn.trans h₁, hmade ▸ h₂, mt (hauth conn).mp h₃, mt (href conn).mp h₄⟩
    | up conn => rw [hc] at hold; exact hconn.trans hold
    | leaving => trivial
  · exact fun conn hr => mt (hauth conn).mp (h.apart conn ((href conn).mp hr))
  · intro conn hc
    rw [hmade]
    exact h.made conn (hc.imp (hauth conn).mp (href conn).mp)

theorem Authenticated.entry (h : Authenticated s) {e : LogEntry} (hlog : s'.log = s.log ++ [e])
    (he : e.frame? = none) (hsending : s'.sending = s.sending)
    (hmade : s'.connections = s.connections)
    (hconn : s'.connected = true → ∀ conn, s'.socket = some conn → .authenticated conn ∈ s'.log)
    (hstage : s'.AtStage s'.phase.stage)
    (hapart : ∀ conn, .refused conn ∈ s'.log → .authenticated conn ∉ s'.log)
    (hold : ∀ conn, e = .authenticated conn ∨ e = .refused conn → conn < s.connections) :
    Authenticated s' := by
  refine ⟨?_, ?_, hconn, hstage, hapart, ?_⟩
  · intro before conn call after heq
    rw [hlog] at heq
    rcases eq_of_snoc_frame heq with ⟨after', hold⟩ | ⟨rfl, -⟩
    · exact h.written before conn call after' hold
    · cases he
  · intro y hy
    rw [hlog]
    exact List.mem_append_left _ (h.sending y (hsending ▸ hy))
  · intro conn hc
    rw [hlog, List.mem_append, List.mem_append, List.mem_singleton, List.mem_singleton] at hc
    rw [hmade]
    rcases hc with (hc | hc) | (hc | hc)
    · exact h.made conn (.inl hc)
    · exact hold conn (.inl hc.symm)
    · exact h.made conn (.inr hc)
    · exact hold conn (.inr hc.symm)

theorem Authenticated.refused (h : Authenticated s) {conn : Nat}
    (hst : s.phase.stage = .authenticating conn) (exc : Option Exc) (socket : Option Nat) :
    Authenticated { (s.write (.refused conn)).leave conn exc with socket := socket } := by
  have hstage := h.stage
  rw [hst] at hstage
  obtain ⟨hc, hlt, hno, -⟩ := hstage
  refine h.entry rfl rfl rfl rfl ?_ trivial ?_ ?_
  · intro hconn
    exact absurd (hc.symm.trans hconn) Bool.false_ne_true
  · intro c hr ha
    have ha' : .authenticated c ∈ s.log := by
      simpa [write, leave] using ha
    have hr' : .refused c ∈ s.log ∨ c = conn := by
      simpa [write, leave] using hr
    rcases hr' with hr' | rfl
    · exact h.apart c hr' ha'
    · exact hno ha'
  · rintro c (he | he)
    · cases he
    · cases he
      exact hlt

theorem Authenticated.send (h : Authenticated s) (message : OutboundAgentMessage) (durable : Bool)
    (hs : ∀ conn, s.socket = some conn → .authenticated conn ∈ s.log) :
    Authenticated (s.send message durable) := by
  cases hsock : s.socket with
  | none =>
    rw [send_nowhere hsock]
    exact h.quiet rfl (fun _ hy => hy) rfl rfl rfl (.inl rfl)
  | some conn =>
    rw [send_over hsock]
    refine ⟨h.written, ?_, h.connected, h.stage, h.apart, h.made⟩
    intro y hy
    rcases List.mem_append.mp hy with hy | hy
    · exact h.sending y hy
    · rw [List.mem_singleton.mp hy]
      exact hs conn hsock

theorem flushGoesOn_stage (flush : Bool) (phase : Phase) :
    (flushGoesOn flush phase).stage = phase.stage := by
  cases phase with
  | flushSending conn intervalMs pending => cases flush <;> rfl
  | _ => rfl

/-- while a connection is up, it is the socket and was authenticated -/
theorem Authenticated.up (h : Authenticated s) (hsound : Sound s) {conn : Nat}
    (hst : s.phase.stage = .up conn) (hc : s.phase.conn = some conn) :
    s.socket = some conn ∧ .authenticated conn ∈ s.log := by
  have hconn := h.stage
  rw [hst] at hconn
  exact ⟨hsound.socket conn hc, h.connected hconn conn (hsound.socket conn hc)⟩

theorem Authenticated.step {a : ClientAct} (h : Authenticated s) (hsound : Sound s)
    (hok : s.awaitsAuthentication a = true) (hstep : Step limits validate s a s') :
    Authenticated s' := by
  -- the loop goes on with its connection, or leaves it
  have on : ∀ phase : Phase, phase.stage = s.phase.stage → Authenticated (s.setPhase phase) :=
    fun phase hst => h.quiet rfl (fun _ hy => hy) rfl rfl rfl (.inl hst)
  have left : ∀ conn exc, Authenticated (s.leave conn exc) :=
    fun conn exc => h.quiet rfl (fun _ hy => hy) rfl rfl rfl (.inr rfl)
  cases hstep with
  | iterate hp =>
    refine on _ ?_
    rw [hp]
    split <;> rfl
  | connect hp =>
    have hst : s.connected = false := by
      have hst := h.stage
      rw [hp] at hst
      exact hst
    refine ⟨h.written, h.sending, ?_, ?_, h.apart, ?_⟩
    · intro hc
      exact absurd (hst.symm.trans hc) Bool.false_ne_true
    · refine ⟨hst, Nat.lt_succ_self _, fun ha => ?_, fun hr => ?_⟩
      · exact absurd (h.made _ (.inl ha)) (Nat.lt_irrefl _)
      · exact absurd (h.made _ (.inr hr)) (Nat.lt_irrefl _)
    · exact fun conn hc => Nat.lt_succ_of_lt (h.made conn hc)
  | connectRaises e hp => exact h.quiet rfl (fun _ hy => hy) rfl rfl rfl (.inr rfl)
  | authSent hp ho =>
    rename_i conn
    have hst := h.stage
    rw [hp] at hst
    obtain ⟨hc, hlt, hno, hno'⟩ := hst
    refine h.entry (e := .authenticate conn) rfl rfl rfl rfl ?_ ?_ ?_ ?_
    · intro hconn
      exact absurd (hc.symm.trans hconn) Bool.false_ne_true
    · refine ⟨hc, hlt, ?_, ?_⟩
      · simpa [write, setPhase] using hno
      · simpa [write, setPhase] using hno'
    · intro c hr
      simpa [write, setPhase] using h.apart c (by simpa [write, setPhase] using hr)
    · rintro c (he | he) <;> cases he
  | authSendRaises hp => exact h.refused (by rw [hp]; rfl) _ s.socket
  | replyRaises hp hd => exact h.refused (by rw [hp]; rfl) _ s.socket
  | rejected hp hd => exact h.refused (by rw [hp]; rfl) _ none
  | noReply timedOut hp => exact h.refused (by rw [hp]; rfl) _ s.socket
  | authenticated hp hd =>
    rename_i conn raw intervalMs
    have hst := h.stage
    rw [hp] at hst
    obtain ⟨hc, hlt, hno, hno'⟩ := hst
    have hsock := hsound.socket conn (by rw [hp]; rfl)
    refine h.entry (e := .authenticated conn) rfl rfl rfl rfl ?_ rfl ?_ ?_
    · intro _ c hs
      cases hsock.symm.trans hs
      simp [write]
    · intro c hr ha
      have hr' : .refused c ∈ s.log := by simpa [write] using hr
      have ha' : .authenticated c ∈ s.log ∨ c = conn := by simpa [write] using ha
      rcases ha' with ha' | rfl
      · exact h.apart c hr' ha'
      · exact hno' hr'
    · rintro c (he | he)
      · cases he
        exact hlt
      · cases he
  | flushNext hp =>
    rename_i conn intervalMs call pending
    obtain ⟨hsock, hauth⟩ := h.up hsound (by rw [hp]; rfl) (by rw [hp]; rfl)
    rw [beginSend_over _ true hsock]
    refine ⟨h.written, ?_, h.connected, ?_, h.apart, h.made⟩
    · intro y hy
      rcases List.mem_append.mp hy with hy | hy
      · exact h.sending y hy
      · rw [List.mem_singleton.mp hy]
        exact hauth
    · have hst := h.stage
      rw [hp] at hst
      exact hst
  | intervalOverflows _ _ _ => exact left _ _
  | statusRaises _ _ | ends _ _ => exact left _ _
  | receiveRaises _ _ | handlerRaises _ _ => exact left _ _
  | flushed hp | discoveryFails hp | synced hp | receive hp | handled hp | backoffEnds hp =>
    exact on _ (by rw [hp]; rfl)
  | receiveDrops _ => exact h
  | discovered printers hp =>
    rename_i conn
    obtain ⟨hsock, hauth⟩ := h.up hsound (by rw [hp]; rfl) (by rw [hp]; rfl)
    have hsync : Authenticated (s.setPhase (.syncSending conn s.calls.length)) :=
      on _ (by rw [hp]; rfl)
    refine hsync.send _ _ fun c hc => ?_
    cases hsock.symm.trans hc
    exact hauth
  | disconnected statusRaises hp =>
    rename_i exc
    refine ⟨h.written, h.sending, fun hc => ?_, ?_, h.apart, h.made⟩
    · cases hc
    · rcases disconnected_phase s exc statusRaises with ⟨e, he⟩ | ⟨he, -⟩ | he <;> rw [he] <;> rfl
  | send message durable =>
    refine h.send message durable fun conn hsock => h.connected ?_ conn hsock
    simpa [awaitsAuthentication, hsock] using hok
  | stop => exact h.quiet rfl (fun _ hy => hy) rfl rfl rfl (.inl rfl)
  | sendEnds hi =>
    rename_i i x
    have hmem : x ∈ s.sending := List.mem_of_getElem? hi
    have hsub : ∀ z ∈ s.sending.eraseIdx i, z ∈ s.sending := fun z hz => List.mem_of_mem_eraseIdx hz
    cases ho : s.isOpen x.conn with
    | true =>
      rw [sendEnds_open (by exact ho)]
      exact h.frame hmem rfl hsub rfl rfl rfl (flushGoesOn_stage _ _)
    | false =>
      rw [sendEnds_closed (by exact ho)]
      exact h.quiet rfl hsub rfl rfl rfl (.inl (flushGoesOn_stage _ _))
  | drop _ => exact h.quiet rfl (fun _ hy => hy) rfl rfl rfl (.inl rfl)

variable (limits validate)

/-- **Nothing but `agent.authenticate` before authentication.**  Every other frame follows
`agent.authenticated` on its connection, so a refused connection carries none. -/
theorem authenticated_first
    (h : (client limits validate).Reach (fun s a => s.awaitsAuthentication a = true) s) :
    (∀ before conn call after, s.log = before ++ .frame conn call :: after →
      .authenticated conn ∈ before) ∧
    ∀ conn call, .frame conn call ∈ s.log → .refused conn ∉ s.log := by
  have hauth : Authenticated s :=
    h.invariant Authenticated.init fun _ _ _ hr hs ok hstep =>
      hs.step (sound_of_reach hr) ok (step_cases hstep)
  refine ⟨hauth.written, fun conn call hf hr => hauth.apart conn hr ?_⟩
  obtain ⟨before, after, hlog⟩ := List.append_of_mem hf
  rw [hlog]
  exact List.mem_append_left _ (hauth.written before conn call after hlog)

/-- a heartbeat is dropped, an event queued; both are sent again when the connection is up -/
def sentAuthenticated : List ClientAct :=
  [.send .heartbeat false, .send (.event (.received "a")) true] ++ Schedule.connect ++
  [.send .heartbeat false, .flushNext, .sendEnds 0, .sendEnds 0]

theorem sentAuthenticated_isSome :
    ((client Schedule.limits Schedule.validate).run init sentAuthenticated).isSome = true := by
  decide +kernel

theorem authenticated_first_flushed :
    let s := (client Schedule.limits Schedule.validate).after sentAuthenticated sentAuthenticated_isSome
    ∀ conn call, .frame conn call ∈ s.log → .refused conn ∉ s.log :=
  (authenticated_first Schedule.limits Schedule.validate
    (.of_obeys sentAuthenticated sentAuthenticated_isSome (by decide +kernel))).2

/-- an event is sent while `_authenticate` waits, and the hub rejects the agent -/
def sentWhileWaiting : List ClientAct :=
  [.iterate, .connect none, .authSent, .send (.event (.completed "a")) true, .sendEnds 0,
    .reply Schedule.rejectedFrame]

theorem sent_unauthenticated :
    ¬ ∀ s, (client Schedule.limits Schedule.validate).Reach Machine.Any s →
      ∀ conn call, .frame conn call ∈ s.log → .refused conn ∉ s.log := by
  intro h
  have hrun : ((client Schedule.limits Schedule.validate).run init sentWhileWaiting).isSome = true := by
    decide +kernel
  have hboth := Machine.any_after (p := fun s =>
    .frame 0 ⟨0, .event (.completed "a"), true⟩ ∈ s.log && .refused 0 ∈ s.log) hrun (by decide +kernel)
  rw [Bool.and_eq_true, decide_eq_true_eq, decide_eq_true_eq] at hboth
  exact h _ (.after sentWhileWaiting hrun) _ _ hboth.1 hboth.2

end Client

end PrintAgent
