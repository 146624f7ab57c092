import Mathlib.Tactic.IntervalCases
import Mathlib.Tactic.Linarith
import PrintAgent.Core.Forever
import PrintAgent.Lib.Round
import PrintAgent.Lib.Timed

/-!
# The pace of the loops

The delays of `run_forever` and of `_heartbeat_loop`: `loops` with a clock.  `Clocks` are the deadlines of the
two waits and what the loops keep for them, and two histories, the attempts to connect and the heartbeats,
the last one first.  A timer may go off `early`: by the resolution of the event loop's clock and the rounding
of its sums.

* `attempts_spaced`     from one attempt to the next at least the delay that `RECONNECT_BACKOFF_SCHEDULE` has
                        for the failures in a row;
* `heartbeats_spaced`   heartbeats are 5 seconds apart whatever interval the hub asks for, and usage is
                        sampled at most every 55 seconds.
-/

namespace PrintAgent

open PyJson (Str Value Source Limits)

def reconnectBackoffSchedule : List ℚ := [1, 2, 5, 10, 30, 60]

/-- `RECONNECT_BACKOFF_SCHEDULE[min(backoff_index, len(RECONNECT_BACKOFF_SCHEDULE) - 1)]` -/
def backoffDelay (backoffIndex : Nat) : ℚ :=
  reconnectBackoffSchedule.getD (min backoffIndex (reconnectBackoffSchedule.length - 1)) 0

def heartbeatIntervalSeconds : ℚ := 30

/-- a round of `run_forever`, from the call of `websockets.connect` -/
structure Attempt where
  began : ℚ
  authenticated : Bool
  deriving DecidableEq, Repr

/-- a heartbeat: when it was handed to `send`, and when its usage was sampled -/
structure Beat where
  sent : ℚ
  sampledAt : Option ℚ
  deriving DecidableEq, Repr

structure Clocks where
  backoffIndex : Nat
  /-- when the delay of `run_forever` has passed -/
  backoffUntil : ℚ
  /-- `_heartbeat_interval_seconds` -/
  interval : ℚ
  /-- when the interval that `_heartbeat_loop` waits for has passed -/
  beatUntil : ℚ
  lastUsageAt : ℚ
  /-- the sample that `_usage_if_due` takes for the next heartbeat -/
  sampledAt : Option ℚ
  attempts : List Attempt
  beats : List Beat
  deriving DecidableEq, Repr

namespace Clocks

/-- both loops begin at the time `start` -/
def init (start : ℚ) : Clocks where
  backoffIndex := 0
  backoffUntil := start
  interval := heartbeatIntervalSeconds
  beatUntil := start + heartbeatIntervalSeconds
  lastUsageAt := 0
  sampledAt := none
  attempts := []
  beats := []

/-- `_usage_if_due`, called at the time `now` -/
def usageIfDue (c : Clocks) (now : ℚ) : Clocks :=
  if now - c.lastUsageAt < 55 then { c with sampledAt := none }
  else { c with lastUsageAt := now, sampledAt := some now }

/-- a reply `agent.authenticated` resets the index -/
def authenticated (c : Clocks) : Clocks :=
  { c with
    backoffIndex := 0
    attempts := c.attempts.modifyHead fun attempt => { attempt with authenticated := true } }

/-- `run_forever` begins to wait at the time `now` -/
def backOff (c : Clocks) (now : ℚ) : Clocks :=
  { c with backoffUntil := now + backoffDelay c.backoffIndex, backoffIndex := c.backoffIndex + 1 }

/-- `_on_authenticated` with the `heartbeatIntervalMs` of the reply -/
def onAuthenticated (c : Clocks) (intervalMs : Int) : Clocks :=
  { c with interval := max (double (intervalMs / 1000)) 5 }

def waitForBeat (c : Clocks) (now : ℚ) : Clocks := { c with beatUntil := now + c.interval }

end Clocks

abbrev Paced := Timed Loops Clocks ℚ

namespace Paced

/-- the timers: a wait ends when its time has passed, or with `stop` -/
def may (early : ℚ) (s : Paced) (now : ℚ) : LoopsAct → Bool
  | .client .backoffEnds => s.inner.client.stopped || s.notes.backoffUntil ≤ now + early
  | .wake => s.inner.client.stopped || s.notes.beatUntil ≤ now + early
  | _ => true

/-- what becomes of the times in a step to the state `l` -/
def note (s : Paced) (l : Loops) (now : ℚ) : LoopsAct → Clocks
  | .client .iterate =>
    if l.client.phase = .connecting then
      { s.notes with attempts := ⟨now, false⟩ :: s.notes.attempts }
    else s.notes
  | .client (.reply _) =>
    match l.client.phase with
    | .flushing _ _ _ => s.notes.authenticated
    | _ => s.notes
  | .client (.flushed _) =>
    match s.inner.client.phase with
    | .flushing _ intervalMs _ =>
      if overflowsFloat intervalMs then s.notes else s.notes.onAuthenticated intervalMs
    | _ => s.notes
  | .client (.disconnected _) => if l.client.phase = .backoff then s.notes.backOff now else s.notes
  | .wake =>
    match l.heartbeat with
    | .waiting => s.notes.waitForBeat now
    | .sampling => s.notes.usageIfDue now
    | _ => s.notes
  | .sampled raises =>
    { s.notes with
      beats := ⟨now, if raises then none else s.notes.sampledAt⟩ :: s.notes.beats
      sampledAt := none }
  | .beaten _ => s.notes.waitForBeat now
  | _ => s.notes

end Paced

/-- the loops with a clock, from the time `start` on -/
def paced (limits : Limits) (validate : InboundModel → Value → Except Exc (InboundHubMessage Str)) (early start : ℚ) :
    Machine Paced (ℚ × LoopsAct) :=
  (loops limits validate).timed (Paced.may early) Paced.note start (.init start)

/-! ## the rounds of `run_forever` -/

/-- where `run_forever` stands in its round -/
inductive LoopStage where
  | head
  | trying
  | backoff
  | over
  deriving DecidableEq, Repr

def Phase.loopStage : Phase → LoopStage
  | .head => .head
  | .backoff => .backoff
  | .returned | .raised _ => .over
  | _ => .trying

theorem Phase.loopStage_flushGoesOn (flush : Bool) (phase : Phase) :
    (Client.flushGoesOn flush phase).loopStage = phase.loopStage := by
  cases phase with
  | flushSending conn intervalMs pending => cases flush <;> rfl
  | _ => rfl

def ClientAct.turns : ClientAct → Bool
  | .iterate | .disconnected _ | .backoffEnds => true
  | _ => false

namespace Client
variable {limits : Limits} {validate : InboundModel → Value → Except Exc (InboundHubMessage Str)} {s s' : Client}
  {a : ClientAct}

theorem stage_of_step (ha : a.turns = false) (hstep : Step limits validate s a s') :
    s'.phase.loopStage = s.phase.loopStage := by
  cases hstep with
  | iterate | disconnected | backoffEnds => cases ha
  | stop | drop _ | receiveDrops _ => rfl
  | send message durable => rw [(send_phase s message durable).1]
  | sendEnds hi => rw [(sendEnds_phase _ _).1, Phase.loopStage_flushGoesOn]
  | discovered printers hp =>
    rw [(send_phase _ _ _).1, hp]
    rfl
  | flushNext hp =>
    rename_i conn intervalMs call pending
    have hphase := (beginSend_phase (s.setPhase (.flushSending conn intervalMs pending)) call true).1
    rw [hp]
    rcases hphase with he | he <;> rw [he] <;> rfl
  | connect hp | connectRaises _ hp | authSent hp _ | authSendRaises hp | replyRaises hp _ | authenticated hp _
  | rejected hp _ | noReply _ hp | intervalOverflows _ hp _ | statusRaises _ hp | flushed hp | discoveryFails hp
  | synced hp _ | receiveRaises hp _ | receive hp _ | handled hp | handlerRaises hp _ | ends _ hp =>
    rw [hp]
    rfl

end Client

/-! ## the attempts -/

/-- the retries in a row that failed; the attempts are the last one first, and the very first is no retry -/
def failedRetries : List Attempt → Nat
  | [] => 0
  | attempt :: earlier => if attempt.authenticated || earlier.isEmpty then 0 else failedRetries earlier + 1

/-- `backoff_index` between two attempts -/
def indexAfter (attempts : List Attempt) : Nat := if attempts.isEmpty then 0 else failedRetries attempts + 1

theorem failedRetries_cons (began : ℚ) (attempts : List Attempt) :
    failedRetries (⟨began, false⟩ :: attempts) = indexAfter attempts := by
  cases attempts <;> rfl

/-- from each attempt to the next one the delay passes -/
def AttemptsSpaced (early : ℚ) (attempts : List Attempt) : Prop :=
  ∀ later b a earlier, attempts = later ++ b :: a :: earlier →
    a.began + backoffDelay (failedRetries (a :: earlier)) ≤ b.began + early

section AttemptsSpaced
variable {early : ℚ} {attempts : List Attempt} {b : Attempt}

theorem AttemptsSpaced.cons (h : AttemptsSpaced early attempts)
    (hb : ∀ a earlier, attempts = a :: earlier → a.began + backoffDelay (failedRetries attempts) ≤ b.began + early) :
    AttemptsSpaced early (b :: attempts) := by
  intro later b' a earlier he
  cases later with
  | nil =>
    obtain ⟨rfl, rfl⟩ := List.cons.inj he
    exact hb a earlier rfl
  | cons c later =>
    obtain ⟨rfl, hrest⟩ := List.cons.inj he
    exact h later b' a earlier hrest

theorem AttemptsSpaced.authenticated (h : AttemptsSpaced early attempts) :
    AttemptsSpaced early (attempts.modifyHead fun attempt => { attempt with authenticated := true }) := by
  cases attempts with
  | nil => exact h
  | cons b attempts =>
    intro later b' a earlier he
    cases later with
    | nil =>
      obtain ⟨rfl, hrest⟩ := List.cons.inj he
      exact h [] b a earlier (by rw [hrest]; rfl)
    | cons c later =>
      obtain ⟨-, hrest⟩ := List.cons.inj he
      exact h (b :: later) b' a earlier (by rw [hrest]; rfl)

end AttemptsSpaced

theorem backoffDelay_le (backoffIndex : Nat) : backoffDelay backoffIndex ≤ 60 := by
  have hmin : min backoffIndex (reconnectBackoffSchedule.length - 1) < 6 :=
    Nat.lt_of_le_of_lt (Nat.min_le_right ..) (by decide)
  unfold backoffDelay
  generalize min backoffIndex (reconnectBackoffSchedule.length - 1) = i at hmin ⊢
  interval_cases i <;> decide +kernel

namespace Paced
variable {early : ℚ} {s s' : Paced}

/-- what the times of `run_forever` are -/
structure Backs (early : ℚ) (s : Paced) : Prop where
  spaced : AttemptsSpaced early s.notes.attempts
  began : ∀ attempt ∈ s.notes.attempts, attempt.began ≤ s.now
  trying : s.inner.client.phase.loopStage = .trying →
    s.notes.attempts ≠ [] ∧ s.notes.backoffIndex = failedRetries s.notes.attempts
  resting : s.inner.client.phase.loopStage = .head ∨ s.inner.client.phase.loopStage = .backoff →
    s.notes.backoffIndex = indexAfter s.notes.attempts
  waits : s.inner.client.phase.loopStage = .backoff → ∀ attempt ∈ s.notes.attempts.head?,
    attempt.began + backoffDelay (failedRetries s.notes.attempts) ≤ s.notes.backoffUntil
  short : s.inner.client.phase.loopStage = .backoff → s.notes.backoffUntil ≤ s.now + 60
  passed : s.inner.client.phase.loopStage = .head → s.inner.client.stopped = false →
    ∀ attempt ∈ s.notes.attempts.head?,
      attempt.began + backoffDelay (failedRetries s.notes.attempts) ≤ s.now + early

theorem backs_init (early start : ℚ) : Backs early ⟨.init, start, .init start⟩ where
  spaced later b a earlier he := by cases later <;> cases he
  began _ ha := absurd ha List.not_mem_nil
  trying h := by cases h
  resting _ := rfl
  waits h := by cases h
  short h := by cases h
  passed _ _ _ ha := by cases ha

theorem Backs.quiet (h : Backs early s) (hle : s.now ≤ s'.now)
    (hattempts : s'.notes.attempts = s.notes.attempts) (hindex : s'.notes.backoffIndex = s.notes.backoffIndex)
    (huntil : s'.notes.backoffUntil = s.notes.backoffUntil)
    (hstage : s'.inner.client.phase.loopStage = s.inner.client.phase.loopStage)
    (hstopped : s.inner.client.stopped = true → s'.inner.client.stopped = true) : Backs early s' where
  spaced := hattempts ▸ h.spaced
  began attempt ha := le_trans (h.began attempt (hattempts ▸ ha)) hle
  trying hs := by
    rw [hattempts, hindex]
    exact h.trying (hstage ▸ hs)
  resting hs := by
    rw [hattempts, hindex]
    exact h.resting (hstage ▸ hs)
  waits hs := by
    rw [hattempts, huntil]
    exact h.waits (hstage ▸ hs)
  short hs := by
    have hshort := h.short (hstage ▸ hs)
    rw [huntil]
    linarith
  passed hs hrun attempt ha := by
    rw [hattempts] at ha ⊢
    have hpassed := h.passed (hstage ▸ hs) (by
      cases hc : s.inner.client.stopped with
      | false => rfl
      | true =>
        rw [hstopped hc] at hrun
        cases hrun) attempt ha
    linarith

section Step
variable {limits : Limits} {validate : InboundModel → Value → Except Exc (InboundHubMessage Str)} {client : Client}
  {now : ℚ}

theorem Backs.iterate (h : Backs early s) (hle : s.now ≤ now)
    (hstep : s.inner.client.step limits validate .iterate = some client) :
    Backs early ⟨⟨client, s.inner.heartbeat⟩, now, s.note ⟨client, s.inner.heartbeat⟩ now (.client .iterate)⟩ := by
  cases Client.step_cases hstep with
  | iterate hp =>
    have hhead : s.inner.client.phase.loopStage = .head := by rw [hp]; rfl
    cases hs : s.inner.client.stopped with
    | true =>
      refine ⟨h.spaced, fun attempt ha => le_trans (h.began attempt ha) hle, ?_, ?_, ?_, ?_, ?_⟩ <;>
        intro hstage <;> simp [Client.setPhase, Phase.loopStage] at hstage
    | false =>
      have hspaced : AttemptsSpaced early (⟨now, false⟩ :: s.notes.attempts) := by
        refine h.spaced.cons fun a earlier he => ?_
        have hpassed := h.passed hhead hs a (by rw [he]; rfl)
        show _ ≤ now + early
        linarith
      refine ⟨hspaced, ?_, ?_, ?_, ?_, ?_, ?_⟩
      · intro attempt ha
        rcases List.mem_cons.mp ha with rfl | ha
        · exact le_refl now
        · exact le_trans (h.began attempt ha) hle
      · intro _
        refine ⟨List.cons_ne_nil _ _, ?_⟩
        show s.notes.backoffIndex = failedRetries (⟨now, false⟩ :: s.notes.attempts)
        rw [failedRetries_cons]
        exact h.resting (.inl hhead)
      all_goals intro hstage; simp [Client.setPhase, Phase.loopStage] at hstage

theorem Backs.reply {raw : Source} (h : Backs early s) (hle : s.now ≤ now)
    (hstep : s.inner.client.step limits validate (.reply raw) = some client) :
    Backs early ⟨⟨client, s.inner.heartbeat⟩, now, s.note ⟨client, s.inner.heartbeat⟩ now (.client (.reply raw))⟩ := by
  have hclient := Client.step_cases hstep
  have hstage := Client.stage_of_step rfl hclient
  cases hclient with
  | authenticated hp hd =>
    have htrying : s.inner.client.phase.loopStage = .trying := by rw [hp]; rfl
    obtain ⟨hne, -⟩ := h.trying htrying
    obtain ⟨attempt, earlier, hattempts⟩ := List.exists_cons_of_ne_nil hne
    refine ⟨h.spaced.authenticated, ?_, ?_, ?_, ?_, ?_, ?_⟩
    · show ∀ attempt ∈ s.notes.attempts.modifyHead _, attempt.began ≤ now
      rw [hattempts]
      intro a ha
      rcases List.mem_cons.mp ha with rfl | ha
      · exact le_trans (h.began attempt (by rw [hattempts]; exact List.mem_cons_self)) hle
      · exact le_trans (h.began a (by rw [hattempts]; exact List.mem_cons_of_mem _ ha)) hle
    · intro _
      show s.notes.attempts.modifyHead _ ≠ [] ∧ 0 = failedRetries (s.notes.attempts.modifyHead _)
      rw [hattempts]
      exact ⟨List.cons_ne_nil _ _, rfl⟩
    all_goals intro hs; simp [Phase.loopStage] at hs
  | replyRaises hp hd => exact h.quiet hle rfl rfl rfl hstage id
  | rejected hp hd => exact h.quiet hle rfl rfl rfl hstage id

theorem Backs.disconnected {statusRaises : Option Exc} (h : Backs early s) (hle : s.now ≤ now)
    (hstep : s.inner.client.step limits validate (.disconnected statusRaises) = some client) :
    Backs early ⟨⟨client, s.inner.heartbeat⟩, now,
      s.note ⟨client, s.inner.heartbeat⟩ now (.client (.disconnected statusRaises))⟩ := by
  cases Client.step_cases hstep with
  | disconnected statusRaises hp =>
    rename_i exc
    obtain ⟨hne, hindex⟩ := h.trying (by rw [hp]; rfl)
    obtain ⟨attempt, earlier, hattempts⟩ := List.exists_cons_of_ne_nil hne
    have hbegan : ∀ a ∈ s.notes.attempts, a.began ≤ now := fun a ha => le_trans (h.began a ha) hle
    generalize hc : s.inner.client.disconnected exc statusRaises = client
    have hover : client.phase.loopStage = .over ∨ client.phase = .backoff := by
      rw [← hc]
      unfold Client.disconnected
      cases statusRaises.or (exc.filter fun e => !e.isCaught) with
      | some e => exact .inl rfl
      | none =>
        cases s.inner.client.stopped with
        | true => exact .inl rfl
        | false => exact .inr rfl
    rcases hover with hover | hbackoff
    · have hno : ∀ {st : LoopStage}, client.phase.loopStage = st → st ≠ .over → False := fun hs hne =>
        hne (hs.symm.trans hover)
      have hnotes : s.note ⟨client, s.inner.heartbeat⟩ now (.client (.disconnected statusRaises)) = s.notes :=
        if_neg fun he => hno (show client.phase.loopStage = .backoff by rw [he]; rfl) nofun
      rw [hnotes]
      exact ⟨h.spaced, hbegan, fun hs => (hno hs nofun).elim, fun hs => hs.elim (fun hs => (hno hs nofun).elim)
        fun hs => (hno hs nofun).elim, fun hs => (hno hs nofun).elim, fun hs => (hno hs nofun).elim,
        fun hs => (hno hs nofun).elim⟩
    · have hnotes : s.note ⟨client, s.inner.heartbeat⟩ now (.client (.disconnected statusRaises)) =
        s.notes.backOff now :=
        if_pos hbackoff
      have hstage : client.phase.loopStage = .backoff := by rw [hbackoff]; rfl
      rw [hnotes]
      refine ⟨h.spaced, hbegan, ?_, ?_, ?_, ?_, ?_⟩
      · intro hs
        rw [hstage] at hs
        cases hs
      · intro _
        show s.notes.backoffIndex + 1 = indexAfter s.notes.attempts
        rw [hindex, hattempts]
        rfl
      · intro _ a ha
        show a.began + _ ≤ now + backoffDelay s.notes.backoffIndex
        rw [hindex]
        have hmem : a ∈ s.notes.attempts := List.mem_of_mem_head? ha
        have hle' := hbegan a hmem
        show a.began + backoffDelay (failedRetries s.notes.attempts) ≤ _
        linarith
      · intro _
        have hdelay := backoffDelay_le s.notes.backoffIndex
        show now + backoffDelay s.notes.backoffIndex ≤ now + 60
        linarith
      · intro hs
        rw [hstage] at hs
        cases hs

theorem Backs.backoffEnds (h : Backs early s) (hle : s.now ≤ now) (hmay : s.may early now (.client .backoffEnds) = true)
    (hstep : s.inner.client.step limits validate .backoffEnds = some client) :
    Backs early ⟨⟨client, s.inner.heartbeat⟩, now, s.notes⟩ := by
  cases Client.step_cases hstep with
  | backoffEnds hp =>
    have hbackoff : s.inner.client.phase.loopStage = .backoff := by rw [hp]; rfl
    refine ⟨h.spaced, fun attempt ha => le_trans (h.began attempt ha) hle, ?_, fun _ => h.resting (.inr hbackoff), ?_,
      ?_, ?_⟩
    · intro hs
      cases hs
    · intro hs
      cases hs
    · intro hs
      cases hs
    · intro _ hrun attempt ha
      have hwaits := h.waits hbackoff attempt ha
      have hrun : s.inner.client.stopped = false := hrun
      simp only [may, hrun, Bool.false_or, decide_eq_true_eq] at hmay
      show _ ≤ now + early
      exact le_trans hwaits hmay

/-- **Every step keeps the times of `run_forever`.** -/
theorem Backs.step {t : ℚ} {a : LoopsAct} {l : Loops} (h : Backs early s) (hle : s.now ≤ t)
    (hmay : s.may early t a = true) (hloops : (loops limits validate).step s.inner a = some l) :
    Backs early ⟨l, t, s.note l t a⟩ := by
  have hstep : s.inner.step limits validate a = some l := hloops
  cases a with
  | client b =>
    obtain ⟨client, hclient, rfl⟩ := Option.map_eq_some_iff.mp hstep
    have hc := Client.step_cases hclient
    have hstopped : s.inner.client.stopped = true → client.stopped = true := fun hs => Client.stopped_of_step hs hc
    cases b with
    | iterate => exact h.iterate hle hclient
    | reply raw => exact h.reply hle hclient
    | disconnected statusRaises => exact h.disconnected hle hclient
    | backoffEnds => exact h.backoffEnds hle hmay hclient
    | flushed statusRaises =>
      have hstage := Client.stage_of_step rfl hc
      refine h.quiet hle ?_ ?_ ?_ hstage hstopped <;>
        simp only [note] <;> split <;> first | rfl | (split <;> rfl)
    | _ => exact h.quiet hle rfl rfl rfl (Client.stage_of_step rfl hc) hstopped
  | wake =>
    simp only [Loops.step] at hstep
    split at hstep <;> cases hstep
    refine h.quiet hle ?_ ?_ ?_ rfl id <;> simp only [note] <;> split <;>
      first | rfl | (unfold Clocks.usageIfDue; split <;> rfl)
  | sampled raises =>
    simp only [Loops.step] at hstep
    split at hstep <;> cases hstep
    obtain ⟨hphase, hst⟩ := Client.send_phase s.inner.client .heartbeat false
    exact h.quiet hle rfl rfl rfl (by rw [hphase]) fun hs => hst.trans hs
  | beaten statusRaises =>
    simp only [Loops.step] at hstep
    split at hstep
    · split at hstep <;> cases hstep
      exact h.quiet hle rfl rfl rfl rfl id
    · cases hstep

end Step

end Paced

/-! ## the heartbeats -/

namespace Paced
variable {early : ℚ} {s s' : Paced}

/-- `b` comes after `a`: by 5 seconds, and their samples by 55 -/
def BeatAfter (early : ℚ) (b a : Beat) : Prop :=
  a.sent + 5 ≤ b.sent + early ∧ ∀ u v, a.sampledAt = some u → b.sampledAt = some v → u + 55 ≤ v

/-- what the times of `_heartbeat_loop` are -/
structure Beats (early : ℚ) (s : Paced) : Prop where
  interval : 5 ≤ s.notes.interval
  spaced : s.notes.beats.Pairwise (BeatAfter early)
  sent : ∀ beat ∈ s.notes.beats, beat.sent ≤ s.now
  waiting : s.inner.heartbeat = .waiting → ∀ beat ∈ s.notes.beats, beat.sent + 5 ≤ s.notes.beatUntil
  sampling : s.inner.heartbeat = .sampling → ∀ beat ∈ s.notes.beats, beat.sent + 5 ≤ s.now + early
  sampled : ∀ beat ∈ s.notes.beats, ∀ u, beat.sampledAt = some u → u ≤ s.notes.lastUsageAt
  pending : ∀ v, s.notes.sampledAt = some v → v = s.notes.lastUsageAt ∧
    ∀ beat ∈ s.notes.beats, ∀ u, beat.sampledAt = some u → u + 55 ≤ v

theorem beats_init (early start : ℚ) : Beats early ⟨.init, start, .init start⟩ where
  interval := show (5 : ℚ) ≤ heartbeatIntervalSeconds by decide +kernel
  spaced := .nil
  sent _ hb := absurd hb List.not_mem_nil
  waiting _ _ hb := absurd hb List.not_mem_nil
  sampling h := by cases h
  sampled _ hb := absurd hb List.not_mem_nil
  pending _ h := by cases h

/-- a step of `run_forever` leaves the times of `_heartbeat_loop` as they are, the interval apart -/
theorem Beats.quiet (h : Beats early s) (hle : s.now ≤ s'.now) (hinterval : 5 ≤ s'.notes.interval)
    (hheartbeat : s'.inner.heartbeat = s.inner.heartbeat) (huntil : s'.notes.beatUntil = s.notes.beatUntil)
    (husage : s'.notes.lastUsageAt = s.notes.lastUsageAt) (hsampled : s'.notes.sampledAt = s.notes.sampledAt)
    (hbeats : s'.notes.beats = s.notes.beats) : Beats early s' where
  interval := hinterval
  spaced := hbeats ▸ h.spaced
  sent beat hb := le_trans (h.sent beat (hbeats ▸ hb)) hle
  waiting hs := by
    rw [hbeats, huntil]
    exact h.waiting (hheartbeat ▸ hs)
  sampling hs beat hb := by
    have hsampling := h.sampling (hheartbeat ▸ hs) beat (hbeats ▸ hb)
    linarith
  sampled := by
    rw [hbeats, husage]
    exact h.sampled
  pending := by
    rw [hbeats, husage, hsampled]
    exact h.pending

section Step
variable {limits : Limits} {validate : InboundModel → Value → Except Exc (InboundHubMessage Str)} {now : ℚ}

/-- what `run_forever` notes leaves the times of `_heartbeat_loop` as they are, the interval apart -/
theorem note_client (now : ℚ) (l : Loops) (b : ClientAct) (hinterval : 5 ≤ s.notes.interval) :
    5 ≤ (s.note l now (.client b)).interval ∧ (s.note l now (.client b)).beatUntil = s.notes.beatUntil ∧
      (s.note l now (.client b)).lastUsageAt = s.notes.lastUsageAt ∧
      (s.note l now (.client b)).sampledAt = s.notes.sampledAt ∧ (s.note l now (.client b)).beats = s.notes.beats := by
  have hsame : 5 ≤ s.notes.interval ∧ s.notes.beatUntil = s.notes.beatUntil ∧
      s.notes.lastUsageAt = s.notes.lastUsageAt ∧ s.notes.sampledAt = s.notes.sampledAt ∧
      s.notes.beats = s.notes.beats := ⟨hinterval, rfl, rfl, rfl, rfl⟩
  cases b with
  | iterate | reply raw | disconnected statusRaises =>
    simp only [note]
    split <;> exact hsame
  | flushed statusRaises =>
    simp only [note]
    split
    · split
      · exact hsame
      · exact ⟨le_max_right _ _, rfl, rfl, rfl, rfl⟩
    · exact hsame
  | _ => exact hsame

theorem Beats.wake {l : Loops} (h : Beats early s) (hle : s.now ≤ now) (hmay : s.may early now .wake = true)
    (hstep : s.inner.step limits validate .wake = some l) : Beats early ⟨l, now, s.note l now .wake⟩ := by
  have hsent : ∀ beat ∈ s.notes.beats, beat.sent ≤ now := fun beat hb => le_trans (h.sent beat hb) hle
  simp only [Loops.step] at hstep
  split at hstep
  · rename_i hwaiting
    cases hstep
    cases hstopped : s.inner.client.stopped with
    | true =>
      exact ⟨h.interval, h.spaced, hsent, (by rintro ⟨⟩), (by rintro ⟨⟩), h.sampled, h.pending⟩
    | false =>
      have hdue : s.notes.beatUntil ≤ now + early := by simpa [may, hstopped] using hmay
      cases hconnected : s.inner.client.connected with
      | false =>
        refine ⟨h.interval, h.spaced, hsent, fun _ beat hb => ?_, (by rintro ⟨⟩), h.sampled, h.pending⟩
        have hinterval := h.interval
        have hb := hsent beat hb
        show beat.sent + 5 ≤ now + s.notes.interval
        linarith
      | true =>
        have hsampling : ∀ beat ∈ s.notes.beats, beat.sent + 5 ≤ now + early := fun beat hb =>
          le_trans (h.waiting hwaiting beat hb) hdue
        by_cases husage : now - s.notes.lastUsageAt < 55
        · have hnotes : s.notes.usageIfDue now = { s.notes with sampledAt := none } := if_pos husage
          simp only [note, hnotes]
          exact ⟨h.interval, h.spaced, hsent, (by rintro ⟨⟩), fun _ => hsampling, h.sampled,
            (by rintro _ ⟨⟩)⟩
        · have hnotes : s.notes.usageIfDue now = { s.notes with lastUsageAt := now, sampledAt := some now } :=
            if_neg husage
          have hpassed : ∀ beat ∈ s.notes.beats, ∀ u, beat.sampledAt = some u → u + 55 ≤ now := by
            intro beat hb u hu
            have hlast := h.sampled beat hb u hu
            linarith
          simp only [note, hnotes]
          refine ⟨h.interval, h.spaced, hsent, (by rintro ⟨⟩), fun _ => hsampling, fun beat hb u hu => ?_,
            fun v hv => ?_⟩
          · have hu := hpassed beat hb u hu
            show u ≤ now
            linarith
          · cases hv
            exact ⟨rfl, hpassed⟩
  · cases hstep

theorem Beats.sampled_step {l : Loops} {raises : Bool} (h : Beats early s) (hle : s.now ≤ now)
    (hstep : s.inner.step limits validate (.sampled raises) = some l) :
    Beats early ⟨l, now, s.note l now (.sampled raises)⟩ := by
  have hpending : ∀ v, (if raises then none else s.notes.sampledAt) = some v → v = s.notes.lastUsageAt ∧
      ∀ beat ∈ s.notes.beats, ∀ u, beat.sampledAt = some u → u + 55 ≤ v := by
    intro v hv
    split at hv
    · cases hv
    · exact h.pending v hv
  simp only [Loops.step] at hstep
  split at hstep
  · rename_i hsampling
    cases hstep
    refine ⟨h.interval, .cons (fun beat hb => ⟨?_, fun u v hu hv => ?_⟩) h.spaced, fun beat hb => ?_,
      (by rintro ⟨⟩), (by rintro ⟨⟩), fun beat hb u hu => ?_, (by rintro _ ⟨⟩)⟩
    · have hb := h.sampling hsampling beat hb
      show beat.sent + 5 ≤ now + early
      linarith
    · exact (hpending v hv).2 beat hb u hu
    · rcases List.mem_cons.mp hb with rfl | hb
      · exact le_refl now
      · exact le_trans (h.sent beat hb) hle
    · rcases List.mem_cons.mp hb with rfl | hb
      · exact le_of_eq (hpending u hu).1
      · exact h.sampled beat hb u hu
  · cases hstep

/-- **Every step keeps the times of `_heartbeat_loop`.** -/
theorem Beats.step {t : ℚ} {a : LoopsAct} {l : Loops} (h : Beats early s) (hle : s.now ≤ t)
    (hmay : s.may early t a = true) (hloops : (loops limits validate).step s.inner a = some l) :
    Beats early ⟨l, t, s.note l t a⟩ := by
  have hstep : s.inner.step limits validate a = some l := hloops
  cases a with
  | client b =>
    obtain ⟨client, hclient, rfl⟩ := Option.map_eq_some_iff.mp hstep
    obtain ⟨hinterval, huntil, husage, hsampled, hbeats⟩ := note_client t _ b h.interval
    exact h.quiet hle hinterval rfl huntil husage hsampled hbeats
  | wake => exact h.wake hle hmay hstep
  | sampled raises => exact h.sampled_step hle hstep
  | beaten statusRaises =>
    simp only [Loops.step] at hstep
    split at hstep
    · split at hstep
      · cases hstep
        refine ⟨h.interval, h.spaced, fun beat hb => le_trans (h.sent beat hb) hle, fun _ beat hb => ?_, ?_, h.sampled,
          h.pending⟩
        · have hinterval := h.interval
          have hb := h.sent beat hb
          show beat.sent + 5 ≤ t + s.notes.interval
          linarith
        · intro hs
          cases statusRaises <;> cases hs
      · cases hstep
    · cases hstep

end Step

end Paced

/-! ## the runs -/

section Runs
variable {limits : Limits} {validate : InboundModel → Value → Except Exc (InboundHubMessage Str)} {early start : ℚ}
  {s : Paced}

theorem paced_invariant {I : Paced → Prop} (hinit : I ⟨.init, start, .init start⟩)
    (hstep : ∀ s t a l, I s → s.now ≤ t → s.may early t a = true → (loops limits validate).step s.inner a = some l →
      I ⟨l, t, s.note l t a⟩)
    (h : (paced limits validate early start).Reach Machine.Any s) : I s := by
  have htimed :
      ((loops limits validate).timed (Paced.may early) Paced.note start (.init start)).Reach Machine.Any s := h
  exact htimed.invariant_timed hinit fun s t a l _ hs _ hle hmay hl => hstep s t a l hs hle hmay hl

/-- **Attempts to connect back off.**  From one attempt to the next passes at least the delay that the schedule has
for the retries in a row that failed, whatever ends the attempts; and the agent never waits more than 60 seconds. -/
theorem attempts_spaced (h : (paced limits validate early start).Reach Machine.Any s) :
    (∀ later b a earlier, s.notes.attempts = later ++ b :: a :: earlier →
      a.began + backoffDelay (failedRetries (a :: earlier)) ≤ b.began + early) ∧
    (s.inner.client.phase = .backoff → s.notes.backoffUntil ≤ s.now + 60) := by
  have hbacks : Paced.Backs early s :=
    paced_invariant (Paced.backs_init early start) (fun _ _ _ _ hs hle hmay hl => hs.step hle hmay hl) h
  exact ⟨hbacks.spaced, fun hp => hbacks.short (by rw [hp]; rfl)⟩

end Runs

/-- two attempts fail, the third one authenticates, and its connection breaks half a minute later -/
def Paced.outage : List (ℚ × LoopsAct) :=
  [(0, .client .iterate), (0, .client (.connect (some .osError))), (0, .client (.disconnected none)),
    (1, .client .backoffEnds), (1, .client .iterate), (16, .client (.connect (some .timeoutError))),
    (16, .client (.disconnected none)), (18, .client .backoffEnds), (18, .client .iterate),
    (18, .client (.connect none)), (18, .client .authSent), (18, .client (.reply Client.Schedule.authenticatedFrame)),
    (18, .client (.flushed none)), (19, .client (.discovered none)), (50, .client (.ends false)),
    (50, .client (.disconnected none)), (51, .client .backoffEnds), (51, .client .iterate)]

theorem outage_isSome :
    ((paced Client.Schedule.limits Client.Schedule.validate (1 / 1000) 0).run
      (paced Client.Schedule.limits Client.Schedule.validate (1 / 1000) 0).init Paced.outage).isSome = true := by
  decide +kernel

/-- the second delay of that run is 2 seconds, the one after the connection 1 again -/
theorem attempts_spaced_outage :
    ((paced Client.Schedule.limits Client.Schedule.validate (1 / 1000) 0).after Paced.outage
        outage_isSome).notes.attempts = [⟨51, false⟩, ⟨18, true⟩, ⟨1, false⟩, ⟨0, false⟩] ∧
    (1 + 2 ≤ (18 + 1 / 1000 : ℚ)) ∧ (18 + 1 ≤ (51 + 1 / 1000 : ℚ)) := by
  have hattempts := Machine.any_after (M := paced Client.Schedule.limits Client.Schedule.validate (1 / 1000) 0)
    (p := fun s => s.notes.attempts = [⟨51, false⟩, ⟨18, true⟩, ⟨1, false⟩, ⟨0, false⟩]) outage_isSome
      (by decide +kernel)
  have hattempts := of_decide_eq_true hattempts
  have hspaced := (attempts_spaced (.after Paced.outage outage_isSome)).1
  exact ⟨hattempts, hspaced [⟨51, false⟩] ⟨18, true⟩ ⟨1, false⟩ [⟨0, false⟩] hattempts,
    hspaced [] ⟨51, false⟩ ⟨18, true⟩ [⟨1, false⟩, ⟨0, false⟩] hattempts⟩

section Runs
variable {limits : Limits} {validate : InboundModel → Value → Except Exc (InboundHubMessage Str)} {early start : ℚ}
  {s : Paced}

/-- **Heartbeats keep their distance.**  Whatever `heartbeatIntervalMs` the hub asks for, and however often the
connection is lost and made, two heartbeats are 5 seconds apart, and the samples of the usage that they carry 55. -/
theorem heartbeats_spaced (h : (paced limits validate early start).Reach Machine.Any s) :
    s.notes.beats.Pairwise fun b a =>
      a.sent + 5 ≤ b.sent + early ∧ ∀ u v, a.sampledAt = some u → b.sampledAt = some v → u + 55 ≤ v := by
  have hbeats : Paced.Beats early s :=
    paced_invariant (Paced.beats_init early start) (fun _ _ _ _ hs hle hmay hl => hs.step hle hmay hl) h
  exact hbeats.spaced

end Runs

def Paced.beating : List (ℚ × LoopsAct) :=
  [(100, .client .iterate), (100, .client (.connect none)), (100, .client .authSent),
    (100, .client (.reply Client.Schedule.authenticatedFrame)), (100, .client (.flushed none)),
    (101, .client (.discovered none)), (130, .wake), (131, .sampled false), (131, .client (.sendEnds 0)),
    (131, .beaten none), (161, .wake), (161, .sampled false)]

theorem beating_isSome :
    ((paced Client.Schedule.limits Client.Schedule.validate (1 / 1000) 100).run
      (paced Client.Schedule.limits Client.Schedule.validate (1 / 1000) 100).init Paced.beating).isSome = true := by
  decide +kernel

/-- only the first one carries usage -/
theorem heartbeats_spaced_beating :
    ((paced Client.Schedule.limits Client.Schedule.validate (1 / 1000) 100).after Paced.beating
        beating_isSome).notes.beats = [⟨161, none⟩, ⟨131, some 130⟩] ∧ 131 + 5 ≤ (161 + 1 / 1000 : ℚ) := by
  have hbeats := Machine.any_after (M := paced Client.Schedule.limits Client.Schedule.validate (1 / 1000) 100)
    (p := fun s => s.notes.beats = [⟨161, none⟩, ⟨131, some 130⟩]) beating_isSome (by decide +kernel)
  have hbeats := of_decide_eq_true hbeats
  have hspaced := heartbeats_spaced (.after Paced.beating beating_isSome)
  rw [hbeats] at hspaced
  exact ⟨hbeats, (List.rel_of_pairwise_cons hspaced List.mem_cons_self).1⟩

end PrintAgent
