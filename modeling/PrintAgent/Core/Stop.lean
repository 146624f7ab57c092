import PrintAgent.Core.Process

/-!
# What `stop` stops

`Agent.stop` only sets the event that the loops look at between two connections or two waits.  So after it
`run_forever` makes no further connection, but the connection that is up goes on as long as the hub keeps
it, and frames on it are passed and jobs started.  `run` closes the store once that connection has ended
and no handler runs; it does not wait for the `_process` tasks.

* `Process.Since`    what can have happened since the call;
* `Job.Attended`     a row is `PRINTING` only while its task works on it, as long as no cancel comes in;
* `Process.Frozen`   what does not change any more once the store is closed;
* `stop_ends`        the three together; `stop_not_clean` is a frame passed after the call, and a document
                     that is printed and reported as failed at the next start.
-/

namespace PrintAgent

/-! ## the rows that are left `PRINTING` -/

theorem Await.Ends.not_printing {c inTry : Bool} {a : Await} {ans : Answer} (h : Ends c a ans inTry) :
    ¬ a.Expects true .printing := by
  intro he
  cases h with
  | completed ans => cases he
  | failed errorCode message ans => cases he
  | vanished => cases he
  | raised ha message => cases (expects_of_isEarly ha).mp he
  | cancelled ha hc ans => cases (expects_of_isEarly ha).mp he

theorem Flow.ne_ended {c : Bool} {a b : Await} (h : Flow c a b) : b ≠ .ended := by
  rintro rfl
  cases h with
  | early _ hb => cases hb

namespace Job

structure Attended (x : Job) : Prop where
  /-- a row is `PRINTING` before startup recovery has marked it, and while its task is live -/
  printing : x.status = some .printing → x.life = .down ∨ x.life = .marking none ∨
    ∃ t, x.task = some t ∧ t.isLive = true
  /-- no cancel is on its way -/
  handler : ∀ h, x.handler = some h → h.await ≠ .getRecord ∧ h.await ≠ .setCancelled
  leftBehind : x.leftBehind = []

theorem attended_of_down {x : Job} (hl : x.life = .down) (hh : x.handler = none)
    (hn : x.leftBehind = []) : x.Attended where
  printing _ := .inl hl
  handler h hh' := by rw [hh] at hh'; cases hh'
  leftBehind := hn

variable {jobId : String} {x y : Job} {b : JobAct}

/-- the task that works on a row stays until it has written something else -/
theorem live_stays (hb : x.Base) (h : x.Attended) (hs : Step jobId x b y) (hcrash : b ≠ .crash)
    {t : Task} (ht : x.task = some t) (hl : t.isLive = true) (hst : x.status = some .printing) :
    ∃ t, y.task = some t ∧ t.isLive = true := by
  have hsame : ∀ {t'}, x.task = some t' → t' = t := fun ht' => Option.some.inj (ht'.symm.trans ht)
  have hexp := hb.live t ht hl _ hst
  have htask := task_step hs
  generalize y.task = o at htask
  cases htask with
  | same _ he => exact ⟨t, he.trans ht, hl⟩
  | created => exact ⟨_, rfl, rfl⟩
  | cancelled hh ha => exact absurd ha (h.handler _ hh).1
  | answered ans ht' hl' => exact ⟨_, rfl, hl'⟩
  | went pathExists socket ht' _ hfut hf =>
    exact ⟨_, rfl, Task.isLive_of rfl hf.ne_ended⟩
  | ended pathExists socket ht' _ hfut hends =>
    rw [hsame ht'] at hfut hends
    rw [hfut] at hexp
    exact absurd hexp hends.not_printing
  | thrown ht' hdead =>
    rw [hsame ht', hl] at hdead
    cases hdead
  | gone => exact absurd rfl hcrash

theorem life_of_down (hs : Step jobId x b y) (hl : x.life = .down) :
    y.life = .down ∨ y.life = .marking none := by
  cases hs with
  | boot => exact .inr rfl
  | markStuck now h => rw [hl] at h; cases h
  | handStuck h => rw [hl] at h; cases h
  | listRows h => rw [hl] at h; cases h
  | resumeRows h => rw [hl] at h; cases h
  | handlerCancelTask => exact .inl ((x.cancelTask_life jobId).trans hl)
  | crash => exact .inl rfl
  | _ => exact .inl hl

theorem life_of_marking (hs : Step jobId x b y) (hl : x.life = .marking none) :
    y.life = .down ∨ y.life = .marking none ∨ ∃ now, b = .markStuck now := by
  cases hs with
  | boot h => rw [hl] at h; cases h
  | markStuck now => exact .inr (.inr ⟨now, rfl⟩)
  | handStuck h => rw [hl] at h; cases h
  | listRows h => rw [hl] at h; cases h
  | resumeRows h => rw [hl] at h; cases h
  | handlerCancelTask => exact .inr (.inl ((x.cancelTask_life jobId).trans hl))
  | crash => exact .inl rfl
  | _ => exact .inr (.inl hl)

theorem status_markStuck {now : String} (hs : Step jobId x (.markStuck now) y) :
    y.status ≠ some .printing := by
  cases hs with
  | markStuck now hl =>
    intro hst
    obtain ⟨row, hrow, hst⟩ := status_eq_some.mp hst
    obtain ⟨row', _, rfl⟩ := Option.map_eq_some_iff.mp hrow
    by_cases hp : row'.status = .printing
    · rw [if_pos hp] at hst
      cases hst
    · rw [if_neg hp] at hst
      exact hp hst

theorem attended_printing (hb : x.Base) (h : x.Attended) (hs : Step jobId x b y)
    (hst : y.status = some .printing) :
    y.life = .down ∨ y.life = .marking none ∨ ∃ t, y.task = some t ∧ t.isLive = true := by
  by_cases hcrash : b = .crash
  · subst hcrash
    cases hs
    exact .inl rfl
  have hstat := status_step hs hb.leftCall
  rw [hst] at hstat
  cases hstat with
  | same he =>
    rcases h.printing he.symm with hl | hl | ⟨t, ht, hl⟩
    · rcases life_of_down hs hl with hy | hy
      · exact .inl hy
      · exact .inr (.inl hy)
    · rcases life_of_marking hs hl with hy | hy | ⟨now, rfl⟩
      · exact .inl hy
      · exact .inr (.inl hy)
      · exact absurd hst (status_markStuck hs)
    · exact .inr (.inr (live_stays hb h hs hcrash ht hl he.symm))
  | worked now ht hl =>
    cases hs with
    | taskCall _ ht' hc => exact .inr (.inr ⟨_, rfl, (Task.of_pendingStoreCall hc).1⟩)
  | left now hn =>
    rw [h.leftBehind] at hn
    cases hn

theorem attended_step (hb : x.Base) (h : x.Attended) (hs : Step jobId x b y) (hc : b ≠ .cancel) :
    y.Attended where
  printing := attended_printing hb h hs
  handler hd hh := by
    have hhand := handler_step hs
    generalize y.handler = o at hhand hh
    cases hhand with
    | same _ he => exact h.handler hd (he.symm.trans hh)
    | dispatch message _ => cases hh; exact ⟨by simp, by simp⟩
    | cancel => exact absurd rfl hc
    | called now hh' =>
      cases hh
      have hbefore := h.handler _ hh'
      exact hbefore
    | sent hh' =>
      cases hh
      have hbefore := h.handler _ hh'
      exact hbefore
    | went hh' _ hf =>
      cases hh
      constructor
      · rintro rfl
        exact hf.ne_getRecord
      · rintro rfl
        exact hf.ne_setCancelled
    | cancelling hh' ha => exact absurd ha (h.handler _ hh').1
    | creating => cases hh
    | ended => cases hh
    | gone => cases hh
  leftBehind := by
    rcases leftBehind_step hs with hsub | ⟨t, hd, record, _, _, hh, ha, _⟩
    · rw [h.leftBehind] at hsub
      exact List.eq_nil_of_sublist_nil hsub
    · exact absurd ha (h.handler hd hh).1

end Job

/-! ## what can have happened since the call -/

namespace Process

/-- the process since `stop` was called in `s₀` -/
structure Since (s₀ s : Process) : Prop where
  stopped : s.stopped = true
  /-- no connection attempt is begun -/
  attempts : s.attempts = s₀.attempts
  /-- frames are passed on the connection that was up, or being made -/
  passed : ∃ frames, s.passed = s₀.passed ++ frames ∧ ∀ f ∈ frames, f.1 = s₀.attempts
  /-- if there was none, no frame is passed -/
  offline : s₀.round ≠ .connection → s.round ≠ .connection ∧ s.passed = s₀.passed
  /-- once startup recovery is over, a job is started only by a dispatch on that connection -/
  started : s₀.agent.life = .running → s.agent.life = .running ∧ ∀ j,
    (s.agent.slots j).tasks.length = (s₀.agent.slots j).tasks.length ∨
      s₀.round = .connection ∧ ∃ message, (s₀.attempts, .dispatch message) ∈ s.passed ∧ message.jobId = j

variable {s₀ s s' : Process} {a : ProcessAct}

theorem Since.start (h : s₀.step .stop = some s) : Since s₀ s := by
  cases h
  exact {
    stopped := rfl
    attempts := rfl
    passed := ⟨[], (List.append_nil _).symm, fun f hf => by cases hf⟩
    offline := fun hr => ⟨hr, rfl⟩
    started := fun hl => ⟨hl, fun j => .inl rfl⟩ }

theorem Since.of_agent (hf : s.Fits) (h : Since s₀ s) {agent : Agent} (frames : List InboundHubMessage)
    (hframes : frames ≠ [] → s.round = .connection)
    (hlife : s.agent.life = .running → agent.life = .running)
    (htasks : s.agent.life = .running → ∀ j,
      (agent.slots j).tasks.length = (s.agent.slots j).tasks.length ∨
        ∃ hd, s.agent.ws.loop = .handling hd ∧ hd.jobId = j ∧ hd.await = .sendReceived) :
    Since s₀ { s with agent := agent, passed := s.passed ++ frames.map fun m => (s.attempts, m) } where
  stopped := h.stopped
  attempts := h.attempts
  passed := by
    obtain ⟨old, hold, hnum⟩ := h.passed
    refine ⟨old ++ frames.map fun m => (s.attempts, m), by rw [hold, List.append_assoc], fun f hf => ?_⟩
    rcases List.mem_append.mp hf with hf | hf
    · exact hnum f hf
    · obtain ⟨m, _, rfl⟩ := List.mem_map.mp hf
      exact h.attempts
  offline hr := by
    obtain ⟨hne, hsame⟩ := h.offline hr
    have hnil : frames = [] := by
      by_contra hno
      exact hne (hframes hno)
    refine ⟨hne, ?_⟩
    rw [hnil, List.map_nil, List.append_nil]
    exact hsame
  started hl := by
    obtain ⟨hrun, hj⟩ := h.started hl
    refine ⟨hlife hrun, fun j => ?_⟩
    have hkept : ∀ {f}, f ∈ s.passed → f ∈ s.passed ++ frames.map fun m => (s.attempts, m) :=
      fun hf => List.mem_append_left _ hf
    rcases hj j with hsame | ⟨hconn, message, hm, hmj⟩
    · rcases htasks hrun j with hsame' | ⟨hd, hw, hdj, ha⟩
      · exact .inl (hsame'.trans hsame)
      · obtain ⟨message, hm, hmj⟩ := hf.handler hd hw (by rw [ha]; rfl)
        have hconn : s₀.round = .connection := by
          by_contra hne
          exact hf.idle (h.offline hne).1 hd hw
        rw [h.attempts] at hm
        exact .inr ⟨hconn, message, hkept hm, hmj.trans hdj⟩
    · exact .inr ⟨hconn, message, hkept hm, hmj⟩

theorem Since.of_round (h : Since s₀ s) {round : Round} (hr : round ≠ .connection) :
    Since s₀ { s with round := round } where
  stopped := h.stopped
  attempts := h.attempts
  passed := h.passed
  offline hr₀ := ⟨hr, (h.offline hr₀).2⟩
  started := h.started

theorem since_step (hf : s.Fits) (h : Since s₀ s) (hcrash : a ≠ .crash) (hs : s.step a = some s') :
    Since s₀ s' := by
  have hplain : ∀ {agent : Agent}, (s.agent.life = .running → agent.life = .running) →
      (s.agent.life = .running → ∀ j, (agent.slots j).tasks.length = (s.agent.slots j).tasks.length ∨
        ∃ hd, s.agent.ws.loop = .handling hd ∧ hd.jobId = j ∧ hd.await = .sendReceived) →
      Since s₀ { s with agent := agent } := by
    intro agent hlife htasks
    have hsince := h.of_agent hf [] (fun hno => absurd rfl hno) hlife htasks
    rwa [List.map_nil, List.append_nil] at hsince
  have hslot : ∀ (jobId : String) {slot : Slot},
      slot.tasks.length = (s.agent.slots jobId).tasks.length →
      Since s₀ { s with agent := s.agent.setSlot jobId slot } :=
    fun jobId _ hn => hplain id fun _ j => .inl (Agent.tasks_setSlot hn)
  cases a with
  | agent b =>
    obtain ⟨htakes, agent, hb, rfl⟩ := of_step_agent hs
    have hgoes := Agent.step_goes hb fun he => by
      rw [he, takes_crash] at htakes
      cases htakes
    exact hplain hgoes.life hgoes.tasks
  | frame message =>
    obtain ⟨agent, hm, rfl⟩ := Option.map_eq_some_iff.mp hs
    obtain ⟨hw, hstep⟩ := Agent.receive_step hm
    have hconn := hf.socket (by simp [WsClient.socket, hw])
    refine h.of_agent hf [message] (fun _ => hconn) ?_ ?_
    · rcases hstep with rfl | ⟨m, _, hb⟩ | ⟨m, _, hb⟩
      · exact id
      · exact (Agent.step_goes hb (by simp)).life
      · exact (Agent.step_goes hb (by simp)).life
    · rcases hstep with rfl | ⟨m, _, hb⟩ | ⟨m, _, hb⟩
      · exact fun _ j => .inl rfl
      · exact (Agent.step_goes hb (by simp)).tasks
      · exact (Agent.step_goes hb (by simp)).tasks
  | stop =>
    cases hs
    exact { h with stopped := rfl }
  | iterate =>
    simp only [step] at hs
    split at hs <;> cases hs
    rw [if_pos h.stopped]
    exact h.of_round (by decide)
  | refused =>
    simp only [step] at hs
    split at hs <;> cases hs
    exact h.of_round (by decide)
  | disconnect =>
    obtain ⟨agent, hb, rfl⟩ := Option.map_eq_some_iff.mp hs
    have hgoes := Agent.step_goes hb (by simp)
    exact (hplain hgoes.life hgoes.tasks).of_round (by decide)
  | disconnected =>
    simp only [step] at hs
    split at hs <;> cases hs
    exact h.of_round (by split <;> decide)
  | backoffEnds =>
    simp only [step] at hs
    split at hs <;> cases hs
    exact h.of_round (by decide)
  | heartbeatEnds =>
    simp only [step] at hs
    split at hs <;> cases hs
    exact { h with }
  | syncEnds =>
    simp only [step] at hs
    split at hs <;> cases hs
    exact { h with }
  | close =>
    simp only [step] at hs
    split at hs <;> cases hs
    exact { h with }
  | callRaises jobId i =>
    obtain ⟨t, _, hs⟩ := Option.bind_eq_some_iff.mp hs
    split at hs <;> cases hs
    exact hslot jobId (Agent.tasks_endTask _ i _)
  | cancelLeft jobId i =>
    obtain ⟨t, _, hs⟩ := Option.bind_eq_some_iff.mp hs
    split at hs <;> cases hs
    exact hslot jobId (Agent.tasks_setTask _ i _)
  | crash => exact absurd rfl hcrash

/-! ## at the close, and after it -/

/-- the job was cancelled by a frame of this process -/
def WasCancelled (s : Process) (jobId : String) : Prop :=
  ∃ n message, (n, .cancel message) ∈ s.passed ∧ message.jobId = jobId

/-- while the store is open each row is attended, unless the job was cancelled -/
def Attends (s : Process) : Prop :=
  s.closed = false → ∀ j, (s.agent.view j).Attended ∨ s.WasCancelled j

theorem attends_init : Attends init := fun _ _ => .inl (Job.attended_of_down rfl rfl rfl)

theorem attended_step (hf : s.Fits) (ho : s.closed = false) {j : String} {b : Act} {agent : Agent}
    (h : (s.agent.view j).Attended) (hb : s.agent.step b = some agent)
    (hc : s.agent.seen j b ≠ some .cancel) : (agent.view j).Attended := by
  rcases (hf.sound ho).seen_step hb with ⟨hsame, _⟩ | ⟨c, hseen, _, hstep⟩
  · rw [hsame]
    exact h
  · exact Job.attended_step (hf.base ho j) h hstep fun he => hc (he ▸ hseen)

theorem attends_step (hf : s.Fits) (h : s.Attends) (hs : s.step a = some s') : s'.Attends := by
  cases a with
  | agent b =>
    obtain ⟨htakes, agent, hb, rfl⟩ := of_step_agent hs
    intro ho j
    rcases h ho j with hj | hj
    · refine .inl (attended_step hf ho hj hb fun hc => ?_)
      obtain ⟨m, rfl⟩ := Agent.cancel_of_seen hc
      cases htakes
    · exact .inr hj
  | frame message =>
    obtain ⟨agent, hm, rfl⟩ := Option.map_eq_some_iff.mp hs
    intro ho j
    have hkept : ∀ {f}, f ∈ s.passed → f ∈ s.passed ++ [(s.attempts, message)] :=
      fun hf => List.mem_append_left _ hf
    rcases h ho j with hj | ⟨n, m, hmem, hmj⟩
    · rcases (Agent.receive_step hm).2 with rfl | ⟨m, rfl, hb⟩ | ⟨m, rfl, hb⟩
      · exact .inl hj
      · refine .inl (attended_step hf ho hj hb fun hc => ?_)
        obtain ⟨_, he⟩ := Agent.cancel_of_seen hc
        cases he
      · by_cases hmj : m.jobId = j
        · exact .inr ⟨s.attempts, m, List.mem_append_right _ (List.mem_singleton.mpr rfl), hmj⟩
        · exact .inl (attended_step hf ho hj hb (by simp [Agent.seen, hmj]))
    · exact .inr ⟨n, m, hkept hmem, hmj⟩
  | stop =>
    cases hs
    exact h
  | iterate =>
    simp only [step] at hs
    split at hs <;> cases hs
    split <;> exact h
  | disconnect =>
    obtain ⟨agent, hb, rfl⟩ := Option.map_eq_some_iff.mp hs
    intro ho j
    rcases h ho j with hj | hj
    · exact .inl (attended_step hf ho hj hb (by simp [Agent.seen]))
    · exact .inr hj
  | close =>
    simp only [step] at hs
    split at hs <;> cases hs
    intro ho
    cases ho
  | callRaises jobId i =>
    obtain ⟨t, _, hs⟩ := Option.bind_eq_some_iff.mp hs
    split at hs <;> cases hs
    rename_i hc
    intro ho
    have ho : s.closed = false := ho
    rw [ho] at hc
    cases hc
  | cancelLeft jobId i =>
    obtain ⟨t, _, hs⟩ := Option.bind_eq_some_iff.mp hs
    split at hs <;> cases hs
    rename_i hc
    intro ho
    have ho : s.closed = false := ho
    rw [ho] at hc
    cases hc
  | crash =>
    cases hs
    exact fun _ j => .inl (Job.attended_of_down rfl rfl rfl)
  | _ =>
    simp only [step] at hs
    split at hs <;> cases hs
    exact h

/-- what stays as it was when the store was closed in `s₀` -/
structure Frozen (s₀ s : Process) : Prop where
  closed : s.closed = true
  attempts : s.attempts = s₀.attempts
  passed : s.passed = s₀.passed
  store : s.agent.store = s₀.agent.store
  tasks : ∀ j, (s.agent.slots j).tasks.length = (s₀.agent.slots j).tasks.length

theorem Frozen.start (hc : s.closed = true) : Frozen s s := ⟨hc, rfl, rfl, rfl, fun _ => rfl⟩

theorem frozen_step (hf : s.Fits) (h : Frozen s₀ s) (hcrash : a ≠ .crash) (hs : s.step a = some s') :
    Frozen s₀ s' := by
  have hret := hf.closed h.closed
  have hne : s.round ≠ .connection := by rw [hret]; decide
  have hoff := hf.offline hne
  have hrun := hf.running (by rw [hret]; decide)
  have hslot : ∀ (jobId : String) {slot : Slot},
      slot.tasks.length = (s.agent.slots jobId).tasks.length →
      Frozen s₀ { s with agent := s.agent.setSlot jobId slot } :=
    fun jobId _ hn => { h with tasks := fun j => (Agent.tasks_setSlot hn).trans (h.tasks j) }
  cases a with
  | agent b =>
    obtain ⟨htakes, agent, hb, rfl⟩ := of_step_agent hs
    have hgoes := Agent.step_goes hb fun he => by
      rw [he, takes_crash] at htakes
      cases htakes
    have hcall : b.isTaskCall = false := by
      by_contra hcall
      have hopen := takes_call htakes (by simpa using hcall)
      rw [h.closed] at hopen
      cases hopen
    refine { h with store := (hgoes.store hrun hoff hcall).trans h.store, tasks := fun j => ?_ }
    rcases hgoes.tasks hrun j with hj | ⟨hd, hw, _⟩
    · exact hj.trans (h.tasks j)
    · exact absurd hw (hf.idle hne hd)
  | frame message =>
    obtain ⟨agent, hm, rfl⟩ := Option.map_eq_some_iff.mp hs
    have hw := (Agent.receive_step hm).1
    rw [Agent.socket_eq_false.mp hoff] at hw
    cases hw
  | stop =>
    cases hs
    exact { h with }
  | iterate => simp [step, hret] at hs
  | refused => simp [step, hret] at hs
  | disconnect =>
    obtain ⟨agent, hb, rfl⟩ := Option.map_eq_some_iff.mp hs
    simp [Agent.step, Agent.socket_eq_false.mp hoff] at hb
  | disconnected => simp [step, hret] at hs
  | backoffEnds => simp [step, hret] at hs
  | heartbeatEnds =>
    simp only [step] at hs
    split at hs <;> cases hs
    exact { h with }
  | syncEnds =>
    simp only [step] at hs
    split at hs <;> cases hs
    exact { h with }
  | close => simp [step, h.closed] at hs
  | callRaises jobId i =>
    obtain ⟨t, _, hs⟩ := Option.bind_eq_some_iff.mp hs
    split at hs <;> cases hs
    exact hslot jobId (Agent.tasks_endTask _ i _)
  | cancelLeft jobId i =>
    obtain ⟨t, _, hs⟩ := Option.bind_eq_some_iff.mp hs
    split at hs <;> cases hs
    exact hslot jobId (Agent.tasks_setTask _ i _)
  | crash => exact absurd rfl hcrash

/-- the process when `run` has closed the store because of `stop` -/
structure Ended (s : Process) : Prop where
  stopped : s.stopped = true
  returned : s.round = .returned
  heartbeatEnded : s.heartbeatEnded = true
  syncEnded : s.syncEnded = true
  /-- the connection has ended, and no handler runs -/
  offline : s.agent.ws.socket = false ∧ s.agent.ws.handler = none
  /-- the next start finds a row `PRINTING` if its task is not finished, or if the job was cancelled -/
  left : ∀ j ∈ s.agent.store.stuckPrinting,
    (∃ t, s.agent.task j 0 = some t ∧ t.isLive = true) ∨ s.WasCancelled j

theorem ended_of_close (hf : s.Fits) (h : s.Attends) (hs : s.step .close = some s') : s'.Ended := by
  simp only [step] at hs
  split at hs <;> cases hs
  rename_i hready
  obtain ⟨hret, hheart, hsync, hopen⟩ := hready
  have hoff := hf.offline (by rw [hret]; decide)
  have hrun := hf.running (by rw [hret]; decide)
  refine ⟨hf.returned hret, hret, hheart, hsync, ⟨hoff, Agent.handler_of_socket hoff⟩, fun j hj => ?_⟩
  rcases h hopen j with hatt | hcan
  · left
    obtain ⟨row, hrow, hst⟩ := QueueStore.mem_stuckPrinting.mp hj
    have hlife : (s.agent.view j).life = .running := by
      show s.agent.life.view j = .running
      rw [hrun]
      rfl
    rcases hatt.printing (Job.status_eq_some.mpr ⟨row, hrow, hst⟩) with hl | hl | ⟨t, ht, hl⟩
    · rw [hlife] at hl
      cases hl
    · rw [hlife] at hl
      cases hl
    · have ht : (s.agent.slots j).tasks.head? = some t := ht
      refine ⟨t, ?_, hl⟩
      show (s.agent.slots j).tasks[0]? = some t
      rwa [← List.head?_eq_getElem?]
  · exact .inr hcan

end Process

/-- **`stop` ends the loops, not the jobs.**  After the call no connection is attempted, frames are passed
and jobs started only on the connection that was up or being made, and when `run` closes the store the
connection has ended and a row is left `PRINTING` only if its task is not finished or the job was
cancelled.  From then on no frame is passed, no job started and nothing written. -/
theorem stop_ends {s₀ s₁ s : Process} {as : List ProcessAct} (hr : process.Reach Machine.Any s₀)
    (hstop : process.step s₀ .stop = some s₁)
    (hp : process.Path (fun _ a => a ≠ .crash) s₁ as s) :
    Process.Since s₀ s ∧ ∀ s', process.step s .close = some s' →
      s'.Ended ∧ ∀ bs s'', process.Path (fun _ a => a ≠ .crash) s' bs s'' → Process.Frozen s' s'' := by
  have hr₁ : process.Reach Machine.Any s₁ := hr.step trivial hstop
  have hr' : process.Reach Machine.Any s := hr₁.path (hp.mono fun _ _ _ => trivial)
  have hsince : s.Fits ∧ Process.Since s₀ s :=
    hp.invariant (I := fun s => s.Fits ∧ Process.Since s₀ s)
      (fun _ _ _ h hc hs => ⟨Process.fits_step h.1 hs, Process.since_step h.1 h.2 hc hs⟩)
      ⟨fits_of_reach hr₁, .start hstop⟩
  have hatt : s.Fits ∧ s.Attends :=
    hr'.invariant (I := fun s => s.Fits ∧ s.Attends) ⟨Process.fits_init, Process.attends_init⟩
      fun _ _ _ _ h _ hs => ⟨Process.fits_step h.1 hs, Process.attends_step h.1 h.2 hs⟩
  refine ⟨hsince.2, fun s' hclose => ⟨Process.ended_of_close hatt.1 hatt.2 hclose, fun bs s'' hbs => ?_⟩⟩
  have hclosed : s'.closed = true := by
    have hs : s.step .close = some s' := hclose
    simp only [Process.step] at hs
    split at hs <;> cases hs
    rfl
  have hfrozen : s''.Fits ∧ Process.Frozen s' s'' :=
    hbs.invariant (I := fun s => s.Fits ∧ Process.Frozen s' s)
      (fun _ _ _ h hc hs => ⟨Process.fits_step h.1 hs, Process.frozen_step h.1 h.2 hc hs⟩)
      ⟨Process.fits_step (a := .close) hatt.1 hclose, .start hclosed⟩
  exact hfrozen.2

/-! ## a stop that is not clean -/

namespace Schedule

def connected : List ProcessAct :=
  (startup "1").map .agent ++ [.iterate] ++ connect.map .agent

def acceptFrame (now : String) : List ProcessAct :=
  .frame (.dispatch exampleJob) :: ((accept now exampleJob).tail.map .agent)

def busy : List ProcessAct :=
  connected ++ acceptFrame "2" ++
    (download "3" "f" "a" ++ getStatus true "a" ++ start "4" "a").map .agent

def loopsEnd : List ProcessAct := [.disconnect, .disconnected, .heartbeatEnds, .syncEnds]

/-- after the close the document is printed, and the write that follows raises -/
def printedAfterClose : List ProcessAct :=
  [.agent (.taskPrint "a" 0 none), .agent (.taskResume "a" 0 true), .callRaises "a" 0, .crash] ++
    [.agent .boot, .agent (.markStuck "9"), .agent .handStuck]

/-- a document is being printed when `stop` is called, and the hub closes the connection -/
def stoppedPrinting : List ProcessAct := busy ++ [.stop] ++ loopsEnd

end Schedule

theorem stop_run {before after : List ProcessAct} {s : Process}
    (hrun : process.run process.init (before ++ [.stop] ++ after) = some s)
    (hc : ∀ a ∈ after, a ≠ .crash) :
    ∃ s₀ s₁ : Process, process.Reach Machine.Any s₀ ∧ process.run process.init before = some s₀ ∧
      process.step s₀ .stop = some s₁ ∧ process.Path (fun _ a => a ≠ .crash) s₁ after s := by
  rw [List.append_assoc, Machine.run_append] at hrun
  obtain ⟨s₀, hs₀, hrest⟩ := Option.bind_eq_some_iff.mp hrun
  obtain ⟨s₁, hstop, hafter⟩ := (Machine.run_cons_eq_some _).mp hrest
  exact ⟨s₀, s₁, .of_run hs₀, hs₀, hstop, .of_labels hafter hc⟩

theorem stoppedPrinting_isSome : (process.run process.init Schedule.stoppedPrinting).isSome = true := by
  decide +kernel

theorem stoppedPrinting_close :
    (process.run process.init (Schedule.stoppedPrinting ++ [.close])).isSome = true := by
  decide +kernel

theorem stop_ends_printing :
    ∃ s₀ s : Process, Process.Since s₀ s ∧ s.Ended ∧ "a" ∈ s.agent.store.stuckPrinting := by
  have hclose := Machine.step_after (M := process) Schedule.stoppedPrinting .close stoppedPrinting_isSome
    stoppedPrinting_close
  obtain ⟨s₀, s₁, hr, -, hstop, hp⟩ :=
    stop_run (Machine.run_after (M := process) Schedule.stoppedPrinting stoppedPrinting_isSome) (by decide)
  have hended := (stop_ends hr hstop hp).2 _ hclose
  have hsince := (stop_ends hr hstop
    (hp.append (.single (M := process) (C := fun _ a => a ≠ .crash) hclose (by simp)))).1
  exact ⟨s₀, _, hsince, hended.1, by decide +kernel⟩

theorem acceptedAfterStop_isSome :
    (process.run process.init (Schedule.connected ++ [.stop] ++ Schedule.acceptFrame "2")).isSome = true := by
  decide +kernel

theorem printedAfterClose_isSome :
    (process.run process.init
      (Schedule.stoppedPrinting ++ [.close] ++ Schedule.printedAfterClose)).isSome = true := by
  decide +kernel

/-- a frame passed after the call, a task that is not finished at the close, and a document that was printed
and is reported as failed -/
theorem stop_not_clean :
    (¬ ∀ (s₀ s₁ s : Process) (as : List ProcessAct), process.Reach Machine.Any s₀ →
      process.step s₀ .stop = some s₁ → process.Path (fun _ a => a ≠ .crash) s₁ as s →
      s.passed = s₀.passed) ∧
    (¬ ∀ (s₀ s₁ s s' : Process) (as : List ProcessAct), process.Reach Machine.Any s₀ →
      process.step s₀ .stop = some s₁ → process.Path (fun _ a => a ≠ .crash) s₁ as s →
      process.step s .close = some s' → ∀ j i t, s'.agent.task j i = some t → t.isDone = true) ∧
    ∃ s : Process, process.Reach Machine.Any s ∧ s.agent.prints.map (·.jobId) = ["a"] ∧
      Agent.restartEvent "a" ∈ s.agent.handed := by
  refine ⟨fun h => ?_, fun h => ?_, ?_⟩
  · obtain ⟨s₀, s₁, hr, hs₀, hstop, hp⟩ :=
      stop_run (Machine.run_after (M := process) _ acceptedAfterStop_isSome) (by decide)
    have hsame := h s₀ s₁ _ _ hr hstop hp
    have hnone : (process.run process.init Schedule.connected).map (·.passed.length) = some 0 := by
      decide +kernel
    rw [hs₀, Option.map_some, ← hsame] at hnone
    have hone : (process.after _ acceptedAfterStop_isSome).passed.length = 1 := by decide +kernel
    rw [hone] at hnone
    cases hnone
  · obtain ⟨s₀, s₁, hr, -, hstop, hp⟩ :=
      stop_run (Machine.run_after (M := process) Schedule.stoppedPrinting stoppedPrinting_isSome) (by decide)
    have hclose := Machine.step_after (M := process) Schedule.stoppedPrinting .close stoppedPrinting_isSome
      stoppedPrinting_close
    have hpending : ((process.after _ stoppedPrinting_close).agent.task "a" 0).any (!·.isDone) = true := by
      decide +kernel
    obtain ⟨t, ht, hnot⟩ := Option.any_eq_true _ _ |>.mp hpending
    rw [h s₀ s₁ _ _ _ hr hstop hp hclose "a" 0 t ht] at hnot
    cases hnot
  · exact ⟨_, Machine.Reach.after _ printedAfterClose_isSome, by decide +kernel, by decide +kernel⟩

end PrintAgent
