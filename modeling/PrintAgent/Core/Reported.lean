import PrintAgent.Core.Timely

/-!
# Every verdict is reported

An event that is handed to `WsClient.send` goes over the socket, or into a buffer in memory, which is
sent after the next authentication.  So while the process lives no event is lost: it was written, it
waits to be, or its send is going on (`Carried.step`); only a cancel that goes on stops a send, and it
writes and reports a verdict of its own.  A crash loses the buffer.

* `Job.ToReport`         who has written a verdict is about to hand it over (`Job.toReport_step`);
* `verdicts_reported`    where a crash strikes only when the verdict of the row was written to a socket,
                         every verdict whose send step is over was written or waits to be;
* `verdict_forgotten`    a crash while the verdict of a printed job waits in the buffer: startup recovery
                         does not hand it over again.
-/

namespace PrintAgent

namespace Agent

/-- a task or the running handler has handed the event over, and its send has not ended -/
def Sending (jobId : String) (s : Agent) (e : JobEvent) : Prop :=
  (∃ t ∈ (s.slots jobId).tasks, t.pendingEvent jobId = some e) ∨
    ∃ hd, s.ws.loop = .handling hd ∧ hd.pendingEvent = some e

/-- the event was written to a socket, or waits to be, or its send is going on -/
def Carried (jobId : String) (s : Agent) (e : JobEvent) : Prop :=
  e ∈ s.written ∨ e ∈ s.ws.waiting ∨ s.Sending jobId e

/-! ## events stay carried -/

section Carried
variable {s s' : Agent} {j k : String} {i : Nat} {t u : Task} {e e' : JobEvent} {a : Act}

theorem mem_set_of_ne {l : List Task} (ht : l[i]? = some t) (hu : u ∈ l) (hne : u ≠ t) (v : Task) :
    u ∈ l.set i v := by
  obtain ⟨n, hn⟩ := List.mem_iff_getElem?.mp hu
  have hi : i ≠ n := by
    rintro rfl
    rw [ht] at hn
    exact hne (Option.some.inj hn).symm
  exact List.mem_iff_getElem?.mpr ⟨n, by rw [List.getElem?_set_ne hi, hn]⟩

theorem mem_set_of_pendingEvent {l : List Task} (ht : l[i]? = some t)
    (hno : t.pendingEvent j ≠ some e) (v : Task) :
    ∀ u ∈ l, u.pendingEvent j = some e → u ∈ l.set i v := by
  intro u hu hpe
  refine mem_set_of_ne ht hu ?_ v
  rintro rfl
  exact hno hpe

theorem waiting_send (ws : WsClient Handler) : ∀ e ∈ ws.waiting, e ∈ (ws.send e').waiting := by
  intro e he
  unfold WsClient.send
  split
  · exact he
  · rcases List.mem_append.mp he with hq | hl
    · exact List.mem_append_left _ (List.mem_append_left _ hq)
    · exact List.mem_append_right _ hl

theorem sent_sendEnds (w : Bool) :
    e' ∈ (s.sendEnds e' w).written ∨ e' ∈ (s.sendEnds e' w).ws.durableQueue := by
  cases w with
  | true => exact .inl (List.mem_append_right _ (List.mem_singleton_self _))
  | false => exact .inr (List.mem_append_right _ (List.mem_singleton_self _))

theorem written_sendEnds (w : Bool) : ∀ e ∈ s.written, e ∈ (s.sendEnds e' w).written := by
  intro e he
  cases w with
  | true => exact List.mem_append_left _ he
  | false => exact he

theorem durableQueue_sendEnds (w : Bool) :
    ∀ e ∈ s.ws.durableQueue, e ∈ (s.sendEnds e' w).ws.durableQueue := by
  intro e he
  cases w with
  | true => exact he
  | false => exact List.mem_append_left _ he

theorem mem_waiting {ws : WsClient Handler} (hno : ∀ pending, ws.loop ≠ .flushing pending) :
    e ∈ ws.waiting ↔ e ∈ ws.durableQueue := by
  unfold WsClient.waiting
  split
  · rename_i pending hl
    exact absurd hl (hno pending)
  · rw [List.append_nil]

theorem Carried.setLoop (h : s.Carried j e) (hidle : ∀ hd, s.ws.loop ≠ .handling hd)
    (hno : ∀ pending, s.ws.loop ≠ .flushing pending) (loop : Loop Handler) :
    (s.setLoop loop).Carried j e := by
  rcases h with hw | hq | ht | ⟨hd, hl, _⟩
  · exact .inl hw
  · exact .inr (.inl (List.mem_append_left _ ((mem_waiting hno).mp hq)))
  · exact .inr (.inr (.inl ht))
  · exact absurd hl (hidle hd)

theorem Carried.sendEnds (h : s.Carried j e) (w : Bool) : (s.sendEnds e' w).Carried j e := by
  rcases h with hw | hq | ht | ⟨hd, hl, hp⟩
  · exact .inl (written_sendEnds w e hw)
  · refine .inr (.inl ?_)
    rcases List.mem_append.mp hq with hq | hl
    · exact List.mem_append_left _ (durableQueue_sendEnds w e hq)
    · refine List.mem_append_right _ ?_
      rw [sendEnds_loop]
      exact hl
  · exact .inr (.inr (.inl ht))
  · exact .inr (.inr (.inr ⟨hd, (sendEnds_loop ..).trans hl, hp⟩))

theorem Carried.hand (h : s.Carried j e) (o : Option JobEvent) : (s.hand o).Carried j e := by
  cases o with
  | none => exact h
  | some e' =>
    rcases h with hw | hq | ht | ⟨hd, hl, hp⟩
    · exact .inl hw
    · exact .inr (.inl (waiting_send s.ws e hq))
    · exact .inr (.inr (.inl ht))
    · exact .inr (.inr (.inr ⟨hd, (hand_loop ..).trans hl, hp⟩))

theorem Carried.setSlot (h : s.Carried j e) (k : String) (slot : Slot)
    (hsub : k = j → ∀ u ∈ (s.slots k).tasks, u.pendingEvent k = some e → u ∈ slot.tasks) :
    (s.setSlot k slot).Carried j e := by
  rcases h with hw | hq | ⟨u, hu, hp⟩ | hh
  · exact .inl hw
  · exact .inr (.inl hq)
  · refine .inr (.inr (.inl ⟨u, ?_, hp⟩))
    by_cases hk : j = k
    · subst hk
      rw [setSlot_self]
      exact hsub rfl u hu hp
    · rw [setSlot_of_ne _ _ _ _ hk]
      exact hu
  · exact .inr (.inr (.inr hh))

theorem Carried.setTask (h : s.Carried j e) (ht : s.task k i = some t)
    (hno : t.pendingEvent k ≠ some e) (v : Task) : (s.setTask k i v).Carried j e :=
  h.setSlot k _ fun _ => mem_set_of_pendingEvent ht hno v

theorem Carried.endTask (h : s.Carried j e) (ht : s.task k i = some t)
    (hno : t.pendingEvent k ≠ some e) (inTry : Bool) :
    (s.setSlot k ((s.slots k).endTask i inTry)).Carried j e :=
  h.setSlot k _ fun _ => mem_set_of_pendingEvent ht hno .finished

theorem Carried.leaveHandler (h : s.Carried j e) {hd : Handler} (hl : s.ws.loop = .handling hd)
    (hp : hd.pendingEvent ≠ some e) (loop : Loop Handler) : (s.setLoop loop).Carried j e := by
  rcases h with hw | hq | ht | ⟨hd', hl', hp'⟩
  · exact .inl hw
  · have hno : ∀ pending, s.ws.loop ≠ .flushing pending := fun pending he => by
      rw [hl] at he
      cases he
    exact .inr (.inl (List.mem_append_left _ ((mem_waiting hno).mp hq)))
  · exact .inr (.inr (.inl ht))
  · rw [hl] at hl'
    cases hl'
    exact absurd hp' hp

/-! what awaits a store call, a print or an answer, or has its answer, is not sending -/

theorem pendingEvent_of_fut {ans : Answer} (hf : t.fut = some ans) : t.pendingEvent j = none := by
  simp [Task.pendingEvent, Task.isWaiting, hf]

theorem pendingEvent_of_cancelled (hc : t.cancelled = true) : t.pendingEvent j = none := by
  simp [Task.pendingEvent, Task.isWaiting, hc]

theorem pendingEvent_of_event (he : t.await.event j = none) : t.pendingEvent j = none := by
  simp [Task.pendingEvent, he]

theorem event_of_storeCall {aw : Await} {c : StoreCall} (hc : aw.storeCall = some c) :
    aw.event j = none := by
  cases aw <;> first | rfl | cases hc

theorem event_of_printCall {aw : Await} {p : PrintCall} (hp : aw.printCall j = some p) :
    aw.event j = none := by
  cases aw <;> first | rfl | cases hp

theorem event_of_accepts {aw : Await} {ans : Answer} (ha : aw.accepts ans = true) :
    aw.event j = none := by
  cases aw <;> first | rfl | cases ha

theorem handlerEvent_of_fut {hd : Handler} {ans : Answer} (hf : hd.fut = some ans) :
    hd.pendingEvent = none := by
  simp [Handler.pendingEvent, hf]

theorem handlerEvent_of_storeCall {hd : Handler} {c : StoreCall}
    (hc : hd.pendingStoreCall = some c) : hd.pendingEvent = none := by
  obtain ⟨_, hc⟩ := Handler.of_pendingStoreCall hc
  unfold Handler.pendingEvent
  generalize hd.await = aw at hc ⊢
  cases aw <;> first | cases hc; done | simp [HandlerAwait.event]

theorem Carried.resumeHandler (h : s.Carried j e) {hd : Handler} (hl : s.ws.loop = .handling hd)
    {ans : Answer} (hf : hd.fut = some ans) {n : HandlerNext}
    (hn : n = .cancelTask → hd.jobId ≠ j) : (s.resumeHandler hd n).Carried j e := by
  have hp : hd.pendingEvent ≠ some e := by
    rw [handlerEvent_of_fut hf]
    simp
  cases n with
  | await a =>
    exact (h.hand _).leaveHandler ((hand_loop ..).trans hl) hp _
  | cancelTask =>
    exact (h.setSlot hd.jobId _ fun he => absurd he (hn rfl)).leaveHandler hl hp _
  | createTask =>
    exact (h.setSlot hd.jobId _ fun _ u hu _ => List.mem_append_left _ hu).leaveHandler hl hp _
  | ret => exact h.leaveHandler hl hp _

theorem Carried.resumeTask (h : s.Carried j e) (ht : s.task k i = some t) {ans : Answer}
    (hf : t.fut = some ans) (n : Next) : (s.resumeTask k i n).Carried j e := by
  have hp : t.pendingEvent k ≠ some e := by
    rw [pendingEvent_of_fut hf]
    simp
  cases n with
  | await a => exact (h.setTask ht hp _).hand _
  | ret inTry => exact h.endTask ht hp inTry

theorem Carried.resumeJobs (h : s.Carried j e) (jobIds : List String) :
    (s.resumeJobs jobIds).Carried j e := by
  unfold Agent.resumeJobs
  induction jobIds generalizing s with
  | nil => exact h
  | cons k jobIds ih =>
    exact ih (h.setSlot k _ fun _ u hu _ => List.mem_append_left _ hu)

theorem Carried.flushSend (h : s.Carried j e) {e₀ : JobEvent} {pending : List JobEvent}
    (hl : s.ws.loop = .flushing (e₀ :: pending)) (w : Bool) :
    ((s.sendEnds e₀ w).setLoop (.flushing pending)).Carried j e := by
  rcases h with hw | hq | ht | ⟨hd, hl', _⟩
  · exact .inl (written_sendEnds w e hw)
  · have hq : e ∈ s.ws.durableQueue ∨ e = e₀ ∨ e ∈ pending := by
      simpa [WsClient.waiting, hl] using hq
    rcases hq with hq | rfl | hq
    · exact .inr (.inl (List.mem_append_left _ (durableQueue_sendEnds w e hq)))
    · exact (sent_sendEnds w).imp_right fun hq => .inl (List.mem_append_left _ hq)
    · exact .inr (.inl (List.mem_append_right _ hq))
  · exact .inr (.inr (.inl ht))
  · rw [hl] at hl'
    cases hl'

/-- **While the process lives, an event stays carried**, unless a cancel that goes on stops its
send. -/
theorem Carried.step (h : s.Carried j e) (hs : s.step a = some s') (hcrash : a ≠ .crash)
    (hcancel : a = .handlerResume → (s.view j).honours = false) : s'.Carried j e := by
  cases a with
  | boot =>
    simp only [Agent.step] at hs
    split at hs <;> cases hs
    exact h
  | markStuck now =>
    simp only [Agent.step] at hs
    split at hs <;> cases hs
    exact h
  | listRows =>
    simp only [Agent.step] at hs
    split at hs <;> cases hs
    exact h
  | handStuck =>
    simp only [Agent.step] at hs
    split at hs <;> cases hs
    rcases h with hw | hq | hsend
    · exact .inl hw
    · refine .inr (.inl ?_)
      rcases List.mem_append.mp hq with hq | hl
      · exact List.mem_append_left _ (List.mem_append_left _ hq)
      · exact List.mem_append_right _ hl
    · exact .inr (.inr hsend)
  | resumeRows =>
    simp only [Agent.step] at hs
    split at hs <;> cases hs
    exact h.resumeJobs _
  | connect =>
    simp only [Agent.step] at hs
    split at hs <;> cases hs
    rename_i hl
    exact h.setLoop (by simp [hl]) (by simp [hl]) _
  | authenticated =>
    simp only [Agent.step] at hs
    split at hs <;> cases hs
    rename_i hl
    rcases h with hw | hq | ht | ⟨hd, hl', _⟩
    · exact .inl hw
    · exact .inr (.inl ((mem_waiting (by simp [hl])).mp hq))
    · exact .inr (.inr (.inl ht))
    · rw [hl] at hl'
      cases hl'
  | flushSend w =>
    simp only [Agent.step] at hs
    split at hs <;> cases hs
    rename_i e₀ pending hl
    exact h.flushSend hl w
  | flushEnd =>
    simp only [Agent.step] at hs
    split at hs <;> cases hs
    rename_i hl
    rcases h with hw | hq | ht | ⟨hd, hl', _⟩
    · exact .inl hw
    · have hq : e ∈ s.ws.durableQueue := by simpa [WsClient.waiting, hl] using hq
      exact .inr (.inl (List.mem_append_left _ hq))
    · exact .inr (.inr (.inl ht))
    · rw [hl] at hl'
      cases hl'
  | synced | disconnect | dispatch =>
    simp only [Agent.step] at hs
    split at hs <;> cases hs <;> rename_i hl <;>
      exact h.setLoop (by simp [hl]) (by simp [hl]) _
  | cancel message =>
    simp only [Agent.step] at hs
    split at hs <;> cases hs
    rename_i hl
    refine Carried.setLoop (s := s.setSlot _ _) ?_ (by simp [hl]) (by simp [hl]) _
    exact h.setSlot message.jobId _ fun _ _ hu _ => hu
  | handlerCall now =>
    obtain ⟨hd, c, hl, hc, rfl⟩ := of_step_handlerCall hs
    exact h.leaveHandler hl (by simp [handlerEvent_of_storeCall hc]) _
  | handlerSend w =>
    obtain ⟨hd, ev, hl, he, rfl⟩ := of_step_handlerSend hs
    by_cases heq : ev = e
    · subst heq
      exact (sent_sendEnds w).imp_right fun hq => .inl (List.mem_append_left _ hq)
    · exact (h.sendEnds w).leaveHandler ((sendEnds_loop ..).trans hl)
        (by rw [he]; simpa using heq) _
  | handlerResume =>
    obtain ⟨hd, ans, n, hl, hf, hn, rfl⟩ := of_step_handlerResume hs
    refine h.resumeHandler hl hf ?_
    rintro rfl rfl
    obtain ⟨ha, record, rfl, hres⟩ := (HandlerAwait.flow_of_resume hn).of_cancelTask
    have hview : (s.view hd.jobId).handler = some hd := by
      simp [view, handlerOf, handler_eq_some.mpr hl]
    have hno := hcancel rfl
    rw [Job.honours_of hview ha hf hres] at hno
    cases hno
  | taskCall k i now =>
    obtain ⟨t, c, ht, hc, rfl⟩ := of_step_taskCall hs
    have hno := pendingEvent_of_event (event_of_storeCall (j := k) (Task.of_pendingStoreCall hc).2.2)
    exact h.setTask ht (by simp [hno]) _
  | taskAnswer k i ans =>
    obtain ⟨t, ht, _, hacc, rfl⟩ := of_step_taskAnswer hs
    exact h.setTask ht (by simp [pendingEvent_of_event (event_of_accepts hacc)]) _
  | taskSend k i w =>
    obtain ⟨t, ev, ht, he, rfl⟩ := of_step_taskSend hs
    by_cases heq : ev = e
    · subst heq
      exact (sent_sendEnds w).imp_right fun hq => .inl (List.mem_append_left _ hq)
    · exact (h.sendEnds w).setTask ht (by rw [he]; simpa using heq) _
  | taskPrint k i raises =>
    obtain ⟨t, p, ht, hp, rfl⟩ := of_step_taskPrint hs
    have hno := pendingEvent_of_event (event_of_printCall (Task.of_pendingPrint hp).2.2)
    exact h.setTask ht (by simp [hno]) _
  | taskResume k i ex =>
    obtain ⟨t, ans, n, ht, _, hf, _, rfl⟩ := of_step_taskResume hs
    exact h.resumeTask ht hf n
  | taskThrow k i =>
    obtain ⟨t, ht, hc, _, rfl⟩ := of_step_taskThrow hs
    exact h.endTask ht (by simp [pendingEvent_of_cancelled hc]) _
  | leftCall k n now =>
    obtain ⟨c, _, rfl⟩ := of_step_leftCall hs
    exact h.setSlot k _ fun _ _ hu _ => hu
  | leftPrint k n =>
    obtain ⟨p, _, rfl⟩ := of_step_leftPrint hs
    exact h.setSlot k _ fun _ _ hu _ => hu
  | leftDrop k n =>
    obtain ⟨_, rfl⟩ := of_step_leftDrop hs
    exact h.setSlot k _ fun _ _ hu _ => hu
  | crash => exact absurd rfl hcrash

/-! an event is carried as soon as it is handed over -/

theorem carried_handStuck (hs : s.step .handStuck = some s') :
    ∃ new, s'.handed = s.handed ++ new ∧ ∀ e ∈ new, s'.Carried j e := by
  simp only [Agent.step] at hs
  split at hs <;> cases hs
  refine ⟨_, rfl, fun e hnew => .inr (.inl ?_)⟩
  exact List.mem_append_left _ (List.mem_append_right _ hnew)

theorem carried_handlerResume (hs : s.step .handlerResume = some s') :
    ∃ new, s'.handed = s.handed ++ new ∧ ∀ e ∈ new, s'.Carried j e := by
  obtain ⟨hd, ans, n, hl, hf, hn, rfl⟩ := of_step_handlerResume hs
  cases n with
  | await a =>
    refine ⟨_, hand_handed .., fun e hnew => .inr (.inr (.inr ⟨_, rfl, ?_⟩))⟩
    simpa [Handler.pendingEvent] using hnew
  | _ => exact ⟨[], (List.append_nil _).symm, fun _ hnew => absurd hnew List.not_mem_nil⟩

theorem carried_taskResume {ex : Bool} (hs : s.step (.taskResume j i ex) = some s') :
    ∃ new, s'.handed = s.handed ++ new ∧ ∀ e ∈ new, s'.Carried j e := by
  obtain ⟨t, ans, n, ht, _, hf, _, rfl⟩ := of_step_taskResume hs
  cases n with
  | await a =>
    refine ⟨_, hand_handed .., fun e hnew => ?_⟩
    have hev : a.event j = some e := Option.mem_toList.mp hnew
    cases hsock : s.ws.socket with
    | false =>
      refine .inr (.inl (List.mem_append_left _ ?_))
      simp [Agent.resumeTask, Agent.hand, hev, WsClient.send, hsock]
    | true =>
      refine .inr (.inr (.inl ⟨.goTo j true a, ?_, ?_⟩))
      · have hi : i < (s.slots j).tasks.length := (List.getElem?_eq_some_iff.mp ht).1
        have hslot : ((s.resumeTask j i (.await a)).slots j).tasks
            = (s.slots j).tasks.set i (.goTo j true a) := by
          simp [Agent.resumeTask, hsock, Slot.setTask]
        rw [hslot]
        exact List.mem_iff_getElem.mpr ⟨i, by simpa using hi, by simp⟩
      · simp [Task.goTo, Task.pendingEvent, Task.isWaiting, hev]
  | ret inTry => exact ⟨[], (List.append_nil _).symm, fun _ hnew => absurd hnew List.not_mem_nil⟩

theorem carried_of_handed (hr : agent.Reach Machine.Any s) (hs : agent.step s a = some s')
    (he : (s'.view j).handed = (s.view j).handed ++ [e]) : s'.Carried j e := by
  rcases seen_step (j := j) hr hs with ⟨hsame, _⟩ | ⟨b, hseen, _, _, hstep⟩
  · rw [hsame] at he
    simp at he
  · obtain ⟨o, hhanded, ho⟩ := Job.handed_step hstep
    rw [hhanded, List.append_cancel_left_eq] at he
    -- the step that handed the event over, and all that it handed over
    have hnew : ∃ new, s'.handed = s.handed ++ new ∧ ∀ e ∈ new, s'.Carried j e := by
      cases ho with
      | nothing => cases he
      | restarted => cases handStuck_of_seen hseen; exact carried_handStuck hs
      | received => cases handlerResume_of_seen hseen; exact carried_handlerResume hs
      | resent => cases handlerResume_of_seen hseen; exact carried_handlerResume hs
      | cancelled => cases handlerResume_of_seen hseen; exact carried_handlerResume hs
      | worked =>
        obtain ⟨i, rfl⟩ := taskResume_of_seen hseen
        exact carried_taskResume hs
    obtain ⟨new, happ, hall⟩ := hnew
    have hview : (s'.view j).handed = (s.view j).handed ++ new.filter (·.jobId = j) := by
      simp [view, happ]
    rw [hhanded, he, List.append_cancel_left_eq] at hview
    have hmem : e ∈ new.filter (·.jobId = j) := hview ▸ List.mem_singleton_self e
    exact hall e (List.mem_filter.mp hmem).1

end Carried

end Agent

/-! ## a verdict is handed over -/

/-- the writes of `_process` that a verdict follows -/
def Await.writesVerdict : Await → Bool
  | .setCompleted | .setFailed _ _ => true
  | _ => false

theorem Await.writesVerdict_of_written {a : Await} {c : StoreCall} {v : PrintJobStatus}
    (hc : a.storeCall = some c) (hw : c.written = some v) (hv : v.isTerminal = true) :
    a.writesVerdict = true := by
  rcases Await.written_cases hc hw with ⟨rfl, _⟩ | ⟨rfl, _⟩ | ⟨_, rfl⟩ | ⟨_, _, _, rfl⟩
  · cases hv
  · cases hv
  · rfl
  · rfl

namespace Job
variable {jobId : String} {x y : Job} {b : JobAct} {v : PrintJobStatus}

/-- the task, `handle_cancel` or startup recovery is at the write that its verdict follows -/
inductive ToReport (x : Job) : Prop
  | task {t : Task} (ht : x.task = some t) (hl : t.isLive = true) (ha : t.await.writesVerdict = true)
  | cancel {h : Handler} (hh : x.handler = some h) (ha : h.await = .setCancelled)
  | restart (hl : x.life = .marking (some true))

/-- a verdict is written by what is to report it, unless it was left behind and lands on a
`CANCELLED` row -/
theorem status_or_toReport (hb : x.Base)
    (hland : x.landsOnCancelled PrintJobStatus.isTerminal b = false) (hs : Step jobId x b y)
    (hst : y.status = some v) (hv : v.isTerminal = true) : x.status = some v ∨ y.ToReport := by
  have hstat := status_step hs hb.leftCall
  rw [hst] at hstat
  cases hstat with
  | same he => exact .inl he.symm
  | inserted => cases hv
  | restarted now _ hp =>
    cases hs
    exact .inr (.restart (by simp [hp]))
  | cancelled now hh _ ha =>
    cases hs with
    | handlerCall _ hh' =>
      rw [hh] at hh'
      cases hh'
      exact .inr (.cancel rfl ha)
  | worked now ht hl _ hc hw =>
    cases hs with
    | taskCall _ ht' =>
      rw [ht] at ht'
      cases ht'
      exact .inr (.task rfl hl (Await.writesVerdict_of_written hc hw hv))
  | left now hn hw =>
    right
    rcases hb.landing (List.ne_nil_of_mem (List.mem_of_getElem? hn)) with hcan | hcan
    · obtain ⟨h, hh, ha, _⟩ := hcan
      cases hs
      exact .cancel hh ha
    · rw [landsOnCancelled_of hcan hn hw hv] at hland
      cases hland

theorem toReport_of_honours (hs : Step jobId x .handlerResume y) (hx : x.honours = true) :
    y.ToReport := by
  obtain ⟨h, record, hh, ha, hfut, hr⟩ := of_honours hx
  have hread := reading_step hs hh ⟨ha, .inr ⟨_, hfut, hr⟩⟩ fun hno => by
    rw [hfut] at hno
    cases hno
  rcases hread with ⟨hno, _⟩ | ⟨_, h, hh', ha', _⟩ | hno
  · exact absurd rfl hno
  · exact .cancel hh' ha'
  · cases hno

/-- what `handle_cancel` and startup recovery have written is what the row says, if it says a
verdict -/
structure Decided (x : Job) : Prop where
  written : ∀ h v, x.handler = some h → h.await = .setCancelled → h.fut ≠ none →
    x.status = some v → v.isTerminal = true → v = .cancelled
  restarted : x.life = .marking (some true) → x.status = some .failed

theorem decided_init : Decided .init where
  written _ _ hh := by cases hh
  restarted hl := by cases hl

theorem decided_written (hf : x.Fit) (hb : x.Base) (hd : x.Decided)
    (hland : x.landsOnCancelled PrintJobStatus.isTerminal b = false) (hs : Step jobId x b y) :
    ∀ h v, y.handler = some h → h.await = .setCancelled → h.fut ≠ none → y.status = some v →
      v.isTerminal = true → v = .cancelled := by
  intro h v hh ha hfut hst hv
  rcases of_setCancelled hs hh ha with ⟨hno, he⟩ | ⟨now, h', rfl, hh', ha', _⟩ |
    ⟨_, _, _, _, _, _, _, hnone⟩
  · have hstat := status_step hs hb.leftCall
    rw [hst] at hstat
    cases hstat with
    | same hx => exact hd.written h v he ha hfut hx.symm hv
    | inserted => cases hno
    | restarted now hl =>
      rw [hf.running he] at hl
      cases hl
    | cancelled => rfl
    | worked now ht hl =>
      rw [hb.stopped h he (.inl ha) _ ht] at hl
      cases hl
    | left now hn hw =>
      rcases hb.landing (List.ne_nil_of_mem (List.mem_of_getElem? hn)) with ⟨h', hh', _, hnone⟩ | hcan
      · rw [he] at hh'
        cases hh'
        exact absurd hnone hfut
      · rw [landsOnCancelled_of hcan hn hw hv] at hland
        cases hland
  · rw [hb.status_of_setCancelled hh' ha' hs] at hst
    exact (Option.some.inj hst).symm
  · exact absurd hnone hfut

theorem decided_restarted (hf : x.Fit) (hb : x.Base) (hd : x.Decided) (hs : Step jobId x b y)
    (hl : y.life = .marking (some true)) : y.status = some .failed := by
  have hold : x.life = .marking (some true) → y.status = some .failed := fun hx => by
    obtain ⟨ht, hleft, hh, _⟩ := hf.asleep (by simp [hx])
    have hstat := status_step hs hb.leftCall
    generalize y.status = o at hstat
    cases hstat with
    | same he => exact he.trans (hd.restarted hx)
    | inserted now hh' => rw [hh] at hh'; cases hh'
    | restarted => rfl
    | cancelled now hh' => rw [hh] at hh'; cases hh'
    | worked now ht' => rw [ht] at ht'; cases ht'
    | left now hn => rw [hleft] at hn; cases hn
  cases hs with
  | boot => cases hl
  | markStuck now hl' =>
    have hst : x.status = some .printing := by
      have hdec : decide (x.status = some .printing) = true := by
        injection hl with hl
        exact Option.some.inj hl
      simpa using hdec
    obtain ⟨row, hrow, hp⟩ := status_eq_some.mp hst
    simp [status, hrow, hp]
  | handStuck => cases hl
  | listRows => cases hl
  | resumeRows => cases hl
  | handlerCancelTask => exact hold ((x.cancelTask_life jobId).symm.trans hl)
  | crash => cases hl
  | _ => exact hold hl

theorem decided_step (hf : x.Fit) (hb : x.Base) (hd : x.Decided)
    (hland : x.landsOnCancelled PrintJobStatus.isTerminal b = false) (hs : Step jobId x b y) :
    y.Decided where
  written := decided_written hf hb hd hland hs
  restarted := decided_restarted hf hb hd hs

theorem reported_of_task (hf : x.Fit) (hb : x.Base) (hcrash : b ≠ .crash) (hs : Step jobId x b y)
    {t : Task} (ht : x.task = some t) (hl : t.isLive = true) (ha : t.await.writesVerdict = true)
    (hst : x.status = some v) :
    (∃ e, y.handed = x.handed ++ [e] ∧ e.status = v) ∨ y.ToReport := by
  have hsame : ∀ {t'}, x.task = some t' → t' = t := fun ht' => by
    rw [ht] at ht'
    exact (Option.some.inj ht').symm
  have htask := task_step hs
  generalize hy : y.task = o at htask
  cases htask with
  | same _ he => exact .inr (.task (hy.trans (he.trans ht)) hl ha)
  | created hcr =>
    rw [(hb.of_creates hf hcr).1] at ht
    cases ht
  | cancelled hh ha' hfut hr => exact .inr (toReport_of_honours hs (honours_of hh ha' hfut hr))
  | answered ans ht' hl' =>
    cases hsame ht'
    exact .inr (.task hy hl ha)
  | went pathExists socket ht' _ hfut hflow =>
    cases hsame ht'
    have hex := hb.live t ht hl v hst
    rw [hfut] at hex
    generalize t.await = aw at hflow ha hex
    left
    cases hs with
    | taskAwait =>
      cases hy
      cases hflow with
      | early ha' => cases aw <;> first | cases ha; done | cases ha'
      | toPrinting ha' => cases aw <;> first | cases ha; done | cases ha'
      | toFailed ha' => cases aw <;> first | cases ha; done | cases ha'
      | toCompleted => exact ⟨_, rfl, hex.symm⟩
      | toFailedEvent => exact ⟨_, rfl, hex.symm⟩
      | _ => cases ha
    | taskRet =>
      -- a task goes on to an await, not to its end
      cases hy
      cases hflow with
      | early _ hno => cases hno
  | ended pathExists socket ht' _ hfut hends =>
    cases hsame ht'
    generalize t.await = aw at hends ha
    cases hends with
    | raised ha' => cases aw <;> first | cases ha; done | cases ha'
    | cancelled ha' => cases aw <;> first | cases ha; done | cases ha'
    | _ => cases ha
  | thrown ht' hl' =>
    rw [hsame ht', hl] at hl'
    cases hl'
  | gone => exact absurd rfl hcrash

theorem reported_of_cancel (hd : x.Decided) (hcrash : b ≠ .crash) (hs : Step jobId x b y)
    {h : Handler} (hh : x.handler = some h) (ha : h.await = .setCancelled) (hst : x.status = some v)
    (hv : v.isTerminal = true) :
    (∃ e, y.handed = x.handed ++ [e] ∧ e.status = v) ∨ y.ToReport := by
  have hsame : ∀ {h'}, x.handler = some h' → h' = h := fun hh' => by
    rw [hh] at hh'
    exact (Option.some.inj hh').symm
  have hhand := handler_step hs
  generalize hy : y.handler = o at hhand
  cases hhand with
  | same _ he => exact .inr (.cancel (hy.trans (he.trans hh)) ha)
  | dispatch _ hno => rw [hh] at hno; cases hno
  | cancel hno => rw [hh] at hno; cases hno
  | called now hh' => cases hsame hh'; exact .inr (.cancel hy ha)
  | sent hh' => cases hsame hh'; exact .inr (.cancel hy ha)
  | went hh' hfut =>
    cases hsame hh'
    cases hd.written h v hh ha (by simp [hfut]) hst hv
    exact .inl ⟨_, (handed_of_written hs hh ha).2, rfl⟩
  | cancelling hh' ha' =>
    rw [hsame hh', ha] at ha'
    cases ha'
  | creating hh' ha' =>
    rw [hsame hh', ha] at ha'
    cases ha'
  | ended hh' _ hflow =>
    rw [hsame hh', ha] at hflow
    cases hflow.next_setCancelled
  | gone => exact absurd rfl hcrash

theorem reported_of_restart (hd : x.Decided) (hcrash : b ≠ .crash) (hs : Step jobId x b y)
    (hl : x.life = .marking (some true)) (hst : x.status = some v) :
    (∃ e, y.handed = x.handed ++ [e] ∧ e.status = v) ∨ y.ToReport := by
  have hfailed := hd.restarted hl
  rw [hst] at hfailed
  cases hfailed
  cases hs with
  | boot hl' => rw [hl] at hl'; cases hl'
  | markStuck now hl' => rw [hl] at hl'; cases hl'
  | handStuck hl' =>
    rw [hl] at hl'
    cases hl'
    exact .inl ⟨_, rfl, rfl⟩
  | listRows hl' => rw [hl] at hl'; cases hl'
  | resumeRows hl' => rw [hl] at hl'; cases hl'
  | handlerCancelTask => exact .inr (.restart ((x.cancelTask_life jobId).trans hl))
  | crash => exact absurd rfl hcrash
  | _ => exact .inr (.restart hl)

/-- **Who has written a verdict reports it**, or goes on to. -/
theorem toReport_step (hf : x.Fit) (hb : x.Base) (hd : x.Decided) (hcrash : b ≠ .crash)
    (hs : Step jobId x b y) (hx : x.ToReport) (hst : x.status = some v) (hv : v.isTerminal = true) :
    (∃ e, y.handed = x.handed ++ [e] ∧ e.status = v) ∨ y.ToReport := by
  cases hx with
  | task ht hl ha => exact reported_of_task hf hb hcrash hs ht hl ha hst
  | cancel hh ha => exact reported_of_cancel hd hcrash hs hh ha hst hv
  | restart hl => exact reported_of_restart hd hcrash hs hl hst

end Job

/-! ## the agent -/

namespace Agent
variable {jobId : String} {s s' : Agent} {a : Act}

/-- the verdict of the job, if its row has one, was written to a socket -/
def isReported (jobId : String) (s : Agent) : Bool :=
  (s.view jobId).status.all fun v =>
    !v.isTerminal || s.written.any fun e => decide (e.jobId = jobId ∧ e.status = v)

/-- no crash strikes while the verdict of the job is not reported, and no verdict that a cancelled
task left behind lands on a `CANCELLED` row -/
def reportsFirst (jobId : String) (s : Agent) (a : Act) : Bool :=
  (!decide (a = .crash) || s.isReported jobId) &&
    Machine.seenAs (view jobId) (seen jobId)
      (fun x b => !x.landsOnCancelled PrintJobStatus.isTerminal b) s a

theorem reportsFirst_iff : s.reportsFirst jobId a = true ↔
    (a = .crash → s.isReported jobId = true) ∧
      Machine.seenAs (view jobId) (seen jobId)
        (fun x b => !x.landsOnCancelled PrintJobStatus.isTerminal b) s a = true := by
  simp [reportsFirst, imp_iff_not_or]

theorem isReported_iff : s.isReported jobId = true ↔
    ∀ v, (s.view jobId).status = some v → v.isTerminal = true →
      ∃ e ∈ s.written, e.jobId = jobId ∧ e.status = v := by
  simp [isReported, Option.all_eq_true, imp_iff_not_or]

/-- the verdict that the row has is carried, or about to be handed over -/
def Reported (jobId : String) (s : Agent) : Prop :=
  ∀ v, (s.view jobId).status = some v → v.isTerminal = true →
    (∃ e, e.jobId = jobId ∧ e.status = v ∧ s.Carried jobId e) ∨ (s.view jobId).ToReport

theorem decided_of_reach (h : agent.Reach (fun s a => s.reportsFirst jobId a = true) s) :
    (s.view jobId).Decided :=
  job_invariant Job.decided_init
    (fun _ _ _ hf hb hd hc hs => Job.decided_step hf hb hd (Bool.not_eq_true' _ ▸ hc) hs)
    (fun _ _ hc => .of_seenAs (reportsFirst_iff.mp hc).2) h

theorem seen_of_honours (h : (s.view jobId).honours = true) :
    s.seen jobId .handlerResume = some .handlerResume := by
  obtain ⟨hd, _, hh, _⟩ := Job.of_honours h
  have hh : s.handlerOf jobId = some hd := hh
  simp [seen, hh]

/-- an event stays carried, or a cancel has stopped its send and goes on to report -/
theorem carried_or_toReport (hr : agent.Reach Machine.Any s) (hs : agent.step s a = some s')
    (hcrash : a ≠ .crash) {e : JobEvent} (h : s.Carried jobId e) :
    s'.Carried jobId e ∨ (s'.view jobId).ToReport := by
  by_cases hcan : a = .handlerResume ∧ (s.view jobId).honours = true
  · obtain ⟨rfl, hhon⟩ := hcan
    right
    have hseen := seen_of_honours hhon
    rcases seen_step (j := jobId) hr hs with ⟨_, hno⟩ | ⟨b, hb, _, _, hstep⟩
    · rw [hseen] at hno
      cases hno
    · rw [hseen] at hb
      cases hb
      exact Job.toReport_of_honours hstep hhon
  · refine .inl (h.step hs hcrash fun ha => ?_)
    simpa [ha] using hcan

theorem reported_step (hr : agent.Reach Machine.Any s) (hd : (s.view jobId).Decided)
    (hi : s.Reported jobId) (hc : s.reportsFirst jobId a = true) (hs : agent.step s a = some s') :
    s'.Reported jobId := by
  intro v hst hv
  obtain ⟨hrep, hland⟩ := reportsFirst_iff.mp hc
  by_cases hcrash : a = .crash
  · subst hcrash
    cases hs
    obtain ⟨e, he, hj, hev⟩ := isReported_iff.mp (hrep rfl) v hst hv
    exact .inl ⟨e, hj, hev, .inl he⟩
  · have hold : ∀ {e : JobEvent}, e.jobId = jobId → e.status = v → s.Carried jobId e →
        (∃ e, e.jobId = jobId ∧ e.status = v ∧ s'.Carried jobId e) ∨ (s'.view jobId).ToReport :=
      fun hj hev h => (carried_or_toReport hr hs hcrash h).imp_left fun h => ⟨_, hj, hev, h⟩
    rcases seen_step (j := jobId) hr hs with ⟨hsame, _⟩ | ⟨b, hseen, hf, hb, hstep⟩
    · rw [hsame] at hst
      rcases hi v hst hv with ⟨e, hj, hev, h⟩ | h
      · exact hold hj hev h
      · exact .inr (hsame ▸ h)
    · have hno : (s.view jobId).landsOnCancelled PrintJobStatus.isTerminal b = false := by
        simpa using Machine.SeenAs.of_seenAs hland b hseen
      have hb' : b ≠ .crash := fun he => hcrash (crash_of_seen (he ▸ hseen))
      rcases Job.status_or_toReport hb hno hstep hst hv with hx | h
      · rcases hi v hx hv with ⟨e, hj, hev, h⟩ | h
        · exact hold hj hev h
        · refine (Job.toReport_step hf hb hd hb' hstep h hx hv).imp_left ?_
          rintro ⟨e, hnew, hev⟩
          have hmem : e ∈ (s'.view jobId).handed := by simp [hnew]
          exact ⟨e, by simpa using (List.mem_filter.mp hmem).2, hev, carried_of_handed hr hs hnew⟩
      · exact .inr h

/-- the send step of a verdict of the job is still to come, or going on -/
def Reporting (jobId : String) (s : Agent) : Prop :=
  (∃ t ∈ (s.slots jobId).tasks, t.isLive = true ∧ t.await.writesVerdict = true) ∨
    (∃ hd, s.ws.loop = .handling hd ∧ hd.jobId = jobId ∧ hd.await = .setCancelled) ∨
    ∃ e, e.jobId = jobId ∧ e.isVerdict = true ∧ s.Sending jobId e

theorem not_reporting (ht : (s.slots jobId).tasks = []) (hl : s.ws.loop = .connecting) :
    ¬ s.Reporting jobId := by
  simp [Reporting, Sending, ht, hl]

/-- **Every verdict is reported** once its send step is over: it was written to a socket, or waits to
be. -/
theorem verdicts_reported (h : agent.Reach (fun s a => s.reportsFirst jobId a = true) s)
    (hl : s.life = .running) {row : PrintJobRow} (hrow : s.store.row jobId = some row)
    (hv : row.status.isTerminal = true) (hdone : ¬ s.Reporting jobId) :
    ∃ e, e.jobId = jobId ∧ e.status = row.status ∧ (e ∈ s.written ∨ e ∈ s.ws.waiting) := by
  have hrep : s.Reported jobId :=
    h.invariant (fun _ hst => by cases hst) fun s a s' hr hi hc hs =>
      reported_step hr.any (decided_of_reach hr) hi hc hs
  rcases hrep row.status (Job.status_eq_some.mpr ⟨row, hrow, rfl⟩) hv with
    ⟨e, hj, hev, hw | hq | hsend⟩ | hto
  · exact ⟨e, hj, hev, .inl hw⟩
  · exact ⟨e, hj, hev, .inr hq⟩
  · refine absurd (.inr (.inr ⟨e, hj, ?_, hsend⟩)) hdone
    exact (congrArg PrintJobStatus.isTerminal hev).trans hv
  · refine absurd ?_ hdone
    cases hto with
    | task ht hl ha => exact .inl ⟨_, List.mem_of_mem_head? ht, hl, ha⟩
    | cancel hh ha =>
      obtain ⟨hw, hj⟩ := Option.filter_eq_some_iff.mp hh
      exact .inr (.inl ⟨_, handler_eq_some.mp hw, by simpa using hj, ha⟩)
    | restart hl' => simp [view, hl, Life.view] at hl'

end Agent

/-! ## a verdict reported, and one forgotten -/

def Schedule.printedOffline (message : PrintJobDispatch) : List Act :=
  startup "1" ++ connect ++ accept "2" message ++ download "3" "/tmp/a.pdf" message.jobId ++
    getStatus true message.jobId ++ start "4" message.jobId ++ [.disconnect] ++
    [.taskPrint message.jobId 0 none, .taskResume message.jobId 0 true,
      .taskCall message.jobId 0 "5", .taskResume message.jobId 0 true,
      .taskResume message.jobId 0 true]

namespace Agent

/-- the flush of the next connection reports the verdict, and a crash comes after it -/
theorem verdicts_reported_flushed :
    ∃ (s : Agent) (row : PrintJobRow), s.life = .running ∧ s.store.row "a" = some row ∧
      row.status = .completed ∧
      ∃ e, e.jobId = "a" ∧ e.status = row.status ∧ (e ∈ s.written ∨ e ∈ s.ws.waiting) := by
  have hrun : (agent.run agent.init (Schedule.printedOffline Schedule.exampleJob ++
    [.connect, .authenticated, .flushSend true, .crash] ++ Schedule.startup "6")).isSome = true := by
    decide
  have hrow := (Option.some_get (x := Table.get (agent.after _ hrun).store "a") (by rfl)).symm
  exact ⟨_, _, rfl, hrow, rfl, verdicts_reported (.of_obeys _ hrun (by decide)) rfl hrow (by rfl)
    (not_reporting (by rfl) (by rfl))⟩

/-- a crash while the verdict waits in the buffer: startup recovery does not hand it over again -/
theorem verdict_forgotten :
    ¬ ∀ (s : Agent) (jobId : String) (row : PrintJobRow), agent.Reach Machine.Any s →
      s.life = .running → s.store.row jobId = some row → row.status.isTerminal = true →
      ¬ s.Reporting jobId →
      ∃ e, e.jobId = jobId ∧ e.status = row.status ∧ (e ∈ s.written ∨ e ∈ s.ws.waiting) := by
  intro h
  have hrun : (agent.run agent.init (Schedule.printedOffline Schedule.exampleJob ++ [.crash] ++
    Schedule.startup "6")).isSome = true := by decide
  have hrow := (Option.some_get (x := Table.get (agent.after _ hrun).store "a") (by rfl)).symm
  obtain ⟨e, _, hst, he⟩ := h _ "a" _ (.after _ hrun) rfl hrow (by rfl)
    (not_reporting (by rfl) (by rfl))
  have hwritten : (agent.after _ hrun).written = [.received "a", .started "a"] := by rfl
  have hwaiting : (agent.after _ hrun).ws.waiting = [] := by rfl
  rw [hwritten, hwaiting] at he
  have he : e = .received "a" ∨ e = .started "a" := by simpa using he
  rcases he with rfl | rfl <;> cases hst

end Agent

end PrintAgent
