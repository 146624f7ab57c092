import PrintAgent.Core.Job
import PrintAgent.Core.Sound

/-!
# The agent refines the single-job view

`agent_shows`: in the sound states every step of the agent, seen by a job, is a step of `Job.Step`,
or leaves what the job sees alone.  With it an invariant of `Job.Step` is one of every run of the
agent (`Machine.Reach.invariant_view`).
-/

namespace PrintAgent

theorem Await.event_jobId {j : String} {a : Await} {e : JobEvent} (h : a.event j = some e) :
    e.jobId = j := by
  unfold Await.event at h
  split at h <;> cases h <;> rfl

theorem HandlerFlow.event_jobId {b a : HandlerAwait} {j : String} {ans : Answer} {e : JobEvent}
    (hr : HandlerFlow b ans (.await a)) (hrec : ∀ r, ans = .record (some r) → r.jobId = j)
    (h : a.event j = some e) : e.jobId = j := by
  cases hr with
  | resend _ _ hj _ =>
    cases h
    rw [hj]
    exact hrec _ rfl
  | insert _ => cases h
  | raced _ => cases h
  | inserted _ => cases h; rfl
  | cancelled => cases h; rfl

namespace Agent

/-! ## what the parts of the view are -/

section Parts
variable {s s' : Agent} {j : String}

theorem handlerOf_congr (h : s'.ws.loop = s.ws.loop) : s'.handlerOf j = s.handlerOf j := by
  simp only [handlerOf, WsClient.handler, h]

theorem handlerOf_handling {hd : Handler} (h : s.ws.loop = .handling hd) :
    s.handlerOf j = if hd.jobId = j then some hd else none := by
  simp [handlerOf, WsClient.handler, h, Option.filter]

theorem handlerOf_idle (h : ∀ hd, s.ws.loop ≠ .handling hd) : s.handlerOf j = none := by
  have hn : s.ws.handler = none := by
    cases hw : s.ws.handler with
    | none => rfl
    | some hd => exact absurd (handler_eq_some.mp hw) (h hd)
  simp [handlerOf, hn]

@[simp] theorem handlerOf_receiving : (s.setLoop .receiving).handlerOf j = none := rfl

theorem filter_event {e : Option JobEvent} (h : ∀ ev, e = some ev → ev.jobId = j) :
    e.toList.filter (·.jobId = j) = e.toList := by
  cases e with
  | none => rfl
  | some ev => simp [h ev rfl]

theorem filter_event_other {e : Option JobEvent} {k : String} (hk : k ≠ j)
    (h : ∀ ev, e = some ev → ev.jobId = k) : e.toList.filter (·.jobId = j) = [] := by
  cases e with
  | none => rfl
  | some ev => simp [h ev rfl, hk]

end Parts

/-! ## the startup steps -/

section Startup
variable {s : Agent} {j : String}

theorem view_markStuck (now : String) :
    view j { s with
        life := .marking (some s.store.stuckPrinting)
        store := (s.store.markStuckPrintingAsFailed now).2 }
      = { s.view j with
          life := .marking (some ((s.view j).status = some .printing))
          row := (s.view j).row.map fun row =>
            if row.status = .printing then row.markFailed now else row } := by
  have hmem : (j ∈ s.store.stuckPrinting) = ((s.view j).status = some .printing) := by
    rw [QueueStore.mem_stuckPrinting]
    simp [Job.status, view, Option.map_eq_some_iff]
  simp only [view, Life.view, Option.map_some, QueueStore.row_markStuck, hmem]
  rfl

theorem view_handStuck {jobIds : List String} (hn : jobIds.Nodup) :
    view j { s.handAll (jobIds.map restartEvent) with life := .listing none }
      = { s.view j with
          life := .listing none
          handed := (s.view j).handed ++ if decide (j ∈ jobIds) then [restartEvent j] else [] } := by
  have hfilter : (jobIds.map restartEvent).filter (fun e => e.jobId = j)
      = if decide (j ∈ jobIds) then [restartEvent j] else [] := by
    induction jobIds with
    | nil => rfl
    | cons k jobIds ih =>
      obtain ⟨hk, hn⟩ := List.nodup_cons.mp hn
      rw [List.map_cons, List.filter_cons, ih hn]
      by_cases hkj : k = j
      · subst hkj
        simp [restartEvent, JobEvent.jobId, hk]
      · have hjk : ¬ j = k := fun he => hkj he.symm
        simp [restartEvent, JobEvent.jobId, hkj, hjk]
  simp only [view, Life.view, handAll, List.filter_append, hfilter]
  rfl

theorem view_listRows :
    view j { s with life := .listing (some s.store.listNonTerminal) }
      = { s.view j with
          life := .listing (some ((s.view j).status.any PrintJobStatus.isResumable)) } := by
  have hmem : decide (j ∈ resumable s.store.listNonTerminal)
      = (s.view j).status.any PrintJobStatus.isResumable := by
    rw [Bool.eq_iff_iff, decide_eq_true_iff, Option.any_eq_true]
    unfold resumable
    constructor
    · intro hm
      obtain ⟨r, hr, rfl⟩ := List.mem_map.mp hm
      obtain ⟨hr, hres⟩ := List.mem_filter.mp hr
      obtain ⟨row, hrow, rfl⟩ := Option.map_eq_some_iff.mp (QueueStore.mem_listNonTerminal.mp hr).1
      exact ⟨row.status, by simp [Job.status, view, hrow], hres⟩
    · rintro ⟨st, hst, hres⟩
      obtain ⟨row, hrow, rfl⟩ := Option.map_eq_some_iff.mp hst
      have hrow : s.store.row j = some row := hrow
      have hid := QueueStore.row_jobId hrow
      have hterm : row.status.isTerminal = false := by
        rcases (PrintJobStatus.isResumable_iff _).mp hres with he | he <;> rw [he] <;> rfl
      refine List.mem_map.mpr ⟨row.toPrintJobRecord, List.mem_filter.mpr ⟨?_, hres⟩, hid⟩
      refine QueueStore.mem_listNonTerminal.mpr ⟨?_, hterm⟩
      show (s.store.row row.jobId).map _ = _
      rw [hid, hrow]
      rfl
  simp only [view, Life.view, Option.map_some, hmem]
  rfl

theorem view_resumeRows {records : List PrintJobRecord} (hs : s.Sound)
    (hl : s.life = .listing (some records)) :
    view j { s.resumeJobs (resumable records) with life := .running }
      = { (if decide (j ∈ resumable records) then (s.view j).createTask else s.view j) with
          life := .running } := by
  have hn : (resumable records).Nodup := (hs.listed records hl).1.sublist (List.filter_sublist.map _)
  have hslot : s.slots j = .empty := (hs.asleep (by simp [hl])).1 j
  obtain ⟨hst, _, hws, hhd, hpr⟩ := s.resumeJobs_fields (resumable records)
  have hhand : (s.resumeJobs (resumable records)).handlerOf j = s.handlerOf j :=
    handlerOf_congr (by rw [hws])
  have hslots := s.resumeJobs_slots (resumable records) hn j
  by_cases hj : j ∈ resumable records
  · rw [if_pos hj, hslot] at hslots
    simp [view, Life.view, hslots, hst, hhd, hpr, hj, handlerOf, hws, Job.createTask, hslot,
      Slot.createTask, Slot.empty]
  · rw [if_neg hj] at hslots
    simp [view, Life.view, hslots, hst, hhd, hpr, hj, handlerOf, hws]

end Startup

/-! ## the steps of the handler -/

section Handlers
variable {s : Agent} {j : String} {h : Handler}

theorem view_handlerCall {c : StoreCall} (now : String) :
    view h.jobId { s.setLoop (.handling (h.answer (s.store.call now h.jobId c).1)) with
      store := (s.store.call now h.jobId c).2 }
      = { s.view h.jobId with
          row := (rowCall now h.jobId (s.view h.jobId).row c).2
          handler := some (h.answer (rowCall now h.jobId (s.view h.jobId).row c).1) } := by
  simp [view, handlerOf_handling, QueueStore.call_self, QueueStore.call_answer, Handler.answer]

theorem view_handlerSend (e : JobEvent) (w : Bool) :
    view h.jobId ((s.sendEnds e w).setLoop (.handling (h.answer .done)))
      = { s.view h.jobId with handler := some (h.answer .done) } := by
  simp [view, handlerOf_handling, Handler.answer]

theorem view_handlerAwait (a : HandlerAwait)
    (ha : ∀ e, a.event h.jobId = some e → e.jobId = h.jobId) :
    view h.jobId (s.resumeHandler h (.await a))
      = { s.view h.jobId with
          handler := some ⟨h.jobId, a, none⟩
          handed := (s.view h.jobId).handed ++ (a.event h.jobId).toList } := by
  simp [view, handlerOf_handling, resumeHandler, filter_event ha]

theorem view_handlerCancelTask (hs : s.Sound) :
    view h.jobId (s.resumeHandler h .cancelTask)
      = { (s.view h.jobId).cancelTask h.jobId with handler := some ⟨h.jobId, .setCancelled, none⟩ } := by
  unfold resumeHandler Slot.cancelTask Job.cancelTask
  cases hent : (s.slots h.jobId).entry with
  | none => simp [view, hent, handlerOf_handling]
  | some i =>
    obtain ⟨t, ht⟩ : ∃ t, (s.slots h.jobId).tasks[i]? = some t :=
      ⟨_, List.getElem?_eq_getElem ((hs.slot h.jobId).entry i hent)⟩
    obtain ⟨rfl, htasks⟩ := (hs.slot h.jobId).index ht
    simp [view, hent, htasks, Slot.setTask, handlerOf_handling]

theorem view_handlerCreateTask (ht : (s.slots h.jobId).tasks = []) :
    view h.jobId (s.resumeHandler h .createTask)
      = { (s.view h.jobId).createTask with handler := none } := by
  simp [view, resumeHandler, Slot.createTask, Job.createTask, ht]

theorem view_handlerRet :
    view h.jobId (s.resumeHandler h .ret) = { s.view h.jobId with handler := none } := by
  simp [view, resumeHandler]

end Handlers

/-! ## the steps of a task -/

section Tasks
variable {s : Agent} {j : String} {i n : Nat} {t : Task}

theorem view_task (hs : s.Sound) (ht : s.task j i = some t) : (s.view j).task = some t ∧ i = 0 := by
  obtain ⟨hi, htasks⟩ := (hs.slot j).index ht
  exact ⟨by simp [view, htasks], hi⟩

theorem head_setTask (hs : s.Sound) (ht : s.task j i = some t) (t' : Task) :
    ((s.slots j).tasks.set i t').head? = some t' := by
  obtain ⟨rfl, htasks⟩ := (hs.slot j).index ht
  simp [htasks]

theorem view_taskCall (hs : s.Sound) (ht : s.task j i = some t) (c : StoreCall) (now : String) :
    view j { s.setTask j i (t.answer (s.store.call now j c).1) with
        store := (s.store.call now j c).2 }
      = { s.view j with
          row := (rowCall now j (s.view j).row c).2
          task := some (t.answer (rowCall now j (s.view j).row c).1) } := by
  simp [view, handlerOf, QueueStore.call_self, QueueStore.call_answer, Slot.setTask,
    head_setTask hs ht]

theorem view_taskAnswer (hs : s.Sound) (ht : s.task j i = some t) (ans : Answer) :
    view j (s.setTask j i (t.answer ans)) = { s.view j with task := some (t.answer ans) } := by
  simp [view, handlerOf, Slot.setTask, head_setTask hs ht]

theorem view_taskSend (hs : s.Sound) (ht : s.task j i = some t) (e : JobEvent) (w : Bool) :
    view j ((s.sendEnds e w).setTask j i (t.answer .done))
      = { s.view j with task := some (t.answer .done) } := by
  simp [view, handlerOf, Slot.setTask, head_setTask hs ht, WsClient.handler]

theorem view_taskPrint (hs : s.Sound) (ht : s.task j i = some t) {p : PrintCall}
    (hp : p.jobId = j) (ans : Answer) :
    view j { s.setTask j i (t.answer ans) with prints := s.prints ++ [p] }
      = { s.view j with task := some (t.answer ans), prints := (s.view j).prints ++ [p] } := by
  simp [view, handlerOf, Slot.setTask, head_setTask hs ht, hp]

theorem view_taskAwait (hs : s.Sound) (ht : s.task j i = some t) (a : Await) :
    view j (s.resumeTask j i (.await a))
      = { s.view j with
          task := some (.goTo j s.ws.socket a)
          handed := (s.view j).handed ++ (a.event j).toList } := by
  simp [view, handlerOf, resumeTask, Slot.setTask, head_setTask hs ht, WsClient.handler,
    filter_event fun _ => Await.event_jobId]

theorem view_endTask (hs : s.Sound) (ht : s.task j i = some t) (inTry : Bool) :
    view j (s.setSlot j ((s.slots j).endTask i inTry)) = (s.view j).endTask inTry := by
  cases inTry <;>
    simp [view, handlerOf, Slot.endTask, Job.endTask, Slot.setTask, head_setTask hs ht]

theorem view_takeLeft (s : Agent) (j : String) (n : Nat) :
    view j (s.takeLeft j n)
      = { s.view j with leftBehind := (s.view j).leftBehind.eraseIdx n } := by
  simp [view, handlerOf, takeLeft]

end Tasks

/-! ## what is not about the job -/

section Others
variable {s : Agent} {j k : String} {h : Handler}

theorem view_setLoop {loop : Loop Handler} (hh : (s.setLoop loop).handlerOf j = s.handlerOf j) :
    view j (s.setLoop loop) = view j s := by
  simp [view, hh]

theorem view_resumeHandler_other (hk : h.jobId ≠ j) (hw : s.ws.loop = .handling h)
    (n : HandlerNext) (hn : ∀ a e, n = .await a → a.event h.jobId = some e → e.jobId = h.jobId) :
    view j (s.resumeHandler h n) = view j s := by
  have hj : j ≠ h.jobId := fun he => hk he.symm
  cases n with
  | await a =>
    have hevent := filter_event_other hk fun e => hn a e rfl
    simp [view, resumeHandler, handlerOf_handling, hk, handlerOf_handling hw, hevent]
  | cancelTask => simp [view, resumeHandler, handlerOf_handling, hk, handlerOf_handling hw, hj]
  | createTask => simp [view, resumeHandler, hk, handlerOf_handling hw, hj]
  | ret => simp [view, resumeHandler, hk, handlerOf_handling hw]

end Others

theorem agent_shows (j : String) : agent.Shows Sound (view j) (seen j) (Job.Step j) := by
  intro s a s' hs hagent
  have h : s.step a = some s' := hagent
  cases a with
  | boot =>
    simp only [step] at h
    split at h <;> cases h
    rename_i hl
    exact .boot (by simp [view, hl, Life.view])
  | markStuck now =>
    simp only [step] at h
    split at h <;> cases h
    rename_i hl
    show (view j s).Step j (.markStuck now) _
    rw [show (s.store.markStuckPrintingAsFailed now).1 = s.store.stuckPrinting from rfl,
      view_markStuck now]
    exact .markStuck now (by simp [view, hl, Life.view])
  | handStuck =>
    simp only [step] at h
    split at h <;> cases h
    rename_i jobIds hl
    show (view j s).Step j .handStuck _
    rw [view_handStuck (hs.marked jobIds hl)]
    exact .handStuck (by simp [view, hl, Life.view])
  | listRows =>
    simp only [step] at h
    split at h <;> cases h
    rename_i hl
    show (view j s).Step j .listRows _
    rw [view_listRows]
    exact .listRows (by simp [view, hl, Life.view])
  | resumeRows =>
    simp only [step] at h
    split at h <;> cases h
    rename_i records hl
    show (view j s).Step j .resumeRows _
    rw [view_resumeRows hs hl]
    exact .resumeRows (by simp [view, hl, Life.view])
  | connect =>
    simp only [step] at h
    split at h <;> cases h
    rename_i hw
    exact view_setLoop (by simp [handlerOf, WsClient.handler, setLoop, WsClient.setLoop, hw])
  | authenticated =>
    simp only [step] at h
    split at h <;> cases h
    rename_i hw
    show view j { s with ws := s.ws.beginFlush } = view j s
    simp [view, handlerOf, WsClient.handler, WsClient.beginFlush, hw]
  | flushSend written =>
    simp only [step] at h
    split at h <;> cases h
    rename_i hw
    refine (view_setLoop ?_).trans ?_
    · simp [handlerOf, WsClient.handler, setLoop, WsClient.setLoop, hw]
    · simp [view, handlerOf, WsClient.handler]
  | flushEnd =>
    simp only [step] at h
    split at h <;> cases h
    rename_i hw
    exact view_setLoop (by simp [handlerOf, WsClient.handler, setLoop, WsClient.setLoop, hw])
  | synced =>
    simp only [step] at h
    split at h <;> cases h
    rename_i hw
    exact view_setLoop (by simp [handlerOf, WsClient.handler, setLoop, WsClient.setLoop, hw])
  | disconnect =>
    simp only [step] at h
    split at h <;> cases h <;> rename_i hw <;>
      exact view_setLoop (by simp [handlerOf, WsClient.handler, setLoop, WsClient.setLoop, hw])
  | dispatch message =>
    simp only [step] at h
    split at h <;> cases h
    rename_i hw
    have hl := hs.running_of_loop (by simp [hw])
    have hidle : s.handlerOf j = none := handlerOf_idle fun hd he => by rw [hw] at he; cases he
    by_cases hj : message.jobId = j
    · subst hj
      simp only [seen, if_true]
      have hv : view message.jobId (s.setLoop (.handling ⟨message.jobId, .getExisting message, none⟩))
          = { s.view message.jobId with
              handler := some ⟨message.jobId, .getExisting message, none⟩ } := by
        simp [view, handlerOf_handling]
      rw [hv]
      exact .dispatch message (by simp [view, hl, Life.view]) hidle
    · simp only [seen, hj, if_false]
      exact view_setLoop (by simp [handlerOf_handling, hj, hidle])
  | cancel message =>
    simp only [step] at h
    split at h <;> cases h
    rename_i hw
    have hl := hs.running_of_loop (by simp [hw])
    have hidle : s.handlerOf j = none := handlerOf_idle fun hd he => by rw [hw] at he; cases he
    by_cases hj : message.jobId = j
    · subst hj
      simp only [seen, if_true]
      have hv : view message.jobId
            ((s.setSlot message.jobId { s.slots message.jobId with cancelRequested := true }).setLoop
              (.handling ⟨message.jobId, .getRecord, none⟩))
          = { s.view message.jobId with
              cancelRequested := true
              handler := some ⟨message.jobId, .getRecord, none⟩ } := by
        simp [view, handlerOf_handling]
      rw [hv]
      exact .cancel (by simp [view, hl, Life.view]) hidle
    · have hj' : j ≠ message.jobId := fun he => hj he.symm
      simp only [seen, hj, if_false]
      simp [view, handlerOf_handling, hj, hj', hidle]
  | handlerCall now =>
    obtain ⟨hd, c, hw, hc, rfl⟩ := of_step_handlerCall h
    simp only [seen, handlerOf_handling hw]
    by_cases hj : hd.jobId = j
    · subst hj
      simp only [if_true, Option.map_some]
      rw [view_handlerCall now]
      exact .handlerCall now (by simp [view, handlerOf_handling hw]) hc
    · have hj' : j ≠ hd.jobId := fun he => hj he.symm
      simp only [hj, if_false, Option.map_none]
      simp [view, handlerOf_handling, Handler.answer, hj, handlerOf_handling hw,
        QueueStore.call_other now hj']
  | handlerSend written =>
    obtain ⟨hd, ev, hw, hev, rfl⟩ := of_step_handlerSend h
    simp only [seen, handlerOf_handling hw]
    by_cases hj : hd.jobId = j
    · subst hj
      simp only [if_true, Option.map_some]
      rw [view_handlerSend]
      exact .handlerSend (by simp [view, handlerOf_handling hw]) hev
    · simp only [hj, if_false, Option.map_none]
      simp [view, handlerOf_handling, Handler.answer, hj, handlerOf_handling hw]
  | handlerResume =>
    obtain ⟨hd, ans, n, hw, hf, hn, rfl⟩ := of_step_handlerResume h
    have hflow := HandlerAwait.flow_of_resume hn
    have hevent : ∀ a e, n = .await a → a.event hd.jobId = some e → e.jobId = hd.jobId := by
      rintro a e rfl he
      exact hflow.event_jobId (fun r hr => hs.answered hd r hw (hr ▸ hf)) he
    simp only [seen, handlerOf_handling hw]
    by_cases hj : hd.jobId = j
    · subst hj
      simp only [if_true, Option.map_some]
      have hh : (s.view hd.jobId).handler = some hd := by simp [view, handlerOf_handling hw]
      cases n with
      | await a =>
        rw [view_handlerAwait a fun e => hevent a e rfl]
        exact .handlerAwait hh hf hn
      | cancelTask =>
        rw [view_handlerCancelTask hs]
        exact .handlerCancelTask hh hf hn
      | createTask =>
        rw [view_handlerCreateTask (hs.fresh hd hw (.inl hflow.of_createTask)).1]
        exact .handlerCreateTask hh hf hn
      | ret =>
        rw [view_handlerRet]
        exact .handlerRet hh hf hn
    · simp only [hj, if_false, Option.map_none]
      exact view_resumeHandler_other hj hw n hevent
  | taskCall k i now =>
    obtain ⟨t, c, ht, hc, rfl⟩ := of_step_taskCall h
    by_cases hk : k = j
    · subst hk
      simp only [seen, if_true]
      rw [view_taskCall hs ht]
      exact .taskCall now (view_task hs ht).1 hc
    · have hk' : j ≠ k := fun he => hk he.symm
      simp only [seen, hk, if_false]
      simp [view, handlerOf, hk', QueueStore.call_other now hk']
  | taskAnswer k i ans =>
    obtain ⟨t, ht, hw, ha, rfl⟩ := of_step_taskAnswer h
    by_cases hk : k = j
    · subst hk
      simp only [seen, if_true]
      rw [view_taskAnswer hs ht]
      exact .taskAnswer (view_task hs ht).1 hw ha
    · have hk' : j ≠ k := fun he => hk he.symm
      simp only [seen, hk, if_false]
      simp [view, handlerOf, hk']
  | taskSend k i written =>
    obtain ⟨t, ev, ht, hev, rfl⟩ := of_step_taskSend h
    by_cases hk : k = j
    · subst hk
      simp only [seen, if_true]
      rw [view_taskSend hs ht]
      exact .taskSend (view_task hs ht).1 hev
    · have hk' : j ≠ k := fun he => hk he.symm
      simp only [seen, hk, if_false]
      simp [view, handlerOf, hk', WsClient.handler]
  | taskPrint k i raises =>
    obtain ⟨t, p, ht, hp, rfl⟩ := of_step_taskPrint h
    have hpj := Task.pendingPrint_jobId hp
    by_cases hk : k = j
    · subst hk
      simp only [seen, if_true]
      rw [view_taskPrint hs ht hpj]
      exact .taskPrint raises (view_task hs ht).1 hp
    · have hk' : j ≠ k := fun he => hk he.symm
      simp only [seen, hk, if_false]
      simp [view, handlerOf, hk', hpj, hk]
  | taskResume k i pathExists =>
    obtain ⟨t, ans, n, ht, hn, hf, hr, rfl⟩ := of_step_taskResume h
    by_cases hk : k = j
    · subst hk
      simp only [seen, if_true]
      cases n with
      | await a =>
        rw [view_taskAwait hs ht]
        exact .taskAwait pathExists s.ws.socket (view_task hs ht).1 hn hf hr
      | ret inTry =>
        rw [resumeTask, view_endTask hs ht]
        exact .taskRet pathExists s.ws.socket (view_task hs ht).1 hn hf hr
    · have hk' : j ≠ k := fun he => hk he.symm
      simp only [seen, hk, if_false]
      cases n with
      | await a =>
        have hevent := filter_event_other (j := j) hk fun e he => Await.event_jobId (a := a) he
        simp [view, handlerOf, resumeTask, hk', WsClient.handler, hevent]
      | ret inTry => simp [view, handlerOf, resumeTask, hk']
  | taskThrow k i =>
    obtain ⟨t, ht, hc, hd, rfl⟩ := of_step_taskThrow h
    by_cases hk : k = j
    · subst hk
      simp only [seen, if_true]
      rw [view_endTask hs ht]
      exact .taskThrow (view_task hs ht).1 hc hd
    · have hk' : j ≠ k := fun he => hk he.symm
      simp only [seen, hk, if_false]
      simp [view, handlerOf, hk']
  | leftCall k n now =>
    obtain ⟨c, hc, rfl⟩ := of_step_leftCall h
    by_cases hk : k = j
    · subst hk
      simp only [seen, if_true]
      have hv : view k { s.takeLeft k n with store := (s.store.call now k c).2 }
          = { s.view k with
              row := (rowCall now k (s.view k).row c).2
              leftBehind := (s.view k).leftBehind.eraseIdx n } := by
        simp [view, handlerOf, takeLeft, QueueStore.call_self]
      rw [hv]
      exact .leftCall now hc
    · have hk' : j ≠ k := fun he => hk he.symm
      simp only [seen, hk, if_false]
      simp [view, handlerOf, takeLeft, hk', QueueStore.call_other now hk']
  | leftPrint k n =>
    obtain ⟨p, hp, rfl⟩ := of_step_leftPrint h
    have hpj := (hs.slot k).left p (List.mem_of_getElem? hp)
    by_cases hk : k = j
    · subst hk
      simp only [seen, if_true]
      have hv : view k { s.takeLeft k n with prints := s.prints ++ [p] }
          = { s.view k with
              prints := (s.view k).prints ++ [p]
              leftBehind := (s.view k).leftBehind.eraseIdx n } := by
        simp [view, handlerOf, takeLeft, hpj]
      rw [hv]
      exact .leftPrint hp
    · have hk' : j ≠ k := fun he => hk he.symm
      simp only [seen, hk, if_false]
      simp [view, handlerOf, takeLeft, hk', hpj, hk]
  | leftDrop k n =>
    obtain ⟨hn, rfl⟩ := of_step_leftDrop h
    by_cases hk : k = j
    · subst hk
      simp only [seen, if_true]
      rw [view_takeLeft]
      exact .leftDrop hn
    · have hk' : j ≠ k := fun he => hk he.symm
      simp only [seen, hk, if_false]
      simp [view, handlerOf, takeLeft, hk']
  | crash =>
    cases h
    exact .crash

end Agent

end PrintAgent
