import PrintAgent.Core.Acknowledged
import PrintAgent.Core.Verdict

/-!
# What `web/` makes of the events

`state_machine.py` mirrors the table by which `web/`, the authoritative record, rejects what is not a legal
transition.  Here the events of a job are replayed over that table, from `QUEUED` on:

* `webStatus`            the status after a list of events, if none of them is rejected;
* `Job.Mirrored`         nothing was rejected, and the row is where `web/` is or a legal transition ahead of it;
* `web_rejects_nothing`  so it is in every run in which cancels go on in time and no crash loses an acknowledgement.

The events follow the row: each one has the status of the row when it is handed over (`Job.status_of_handed_over`).
So the invariant is that the row does not get two transitions ahead, where `PRINTING` is the one that matters:
`COMPLETED` is not legal before it was reported.
-/

namespace PrintAgent

/-- what `web/` does with an event -/
def PrintJobStatus.afterEvent (status : PrintJobStatus) (e : JobEvent) : Option PrintJobStatus :=
  if status.isLegalTransition e.status then some e.status else none

/-- the status in `web/` after the events of a job; `none` when one of them was rejected -/
def webStatus (events : List JobEvent) : Option PrintJobStatus := events.foldlM PrintJobStatus.afterEvent .queued

namespace PrintJobStatus
variable {status st next : PrintJobStatus}

theorem afterEvent_of_legal {e : JobEvent} (h : status.isLegalTransition e.status = true) :
    status.afterEvent e = some e.status := if_pos h

theorem eq_of_afterEvent {e : JobEvent} (h : status.afterEvent e = some st) : st = e.status := by
  unfold afterEvent at h
  split at h
  · exact (Option.some.inj h).symm
  · cases h

theorem legal_failed (h : status.isLegalTransition .printing = true) : status.isLegalTransition .failed = true := by
  cases status <;> first | rfl | exact absurd h (by decide)

/-- a row that can be resumed may be cancelled, and after an acknowledgement it may do more -/
theorem legal_of_resumable (h : status.isLegalTransition st = true) (hr : st.isResumable = true)
    (hn : next = .cancelled ∨
      status ≠ .queued ∧ (next = .waitingForPrinter ∨ next = .printing ∨ next = .failed)) :
    status.isLegalTransition next = true := by
  rcases (isResumable_iff st).mp hr with rfl | rfl
  all_goals
    rcases hn with rfl | ⟨hne, rfl | rfl | rfl⟩
    all_goals cases status <;> first | rfl | exact absurd rfl hne | exact absurd h (by decide)

end PrintJobStatus

theorem webStatus_append (events : List JobEvent) (e : JobEvent) :
    webStatus (events ++ [e]) = (webStatus events).bind (·.afterEvent e) := by
  simp [webStatus, List.foldlM_append]

theorem webStatus_ne_queued {events : List JobEvent} {status : PrintJobStatus} (hne : events ≠ [])
    (h : webStatus events = some status) : status ≠ .queued := by
  obtain ⟨before, e, rfl⟩ := events.eq_nil_or_concat'.resolve_left hne
  rw [webStatus_append, Option.bind_eq_some_iff] at h
  obtain ⟨status', -, hafter⟩ := h
  rw [PrintJobStatus.eq_of_afterEvent hafter]
  cases e <;> nofun

namespace Await

/-- `PRINTING` is written and `print.job.started` handed over -/
def hasStarted : Await → Bool
  | .sendStarted _ _ | .print _ _ | .setCompleted => true
  | _ => false

theorem not_hasStarted_of_isEarly {a : Await} (h : a.isEarly = true) : a.hasStarted = false := by
  cases a <;> first | rfl | cases h

end Await

namespace Job
variable {jobId : String} {x y : Job} {b : JobAct}

structure Mirrored (x : Job) : Prop where
  /-- `web/` has rejected nothing, and would take what the row says -/
  behind : ∃ v, webStatus x.handed = some v ∧ ∀ st, x.status = some st → v.isLegalTransition st = true
  unstored : x.status = none → x.handed = []
  /-- `COMPLETED` is not written before `print.job.started` is handed over -/
  started : ∀ t, x.task = some t → t.isLive = true → t.await.hasStarted = true → x.status = some .printing →
    webStatus x.handed = some .printing

theorem mirrored_init : Mirrored .init where
  behind := ⟨.queued, rfl, fun _ hst => by cases hst⟩
  unstored _ := rfl
  started _ ht := by cases ht

theorem status_of_handed_over (hf : x.Fit) (hb : x.Base) (hv : x.OneVerdict) {e : JobEvent}
    (hh : HandedStep jobId x b (some e)) : x.status = some e.status := by
  cases hh with
  | restarted hl => exact hv.restarted hl
  | received hh ha hfut => exact hb.fresh _ hh (.inr ⟨_, ha, hfut⟩)
  | resent hh _ hfut ht he => exact he ▸ hv.read _ _ hh hfut ht
  | cancelled hh ha hfut => exact hv.written _ hh ha (by simp [hfut])
  | worked _ _ ht hl hfut hflow he => exact hb.status_of_worked hf ht hl hfut hflow he

theorem Mirrored.webStatus_event (hm : x.Mirrored) {e : JobEvent} (hst : x.status = some e.status) :
    webStatus (x.handed ++ [e]) = some e.status := by
  obtain ⟨v, hv, hlegal⟩ := hm.behind
  rw [webStatus_append, hv]
  exact PrintJobStatus.afterEvent_of_legal (hlegal _ hst)

theorem mirrored_event (hf : x.Fit) (hb : x.Base) (hv : x.OneVerdict) (hm : x.Mirrored) (hs : Step jobId x b y)
    {e : JobEvent} (hh : HandedStep jobId x b (some e)) (hhanded : y.handed = x.handed ++ [e]) : y.Mirrored := by
  have hst := status_of_handed_over hf hb hv hh
  have hy : y.status = some e.status := (status_of_handed hb hs hh).trans hst
  have hweb : webStatus y.handed = some e.status := by
    rw [hhanded]
    exact hm.webStatus_event hst
  refine ⟨⟨e.status, hweb, fun st hst' => ?_⟩, fun hnone => ?_, fun _ _ _ _ hp => ?_⟩
  · rw [hy] at hst'
    cases hst'
    exact PrintJobStatus.isLegalTransition_self _
  · rw [hy] at hnone
    cases hnone
  · exact hweb.trans (hy.symm.trans hp)

theorem Acked.of_task (ha : x.Acked jobId) (hf : x.Fit) {t : Task} (ht : x.task = some t) : x.handed ≠ [] := by
  obtain ⟨row, hrow⟩ := hf.stored t ht
  rcases ha.acked (by rw [hrow]; nofun) with hne | ⟨h, hh, ho⟩
  · exact hne
  · obtain ⟨d, hawait, hfut⟩ := owesAck_iff.mp ho
    have hnone := (hf.fresh h hh (.inr ⟨d, hawait, hfut⟩)).1
    rw [ht] at hnone
    cases hnone

theorem Mirrored.legal_worked (hb : x.Base) (hm : x.Mirrored) {v : PrintJobStatus}
    (hv : webStatus x.handed = some v) (hlegal : ∀ st, x.status = some st → v.isLegalTransition st = true)
    (hne : v ≠ .queued) {t : Task} {c : StoreCall} {st st' : PrintJobStatus} (htask : x.task = some t)
    (hl : t.isLive = true) (hfut : t.fut = none) (hcall : t.await.storeCall = some c) (hw : c.written = some st')
    (hst : x.status = some st) : v.isLegalTransition st' = true := by
  have hex := hb.live t htask hl st hst
  rw [hfut] at hex
  rcases Await.written_cases hcall hw with ⟨rfl, he⟩ | ⟨rfl, _, _, he⟩ | ⟨rfl, he⟩ | ⟨rfl, _, _, he⟩
  · exact PrintJobStatus.legal_of_resumable (hlegal st hst) ((Await.expects_of_isEarly he).mp hex)
      (.inr ⟨hne, .inl rfl⟩)
  · rw [he] at hex
    exact PrintJobStatus.legal_of_resumable (hlegal st hst) hex (.inr ⟨hne, .inr (.inl rfl)⟩)
  · rw [he] at hex
    cases hex
    have hprinting := hm.started t htask hl (by rw [he]; rfl) hst
    rw [hv] at hprinting
    cases hprinting
    rfl
  · rw [he] at hex
    rcases hex with hr | rfl
    · exact PrintJobStatus.legal_of_resumable (hlegal st hst) hr (.inr ⟨hne, .inr (.inr rfl)⟩)
    · exact PrintJobStatus.legal_failed (hlegal _ hst)

/-- a step that hands nothing over does not bring the row two transitions ahead -/
theorem mirrored_behind (hf : x.Fit) (hb : x.Base) (ha : x.Acked jobId) (ht : x.Timely) (hm : x.Mirrored)
    (hc : x.cancelsInTime b = true) (hs : Step jobId x b y) :
    ∃ v, webStatus x.handed = some v ∧ ∀ st, y.status = some st → v.isLegalTransition st = true := by
  obtain ⟨v, hv, hlegal⟩ := hm.behind
  refine ⟨v, hv, fun st hst => ?_⟩
  have hqueued : ∀ {t}, x.task = some t → v ≠ .queued := fun htask => webStatus_ne_queued (ha.of_task hf htask) hv
  have hcancelling : x.Cancelling → (st = .cancelled ∨ v ≠ .queued ∧ st = .waitingForPrinter) →
      v.isLegalTransition st = true := by
    intro hcan hor
    obtain ⟨st₀, hst₀, hr⟩ := ht.cancelling hcan
    exact PrintJobStatus.legal_of_resumable (hlegal st₀ hst₀) hr (hor.imp_right fun h => ⟨h.1, .inl h.2⟩)
  have hstat := status_step hs hb.leftCall
  rw [hst] at hstat
  cases hstat with
  | same he => exact hlegal st he.symm
  | inserted now hh hfut hawait hrow =>
    have hnone : x.status = none := by
      unfold status
      rw [hrow]
      rfl
    rw [hm.unstored hnone] at hv
    cases hv
    rfl
  | restarted now hl hx => exact PrintJobStatus.legal_failed (hlegal _ hx)
  | cancelled now hh hfut hawait hx => exact hcancelling ⟨_, hh, hawait, hfut⟩ (.inl rfl)
  | worked now htask hl hfut hcall hw hx =>
    exact hm.legal_worked hb hv hlegal (hqueued htask) htask hl hfut hcall hw hx
  | left now hn hw hx =>
    have hmem := List.mem_of_getElem? hn
    cases ht.left _ hmem _ hw
    obtain ⟨t, htask, -⟩ := hb.left (List.ne_nil_of_mem hmem)
    rcases hb.landing (List.ne_nil_of_mem hmem) with hcan | hcan
    · exact hcancelling hcan (.inr ⟨hqueued htask, rfl⟩)
    · have hno := (cancelsInTime_iff.mp hc).2
      rw [landsOnCancelled_of hcan hn hw rfl] at hno
      cases hno

theorem handed_of_sendStarted {pathExists socket : Bool} (hs : Step jobId x (.taskResume pathExists socket) y)
    {record : PrintJobRecord} {path : String}
    (ht : y.task = some (.goTo jobId socket (.sendStarted record path))) :
    y.handed = x.handed ++ [.started jobId] := by
  have hawait : (y.task.map (·.await)) = some (.sendStarted record path) := by
    rw [ht]
    rfl
  cases hs with
  | taskAwait _ _ hx hn hfut hr =>
    rename_i t ans a
    have ha : a = .sendStarted record path := Option.some.inj hawait
    subst ha
    rfl
  | taskRet => cases hawait

theorem status_of_hasStarted (hb : x.Base) (ht : x.Timely) (hs : Step jobId x b y) (hp : y.status = some .printing)
    (ha : ∀ t, x.task = some t → ∀ record path, t.await ≠ .setPrinting record path) : x.status = some .printing := by
  have hstat := status_step hs hb.leftCall
  rw [hp] at hstat
  cases hstat with
  | same he => exact he.symm
  | worked now htask hl hfut hc hw hst =>
    rcases Await.written_cases hc hw with ⟨he, _⟩ | ⟨_, _, _, he⟩ | ⟨he, _⟩ | ⟨he, _⟩
    · cases he
    · exact absurd he (ha _ htask _ _)
    · cases he
    · cases he
  | left now hn hw hst => cases ht.left _ (List.mem_of_getElem? hn) _ hw

theorem mirrored_started (hb : x.Base) (ht : x.Timely) (hm : x.Mirrored) (hs : Step jobId x b y)
    (hhanded : y.handed = x.handed) {t : Task} (htask : y.task = some t) (hl : t.isLive = true)
    (hstarted : t.await.hasStarted = true) (hp : y.status = some .printing) :
    webStatus x.handed = some .printing := by
  have hkeep : ∀ t, x.task = some t → t.isLive = true → t.await.hasStarted = true →
      webStatus x.handed = some .printing := by
    intro t htask hl hstarted
    refine hm.started t htask hl hstarted (status_of_hasStarted hb ht hs hp fun t' htask' record path he => ?_)
    rw [htask] at htask'
    cases htask'
    rw [he] at hstarted
    cases hstarted
  have hmoves := task_step hs
  have hy := htask
  rw [htask] at hmoves
  cases hmoves with
  | same _ he => exact hkeep t he.symm hl hstarted
  | created => cases hstarted
  | cancelled =>
    rw [Task.cancel_isLive] at hl
    cases hl
  | answered ans hx hl' => exact hkeep _ hx hl' hstarted
  | went pathExists socket hx hl' hfut hflow =>
    rename_i t' ans a
    generalize he : t'.await = a' at hflow
    cases hflow with
    | early _ hearly =>
      have hno := Await.not_hasStarted_of_isEarly hearly
      exact absurd hstarted (by rw [show (Task.goTo jobId socket a).await = a from rfl, hno]; nofun)
    | toStarted =>
      rw [handed_of_sendStarted hs hy] at hhanded
      exact absurd (List.append_right_eq_self.mp hhanded) (List.cons_ne_nil _ _)
    | toPrint => exact hkeep t' hx hl' (by rw [he]; rfl)
    | printed => exact hkeep t' hx hl' (by rw [he]; rfl)
    | _ => cases hstarted
  | ended => cases hl
  | thrown => cases hl

theorem mirrored_step (hf : x.Fit) (hb : x.Base) (ha : x.Acked jobId) (ht : x.Timely) (hv : x.OneVerdict)
    (hm : x.Mirrored) (hc : x.cancelsInTime b = true) (hs : Step jobId x b y) : y.Mirrored := by
  obtain ⟨o, hhanded, hh⟩ := handed_step hs
  cases o with
  | some e => exact mirrored_event hf hb hv hm hs hh hhanded
  | none =>
    rw [Option.toList_none, List.append_nil] at hhanded
    obtain ⟨v, hweb, hlegal⟩ := mirrored_behind hf hb ha ht hm hc hs
    refine ⟨⟨v, by rw [hhanded, hweb], hlegal⟩, fun hnone => ?_, fun t htask hl hstarted hp => ?_⟩
    · rw [hhanded]
      refine hm.unstored (Option.eq_none_iff_forall_ne_some.mpr fun st hst => ?_)
      obtain ⟨st', hst'⟩ := stored_step hb hs ⟨st, hst⟩
      rw [hnone] at hst'
      cases hst'
    · rw [hhanded]
      exact mirrored_started hb ht hm hs hhanded htask hl hstarted hp

theorem cancelsOpen_of_inTime (hv : x.OneVerdict) (hc : x.cancelsInTime b = true) : x.cancelsOpen b = true := by
  obtain ⟨hcancels, hlands⟩ := cancelsInTime_iff.mp hc
  refine cancelsOpen_iff.mpr ⟨fun hb hx => isOpen_iff.mpr fun e he => ?_, hlands⟩
  obtain ⟨⟨st, hst, hr⟩, -⟩ := isCancellable_iff.mp (hcancels hb hx)
  by_contra hverdict
  have hverdict : e.status.isTerminal = true := Bool.of_not_eq_false hverdict
  have hsame := hv.settled e he hverdict
  rw [hst] at hsame
  rw [← Option.some.inj hsame] at hverdict
  rcases (PrintJobStatus.isResumable_iff st).mp hr with rfl | rfl <;> cases hverdict

end Job

namespace Agent

/-- **`web/` rejects nothing that the agent reports**, where cancels go on in time and no crash loses an
acknowledgement: each event of a job, those that are sent again and those after a restart included, is a legal
transition from the one before, and the row may be reported next. -/
theorem web_rejects_nothing {jobId : String} {s : Agent}
    (h : agent.Reach (fun s a => (s.keepsAck jobId a && s.cancelsInTime jobId a) = true) s) :
    ∃ v, webStatus (s.handed.filter (·.jobId = jobId)) = some v ∧
      ∀ row, s.store.row jobId = some row → v.isLegalTransition row.status = true := by
  have hall : (s.view jobId).Acked jobId ∧ (s.view jobId).Timely ∧ (s.view jobId).OneVerdict ∧
      (s.view jobId).Mirrored := by
    refine job_invariant (I := fun x => x.Acked jobId ∧ x.Timely ∧ x.OneVerdict ∧ x.Mirrored)
      (D := fun x b => x.keepsAck b = true ∧ x.cancelsInTime b = true)
      ⟨Job.acked_init, Job.timely_init, Job.oneVerdict_init, Job.mirrored_init⟩ ?_ ?_ h
    · intro x b y hf hb ⟨ha, ht, hv, hm⟩ ⟨hack, hc⟩ hs
      exact ⟨Job.acked_step hf hb ha hack hs, Job.timely_step hf hb ht hc hs,
        Job.verdict_step hf hb hv (Job.cancelsOpen_of_inTime hv hc) hs, Job.mirrored_step hf hb ha ht hv hm hc hs⟩
    · intro s a hc b hb
      obtain ⟨hack, htime⟩ := Bool.and_eq_true_iff.mp hc
      exact ⟨Machine.SeenAs.of_seenAs hack b hb, Machine.SeenAs.of_seenAs htime b hb⟩
  obtain ⟨v, hweb, hlegal⟩ := hall.2.2.2.behind
  exact ⟨v, hweb, fun row hrow => hlegal _ (Job.status_eq_some.mpr ⟨row, hrow, rfl⟩)⟩

end Agent

/-- a job is resumed by the second process, printed, and dispatched again -/
def Schedule.resumedAndResent (message : PrintJobDispatch) : List Act :=
  resumed message ++ print "6" message.jobId ++ [.dispatch message, .handlerCall "7", .handlerResume]

theorem isSome_resumedAndResent :
    (agent.run agent.init (Schedule.resumedAndResent Schedule.exampleJob)).isSome = true := by decide

theorem Agent.web_rejects_nothing_resent :
    (agent.after _ isSome_resumedAndResent).handed =
        [.received "a", .started "a", .completed "a", .completed "a"] ∧
      ∃ v, webStatus ((agent.after _ isSome_resumedAndResent).handed.filter (·.jobId = "a")) = some v ∧
        ∀ row, (agent.after _ isSome_resumedAndResent).store.row "a" = some row →
          v.isLegalTransition row.status = true :=
  ⟨rfl, web_rejects_nothing (.of_obeys _ isSome_resumedAndResent (by decide))⟩

/-- a cancel that goes on after the task has failed: `CANCELLED` is rejected -/
example :
    (agent.run agent.init (Schedule.failedUnderCancel Schedule.exampleJob ++ [.taskResume "a" 0 true] ++
      Schedule.goOnWithCancel "7")).map (fun s => webStatus (s.handed.filter (·.jobId = "a"))) = some none := by
  decide

/-- a crash before the acknowledgement: `PRINTING` is rejected -/
example :
    (agent.run agent.init (Schedule.unacknowledged Schedule.exampleJob)).map
      (fun s => webStatus (s.handed.filter (·.jobId = "a"))) = some none := by
  decide

end PrintAgent
