import PrintAgent.Core.Stranded

/-!
# A timely cancel

A `handle_cancel` that begins while the row can be cancelled and the task has submitted nothing else
than `WAITING_FOR_PRINTER`.  From there on the job goes through the stages of `Job.Cancels`: the
handler is to read, is to write `CANCELLED`, has written it, is sending `print.job.cancelled`, has
ended.  Then `Job.Won` holds for good: the row is `CANCELLED`, and nothing else than that is handed
over.

`timely_cancel_wins`: so it is as long as the task does not fail while the handler reads, and no
status write lands on the `CANCELLED` row.  `timely_cancel_lost` is a task that waits for its printer,
finds the flag set, and fails.
-/

namespace PrintAgent

namespace Await

/-- `_process` goes on to write `FAILED`, when the cancel flag is set -/
def failsOn : Await → Answer → Bool
  | .download _, .downloadError _ _ => true
  | .setWaiting _ _, .done => true
  | .pollStatus _ _ _, .status false => true
  | _, _ => false

theorem isEarly_of_resume {a b : Await} {e : Bool} {ans : Answer} (ha : a.isEarly = true)
    (hf : a.failsOn ans = false) (h : a.resume true e ans = some (.await b)) : b.isEarly = true := by
  unfold resume at h
  split at h
  case h_1 => cases h; rfl
  case h_2 => cases h
  case h_3 =>
    split at h
    · cases h; rfl
    · split at h
      · cases h; rfl
      · rw [waitForPrinter_await (Option.some.inj h)]; rfl
  case h_4 => cases h; rfl
  case h_5 => cases hf
  case h_6 => cases h
  case h_7 => rw [waitForPrinter_await (Option.some.inj h)]; rfl
  case h_8 => cases (printerOnline_await (Option.some.inj h)).1
  case h_9 => cases h; rfl
  case h_10 => cases h
  case h_11 => cases hf
  case h_12 => cases h; rfl
  case h_13 => cases (printerOnline_await (Option.some.inj h)).1
  case h_14 => cases hf
  case h_15 => cases h
  case h_24 => cases h
  all_goals cases ha

end Await

namespace HandlerAwait

theorem storeCall_or_event (a : HandlerAwait) (j : String) :
    (∃ c, a.storeCall = some c) ∨ ∃ e, a.event j = some e := by
  cases a <;> first | exact .inl ⟨_, rfl⟩ | exact .inr ⟨_, rfl⟩

theorem resume_rowCall {a : HandlerAwait} {c : StoreCall} (hc : a.storeCall = some c)
    (now j : String) (row : Option PrintJobRow) : (a.resume (rowCall now j row c).1).isSome = true := by
  cases a <;> cases hc <;> cases row <;> rfl

theorem resume_done {a : HandlerAwait} {j : String} {e : JobEvent} (he : a.event j = some e) :
    (a.resume .done).isSome = true := by
  cases a <;> cases he <;> rfl

end HandlerAwait

namespace Job
variable {jobId : String} {x y : Job} {b : JobAct} {handed : List JobEvent}

def Answered (x : Job) : Prop :=
  ∀ h ans, x.handler = some h → h.fut = some ans → (h.await.resume ans).isSome = true

theorem answered_init : Answered .init := fun _ _ hh => by cases hh

theorem answered_step (hi : x.Answered) (hs : Step jobId x b y) : y.Answered := by
  intro h ans hh hfut
  have hhand := handler_step hs
  rw [hh] at hhand
  cases hhand with
  | same _ he => exact hi h ans he.symm hfut
  | dispatch => cases hfut
  | cancel => cases hfut
  | called now hh' _ hc =>
    cases hfut
    exact HandlerAwait.resume_rowCall hc now jobId x.row
  | sent hh' _ he =>
    cases hfut
    exact HandlerAwait.resume_done he
  | went => cases hfut
  | cancelling => cases hfut

theorem running_step (hs : Step jobId x b y) (hcrash : b ≠ .crash) (hl : x.life = .running) :
    y.life = .running := by
  cases hs with
  | boot hl' => rw [hl] at hl'; cases hl'
  | markStuck _ hl' => rw [hl] at hl'; cases hl'
  | handStuck hl' => rw [hl] at hl'; cases hl'
  | listRows hl' => rw [hl] at hl'; cases hl'
  | resumeRows => rfl
  | handlerCancelTask => exact (x.cancelTask_life jobId).trans hl
  | crash => exact absurd rfl hcrash
  | _ => exact hl

/-! ## the stages of a cancel -/

/-- the task goes on to write `FAILED` while `handle_cancel` waits for its read -/
def failsUnderCancel (x : Job) : JobAct → Bool
  | .taskResume _ _ =>
    (x.handler.any fun h => h.await = .getRecord) && x.task.any fun t => t.fut.any t.await.failsOn
  | _ => false

/-- the task does not fail while `handle_cancel` reads, and nothing lands on a `CANCELLED` row -/
def cancelWins (x : Job) (b : JobAct) : Bool :=
  !x.failsUnderCancel b && !x.landsOnCancelled (fun _ => true) b

theorem cancelWins_iff : x.cancelWins b = true ↔
    x.failsUnderCancel b = false ∧ x.landsOnCancelled (fun _ => true) b = false := by
  simp [cancelWins]

/-- the stages of a `handle_cancel`, with what had been handed over for the job when it began -/
inductive Cancels (jobId : String) (handed : List JobEvent) (x : Job) : Prop
  | reading {h : Handler} {st : PrintJobStatus} (hh : x.handler = some h) (hr : h.isReading)
      (hst : x.status = some st) (hres : st.isResumable = true) (he : x.handed = handed)
      (hearly : ∀ t, x.task = some t → t.isLive = true →
        t.await.isEarly = true ∧ x.cancelRequested = true)
  | writing (hc : x.Cancelling) (he : x.handed = handed)
  | written {h : Handler} (hh : x.handler = some h) (ha : h.await = .setCancelled)
      (hfut : h.fut ≠ none) (hst : x.status = some .cancelled) (he : x.handed = handed)
  | sending {h : Handler} (hh : x.handler = some h) (ha : h.await = .sendCancelled)
      (hst : x.status = some .cancelled) (he : x.handed = handed ++ [.cancelled jobId])
  | ended (hl : x.life = .running) (hh : x.handler = none) (hst : x.status = some .cancelled)
      (he : x.handed = handed ++ [.cancelled jobId])
      (hstop : ∀ t, x.task = some t → t.isLive = false)

theorem cancelled_stays (hb : x.Base) (hc : x.cancelWins b = true) (hs : Step jobId x b y)
    (hst : x.status = some .cancelled) : y.status = some .cancelled := by
  rcases terminal_step hb hs hst rfl with hy | ⟨_, hy⟩ | ⟨n, now, c, st, rfl, hn, hw, _⟩
  · exact hy
  · exact hy
  · have hno := (cancelWins_iff.mp hc).2
    rw [landsOnCancelled_of hst hn hw rfl] at hno
    cases hno

/-- with a handler running that is not resumed, only a task that is past its start hands events
over -/
theorem handed_of_early (hf : x.Fit) (hs : Step jobId x b y) {h : Handler} (hh : x.handler = some h)
    (hb : b ≠ .handlerResume)
    (hearly : ∀ t, x.task = some t → t.isLive = true → t.await.isEarly = true) :
    y.handed = x.handed := by
  obtain ⟨o, hhanded, ho⟩ := handed_step hs
  cases ho with
  | nothing => rw [hhanded, Option.toList_none, List.append_nil]
  | restarted hl =>
    rw [(hf.asleep (by simp [hl])).2.2.1] at hh
    cases hh
  | received => exact absurd rfl hb
  | resent => exact absurd rfl hb
  | cancelled => exact absurd rfl hb
  | worked pathExists socket ht hl hfut hflow he =>
    rename_i t ans a e
    have ha := hearly _ ht hl
    exfalso
    generalize t.await = a' at hflow ha
    cases hflow with
    | early _ ha => cases a <;> first | cases he; done | cases ha
    | toPrinting => cases he
    | toFailed => cases he
    | _ => cases ha

theorem handed_handlerResume (hs : Step jobId x .handlerResume y) {h : Handler}
    (hh : x.handler = some h) (ha : h.await = .getRecord ∨ h.await = .sendCancelled) :
    y.handed = x.handed := by
  have hsame : ∀ {h'}, x.handler = some h' → h' = h := fun hh' => by
    rw [hh] at hh'
    exact (Option.some.inj hh').symm
  obtain ⟨o, hhanded, ho⟩ := handed_step hs
  cases ho with
  | nothing => rw [hhanded, Option.toList_none, List.append_nil]
  | received hh' ha' =>
    cases hsame hh'
    rcases ha with ha | ha <;> rw [ha] at ha' <;> cases ha'
  | resent hh' ha' =>
    cases hsame hh'
    rcases ha with ha | ha <;> rcases ha' with ha' | ⟨_, ha'⟩ <;> rw [ha] at ha' <;> cases ha'
  | cancelled hh' ha' =>
    cases hsame hh'
    rcases ha with ha | ha <;> rw [ha] at ha' <;> cases ha'

theorem cancelRequested_step (hs : Step jobId x b y) (hx : x.cancelRequested = true) :
    y.cancelRequested = true ∨ ∀ t, y.task = some t → t.isLive = false := by
  cases hs with
  | resumeRows hl => rename_i resume; cases resume <;> exact .inl hx
  | cancel => exact .inl rfl
  | handlerCancelTask => exact .inl ((x.cancelTask_cancelRequested jobId).trans hx)
  | taskRet => exact .inr fun t ht => by cases ht; rfl
  | taskThrow => exact .inr fun t ht => by cases ht; rfl
  | crash => exact .inr fun t ht => by cases ht
  | _ => exact .inl hx

theorem early_step (hf : x.Fit) (hc : x.cancelWins b = true) (hs : Step jobId x b y) {h : Handler}
    (hh : x.handler = some h) (ha : h.await = .getRecord)
    (hearly : ∀ t, x.task = some t → t.isLive = true →
      t.await.isEarly = true ∧ x.cancelRequested = true) :
    ∀ t, y.task = some t → t.isLive = true → t.await.isEarly = true ∧ y.cancelRequested = true := by
  intro t ht hl
  have hflag : x.cancelRequested = true → y.cancelRequested = true := fun hx => by
    rcases cancelRequested_step hs hx with hy | hstop
    · exact hy
    · rw [hstop t ht] at hl
      cases hl
  have htask := task_step hs
  rw [ht] at htask
  cases htask with
  | same _ he =>
    obtain ⟨hea, hcr⟩ := hearly t he.symm hl
    exact ⟨hea, hflag hcr⟩
  | created hcr =>
    cases hcr with
    | resumed hlife =>
      rw [(hf.asleep (by simp [hlife])).2.2.1] at hh
      cases hh
    | dispatched hh' ha' =>
      rw [hh] at hh'
      cases hh'
      rw [ha] at ha'
      cases ha'
  | cancelled => simp at hl
  | answered ans ht' hl' =>
    obtain ⟨hea, hcr⟩ := hearly _ ht' hl'
    exact ⟨hea, hflag hcr⟩
  | went pathExists socket ht' hl' hfut hflow =>
    rename_i t' ans a
    obtain ⟨hea, hcr⟩ := hearly t' ht' hl'
    refine ⟨?_, hflag hcr⟩
    cases hs with
    | taskAwait _ _ ht'' _ hfut' hr =>
      cases ht
      rw [ht'] at ht''
      cases ht''
      have hfails : t'.await.failsOn ans = false := by
        have hno := (cancelWins_iff.mp hc).1
        rw [hfut] at hfut'
        cases hfut'
        simpa [failsUnderCancel, hh, ha, ht', hfut] using hno
      rw [hfut] at hfut'
      cases hfut'
      rw [hcr] at hr
      exact Await.isEarly_of_resume hea hfails hr
    | taskRet => cases ht; cases hl
  | ended => cases hl
  | thrown => cases hl

theorem resumable_step (hf : x.Fit) (hb : x.Base) (hs : Step jobId x b y) {h : Handler}
    (hh : x.handler = some h) (ha : h.await = .getRecord) {st : PrintJobStatus}
    (hst : x.status = some st) (hres : st.isResumable = true)
    (hearly : ∀ t, x.task = some t → t.isLive = true → t.await.isEarly = true) :
    ∃ st, y.status = some st ∧ st.isResumable = true := by
  have hstat := status_step hs hb.leftCall
  generalize y.status = o at hstat
  cases hstat with
  | same he => exact ⟨st, he.trans hst, hres⟩
  | inserted now hh' _ ha' => rw [hh] at hh'; cases hh'; rw [ha] at ha'; cases ha'
  | restarted now hl =>
    rw [(hf.asleep (by simp [hl])).2.2.1] at hh
    cases hh
  | cancelled now hh' _ ha' => rw [hh] at hh'; cases hh'; rw [ha] at ha'; cases ha'
  | worked now ht hl _ hcall hw =>
    have hea := hearly _ ht hl
    rcases Await.written_cases hcall hw with ⟨rfl, _⟩ | ⟨_, _, _, he⟩ | ⟨_, he⟩ | ⟨_, _, _, he⟩
    · exact ⟨_, rfl, rfl⟩
    all_goals rw [he] at hea; cases hea
  | left now hn =>
    rcases hb.landing (List.ne_nil_of_mem (List.mem_of_getElem? hn)) with ⟨h', hh', ha', _⟩ | hcan
    · rw [hh] at hh'
      cases hh'
      rw [ha] at ha'
      cases ha'
    · rw [hst] at hcan
      cases hcan
      cases hres

theorem cancels_of_reading (hf : x.Fit) (hb : x.Base) (hc : x.cancelWins b = true)
    (hcrash : b ≠ .crash) (hs : Step jobId x b y) {h : Handler} {st : PrintJobStatus}
    (hh : x.handler = some h) (hr : h.isReading) (hst : x.status = some st)
    (hres : st.isResumable = true) (he : x.handed = handed)
    (hearly : ∀ t, x.task = some t → t.isLive = true →
      t.await.isEarly = true ∧ x.cancelRequested = true) : y.Cancels jobId handed := by
  rcases reading_step hs hh hr fun _ => ⟨st, hst, hres⟩ with ⟨hno, h', hh', hr'⟩ | ⟨rfl, hcan⟩ | hno
  · obtain ⟨st', hst', hres'⟩ :=
      resumable_step hf hb hs hh hr.1 hst hres fun t ht hl => (hearly t ht hl).1
    have hhanded := handed_of_early hf hs hh hno fun t ht hl => (hearly t ht hl).1
    exact .reading hh' hr' hst' hres' (hhanded.trans he) (early_step hf hc hs hh hr.1 hearly)
  · exact .writing hcan ((handed_handlerResume hs hh (.inl hr.1)).trans he)
  · exact absurd hno hcrash

theorem cancels_of_writing (hf : x.Fit) (hb : x.Base) (hcrash : b ≠ .crash) (hs : Step jobId x b y)
    (hx : x.Cancelling) (he : x.handed = handed) : y.Cancels jobId handed := by
  obtain ⟨h, hh, ha, hfut⟩ := hx
  have hstop := hb.stopped h hh (.inl ha)
  have hsame : ∀ {h'}, x.handler = some h' → h' = h := fun hh' => by
    rw [hh] at hh'
    exact (Option.some.inj hh').symm
  have hhanded : b ≠ .handlerResume → y.handed = handed := fun hno =>
    (handed_of_early hf hs hh hno fun t ht hl => by rw [hstop t ht] at hl; cases hl).trans he
  have hhand := handler_step hs
  generalize hy : y.handler = o at hhand
  cases hhand with
  | same hno hsame =>
    refine .writing ⟨h, hy.trans (hsame.trans hh), ha, hfut⟩ (hhanded ?_)
    rintro rfl
    cases hno
  | dispatch _ hno => rw [hh] at hno; cases hno
  | cancel hno => rw [hh] at hno; cases hno
  | called now hh' =>
    cases hsame hh'
    exact .written hy ha (by simp [Handler.answer]) (hb.status_of_setCancelled hh ha hs)
      (hhanded (by simp))
  | sent hh' _ hev =>
    rw [hsame hh', ha] at hev
    cases hev
  | went hh' hfut' =>
    rw [hsame hh', hfut] at hfut'
    cases hfut'
  | cancelling hh' _ hfut' =>
    rw [hsame hh', hfut] at hfut'
    cases hfut'
  | creating hh' ha' =>
    rw [hsame hh', ha] at ha'
    cases ha'
  | ended hh' hfut' =>
    rw [hsame hh', hfut] at hfut'
    cases hfut'
  | gone => exact absurd rfl hcrash

theorem handed_of_written (hs : Step jobId x .handlerResume y) {h : Handler}
    (hh : x.handler = some h) (ha : h.await = .setCancelled) :
    y.handler = some ⟨jobId, .sendCancelled, none⟩ ∧ y.handed = x.handed ++ [.cancelled jobId] := by
  have hnext : ∀ {h' ans n}, x.handler = some h' → h'.await.resume ans = some n →
      n = .await .sendCancelled := by
    intro h' ans n hh' hr
    rw [hh] at hh'
    cases hh'
    have hflow := HandlerAwait.flow_of_resume hr
    rw [ha] at hflow
    exact hflow.next_setCancelled
  cases hs with
  | handlerAwait hh' _ hr => cases hnext hh' hr; exact ⟨rfl, rfl⟩
  | handlerCancelTask hh' _ hr => cases hnext hh' hr
  | handlerCreateTask hh' _ hr => cases hnext hh' hr
  | handlerRet hh' _ hr => cases hnext hh' hr

theorem cancels_of_written (hf : x.Fit) (hb : x.Base) (hc : x.cancelWins b = true)
    (hcrash : b ≠ .crash) (hs : Step jobId x b y) {h : Handler} (hh : x.handler = some h)
    (ha : h.await = .setCancelled) (hfut : h.fut ≠ none) (hst : x.status = some .cancelled)
    (he : x.handed = handed) : y.Cancels jobId handed := by
  have hstop := hb.stopped h hh (.inl ha)
  have hy := cancelled_stays hb hc hs hst
  by_cases hresume : b = .handlerResume
  · subst hresume
    obtain ⟨hh', hhanded⟩ := handed_of_written hs hh ha
    exact .sending hh' rfl hy (hhanded.trans (by rw [he]))
  · have hhanded := handed_of_early hf hs hh hresume fun t ht hl => by
      rw [hstop t ht] at hl
      cases hl
    have hhand := handler_step hs
    generalize hy' : y.handler = o at hhand
    cases hhand with
    | same _ hsame => exact .written (hy'.trans (hsame.trans hh)) ha hfut hy (hhanded.trans he)
    | dispatch _ hno => rw [hh] at hno; cases hno
    | cancel hno => rw [hh] at hno; cases hno
    | called now hh' hno => rw [hh] at hh'; cases hh'; exact absurd hno hfut
    | sent hh' hno => rw [hh] at hh'; cases hh'; exact absurd hno hfut
    | gone => exact absurd rfl hcrash
    | _ => exact absurd rfl hresume

theorem cancels_of_sending (hf : x.Fit) (hb : x.Base) (hc : x.cancelWins b = true)
    (hcrash : b ≠ .crash) (hs : Step jobId x b y) {h : Handler} (hh : x.handler = some h)
    (ha : h.await = .sendCancelled) (hst : x.status = some .cancelled)
    (he : x.handed = handed ++ [.cancelled jobId]) : y.Cancels jobId handed := by
  have hstop := hb.stopped h hh (.inr ha)
  have hy := cancelled_stays hb hc hs hst
  have hsame : ∀ {h'}, x.handler = some h' → h' = h := fun hh' => by
    rw [hh] at hh'
    exact (Option.some.inj hh').symm
  have hhanded : y.handed = x.handed := by
    by_cases hresume : b = .handlerResume
    · subst hresume
      exact handed_handlerResume hs hh (.inr ha)
    · exact handed_of_early hf hs hh hresume fun t ht hl => by
        rw [hstop t ht] at hl
        cases hl
  have hhand := handler_step hs
  generalize hy' : y.handler = o at hhand
  cases hhand with
  | same _ hkept => exact .sending (hy'.trans (hkept.trans hh)) ha hy (hhanded.trans he)
  | dispatch _ hno => rw [hh] at hno; cases hno
  | cancel hno => rw [hh] at hno; cases hno
  | called now hh' _ hcall =>
    rw [hsame hh', ha] at hcall
    cases hcall
  | sent hh' =>
    cases hsame hh'
    exact .sending hy' ha hy (hhanded.trans he)
  | went hh' _ hflow =>
    rw [hsame hh', ha] at hflow
    cases hflow.next_sendCancelled
  | cancelling hh' ha' =>
    rw [hsame hh', ha] at ha'
    cases ha'
  | creating hh' ha' =>
    rw [hsame hh', ha] at ha'
    cases ha'
  | ended =>
    refine .ended (running_step hs hcrash (hf.running hh)) hy' hy (hhanded.trans he) ?_
    rcases task_of_not_live hstop hs with hstop' | hcr
    · exact hstop'
    · cases hcr with
      | dispatched hh' ha' =>
        rw [hsame hh', ha] at ha'
        cases ha'
  | gone => exact absurd rfl hcrash

/-- a cancel goes from stage to stage until it ends -/
theorem cancels_step (hf : x.Fit) (hb : x.Base) (hi : x.Cancels jobId handed)
    (hc : x.cancelWins b = true) (hcrash : b ≠ .crash) (hrun : x.handler ≠ none)
    (hs : Step jobId x b y) : y.Cancels jobId handed := by
  cases hi with
  | reading hh hr hst hres he hearly =>
    exact cancels_of_reading hf hb hc hcrash hs hh hr hst hres he hearly
  | writing hcan he => exact cancels_of_writing hf hb hcrash hs hcan he
  | written hh ha hfut hst he => exact cancels_of_written hf hb hc hcrash hs hh ha hfut hst he
  | sending hh ha hst he => exact cancels_of_sending hf hb hc hcrash hs hh ha hst he
  | ended _ hh => exact absurd hh hrun

/-! ## after the cancel -/

/-- the cancel has won: the row is `CANCELLED`, and that is all there is to report -/
structure Won (jobId : String) (handed : List JobEvent) (x : Job) : Prop where
  running : x.life = .running
  status : x.status = some .cancelled
  stopped : ∀ t, x.task = some t → t.isLive = false
  read : ∀ h record, x.handler = some h → h.fut = some (.record (some record)) →
    record.status = .cancelled
  handed : ∃ later, x.handed = handed ++ .cancelled jobId :: later ∧
    ∀ e ∈ later, e.status = .cancelled

theorem not_hasInserted (hb : x.Base) (hst : x.status = some .cancelled) {h : Handler}
    (hh : x.handler = some h) : ¬ h.hasInserted := fun hi => by
  have hrec := hb.fresh h hh hi
  rw [hst] at hrec
  cases hrec

theorem won_step (hb : x.Base) (hi : x.Won jobId handed) (hc : x.cancelWins b = true)
    (hcrash : b ≠ .crash) (hs : Step jobId x b y) : y.Won jobId handed where
  running := running_step hs hcrash hi.running
  status := cancelled_stays hb hc hs hi.status
  stopped := by
    rcases task_of_not_live hi.stopped hs with hstop | hcr
    · exact hstop
    · cases hcr with
      | resumed hl => rw [hi.running] at hl; cases hl
      | dispatched hh ha => exact absurd (.inl ha) (not_hasInserted hb hi.status hh)
  read h record hh hfut := by
    rcases of_record hs hh hfut with he | ⟨_, row, _, _, hrow, rfl⟩
    · exact hi.read h record he hfut
    · obtain ⟨row', hrow', hst⟩ := status_eq_some.mp hi.status
      rw [hrow] at hrow'
      cases hrow'
      exact hst
  handed := by
    obtain ⟨later, heq, hlater⟩ := hi.handed
    obtain ⟨o, hhanded, ho⟩ := handed_step hs
    refine ⟨later ++ o.toList, by rw [hhanded, heq, List.append_assoc, List.cons_append], ?_⟩
    intro e he
    rcases List.mem_append.mp he with hold | hnew
    · exact hlater e hold
    · rw [Option.mem_toList.mp hnew] at ho
      cases ho with
      | restarted hl => rw [hi.running] at hl; cases hl
      | received hh ha hfut => exact absurd (.inr ⟨_, ha, hfut⟩) (not_hasInserted hb hi.status hh)
      | resent hh _ hfut _ hst => exact hst.trans (hi.read _ _ hh hfut)
      | cancelled => rfl
      | worked _ _ ht hl => rw [hi.stopped _ ht] at hl; cases hl

end Job

/-! ## the agent -/

/-- a step of the handler that the receive loop awaits -/
def Act.isHandler : Act → Bool
  | .handlerCall _ | .handlerSend _ | .handlerResume => true
  | _ => false

namespace Agent

/-- no crash; the job's task does not fail while `handle_cancel` reads, and nothing lands on its row
once it is `CANCELLED` -/
def cancelWins (jobId : String) (s : Agent) (a : Act) : Bool :=
  decide (a ≠ .crash) && Machine.seenAs (view jobId) (seen jobId) Job.cancelWins s a

/-- the same, while a handler of the job is running -/
def cancelWinsWithin (jobId : String) (s : Agent) (a : Act) : Bool :=
  (s.handlerOf jobId).isSome && s.cancelWins jobId a

theorem answered_of_reach {s : Agent} (h : agent.Reach Machine.Any s) (jobId : String) :
    (s.view jobId).Answered :=
  job_invariant (D := fun _ _ => True) Job.answered_init
    (fun _ _ _ _ _ hi _ hs => Job.answered_step hi hs) (fun _ _ _ _ _ => trivial) h

theorem handler_enabled {s : Agent} (h : agent.Reach Machine.Any s) {hd : Handler}
    (hl : s.ws.loop = .handling hd) :
    ∃ a, a.isHandler = true ∧ (agent.step s a).isSome = true := by
  have hws : s.ws.handler = some hd := handler_eq_some.mpr hl
  cases hfut : hd.fut with
  | none =>
    rcases hd.await.storeCall_or_event hd.jobId with ⟨c, hc⟩ | ⟨e, he⟩
    · exact ⟨.handlerCall "", rfl, by simp [agent, step, hws, Handler.pendingStoreCall, hfut, hc]⟩
    · exact ⟨.handlerSend true, rfl, by simp [agent, step, hws, Handler.pendingEvent, hfut, he]⟩
  | some ans =>
    have hview : (s.view hd.jobId).handler = some hd := by simp [view, handlerOf, hws]
    obtain ⟨n, hn⟩ := Option.isSome_iff_exists.mp (answered_of_reach h _ hd ans hview hfut)
    exact ⟨.handlerResume, rfl, by simp [agent, step, hws, hfut, hn]⟩

theorem seenAs_of_cancelWins {s : Agent} {a : Act} {jobId : String}
    (h : s.cancelWins jobId a = true) :
    Machine.SeenAs (view jobId) (seen jobId) (fun x b => x.cancelWins b = true ∧ b ≠ .crash) s a := by
  unfold cancelWins at h
  rw [Bool.and_eq_true, decide_eq_true_eq] at h
  intro b hb
  refine ⟨Machine.SeenAs.of_seenAs h.2 b hb, ?_⟩
  rintro rfl
  exact h.1 (crash_of_seen hb)

theorem cancelWinsWithin_of_isHandler {s : Agent} {a : Act} {jobId : String} {hd : Handler}
    (hh : s.handlerOf jobId = some hd) (ha : a.isHandler = true) :
    s.cancelWinsWithin jobId a = true := by
  cases a <;> first
    | cases ha; done
    | simp [cancelWinsWithin, cancelWins, Machine.seenAs, seen, hh, Job.cancelWins,
        Job.failsUnderCancel, Job.landsOnCancelled]

theorem cancels_begin {jobId : String} {s s' : Agent} (h : agent.Reach Machine.Any s)
    {row : PrintJobRow} (hrow : s.store.row jobId = some row) (hres : row.status.isResumable = true)
    (htask : ∀ t ∈ (s.slots jobId).tasks, t.await.isEarly = true ∨ t.isDone = true)
    (hbegin : agent.step s (.cancel ⟨jobId⟩) = some s') :
    (s'.view jobId).Cancels jobId (s.handed.filter (·.jobId = jobId)) := by
  have hshow := agent_shows jobId s (.cancel ⟨jobId⟩) s' (sound_of_reach h) hbegin
  have hseen : s.seen jobId (.cancel ⟨jobId⟩) = some .cancel := if_pos rfl
  rw [hseen] at hshow
  have hst : (s.view jobId).status = some row.status := Job.status_eq_some.mpr ⟨row, hrow, rfl⟩
  have hearly : ∀ t, (s.view jobId).task = some t → t.isLive = true → t.await.isEarly = true := by
    intro t ht hl
    rcases htask t (List.mem_of_head? ht) with ha | hd
    · exact ha
    · simp [Task.isLive, hd] at hl
  generalize hy : s'.view jobId = y at hshow
  cases hshow with
  | cancel hl hh =>
    exact .reading rfl ⟨rfl, .inl rfl⟩ hst hres rfl fun t ht hl => ⟨hearly t ht hl, rfl⟩

/-- **A timely cancel wins**, where the task does not fail while `handle_cancel` reads, and no status
write lands on the `CANCELLED` row: `handle_cancel` always has a step to take; when it has ended it
has handed over one `print.job.cancelled`; and from then on the row is `CANCELLED`, and nothing else
is handed over for the job. -/
theorem timely_cancel_wins {jobId : String} {s s₁ s₂ : Agent} (h : agent.Reach Machine.Any s)
    {row : PrintJobRow} (hrow : s.store.row jobId = some row) (hres : row.status.isResumable = true)
    (htask : ∀ t ∈ (s.slots jobId).tasks, t.await.isEarly = true ∨ t.isDone = true)
    (hbegin : agent.step s (.cancel ⟨jobId⟩) = some s₁) {as : List Act}
    (hruns : agent.Path (fun s a => s.cancelWinsWithin jobId a = true) s₁ as s₂) :
    ((s₂.handlerOf jobId).isSome = true →
      ∃ a, a.isHandler = true ∧ s₂.cancelWinsWithin jobId a = true ∧
        (agent.step s₂ a).isSome = true) ∧
    (s₂.handlerOf jobId = none →
      s₂.handed.filter (·.jobId = jobId) = s.handed.filter (·.jobId = jobId) ++ [.cancelled jobId] ∧
      ∀ bs s₃, agent.Path (fun s a => s.cancelWins jobId a = true) s₂ bs s₃ →
        (∃ row, s₃.store.row jobId = some row ∧ row.status = .cancelled) ∧
        ∃ later, s₃.handed.filter (·.jobId = jobId) =
            s.handed.filter (·.jobId = jobId) ++ .cancelled jobId :: later ∧
          ∀ e ∈ later, e.status = .cancelled) := by
  have hr₁ : agent.Reach Machine.Any s₁ := h.step trivial hbegin
  have hi : (s₂.view jobId).Cancels jobId (s.handed.filter (·.jobId = jobId)) := by
    refine job_path_invariant (D := fun x b => (x.cancelWins b = true ∧ b ≠ .crash) ∧ x.handler ≠ none)
      (fun _ _ _ hf hb hi hc hs => Job.cancels_step hf hb hi hc.1.1 hc.1.2 hc.2 hs)
      (fun s a hc b hb => ?_) hr₁ hruns (cancels_begin h hrow hres htask hbegin)
    rw [cancelWinsWithin, Bool.and_eq_true] at hc
    exact ⟨seenAs_of_cancelWins hc.2 b hb, Option.isSome_iff_ne_none.mp hc.1⟩
  have hr₂ : agent.Reach Machine.Any s₂ := hr₁.path (hruns.mono fun _ _ _ => trivial)
  constructor
  · intro hsome
    obtain ⟨hd, hhd⟩ := Option.isSome_iff_exists.mp hsome
    obtain ⟨hws, _⟩ := Option.filter_eq_some_iff.mp hhd
    obtain ⟨a, ha, hstep⟩ := handler_enabled hr₂ (handler_eq_some.mp hws)
    exact ⟨a, ha, cancelWinsWithin_of_isHandler hhd ha, hstep⟩
  · intro hnone
    have hnone : (s₂.view jobId).handler = none := hnone
    cases hi with
    | reading hh => rw [hnone] at hh; cases hh
    | writing hcan => obtain ⟨_, hh, _⟩ := hcan; rw [hnone] at hh; cases hh
    | written hh => rw [hnone] at hh; cases hh
    | sending hh => rw [hnone] at hh; cases hh
    | ended hl _ hst he hstop =>
      refine ⟨he, fun bs s₃ hlater => ?_⟩
      have hwon : (s₃.view jobId).Won jobId (s.handed.filter (·.jobId = jobId)) := by
        refine job_path_invariant
          (fun _ _ _ _ hb hi hc hs => Job.won_step hb hi hc.1 hc.2 hs)
          (fun s a hc => seenAs_of_cancelWins hc) hr₂ hlater
          ⟨hl, hst, hstop, fun _ _ hh => ?_, [], he, fun _ hno => absurd hno List.not_mem_nil⟩
        rw [hnone] at hh
        cases hh
      obtain ⟨row, hrow, hst⟩ := Job.status_eq_some.mp hwon.status
      exact ⟨⟨row, hrow, hst⟩, hwon.handed⟩

/-- a job that waits for its printer is cancelled, and dispatched again -/
theorem timely_cancel_wins_waiting :
    ∃ s₁ s₂ s₃, agent.run s₁ (.handlerCall "5" :: Schedule.goOnWithCancel "6") = some s₂ ∧
      agent.run s₂ [.dispatch Schedule.exampleJob, .handlerCall "7", .handlerResume] = some s₃ ∧
      s₃.handed = [.received "a", .cancelled "a", .cancelled "a"] ∧
      ∃ row, s₃.store.row "a" = some row ∧ row.status = .cancelled := by
  have hrun : (agent.run agent.init (Schedule.waiting Schedule.exampleJob)).isSome = true := by decide
  have hrun₁ : (agent.run agent.init
    (Schedule.waiting Schedule.exampleJob ++ [.cancel ⟨"a"⟩])).isSome = true := by decide
  have hrow := (Option.some_get (x := Table.get (agent.after _ hrun).store "a") (by rfl)).symm
  have htask : ∀ t ∈ ((agent.after _ hrun).slots "a").tasks,
      t.await.isEarly = true ∨ t.isDone = true := by
    have hall : ((agent.after _ hrun).slots "a").tasks.all
      (fun t => t.await.isEarly || t.isDone) = true := by rfl
    simpa using hall
  have hsome₂ : (agent.run (agent.after _ hrun₁)
    (.handlerCall "5" :: Schedule.goOnWithCancel "6")).isSome = true := by rfl
  have hrun₂ := (Option.some_get hsome₂).symm
  have hsome₃ : (agent.run ((agent.run (agent.after _ hrun₁)
    (.handlerCall "5" :: Schedule.goOnWithCancel "6")).get hsome₂)
    [.dispatch Schedule.exampleJob, .handlerCall "7", .handlerResume]).isSome = true := by rfl
  have hrun₃ := (Option.some_get hsome₃).symm
  refine ⟨_, _, _, hrun₂, hrun₃, rfl, ?_⟩
  have hwins := timely_cancel_wins (.after _ hrun) hrow (by rfl) htask
    (Machine.step_after _ _ hrun hrun₁) (.of_obeys (by rfl) hrun₂)
  exact ((hwins.2 (by rfl)).2 _ _ (.of_obeys (by rfl) hrun₃)).1

/-- the task finds the cancel flag set, takes it for an offline printer, and fails before the cancel
has read the row -/
theorem timely_cancel_lost :
    ¬ ∀ (s s₁ s₂ : Agent) (jobId : String) (row : PrintJobRow) (as : List Act),
      agent.Reach Machine.Any s → s.store.row jobId = some row → row.status.isResumable = true →
      (∀ t ∈ (s.slots jobId).tasks, t.await.isEarly = true ∨ t.isDone = true) →
      agent.step s (.cancel ⟨jobId⟩) = some s₁ →
      agent.Path (fun _ a => decide (a ≠ .crash) = true) s₁ as s₂ → s₂.handlerOf jobId = none →
      ∃ row, s₂.store.row jobId = some row ∧ row.status = .cancelled := by
  intro h
  have hrun : (agent.run agent.init (Schedule.waiting Schedule.exampleJob)).isSome = true := by decide
  have hrun₁ : (agent.run agent.init
    (Schedule.waiting Schedule.exampleJob ++ [.cancel ⟨"a"⟩])).isSome = true := by decide
  have hrow := (Option.some_get (x := Table.get (agent.after _ hrun).store "a") (by rfl)).symm
  have htask : ∀ t ∈ ((agent.after _ hrun).slots "a").tasks,
      t.await.isEarly = true ∨ t.isDone = true := by
    have hall : ((agent.after _ hrun).slots "a").tasks.all
      (fun t => t.await.isEarly || t.isDone) = true := by rfl
    simpa using hall
  have hsome₂ : (agent.run (agent.after _ hrun₁) [.taskResume "a" 0 true, .taskCall "a" 0 "5",
    .handlerCall "6", .handlerResume]).isSome = true := by rfl
  have hrun₂ := (Option.some_get hsome₂).symm
  obtain ⟨row, hrow₂, hst⟩ := h _ _ _ "a" _ _ (.after _ hrun) hrow (by rfl) htask
    (Machine.step_after _ _ hrun hrun₁) (.of_obeys (by rfl) hrun₂) (by rfl)
  have hfailed : (Table.get (Option.get _ hsome₂).store "a").map (·.status) = some .failed := by rfl
  have hrow₂ : Table.get (Option.get _ hsome₂).store "a" = some row := hrow₂
  rw [hrow₂, Option.map_some, hst] at hfailed
  cases hfailed

end Agent

end PrintAgent
