import PrintAgent.Core.Cancel

/-!
# No stranded job

A job whose row is not terminal is `Watched`: its task is live, or `handle_dispatch` is about to
create one, or a `handle_cancel` is on its way to write `CANCELLED`.

`not_stranded`: so it is in every running process, where the printer and the download raise nothing
unexpected, no task is created under a cancel flag, and no status that is not terminal lands on a
`CANCELLED` row.  `stranded_of_raise` is a `get_status` that raises.
-/

namespace PrintAgent

/-- `handle_cancel` has not gone on yet, and will -/
def Handler.isReading (h : Handler) : Prop :=
  h.await = .getRecord ∧
    (h.fut = none ∨ ∃ record, h.fut = some (.record (some record)) ∧ record.status.isResumable = true)

/-- startup recovery has failed the rows that were `PRINTING` -/
def JobLife.isMarked : JobLife → Bool
  | .marking (some _) | .listing _ => true
  | _ => false

theorem answer_rowCall (now jobId : String) (row : PrintJobRow) (c : StoreCall) :
    (rowCall now jobId (some row) c).1 ≠ .record none ∧
      ∀ message, (rowCall now jobId (some row) c).1 ≠ .raised message := by
  cases c <;> simp [rowCall]

namespace Job
variable {jobId : String} {x y : Job} {b : JobAct}

/-- the task is created while the id is in `_cancel_requested` -/
def createsFlagged (x : Job) : JobAct → Bool
  | .handlerResume => x.cancelRequested && x.handler.any fun h => h.await = .sendReceived
  | _ => false

/-- a `get_status` or a download raises something else than `DownloadError` -/
def raisesUnexpected : JobAct → Bool
  | .taskAnswer (.raised _) => true
  | _ => false

/-- nothing raises, no task is created under a cancel flag, and nothing makes a `CANCELLED` row
live again -/
def keepsWatch (x : Job) (b : JobAct) : Bool :=
  !raisesUnexpected b && !x.createsFlagged b &&
    !x.landsOnCancelled (fun status => !status.isTerminal) b

theorem keepsWatch_iff : x.keepsWatch b = true ↔
    raisesUnexpected b = false ∧ x.createsFlagged b = false ∧
      x.landsOnCancelled (fun status => !status.isTerminal) b = false := by
  simp [keepsWatch, and_assoc]

/-- somebody will bring the job to a terminal status -/
inductive Watched (x : Job) : Prop
  | task {t : Task} (ht : x.task = some t) (hl : t.isLive = true)
  | dispatch {h : Handler} (hh : x.handler = some h) (hi : h.hasInserted)
  | reading {h : Handler} (hh : x.handler = some h) (hr : h.isReading) {st : PrintJobStatus}
      (hst : x.status = some st) (hres : st.isResumable = true)
  | cancelling (hc : x.Cancelling)

structure Watch (x : Job) : Prop where
  watched : x.life = .running → ∀ st, x.status = some st → st.isTerminal = false → x.Watched
  /-- an early task sees the cancel flag only while `handle_cancel` runs -/
  flag : x.cancelRequested = true → ∀ t, x.task = some t → t.isLive = true →
    t.await.isEarly = true → ∃ h, x.handler = some h ∧ h.isReading
  /-- an early task is not answered by an exception, nor by a missing row -/
  answered : ∀ t ans, x.task = some t → t.await.isEarly = true → t.fut = some ans →
    ans ≠ .record none ∧ ∀ message, ans ≠ .raised message
  /-- recovery leaves no row that is `PRINTING` -/
  marked : x.life.isMarked = true → x.status ≠ some .printing

theorem watch_init : Watch .init where
  watched hl := by cases hl
  flag hc := by cases hc
  answered _ _ ht := by cases ht
  marked hl := by cases hl

/-! one step keeps each of the parts -/

theorem watch_answered (hf : x.Fit) (hw : x.Watch) (hc : x.keepsWatch b = true)
    (hs : Step jobId x b y) : ∀ t ans, y.task = some t → t.await.isEarly = true →
      t.fut = some ans → ans ≠ .record none ∧ ∀ message, ans ≠ .raised message := by
  intro t ans ht ha hfut
  have hold : x.task = some t → ans ≠ .record none ∧ ∀ message, ans ≠ .raised message :=
    fun ht => hw.answered t ans ht ha hfut
  cases hs with
  | resumeRows hl =>
    rename_i resume
    cases resume with
    | false => exact hold ht
    | true => cases ht; cases hfut; simp
  | handlerCancelTask =>
    rcases x.cancelTask_cases jobId with ⟨he, _⟩ | ⟨t', _, ht', he⟩
    · rw [he] at ht
      exact hold ht
    · rw [he] at ht
      cases ht
      rw [Task.cancel_await] at ha
      rw [Task.cancel_fut] at hfut
      exact hw.answered t' ans ht' ha hfut
  | handlerCreateTask => cases ht; cases hfut; simp
  | taskCall now ht' hcall =>
    rename_i t' c
    obtain ⟨row, hrow⟩ := hf.stored t' ht'
    cases ht
    cases hfut
    rw [hrow]
    exact answer_rowCall now jobId row c
  | taskAnswer ht' hwait hacc =>
    rename_i t' ans'
    cases ht
    cases hfut
    constructor
    · rintro rfl
      exact absurd hacc (by cases t'.await <;> simp [Await.accepts])
    · rintro message rfl
      exact absurd (keepsWatch_iff.mp hc).1 (by simp [raisesUnexpected])
  | taskSend => cases ht; cases hfut; simp
  | taskPrint raises ht' hp =>
    rename_i t' p
    cases ht
    have hp := (Task.of_pendingPrint hp).2.2
    have ha : t'.await.isEarly = true := ha
    generalize t'.await = a at hp ha
    cases a <;> cases hp
    cases ha
  | taskAwait pathExists socket ht' hn hfut' hr =>
    rename_i t' ans' a
    cases ht
    obtain ⟨e, he⟩ := Task.event_of_goTo (by rw [hfut]; rfl)
    have ha : a.isEarly = true := ha
    cases a <;> first | cases he; done | cases ha
  | taskRet => cases ht; cases hfut
  | taskThrow => cases ht; cases hfut
  | crash => cases ht
  | _ => exact hold ht

/-- while `handle_cancel` is about to go on, it stays so until it is resumed -/
theorem reading_step (hs : Step jobId x b y) {h : Handler} (hh : x.handler = some h)
    (hr : h.isReading) (hres : h.fut = none → ∃ st, x.status = some st ∧ st.isResumable = true) :
    (b ≠ .handlerResume ∧ ∃ h', y.handler = some h' ∧ h'.isReading) ∨
      (b = .handlerResume ∧ y.Cancelling) ∨ b = .crash := by
  obtain ⟨ha, hfut⟩ := hr
  have hsame : ∀ {h'}, x.handler = some h' → h' = h := fun hh' => by
    rw [hh] at hh'
    exact (Option.some.inj hh').symm
  have hhand := handler_step hs
  generalize hy : y.handler = o at hhand
  cases hhand with
  | same hno he =>
    refine .inl ⟨?_, h, he.trans hh, ha, hfut⟩
    rintro rfl
    cases hno
  | dispatch _ hno => rw [hh] at hno; cases hno
  | cancel hno => rw [hh] at hno; cases hno
  | called now hh' hno hcall =>
    cases hsame hh'
    rw [ha] at hcall
    cases hcall
    obtain ⟨st, hst, hres⟩ := hres hno
    obtain ⟨row, hrow, rfl⟩ := status_eq_some.mp hst
    refine .inl ⟨by simp, _, rfl, ha, .inr ⟨row.toPrintJobRecord, ?_, hres⟩⟩
    rw [hrow]
    rfl
  | sent hh' _ he =>
    cases hsame hh'
    rw [ha] at he
    cases he
  | went hh' hfut' hflow =>
    cases hsame hh'
    rw [ha] at hflow
    rcases hfut with hfut | ⟨record, hfut, hres⟩ <;> rw [hfut'] at hfut <;> cases hfut
    have hnext := hflow.next_getRecord
    rw [hres] at hnext
    cases hnext
  | cancelling => exact .inr (.inl ⟨rfl, _, hy, rfl, rfl⟩)
  | creating hh' ha' =>
    cases hsame hh'
    rw [ha] at ha'
    cases ha'
  | ended hh' hfut' hflow =>
    cases hsame hh'
    rw [ha] at hflow
    rcases hfut with hfut | ⟨record, hfut, hres⟩ <;> rw [hfut'] at hfut <;> cases hfut
    have hnext := hflow.next_getRecord
    rw [hres] at hnext
    cases hnext
  | gone => exact .inr (.inr rfl)

theorem watch_flag (hf : x.Fit) (hb : x.Base) (hw : x.Watch) (hc : x.keepsWatch b = true)
    (hs : Step jobId x b y) (hcr : y.cancelRequested = true) : ∀ t, y.task = some t →
      t.isLive = true → t.await.isEarly = true → ∃ h, y.handler = some h ∧ h.isReading := by
  intro t ht hl ha
  -- a cancel that goes on stops the task
  have hstopped : b = .handlerResume → ¬ ∃ h', y.handler = some h' ∧ h'.await = .setCancelled := by
    rintro rfl hy
    rw [stopped_of_cancelTask hb hs hy t ht] at hl
    cases hl
  -- a live early task that was there before, under the flag
  have hold : x.cancelRequested = true → ∀ t', x.task = some t' → t'.isLive = true →
      t'.await.isEarly = true → b ≠ .crash → ∃ h, y.handler = some h ∧ h.isReading := by
    intro hx t' ht' hl' ha' hcrash
    obtain ⟨h, hh, hr⟩ := hw.flag hx t' ht' hl' ha'
    obtain ⟨st, hst, hex⟩ := hb.status_of_live hf ht' hl'
    have hres := (Await.expects_of_isEarly ha').mp hex
    rcases reading_step hs hh hr fun _ => ⟨st, hst, hres⟩ with
      ⟨_, hy⟩ | ⟨rfl, h', hh', ha', _⟩ | rfl
    · exact hy
    · exact absurd ⟨h', hh', ha'⟩ (hstopped rfl)
    · exact absurd rfl hcrash
  cases hs with
  | resumeRows hlife =>
    have hnone := (hf.asleep (by simp [hlife])).2.2.2.2
    rename_i resume
    cases resume <;> exact absurd hcr (by simp [createTask, hnone])
  | cancel => exact ⟨_, rfl, rfl, .inl rfl⟩
  | crash => cases ht
  | taskCall now ht' => cases ht; exact hold hcr _ ht' hl ha (by simp)
  | taskAnswer ht' => cases ht; exact hold hcr _ ht' hl ha (by simp)
  | taskSend ht' => cases ht; exact hold hcr _ ht' hl ha (by simp)
  | taskPrint raises ht' => cases ht; exact hold hcr _ ht' hl ha (by simp)
  | taskAwait pathExists socket ht' hn hfut hr =>
    rename_i t' ans a
    cases ht
    have hl' : t'.isLive = true := isLive_of_resume hn hr
    have hflow := Await.flow_of_resume hr
    have ha : a.isEarly = true := ha
    have ha' : t'.await.isEarly = true := by
      generalize t'.await = a' at hflow
      cases hflow with
      | early ha' => exact ha'
      | _ => cases ha
    exact hold hcr _ ht' hl' ha' (by simp)
  | taskRet => cases ht; cases hl
  | taskThrow => cases ht; cases hl
  | handlerCreateTask hh hfut hr =>
    have hno := (keepsWatch_iff.mp hc).2.1
    have hx : x.cancelRequested = true := hcr
    have ha := (HandlerAwait.flow_of_resume hr).of_createTask
    simp [createsFlagged, hx, hh, ha] at hno
  | handlerCancelTask => exact absurd ⟨_, rfl, rfl⟩ (hstopped rfl)
  | _ => exact hold hcr t ht hl ha (by simp)

theorem watch_marked (hf : x.Fit) (hw : x.Watch) (hs : Step jobId x b y)
    (hl : y.life.isMarked = true) : y.status ≠ some .printing := by
  have hold : x.life = y.life → x.row = y.row → y.status ≠ some .printing := fun he hrow => by
    have hst : y.status = x.status := by rw [status, status, hrow]
    rw [hst]
    exact hw.marked (he ▸ hl)
  have hasleep : x.life = y.life → x.Asleep := fun he => hf.asleep fun hrun => by
    rw [← he, hrun] at hl
    cases hl
  cases hs with
  | boot => cases hl
  | markStuck now hl' =>
    cases hrow : x.row with
    | none => simp [status]
    | some row =>
      by_cases hp : row.status = .printing
      · simp [status, hp]
      · simp [status, hp]
  | handStuck hl' => exact hw.marked (by rw [hl']; rfl)
  | listRows hl' => exact hw.marked (by rw [hl']; rfl)
  | resumeRows => cases hl
  | handlerCall now hh =>
    rw [(hasleep rfl).2.2.1] at hh
    cases hh
  | handlerCancelTask hh =>
    rw [(hasleep (x.cancelTask_life jobId).symm).2.2.1] at hh
    cases hh
  | taskCall now ht =>
    rw [(hasleep rfl).1] at ht
    cases ht
  | leftCall now hn =>
    rw [(hasleep rfl).2.1] at hn
    cases hn
  | crash => cases hl
  | _ => exact hold rfl rfl

/-! the watch goes on -/

theorem status_taskResume (hb : x.Base) {pathExists socket : Bool}
    (hs : Step jobId x (.taskResume pathExists socket) y) : y.status = x.status := by
  have hstat := status_step hs hb.leftCall
  generalize y.status = o at hstat
  cases hstat with
  | same he => exact he

/-- a live task keeps its job watched: it goes on, it ends at a terminal status, or it leaves the job
to the `handle_cancel` whose flag it has seen -/
theorem watched_of_live (hf : x.Fit) (hb : x.Base) (hw : x.Watch) (hs : Step jobId x b y)
    (hcrash : b ≠ .crash) {t : Task} (ht : x.task = some t) (hl : t.isLive = true)
    {st : PrintJobStatus} (hst : y.status = some st) (hopen : st.isTerminal = false) :
    y.Watched := by
  have hsame : ∀ {t'}, x.task = some t' → t' = t := fun ht' => by
    rw [ht] at ht'
    exact (Option.some.inj ht').symm
  obtain ⟨st₀, hst₀, hex⟩ := hb.status_of_live hf ht hl
  have htask := task_step hs
  generalize hy : y.task = o at htask
  cases htask with
  | same _ he => exact .task (hy.trans (he.trans ht)) hl
  | created => exact .task hy rfl
  | cancelled hh ha hfut hr =>
    have hread := reading_step hs hh ⟨ha, .inr ⟨_, hfut, hr⟩⟩ fun hno => by
      rw [hfut] at hno
      cases hno
    rcases hread with ⟨hno, _⟩ | ⟨_, hcan⟩ | hno
    · exact absurd rfl hno
    · exact .cancelling hcan
    · exact absurd hno hcrash
  | answered ans ht' hl' => exact .task hy hl'
  | went pathExists socket ht' hl' hfut hflow =>
    refine .task hy (Task.isLive_of rfl ?_)
    rintro rfl
    generalize Task.await _ = a at hflow
    cases hflow with
    | early _ hno => cases hno
  | ended pathExists socket ht' hl' hfut hends =>
    cases hsame ht'
    have hkept := status_taskResume hb hs
    rw [hst₀, hst] at hkept
    cases hkept
    have hans := fun ans => hw.answered t ans ht
    generalize ha : t.await = a at hends hex hans
    cases hends with
    | completed => cases hex; cases hopen
    | failed => cases hex; cases hopen
    | vanished => exact absurd rfl (hans _ rfl hfut).1
    | raised he message => exact absurd rfl ((hans _ he hfut).2 message)
    | cancelled he hc =>
      have hres := (Await.expects_of_isEarly he).mp hex
      obtain ⟨h, hh, hr⟩ := hw.flag hc t ht hl (ha ▸ he)
      rcases reading_step hs hh hr fun _ => ⟨st, hst₀, hres⟩ with ⟨_, h', hh', hr'⟩ | ⟨hno, _⟩ | hno
      · exact .reading hh' hr' hst hres
      · cases hno
      · exact absurd hno hcrash
  | thrown ht' hl' =>
    rw [hsame ht', hl] at hl'
    cases hl'
  | gone => exact absurd rfl hcrash

theorem task_of_sendReceived (hs : Step jobId x .handlerResume y) {h : Handler}
    (hh : x.handler = some h) (ha : h.await = .sendReceived) : y.task = some .new := by
  have hnext : ∀ {h' ans n}, x.handler = some h' → h'.await.resume ans = some n →
      n = .createTask := by
    intro h' ans n hh' hr
    rw [hh] at hh'
    cases hh'
    have hflow := HandlerAwait.flow_of_resume hr
    rw [ha] at hflow
    exact hflow.next_sendReceived
  cases hs with
  | handlerAwait hh' _ hr => cases hnext hh' hr
  | handlerCancelTask hh' _ hr => cases hnext hh' hr
  | handlerCreateTask => rfl
  | handlerRet hh' _ hr => cases hnext hh' hr

theorem watched_of_inserted (hs : Step jobId x b y) (hcrash : b ≠ .crash) {h : Handler}
    (hh : x.handler = some h) (hi : h.hasInserted) : y.Watched := by
  have hsame : ∀ {h'}, x.handler = some h' → h' = h := fun hh' => by
    rw [hh] at hh'
    exact (Option.some.inj hh').symm
  have hhand := handler_step hs
  generalize hy : y.handler = o at hhand
  cases hhand with
  | same _ he => exact .dispatch (hy.trans (he.trans hh)) hi
  | dispatch _ hno => rw [hh] at hno; cases hno
  | cancel hno => rw [hh] at hno; cases hno
  | called now hh' hfut hcall =>
    cases hsame hh'
    rcases hi with ha | ⟨d, _, hfut'⟩
    · rw [ha] at hcall
      cases hcall
    · rw [hfut] at hfut'
      cases hfut'
  | sent hh' hfut he =>
    cases hsame hh'
    rcases hi with ha | ⟨d, _, hfut'⟩
    · exact .dispatch hy (.inl ha)
    · rw [hfut] at hfut'
      cases hfut'
  | went hh' hfut hflow =>
    cases hsame hh'
    rcases hi with ha | ⟨d, ha, hfut'⟩
    · rw [ha] at hflow
      cases hflow.next_sendReceived
    · rw [hfut] at hfut'
      cases hfut'
      rw [ha] at hflow
      cases hflow.next_inserted
      exact .dispatch hy (.inl rfl)
  | cancelling hh' ha =>
    cases hsame hh'
    rcases hi with ha' | ⟨d, ha', _⟩ <;> rw [ha] at ha' <;> cases ha'
  | creating hh' ha => exact .task (task_of_sendReceived hs hh' ha) rfl
  | ended hh' hfut hflow =>
    cases hsame hh'
    rcases hi with ha | ⟨d, ha, hfut'⟩
    · rw [ha] at hflow
      cases hflow.next_sendReceived
    · rw [hfut] at hfut'
      cases hfut'
      rw [ha] at hflow
      cases hflow.next_inserted
  | gone => exact absurd rfl hcrash

theorem watched_of_reading (hb : x.Base) (hs : Step jobId x b y) (hcrash : b ≠ .crash)
    (hrun : x.life = .running) (hstop : ∀ t, x.task = some t → t.isLive = false) {h : Handler}
    (hh : x.handler = some h) (hr : h.isReading) {st : PrintJobStatus} (hst : x.status = some st)
    (hres : st.isResumable = true) : y.Watched := by
  have ha := hr.1
  rcases reading_step hs hh hr fun _ => ⟨st, hst, hres⟩ with ⟨_, h', hh', hr'⟩ | ⟨_, hcan⟩ | hno
  · refine .reading hh' hr' ?_ hres
    have hstat := status_step hs hb.leftCall
    generalize y.status = o at hstat
    cases hstat with
    | same he => exact he.trans hst
    | inserted now hh'' _ ha' => rw [hh] at hh''; cases hh''; rw [ha] at ha'; cases ha'
    | restarted now hl => rw [hrun] at hl; cases hl
    | cancelled now hh'' _ ha' => rw [hh] at hh''; cases hh''; rw [ha] at ha'; cases ha'
    | worked now ht hl => rw [hstop _ ht] at hl; cases hl
    | left now hn =>
      rcases hb.landing (List.ne_nil_of_mem (List.mem_of_getElem? hn)) with ⟨h'', hh'', ha', _⟩ | hcan
      · rw [hh] at hh''
        cases hh''
        rw [ha] at ha'
        cases ha'
      · rw [hst] at hcan
        cases hcan
        cases hres
  · exact .cancelling hcan
  · exact absurd hno hcrash

theorem watched_of_insert (hb : x.Base) (hs : Step jobId x b y) (hnone : x.row = none)
    {st : PrintJobStatus} (hst : y.status = some st) : y.Watched := by
  obtain ⟨h, d, hh, ha, hfut⟩ := handler_of_insert hb hs hnone ⟨st, hst⟩
  exact .dispatch hh (.inr ⟨d, ha, hfut⟩)

theorem life_step (hs : Step jobId x b y) (hl : y.life = .running) :
    (x.life = .running ∧ b ≠ .crash) ∨
      ∃ r, x.life = .listing (some r) ∧
        y = { (if r then x.createTask else x) with life := .running } := by
  cases hs with
  | boot => cases hl
  | markStuck => cases hl
  | handStuck => cases hl
  | listRows => cases hl
  | resumeRows hl' => exact .inr ⟨_, hl', rfl⟩
  | handlerCancelTask => exact .inl ⟨(x.cancelTask_life jobId).symm.trans hl, by simp⟩
  | crash => cases hl
  | _ => exact .inl ⟨hl, by simp⟩

theorem watch_watched (hf : x.Fit) (hb : x.Base) (hw : x.Watch) (hc : x.keepsWatch b = true)
    (hs : Step jobId x b y) (hl : y.life = .running) :
    ∀ st, y.status = some st → st.isTerminal = false → y.Watched := by
  intro st hst hopen
  rcases life_step hs hl with ⟨hrun, hcrash⟩ | ⟨r, hlist, rfl⟩
  · by_cases hlive : ∃ t, x.task = some t ∧ t.isLive = true
    · obtain ⟨t, ht, hlt⟩ := hlive
      exact watched_of_live hf hb hw hs hcrash ht hlt hst hopen
    have hstop : ∀ t, x.task = some t → t.isLive = false := fun t ht =>
      Bool.eq_false_iff.mpr fun hlt => hlive ⟨t, ht, hlt⟩
    cases hx : x.status with
    | none => exact watched_of_insert hb hs (Option.map_eq_none_iff.mp hx) hst
    | some v =>
      cases hv : v.isTerminal with
      | false =>
        cases hw.watched hrun v hx hv with
        | task ht hlt => exact absurd ⟨_, ht, hlt⟩ hlive
        | dispatch hh hi => exact watched_of_inserted hs hcrash hh hi
        | reading hh hr hst' hres => exact watched_of_reading hb hs hcrash hrun hstop hh hr hst' hres
        | cancelling hcan =>
          rcases cancelling_step hb hcan hs with hy | hy | hno
          · exact .cancelling hy
          · rw [hst] at hy
            cases hy
            cases hopen
          · exact absurd hno hcrash
      | true =>
        rcases terminal_step hb hs hx hv with hy | ⟨_, hy⟩ |
          ⟨n, now, c, st', rfl, hn, hwr, hy, hor⟩
        · rw [hst] at hy
          cases hy
          rw [hv] at hopen
          cases hopen
        · rw [hst] at hy
          cases hy
          cases hopen
        · rw [hst] at hy
          cases hy
          rcases hor with hcan | rfl
          · -- `handle_cancel` still waits for its write
            rcases cancelling_step hb hcan hs with hy | hy | hno
            · exact .cancelling hy
            · rw [hst] at hy
              cases hy
              cases hopen
            · exact absurd hno hcrash
          · have hno := (keepsWatch_iff.mp hc).2.2
            rw [landsOnCancelled_of hx hn hwr (by rw [hopen]; rfl)] at hno
            cases hno
  · -- recovery has resumed whatever was not terminal
    have hx : x.status = some st := by cases r <;> exact hst
    have hres : st.isResumable = true := by
      have hq := hb.notQueued
      have hp := hw.marked (by rw [hlist]; rfl)
      rw [hx] at hq hp
      cases st <;> first | rfl | exact absurd rfl hq | exact absurd rfl hp | cases hopen
    have hr := hb.listed r hlist
    rw [hx, Option.any_some, hres] at hr
    subst hr
    exact .task rfl rfl

theorem watch_step (hf : x.Fit) (hb : x.Base) (hw : x.Watch) (hc : x.keepsWatch b = true)
    (hs : Step jobId x b y) : y.Watch where
  watched := watch_watched hf hb hw hc hs
  flag := watch_flag hf hb hw hc hs
  answered := watch_answered hf hw hc hs
  marked := watch_marked hf hw hs

end Job

/-! ## the agent -/

namespace Agent

/-- for the job nothing raises, no task is created under a cancel flag, and no `CANCELLED` row
becomes live again -/
def keepsWatch (jobId : String) : Agent → Act → Bool :=
  Machine.seenAs (view jobId) (seen jobId) Job.keepsWatch

/-- **No stranded job**: while its row is not terminal, a task of the job is unfinished or a handler
works on it; and once its tasks are done it is a `handle_cancel` that is to write `CANCELLED`. -/
theorem not_stranded {jobId : String} {s : Agent}
    (h : agent.Reach (fun s a => s.keepsWatch jobId a = true) s) (hl : s.life = .running)
    {row : PrintJobRow} (hrow : s.store.row jobId = some row) (hopen : row.status.isTerminal = false) :
    ((∃ t ∈ (s.slots jobId).tasks, t.isDone = false) ∨
      ∃ hd, s.ws.loop = .handling hd ∧ hd.jobId = jobId) ∧
    ((s.slots jobId).tasks ≠ [] → (∀ t ∈ (s.slots jobId).tasks, t.isDone = true) →
      ∃ hd, s.ws.loop = .handling hd ∧ hd.jobId = jobId ∧
        ((hd.isReading ∧ row.status.isResumable = true) ∨
          (hd.await = .setCancelled ∧ hd.fut = none))) := by
  have hw : (s.view jobId).Watch :=
    job_invariant Job.watch_init (fun _ _ _ hf hb hw hc hs => Job.watch_step hf hb hw hc hs)
      (fun _ _ hc => .of_seenAs hc) h
  have hst : (s.view jobId).status = some row.status := Job.status_eq_some.mpr ⟨row, hrow, rfl⟩
  have hrun : (s.view jobId).life = .running := by
    show s.life.view jobId = .running
    rw [hl]
    rfl
  have hhandler : ∀ hd, (s.view jobId).handler = some hd →
      s.ws.loop = .handling hd ∧ hd.jobId = jobId := by
    intro hd hh
    obtain ⟨hws, hj⟩ := Option.filter_eq_some_iff.mp hh
    exact ⟨handler_eq_some.mp hws, by simpa using hj⟩
  have htask : ∀ t, (s.view jobId).task = some t → t ∈ (s.slots jobId).tasks :=
    fun t ht => List.mem_of_head? ht
  have hlive : ∀ {t : Task}, t.isLive = true → t.isDone = false := fun hlt => by
    simpa [Task.isDone] using (Task.of_isLive hlt).2
  cases hw.watched hrun _ hst hopen with
  | task ht hlt =>
    refine ⟨.inl ⟨_, htask _ ht, hlive hlt⟩, fun _ hdone => ?_⟩
    have hd := hdone _ (htask _ ht)
    rw [hlive hlt] at hd
    cases hd
  | dispatch hh hi =>
    refine ⟨.inr ⟨_, hhandler _ hh⟩, fun hne => ?_⟩
    have hnone := (((sound_of_reach h.any).fit jobId).fresh _ hh hi).1
    exact absurd (List.head?_eq_none_iff.mp hnone) hne
  | reading hh hr hst' hres =>
    rw [hst] at hst'
    cases hst'
    exact ⟨.inr ⟨_, hhandler _ hh⟩, fun _ _ => ⟨_, (hhandler _ hh).1, (hhandler _ hh).2, .inl ⟨hr, hres⟩⟩⟩
  | cancelling hcan =>
    obtain ⟨hd, hh, ha, hfut⟩ := hcan
    exact ⟨.inr ⟨_, hhandler _ hh⟩,
      fun _ _ => ⟨_, (hhandler _ hh).1, (hhandler _ hh).2, .inr ⟨ha, hfut⟩⟩⟩

/-- a cancel has stopped the task, and is about to write `CANCELLED` -/
theorem not_stranded_cancelling :
    ∃ (s : Agent) (row : PrintJobRow), s.life = .running ∧ s.store.row "a" = some row ∧
      row.status = .waitingForPrinter ∧ ∃ hd, s.ws.loop = .handling hd ∧ hd.jobId = "a" ∧
        ((hd.isReading ∧ row.status.isResumable = true) ∨
          (hd.await = .setCancelled ∧ hd.fut = none)) := by
  have hrun : (agent.run agent.init (Schedule.waiting Schedule.exampleJob ++
    Schedule.readForCancel "5" "a" ++ [.handlerResume, .taskThrow "a" 0])).isSome = true := by decide
  have hrow := (Option.some_get (x := Table.get (agent.after _ hrun).store "a") (by rfl)).symm
  have htasks : ((agent.after _ hrun).slots "a").tasks = [.finished] := by rfl
  refine ⟨_, _, rfl, hrow, rfl,
    (not_stranded (.of_obeys _ hrun (by decide)) rfl hrow (by rfl)).2 ?_ fun t ht => ?_⟩
  · rw [htasks]
    simp
  · rw [htasks] at ht
    rw [List.mem_singleton.mp ht]
    rfl

/-- `get_status` raises, the task is gone, and the row is still `RECEIVED` -/
theorem stranded_of_raise :
    ¬ ∀ (s : Agent) (jobId : String) (row : PrintJobRow), agent.Reach Machine.Any s →
      s.life = .running → s.store.row jobId = some row → row.status.isTerminal = false →
      (∃ t ∈ (s.slots jobId).tasks, t.isDone = false) ∨
        ∃ hd, s.ws.loop = .handling hd ∧ hd.jobId = jobId := by
  intro h
  have hrun : (agent.run agent.init (Schedule.startup "1" ++ Schedule.connect ++
    Schedule.accept "2" Schedule.exampleJob ++ Schedule.download "3" "/tmp/a.pdf" "a" ++
    [.taskAnswer "a" 0 (.raised "timed out"), .taskResume "a" 0 true])).isSome = true := by decide
  have hrow := (Option.some_get (x := Table.get (agent.after _ hrun).store "a") (by rfl)).symm
  rcases h _ "a" _ (.after _ hrun) rfl hrow (by rfl) with ⟨t, ht, hd⟩ | ⟨hd, hl, _⟩
  · have ht : t ∈ [Task.finished] := ht
    rw [List.mem_singleton.mp ht] at hd
    cases hd
  · cases hl

end Agent

end PrintAgent
