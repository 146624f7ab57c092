import PrintAgent.Core.Base

/-!
# Racing cancels

`handle_cancel` reads the row, and acts on what it read after the read has answered; and a call that
the cancelled task handed to a thread may still take effect.  The two give the conditions of the
theorems about cancels, all on the state before a step:

* `Job.honours`             `handle_cancel` is about to go on with a cancel;
* `Job.isCancellable`       what its read is to tell: no verdict and no `PRINTING` is on its way;
* `Job.landsOnCancelled`    a status write left behind is about to take effect on a `CANCELLED` row.

`legal_transitions`: where cancels go on in time and nothing lands on a `CANCELLED` row, every write
is legal.  `illegal_transition_of_stale_cancel` is a cancel that goes on too late.
-/

namespace PrintAgent

def ThreadCall.written : ThreadCall → Option PrintJobStatus
  | .store c => c.written
  | .print _ => none

namespace Job
variable {jobId : String} {x y : Job} {b : JobAct}

/-- `handle_cancel` has read a record that can be cancelled, and goes on when it is resumed -/
def honours (x : Job) : Bool :=
  match x.handler with
  | some ⟨_, .getRecord, some (.record (some record))⟩ => record.status.isResumable
  | _ => false

/-- the row can be cancelled, and the task has submitted no other status write than
`WAITING_FOR_PRINTER` -/
def isCancellable (x : Job) : Bool :=
  x.status.any PrintJobStatus.isResumable && x.task.all fun t => t.await.isEarly || t.isDone

/-- a write of one of the statuses `p`, left behind by a cancelled task, is about to take effect on a
row that is `CANCELLED` -/
def landsOnCancelled (p : PrintJobStatus → Bool) (x : Job) : JobAct → Bool
  | .leftCall n _ =>
    decide (x.status = some .cancelled) && (x.leftBehind[n]?.bind ThreadCall.written).any p
  | _ => false

theorem honours_of {h : Handler} {record : PrintJobRecord} (hh : x.handler = some h)
    (ha : h.await = .getRecord) (hfut : h.fut = some (.record (some record)))
    (hr : record.status.isResumable = true) : x.honours = true := by
  obtain ⟨j, a, fut⟩ := h
  cases ha
  cases hfut
  simp [honours, hh, hr]

theorem of_honours (hx : x.honours = true) : ∃ h record, x.handler = some h ∧ h.await = .getRecord ∧
    h.fut = some (.record (some record)) ∧ record.status.isResumable = true := by
  unfold honours at hx
  split at hx
  · rename_i hh
    exact ⟨_, _, hh, rfl, rfl, hx⟩
  · cases hx

theorem landsOnCancelled_of {p : PrintJobStatus → Bool} {n : Nat} {now : String} {c : StoreCall}
    {st : PrintJobStatus} (hst : x.status = some .cancelled)
    (hn : x.leftBehind[n]? = some (.store c)) (hw : c.written = some st) (hp : p st = true) :
    x.landsOnCancelled p (.leftCall n now) = true := by
  simp [landsOnCancelled, hst, hn, ThreadCall.written, hw, hp]

theorem not_terminal_of_worked (hb : x.Base) {t : Task} {c : StoreCall} {st st' : PrintJobStatus}
    (ht : x.task = some t) (hl : t.isLive = true) (hfut : t.fut = none)
    (hc : t.await.storeCall = some c) (hw : c.written = some st') (hst : x.status = some st) :
    st.isTerminal = false := by
  have hex := hb.live t ht hl st hst
  rw [hfut] at hex
  rcases Await.written_cases hc hw with ⟨_, ha⟩ | ⟨_, _, _, ha⟩ | ⟨_, ha⟩ | ⟨_, _, _, ha⟩
  · have hr := (Await.expects_of_isEarly ha).mp hex
    cases st <;> first | rfl | cases hr
  · rw [ha] at hex
    have hr : st.isResumable = true := hex
    cases st <;> first | rfl | cases hr
  · rw [ha] at hex
    have hp : st = .printing := hex
    rw [hp]
    rfl
  · rw [ha] at hex
    rcases hex with hr | hp
    · cases st <;> first | rfl | cases hr
    · rw [hp]
      rfl

/-- a terminal status stays, unless `handle_cancel` is about to write `CANCELLED` or a call left
behind takes effect -/
theorem terminal_step (hb : x.Base) (hs : Step jobId x b y) {v : PrintJobStatus}
    (hst : x.status = some v) (hv : v.isTerminal = true) :
    y.status = some v ∨ (x.Cancelling ∧ y.status = some .cancelled) ∨
    ∃ n now c st, b = .leftCall n now ∧ x.leftBehind[n]? = some (.store c) ∧ c.written = some st ∧
      y.status = some st ∧ (x.Cancelling ∨ v = .cancelled) := by
  have hstat := status_step hs hb.leftCall
  generalize y.status = o at hstat
  cases hstat with
  | same he => exact .inl (he.trans hst)
  | inserted now _ _ _ hrow =>
    obtain ⟨row, hrow', _⟩ := status_eq_some.mp hst
    rw [hrow] at hrow'
    cases hrow'
  | restarted now _ hst' =>
    rw [hst] at hst'
    cases hst'
    cases hv
  | cancelled now hh hfut ha _ => exact .inr (.inl ⟨⟨_, hh, ha, hfut⟩, rfl⟩)
  | worked now ht hl hfut hcall hw hst' =>
    rw [not_terminal_of_worked hb ht hl hfut hcall hw hst] at hv
    cases hv
  | left now hn hw hst' =>
    refine .inr (.inr ⟨_, now, _, _, rfl, hn, hw, rfl, ?_⟩)
    rcases hb.landing (List.ne_nil_of_mem (List.mem_of_getElem? hn)) with hcan | hcan
    · exact .inl hcan
    · rw [hst] at hcan
      exact .inr (Option.some.inj hcan)

/-! ## legal transitions -/

/-- cancels go on in time, and nothing lands on a `CANCELLED` row -/
def cancelsInTime (x : Job) (b : JobAct) : Bool :=
  (!(decide (b = .handlerResume) && x.honours) || x.isCancellable) &&
    !x.landsOnCancelled (fun _ => true) b

theorem cancelsInTime_iff : x.cancelsInTime b = true ↔
    (b = .handlerResume → x.honours = true → x.isCancellable = true) ∧
      x.landsOnCancelled (fun _ => true) b = false := by
  simp [cancelsInTime, imp_iff_not_or, or_assoc]

structure Timely (x : Job) : Prop where
  /-- `handle_cancel` writes `CANCELLED` over a row that can be cancelled -/
  cancelling : x.Cancelling → ∃ st, x.status = some st ∧ st.isResumable = true
  /-- the only status write left behind is `WAITING_FOR_PRINTER` -/
  left : ∀ c ∈ x.leftBehind, ∀ st, c.written = some st → st = .waitingForPrinter

theorem timely_init : Timely .init where
  cancelling h := by
    obtain ⟨_, hh, _⟩ := h
    cases hh
  left _ hc := absurd hc List.not_mem_nil

theorem isCancellable_iff : x.isCancellable = true ↔
    (∃ st, x.status = some st ∧ st.isResumable = true) ∧
      ∀ t, x.task = some t → t.await.isEarly = true ∨ t.await = .ended := by
  simp [isCancellable, Option.any_eq_true, Option.all_eq_true, Task.isDone]

theorem timely_cancelling (hf : x.Fit) (hb : x.Base) (ht : x.Timely)
    (hc : x.cancelsInTime b = true) (hs : Step jobId x b y) (hy : y.Cancelling) :
    ∃ st, y.status = some st ∧ st.isResumable = true := by
  obtain ⟨h, hh, ha, hfut⟩ := hy
  rcases of_setCancelled hs hh ha with ⟨hno, he⟩ | ⟨_, _, _, _, _, _, hsome⟩ |
    ⟨h', record, rfl, hh', ha', hfut', hr, _⟩
  · obtain ⟨st, hst, hr⟩ := ht.cancelling ⟨h, he, ha, hfut⟩
    have hstat := status_step hs hb.leftCall
    generalize y.status = o at hstat
    cases hstat with
    | same hy => exact ⟨st, hy.trans hst, hr⟩
    | inserted => cases hno
    | restarted now hl hst' =>
      have hnone := (hf.asleep (by simp [hl])).2.2.1
      rw [he] at hnone
      cases hnone
    | cancelled => cases hno
    | worked now ht' hl =>
      rw [hb.stopped h he (.inl ha) _ ht'] at hl
      cases hl
    | left now hn hw hst' =>
      cases ht.left _ (List.mem_of_getElem? hn) _ hw
      exact ⟨_, rfl, rfl⟩
  · exact absurd hfut hsome
  · obtain ⟨⟨st, hst, hr⟩, _⟩ := isCancellable_iff.mp
      ((cancelsInTime_iff.mp hc).1 rfl (honours_of hh' ha' hfut' hr))
    exact ⟨st, (status_handlerResume hb hs).trans hst, hr⟩

theorem timely_left (ht : x.Timely) (hc : x.cancelsInTime b = true) (hs : Step jobId x b y) :
    ∀ c ∈ y.leftBehind, ∀ st, c.written = some st → st = .waitingForPrinter := by
  intro c hy st hw
  rcases leftBehind_step hs with hsub | ⟨t, h, record, htask, _, hh, ha, hfut, hr, rfl, rfl⟩
  · exact ht.left c (hsub.subset hy) st hw
  · obtain ⟨_, hearly⟩ := isCancellable_iff.mp
      ((cancelsInTime_iff.mp hc).1 rfl (honours_of hh ha hfut hr))
    rcases List.mem_append.mp hy with hold | hnew
    · exact ht.left c hold st hw
    · rcases Task.mem_pendingThreadCall.mp hnew with ⟨sc, hsc, rfl⟩ | ⟨_, _, rfl⟩
      · obtain ⟨hl, _, hcall⟩ := Task.of_pendingStoreCall hsc
        rcases hearly t htask with hea | hend
        · rcases Await.written_cases hcall hw with ⟨rfl, _⟩ | ⟨_, _, _, he⟩ | ⟨_, he⟩ | ⟨_, _, _, he⟩
          · rfl
          all_goals rw [he] at hea; cases hea
        · exact absurd hend (Task.of_isLive hl).2
      · cases hw

theorem timely_step (hf : x.Fit) (hb : x.Base) (ht : x.Timely) (hc : x.cancelsInTime b = true)
    (hs : Step jobId x b y) : y.Timely :=
  ⟨timely_cancelling hf hb ht hc hs, timely_left ht hc hs⟩

theorem legal_step (hb : x.Base) (ht : x.Timely) (hc : x.cancelsInTime b = true)
    (hs : Step jobId x b y) {st st' : PrintJobStatus} (hst : x.status = some st)
    (hst' : y.status = some st') : st.isLegalTransition st' = true := by
  have hstat := status_step hs hb.leftCall
  rw [hst'] at hstat
  cases hstat with
  | same he =>
    rw [hst] at he
    cases he
    exact PrintJobStatus.isLegalTransition_self st
  | inserted now hh hfut ha hrow =>
    obtain ⟨row, hrow', _⟩ := status_eq_some.mp hst
    rw [hrow] at hrow'
    cases hrow'
  | restarted now hl hx =>
    rw [hst] at hx
    cases hx
    rfl
  | cancelled now hh hfut ha hx =>
    obtain ⟨st₀, hst₀, hr⟩ := ht.cancelling ⟨_, hh, ha, hfut⟩
    rw [hst] at hst₀
    cases hst₀
    exact PrintJobStatus.isLegalTransition_of_isResumable hr (.inr (.inr (.inl rfl)))
  | worked now htask hl hfut hcall hw hx =>
    have hex := hb.live _ htask hl st hst
    rw [hfut] at hex
    rcases Await.written_cases hcall hw with ⟨rfl, ha⟩ | ⟨rfl, _, _, ha⟩ | ⟨rfl, ha⟩ | ⟨rfl, _, _, ha⟩
    · exact PrintJobStatus.isLegalTransition_of_isResumable ((Await.expects_of_isEarly ha).mp hex)
        (.inr (.inr (.inr rfl)))
    · rw [ha] at hex
      exact PrintJobStatus.isLegalTransition_of_isResumable hex (.inl rfl)
    · rw [ha] at hex
      have hex : st = .printing := hex
      rw [hex]
      rfl
    · rw [ha] at hex
      rcases hex with hr | rfl
      · exact PrintJobStatus.isLegalTransition_of_isResumable hr (.inr (.inl rfl))
      · rfl
  | left now hn hw hx =>
    have hmem := List.mem_of_getElem? hn
    cases ht.left _ hmem _ hw
    rcases hb.landing (List.ne_nil_of_mem hmem) with hcan | hcan
    · obtain ⟨st₀, hst₀, hr⟩ := ht.cancelling hcan
      rw [hst] at hst₀
      cases hst₀
      exact PrintJobStatus.isLegalTransition_of_isResumable hr (.inr (.inr (.inr rfl)))
    · have hno := (cancelsInTime_iff.mp hc).2
      rw [landsOnCancelled_of hcan hn hw rfl] at hno
      cases hno

end Job

/-! ## the agent -/

namespace Agent

/-- cancels of the job go on in time, and nothing lands on its row once it is `CANCELLED` -/
def cancelsInTime (jobId : String) : Agent → Act → Bool :=
  Machine.seenAs (view jobId) (seen jobId) Job.cancelsInTime

/-- **Every status write is legal**, where cancels go on in time. -/
theorem legal_transitions {jobId : String} {s s' : Agent} {a : Act}
    (h : agent.Reach (fun s a => s.cancelsInTime jobId a = true) s)
    (hc : s.cancelsInTime jobId a = true) (hstep : agent.step s a = some s')
    {row row' : PrintJobRow} (hrow : s.store.row jobId = some row)
    (hrow' : s'.store.row jobId = some row') :
    row.status.isLegalTransition row'.status = true := by
  have ht : (s.view jobId).Timely :=
    job_invariant Job.timely_init (fun _ _ _ hf hb ht hc hs => Job.timely_step hf hb ht hc hs)
      (fun _ _ hc => .of_seenAs hc) h
  have hshow := agent_shows jobId s a s' (sound_of_reach h.any) hstep
  have hst : (s.view jobId).status = some row.status := Job.status_eq_some.mpr ⟨row, hrow, rfl⟩
  have hst' : (s'.view jobId).status = some row'.status :=
    Job.status_eq_some.mpr ⟨row', hrow', rfl⟩
  cases hl : s.seen jobId a with
  | none =>
    rw [hl] at hshow
    rw [hshow, hst] at hst'
    rw [Option.some.inj hst']
    exact PrintJobStatus.isLegalTransition_self _
  | some b =>
    rw [hl] at hshow
    exact Job.legal_step (base_of_reach h.any) ht (Machine.SeenAs.of_seenAs hc b hl) hshow hst hst'

end Agent

/-! ## a cancel in time, and one that is too late -/

/-- a job up to the point where it waits for its printer: the `WAITING_FOR_PRINTER` write is done,
and the task is about to test its loop -/
def Schedule.waiting (message : PrintJobDispatch) : List Act :=
  startup "1" ++ connect ++ accept "2" message ++ download "3" "/tmp/a.pdf" message.jobId ++
    getStatus false message.jobId ++ [.taskCall message.jobId 0 "4"]

/-- a cancel has read `WAITING_FOR_PRINTER`; then the task finds the cancel flag set, takes it for an
offline printer, and writes `FAILED` -/
def Schedule.failedUnderCancel (message : PrintJobDispatch) : List Act :=
  waiting message ++ readForCancel "5" message.jobId ++
    [.taskResume message.jobId 0 true, .taskCall message.jobId 0 "6"]

namespace Agent

theorem legal_transitions_waiting :
    ∃ s s' row row', agent.step s (.handlerCall "6") = some s' ∧ s.store.row "a" = some row ∧
      s'.store.row "a" = some row' ∧ row.status = .waitingForPrinter ∧ row'.status = .cancelled ∧
      row.status.isLegalTransition row'.status = true := by
  have hrun : (agent.run agent.init (Schedule.waiting Schedule.exampleJob ++
    Schedule.readForCancel "5" "a" ++ [.handlerResume])).isSome = true := by decide
  have hrun' : (agent.run agent.init (Schedule.waiting Schedule.exampleJob ++
    Schedule.readForCancel "5" "a" ++ [.handlerResume] ++ [.handlerCall "6"])).isSome = true := by
    decide
  have hstep := Machine.step_after _ _ hrun hrun'
  have hrow := (Option.some_get (x := Table.get (agent.after _ hrun).store "a") (by rfl)).symm
  have hrow' := (Option.some_get (x := Table.get (agent.after _ hrun').store "a") (by rfl)).symm
  exact ⟨_, _, _, _, hstep, hrow, hrow', rfl, rfl,
    legal_transitions (.of_obeys _ hrun (by decide)) (by rfl) hstep hrow hrow'⟩

/-- the cancel goes on with what it read, and writes `CANCELLED` over `FAILED` -/
theorem illegal_transition_of_stale_cancel :
    ¬ ∀ (s s' : Agent) (a : Act) (jobId : String) (row row' : PrintJobRow),
      agent.Reach Machine.Any s → agent.step s a = some s' → s.store.row jobId = some row →
      s'.store.row jobId = some row' → row.status.isLegalTransition row'.status = true := by
  intro h
  have hrun : (agent.run agent.init (Schedule.failedUnderCancel Schedule.exampleJob ++
    [.handlerResume])).isSome = true := by decide
  have hrun' : (agent.run agent.init (Schedule.failedUnderCancel Schedule.exampleJob ++
    [.handlerResume] ++ [.handlerCall "7"])).isSome = true := by decide
  have hlegal := h _ _ _ "a" _ _ (.after _ hrun) (Machine.step_after _ _ hrun hrun')
    (Option.some_get (by rfl)).symm (Option.some_get (by rfl)).symm
  exact Bool.false_ne_true hlegal

end Agent

end PrintAgent
