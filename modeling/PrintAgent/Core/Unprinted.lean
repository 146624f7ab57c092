import PrintAgent.Core.Cancel
import PrintAgent.Core.PrintOnce

/-!
# Cancelled means not printed

The invariant: once a job is `Cancelled` (its row, or anything that will report it so), it is
`Unprintable`: nothing that could print it is left, and nothing that could make its row resumable
again.  That a step keeps a job unprintable is `unprintable_step`.

`cancelled_not_printed`: so it is where cancels go on before the print call was submitted and no
`WAITING_FOR_PRINTER` write lands on a `CANCELLED` row.  `printed_and_cancelled` is a cancel that
goes on while the job is being printed.
-/

namespace PrintAgent

def Await.isPrint : Await → Bool
  | .print _ _ => true
  | _ => false

namespace Job
variable {jobId : String} {x y : Job} {b : JobAct}

/-- no print call was made for the job, and its task has submitted none -/
def isUnprinted (x : Job) : Bool := x.prints.isEmpty && x.task.all fun t => !t.await.isPrint

/-- cancels go on before the print call, and nothing makes a `CANCELLED` row resumable -/
def cancelsUnprinted (x : Job) (b : JobAct) : Bool :=
  (!(decide (b = .handlerResume) && x.honours) || x.isUnprinted) &&
    !x.landsOnCancelled (fun status => status = .waitingForPrinter) b

theorem cancelsUnprinted_iff : x.cancelsUnprinted b = true ↔
    (b = .handlerResume → x.honours = true → x.isUnprinted = true) ∧
      x.landsOnCancelled (fun status => status = .waitingForPrinter) b = false := by
  simp [cancelsUnprinted, imp_iff_not_or, or_assoc]

theorem isUnprinted_iff : x.isUnprinted = true ↔
    x.prints = [] ∧ ∀ t, x.task = some t → t.await.isPrint = false := by
  simp [isUnprinted, Option.all_eq_true]

/-- nothing is left that could print the job -/
structure Unprintable (x : Job) : Prop where
  prints : x.prints = []
  noLeft : ∀ p, ThreadCall.print p ∉ x.leftBehind
  stopped : ∀ t, x.task = some t → t.isLive = false
  row : ∃ st, x.status = some st ∧ st.isResumable = false
  waiting : ∀ c ∈ x.leftBehind, c.written = some .waitingForPrinter → x.status = some .cancelled

theorem prints_of_stopped (hs : Step jobId x b y)
    (hstop : ∀ t, x.task = some t → t.isLive = false) (hleft : ∀ p, ThreadCall.print p ∉ x.leftBehind) :
    y.prints = x.prints := by
  rcases prints_step hs with he | ⟨t, p, ans, ht, hp, _⟩ | ⟨n, p, hn, _⟩
  · exact he
  · have hl := (Task.of_pendingPrint hp).1
    rw [hstop t ht] at hl
    cases hl
  · exact absurd (List.mem_of_getElem? hn) (hleft p)

theorem unprintable_row (hb : x.Base) (hu : x.Unprintable) (hc : x.cancelsUnprinted b = true)
    (hs : Step jobId x b y) : ∃ st, y.status = some st ∧ st.isResumable = false := by
  obtain ⟨st, hst, hr⟩ := hu.row
  have hstat := status_step hs hb.leftCall
  generalize y.status = o at hstat
  cases hstat with
  | same he => exact ⟨st, he.trans hst, hr⟩
  | inserted now _ _ _ hrow =>
    obtain ⟨row, hrow', _⟩ := status_eq_some.mp hst
    rw [hrow] at hrow'
    cases hrow'
  | restarted => exact ⟨_, rfl, rfl⟩
  | cancelled => exact ⟨_, rfl, rfl⟩
  | worked now ht hl =>
    rw [hu.stopped _ ht] at hl
    cases hl
  | left now hn hw hst' =>
    have hmem := List.mem_of_getElem? hn
    obtain ⟨a, ha⟩ := hb.leftCall _ hmem
    rcases Await.written_cases ha hw with ⟨rfl, _⟩ | ⟨rfl, _⟩ | ⟨rfl, _⟩ | ⟨rfl, _⟩
    · have hno := (cancelsUnprinted_iff.mp hc).2
      rw [landsOnCancelled_of (hu.waiting _ hmem hw) hn hw rfl] at hno
      cases hno
    · exact ⟨_, rfl, rfl⟩
    · exact ⟨_, rfl, rfl⟩
    · exact ⟨_, rfl, rfl⟩

/-- **An unprintable job stays unprintable.** -/
theorem unprintable_step (hf : x.Fit) (hb : x.Base) (hu : x.Unprintable)
    (hc : x.cancelsUnprinted b = true) (hs : Step jobId x b y) : y.Unprintable where
  prints := (prints_of_stopped hs hu.stopped hu.noLeft).trans hu.prints
  noLeft p hp := hu.noLeft p ((leftBehind_sublist_of_stopped hs hu.stopped).subset hp)
  stopped := by
    rcases task_of_not_live hu.stopped hs with hstop | hcr
    · exact hstop
    · obtain ⟨st, hst, hr⟩ := hu.row
      obtain ⟨_, st', hst', hr'⟩ := hb.of_creates hf hcr
      rw [hst] at hst'
      cases hst'
      rw [hr] at hr'
      cases hr'
  row := unprintable_row hb hu hc hs
  waiting c hc' hw := by
    have hx := (leftBehind_sublist_of_stopped hs hu.stopped).subset hc'
    rcases status_of_leftBehind hf hb hs hx hc' with he | he
    · exact he.trans (hu.waiting c hx hw)
    · exact he

/-- the job is cancelled for good: its row says so, or something that reports it so -/
inductive Cancelled (x : Job) : Prop
  | row (hst : x.status = some .cancelled)
  | reported {e : JobEvent} (he : e ∈ x.handed) (hst : e.status = .cancelled)
  /-- `handle_cancel` has written it -/
  | written {h : Handler} (hh : x.handler = some h) (ha : h.await = .setCancelled)
      (hfut : h.fut ≠ none)
  /-- `handle_dispatch` has read it -/
  | read {h : Handler} {record : PrintJobRecord} (hh : x.handler = some h)
      (hfut : h.fut = some (.record (some record))) (hst : record.status = .cancelled)

structure Unprinted (x : Job) : Prop where
  noLeft : ∀ p, ThreadCall.print p ∉ x.leftBehind
  cancelling : ∀ h, x.handler = some h → h.await = .setCancelled → h.fut = none → x.prints = []
  closed : x.Cancelled → x.Unprintable

theorem unprinted_init : Unprinted .init where
  noLeft _ h := absurd h List.not_mem_nil
  cancelling _ hh := by cases hh
  closed hc := by
    cases hc with
    | row hst => cases hst
    | reported he => cases he
    | written hh => cases hh
    | read hh => cases hh

theorem unprinted_noLeft (hi : x.Unprinted) (hc : x.cancelsUnprinted b = true)
    (hs : Step jobId x b y) : ∀ p, ThreadCall.print p ∉ y.leftBehind := by
  intro p hp
  rcases leftBehind_step hs with hsub | ⟨t, h, record, ht, _, hh, ha, hfut, hr, rfl, rfl⟩
  · exact hi.noLeft p (hsub.subset hp)
  · rcases List.mem_append.mp hp with hold | hnew
    · exact hi.noLeft p hold
    · rcases Task.mem_pendingThreadCall.mp hnew with ⟨_, _, he⟩ | ⟨p', hp', _⟩
      · cases he
      · obtain ⟨record, path, hprint⟩ := Await.of_printCall (Task.of_pendingPrint hp').2.2
        have hno := (isUnprinted_iff.mp
          ((cancelsUnprinted_iff.mp hc).1 rfl (honours_of hh ha hfut hr))).2 t ht
        rw [hprint] at hno
        cases hno

theorem unprinted_cancelling (hb : x.Base) (hi : x.Unprinted)
    (hc : x.cancelsUnprinted b = true) (hs : Step jobId x b y) :
    ∀ h, y.handler = some h → h.await = .setCancelled → h.fut = none → y.prints = [] := by
  intro h hh ha hfut
  rcases of_setCancelled hs hh ha with ⟨_, he⟩ | ⟨_, _, _, _, _, _, hsome⟩ |
    ⟨h', record, rfl, hh', ha', hfut', hr, _⟩
  · exact (prints_of_stopped hs (hb.stopped h he (.inl ha)) hi.noLeft).trans
      (hi.cancelling h he ha hfut)
  · exact absurd hfut hsome
  · obtain ⟨hp, _⟩ := isUnprinted_iff.mp
      ((cancelsUnprinted_iff.mp hc).1 rfl (honours_of hh' ha' hfut' hr))
    exact (prints_handlerResume hs).trans hp

theorem unprintable_of_setCancelled (hb : x.Base) (hi : x.Unprinted) {h : Handler}
    (hh : x.handler = some h) (ha : h.await = .setCancelled) (hfut : h.fut = none) {now : String}
    (hs : Step jobId x (.handlerCall now) y) : y.Unprintable := by
  have hstop := hb.stopped h hh (.inl ha)
  have hcan := hb.status_of_setCancelled hh ha hs
  have hleft : y.leftBehind.Sublist x.leftBehind := leftBehind_sublist_of_stopped hs hstop
  refine ⟨(prints_of_stopped hs hstop hi.noLeft).trans (hi.cancelling h hh ha hfut),
    fun p hp => hi.noLeft p (hleft.subset hp), ?_, ⟨_, hcan, rfl⟩, fun _ _ _ => hcan⟩
  rcases task_of_not_live hstop hs with hstop' | hcr
  · exact hstop'
  · cases hcr

theorem unprinted_closed (hf : x.Fit) (hb : x.Base) (hi : x.Unprinted)
    (hc : x.cancelsUnprinted b = true) (hs : Step jobId x b y) (hy : y.Cancelled) :
    y.Unprintable := by
  have hold : x.Cancelled → y.Unprintable := fun hx =>
    unprintable_step hf hb (hi.closed hx) hc hs
  cases hy with
  | row hst =>
    have hstat := status_step hs hb.leftCall
    rw [hst] at hstat
    cases hstat with
    | same he => exact hold (.row he.symm)
    | cancelled now hh hfut ha _ => exact unprintable_of_setCancelled hb hi hh ha hfut hs
    | worked now ht hl hfut hcall hw _ =>
      rcases Await.written_cases hcall hw with ⟨he, _⟩ | ⟨he, _⟩ | ⟨he, _⟩ | ⟨he, _⟩ <;> cases he
    | left now hn hw _ =>
      obtain ⟨a, ha⟩ := hb.leftCall _ (List.mem_of_getElem? hn)
      rcases Await.written_cases ha hw with ⟨he, _⟩ | ⟨he, _⟩ | ⟨he, _⟩ | ⟨he, _⟩ <;> cases he
  | reported he hst =>
    rename_i e
    obtain ⟨o, hhanded, ho⟩ := handed_step hs
    rw [hhanded] at he
    rcases List.mem_append.mp he with hx | hnew
    · exact hold (.reported hx hst)
    · cases ho with
      | nothing => cases hnew
      | restarted =>
        rw [List.mem_singleton.mp hnew] at hst
        cases hst
      | received =>
        rw [List.mem_singleton.mp hnew] at hst
        cases hst
      | resent hh _ hfut _ hrec =>
        rw [List.mem_singleton.mp hnew] at hst
        exact hold (.read hh hfut (hrec.symm.trans hst))
      | cancelled hh ha hfut => exact hold (.written hh ha (by simp [hfut]))
      | worked _ _ _ _ _ _ hev =>
        rw [List.mem_singleton.mp hnew] at hst
        rcases Await.event_cases hev with ⟨rfl, _⟩ | ⟨rfl, _⟩ | ⟨_, _, rfl, _⟩ <;> cases hst
  | written hh ha hfut =>
    rcases of_setCancelled hs hh ha with ⟨_, he⟩ | ⟨now, h', rfl, hh', ha', hf', _⟩ |
      ⟨_, _, _, _, _, _, _, hnone⟩
    · exact hold (.written he ha hfut)
    · exact unprintable_of_setCancelled hb hi hh' ha' hf' hs
    · exact absurd hnone hfut
  | read hh hfut hst =>
    rcases of_record hs hh hfut with he | ⟨_, row, _, _, hrow, rfl⟩
    · exact hold (.read he hfut hst)
    · exact hold (.row (status_eq_some.mpr ⟨row, hrow, hst⟩))

theorem unprinted_step (hf : x.Fit) (hb : x.Base) (hi : x.Unprinted)
    (hc : x.cancelsUnprinted b = true) (hs : Step jobId x b y) : y.Unprinted :=
  ⟨unprinted_noLeft hi hc hs, unprinted_cancelling hb hi hc hs, unprinted_closed hf hb hi hc hs⟩

end Job

/-! ## the agent -/

namespace Agent

/-- cancels of the job go on before its print call was submitted, and no `WAITING_FOR_PRINTER`
write left behind lands on its row once it is `CANCELLED` -/
def cancelsUnprinted (jobId : String) : Agent → Act → Bool :=
  Machine.seenAs (view jobId) (seen jobId) Job.cancelsUnprinted

/-- **A cancelled job is not printed**, before or after, where cancels go on before the print. -/
theorem cancelled_not_printed {jobId : String} {s : Agent}
    (h : agent.Reach (fun s a => s.cancelsUnprinted jobId a = true) s)
    (hc : JobEvent.cancelled jobId ∈ s.handed) : ∀ p ∈ s.prints, p.jobId ≠ jobId := by
  have hi : (s.view jobId).Unprinted :=
    job_invariant Job.unprinted_init (fun _ _ _ hf hb hi hc hs => Job.unprinted_step hf hb hi hc hs)
      (fun _ _ hc => .of_seenAs hc) h
  have hhanded : JobEvent.cancelled jobId ∈ (s.view jobId).handed := by
    simp [view, hc, JobEvent.jobId]
  have hprints : s.prints.filter (·.jobId = jobId) = [] := (hi.closed (.reported hhanded rfl)).prints
  simpa using hprints

end Agent

/-! ## a cancel in time, and one while the job is being printed -/

/-- a job that waits for its printer is cancelled; the agent restarts -/
def Schedule.cancelledInTime (message : PrintJobDispatch) : List Act :=
  waiting message ++ readForCancel "5" message.jobId ++ goOnWithCancel "6" ++
    [.taskThrow message.jobId 0, .crash] ++ startup "7"

/-- a cancel has read `RECEIVED`; the `PRINTING` write takes effect after the read, and the task has
submitted its print call when the cancel goes on -/
def Schedule.printedUnderCancel (message : PrintJobDispatch) : List Act :=
  startup "1" ++ connect ++ accept "2" message ++ download "3" "/tmp/a.pdf" message.jobId ++
    getStatus true message.jobId ++ readForCancel "4" message.jobId ++ start "5" message.jobId ++
    [.handlerResume, .leftPrint message.jobId 0, .handlerCall "6", .handlerResume]

namespace Agent

theorem cancelled_not_printed_in_time :
    ∃ s, agent.run agent.init (Schedule.cancelledInTime Schedule.exampleJob) = some s ∧
      JobEvent.cancelled "a" ∈ s.handed ∧ ∀ p ∈ s.prints, p.jobId ≠ "a" := by
  have hrun : (agent.run agent.init (Schedule.cancelledInTime Schedule.exampleJob)).isSome = true := by
    decide
  have hc : JobEvent.cancelled "a" ∈ (agent.after _ hrun).handed := List.elem_iff.mp (by rfl)
  exact ⟨_, Machine.run_after _ hrun, hc, cancelled_not_printed (.of_obeys _ hrun (by decide)) hc⟩

theorem printed_and_cancelled :
    ¬ ∀ (s : Agent) (jobId : String), agent.Reach Machine.Any s →
      JobEvent.cancelled jobId ∈ s.handed → ∀ p ∈ s.prints, p.jobId ≠ jobId := by
  intro h
  have hrun : (agent.run agent.init (Schedule.printedUnderCancel Schedule.exampleJob)).isSome = true := by
    decide
  have hc : JobEvent.cancelled "a" ∈ (agent.after _ hrun).handed := List.elem_iff.mp (by rfl)
  exact h _ "a" (.after _ hrun) hc ⟨"a", "p", "/tmp/a.pdf", 1⟩ (List.elem_iff.mp (by rfl)) rfl

end Agent

end PrintAgent
