import PrintAgent.Core.Cancel

/-!
# One verdict per job

The terminal events of a job come from five places.  The invariant (`Job.OneVerdict`) is that each of
them reports what the row says, and that a row does not leave a terminal status that was reported,
or that something is about to report.

`one_verdict`: all of them report the same, and none is followed by `print.job.started`, where no
verdict was handed over when a cancel goes on and no status write lands on a `CANCELLED` row.
`two_verdicts` is a cancel that goes on after the task failed.
-/

namespace PrintAgent

namespace JobEvent

/-- `e'` may come after `e` -/
def Agrees (e e' : JobEvent) : Prop :=
  e.isVerdict = true → e'.status ≠ .printing ∧ (e'.isVerdict = true → e'.status = e.status)

end JobEvent

namespace Job
variable {jobId : String} {x y : Job} {b : JobAct}

/-- no verdict on the job was handed over -/
def isOpen (x : Job) : Bool := x.handed.all fun e => !e.isVerdict

/-- cancels go on while there is no verdict, and nothing lands on a `CANCELLED` row -/
def cancelsOpen (x : Job) (b : JobAct) : Bool :=
  (!(decide (b = .handlerResume) && x.honours) || x.isOpen) && !x.landsOnCancelled (fun _ => true) b

theorem cancelsOpen_iff : x.cancelsOpen b = true ↔
    (b = .handlerResume → x.honours = true → x.isOpen = true) ∧
      x.landsOnCancelled (fun _ => true) b = false := by
  simp [cancelsOpen, imp_iff_not_or, or_assoc]

theorem isOpen_iff : x.isOpen = true ↔ ∀ e ∈ x.handed, e.isVerdict = false := by
  simp [isOpen]

structure OneVerdict (x : Job) : Prop where
  agree : x.handed.Pairwise JobEvent.Agrees
  /-- a verdict that was handed over is what the row says -/
  settled : ∀ e ∈ x.handed, e.isVerdict = true → x.status = some e.status
  /-- so is one that `handle_dispatch` has read -/
  read : ∀ h record, x.handler = some h → h.fut = some (.record (some record)) →
    record.status.isTerminal = true → x.status = some record.status
  /-- and the one that `handle_cancel` has written -/
  written : ∀ h, x.handler = some h → h.await = .setCancelled → h.fut ≠ none →
    x.status = some .cancelled
  /-- and the one that startup recovery has written -/
  restarted : x.life = .marking (some true) → x.status = some .failed
  cancelling : x.Cancelling → ∀ e ∈ x.handed, e.isVerdict = false

theorem oneVerdict_init : OneVerdict .init where
  agree := .nil
  settled _ he := absurd he List.not_mem_nil
  read _ _ hh := by cases hh
  written _ hh := by cases hh
  restarted hl := by cases hl
  cancelling _ _ he := absurd he List.not_mem_nil

/-- a verdict stays in the row, unless `handle_cancel` is about to write -/
theorem verdict_stays (hb : x.Base) (hc : x.cancelsOpen b = true) (hs : Step jobId x b y)
    (hno : ¬ x.Cancelling) {v : PrintJobStatus} (hst : x.status = some v)
    (hv : v.isTerminal = true) : y.status = some v := by
  rcases terminal_step hb hs hst hv with he | ⟨hcan, _⟩ | ⟨n, now, c, st, rfl, hn, hw, _, hor⟩
  · exact he
  · exact absurd hcan hno
  · rcases hor with hcan | rfl
    · exact absurd hcan hno
    · have hland := (cancelsOpen_iff.mp hc).2
      rw [landsOnCancelled_of hst hn hw rfl] at hland
      cases hland

theorem status_of_handed (hb : x.Base) (hs : Step jobId x b y) {e : JobEvent}
    (hh : HandedStep jobId x b (some e)) : y.status = x.status := by
  have hstat := status_step hs hb.leftCall
  generalize y.status = o at hstat
  cases hh <;> cases hstat <;> assumption

/-- whatever is handed over, the acknowledgement apart, is what the row says -/
theorem status_of_event (hf : x.Fit) (hb : x.Base) (hi : x.OneVerdict) {e : JobEvent}
    (hh : HandedStep jobId x b (some e)) : e = .received jobId ∨ x.status = some e.status := by
  cases hh with
  | restarted hl => exact .inr (hi.restarted hl)
  | received => exact .inl rfl
  | resent hh _ hfut ht he => exact .inr (he ▸ hi.read _ _ hh hfut ht)
  | cancelled hh ha hfut => exact .inr (hi.written _ hh ha (by simp [hfut]))
  | worked _ _ ht hl hfut hflow hev => exact .inr (hb.status_of_worked hf ht hl hfut hflow hev)

theorem verdict_handed (hf : x.Fit) (hb : x.Base) (hi : x.OneVerdict) (hc : x.cancelsOpen b = true)
    (hs : Step jobId x b y) :
    y.handed.Pairwise JobEvent.Agrees ∧
      ∀ e ∈ y.handed, e.isVerdict = true → y.status = some e.status := by
  have hold : ∀ e ∈ x.handed, e.isVerdict = true → y.status = some e.status := by
    intro e he hv
    refine verdict_stays hb hc hs (fun hcan => ?_) (hi.settled e he hv) hv
    rw [hi.cancelling hcan e he] at hv
    cases hv
  obtain ⟨o, hhanded, ho⟩ := handed_step hs
  rw [hhanded]
  cases o with
  | none =>
    rw [Option.toList_none, List.append_nil]
    exact ⟨hi.agree, hold⟩
  | some e =>
    have hsame := status_of_handed hb hs ho
    rw [Option.toList_some]
    constructor
    · refine List.pairwise_append.mpr ⟨hi.agree, List.pairwise_singleton _ _, fun e₀ he₀ e' he' hv => ?_⟩
      rw [List.mem_singleton.mp he']
      rcases status_of_event hf hb hi ho with rfl | hst
      · exact ⟨by simp [JobEvent.status], fun hv' => by cases hv'⟩
      · have hst₀ := hi.settled e₀ he₀ hv
        rw [hst] at hst₀
        have heq : e.status = e₀.status := Option.some.inj hst₀
        refine ⟨fun hp => ?_, fun _ => heq⟩
        have hv : e₀.status.isTerminal = true := hv
        rw [← heq, hp] at hv
        cases hv
    · intro e' he' hv
      rcases List.mem_append.mp he' with hx | hnew
      · exact hold e' hx hv
      · rw [List.mem_singleton.mp hnew] at hv ⊢
        rcases status_of_event hf hb hi ho with rfl | hst
        · cases hv
        · exact hsame.trans hst

theorem verdict_read (hb : x.Base) (hi : x.OneVerdict) (hc : x.cancelsOpen b = true)
    (hs : Step jobId x b y) : ∀ h record, y.handler = some h →
      h.fut = some (.record (some record)) → record.status.isTerminal = true →
      y.status = some record.status := by
  intro h record hh hfut hv
  rcases of_record hs hh hfut with he | ⟨h', row, hh', hget, hrow, rfl⟩
  · refine verdict_stays hb hc hs ?_ (hi.read h record he hfut hv) hv
    rintro ⟨h', hh', _, hfut'⟩
    rw [he] at hh'
    cases hh'
    rw [hfut] at hfut'
    cases hfut'
  · refine verdict_stays hb hc hs ?_ (status_eq_some.mpr ⟨row, hrow, rfl⟩) hv
    rintro ⟨h'', hh'', ha, _⟩
    rw [hh'] at hh''
    cases hh''
    rw [ha] at hget
    cases hget

theorem verdict_written (hb : x.Base) (hi : x.OneVerdict) (hc : x.cancelsOpen b = true)
    (hs : Step jobId x b y) : ∀ h, y.handler = some h → h.await = .setCancelled → h.fut ≠ none →
      y.status = some .cancelled := by
  intro h hh ha hfut
  rcases of_setCancelled hs hh ha with ⟨_, he⟩ | ⟨now, h', rfl, hh', ha', _⟩ |
    ⟨_, _, _, _, _, _, _, hnone⟩
  · refine verdict_stays hb hc hs ?_ (hi.written h he ha hfut) rfl
    rintro ⟨h', hh', _, hfut'⟩
    rw [he] at hh'
    cases hh'
    exact hfut hfut'
  · exact hb.status_of_setCancelled hh' ha' hs
  · exact absurd hnone hfut

theorem verdict_restarted (hf : x.Fit) (hb : x.Base) (hi : x.OneVerdict)
    (hc : x.cancelsOpen b = true) (hs : Step jobId x b y) (hl : y.life = .marking (some true)) :
    y.status = some .failed := by
  have hold : x.life = .marking (some true) → y.status = some .failed := fun hx => by
    refine verdict_stays hb hc hs ?_ (hi.restarted hx) rfl
    rintro ⟨h, hh, _⟩
    rw [(hf.asleep (by simp [hx])).2.2.1] at hh
    cases hh
  cases hs with
  | boot => cases hl
  | markStuck now hl' =>
    have hst : x.status = some .printing := by
      have hdec : decide (x.status = some .printing) = true := by
        injection hl with hl
        exact Option.some.inj hl
      simpa using hdec
    obtain ⟨row, hrow, hp⟩ := status_eq_some.mp hst
    simp [status, hrow, hp]
  | handStuck => cases hl
  | listRows => cases hl
  | resumeRows => cases hl
  | handlerCancelTask => exact hold ((x.cancelTask_life jobId).symm.trans hl)
  | crash => cases hl
  | _ => exact hold hl

theorem verdict_cancelling (hf : x.Fit) (hb : x.Base) (hi : x.OneVerdict)
    (hc : x.cancelsOpen b = true) (hs : Step jobId x b y) (hy : y.Cancelling) :
    ∀ e ∈ y.handed, e.isVerdict = false := by
  obtain ⟨h, hh, ha, hfut⟩ := hy
  obtain ⟨o, hhanded, ho⟩ := handed_step hs
  rcases of_setCancelled hs hh ha with ⟨hno, he⟩ | ⟨_, _, _, _, _, _, hsome⟩ |
    ⟨h', record, rfl, hh', ha', hfut', hr, _⟩
  · have hx := hi.cancelling ⟨h, he, ha, hfut⟩
    cases ho with
    | nothing =>
      rw [hhanded, Option.toList_none, List.append_nil]
      exact hx
    | restarted hl =>
      rw [(hf.asleep (by simp [hl])).2.2.1] at he
      cases he
    | received => cases hno
    | resent => cases hno
    | cancelled => cases hno
    | worked _ _ ht hl =>
      rw [hb.stopped h he (.inl ha) _ ht] at hl
      cases hl
  · exact absurd hfut hsome
  · have hx := isOpen_iff.mp ((cancelsOpen_iff.mp hc).1 rfl (honours_of hh' ha' hfut' hr))
    cases ho with
    | nothing =>
      rw [hhanded, Option.toList_none, List.append_nil]
      exact hx
    | received hh'' ha'' =>
      rw [hh'] at hh''
      cases hh''
      rw [ha'] at ha''
      cases ha''
    | resent hh'' ha'' =>
      rw [hh'] at hh''
      cases hh''
      rw [ha'] at ha''
      rcases ha'' with ha'' | ⟨_, ha''⟩ <;> cases ha''
    | cancelled hh'' ha'' =>
      rw [hh'] at hh''
      cases hh''
      rw [ha'] at ha''
      cases ha''

theorem verdict_step (hf : x.Fit) (hb : x.Base) (hi : x.OneVerdict) (hc : x.cancelsOpen b = true)
    (hs : Step jobId x b y) : y.OneVerdict where
  agree := (verdict_handed hf hb hi hc hs).1
  settled := (verdict_handed hf hb hi hc hs).2
  read := verdict_read hb hi hc hs
  written := verdict_written hb hi hc hs
  restarted := verdict_restarted hf hb hi hc hs
  cancelling := verdict_cancelling hf hb hi hc hs

end Job

/-! ## the agent -/

namespace Agent

/-- cancels of the job go on while no verdict on it was handed over, and nothing lands on its row once
it is `CANCELLED` -/
def cancelsOpen (jobId : String) : Agent → Act → Bool :=
  Machine.seenAs (view jobId) (seen jobId) Job.cancelsOpen

/-- **One verdict per job**, where cancels go on before there is one. -/
theorem one_verdict {jobId : String} {s : Agent}
    (h : agent.Reach (fun s a => s.cancelsOpen jobId a = true) s) :
    (∀ e ∈ s.handed, ∀ e' ∈ s.handed, e.jobId = jobId → e'.jobId = jobId → e.isVerdict = true →
      e'.isVerdict = true → e.status = e'.status) ∧
    ∀ before e after, s.handed.filter (·.jobId = jobId) = before ++ e :: after →
      e.isVerdict = true → JobEvent.started jobId ∉ after := by
  have hi : (s.view jobId).OneVerdict :=
    job_invariant Job.oneVerdict_init
      (fun _ _ _ hf hb hi hc hs => Job.verdict_step hf hb hi hc hs) (fun _ _ hc => .of_seenAs hc) h
  have hmem : ∀ e ∈ s.handed, e.jobId = jobId → e ∈ (s.view jobId).handed := fun e he hj => by
    simp [view, he, hj]
  constructor
  · intro e he e' he' hj hj' hv hv'
    have hst := hi.settled e (hmem e he hj) hv
    rw [hi.settled e' (hmem e' he' hj') hv'] at hst
    exact (Option.some.inj hst).symm
  · intro before e after heq hv hstarted
    have hagree : (before ++ e :: after).Pairwise JobEvent.Agrees := heq ▸ hi.agree
    have hafter := (List.pairwise_cons.mp (List.pairwise_append.mp hagree).2.1).1
    exact (hafter _ hstarted hv).1 rfl

/-- a job is cancelled in time, and dispatched again -/
theorem one_verdict_in_time :
    ∃ s, agent.run agent.init (Schedule.waiting Schedule.exampleJob ++
        Schedule.readForCancel "5" "a" ++ Schedule.goOnWithCancel "6" ++
        [.dispatch Schedule.exampleJob, .handlerCall "7", .handlerResume]) = some s ∧
      s.handed = [.received "a", .cancelled "a", .cancelled "a"] ∧
      ∀ e ∈ s.handed, ∀ e' ∈ s.handed, e.jobId = "a" → e'.jobId = "a" → e.isVerdict = true →
        e'.isVerdict = true → e.status = e'.status := by
  have hrun : (agent.run agent.init (Schedule.waiting Schedule.exampleJob ++
      Schedule.readForCancel "5" "a" ++ Schedule.goOnWithCancel "6" ++
      [.dispatch Schedule.exampleJob, .handlerCall "7", .handlerResume])).isSome = true := by decide
  exact ⟨_, Machine.run_after _ hrun, rfl, (one_verdict (.of_obeys _ hrun (by decide))).1⟩

/-- a cancel has read `WAITING_FOR_PRINTER`; the task fails under the flag and reports it; then the
cancel goes on -/
theorem two_verdicts :
    ¬ ∀ (s : Agent) (jobId : String), agent.Reach Machine.Any s →
      ∀ e ∈ s.handed, ∀ e' ∈ s.handed, e.jobId = jobId → e'.jobId = jobId → e.isVerdict = true →
        e'.isVerdict = true → e.status = e'.status := by
  intro h
  have hrun : (agent.run agent.init (Schedule.failedUnderCancel Schedule.exampleJob ++
      [.taskResume "a" 0 true] ++ Schedule.goOnWithCancel "7")).isSome = true := by decide
  have heq := h _ "a" (.after _ hrun)
    (.failed "a" (some "PRINTER_OFFLINE") (some "Printer p did not come online"))
    (List.elem_iff.mp (by rfl)) (.cancelled "a") (List.elem_iff.mp (by rfl)) rfl rfl rfl rfl
  cases heq

end Agent

end PrintAgent
