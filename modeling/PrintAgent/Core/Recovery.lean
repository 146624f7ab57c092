import PrintAgent.Core.Base

/-!
# Nothing acknowledged is lost

* `stored_of_acknowledged`     the row of a job that was acknowledged is there for the rest of the
                               run: `handle_dispatch` inserts it before it acknowledges;
* `Agent.Recovered`            what `_recover_on_startup` makes of a row: one case for each status a
                               row can have;
* `acknowledged_never_lost`    both, for every state that a run leaves behind.
-/

namespace PrintAgent

namespace Job
variable {jobId : String} {x y : Job} {b : JobAct}

/-! ## an acknowledged job has a row -/

theorem acknowledged_step (hf : x.Fit) (hb : x.Base) (hs : Step jobId x b y)
    (hx : .received jobId ∈ x.handed → ∃ st, x.status = some st) :
    .received jobId ∈ y.handed → ∃ st, y.status = some st := by
  intro hy
  refine stored_step hb hs ?_
  obtain ⟨o, he, ho⟩ := handed_step hs
  rw [he] at hy
  rcases List.mem_append.mp hy with hold | hnew
  · exact hx hold
  · cases ho with
    | nothing => cases hnew
    | restarted hl => simp [Agent.restartEvent] at hnew
    | received hh ha hfut => exact ⟨_, hb.fresh _ hh (.inr ⟨_, ha, hfut⟩)⟩
    | resent hh ha hfut ht hst =>
      simp only [Option.toList_some, List.mem_singleton] at hnew
      rw [← hst, ← hnew] at ht
      cases ht
    | cancelled hh ha hfut => simp at hnew
    | worked pathExists socket ht hl hfut hflow hev =>
      obtain ⟨row, hrow⟩ := hf.stored _ ht
      exact ⟨_, status_eq_some.mpr ⟨row, hrow, rfl⟩⟩

end Job

namespace Agent

theorem stored_of_acknowledged {s s' : Agent} {as : List Act} (h : agent.Reach Machine.Any s)
    (hrun : agent.run s as = some s') {j : String} (hj : JobEvent.received j ∈ s.handed) :
    ∃ row, s'.store.row j = some row := by
  have hinv : JobEvent.received j ∈ (s.view j).handed → ∃ st, (s.view j).status = some st :=
    job_invariant (D := fun _ _ => True)
      (I := fun x => JobEvent.received j ∈ x.handed → ∃ st, x.status = some st)
      (fun h => by cases h) (fun _ _ _ hf hb hI _ hs => Job.acknowledged_step hf hb hs hI)
      (fun _ _ _ _ _ => trivial) h
  have hst : ∃ st, (s'.view j).status = some st :=
    job_path_invariant (D := fun _ _ => True) (I := fun x => ∃ st, x.status = some st)
      (fun _ _ _ _ hb hI _ hs => Job.stored_step hb hs hI) (fun _ _ _ _ _ => trivial) h
      (.of_run hrun) (hinv (by simp [view, hj, JobEvent.jobId]))
  obtain ⟨st, hst⟩ := hst
  obtain ⟨row, hrow, _⟩ := Job.status_eq_some.mp hst
  exact ⟨row, hrow⟩

/-! ## `_recover_on_startup` -/

/-- what a start from `s`, which ended in `s'`, made of the row `row` of the job `j` -/
inductive Recovered (now : String) (s s' : Agent) (j : String) (row : PrintJobRow) : Prop
  /-- failed, and reported once -/
  | failed (hst : row.status = .printing) (hrow : s'.store.row j = some (row.markFailed now))
      (ht : (s'.slots j).tasks = [])
      (hh : s'.handed.filter (·.jobId = j) = s.handed.filter (·.jobId = j) ++ [restartEvent j])
  /-- resumed with one task -/
  | resumed (hst : row.status = .received ∨ row.status = .waitingForPrinter)
      (hrow : s'.store.row j = some row) (ht : (s'.slots j).tasks = [.new])
      (hh : s'.handed.filter (·.jobId = j) = s.handed.filter (·.jobId = j))
  /-- left as it is -/
  | kept (hst : row.status = .completed ∨ row.status = .failed ∨ row.status = .cancelled)
      (hrow : s'.store.row j = some row) (ht : (s'.slots j).tasks = [])
      (hh : s'.handed.filter (·.jobId = j) = s.handed.filter (·.jobId = j))

theorem run_startup {s : Agent} (hl : s.life = .down) (now : String) :
    ∃ s', agent.run s (Schedule.startup now) = some s' ∧ s'.life = .running := by
  simp only [Schedule.startup, Machine.run_cons, agent, step, hl, if_true, Option.bind_some,
    Machine.run_nil]
  exact ⟨_, rfl, rfl⟩

theorem view_startup {s s' : Agent} (hs : s.Sound) {now : String}
    (hrun : agent.run s (Schedule.startup now) = some s') (j : String) :
    ∃ x₁ x₂ x₃ x₄, Job.Step j (s.view j) .boot x₁ ∧ Job.Step j x₁ (.markStuck now) x₂ ∧
      Job.Step j x₂ .handStuck x₃ ∧ Job.Step j x₃ .listRows x₄ ∧
      Job.Step j x₄ .resumeRows (s'.view j) := by
  obtain ⟨s₁, h₁, hrun⟩ := agent.run_cons_eq_some.mp hrun
  obtain ⟨s₂, h₂, hrun⟩ := agent.run_cons_eq_some.mp hrun
  obtain ⟨s₃, h₃, hrun⟩ := agent.run_cons_eq_some.mp hrun
  obtain ⟨s₄, h₄, hrun⟩ := agent.run_cons_eq_some.mp hrun
  obtain ⟨s₅, h₅, hrun⟩ := agent.run_cons_eq_some.mp hrun
  cases hrun
  have hs₁ := sound_step hs h₁
  have hs₂ := sound_step hs₁ h₂
  have hs₃ := sound_step hs₂ h₃
  have hs₄ := sound_step hs₃ h₄
  exact ⟨_, _, _, _, agent_shows j _ _ _ hs h₁, agent_shows j _ _ _ hs₁ h₂,
    agent_shows j _ _ _ hs₂ h₃, agent_shows j _ _ _ hs₃ h₄, agent_shows j _ _ _ hs₄ h₅⟩

theorem view_recovered {s s' : Agent} (hs : s.Sound) {now : String}
    (hrun : agent.run s (Schedule.startup now) = some s') {j : String} {row : PrintJobRow}
    (hrow : s.store.row j = some row) :
    (s'.view j).row = some (if row.status = .printing then row.markFailed now else row) ∧
    (s'.view j).task = (if row.status.isResumable then some .new else none) ∧
    (s'.view j).handed
      = (s.view j).handed ++ if row.status = .printing then [restartEvent j] else [] := by
  obtain ⟨x₁, x₂, x₃, x₄, h₁, h₂, h₃, h₄, h₅⟩ := view_startup hs hrun j
  have hx : (s.view j).row = some row := hrow
  have hfit := hs.fit j
  generalize s.view j = x at *
  generalize s'.view j = y at *
  cases h₁ with | boot hl =>
  have ht : x.task = none := (hfit.asleep (by simp [hl])).1
  cases h₂ with | markStuck now hl₂ =>
  cases h₃ with | handStuck hl₃ =>
  cases hl₃
  cases h₄ with | listRows hl₄ =>
  cases h₅ with | resumeRows hl₅ =>
  cases hl₅
  cases hst : row.status <;>
    simp [Job.status, hx, hst, ht, Job.createTask, PrintJobStatus.isResumable]

theorem row_recovered {s s' : Agent} (hs : s.Sound) {now : String}
    (hrun : agent.run s (Schedule.startup now) = some s') (j : String) :
    (s'.view j).row
      = (s.view j).row.map fun row => if row.status = .printing then row.markFailed now else row := by
  obtain ⟨x₁, x₂, x₃, x₄, h₁, h₂, h₃, h₄, h₅⟩ := view_startup hs hrun j
  generalize s.view j = x at *
  generalize s'.view j = y at *
  cases h₁ with | boot hl =>
  cases h₂ with | markStuck now hl₂ =>
  cases h₃ with | handStuck hl₃ =>
  cases h₄ with | listRows hl₄ =>
  cases h₅ with | resumeRows hl₅ =>
  rename_i resume
  cases resume <;> rfl

theorem not_printing_of_startup {s s' : Agent} (hs : s.Sound) {now : String}
    (hrun : agent.run s (Schedule.startup now) = some s') {j : String} {row : PrintJobRow}
    (hrow : s'.store.row j = some row) : row.status ≠ .printing := by
  have hv := row_recovered hs hrun j
  rw [show (s'.view j).row = some row from hrow] at hv
  obtain ⟨row', _, he⟩ := Option.map_eq_some_iff.mp hv.symm
  by_cases hst : row'.status = .printing
  · rw [if_pos hst] at he
    rw [← he]
    simp
  · rw [if_neg hst] at he
    exact he ▸ hst

theorem recovered_of_startup {s s' : Agent} (h : agent.Reach Machine.Any s) {now : String}
    (hrun : agent.run s (Schedule.startup now) = some s') {j : String} {row : PrintJobRow}
    (hrow : s.store.row j = some row) : Recovered now s s' j row := by
  have hs := sound_of_reach h
  obtain ⟨hy, ht, hh⟩ := view_recovered hs hrun hrow
  have htasks := (sound_of_reach (h.path (.of_run hrun))).tasks_eq j
  rw [ht] at htasks
  by_cases hp : row.status = .printing
  · rw [if_pos hp] at hy hh
    rw [hp] at htasks
    exact .failed hp hy htasks hh
  · rw [if_neg hp] at hy hh
    rw [List.append_nil] at hh
    cases hr : row.status.isResumable with
    | true =>
      rw [hr] at htasks
      exact .resumed ((PrintJobStatus.isResumable_iff _).mp hr) hy htasks hh
    | false =>
      rw [hr] at htasks
      refine .kept ?_ hy htasks hh
      have hq : row.status ≠ .queued := fun he =>
        (base_of_reach h).notQueued (Job.status_eq_some.mpr ⟨row, hrow, he⟩)
      cases hst : row.status <;> simp_all [PrintJobStatus.isResumable]

/-! ## a life starts with recovery -/

inductive Starting : Life → Act → Life → Prop
  | boot : Starting .down .boot (.marking none)
  | markStuck (now : String) (jobIds : List String) :
      Starting (.marking none) (.markStuck now) (.marking (some jobIds))
  | handStuck (jobIds : List String) : Starting (.marking (some jobIds)) .handStuck (.listing none)
  | listRows (records : List PrintJobRecord) :
      Starting (.listing none) .listRows (.listing (some records))
  | resumeRows (records : List PrintJobRecord) :
      Starting (.listing (some records)) .resumeRows .running

theorem starting_of_step {s s' : Agent} {a : Act} (hs : s.Sound) (hl : s.life ≠ .running)
    (h : s.step a = some s') (hc : a ≠ .crash) : Starting s.life a s'.life := by
  obtain ⟨hslots, hloop⟩ := hs.asleep hl
  have htask : ∀ {j i}, s.task j i = none := fun {j i} => by simp [task, hslots j, Slot.empty]
  have hhandler : s.ws.handler = none := by simp [WsClient.handler, hloop]
  cases a with
  | boot =>
    simp only [step] at h
    split at h <;> cases h
    rename_i hlife
    rw [hlife]
    exact .boot
  | markStuck now =>
    simp only [step] at h
    split at h <;> cases h
    rename_i hlife
    rw [hlife]
    exact .markStuck now _
  | handStuck =>
    simp only [step] at h
    split at h <;> cases h
    rename_i hlife
    rw [hlife]
    exact .handStuck _
  | listRows =>
    simp only [step] at h
    split at h <;> cases h
    rename_i hlife
    rw [hlife]
    exact .listRows _
  | resumeRows =>
    simp only [step] at h
    split at h <;> cases h
    rename_i hlife
    rw [hlife]
    exact .resumeRows _
  | connect =>
    simp only [step] at h
    split at h <;> cases h
    exact absurd (by assumption) hl
  | handlerCall | handlerSend | handlerResume => simp [step, hhandler] at h
  | taskCall | taskAnswer | taskSend | taskPrint | taskResume | taskThrow => simp [step, htask] at h
  | leftCall j n | leftPrint j n | leftDrop j n => simp [step, hslots j, Slot.empty] at h
  | crash => exact absurd rfl hc
  | _ => simp [step, hloop] at h

/-- a run without a crash that gets to the end of a start takes its next step first -/
theorem run_starting {s s' : Agent} (hs : s.Sound) (hl : s.life ≠ .running) {as : List Act}
    (hrun : agent.run s as = some s') (hc : .crash ∉ as) (hl' : s'.life = .running) :
    ∃ a rest s₁, as = a :: rest ∧ Starting s.life a s₁.life ∧ s₁.Sound ∧
      agent.run s₁ rest = some s' ∧ .crash ∉ rest := by
  cases as with
  | nil =>
    cases hrun
    exact absurd hl' hl
  | cons a rest =>
    obtain ⟨s₁, hstep, hrest⟩ := agent.run_cons_eq_some.mp hrun
    rw [List.mem_cons, not_or] at hc
    exact ⟨a, rest, s₁, rfl, starting_of_step hs hl hstep (Ne.symm hc.1), sound_step hs hstep,
      hrest, hc.2⟩

theorem startup_first {s s' : Agent} (hs : s.Sound) (hl : s.life = .down) {as : List Act}
    (hrun : agent.run s as = some s') (hc : .crash ∉ as) (hl' : s'.life = .running) :
    ∃ now rest, as = Schedule.startup now ++ rest := by
  obtain ⟨a₁, r₁, s₁, rfl, h₁, hs₁, hrun₁, hc₁⟩ := run_starting hs (by simp [hl]) hrun hc hl'
  rw [hl] at h₁
  generalize hl₁ : s₁.life = l₁ at h₁
  cases h₁
  obtain ⟨a₂, r₂, s₂, rfl, h₂, hs₂, hrun₂, hc₂⟩ := run_starting hs₁ (by simp [hl₁]) hrun₁ hc₁ hl'
  rw [hl₁] at h₂
  generalize hl₂ : s₂.life = l₂ at h₂
  cases h₂ with | markStuck now jobIds =>
  obtain ⟨a₃, r₃, s₃, rfl, h₃, hs₃, hrun₃, hc₃⟩ := run_starting hs₂ (by simp [hl₂]) hrun₂ hc₂ hl'
  rw [hl₂] at h₃
  generalize hl₃ : s₃.life = l₃ at h₃
  cases h₃
  obtain ⟨a₄, r₄, s₄, rfl, h₄, hs₄, hrun₄, hc₄⟩ := run_starting hs₃ (by simp [hl₃]) hrun₃ hc₃ hl'
  rw [hl₃] at h₄
  generalize hl₄ : s₄.life = l₄ at h₄
  cases h₄
  obtain ⟨a₅, r₅, s₅, rfl, h₅, _, _, _⟩ := run_starting hs₄ (by simp [hl₄]) hrun₄ hc₄ hl'
  rw [hl₄] at h₅
  generalize s₅.life = l₅ at h₅
  cases h₅
  exact ⟨now, r₅, rfl⟩

/-- **An acknowledged job is never lost.**  Its row stays for the rest of the run; and every life
starts with a recovery that makes of every row what `Recovered` says. -/
theorem acknowledged_never_lost {s : Agent} (h : agent.Reach Machine.Any s) :
    (∀ j as s', JobEvent.received j ∈ s.handed → agent.run s as = some s' →
      ∃ row, s'.store.row j = some row) ∧
    (s.life = .down → ∀ now, ∃ s', agent.run s (Schedule.startup now) = some s' ∧ s'.life = .running) ∧
    (s.life = .down → ∀ as s', agent.run s as = some s' → .crash ∉ as → s'.life = .running →
      ∃ now rest s₁, as = Schedule.startup now ++ rest ∧ agent.run s (Schedule.startup now) = some s₁ ∧
        (∀ j row, s₁.store.row j = some row → row.status ≠ .printing) ∧
        ∀ j row, s.store.row j = some row → Recovered now s s₁ j row) := by
  refine ⟨fun j as s' hj hrun => stored_of_acknowledged h hrun hj, run_startup, ?_⟩
  intro hl as s' hrun hc hl'
  have hs := sound_of_reach h
  obtain ⟨now, rest, rfl⟩ := startup_first hs hl hrun hc hl'
  rw [Machine.run_append] at hrun
  obtain ⟨s₁, hstart, _⟩ := Option.bind_eq_some_iff.mp hrun
  exact ⟨now, rest, s₁, rfl, hstart, fun j row => not_printing_of_startup hs hstart,
    fun j row => recovered_of_startup h hstart⟩

end Agent

/-- a crash between the `PRINTING` write and the print call -/
def Schedule.crashBeforePrint (message : PrintJobDispatch) : List Act :=
  startup "1" ++ connect ++ accept "2" message ++ download "3" "/tmp/a.pdf" message.jobId ++
    getStatus true message.jobId ++ start "4" message.jobId ++ [.crash]

theorem Agent.acknowledged_never_lost_printing :
    let s := agent.after (Schedule.crashBeforePrint Schedule.exampleJob) (by decide)
    (s.store.row "a").map (·.status) = some .printing ∧
    ∃ now rest s₁, Schedule.startup "5" = Schedule.startup now ++ rest ∧
      agent.run s (Schedule.startup now) = some s₁ ∧
      (∀ j row, s₁.store.row j = some row → row.status ≠ .printing) ∧
      ∀ j row, s.store.row j = some row → Recovered now s s₁ j row := by
  intro s
  have hl : s.life = .down := by decide
  obtain ⟨_, hstart, hrecover⟩ := acknowledged_never_lost (s := s) (.after _ (by decide))
  obtain ⟨s', hrun, hl'⟩ := hstart hl "5"
  exact ⟨by decide, hrecover hl (Schedule.startup "5") s' hrun (by decide) hl'⟩

end PrintAgent
