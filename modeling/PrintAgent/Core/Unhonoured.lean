import PrintAgent.Core.Timely

/-!
# A cancel that is not honoured

A cancel for a job that has no row, or whose row is `PRINTING` or terminal, against the run that drops
it.  All it leaves behind is the id in `_cancel_requested`, and only a task before its print call looks
at that.  So the two runs stay related:

* `Agent.Skips`    while the cancel is handled: the same agent, but for the flag and the running handler;
* `Agent.Alike`    afterwards: the same but for the flag, and no task is left that looks at it.

`unhonoured_cancel_changes_nothing`: where no task of the job is created under its flag, the two runs
come to the same rows, events and prints under every later schedule.  `unhonoured_cancel_stops_job` is
a cancel that arrives before the first dispatch of its job.
-/

namespace PrintAgent

/-- past its checks of the cancel flag `_process` does not look at it -/
theorem Await.resume_of_late {a : Await} (ha : a.isEarly = false) (c d e : Bool) (ans : Answer) :
    a.resume c e ans = a.resume d e ans := by
  cases a <;> first | cases ha; done | (cases ans <;> rfl)

theorem Flow.late {c : Bool} {a b : Await} (h : Flow c a b) (ha : a.isEarly = false) :
    b.isEarly = false := by
  cases h with
  | early ha' => rw [ha] at ha'; cases ha'
  | _ => rfl

/-! ## a cancel that is not honoured, and its job -/

namespace Job
variable {jobId : String} {x y : Job} {b : JobAct}

/-- the task is past its checks of the cancel flag -/
def PastChecks (x : Job) : Prop :=
  ∀ t, x.task = some t → t.isLive = true → t.await.isEarly = false

/-- `handle_cancel` reads a row that cannot be cancelled, or has read it -/
def Unhonoured (x : Job) : Prop :=
  ∃ h, x.handler = some h ∧ h.await = .getRecord ∧
    (h.fut = none → ∀ st, x.status = some st → st.isResumable = false) ∧
    ∀ record, h.fut = some (.record (some record)) → record.status.isResumable = false

/-- no task is created under a cancel flag; and no status that can be cancelled lands on a
`CANCELLED` row while `handle_cancel` waits for its read -/
def staysUnhonoured (x : Job) (b : JobAct) : Bool :=
  !x.createsFlagged b &&
    !((x.handler.any fun h => decide (h.await = .getRecord) && h.fut.isNone) &&
      x.landsOnCancelled PrintJobStatus.isResumable b)

theorem pastChecks_of_status (hf : x.Fit) (hb : x.Base)
    (hst : ∀ st, x.status = some st → st.isResumable = false) : x.PastChecks := by
  intro t ht hl
  obtain ⟨st, hst', hex⟩ := hb.status_of_live hf ht hl
  cases he : t.await.isEarly with
  | false => rfl
  | true =>
    have hres := hst st hst'
    rw [(Await.expects_of_isEarly he).mp hex] at hres
    cases hres

theorem pastChecks_step (hp : x.PastChecks) (hs : Step jobId x b y) : y.PastChecks ∨ Creates x b := by
  have htask := task_step hs
  generalize hy : y.task = o at htask
  have hnew : ∀ {t'}, y.task = some t' → (t'.isLive = true → t'.await.isEarly = false) →
      y.PastChecks := by
    intro t' ht' hlate t ht
    rw [ht'] at ht
    cases ht
    exact hlate
  cases htask with
  | same _ he => exact .inl fun t ht => hp t (he.symm.trans (hy.symm.trans ht))
  | created hcr => exact .inr hcr
  | cancelled => exact .inl (hnew hy fun hl => by simp at hl)
  | answered ans ht hl hfut =>
    rename_i t
    exact .inl (hnew hy fun hl => hp t ht hl)
  | went pathExists socket ht hl hfut hflow => exact .inl (hnew hy fun _ => hflow.late (hp _ ht hl))
  | ended => exact .inl (hnew hy fun hl => by cases hl)
  | thrown => exact .inl (hnew hy fun hl => by cases hl)
  | gone => exact .inl fun t ht => by rw [hy] at ht; cases ht

theorem cancelRequested_of_step (hs : Step jobId x b y) (hy : y.cancelRequested = true) :
    x.cancelRequested = true ∨ b = .cancel := by
  cases hs with
  | resumeRows hl => rename_i resume; cases resume <;> exact .inl hy
  | cancel => exact .inr rfl
  | handlerCancelTask => exact .inl ((x.cancelTask_cancelRequested jobId).symm.trans hy)
  | taskRet pathExists socket ht hn hf hr =>
    rename_i inTry
    cases inTry with
    | false => exact .inl hy
    | true => cases hy
  | taskThrow ht hc hd =>
    rename_i t
    have hy : (if t.await.inTry then false else x.cancelRequested) = true := hy
    cases hin : t.await.inTry with
    | false => rw [hin] at hy; exact .inl hy
    | true => rw [hin] at hy; cases hy
  | crash => cases hy
  | _ => exact .inl hy

theorem pastChecks_of_flag (hf : x.Fit) (hc : x.staysUnhonoured b = true) (hp : x.PastChecks)
    (hs : Step jobId x b y) (hy : y.cancelRequested = true) : y.PastChecks := by
  rcases pastChecks_step hp hs with hp' | hcr
  · exact hp'
  · exfalso
    cases hcr with
    | resumed hl =>
      rcases cancelRequested_of_step hs hy with hx | hno
      · rw [(hf.asleep (by simp [hl])).2.2.2.2] at hx
        cases hx
      · cases hno
    | dispatched hh ha =>
      rcases cancelRequested_of_step hs hy with hx | hno
      · simp [staysUnhonoured, createsFlagged, hx, hh, ha] at hc
      · cases hno

theorem unhonoured_step (hb : x.Base) (hf : x.Fit) (hu : x.Unhonoured)
    (hc : x.staysUnhonoured b = true) (hs : Step jobId x b y) :
    y.Unhonoured ∨ b = .handlerResume ∨ b = .crash := by
  obtain ⟨h, hh, ha, hrow, hrec⟩ := hu
  have hsame : ∀ {h'}, x.handler = some h' → h' = h := fun hh' => by
    rw [hh] at hh'
    exact (Option.some.inj hh').symm
  have hhand := handler_step hs
  generalize hy : y.handler = o at hhand
  cases hhand with
  | same hno he =>
    refine .inl ⟨h, hy.trans (he.trans hh), ha, fun hfut st hst => ?_, hrec⟩
    have hstat := status_step hs hb.leftCall
    rw [hst] at hstat
    cases hstat with
    | same he => exact hrow hfut st he.symm
    | inserted => cases hno
    | restarted now hl =>
      rw [hf.running hh] at hl
      cases hl
    | cancelled => cases hno
    | worked now ht hl hfut' hcall hw hst' =>
      have hex := hb.live _ ht hl _ hst'
      have hres := hrow hfut _ hst'
      rw [hfut'] at hex
      rcases Await.written_cases hcall hw with ⟨rfl, hea⟩ | ⟨rfl, _⟩ | ⟨rfl, _⟩ | ⟨rfl, _⟩
      · rw [(Await.expects_of_isEarly hea).mp hex] at hres
        cases hres
      all_goals rfl
    | left now hn hw hst' =>
      rcases hb.landing (List.ne_nil_of_mem (List.mem_of_getElem? hn)) with ⟨h', hh', ha', _⟩ | hcan
      · rw [hsame hh', ha] at ha'
        cases ha'
      · cases hres : st.isResumable with
        | false => rfl
        | true =>
          have hland : x.landsOnCancelled PrintJobStatus.isResumable (.leftCall _ now) = true :=
            landsOnCancelled_of hcan hn hw hres
          simp [staysUnhonoured, hland, hh, ha, hfut] at hc
  | dispatch _ hno => rw [hh] at hno; cases hno
  | cancel hno => rw [hh] at hno; cases hno
  | called now hh' hfut hcall =>
    cases hsame hh'
    rw [ha] at hcall
    cases hcall
    refine .inl ⟨_, hy, ha, nofun, fun record hfut' => ?_⟩
    have hrec : (rowCall now jobId x.row .get).1 = .record (some record) := Option.some.inj hfut'
    obtain ⟨row, hrow', rfl⟩ := Option.map_eq_some_iff.mp (Answer.record.inj hrec)
    exact hrow hfut _ (status_eq_some.mpr ⟨row, hrow', rfl⟩)
  | sent hh' _ he =>
    rw [hsame hh', ha] at he
    cases he
  | gone => exact .inr (.inr rfl)
  | _ => exact .inr (.inl rfl)

end Job

/-! ## the agent with another cancel flag -/

/-- what happens has nothing to do with the cancel flag of the job -/
def Act.ignoresFlag (jobId : String) : Act → Bool
  | .cancel message => decide (message.jobId ≠ jobId)
  | .taskResume k _ _ | .taskThrow k _ => decide (k ≠ jobId)
  | .crash => false
  | _ => true

namespace Agent

/-- the same for the tasks of a job -/
def PastChecks (s : Agent) (jobId : String) : Prop :=
  ∀ t ∈ (s.slots jobId).tasks, t.isLive = true → t.await.isEarly = false

theorem PastChecks.of_view {s : Agent} (hs : s.Sound) {j : String} (h : (s.view j).PastChecks) :
    s.PastChecks j := by
  intro t ht
  obtain ⟨i, hi⟩ := List.getElem?_of_mem ht
  exact h t (view_task hs hi).1

def withFlag (s : Agent) (jobId : String) (c : Bool) : Agent :=
  s.setSlot jobId { s.slots jobId with cancelRequested := c }

section WithFlag
variable (s : Agent) (j k : String) (c d : Bool)

@[simp] theorem withFlag_store : (s.withFlag j c).store = s.store := rfl
@[simp] theorem withFlag_life : (s.withFlag j c).life = s.life := rfl
@[simp] theorem withFlag_ws : (s.withFlag j c).ws = s.ws := rfl
@[simp] theorem withFlag_handed : (s.withFlag j c).handed = s.handed := rfl
@[simp] theorem withFlag_prints : (s.withFlag j c).prints = s.prints := rfl
@[simp] theorem withFlag_self : (s.withFlag j c).slots j = { s.slots j with cancelRequested := c } :=
  setSlot_self ..
@[simp] theorem withFlag_of_ne (h : k ≠ j) : (s.withFlag j c).slots k = s.slots k :=
  setSlot_of_ne _ _ _ _ h

@[simp] theorem withFlag_withFlag : (s.withFlag j c).withFlag j d = s.withFlag j d := by
  simp [withFlag, setSlot]

@[simp] theorem withFlag_flag : s.withFlag j (s.slots j).cancelRequested = s := by
  simp [withFlag, setSlot, Function.update_eq_self]

@[simp] theorem withFlag_tasks : ((s.withFlag j c).slots k).tasks = (s.slots k).tasks := by
  by_cases h : k = j
  · subst h; simp
  · simp [h]

@[simp] theorem withFlag_leftBehind :
    ((s.withFlag j c).slots k).leftBehind = (s.slots k).leftBehind := by
  by_cases h : k = j
  · subst h; simp
  · simp [h]

@[simp] theorem withFlag_task (i : Nat) : (s.withFlag j c).task k i = s.task k i := by
  simp [task]

theorem setSlot_withFlag_of_ne (h : k ≠ j) (slot : Slot) :
    (s.withFlag j c).setSlot k slot = (s.setSlot k slot).withFlag j c := by
  simp only [withFlag, setSlot_of_ne s k j slot fun he => h he.symm]
  simp only [setSlot]
  rw [Function.update_comm fun he => h he.symm]

theorem setSlot_withFlag (f : Slot → Slot)
    (hf : ∀ slot, f { slot with cancelRequested := c } = { f slot with cancelRequested := c }) :
    (s.withFlag j c).setSlot k (f ((s.withFlag j c).slots k))
      = (s.setSlot k (f (s.slots k))).withFlag j c := by
  by_cases h : k = j
  · subst h
    simp [withFlag, setSlot, hf]
  · rw [setSlot_withFlag_of_ne s j k c h, withFlag_of_ne s j k c h]

end WithFlag

section Step
variable {s s' : Agent} {j : String} {c : Bool} {a : Act}

theorem resumeJobs_withFlag (jobIds : List String) :
    (s.withFlag j c).resumeJobs jobIds = (s.resumeJobs jobIds).withFlag j c := by
  unfold resumeJobs
  induction jobIds generalizing s with
  | nil => rfl
  | cons k jobIds ih =>
    rw [List.foldl_cons, List.foldl_cons, setSlot_withFlag s j k c Slot.createTask fun _ => rfl]
    exact ih

theorem setTask_withFlag (k : String) (i : Nat) (t : Task) :
    (s.withFlag j c).setTask k i t = (s.setTask k i t).withFlag j c :=
  setSlot_withFlag s j k c (·.setTask i t) fun _ => rfl

theorem takeLeft_withFlag (k : String) (n : Nat) :
    (s.withFlag j c).takeLeft k n = (s.takeLeft k n).withFlag j c :=
  setSlot_withFlag s j k c (fun slot => { slot with leftBehind := slot.leftBehind.eraseIdx n })
    fun _ => rfl

theorem hand_withFlag (o : Option JobEvent) :
    (s.withFlag j c).hand o = (s.hand o).withFlag j c := by
  cases o with
  | none => rfl
  | some e => rfl

theorem resumeHandler_withFlag (hd : Handler) (n : HandlerNext) :
    (s.withFlag j c).resumeHandler hd n = (s.resumeHandler hd n).withFlag j c := by
  cases n with
  | await a => simp only [resumeHandler, hand_withFlag]; rfl
  | cancelTask =>
    have hf : ∀ slot : Slot, Slot.cancelTask hd.jobId { slot with cancelRequested := c }
        = { slot.cancelTask hd.jobId with cancelRequested := c } := by
      intro slot
      simp only [Slot.cancelTask]
      cases slot.entry.bind fun i => slot.tasks[i]?.map fun t => (i, t) with
      | none => rfl
      | some p => rfl
    simp only [resumeHandler, setSlot_withFlag s j hd.jobId c _ hf]
    rfl
  | createTask =>
    simp only [resumeHandler, setSlot_withFlag s j hd.jobId c Slot.createTask fun _ => rfl]
    rfl
  | ret => rfl

theorem resumeTask_withFlag_of_ne {k : String} (hne : k ≠ j) (i : Nat) (n : Next) :
    (s.withFlag j c).resumeTask k i n = (s.resumeTask k i n).withFlag j c := by
  cases n with
  | await a =>
    simp only [resumeTask, setTask_withFlag, withFlag_ws]
    exact hand_withFlag _
  | ret inTry =>
    simp only [resumeTask, withFlag_of_ne s j k c hne, setSlot_withFlag_of_ne s j k c hne]

theorem step_withFlag_of_ignoresFlag (ha : a.ignoresFlag j = true) (h : s.step a = some s') :
    (s.withFlag j c).step a = some (s'.withFlag j c) := by
  cases a with
  | boot | markStuck | handStuck | listRows | connect | authenticated | flushSend | flushEnd |
    synced | disconnect | dispatch =>
    simp only [step, withFlag_life, withFlag_ws] at h ⊢
    split at h <;> cases h <;> simp_all <;> rfl
  | resumeRows =>
    simp only [step, withFlag_life] at h ⊢
    split at h <;> cases h
    simp_all only [resumeJobs_withFlag]
    rfl
  | cancel message =>
    have hne : message.jobId ≠ j := by simpa [Act.ignoresFlag] using ha
    simp only [step, withFlag_ws] at h ⊢
    split at h <;> cases h
    simp only [withFlag_of_ne s j _ c hne, setSlot_withFlag_of_ne s j _ c hne]
    rfl
  | handlerCall now =>
    obtain ⟨hd, call, hw, hc, rfl⟩ := of_step_handlerCall h
    simp [step, handler_eq_some.mpr hw, hc]
    rfl
  | handlerSend w =>
    obtain ⟨hd, e, hw, he, rfl⟩ := of_step_handlerSend h
    simp [step, handler_eq_some.mpr hw, he]
    rfl
  | handlerResume =>
    obtain ⟨hd, ans, n, hw, hf, hn, rfl⟩ := of_step_handlerResume h
    simp [step, handler_eq_some.mpr hw, hf, hn, resumeHandler_withFlag]
  | taskCall k i now =>
    obtain ⟨t, call, ht, hc, rfl⟩ := of_step_taskCall h
    simp [step, ht, hc, setTask_withFlag, -setTask_eq]
    rfl
  | taskAnswer k i ans =>
    obtain ⟨t, ht, hw, hacc, rfl⟩ := of_step_taskAnswer h
    simp [step, ht, hw, hacc, setTask_withFlag, -setTask_eq]
  | taskSend k i w =>
    obtain ⟨t, e, ht, he, rfl⟩ := of_step_taskSend h
    simp only [step, withFlag_task, ht, he, Option.bind_eq_bind, Option.bind_some]
    exact congrArg some (setTask_withFlag (s := s.sendEnds e w) k i _)
  | taskPrint k i raises =>
    obtain ⟨t, p, ht, hp, rfl⟩ := of_step_taskPrint h
    simp [step, ht, hp, setTask_withFlag, -setTask_eq]
    rfl
  | taskResume k i e =>
    have hne : k ≠ j := by simpa [Act.ignoresFlag] using ha
    obtain ⟨t, ans, n, ht, hc, hf, hn, rfl⟩ := of_step_taskResume h
    simp only [step, withFlag_task, ht, hc, hf, withFlag_of_ne s j _ c hne, hn, Option.bind_eq_bind,
      Option.bind_some, Bool.false_eq_true, if_false, resumeTask_withFlag_of_ne hne]
  | taskThrow k i =>
    have hne : k ≠ j := by simpa [Act.ignoresFlag] using ha
    obtain ⟨t, ht, hc, hd, rfl⟩ := of_step_taskThrow h
    simp [step, ht, hc, hd, withFlag_of_ne s j _ c hne, setSlot_withFlag_of_ne s j _ c hne]
  | leftCall k n now =>
    obtain ⟨call, hn, rfl⟩ := of_step_leftCall h
    simp only [step, withFlag_leftBehind, hn]
    have htake := takeLeft_withFlag (s := s) (j := j) (c := c) k n
    unfold takeLeft at htake ⊢
    simp only [withFlag_leftBehind] at htake
    simp only [htake]
    rfl
  | leftPrint k n =>
    obtain ⟨p, hn, rfl⟩ := of_step_leftPrint h
    simp only [step, withFlag_leftBehind, hn]
    have htake := takeLeft_withFlag (s := s) (j := j) (c := c) k n
    unfold takeLeft at htake ⊢
    simp only [withFlag_leftBehind] at htake
    simp only [htake]
    rfl
  | leftDrop k n =>
    obtain ⟨hn, rfl⟩ := of_step_leftDrop h
    have hn : n < ((s.withFlag j c).slots k).leftBehind.length := by simpa using hn
    exact (if_pos hn).trans (congrArg some (takeLeft_withFlag k n))
  | crash => cases ha

theorem step_withFlag_cancel (h : s.step (.cancel ⟨j⟩) = some s') :
    (s.withFlag j c).step (.cancel ⟨j⟩) = some s' ∧ (s'.slots j).cancelRequested = true := by
  simp only [step, withFlag_ws] at h ⊢
  split at h <;> cases h
  refine ⟨congrArg some (congrArg (setLoop · _) ?_), by simp⟩
  simp [withFlag, setSlot]

theorem endTask_withFlag (i : Nat) (inTry : Bool) :
    ∃ d, (s.withFlag j c).setSlot j (((s.withFlag j c).slots j).endTask i inTry)
        = (s.setSlot j ((s.slots j).endTask i inTry)).withFlag j d ∧
      (d = c ∨ d = ((s.slots j).endTask i inTry).cancelRequested) := by
  cases inTry with
  | false => exact ⟨c, setSlot_withFlag s j j c (·.endTask i false) fun _ => rfl, .inl rfl⟩
  | true => exact ⟨false, by simp [withFlag, setSlot, Slot.endTask, Slot.setTask], .inr rfl⟩

theorem step_withFlag_taskResume (hp : s.PastChecks j) {i : Nat} {e : Bool}
    (h : s.step (.taskResume j i e) = some s') :
    ∃ d, (s.withFlag j c).step (.taskResume j i e) = some (s'.withFlag j d) ∧
      (d = c ∨ d = (s'.slots j).cancelRequested) := by
  obtain ⟨t, ans, n, ht, hc, hf, hn, rfl⟩ := of_step_taskResume h
  have hlate := hp t (List.mem_of_getElem? ht) (Job.isLive_of_resume hc hn)
  rw [Await.resume_of_late hlate _ c] at hn
  have hstep : (s.withFlag j c).step (.taskResume j i e) = some ((s.withFlag j c).resumeTask j i n) := by
    simp [step, ht, hc, hf, hn]
  rw [hstep]
  cases n with
  | await a =>
    refine ⟨c, congrArg some ?_, .inl rfl⟩
    simp only [resumeTask, setTask_withFlag, withFlag_ws]
    exact hand_withFlag _
  | ret inTry =>
    obtain ⟨d, he, hd⟩ := endTask_withFlag (s := s) (j := j) (c := c) i inTry
    refine ⟨d, congrArg some he, ?_⟩
    simpa [resumeTask] using hd

theorem step_withFlag_taskThrow {i : Nat} (h : s.step (.taskThrow j i) = some s') :
    ∃ d, (s.withFlag j c).step (.taskThrow j i) = some (s'.withFlag j d) ∧
      (d = c ∨ d = (s'.slots j).cancelRequested) := by
  obtain ⟨t, ht, hc, hd, rfl⟩ := of_step_taskThrow h
  obtain ⟨d, he, hd'⟩ := endTask_withFlag (s := s) (j := j) (c := c) i t.await.inTry
  refine ⟨d, ?_, by simpa using hd'⟩
  rw [← he]
  simp [step, ht, hc, hd]

/-- where the task is past its checks, a step does not depend on the flag -/
theorem step_withFlag (hp : s.PastChecks j) (h : s.step a = some s') :
    ∃ d, (s.withFlag j c).step a = some (s'.withFlag j d) ∧
      (d = c ∨ d = (s'.slots j).cancelRequested) := by
  by_cases ha : a.ignoresFlag j = true
  · exact ⟨c, step_withFlag_of_ignoresFlag ha h, .inl rfl⟩
  cases a with
  | cancel message =>
    have hj : message.jobId = j := by simpa [Act.ignoresFlag] using ha
    subst hj
    obtain ⟨hstep, hflag⟩ := step_withFlag_cancel (c := c) h
    refine ⟨true, ?_, .inr hflag.symm⟩
    rw [← hflag, withFlag_flag]
    exact hstep
  | taskResume k i e =>
    have hj : k = j := by simpa [Act.ignoresFlag] using ha
    subst hj
    exact step_withFlag_taskResume hp h
  | taskThrow k i =>
    have hj : k = j := by simpa [Act.ignoresFlag] using ha
    subst hj
    exact step_withFlag_taskThrow h
  | crash =>
    cases h
    refine ⟨false, congrArg some ?_, .inr rfl⟩
    simp [crash, withFlag, setSlot, Slot.empty]
  | _ => exact absurd rfl ha

theorem step_withFlag_none (hp : s.PastChecks j) (h : s.step a = none) :
    (s.withFlag j c).step a = none := by
  cases ht : (s.withFlag j c).step a with
  | none => rfl
  | some t =>
    have hp : (s.withFlag j c).PastChecks j := by simpa [PastChecks] using hp
    obtain ⟨d, hd, _⟩ := step_withFlag (c := (s.slots j).cancelRequested) hp ht
    rw [withFlag_withFlag, withFlag_flag, h] at hd
    cases hd

end Step

/-! ## the run that drops the cancel -/

/-- the two agents differ in the cancel flag of the job at most, and then nothing looks at it -/
def Alike (jobId : String) (s t : Agent) : Prop :=
  ∃ c, t = s.withFlag jobId c ∧
    (c = (s.slots jobId).cancelRequested ∨ (c = false ∧ (s.view jobId).PastChecks))

/-- no task of the job is created under a cancel flag, and nothing that can be cancelled lands on its
`CANCELLED` row while a `handle_cancel` waits for its read -/
def staysUnhonoured (jobId : String) : Agent → Act → Bool :=
  Machine.seenAs (view jobId) (seen jobId) Job.staysUnhonoured

section Alike
variable {s t s' : Agent} {j : String} {a : Act}

theorem Alike.none (hr : agent.Reach Machine.Any s) (h : s.Alike j t) (ha : agent.step s a = none) :
    agent.step t a = none := by
  obtain ⟨c, rfl, rfl | ⟨rfl, hp⟩⟩ := h
  · rw [withFlag_flag]
    exact ha
  · exact step_withFlag_none (.of_view (sound_of_reach hr) hp) ha

theorem Alike.step (hr : agent.Reach Machine.Any s) (h : s.Alike j t)
    (hc : s.staysUnhonoured j a = true) (ha : agent.step s a = some s') :
    ∃ t', agent.step t a = some t' ∧ s'.Alike j t' := by
  obtain ⟨c, rfl, rfl | ⟨rfl, hp⟩⟩ := h
  · rw [withFlag_flag]
    exact ⟨s', ha, _, (withFlag_flag ..).symm, .inl rfl⟩
  · obtain ⟨d, hstep, hd⟩ := step_withFlag (c := false) (.of_view (sound_of_reach hr) hp) ha
    refine ⟨_, hstep, d, rfl, ?_⟩
    rcases hd with rfl | hd
    · cases hflag : (s'.slots j).cancelRequested with
      | false => exact .inl rfl
      | true =>
        refine .inr ⟨rfl, ?_⟩
        rcases seen_step (j := j) hr ha with ⟨he, _⟩ | ⟨b, hseen, hf, _, hs⟩
        · rw [he]
          exact hp
        · exact Job.pastChecks_of_flag hf (Machine.SeenAs.of_seenAs hc b hseen) hp hs hflag
    · exact .inl hd

/-! ### while the cancel is being handled -/

theorem hand_setLoop {u : Agent} (hsock : u.ws.socket = true) (o : Option JobEvent) :
    (u.setLoop .receiving).hand o = (u.hand o).setLoop .receiving := by
  cases o with
  | none => rfl
  | some e =>
    have hsock' : (u.setLoop .receiving).ws.socket = true := rfl
    simp only [hand, WsClient.send, hsock, hsock', if_true]
    rfl

theorem resumeTask_setLoop {u : Agent} (hsock : u.ws.socket = true) (i : Nat) (n : Next) :
    (u.setLoop .receiving).resumeTask j i n = (u.resumeTask j i n).setLoop .receiving := by
  cases n with
  | await a =>
    have hsock' : (u.setLoop .receiving).ws.socket = true := rfl
    have hset : ((u.setLoop .receiving).setTask j i (.goTo j true a))
        = (u.setTask j i (.goTo j true a)).setLoop .receiving := rfl
    simp only [resumeTask, hsock, hsock', hset]
    exact hand_setLoop (by exact hsock) _
  | ret inTry => rfl

theorem step_setLoop {u u' : Agent} {h : Handler} (hl : u.ws.loop = .handling h)
    (hrun : u.life = .running) (ha : a.isHandler = false) (hcrash : a ≠ .crash)
    (hstep : u.step a = some u') :
    (u.setLoop .receiving).step a = some (u'.setLoop .receiving) := by
  have hsock : u.ws.socket = true := by simp [WsClient.socket, hl]
  cases a with
  | boot | markStuck | handStuck | listRows | resumeRows => simp [step, hrun] at hstep
  | connect | authenticated | flushSend | flushEnd | synced | disconnect | dispatch | cancel =>
    simp [step, hl] at hstep
  | handlerCall | handlerSend | handlerResume => cases ha
  | taskCall k i now =>
    obtain ⟨t, call, ht, hc, rfl⟩ := of_step_taskCall hstep
    have ht : (u.setLoop .receiving).task k i = some t := ht
    simp only [step, ht, hc, Option.bind_eq_bind, Option.bind_some]
    rfl
  | taskAnswer k i ans =>
    obtain ⟨t, ht, hw, hacc, rfl⟩ := of_step_taskAnswer hstep
    have ht : (u.setLoop .receiving).task k i = some t := ht
    simp only [step, ht, hw, hacc, Option.bind_eq_bind, Option.bind_some, Bool.and_self, if_true]
    rfl
  | taskSend k i w =>
    obtain ⟨t, e, ht, he, rfl⟩ := of_step_taskSend hstep
    have ht : (u.setLoop .receiving).task k i = some t := ht
    simp only [step, ht, he, Option.bind_eq_bind, Option.bind_some]
    cases w <;> rfl
  | taskPrint k i raises =>
    obtain ⟨t, p, ht, hp, rfl⟩ := of_step_taskPrint hstep
    have ht : (u.setLoop .receiving).task k i = some t := ht
    simp only [step, ht, hp, Option.bind_eq_bind, Option.bind_some]
    rfl
  | taskResume k i e =>
    obtain ⟨t, ans, n, ht, hc, hf, hn, rfl⟩ := of_step_taskResume hstep
    have ht : (u.setLoop .receiving).task k i = some t := ht
    simp only [step, ht, hc, hf, setLoop_slots, hn, Option.bind_eq_bind, Option.bind_some,
      Bool.false_eq_true, if_false, resumeTask_setLoop hsock]
  | taskThrow k i =>
    obtain ⟨t, ht, hc, hd, rfl⟩ := of_step_taskThrow hstep
    have ht : (u.setLoop .receiving).task k i = some t := ht
    simp only [step, ht, hc, hd, Option.bind_eq_bind, Option.bind_some, Bool.not_false,
      Bool.and_self, if_true]
    rfl
  | leftCall k n now =>
    obtain ⟨call, hn, rfl⟩ := of_step_leftCall hstep
    simp only [step, setLoop_slots, hn]
    rfl
  | leftPrint k n =>
    obtain ⟨p, hn, rfl⟩ := of_step_leftPrint hstep
    simp only [step, setLoop_slots, hn]
    rfl
  | leftDrop k n =>
    obtain ⟨hn, rfl⟩ := of_step_leftDrop hstep
    simp only [step, setLoop_slots, hn, if_true]
    rfl
  | crash => exact absurd rfl hcrash

/-- one agent handles the cancel; the other has dropped it, and reads on -/
def Skips (jobId : String) (s t : Agent) : Prop :=
  (s.view jobId).Unhonoured ∧ ∃ u, s.Alike jobId u ∧ t = u.setLoop .receiving

def SkipsOrAlike (jobId : String) (s t : Agent) : Prop :=
  s.Skips jobId t ∨ (s.handlerOf jobId = none ∧ s.Alike jobId t)

theorem unhonoured_of_step (hr : agent.Reach Machine.Any s) (hu : (s.view j).Unhonoured)
    (hc : s.staysUnhonoured j a = true) (ha : agent.step s a = some s') :
    (s'.view j).Unhonoured ∨ a = .handlerResume ∨ a = .crash := by
  rcases seen_step (j := j) hr ha with ⟨he, _⟩ | ⟨b, hseen, hf, hb, hs⟩
  · rw [he]
    exact .inl hu
  · rcases Job.unhonoured_step hb hf hu (Machine.SeenAs.of_seenAs hc b hseen) hs with hu' | rfl | rfl
    · exact .inl hu'
    · exact .inr (.inl (handlerResume_of_seen hseen))
    · exact .inr (.inr (crash_of_seen hseen))

theorem Skips.handler_step (hr : agent.Reach Machine.Any s) (h : s.Skips j t)
    (hc : s.staysUnhonoured j a = true) (ha : agent.step s a = some s') (hh : a.isHandler = true) :
    s'.SkipsOrAlike j t := by
  obtain ⟨hu, u, ⟨c, rfl, halike⟩, rfl⟩ := h
  have hu' := unhonoured_of_step hr hu hc ha
  obtain ⟨hd, hhd, hawait, _, hrec⟩ := hu
  obtain ⟨hws, _⟩ := Option.filter_eq_some_iff.mp hhd
  have hloop := handler_eq_some.mp hws
  have hsame : ∀ {hd'}, s.ws.loop = .handling hd' → hd' = hd := fun hl => by
    rw [hloop] at hl
    exact (Loop.handling.inj hl).symm
  cases a with
  | handlerCall now =>
    obtain ⟨hd', call, hl, hcall, rfl⟩ := of_step_handlerCall ha
    cases hsame hl
    have hcall := (Handler.of_pendingStoreCall hcall).2
    rw [hawait] at hcall
    cases hcall
    rcases hu' with hu' | hno | hno
    · exact .inl ⟨hu', _, ⟨c, rfl, halike⟩, rfl⟩
    · cases hno
    · cases hno
  | handlerSend w =>
    obtain ⟨hd', e, hl, he, rfl⟩ := of_step_handlerSend ha
    cases hsame hl
    have he := (Handler.of_pendingEvent he).2
    rw [hawait] at he
    cases he
  | handlerResume =>
    obtain ⟨hd', ans, n, hl, hfut, hn, rfl⟩ := of_step_handlerResume ha
    cases hsame hl
    have hret : n = .ret := by
      rw [hawait] at hn
      cases HandlerAwait.flow_of_resume hn with
      | known hor | resend hor => rcases hor with hor | ⟨_, hor⟩ <;> cases hor
      | unknown => rfl
      | late => rfl
      | cancelTask hres =>
        rw [hrec _ hfut] at hres
        cases hres
    subst hret
    exact .inr ⟨rfl, c, rfl, halike⟩
  | _ => cases hh

theorem Skips.other_step (hr : agent.Reach Machine.Any s) (h : s.Skips j t)
    (hc : s.staysUnhonoured j a = true) (ha : agent.step s a = some s') (hh : a.isHandler = false) :
    ∃ t', agent.step t a = some t' ∧ s'.SkipsOrAlike j t' := by
  obtain ⟨hu, u, halike, rfl⟩ := h
  by_cases hcrash : a = .crash
  · subst hcrash
    cases ha
    obtain ⟨c, rfl, _⟩ := halike
    exact ⟨_, rfl, .inr ⟨rfl, false, (withFlag_flag s.crash j).symm, .inl rfl⟩⟩
  · rcases unhonoured_of_step hr hu hc ha with hu' | rfl | hno
    · obtain ⟨hd, hhd, _⟩ := hu
      obtain ⟨hws, _⟩ := Option.filter_eq_some_iff.mp hhd
      have hloop := handler_eq_some.mp hws
      have hrun := (sound_of_reach hr).running_of_loop (by simp [hloop])
      obtain ⟨u', hstep, halike'⟩ := halike.step hr hc ha
      obtain ⟨c, rfl, _⟩ := halike
      exact ⟨_, step_setLoop hloop hrun hh hcrash hstep, .inl ⟨hu', u', halike', rfl⟩⟩
    · cases hh
    · exact absurd hno hcrash

end Alike

theorem skips_begin {jobId : String} {s s' : Agent} (h : agent.Reach Machine.Any s)
    (hrow : ∀ row, s.store.row jobId = some row → row.status.isResumable = false)
    (hbegin : agent.step s (.cancel ⟨jobId⟩) = some s') : s'.Skips jobId s := by
  have hst : ∀ st, (s.view jobId).status = some st → st.isResumable = false := by
    intro st hst
    obtain ⟨row, hr, rfl⟩ := Job.status_eq_some.mp hst
    exact hrow row hr
  have hpast := Job.pastChecks_of_status ((sound_of_reach h).fit jobId) (base_of_reach h) hst
  have hbegin : s.step (.cancel ⟨jobId⟩) = some s' := hbegin
  simp only [step] at hbegin
  split at hbegin <;> cases hbegin
  rename_i hloop
  constructor
  · exact ⟨⟨jobId, .getRecord, none⟩, by simp [view, handlerOf, setLoop, WsClient.setLoop,
      WsClient.handler], rfl, fun _ => hst, fun _ hno => by cases hno⟩
  · refine ⟨_, ⟨(s.slots jobId).cancelRequested, rfl, ?_⟩, ?_⟩
    · cases (s.slots jobId).cancelRequested with
      | true => exact .inl (by simp)
      | false => exact .inr ⟨rfl, fun t ht => hpast t (by simpa [view] using ht)⟩
    · obtain ⟨store, life, ⟨loop, queue⟩, slots, handed, prints, written⟩ := s
      cases hloop
      simp [withFlag, setSlot, setLoop, WsClient.setLoop, Function.update_eq_self]

/-- what the outside sees of a run, and what is stored -/
def outcome (s : Agent) : QueueStore × List JobEvent × List PrintCall :=
  (s.store, s.handed, s.prints)

theorem Alike.outcome {s t : Agent} {j : String} (h : s.Alike j t) : t.outcome = s.outcome := by
  obtain ⟨c, rfl, _⟩ := h
  rfl

theorem SkipsOrAlike.outcome {s t : Agent} {j : String} (h : s.SkipsOrAlike j t) :
    t.outcome = s.outcome := by
  rcases h with ⟨_, u, halike, rfl⟩ | ⟨_, halike⟩
  · exact halike.outcome
  · exact halike.outcome

/-- the same condition, while a handler of the job is running -/
def staysUnhonouredWithin (jobId : String) (s : Agent) (a : Act) : Bool :=
  (s.handlerOf jobId).isSome && s.staysUnhonoured jobId a

theorem skipsOrAlike_step {s t s' : Agent} {a : Act} {jobId : String} (hr : agent.Reach Machine.Any s)
    (hrel : s.SkipsOrAlike jobId t) (hc : s.staysUnhonouredWithin jobId a = true)
    (ha : agent.step s a = some s') :
    if !a.isHandler then ∃ t', agent.step t a = some t' ∧ s'.SkipsOrAlike jobId t'
    else s'.SkipsOrAlike jobId t := by
  rw [staysUnhonouredWithin, Bool.and_eq_true] at hc
  rcases hrel with hskips | ⟨hnone, _⟩
  · cases hh : a.isHandler with
    | true => exact hskips.handler_step hr hc.2 ha hh
    | false => exact hskips.other_step hr hc.2 ha hh
  · rw [hnone] at hc
    cases hc.1

/-- **A cancel that is not honoured changes nothing**, where no task of the job is created under its
flag, and no status that can be cancelled lands on the row while it reads: the run that drops the
cancel comes to the same outcome while the cancel is handled, and then under every later schedule. -/
theorem unhonoured_cancel_changes_nothing {jobId : String} {s s₁ s₂ : Agent}
    (h : agent.Reach Machine.Any s)
    (hrow : ∀ row, s.store.row jobId = some row → row.status.isResumable = false)
    (hbegin : agent.step s (.cancel ⟨jobId⟩) = some s₁) {as : List Act}
    (hreads : agent.Path (fun s a => s.staysUnhonouredWithin jobId a = true) s₁ as s₂) :
    ∃ t, agent.run s (as.filter fun a => !a.isHandler) = some t ∧ t.outcome = s₂.outcome ∧
      (s₂.handlerOf jobId = none → ∀ bs, agent.heeds (staysUnhonoured jobId) s₂ bs = true →
        (agent.play t bs).outcome = (agent.play s₂ bs).outcome) := by
  have hr₁ : agent.Reach Machine.Any s₁ := h.step trivial hbegin
  have hrel : s₁.SkipsOrAlike jobId s := .inl (skips_begin h hrow hbegin)
  obtain ⟨t, ht, hrel₂⟩ := hreads.related
    (fun _ _ _ _ hr hrel hc ha => skipsOrAlike_step hr hrel hc ha) hr₁ hrel
  refine ⟨t, ht, hrel₂.outcome, fun hended bs hbs => ?_⟩
  have halike : s₂.Alike jobId t := by
    rcases hrel₂ with ⟨⟨hd, hhd, _⟩, _⟩ | ⟨_, halike⟩
    · rw [show s₂.handlerOf jobId = some hd from hhd] at hended
      cases hended
    · exact halike
  have hr₂ := hr₁.path (hreads.mono fun _ _ _ => trivial)
  have hplay : Alike jobId (agent.play s₂ bs) (agent.play t bs) :=
    Machine.play_related (fun _ _ _ _ hr hrel hc ha => hrel.step hr hc ha)
      (fun _ _ _ hr hrel ha => hrel.none hr ha) hr₂ halike hbs
  exact hplay.outcome

end Agent

/-- a job up to the point where its print call is submitted -/
def Schedule.printing (message : PrintJobDispatch) : List Act :=
  startup "1" ++ connect ++ accept "2" message ++ download "3" "/tmp/a.pdf" message.jobId ++
    getStatus true message.jobId ++ start "4" message.jobId

def Schedule.whole (message : PrintJobDispatch) : List Act :=
  accept "3" message ++ download "4" "/tmp/a.pdf" message.jobId ++ getStatus true message.jobId ++
    start "5" message.jobId ++ print "6" message.jobId

namespace Agent

/-- a job that is printing is cancelled, and goes on -/
theorem unhonoured_cancel_of_printing :
    ∃ s₁ s₂ t, agent.run s₁ [.handlerCall "6", .handlerResume] = some s₂ ∧
      (agent.play s₂ (Schedule.print "7" "a")).handed
        = [.received "a", .started "a", .completed "a"] ∧
      t.outcome = s₂.outcome ∧
      (agent.play t (Schedule.print "7" "a")).outcome
        = (agent.play s₂ (Schedule.print "7" "a")).outcome := by
  have hrun : (agent.run agent.init (Schedule.printing Schedule.exampleJob)).isSome = true := by decide
  have hrun₁ : (agent.run agent.init
    (Schedule.printing Schedule.exampleJob ++ [.cancel ⟨"a"⟩])).isSome = true := by decide
  have hrun₂ : (agent.run agent.init (Schedule.printing Schedule.exampleJob ++ [.cancel ⟨"a"⟩] ++
    [.handlerCall "6", .handlerResume])).isSome = true := by decide
  have hsome := Machine.run_after_append _ _ hrun₁ hrun₂
  have hno : ∀ row, (agent.after _ hrun).store.row "a" = some row → row.status.isResumable = false := by
    have hall := Machine.any_after (p := fun s => (s.store.row "a").all (!·.status.isResumable)) hrun
      (by decide)
    intro row hrow
    simpa [hrow] using hall
  obtain ⟨t, _, houtcome, hlater⟩ := unhonoured_cancel_changes_nothing (.after _ hrun) hno
    (Machine.step_after _ _ hrun hrun₁)
    (.of_obeys (Machine.any_after (p := fun s => agent.obeys (staysUnhonouredWithin "a") s _) hrun₁
      (by decide)) hsome)
  refine ⟨_, _, t, hsome, ?_, houtcome, hlater ?_ _ ?_⟩
  · exact of_decide_eq_true (Machine.any_after (p := fun s => decide
      ((agent.play s (Schedule.print "7" "a")).handed = [.received "a", .started "a", .completed "a"]))
      hrun₂ (by decide +kernel))
  · exact Option.isNone_iff_eq_none.mp
      (Machine.any_after (p := fun s => (s.handlerOf "a").isNone) hrun₂ (by decide))
  · exact Machine.any_after (p := fun s => agent.heeds (staysUnhonoured "a") s _) hrun₂
      (by decide +kernel)

/-- a cancel for a job that is not known yet; when the job is dispatched its task finds the cancel flag
set and returns, where it prints without the cancel -/
theorem unhonoured_cancel_stops_job :
    ¬ ∀ (s s₁ s₂ : Agent) (jobId : String) (as bs : List Act), agent.Reach Machine.Any s →
      (∀ row, s.store.row jobId = some row → row.status.isResumable = false) →
      agent.step s (.cancel ⟨jobId⟩) = some s₁ →
      agent.Path (fun s _ => (s.handlerOf jobId).isSome = true) s₁ as s₂ →
      s₂.handlerOf jobId = none →
      ∃ t, agent.run s (as.filter fun a => !a.isHandler) = some t ∧
        (agent.play t bs).outcome = (agent.play s₂ bs).outcome := by
  intro h
  have hrun : (agent.run agent.init (Schedule.startup "1" ++ Schedule.connect)).isSome = true := by
    decide
  have hrun₁ : (agent.run agent.init
    (Schedule.startup "1" ++ Schedule.connect ++ [.cancel ⟨"a"⟩])).isSome = true := by decide
  have hrun₂ : (agent.run agent.init (Schedule.startup "1" ++ Schedule.connect ++ [.cancel ⟨"a"⟩] ++
    [.handlerCall "2", .handlerResume])).isSome = true := by decide
  obtain ⟨t, ht, houtcome⟩ := h _ _ _ "a" [.handlerCall "2", .handlerResume]
    (Schedule.whole Schedule.exampleJob) (.after _ hrun) (fun row hrow => by cases hrow)
    (Machine.step_after _ _ hrun hrun₁)
    (.of_obeys (by rfl) (Machine.run_after_append _ _ hrun₁ hrun₂)) (by rfl)
  cases ht
  -- in the one run nothing is printed, in the other the job is
  have hprints : (agent.play _ _).prints.length = (agent.play _ _).prints.length :=
    congrArg (fun o => o.2.2.length) houtcome
  have hone := Machine.any_after
    (p := fun s => (agent.play s (Schedule.whole Schedule.exampleJob)).prints.length = 1) hrun
    (by decide +kernel)
  have hzero := Machine.any_after
    (p := fun s => (agent.play s (Schedule.whole Schedule.exampleJob)).prints.length = 0) hrun₂
    (by decide +kernel)
  rw [decide_eq_true_eq] at hone hzero
  rw [hone, hzero] at hprints
  cases hprints

end Agent

end PrintAgent
