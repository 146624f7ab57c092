import PrintAgent.Core.Cancel

/-!
# Acknowledged first

`handle_dispatch` inserts the row, and hands over `print.job.received` when it is resumed after the
insert.  The invariant (`Job.Acked`) is that a row means something was handed over, or that
`handle_dispatch` is at that point; and that the first thing handed over is the acknowledgement.

`acknowledged_first`: progress is reported after the acknowledgement, where the process does not
crash at that point.  `started_unacknowledged` is a crash there: the next life resumes the job, and
ignores its re-dispatch.
-/

namespace PrintAgent

/-- the row is inserted, and `print.job.received` is not handed over yet -/
def Handler.owesAck (h : Handler) : Bool :=
  match h.await with
  | .insertReceived _ => h.fut = some (.inserted true)
  | _ => false

namespace JobEvent

/-- `print.job.started`, `print.job.completed` and `print.job.failed` -/
def isProgress (e : JobEvent) : Bool :=
  match e.status with
  | .printing | .completed | .failed => true
  | _ => false

end JobEvent

namespace Job
variable {jobId : String} {x y : Job} {b : JobAct}

def keepsAck (x : Job) (b : JobAct) : Bool :=
  !(decide (b = .crash) && x.handler.any Handler.owesAck)

theorem keepsAck_iff : x.keepsAck b = true ↔
    (b = .crash → ∀ h, x.handler = some h → h.owesAck = false) := by
  simp [keepsAck, imp_iff_not_or, Option.any_eq_false]

/-- the first event handed over is the acknowledgement, and a row has been acknowledged or is about
to be -/
structure Acked (jobId : String) (x : Job) : Prop where
  first : ∀ e ∈ x.handed.head?, e = .received jobId
  acked : x.row ≠ none → x.handed ≠ [] ∨ ∃ h, x.handler = some h ∧ h.owesAck = true
  /-- recovery fails rows that are there -/
  stuck : x.life = .marking (some true) → x.row ≠ none

theorem acked_init : Acked jobId .init where
  first e he := by cases he
  acked hrow := absurd rfl hrow
  stuck hl := by cases hl

theorem owesAck_iff {h : Handler} :
    h.owesAck = true ↔ ∃ d, h.await = .insertReceived d ∧ h.fut = some (.inserted true) := by
  unfold Handler.owesAck
  cases h.await <;> simp

theorem acked_of_owesAck (hc : x.keepsAck b = true) (hs : Step jobId x b y) {h : Handler}
    (hh : x.handler = some h) (ho : h.owesAck = true) :
    y.handed ≠ [] ∨ ∃ h, y.handler = some h ∧ h.owesAck = true := by
  obtain ⟨d, ha, hfut⟩ := owesAck_iff.mp ho
  -- what it does when it is resumed
  have hnext : ∀ {h' ans n}, x.handler = some h' → h'.fut = some ans →
      h'.await.resume ans = some n → n = .await .sendReceived := by
    intro h' ans n hh' hfut' hr
    rw [hh] at hh'
    cases hh'
    rw [hfut] at hfut'
    cases hfut'
    rw [ha] at hr
    exact (HandlerAwait.flow_of_resume hr).next_inserted
  cases hs with
  | resumeRows hl => rename_i resume; cases resume <;> exact .inr ⟨h, hh, ho⟩
  | dispatch _ _ hno => rw [hh] at hno; cases hno
  | cancel _ hno => rw [hh] at hno; cases hno
  | handlerCall now hh' hcall =>
    rw [hh] at hh'
    cases hh'
    rw [(Handler.of_pendingStoreCall hcall).1] at hfut
    cases hfut
  | handlerSend hh' he =>
    rw [hh] at hh'
    cases hh'
    rw [(Handler.of_pendingEvent he).1] at hfut
    cases hfut
  | handlerAwait hh' hfut' hr =>
    cases hnext hh' hfut' hr
    exact .inl (List.append_ne_nil_of_right_ne_nil _ (List.cons_ne_nil _ _))
  | handlerCancelTask hh' hfut' hr => cases hnext hh' hfut' hr
  | handlerCreateTask hh' hfut' hr => cases hnext hh' hfut' hr
  | handlerRet hh' hfut' hr => cases hnext hh' hfut' hr
  | crash =>
    rw [keepsAck_iff.mp hc rfl h hh] at ho
    cases ho
  | _ => exact .inr ⟨h, hh, ho⟩

theorem Acked.event (hf : x.Fit) (hb : x.Base) (hi : x.Acked jobId) {e : JobEvent}
    (hh : HandedStep jobId x b (some e)) : e = .received jobId ∨ x.handed ≠ [] := by
  have hfound : ∀ h, x.handler = some h → h.hasFound → x.row ≠ none := by
    intro h hh hfound hnone
    obtain ⟨st, hst⟩ := hb.found h hh hfound
    obtain ⟨row, hrow, _⟩ := status_eq_some.mp hst
    rw [hnone] at hrow
    cases hrow
  cases hh with
  | restarted hl =>
    rcases hi.acked (hi.stuck hl) with hne | ⟨h, hh, _⟩
    · exact .inr hne
    · rw [(hf.asleep (by simp [hl])).2.2.1] at hh
      cases hh
  | received => exact .inl rfl
  | resent hh ha hfut =>
    rcases hi.acked (hfound _ hh (.inr ⟨_, hfut⟩)) with hne | ⟨h, hh', ho⟩
    · exact .inr hne
    · rw [hh] at hh'
      cases hh'
      obtain ⟨_, _, hfut'⟩ := owesAck_iff.mp ho
      rw [hfut] at hfut'
      cases hfut'
  | cancelled hh ha hfut =>
    rcases hi.acked (hfound _ hh (.inl (.inl ha))) with hne | ⟨h, hh', ho⟩
    · exact .inr hne
    · rw [hh] at hh'
      cases hh'
      obtain ⟨_, ha', _⟩ := owesAck_iff.mp ho
      rw [ha] at ha'
      cases ha'
  | worked pathExists socket ht =>
    obtain ⟨row, hrow⟩ := hf.stored _ ht
    rcases hi.acked (by rw [hrow]; simp) with hne | ⟨h, hh', ho⟩
    · exact .inr hne
    · obtain ⟨d, ha, hfut⟩ := owesAck_iff.mp ho
      rw [(hf.fresh h hh' (.inr ⟨d, ha, hfut⟩)).1] at ht
      cases ht

theorem acked_first (hf : x.Fit) (hb : x.Base) (hi : x.Acked jobId) (hs : Step jobId x b y) :
    ∀ e ∈ y.handed.head?, e = .received jobId := by
  obtain ⟨o, hhanded, ho⟩ := handed_step hs
  rw [hhanded]
  cases hx : x.handed with
  | cons e l => exact fun e' he' => hi.first e' (by rw [hx]; exact he')
  | nil =>
    cases o with
    | none => exact fun e he => by cases he
    | some e =>
      rintro e' ⟨⟩
      rcases hi.event hf hb ho with he | hne
      · exact he
      · exact absurd hx hne

theorem acked_acked (hb : x.Base) (hi : x.Acked jobId) (hc : x.keepsAck b = true)
    (hs : Step jobId x b y) (hrow : y.row ≠ none) :
    y.handed ≠ [] ∨ ∃ h, y.handler = some h ∧ h.owesAck = true := by
  by_cases hx : x.row = none
  · obtain ⟨row, hy⟩ := Option.ne_none_iff_exists'.mp hrow
    obtain ⟨h, d, hh, ha, hfut⟩ :=
      handler_of_insert hb hs hx ⟨_, status_eq_some.mpr ⟨row, hy, rfl⟩⟩
    exact .inr ⟨h, hh, owesAck_iff.mpr ⟨d, ha, hfut⟩⟩
  · rcases hi.acked hx with hne | ⟨h, hh, ho⟩
    · obtain ⟨o, hhanded, _⟩ := handed_step hs
      rw [hhanded]
      exact .inl (List.append_ne_nil_of_left_ne_nil hne _)
    · exact acked_of_owesAck hc hs hh ho

theorem acked_stuck (hb : x.Base) (hi : x.Acked jobId) (hs : Step jobId x b y)
    (hl : y.life = .marking (some true)) : y.row ≠ none := by
  have hold : x.life = .marking (some true) → y.row ≠ none := fun hx hy => by
    obtain ⟨row, hrow⟩ := Option.ne_none_iff_exists'.mp (hi.stuck hx)
    obtain ⟨st, hst⟩ := stored_step hb hs ⟨_, status_eq_some.mpr ⟨row, hrow, rfl⟩⟩
    obtain ⟨row', hrow', _⟩ := status_eq_some.mp hst
    rw [hy] at hrow'
    cases hrow'
  cases hs with
  | boot => cases hl
  | markStuck now hl' =>
    have hdec : decide (x.status = some .printing) = true := by
      injection hl with hl
      exact Option.some.inj hl
    obtain ⟨row, hrow, _⟩ := status_eq_some.mp (of_decide_eq_true hdec)
    simp [hrow]
  | handStuck => cases hl
  | listRows => cases hl
  | resumeRows => cases hl
  | handlerCancelTask => exact hold ((x.cancelTask_life jobId).symm.trans hl)
  | crash => cases hl
  | _ => exact hold hl

theorem acked_step (hf : x.Fit) (hb : x.Base) (hi : x.Acked jobId) (hc : x.keepsAck b = true)
    (hs : Step jobId x b y) : y.Acked jobId where
  first := acked_first hf hb hi hs
  acked := acked_acked hb hi hc hs
  stuck := acked_stuck hb hi hs

theorem Acked.received_mem (hi : x.Acked jobId) {before after : List JobEvent} {e : JobEvent}
    (heq : x.handed = before ++ e :: after) (he : e ≠ .received jobId) :
    .received jobId ∈ before := by
  cases before with
  | nil => exact absurd (hi.first e (by simp [heq])) he
  | cons e' before =>
    rw [hi.first e' (by simp [heq])]
    exact List.mem_cons_self ..

end Job

/-! ## the agent -/

namespace Agent

def keepsAck (jobId : String) : Agent → Act → Bool :=
  Machine.seenAs (view jobId) (seen jobId) Job.keepsAck

/-- **Acknowledged first**, where no crash loses an acknowledgement. -/
theorem acknowledged_first {jobId : String} {s : Agent}
    (h : agent.Reach (fun s a => s.keepsAck jobId a = true) s) :
    (∀ before e after, s.handed.filter (·.jobId = jobId) = before ++ e :: after →
      e.isProgress = true → .received jobId ∈ before) ∧
    ∀ e ∈ (s.handed.filter (·.jobId = jobId)).head?,
      PrintJobStatus.queued.isLegalTransition e.status = true := by
  have hi : (s.view jobId).Acked jobId :=
    job_invariant Job.acked_init
      (fun _ _ _ hf hb hi hc hs => Job.acked_step hf hb hi hc hs) (fun _ _ hc => .of_seenAs hc) h
  constructor
  · intro before e after heq hp
    refine hi.received_mem heq ?_
    rintro rfl
    cases hp
  · intro e he
    rw [hi.first e he]
    rfl

end Agent

/-- a job is accepted, the process crashes, and the next one resumes the job and starts to print -/
def Schedule.resumed (message : PrintJobDispatch) : List Act :=
  startup "1" ++ connect ++ accept "2" message ++ [.crash] ++ startup "3" ++ connect ++
    download "4" "/tmp/a.pdf" message.jobId ++ getStatus true message.jobId ++ start "5" message.jobId

/-- the process crashes when the insert has answered; the next one ignores the job's re-dispatch, and
starts to print -/
def Schedule.unacknowledged (message : PrintJobDispatch) : List Act :=
  startup "1" ++ connect ++ [.dispatch message, .handlerCall "2", .handlerResume, .handlerCall "2",
    .crash] ++ startup "3" ++ connect ++ [.dispatch message, .handlerCall "4", .handlerResume] ++
    download "4" "/tmp/a.pdf" message.jobId ++ getStatus true message.jobId ++ start "5" message.jobId

namespace Agent

theorem acknowledged_first_resumed :
    ∃ s, agent.run agent.init (Schedule.resumed Schedule.exampleJob) = some s ∧
      s.handed = [.received "a", .started "a"] ∧ JobEvent.received "a" ∈ [JobEvent.received "a"] := by
  have hrun : (agent.run agent.init (Schedule.resumed Schedule.exampleJob)).isSome = true := by
    decide
  exact ⟨_, Machine.run_after _ hrun, rfl,
    (acknowledged_first (.of_obeys _ hrun (by decide))).1 [.received "a"] (.started "a") [] (by rfl)
      rfl⟩

theorem started_unacknowledged :
    ¬ ∀ (s : Agent) (jobId : String), agent.Reach Machine.Any s → ∀ before e after,
      s.handed.filter (·.jobId = jobId) = before ++ e :: after → e.isProgress = true →
        JobEvent.received jobId ∈ before := by
  intro h
  have hrun : (agent.run agent.init (Schedule.unacknowledged Schedule.exampleJob)).isSome = true := by
    decide
  have hmem := h _ "a" (.after _ hrun) [] (.started "a") [] (by rfl) rfl
  cases hmem

end Agent

end PrintAgent
