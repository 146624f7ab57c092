import PrintAgent.Core.FirstDispatch
import PrintAgent.Core.Unhonoured

/-!
# A dispatch that is repeated

A `print.job` message for a job that has a row, against the run in which it never came.  `handle_dispatch`
reads the row, and sends the event of a terminal one again; nothing else of the agent is touched, and what
runs beside it does not notice:

* `step_beside`           a task takes its step whatever was handed over, is buffered, or was written;
* `Without`               the other run: the same agent without the handler, and without its event;
* `Redispatched`          where the handler stands; `redispatched_of_run`;
* `redispatch_harmless`   the dispatch adds the event of the row it read, and nothing else.

The read that lost an insert (`getRaced`) does not take place: handlers run one after the other, so no row
appears between `get` and `insert_received`.
-/

namespace PrintAgent

/-- what happens beside the handler: a task takes a step, or a call that was left behind does -/
def Act.isBeside : Act → Bool
  | .taskCall .. | .taskAnswer .. | .taskSend .. | .taskPrint .. | .taskResume .. | .taskThrow ..
  | .leftCall .. | .leftPrint .. | .leftDrop .. => true
  | _ => false

/-- a `print.job.failed` of the job -/
def JobEvent.isFailed (jobId : String) : JobEvent → Bool
  | .failed j _ _ => decide (j = jobId)
  | _ => false

theorem HandlerAwait.resume_getExisting (d : PrintJobDispatch) (record : PrintJobRecord) :
    (getExisting d).resume (.record (some record))
      = some (record.verdict.elim .ret fun e => .await (.resend e)) := by
  show some (if record.status.isTerminal then resendTerminalEvent record else .ret) = _
  unfold resendTerminalEvent PrintJobRecord.verdict
  cases record.status <;> rfl

namespace Agent

/-- the agent with other events handed over, buffered and written -/
def withMail (s : Agent) (handed queue written : List JobEvent) : Agent :=
  { s with handed := handed, ws := { s.ws with durableQueue := queue }, written := written }

section Mail
variable (s : Agent) (h q w : List JobEvent)

@[simp] theorem withMail_store : (s.withMail h q w).store = s.store := rfl
@[simp] theorem withMail_slots : (s.withMail h q w).slots = s.slots := rfl
@[simp] theorem withMail_prints : (s.withMail h q w).prints = s.prints := rfl
@[simp] theorem withMail_handed : (s.withMail h q w).handed = h := rfl

@[simp] theorem withMail_task (j : String) (i : Nat) : (s.withMail h q w).task j i = s.task j i := rfl

theorem withMail_hand (o : Option JobEvent) : (s.hand o).withMail h q w = s.withMail h q w := by
  cases o with
  | none => rfl
  | some e =>
    unfold hand withMail WsClient.send
    cases s.ws.socket <;> rfl

theorem hand_withMail (o : Option JobEvent) :
    ∃ q', (s.withMail h q w).hand o = (s.hand o).withMail (h ++ o.toList) q' w := by
  cases o with
  | none => exact ⟨q, by simp [hand]⟩
  | some e =>
    have hsock : (s.withMail h q w).ws.socket = s.ws.socket := rfl
    simp only [hand, WsClient.send, hsock]
    split
    · exact ⟨q, rfl⟩
    · exact ⟨q ++ [e], rfl⟩

end Mail

section Beside
variable {s s' : Agent} {a : Act}

theorem step_beside (ha : a.isBeside = true) (hs : s.step a = some s') :
    ∃ new, s'.handed = s.handed ++ new ∧ ∀ h q w, ∃ q' w',
      (s.withMail h q w).step a = some (s'.withMail (h ++ new) q' w') := by
  cases a with
  | taskCall j i now =>
    obtain ⟨t, c, ht, hc, rfl⟩ := of_step_taskCall hs
    refine ⟨[], (List.append_nil _).symm, fun h q w => ⟨q, w, ?_⟩⟩
    simp only [step, withMail_task, ht, hc, Option.bind_eq_bind, Option.bind_some, List.append_nil]
    rfl
  | taskAnswer j i ans =>
    obtain ⟨t, ht, hw, hacc, rfl⟩ := of_step_taskAnswer hs
    refine ⟨[], (List.append_nil _).symm, fun h q w => ⟨q, w, ?_⟩⟩
    simp only [step, withMail_task, ht, hw, hacc, Option.bind_eq_bind, Option.bind_some, Bool.and_self, if_true,
      List.append_nil]
    rfl
  | taskSend j i written =>
    obtain ⟨t, e, ht, he, rfl⟩ := of_step_taskSend hs
    refine ⟨[], (List.append_nil _).symm, fun h q w => ?_⟩
    simp only [step, withMail_task, ht, he, Option.bind_eq_bind, Option.bind_some, List.append_nil]
    cases written with
    | false => exact ⟨q ++ [e], w, rfl⟩
    | true => exact ⟨q, w ++ [e], rfl⟩
  | taskPrint j i raises =>
    obtain ⟨t, p, ht, hp, rfl⟩ := of_step_taskPrint hs
    refine ⟨[], (List.append_nil _).symm, fun h q w => ⟨q, w, ?_⟩⟩
    simp only [step, withMail_task, ht, hp, Option.bind_eq_bind, Option.bind_some, List.append_nil]
    rfl
  | taskResume j i pathExists =>
    obtain ⟨t, ans, n, ht, hc, hf, hn, rfl⟩ := of_step_taskResume hs
    cases n with
    | await b =>
      refine ⟨(b.event j).toList, hand_handed _ _, fun h q w => ?_⟩
      obtain ⟨q', he⟩ := hand_withMail (s.setTask j i (.goTo j s.ws.socket b)) h q w (b.event j)
      refine ⟨q', w, ?_⟩
      simp only [step, withMail_task, ht, hc, hf, withMail_slots, hn, Option.bind_eq_bind, Option.bind_some,
        Bool.false_eq_true, if_false]
      exact congrArg some he
    | ret inTry =>
      refine ⟨[], (List.append_nil _).symm, fun h q w => ⟨q, w, ?_⟩⟩
      simp only [step, withMail_task, ht, hc, hf, withMail_slots, hn, Option.bind_eq_bind, Option.bind_some,
        Bool.false_eq_true, if_false, List.append_nil]
      rfl
  | taskThrow j i =>
    obtain ⟨t, ht, hc, hd, rfl⟩ := of_step_taskThrow hs
    refine ⟨[], (List.append_nil _).symm, fun h q w => ⟨q, w, ?_⟩⟩
    simp only [step, withMail_task, ht, hc, hd, Option.bind_eq_bind, Option.bind_some, Bool.not_false,
      Bool.and_self, if_true, List.append_nil]
    rfl
  | leftCall j n now =>
    obtain ⟨c, hn, rfl⟩ := of_step_leftCall hs
    refine ⟨[], (List.append_nil _).symm, fun h q w => ⟨q, w, ?_⟩⟩
    simp only [step, withMail_slots, hn, List.append_nil]
    rfl
  | leftPrint j n =>
    obtain ⟨p, hn, rfl⟩ := of_step_leftPrint hs
    refine ⟨[], (List.append_nil _).symm, fun h q w => ⟨q, w, ?_⟩⟩
    simp only [step, withMail_slots, hn, List.append_nil]
    rfl
  | leftDrop j n =>
    obtain ⟨hn, rfl⟩ := of_step_leftDrop hs
    refine ⟨[], (List.append_nil _).symm, fun h q w => ⟨q, w, ?_⟩⟩
    simp only [step, withMail_slots, hn, if_true, List.append_nil]
    rfl
  | _ => cases ha

theorem loop_of_beside (ha : a.isBeside = true) (hs : s.step a = some s') : s'.ws.loop = s.ws.loop := by
  cases a with
  | taskCall j i now =>
    obtain ⟨t, c, _, _, rfl⟩ := of_step_taskCall hs
    rfl
  | taskAnswer j i ans =>
    obtain ⟨t, _, _, _, rfl⟩ := of_step_taskAnswer hs
    rfl
  | taskSend j i written =>
    obtain ⟨t, e, _, _, rfl⟩ := of_step_taskSend hs
    exact sendEnds_loop s e written
  | taskPrint j i raises =>
    obtain ⟨t, p, _, _, rfl⟩ := of_step_taskPrint hs
    rfl
  | taskResume j i pathExists =>
    obtain ⟨t, ans, n, _, _, _, _, rfl⟩ := of_step_taskResume hs
    cases n with
    | await b => exact hand_loop _ _
    | ret inTry => rfl
  | taskThrow j i =>
    obtain ⟨t, _, _, _, rfl⟩ := of_step_taskThrow hs
    rfl
  | leftCall j n now =>
    obtain ⟨c, _, rfl⟩ := of_step_leftCall hs
    rfl
  | leftPrint j n =>
    obtain ⟨p, _, rfl⟩ := of_step_leftPrint hs
    rfl
  | leftDrop j n =>
    obtain ⟨_, rfl⟩ := of_step_leftDrop hs
    rfl
  | _ => cases ha

end Beside

/-! ## the run without the dispatch -/

/-- the same agent, but for the handler and for what the handler has handed over -/
def Without (s : Agent) (sent : List JobEvent) (t : Agent) : Prop :=
  ∃ before after queue written, s.handed = before ++ sent ++ after ∧
    t = (s.setLoop .receiving).withMail (before ++ after) queue written

/-- the record is that of the row that `handle_dispatch` finds -/
def ReadRow (s : Agent) (d : PrintJobDispatch) (as : List Act) (record : PrintJobRecord) : Prop :=
  ∃ before now after u row, as = before ++ .handlerCall now :: after ∧
    agent.run s (.dispatch d :: before) = some u ∧ u.ws.loop = .handling ⟨d.jobId, .getExisting d, none⟩ ∧
    u.store.row d.jobId = some row ∧ row.toPrintJobRecord = record

/-- where the handler of the dispatch is; `t` is the run without it -/
inductive Redispatched (s₀ : Agent) (d : PrintJobDispatch) (as : List Act) (s t : Agent) : Prop
  | reading (hl : s.ws.loop = .handling ⟨d.jobId, .getExisting d, none⟩)
      (hrow : s.store.row d.jobId ≠ none) (ht : s.Without [] t)
  | answered {record : PrintJobRecord}
      (hl : s.ws.loop = .handling ⟨d.jobId, .getExisting d, some (.record (some record))⟩)
      (hr : ReadRow s₀ d as record) (ht : s.Without [] t)
  | resending {record : PrintJobRecord} {e : JobEvent} {fut : Option Answer}
      (hl : s.ws.loop = .handling ⟨d.jobId, .resend e, fut⟩) (he : record.verdict = some e)
      (hr : ReadRow s₀ d as record) (ht : s.Without [e] t)
  | done {record : PrintJobRecord} (hl : s.ws.loop = .receiving) (hr : ReadRow s₀ d as record)
      (ht : s.Without record.verdict.toList t)

section Without
variable {s s' t : Agent} {a : Act} {sent : List JobEvent}

theorem ReadRow.mono {d : PrintJobDispatch} {as : List Act} {record : PrintJobRecord}
    (h : ReadRow s d as record) (bs : List Act) : ReadRow s d (as ++ bs) record := by
  obtain ⟨before, now, after, u, row, rfl, hrest⟩ := h
  exact ⟨before, now, after ++ bs, u, row, by simp, hrest⟩

theorem setLoop_self (hl : s.ws.loop = .receiving) : s.setLoop .receiving = s := by
  obtain ⟨store, life, ⟨loop, queue⟩, slots, handed, prints, written⟩ := s
  cases hl
  rfl

theorem Without.beside (hr : agent.Reach Machine.Any s) (h : s.Without sent t)
    (hl : s.ws.loop = .receiving ∨ ∃ hd, s.ws.loop = .handling hd) (ha : a.isBeside = true)
    (hs : agent.step s a = some s') : ∃ t', agent.step t a = some t' ∧ s'.Without sent t' := by
  obtain ⟨before, after, queue, written, hhanded, rfl⟩ := h
  have hidle : (s.setLoop .receiving).step a = some (s'.setLoop .receiving) := by
    rcases hl with hl | ⟨hd, hl⟩
    · rw [setLoop_self hl, setLoop_self ((loop_of_beside ha hs).trans hl)]
      exact hs
    · have hrun := (sound_of_reach hr).running_of_loop (by simp [hl])
      refine step_setLoop hl hrun ?_ ?_ hs
      · cases a <;> first | rfl | cases ha
      · rintro rfl
        cases ha
  obtain ⟨new, hnew, hstep⟩ := step_beside ha hidle
  obtain ⟨queue', written', hstep⟩ := hstep (before ++ after) queue written
  refine ⟨_, hstep, before, after ++ new, queue', written', ?_, by rw [List.append_assoc]⟩
  have hnew : s'.handed = s.handed ++ new := hnew
  rw [hnew, hhanded, List.append_assoc]

theorem Without.hand {o : Option JobEvent} {loop : Loop Handler} (h : s.Without [] t) :
    ((s.hand o).setLoop loop).Without o.toList t := by
  obtain ⟨before, after, queue, written, hhanded, rfl⟩ := h
  refine ⟨before ++ after, [], queue, written, ?_, ?_⟩
  · simp [hhanded]
  · rw [List.append_nil, ← withMail_hand (s.setLoop .receiving) _ _ _ o]
    cases o <;> rfl

theorem Without.congr (h : s.Without sent t) (hhanded : s'.handed = s.handed)
    (hs : ∀ handed queue written, (s'.setLoop .receiving).withMail handed queue written
      = (s.setLoop .receiving).withMail handed queue written) : s'.Without sent t := by
  obtain ⟨before, after, queue, written, he, rfl⟩ := h
  exact ⟨before, after, queue, written, hhanded.trans he, (hs _ _ _).symm⟩

end Without

/-! ## one step -/

section Step
variable {s₀ s s' t : Agent} {d : PrintJobDispatch} {as : List Act} {a : Act}

/-- the handler takes a step, and the other run stands still -/
theorem Redispatched.handler_step (hrun : agent.run s₀ (.dispatch d :: as) = some s)
    (h : Redispatched s₀ d as s t) (ha : a.isHandler = true) (hs : agent.step s a = some s') :
    Redispatched s₀ d (as ++ [a]) s' t := by
  have hsame : ∀ {hd hd'}, s.ws.loop = .handling hd → s.ws.loop = .handling hd' → hd' = hd :=
    fun hl hl' => Loop.handling.inj (hl'.symm.trans hl)
  cases h with
  | reading hl hrow ht =>
    cases a with
    | handlerCall now =>
      obtain ⟨hd, c, hl', hc, rfl⟩ := of_step_handlerCall hs
      cases hsame hl hl'
      cases hc
      obtain ⟨row, hrow⟩ := Option.ne_none_iff_exists'.mp hrow
      have hread : ReadRow s₀ d (as ++ [.handlerCall now]) row.toPrintJobRecord :=
        ⟨as, now, [], s, row, rfl, hrun, hl, hrow, rfl⟩
      refine .answered ?_ hread (ht.congr rfl fun _ _ _ => rfl)
      rw [QueueStore.call_answer, hrow]
      rfl
    | handlerSend written =>
      obtain ⟨hd, e, hl', he, rfl⟩ := of_step_handlerSend hs
      cases hsame hl hl'
      cases he
    | handlerResume =>
      obtain ⟨hd, ans, n, hl', hfut, hn, rfl⟩ := of_step_handlerResume hs
      cases hsame hl hl'
      cases hfut
    | _ => cases ha
  | answered hl hr ht =>
    rename_i record
    cases a with
    | handlerCall now =>
      obtain ⟨hd, c, hl', hc, rfl⟩ := of_step_handlerCall hs
      cases hsame hl hl'
      cases (Handler.of_pendingStoreCall hc).1
    | handlerSend written =>
      obtain ⟨hd, e, hl', he, rfl⟩ := of_step_handlerSend hs
      cases hsame hl hl'
      cases he
    | handlerResume =>
      obtain ⟨hd, ans, n, hl', hfut, hn, rfl⟩ := of_step_handlerResume hs
      cases hsame hl hl'
      cases hfut
      rw [HandlerAwait.resume_getExisting] at hn
      cases hverdict : record.verdict with
      | none =>
        rw [hverdict] at hn
        cases hn
        refine .done rfl (hr.mono _) ?_
        rw [hverdict]
        exact ht.hand (o := none)
      | some e =>
        rw [hverdict] at hn
        cases hn
        exact .resending rfl hverdict (hr.mono _) (ht.hand (o := some e))
    | _ => cases ha
  | resending hl he hr ht =>
    rename_i record e fut
    cases a with
    | handlerCall now =>
      obtain ⟨hd, c, hl', hc, rfl⟩ := of_step_handlerCall hs
      cases hsame hl hl'
      cases (Handler.of_pendingStoreCall hc).2
    | handlerSend written =>
      obtain ⟨hd, e', hl', he', rfl⟩ := of_step_handlerSend hs
      cases hsame hl hl'
      refine .resending rfl he (hr.mono _) (ht.congr rfl fun _ _ _ => ?_)
      cases written <;> rfl
    | handlerResume =>
      obtain ⟨hd, ans, n, hl', hfut, hn, rfl⟩ := of_step_handlerResume hs
      cases hsame hl hl'
      have hret : n = .ret := by
        cases HandlerAwait.flow_of_resume hn with
        | known hor | resend hor => rcases hor with hor | ⟨_, hor⟩ <;> cases hor
        | resent => rfl
      subst hret
      refine .done rfl (hr.mono _) ?_
      rw [he]
      exact ht.congr rfl fun _ _ _ => rfl
    | _ => cases ha
  | done hl hr ht =>
    cases a with
    | handlerCall now =>
      obtain ⟨hd, c, hl', _, rfl⟩ := of_step_handlerCall hs
      rw [hl] at hl'
      cases hl'
    | handlerSend written =>
      obtain ⟨hd, e, hl', _, rfl⟩ := of_step_handlerSend hs
      rw [hl] at hl'
      cases hl'
    | handlerResume =>
      obtain ⟨hd, ans, n, hl', _, _, rfl⟩ := of_step_handlerResume hs
      rw [hl] at hl'
      cases hl'
    | _ => cases ha

/-- both runs take the step -/
theorem Redispatched.beside_step (hreach : agent.Reach Machine.Any s) (h : Redispatched s₀ d as s t)
    (ha : a.isBeside = true) (hs : agent.step s a = some s') :
    ∃ t', agent.step t a = some t' ∧ Redispatched s₀ d (as ++ [a]) s' t' := by
  have hloop := loop_of_beside ha hs
  cases h with
  | reading hl hrow ht =>
    obtain ⟨t', hstep, ht'⟩ := ht.beside hreach (.inr ⟨_, hl⟩) ha hs
    exact ⟨t', hstep, .reading (hloop.trans hl) (fun hno => hrow (unstored_of_step hreach hs hno)) ht'⟩
  | answered hl hr ht =>
    obtain ⟨t', hstep, ht'⟩ := ht.beside hreach (.inr ⟨_, hl⟩) ha hs
    exact ⟨t', hstep, .answered (hloop.trans hl) (hr.mono _) ht'⟩
  | resending hl he hr ht =>
    obtain ⟨t', hstep, ht'⟩ := ht.beside hreach (.inr ⟨_, hl⟩) ha hs
    exact ⟨t', hstep, .resending (hloop.trans hl) he (hr.mono _) ht'⟩
  | done hl hr ht =>
    obtain ⟨t', hstep, ht'⟩ := ht.beside hreach (.inl hl) ha hs
    exact ⟨t', hstep, .done (hloop.trans hl) (hr.mono _) ht'⟩

theorem redispatched_begin (hrow : s.store.row d.jobId ≠ none) (hs : agent.step s (.dispatch d) = some s') :
    s.ws.loop = .receiving ∧ Redispatched s d [] s' s := by
  have hs : s.step (.dispatch d) = some s' := hs
  simp only [step] at hs
  split at hs <;> cases hs
  rename_i hl
  refine ⟨hl, .reading rfl hrow ⟨s.handed, [], s.ws.durableQueue, s.written, ?_, ?_⟩⟩
  · simp
  · show s = _
    rw [List.append_nil]
    exact (setLoop_self hl).symm

/-- **The two runs, as long as the handler runs.** -/
theorem redispatched_of_run (hreach : agent.Reach Machine.Any s) (hrow : s.store.row d.jobId ≠ none)
    (has : ∀ a ∈ as, a.isHandler = true ∨ a.isBeside = true)
    (hrun : agent.run s (.dispatch d :: as) = some s') :
    ∃ t, agent.run s (as.filter Act.isBeside) = some t ∧ Redispatched s d as s' t := by
  obtain ⟨s₁, hbegin, hrun⟩ := agent.run_cons_eq_some.mp hrun
  have hreach₁ : agent.Reach Machine.Any s₁ := hreach.step trivial hbegin
  have hinv : (∀ a ∈ as, a.isHandler = true ∨ a.isBeside = true) →
      ∃ t, agent.run s (as.filter Act.isBeside) = some t ∧ Redispatched s d as s' t := by
    refine Machine.run_invariant (I := fun as u => (∀ a ∈ as, a.isHandler = true ∨ a.isBeside = true) →
      ∃ t, agent.run s (as.filter Act.isBeside) = some t ∧ Redispatched s d as u t) ?_ ?_ hrun
    · exact fun _ => ⟨s, rfl, (redispatched_begin hrow hbegin).2⟩
    · intro as u a u' hu hI hstep has
      obtain ⟨t, ht, hrel⟩ := hI fun b hb => has b (List.mem_append_left _ hb)
      rw [List.filter_append]
      rcases has a (List.mem_append_right _ List.mem_cons_self) with ha | ha
      · have hno : a.isBeside = false := by cases a <;> first | rfl | cases ha
        rw [List.filter_cons_of_neg (by simp [hno]), List.filter_nil, List.append_nil]
        have hrun : agent.run s (.dispatch d :: as) = some u := agent.run_cons_eq_some.mpr ⟨s₁, hbegin, hu⟩
        exact ⟨t, ht, hrel.handler_step hrun ha hstep⟩
      · obtain ⟨t', ht', hrel'⟩ := hrel.beside_step (hreach₁.path (.of_run hu)) ha hstep
        rw [List.filter_cons_of_pos ha, List.filter_nil]
        exact ⟨t', Machine.run_concat.mpr ⟨t, ht, ht'⟩, hrel'⟩
  exact hinv has

end Step

/-! ## what comes of the dispatch -/

/-- the dispatch has been handled, and nothing comes of it but the event of the row that it found;
`t` is the run in which it never came -/
structure Harmless (s : Agent) (d : PrintJobDispatch) (as : List Act) (s' t : Agent) (record : PrintJobRecord) :
    Prop where
  run : agent.run s (as.filter Act.isBeside) = some t
  read : ReadRow s d as record
  store : s'.store = t.store
  slots : s'.slots = t.slots
  prints : s'.prints = t.prints
  handed : ∃ before after, t.handed = before ++ after ∧ s'.handed = before ++ record.verdict.toList ++ after
  failed : record.status = .failed → s'.handed.find? (JobEvent.isFailed d.jobId) = record.verdict

theorem find_failed {s : Agent} (h : agent.Reach Machine.Any s) {j : String} {c m : Option String}
    (hmem : .failed j c m ∈ s.handed) :
    s.handed.find? (JobEvent.isFailed j) = some (.failed j c m) := by
  have hview : ∀ {e}, e ∈ s.handed → e.jobId = j → e ∈ (s.view j).handed := fun he hj =>
    List.mem_filter.mpr ⟨he, decide_eq_true hj⟩
  cases hfind : s.handed.find? (JobEvent.isFailed j) with
  | none => exact absurd (decide_eq_true rfl) (List.find?_eq_none.mp hfind _ hmem)
  | some e =>
    have hfailed := List.find?_some hfind
    have he := List.mem_of_find?_eq_some hfind
    cases e with
    | failed k c' m' =>
      cases of_decide_eq_true hfailed
      obtain ⟨rfl, rfl⟩ := (told_of_reach h j).failed_unique (hview he rfl) (hview hmem rfl)
      rfl
    | _ => cases hfailed

/-- **A dispatch of a job that has a row is harmless**, and a job is printed with the printer, the copies and
the document of the first dispatch that came to its insert. -/
theorem redispatch_harmless :
    (∀ (s s' : Agent) (d : PrintJobDispatch) (as : List Act), agent.Reach Machine.Any s →
      s.store.row d.jobId ≠ none → (∀ a ∈ as, a.isHandler = true ∨ a.isBeside = true) →
      agent.run s (.dispatch d :: as) = some s' → s'.ws.loop = .receiving →
      ∃ t record, Harmless s d as s' t record) ∧
    ∀ (as : List Act) (s : Agent), agent.run agent.init as = some s → ∀ p ∈ s.prints, UsesFirst as p := by
  refine ⟨fun s s' d as hreach hrow has hrun hidle => ?_, fun as s hrun p hp => usesFirst_of_run hrun hp⟩
  obtain ⟨t, ht, hrel⟩ := redispatched_of_run hreach hrow has hrun
  have hreach' : agent.Reach Machine.Any s' := hreach.path (.of_run hrun)
  cases hrel with
  | reading hl => cases hidle.symm.trans hl
  | answered hl => cases hidle.symm.trans hl
  | resending hl => cases hidle.symm.trans hl
  | done hl hr hwithout =>
    rename_i record
    obtain ⟨before, after, queue, written, hhanded, rfl⟩ := hwithout
    refine ⟨_, record, ht, hr, rfl, rfl, rfl, ⟨before, after, rfl, hhanded⟩, fun hst => ?_⟩
    obtain ⟨_, _, _, u, row, _, _, _, hrow, rfl⟩ := hr
    have hverdict : row.toPrintJobRecord.verdict = some (.failed d.jobId row.errorCode row.errorMessage) := by
      rw [PrintJobRecord.verdict, hst, ← QueueStore.row_jobId hrow]
    rw [hverdict]
    refine find_failed hreach' ?_
    rw [hhanded, hverdict]
    exact List.mem_append_left _ (List.mem_append_right _ List.mem_cons_self)

/-- the job is dispatched again, with another printer, while its task waits for the download -/
theorem redispatch_harmless_waiting : ∃ s s' t record, agent.run s [.dispatch ⟨"a", "q", "invoice", "1", "v", 3⟩,
    .handlerCall "3", .taskResume "a" 0 false, .handlerResume] = some s' ∧
    Harmless s ⟨"a", "q", "invoice", "1", "v", 3⟩
      [.handlerCall "3", .taskResume "a" 0 false, .handlerResume] s' t record := by
  have hrun : (agent.run agent.init
    (Schedule.startup "1" ++ Schedule.connect ++ Schedule.accept "2" Schedule.exampleJob)).isSome = true := by decide
  have hrun' : (agent.run agent.init
    (Schedule.startup "1" ++ Schedule.connect ++ Schedule.accept "2" Schedule.exampleJob ++
      [.dispatch ⟨"a", "q", "invoice", "1", "v", 3⟩, .handlerCall "3", .taskResume "a" 0 false,
        .handlerResume])).isSome = true := by decide
  have hsome := Machine.run_after_append _ _ hrun hrun'
  have hrow : (agent.after _ hrun).store.row "a" ≠ none := by
    have hall := Machine.any_after (p := fun s => (s.store.row "a").isSome) hrun (by decide)
    intro hno
    rw [hno] at hall
    cases hall
  obtain ⟨t, record, h⟩ := redispatch_harmless.1 _ _ _ _ (.after _ hrun) hrow (by decide) hsome (by rfl)
  exact ⟨_, _, t, record, hsome, h⟩

/-- the dispatch that is printed is not the first one of the job: that one was lost in a crash -/
theorem first_dispatch_lost :
    ¬ ∀ (as : List Act) (s : Agent), agent.run agent.init as = some s → ∀ p ∈ s.prints,
      ∀ before d after, as = before ++ .dispatch d :: after → d.jobId = p.jobId →
        (∀ d', .dispatch d' ∈ before → d'.jobId ≠ p.jobId) → p.localPrinterId = d.printerId := by
  intro h
  have hrun : (agent.run agent.init (Schedule.startup "1" ++ Schedule.connect ++
    .dispatch ⟨"a", "q", "invoice", "1", "v", 3⟩ :: .crash ::
      (Schedule.startup "2" ++ Schedule.connect ++ Schedule.whole Schedule.exampleJob))).isSome = true := by
    decide +kernel
  have hprints := Machine.any_after (p := fun s => s.prints = [⟨"a", "p", "/tmp/a.pdf", 1⟩]) hrun
    (by decide +kernel)
  have hmem : (⟨"a", "p", "/tmp/a.pdf", 1⟩ : PrintCall) ∈ (agent.after _ hrun).prints := by
    rw [of_decide_eq_true hprints]
    exact List.mem_cons_self
  have hno := h _ _ (Machine.run_after _ hrun) _ hmem _ ⟨"a", "q", "invoice", "1", "v", 3⟩ _ rfl rfl
    (fun d' hd' => by simp [Schedule.startup, Schedule.connect] at hd')
  exact absurd hno (by decide)

end Agent

end PrintAgent
