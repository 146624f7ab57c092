import PrintAgent.Core.Agent

/-!
# What the agent keeps in every state

* `Agent.Sound`      what the code relies on without saying so: a job id never gets a second
                     `_process` task in one process life (a task is created only for a row this
                     life inserted, or once for a row found at startup), a task's job has a row,
                     and nothing runs before startup recovery is over;
* `sound_of_reach`   it holds in every reachable state;
* `of_step_…`        what a step with a call, a send or a resumption did.
-/

namespace PrintAgent

namespace Agent

/-! ## what the operations leave alone -/

section Fields
variable (s : Agent) (j k : String) (slot : Slot) (i : Nat) (t : Task) (loop : Loop Handler)
  (o : Option JobEvent) (e : JobEvent) (w : Bool)

@[simp] theorem setSlot_self : (s.setSlot j slot).slots j = slot := Function.update_self ..

@[simp] theorem setSlot_of_ne (h : k ≠ j) : (s.setSlot j slot).slots k = s.slots k :=
  Function.update_of_ne h ..

@[simp] theorem setSlot_store : (s.setSlot j slot).store = s.store := rfl
@[simp] theorem setSlot_life : (s.setSlot j slot).life = s.life := rfl
@[simp] theorem setSlot_ws : (s.setSlot j slot).ws = s.ws := rfl
@[simp] theorem setSlot_handed : (s.setSlot j slot).handed = s.handed := rfl
@[simp] theorem setSlot_prints : (s.setSlot j slot).prints = s.prints := rfl
@[simp] theorem setTask_eq : s.setTask j i t = s.setSlot j ((s.slots j).setTask i t) := rfl
@[simp] theorem setLoop_store : (s.setLoop loop).store = s.store := rfl
@[simp] theorem setLoop_life : (s.setLoop loop).life = s.life := rfl
@[simp] theorem setLoop_slots : (s.setLoop loop).slots = s.slots := rfl
@[simp] theorem setLoop_handed : (s.setLoop loop).handed = s.handed := rfl
@[simp] theorem setLoop_prints : (s.setLoop loop).prints = s.prints := rfl
@[simp] theorem setLoop_loop : (s.setLoop loop).ws.loop = loop := rfl
@[simp] theorem hand_store : (s.hand o).store = s.store := by cases o <;> rfl
@[simp] theorem hand_life : (s.hand o).life = s.life := by cases o <;> rfl
@[simp] theorem hand_slots : (s.hand o).slots = s.slots := by cases o <;> rfl
@[simp] theorem hand_prints : (s.hand o).prints = s.prints := by cases o <;> rfl
@[simp] theorem hand_handed : (s.hand o).handed = s.handed ++ o.toList := by
  cases o <;> simp [hand]
@[simp] theorem hand_loop : (s.hand o).ws.loop = s.ws.loop := by
  cases o with
  | none => rfl
  | some e => simp only [hand, WsClient.send]; split <;> rfl
@[simp] theorem sendEnds_store : (s.sendEnds e w).store = s.store := rfl
@[simp] theorem sendEnds_life : (s.sendEnds e w).life = s.life := rfl
@[simp] theorem sendEnds_slots : (s.sendEnds e w).slots = s.slots := rfl
@[simp] theorem sendEnds_handed : (s.sendEnds e w).handed = s.handed := rfl
@[simp] theorem sendEnds_prints : (s.sendEnds e w).prints = s.prints := rfl
@[simp] theorem sendEnds_loop : (s.sendEnds e w).ws.loop = s.ws.loop := by
  simp only [sendEnds, WsClient.sendEnds]; split <;> rfl

end Fields

theorem handler_eq_some {ws : WsClient Handler} {h : Handler} :
    ws.handler = some h ↔ ws.loop = .handling h := by
  unfold WsClient.handler
  split
  · rename_i h' heq
    rw [heq]
    simp
  · rename_i hne
    simp only [reduceCtorEq, false_iff]
    exact fun heq => hne h heq

theorem resumeJobs_fields (s : Agent) (jobIds : List String) :
    (s.resumeJobs jobIds).store = s.store ∧ (s.resumeJobs jobIds).life = s.life ∧
      (s.resumeJobs jobIds).ws = s.ws ∧ (s.resumeJobs jobIds).handed = s.handed ∧
      (s.resumeJobs jobIds).prints = s.prints := by
  unfold resumeJobs
  induction jobIds generalizing s with
  | nil => exact ⟨rfl, rfl, rfl, rfl, rfl⟩
  | cons j jobIds ih => exact ih _

theorem resumeJobs_slots (s : Agent) (jobIds : List String) (hn : jobIds.Nodup) (j : String) :
    (s.resumeJobs jobIds).slots j = if j ∈ jobIds then (s.slots j).createTask else s.slots j := by
  unfold resumeJobs
  induction jobIds generalizing s with
  | nil => simp
  | cons k jobIds ih =>
    obtain ⟨hk, hn⟩ := List.nodup_cons.mp hn
    rw [List.foldl_cons, ih _ hn]
    by_cases hj : j = k
    · subst hj
      simp [hk]
    · simp [hj]

/-! ## the steps with a call, a send or a resumption, inverted -/

section Inversion
variable {s s' : Agent} {j : String} {i n : Nat} {now : String} {w e : Bool} {ans : Answer}
  {raises : Option String}

theorem of_step_handlerCall (h : s.step (.handlerCall now) = some s') :
    ∃ hd c, s.ws.loop = .handling hd ∧ hd.pendingStoreCall = some c ∧
      s' = { s.setLoop (.handling (hd.answer (s.store.call now hd.jobId c).1)) with
        store := (s.store.call now hd.jobId c).2 } := by
  obtain ⟨hd, hw, h⟩ := Option.bind_eq_some_iff.mp h
  obtain ⟨c, hc, h⟩ := Option.bind_eq_some_iff.mp h
  exact ⟨hd, c, handler_eq_some.mp hw, hc, (Option.some.inj h).symm⟩

theorem of_step_handlerSend (h : s.step (.handlerSend w) = some s') :
    ∃ hd ev, s.ws.loop = .handling hd ∧ hd.pendingEvent = some ev ∧
      s' = (s.sendEnds ev w).setLoop (.handling (hd.answer .done)) := by
  obtain ⟨hd, hw, h⟩ := Option.bind_eq_some_iff.mp h
  obtain ⟨ev, hev, h⟩ := Option.bind_eq_some_iff.mp h
  exact ⟨hd, ev, handler_eq_some.mp hw, hev, (Option.some.inj h).symm⟩

theorem of_step_handlerResume (h : s.step .handlerResume = some s') :
    ∃ hd ans n, s.ws.loop = .handling hd ∧ hd.fut = some ans ∧ hd.await.resume ans = some n ∧
      s' = s.resumeHandler hd n := by
  obtain ⟨hd, hw, h⟩ := Option.bind_eq_some_iff.mp h
  obtain ⟨ans, hf, h⟩ := Option.bind_eq_some_iff.mp h
  obtain ⟨n, hn, h⟩ := Option.bind_eq_some_iff.mp h
  exact ⟨hd, ans, n, handler_eq_some.mp hw, hf, hn, (Option.some.inj h).symm⟩

theorem of_step_taskCall (h : s.step (.taskCall j i now) = some s') :
    ∃ t c, s.task j i = some t ∧ t.pendingStoreCall = some c ∧
      s' = { s.setTask j i (t.answer (s.store.call now j c).1) with
        store := (s.store.call now j c).2 } := by
  obtain ⟨t, ht, h⟩ := Option.bind_eq_some_iff.mp h
  obtain ⟨c, hc, h⟩ := Option.bind_eq_some_iff.mp h
  exact ⟨t, c, ht, hc, (Option.some.inj h).symm⟩

theorem of_step_taskAnswer (h : s.step (.taskAnswer j i ans) = some s') :
    ∃ t, s.task j i = some t ∧ t.isWaiting = true ∧ t.await.accepts ans = true ∧
      s' = s.setTask j i (t.answer ans) := by
  obtain ⟨t, ht, h⟩ := Option.bind_eq_some_iff.mp h
  split at h
  · rename_i hc
    rw [Bool.and_eq_true] at hc
    exact ⟨t, ht, hc.1, hc.2, (Option.some.inj h).symm⟩
  · cases h

theorem of_step_taskSend (h : s.step (.taskSend j i w) = some s') :
    ∃ t ev, s.task j i = some t ∧ t.pendingEvent j = some ev ∧
      s' = (s.sendEnds ev w).setTask j i (t.answer .done) := by
  obtain ⟨t, ht, h⟩ := Option.bind_eq_some_iff.mp h
  obtain ⟨ev, hev, h⟩ := Option.bind_eq_some_iff.mp h
  exact ⟨t, ev, ht, hev, (Option.some.inj h).symm⟩

theorem of_step_taskPrint (h : s.step (.taskPrint j i raises) = some s') :
    ∃ t p, s.task j i = some t ∧ t.pendingPrint j = some p ∧
      s' = { s.setTask j i (t.answer (raises.elim .done .raised)) with
        prints := s.prints ++ [p] } := by
  obtain ⟨t, ht, h⟩ := Option.bind_eq_some_iff.mp h
  obtain ⟨p, hp, h⟩ := Option.bind_eq_some_iff.mp h
  exact ⟨t, p, ht, hp, (Option.some.inj h).symm⟩

theorem of_step_taskResume (h : s.step (.taskResume j i e) = some s') :
    ∃ t ans n, s.task j i = some t ∧ t.cancelled = false ∧ t.fut = some ans ∧
      t.await.resume (s.slots j).cancelRequested e ans = some n ∧ s' = s.resumeTask j i n := by
  obtain ⟨t, ht, h⟩ := Option.bind_eq_some_iff.mp h
  split at h
  · cases h
  · rename_i hc
    obtain ⟨ans, hf, h⟩ := Option.bind_eq_some_iff.mp h
    obtain ⟨n, hn, h⟩ := Option.bind_eq_some_iff.mp h
    exact ⟨t, ans, n, ht, by simpa using hc, hf, hn, (Option.some.inj h).symm⟩

theorem of_step_taskThrow (h : s.step (.taskThrow j i) = some s') :
    ∃ t, s.task j i = some t ∧ t.cancelled = true ∧ t.isDone = false ∧
      s' = s.setSlot j ((s.slots j).endTask i t.await.inTry) := by
  obtain ⟨t, ht, h⟩ := Option.bind_eq_some_iff.mp h
  split at h
  · rename_i hc
    rw [Bool.and_eq_true, Bool.not_eq_true'] at hc
    exact ⟨t, ht, hc.1, hc.2, (Option.some.inj h).symm⟩
  · cases h

/-- the slot of `j` once its `n`-th call left behind is out of the way -/
def takeLeft (s : Agent) (j : String) (n : Nat) : Agent :=
  s.setSlot j { s.slots j with leftBehind := (s.slots j).leftBehind.eraseIdx n }

theorem of_step_leftCall (h : s.step (.leftCall j n now) = some s') :
    ∃ c, (s.slots j).leftBehind[n]? = some (.store c) ∧
      s' = { s.takeLeft j n with store := (s.store.call now j c).2 } := by
  simp only [step] at h
  split at h
  · exact ⟨_, by assumption, (Option.some.inj h).symm⟩
  · cases h

theorem of_step_leftPrint (h : s.step (.leftPrint j n) = some s') :
    ∃ p, (s.slots j).leftBehind[n]? = some (.print p) ∧
      s' = { s.takeLeft j n with prints := s.prints ++ [p] } := by
  simp only [step] at h
  split at h
  · exact ⟨_, by assumption, (Option.some.inj h).symm⟩
  · cases h

theorem of_step_leftDrop (h : s.step (.leftDrop j n) = some s') :
    n < (s.slots j).leftBehind.length ∧ s' = s.takeLeft j n := by
  simp only [step] at h
  split at h
  · exact ⟨by assumption, (Option.some.inj h).symm⟩
  · cases h

end Inversion

end Agent

/-! ## soundness of the slots -/

/-- at most one task for the job in this life, `_tasks` maps to it, the job has a row, and the
print jobs left behind are its own -/
structure Slot.Ok (slot : Slot) (jobId : String) (stored : Prop) : Prop where
  one : slot.tasks.length ≤ 1
  entry : ∀ i, slot.entry = some i → i < slot.tasks.length
  stored : slot.tasks ≠ [] → stored
  left : ∀ p, ThreadCall.print p ∈ slot.leftBehind → p.jobId = jobId

theorem Await.printCall_jobId {jobId : String} {a : Await} {p : PrintCall}
    (h : a.printCall jobId = some p) : p.jobId = jobId := by
  unfold Await.printCall at h
  split at h <;> cases h
  rfl

theorem Task.pendingPrint_jobId {jobId : String} {t : Task} {p : PrintCall}
    (h : t.pendingPrint jobId = some p) : p.jobId = jobId := by
  unfold Task.pendingPrint at h
  split at h
  · exact Await.printCall_jobId h
  · cases h

namespace Slot.Ok
variable {slot : Slot} {j : String} {p q : Prop} {t : Task} {i : Nat}

theorem empty : Slot.empty.Ok j p :=
  ⟨Nat.zero_le _, nofun, fun h => absurd rfl h, fun _ h => absurd h List.not_mem_nil⟩

theorem mono (h : slot.Ok j p) (hpq : p → q) : slot.Ok j q :=
  ⟨h.one, h.entry, fun hne => hpq (h.stored hne), h.left⟩

theorem setTask (h : slot.Ok j p) : (slot.setTask i t).Ok j p := by
  refine ⟨?_, fun n hn => ?_, fun hne => h.stored fun he => hne ?_, h.left⟩
  · simpa [Slot.setTask] using h.one
  · simpa [Slot.setTask] using h.entry n hn
  · simp [Slot.setTask, he]

theorem endTask (h : slot.Ok j p) {inTry : Bool} : (slot.endTask i inTry).Ok j p := by
  have hs := h.setTask (i := i) (t := .finished)
  refine ⟨hs.one, fun n hn => hs.entry n ?_, hs.stored, hs.left⟩
  cases inTry with
  | true => cases hn
  | false => exact hn

theorem cancelTask (h : slot.Ok j p) : (slot.cancelTask j).Ok j p := by
  unfold Slot.cancelTask
  split
  · exact h
  · refine ⟨h.setTask.one, h.setTask.entry, h.setTask.stored, fun pc hpc => ?_⟩
    rcases List.mem_append.mp hpc with hold | hnew
    · exact h.left pc hold
    · exact Task.pendingPrint_jobId (by simpa [Task.pendingThreadCall] using hnew)

theorem createTask (h : slot.Ok j q) (hf : slot.tasks = []) (hp : p) : slot.createTask.Ok j p := by
  refine ⟨?_, fun i hi => ?_, fun _ => hp, h.left⟩
  · simp [Slot.createTask, hf]
  · simp only [Slot.createTask, Option.some.injEq] at hi
    simp [Slot.createTask, ← hi]

theorem leftBehind (h : slot.Ok j p) (n : Nat) :
    Slot.Ok { slot with leftBehind := slot.leftBehind.eraseIdx n } j p :=
  ⟨h.one, h.entry, h.stored, fun pc hpc => h.left pc (List.mem_of_mem_eraseIdx hpc)⟩

theorem cancelRequested (h : slot.Ok j p) (b : Bool) :
    Slot.Ok { slot with cancelRequested := b } j p := ⟨h.one, h.entry, h.stored, h.left⟩

theorem index (h : slot.Ok j p) (ht : slot.tasks[i]? = some t) : i = 0 ∧ slot.tasks = [t] := by
  have hone := h.one
  match htasks : slot.tasks with
  | [] => simp [htasks] at ht
  | [u] =>
    rw [htasks] at ht
    match i with
    | 0 => simpa using ht
    | i + 1 => simp at ht
  | u :: v :: l => simp [htasks] at hone

end Slot.Ok

/-- the row of the dispatch that the handler is working on is new, and has no task yet -/
def Handler.hasInserted (h : Handler) : Prop :=
  h.await = .sendReceived ∨ ∃ d, h.await = .insertReceived d ∧ h.fut = some (.inserted true)

structure Agent.Sound (s : Agent) : Prop where
  slot : ∀ j, (s.slots j).Ok j (s.store.row j).isSome
  asleep : s.life ≠ .running → (∀ j, s.slots j = .empty) ∧ s.ws.loop = .connecting
  marked : ∀ jobIds, s.life = .marking (some jobIds) → jobIds.Nodup
  listed : ∀ records, s.life = .listing (some records) →
    (records.map (·.jobId)).Nodup ∧ ∀ r ∈ records, (s.store.row r.jobId).isSome
  fresh : ∀ h, s.ws.loop = .handling h → h.hasInserted →
    (s.slots h.jobId).tasks = [] ∧ (s.store.row h.jobId).isSome
  answered : ∀ h r, s.ws.loop = .handling h → h.fut = some (.record (some r)) → r.jobId = h.jobId

/-! ## what a call does to all rows -/

namespace QueueStore

theorem call_answer (now j : String) (store : QueueStore) (c : StoreCall) :
    (store.call now j c).1 = (rowCall now j (store.row j) c).1 :=
  congrArg Prod.fst (call_row now j store c)

theorem call_self (now j : String) (store : QueueStore) (c : StoreCall) :
    (store.call now j c).2.row j = (rowCall now j (store.row j) c).2 :=
  congrArg Prod.snd (call_row now j store c)

theorem isSome_rowCall (now j : String) (row : Option PrintJobRow) (c : StoreCall)
    (h : row.isSome) : (rowCall now j row c).2.isSome := by
  cases c <;> simp_all [rowCall]

theorem isSome_call (now j k : String) (store : QueueStore) (c : StoreCall)
    (h : (store.row k).isSome) : ((store.call now j c).2.row k).isSome := by
  by_cases hk : k = j
  · subst hk
    rw [call_self]
    exact isSome_rowCall now k _ c h
  · rw [call_other now hk]
    exact h

theorem row_jobId {store : QueueStore} {j : String} {row : PrintJobRow}
    (h : store.row j = some row) : row.jobId = j := (Table.get_mem h).2

end QueueStore

namespace Agent
namespace Sound
variable {s s' : Agent} {j : String}

theorem of_eq (h : s.Sound) (hs : s'.slots = s.slots) (hst : s'.store = s.store)
    (hl : s'.life = s.life) (hw : s'.ws.loop = s.ws.loop) : s'.Sound := by
  obtain ⟨h1, h2, h3, h4, h5, h6⟩ := h
  constructor
  · rw [hs, hst]; exact h1
  · rw [hs, hl, hw]; exact h2
  · rw [hl]; exact h3
  · rw [hl, hst]; exact h4
  · rw [hs, hst, hw]; exact h5
  · rw [hw]; exact h6

theorem running_of_task (h : s.Sound) (ht : (s.slots j).tasks ≠ []) : s.life = .running := by
  by_contra hl
  rw [(h.asleep hl).1 j] at ht
  exact ht rfl

theorem running_of_leftBehind (h : s.Sound) (ht : (s.slots j).leftBehind ≠ []) :
    s.life = .running := by
  by_contra hl
  rw [(h.asleep hl).1 j] at ht
  exact ht rfl

theorem running_of_loop (h : s.Sound) (hw : s.ws.loop ≠ .connecting) : s.life = .running := by
  by_contra hl
  exact hw (h.asleep hl).2

theorem store_call (h : s.Sound) (now : String) (j : String) (c : StoreCall) :
    Sound { s with store := (s.store.call now j c).2 } := by
  obtain ⟨h1, h2, h3, h4, h5, h6⟩ := h
  refine ⟨fun k => (h1 k).mono (QueueStore.isSome_call now j k s.store c), h2, h3, ?_, ?_, h6⟩
  · intro records hl
    obtain ⟨hn, hr⟩ := h4 records hl
    exact ⟨hn, fun r hm => QueueStore.isSome_call now j r.jobId s.store c (hr r hm)⟩
  · intro hd hw hi
    obtain ⟨ht, hr⟩ := h5 hd hw hi
    exact ⟨ht, QueueStore.isSome_call now j hd.jobId s.store c hr⟩

theorem set_slot (h : s.Sound) (hl : s.life = .running) {slot : Slot}
    (hs : slot.Ok j (s.store.row j).isSome) (hlen : (s.slots j).tasks = [] → slot.tasks = []) :
    (s.setSlot j slot).Sound := by
  obtain ⟨h1, h2, h3, h4, h5, h6⟩ := h
  refine ⟨fun k => ?_, fun hne => absurd hl hne, h3, h4, ?_, h6⟩
  · by_cases hk : k = j
    · subst hk
      simpa using hs
    · simpa [hk] using h1 k
  · intro hd hw hi
    obtain ⟨ht, hr⟩ := h5 hd hw hi
    refine ⟨?_, hr⟩
    by_cases hk : hd.jobId = j
    · rw [hk, setSlot_self]
      exact hlen (hk ▸ ht)
    · rw [setSlot_of_ne _ _ _ _ hk]
      exact ht

theorem set_loop (h : s.Sound) (hl : s.life = .running) {loop : Loop Handler}
    (hf : ∀ hd, loop = .handling hd → hd.hasInserted →
      (s.slots hd.jobId).tasks = [] ∧ (s.store.row hd.jobId).isSome)
    (ha : ∀ hd r, loop = .handling hd → hd.fut = some (.record (some r)) → r.jobId = hd.jobId) :
    (s.setLoop loop).Sound := by
  obtain ⟨h1, h2, h3, h4, h5, h6⟩ := h
  exact ⟨h1, fun hne => absurd hl hne, h3, h4, hf, ha⟩

theorem set_loop_idle (h : s.Sound) (hl : s.life = .running) {loop : Loop Handler}
    (hn : ∀ hd, loop ≠ .handling hd) : (s.setLoop loop).Sound :=
  h.set_loop hl (fun hd he => absurd he (hn hd)) (fun hd _ he => absurd he (hn hd))

end Sound

theorem sound_of_down {s : Agent} (hl : s.life = .down) (hw : s.ws.loop = .connecting)
    (hs : ∀ j, s.slots j = .empty) : s.Sound := by
  constructor
  · intro j; rw [hs j]; exact .empty
  · intro _; exact ⟨hs, hw⟩
  · intro jobIds h; rw [hl] at h; cases h
  · intro records h; rw [hl] at h; cases h
  · intro hd h; rw [hw] at h; cases h
  · intro hd r h; rw [hw] at h; cases h

theorem sound_resumeRows {s : Agent} {records : List PrintJobRecord} (h : s.Sound)
    (hl : s.life = .listing (some records)) :
    Sound { s.resumeJobs (resumable records) with life := .running } := by
  obtain ⟨hslots, hloop⟩ := h.asleep (by simp [hl])
  obtain ⟨hnd, hrow⟩ := h.listed records hl
  have hn : (resumable records).Nodup := hnd.sublist (List.filter_sublist.map _)
  obtain ⟨hst, _, hws, _, _⟩ := s.resumeJobs_fields (resumable records)
  have hidle : ∀ hd, ¬ (s.resumeJobs (resumable records)).ws.loop = .handling hd := fun hd he => by
    rw [hws, hloop] at he
    cases he
  constructor
  · intro j
    show ((s.resumeJobs (resumable records)).slots j).Ok j _
    rw [s.resumeJobs_slots _ hn, hslots j]
    split
    · rename_i hj
      obtain ⟨r, hr, rfl⟩ := List.mem_map.mp hj
      refine Slot.Ok.createTask (Slot.Ok.empty (p := True)) rfl ?_
      show ((s.resumeJobs (resumable records)).store.row r.jobId).isSome
      rw [hst]
      exact hrow r (List.mem_filter.mp hr).1
    · exact .empty
  · intro hne; exact absurd rfl hne
  · intro jobIds he; cases he
  · intro records he; cases he
  · intro hd he; exact absurd he (hidle hd)
  · intro hd _ he; exact absurd he (hidle hd)

theorem sound_handlerCall {s : Agent} {h : Handler} {c : StoreCall} (hs : s.Sound)
    (hw : s.ws.loop = .handling h) (hc : h.pendingStoreCall = some c) (now : String) :
    Sound { s.setLoop (.handling (h.answer (s.store.call now h.jobId c).1)) with
      store := (s.store.call now h.jobId c).2 } := by
  have hl := hs.running_of_loop (by simp [hw])
  have hcall : h.await.storeCall = some c := by
    unfold Handler.pendingStoreCall at hc
    split at hc
    · exact hc
    · cases hc
  have hstore := hs.store_call now h.jobId c
  refine hstore.set_loop hl ?_ ?_
  · intro hd he hi
    cases he
    rcases hi with hi | ⟨d, hd, hans⟩
    · -- a send has no thread call
      have hi' : h.await = .sendReceived := hi
      rw [hi'] at hcall
      cases hcall
    · have hd' : h.await = .insertReceived d := hd
      rw [hd'] at hcall
      cases hcall
      have hans' : (s.store.call now h.jobId (.insertReceived d.newJob)).1 = .inserted true :=
        Option.some.inj hans
      rw [QueueStore.call_answer] at hans'
      have hnone : s.store.row h.jobId = none := by simpa [rowCall] using hans'
      refine ⟨?_, ?_⟩
      · by_contra hne
        have hrow := (hs.slot h.jobId).stored hne
        rw [hnone] at hrow
        cases hrow
      · show ((s.store.call now h.jobId (.insertReceived d.newJob)).2.row h.jobId).isSome
        rw [QueueStore.call_self]
        rfl
  · intro hd r he hr
    cases he
    have hr' : (s.store.call now h.jobId c).1 = .record (some r) := Option.some.inj hr
    rw [QueueStore.call_answer] at hr'
    cases c with
    | get =>
      obtain ⟨row, hrow, rfl⟩ := Option.map_eq_some_iff.mp (Answer.record.inj hr')
      exact QueueStore.row_jobId hrow
    | insertReceived job => cases hr'
    | updateStatus status errorCode errorMessage => cases hr'
    | setLocalFilePath path => cases hr'

theorem sound_resumeHandler {s : Agent} {h : Handler} {ans : Answer} {n : HandlerNext}
    (hs : s.Sound) (hw : s.ws.loop = .handling h) (hf : h.fut = some ans)
    (hr : HandlerFlow h.await ans n) : (s.resumeHandler h n).Sound := by
  have hl := hs.running_of_loop (by simp [hw])
  cases n with
  | await a =>
    have hh : (s.hand (a.event h.jobId)).Sound := hs.of_eq (by simp) (by simp) (by simp) (by simp)
    refine hh.set_loop ((s.hand_life _).trans hl) ?_ (fun hd r he hfut => by cases he; cases hfut)
    intro hd he hi
    cases he
    rcases hi with hi | ⟨d, _, hfut⟩
    · -- the row was inserted in this call of `handle_dispatch`
      have ha : a = .sendReceived := hi
      subst ha
      obtain ⟨⟨d, hd⟩, rfl⟩ := hr.of_sendReceived
      rw [hand_slots, hand_store]
      exact hs.fresh h hw (.inr ⟨d, hd, hf⟩)
    · cases hfut
  | cancelTask =>
    have hslot : (s.setSlot h.jobId ((s.slots h.jobId).cancelTask h.jobId)).Sound := by
      refine hs.set_slot hl (hs.slot h.jobId).cancelTask fun he => ?_
      unfold Slot.cancelTask
      split
      · exact he
      · simp [Slot.setTask, he]
    refine hslot.set_loop hl ?_ (fun hd r he hfut => by cases he; cases hfut)
    intro hd he hi
    cases he
    rcases hi with hi | ⟨d, hd, _⟩
    · cases hi
    · cases hd
  | createTask =>
    obtain ⟨ht, hrow⟩ := hs.fresh h hw (.inl hr.of_createTask)
    have hidle : (s.setLoop .receiving).Sound := hs.set_loop_idle hl fun hd he => by cases he
    constructor
    · intro k
      show ((s.setSlot h.jobId (s.slots h.jobId).createTask).slots k).Ok k _
      by_cases hk : k = h.jobId
      · subst hk
        rw [setSlot_self]
        exact (hs.slot _).createTask ht hrow
      · rw [setSlot_of_ne _ _ _ _ hk]
        exact hs.slot k
    · intro hne; exact absurd hl hne
    · exact hidle.marked
    · exact hidle.listed
    · intro hd he; cases he
    · intro hd r he; cases he
  | ret => exact hs.set_loop_idle hl fun hd he => by cases he

theorem Sound.set_task {s : Agent} {j : String} {i : Nat} {t : Task} (hs : s.Sound)
    (ht : s.task j i = some t) (t' : Task) : (s.setTask j i t').Sound := by
  have hne : (s.slots j).tasks ≠ [] := fun he => by simp [task, he] at ht
  exact hs.set_slot (hs.running_of_task hne) (hs.slot j).setTask fun he => absurd he hne

theorem Sound.sendEnds {s : Agent} (hs : s.Sound) (e : JobEvent) (w : Bool) :
    (s.sendEnds e w).Sound := hs.of_eq rfl rfl rfl (by simp)

theorem Sound.takeLeft {s : Agent} {j : String} {n : Nat} (hs : s.Sound)
    (hn : (s.slots j).leftBehind ≠ []) : (s.takeLeft j n).Sound :=
  hs.set_slot (hs.running_of_leftBehind hn) ((hs.slot j).leftBehind _) id

theorem Sound.starting {s s' : Agent} (hs : s.Sound) (hl : s.life ≠ .running)
    (hslots : s'.slots = s.slots) (hw : s'.ws.loop = s.ws.loop)
    (hmarked : ∀ jobIds, s'.life = .marking (some jobIds) → jobIds.Nodup)
    (hlisted : ∀ records, s'.life = .listing (some records) →
      (records.map (·.jobId)).Nodup ∧ ∀ r ∈ records, (s'.store.row r.jobId).isSome) : s'.Sound := by
  obtain ⟨hempty, hloop⟩ := hs.asleep hl
  have hidle : ∀ hd, s'.ws.loop ≠ .handling hd := fun hd he => by
    rw [hw, hloop] at he
    cases he
  refine ⟨fun j => ?_, fun _ => ?_, hmarked, hlisted, fun hd he => absurd he (hidle hd),
    fun hd _ he => absurd he (hidle hd)⟩
  · rw [hslots, hempty j]
    exact .empty
  · rw [hslots, hw]
    exact ⟨hempty, hloop⟩

theorem sound_step {s s' : Agent} {a : Act} (hs : s.Sound) (hstep : agent.step s a = some s') :
    s'.Sound := by
  have h : s.step a = some s' := hstep
  cases a with
  | boot =>
    simp only [step] at h
    split at h <;> cases h
    rename_i hl
    refine hs.starting (by simp [hl]) rfl rfl ?_ ?_
    · intro jobIds he; cases he
    · intro records he; cases he
  | markStuck now =>
    simp only [step] at h
    split at h <;> cases h
    rename_i hl
    refine hs.starting (by simp [hl]) rfl rfl ?_ ?_
    · intro jobIds he
      cases he
      exact s.store.stuckPrinting_nodup
    · intro records he; cases he
  | handStuck =>
    simp only [step] at h
    split at h <;> cases h
    rename_i hl
    refine hs.starting (by simp [hl]) rfl rfl ?_ ?_
    · intro jobIds he; cases he
    · intro records he; cases he
  | listRows =>
    simp only [step] at h
    split at h <;> cases h
    rename_i hl
    refine hs.starting (by simp [hl]) rfl rfl ?_ ?_
    · intro jobIds he; cases he
    · intro records he
      cases he
      refine ⟨s.store.listNonTerminal_nodup, fun r hr => ?_⟩
      obtain ⟨row, hrow, _⟩ := Option.map_eq_some_iff.mp (QueueStore.mem_listNonTerminal.mp hr).1
      exact Option.isSome_of_eq_some hrow
  | resumeRows =>
    simp only [step] at h
    split at h <;> cases h
    exact sound_resumeRows hs (by assumption)
  | connect =>
    simp only [step] at h
    split at h <;> cases h
    exact hs.set_loop_idle (by assumption) fun hd he => by cases he
  | authenticated =>
    simp only [step] at h
    split at h <;> cases h
    rename_i hw
    have hl := hs.running_of_loop (by simp [hw])
    have hflush : (s.setLoop (.flushing s.ws.durableQueue)).Sound :=
      hs.set_loop_idle hl fun hd he => by cases he
    exact hflush.of_eq rfl rfl rfl rfl
  | flushSend written =>
    simp only [step] at h
    split at h <;> cases h
    rename_i hw
    have hl := hs.running_of_loop (by simp [hw])
    exact (hs.sendEnds _ written).set_loop_idle hl fun hd he => by cases he
  | flushEnd =>
    simp only [step] at h
    split at h <;> cases h
    rename_i hw
    exact hs.set_loop_idle (hs.running_of_loop (by simp [hw])) fun hd he => by cases he
  | synced =>
    simp only [step] at h
    split at h <;> cases h
    rename_i hw
    exact hs.set_loop_idle (hs.running_of_loop (by simp [hw])) fun hd he => by cases he
  | disconnect =>
    simp only [step] at h
    split at h <;> cases h <;> rename_i hw <;>
      exact hs.set_loop_idle (hs.running_of_loop (by simp [hw])) fun hd he => by cases he
  | dispatch message =>
    simp only [step] at h
    split at h <;> cases h
    rename_i hw
    refine hs.set_loop (hs.running_of_loop (by simp [hw])) ?_ ?_
    · intro hd he hi
      cases he
      rcases hi with hi | ⟨d, hd, _⟩
      · cases hi
      · cases hd
    · intro hd r he hfut
      cases he
      cases hfut
  | cancel message =>
    simp only [step] at h
    split at h <;> cases h
    rename_i hw
    have hl := hs.running_of_loop (by simp [hw])
    refine (hs.set_slot (j := message.jobId) hl ((hs.slot _).cancelRequested true) id).set_loop hl ?_ ?_
    · intro hd he hi
      cases he
      rcases hi with hi | ⟨d, hd, _⟩
      · cases hi
      · cases hd
    · intro hd r he hfut
      cases he
      cases hfut
  | handlerCall now =>
    obtain ⟨hd, c, hw, hc, rfl⟩ := of_step_handlerCall h
    exact sound_handlerCall hs hw hc now
  | handlerSend written =>
    obtain ⟨hd, ev, hw, hev, rfl⟩ := of_step_handlerSend h
    have hl := hs.running_of_loop (by simp [hw])
    refine (hs.sendEnds ev written).set_loop hl ?_ ?_
    · intro hd' he hi
      cases he
      rcases hi with hi | ⟨d, _, hfut⟩
      · exact hs.fresh hd hw (.inl hi)
      · cases hfut
    · intro hd' r he hfut
      cases he
      cases hfut
  | handlerResume =>
    obtain ⟨hd, ans, n, hw, hf, hn, rfl⟩ := of_step_handlerResume h
    exact sound_resumeHandler hs hw hf (HandlerAwait.flow_of_resume hn)
  | taskCall j i now =>
    obtain ⟨t, c, ht, hc, rfl⟩ := of_step_taskCall h
    exact (hs.store_call now j c).set_task ht _
  | taskAnswer j i ans =>
    obtain ⟨t, ht, _, _, rfl⟩ := of_step_taskAnswer h
    exact hs.set_task ht _
  | taskSend j i written =>
    obtain ⟨t, ev, ht, _, rfl⟩ := of_step_taskSend h
    exact (hs.sendEnds ev written).set_task ht _
  | taskPrint j i raises =>
    obtain ⟨t, p, ht, _, rfl⟩ := of_step_taskPrint h
    exact (hs.set_task ht _).of_eq rfl rfl rfl rfl
  | taskResume j i pathExists =>
    obtain ⟨t, ans, n, ht, _, _, _, rfl⟩ := of_step_taskResume h
    cases n with
    | await a =>
      exact (hs.set_task ht (.goTo j s.ws.socket a)).of_eq (hand_slots _ _) (hand_store _ _)
        (hand_life _ _) (hand_loop _ _)
    | ret inTry =>
      have hne : (s.slots j).tasks ≠ [] := fun he => by simp [task, he] at ht
      exact hs.set_slot (hs.running_of_task hne) (hs.slot j).endTask fun he => absurd he hne
  | taskThrow j i =>
    obtain ⟨t, ht, _, _, rfl⟩ := of_step_taskThrow h
    have hne : (s.slots j).tasks ≠ [] := fun he => by simp [task, he] at ht
    exact hs.set_slot (hs.running_of_task hne) (hs.slot j).endTask fun he => absurd he hne
  | leftCall j n now =>
    obtain ⟨c, hc, rfl⟩ := of_step_leftCall h
    have hne : (s.slots j).leftBehind ≠ [] := fun he => by simp [he] at hc
    exact (hs.store_call now j c).takeLeft hne
  | leftPrint j n =>
    obtain ⟨p, hp, rfl⟩ := of_step_leftPrint h
    have hne : (s.slots j).leftBehind ≠ [] := fun he => by simp [he] at hp
    exact (hs.takeLeft (n := n) hne).of_eq rfl rfl rfl rfl
  | leftDrop j n =>
    obtain ⟨hn, rfl⟩ := of_step_leftDrop h
    have hne : (s.slots j).leftBehind ≠ [] := fun he => by simp [he] at hn
    exact hs.takeLeft hne
  | crash =>
    cases h
    exact sound_of_down rfl rfl fun _ => rfl

theorem sound_of_reach {s : Agent} (h : agent.Reach Machine.Any s) : s.Sound :=
  h.invariant (sound_of_down rfl rfl fun _ => rfl) fun _ _ _ _ hs _ hstep => sound_step hs hstep

end Agent

end PrintAgent
