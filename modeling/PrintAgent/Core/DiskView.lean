import PrintAgent.Core.Base
import PrintAgent.Core.Disk

/-!
# The agent and its files refine the view of a job

`disk_shows`: where the ids in the queue are plain, every step of the agent with its files, seen by a job
with a plain id, is a step of `JobDisk.Step`, or leaves what the job sees alone.  `agent_of_reach` and
`plainRows` say that the agent is as in a run of its own, and that the ids are plain if those of the
dispatches are.
-/

namespace PrintAgent

/-! ## the agent and its files, seen by a job -/

def Disk.PlainRows (s : Disk) : Prop :=
  ∀ k row, s.agent.store.row k = some row → isPlainId k = true

namespace Disk

section Steps
variable {s : Disk} {agent : Agent} {j : String} {a : Act}

theorem fits_view (hs : s.agent.Sound) (hstep : s.agent.step a = some agent) (hfits : s.fits a = true)
    {b : JobAct} (hb : s.agent.seen j a = some b) : (s.view j).fits b = true := by
  cases b with
  | taskAnswer ans =>
    obtain ⟨i, rfl⟩ := Agent.taskAnswer_of_seen hb
    obtain ⟨t, ht, -⟩ := Agent.of_step_taskAnswer hstep
    rw [fits, ht] at hfits
    show (!(s.agent.view j).task.any _) = true
    rw [(Agent.view_task hs ht).1]
    exact hfits
  | taskResume pathExists socket =>
    obtain ⟨i, rfl⟩ := Agent.taskResume_of_seen hb
    obtain ⟨t, -, -, ht, -⟩ := Agent.of_step_taskResume hstep
    rw [fits, ht] at hfits
    show ((s.agent.view j).task.bind Task.recorded).all _ = true
    rw [(Agent.view_task hs ht).1]
    exact hfits
  | _ => rfl

theorem downloadsAfter_view (hs : s.agent.Sound) (hstep : s.agent.step a = some agent) :
    s.downloadsAfter agent a (j, 0)
      = (s.agent.seen j a).elim (s.downloads (j, 0)) ((s.view j).downloadAfter (agent.view j)) := by
  cases a with
  | taskResume k i pathExists =>
    obtain ⟨t, -, -, ht, -⟩ := Agent.of_step_taskResume hstep
    obtain ⟨rfl, htasks⟩ := (hs.slot k).index ht
    by_cases hk : k = j
    · subst hk
      have htask : agent.task k 0 = (agent.view k).task := List.head?_eq_getElem?.symm
      simp only [downloadsAfter, Agent.seen, if_pos, Option.elim, JobDisk.downloadAfter, htask]
      split
      · exact Function.update_self ..
      · rfl
    · have hne : (j, 0) ≠ (k, 0) := fun he => hk (Prod.mk.inj he).1.symm
      simp only [downloadsAfter, Agent.seen, if_neg hk, Option.elim]
      split
      · exact Function.update_of_ne hne ..
      · rfl
  | taskThrow k i =>
    obtain ⟨t, ht, -⟩ := Agent.of_step_taskThrow hstep
    obtain ⟨rfl, -⟩ := (hs.slot k).index ht
    by_cases hk : k = j
    · subst hk
      simp only [downloadsAfter, Agent.seen, if_pos, Option.elim, JobDisk.downloadAfter]
      exact Function.update_self ..
    · have hne : (j, 0) ≠ (k, 0) := fun he => hk (Prod.mk.inj he).1.symm
      simp only [downloadsAfter, Agent.seen, if_neg hk, Option.elim]
      exact Function.update_of_ne hne ..
  | _ =>
    simp only [downloadsAfter, Agent.seen]
    first
      | rfl
      | (split <;> rfl)
      | (cases s.agent.handlerOf j <;> rfl)

theorem printOf_view (hs : s.agent.Sound) (hstep : s.agent.step a = some agent) :
    ((s.agent.printOf a).toList.map (contentOf s.files)).filter (·.1.jobId = j)
      = (((s.agent.seen j a).bind (JobDisk.printOf j (s.agent.view j))).toList.map
          (contentOf s.files)) := by
  cases a with
  | taskPrint k i raises =>
    obtain ⟨t, p, ht, hp, -⟩ := Agent.of_step_taskPrint hstep
    have hjob : p.jobId = k := Task.pendingPrint_jobId hp
    have hprint : s.agent.printOf (.taskPrint k i raises) = some p := by
      rw [Agent.printOf, ht]
      exact hp
    rw [hprint]
    by_cases hk : k = j
    · subst hk
      simp only [Agent.seen, if_pos, Option.bind_some, JobDisk.printOf, (Agent.view_task hs ht).1, hp]
      simp [contentOf, hjob]
    · simp [Agent.seen, hk, contentOf, hjob]
  | leftPrint k n =>
    obtain ⟨p, hn, -⟩ := Agent.of_step_leftPrint hstep
    have hjob : p.jobId = k := (hs.slot k).left p (List.mem_of_getElem? hn)
    have hprint : s.agent.printOf (.leftPrint k n) = some p := by rw [Agent.printOf, hn]
    rw [hprint]
    by_cases hk : k = j
    · subst hk
      have hleft : (s.agent.view k).leftBehind[n]? = some (.print p) := hn
      simp only [Agent.seen, if_pos, Option.bind_some, JobDisk.printOf, hleft]
      simp [contentOf, hjob]
    · simp [Agent.seen, hk, contentOf, hjob]
  | _ =>
    simp only [Agent.printOf, Agent.seen]
    first
      | rfl
      | (split <;> rfl)
      | (cases s.agent.handlerOf j <;> rfl)

end Steps

section Downloads
variable {c : DownloadSettings} {s s' s'' : Disk} {j k : String} {i : Nat} {record : PrintJobRecord}
  {d : Download} {ans : Answer} {t : Task}

theorem of_reading (h : s.reading k i = some (record, d)) :
    ∃ t, s.agent.task k i = some t ∧ t.await = .download record ∧ t.isWaiting = true ∧
      s.downloads (k, i) = some d := by
  obtain ⟨t, ht, h⟩ := Option.bind_eq_some_iff.mp h
  obtain ⟨d', hd, h⟩ := Option.bind_eq_some_iff.mp h
  split at h
  · rename_i record' hawait
    split at h
    · rename_i hwait
      cases h
      exact ⟨t, ht, hawait, hwait, hd⟩
    · cases h
  · cases h

theorem reading_view (hs : s.agent.Sound) (h : s.reading j i = some (record, d)) :
    i = 0 ∧ ∃ t, s.agent.task j 0 = some t ∧ (s.view j).Reading t record d := by
  obtain ⟨t, ht, hawait, hwait, hd⟩ := of_reading h
  obtain ⟨htask, rfl⟩ := Agent.view_task hs ht
  exact ⟨rfl, t, ht, htask, hawait, hwait, hd⟩

theorem view_setDownload (s : Disk) (j : String) (d : Download) :
    (s.setDownload j 0 d).view j = { s.view j with download := some d } := by
  simp [view, setDownload]

theorem view_write (s : Disk) (j path : String) (linked : Bool) (document : Document) :
    (s.write path linked document).view j = (s.view j).write path linked document := by
  cases linked <;> rfl

theorem view_addFetch (s : Disk) (f : Fetch) :
    (s.addFetch f).view f.jobId = (s.view f.jobId).addFetches [f] := by
  simp [view, addFetch, JobDisk.addFetches]

theorem view_answer (hs : s.agent.Sound) (ht : s.agent.task j 0 = some t)
    (h : s.answer j 0 ans = some s') : s'.view j = (s.view j).answer t ans := by
  obtain ⟨agent, hstep, h⟩ := Option.bind_eq_some_iff.mp h
  cases h
  obtain ⟨t', ht', -, -, rfl⟩ := Agent.of_step_taskAnswer hstep
  rw [ht] at ht'
  cases ht'
  simp only [view, JobDisk.answer, Agent.view_taskAnswer hs ht]
  simp

structure Elsewhere (c : DownloadSettings) (j : String) (s s' : Disk) : Prop where
  view : s'.view j = { s.view j with files := s'.files }
  file : s'.files (c.path j) = s.files (c.path j)

theorem Elsewhere.trans (h : Elsewhere c j s s') (h' : Elsewhere c j s' s'') : Elsewhere c j s s'' where
  view := by rw [h'.view, h.view]
  file := h'.file.trans h.file

theorem Elsewhere.step (h : Elsewhere c j s s') : JobDisk.Step c j (s.view j) .other (s'.view j) := by
  rw [h.view]
  exact .other s'.files h.file

theorem elsewhere_setDownload (hk : k ≠ j) (d : Download) : Elsewhere c j s (s.setDownload k i d) where
  view := by
    have hne : (j, 0) ≠ (k, i) := fun he => hk (Prod.mk.inj he).1.symm
    simp [Disk.view, setDownload, Function.update_of_ne hne]
  file := rfl

theorem elsewhere_write {path : String} (hp : c.path j ≠ path) (linked : Bool) (document : Document) :
    Elsewhere c j s (s.write path linked document) where
  view := by cases linked <;> rfl
  file := by
    cases linked with
    | false => rfl
    | true => exact Function.update_of_ne hp ..

theorem elsewhere_addFetch {f : Fetch} (hk : f.jobId ≠ j) : Elsewhere c j s (s.addFetch f) where
  view := by simp [Disk.view, addFetch, hk]
  file := rfl

theorem elsewhere_answer (hs : s.agent.Sound) (hk : k ≠ j) (h : s.answer k i ans = some s') :
    Elsewhere c j s s' := by
  obtain ⟨agent, hstep, h⟩ := Option.bind_eq_some_iff.mp h
  cases h
  have hne : (j, 0) ≠ (k, i) := fun he => hk (Prod.mk.inj he).1.symm
  have hshow := Agent.agent_shows j s.agent (.taskAnswer k i ans) agent hs hstep
  rw [show s.agent.seen j (.taskAnswer k i ans) = none from if_neg hk] at hshow
  have hview : agent.view j = s.agent.view j := hshow
  exact ⟨by simp [Disk.view, hview, Function.update_of_ne hne], rfl⟩

end Downloads

theorem agent_step {c : DownloadSettings} {s s' : Disk} {j : String} {a : Act}
    (hr : PrintAgent.agent.Reach Machine.Any s.agent) (h : s.step c (.agent a) = some s') :
    (s.agent.seen j a = none ∧ s'.view j = s.view j) ∨
      ∃ b, s.agent.seen j a = some b ∧ JobDisk.Step c j (s.view j) (.job b) (s'.view j) := by
  have hs := Agent.sound_of_reach hr
  simp only [Disk.step] at h
  split at h
  · rename_i hfits
    obtain ⟨agent, hstep, rfl⟩ := Option.map_eq_some_iff.mp h
    have hdownload := downloadsAfter_view (j := j) hs hstep
    have hprinted := printOf_view (j := j) hs hstep
    rcases Agent.seen_step hr hstep with ⟨hview, hnone⟩ | ⟨b, hb, -, -, hjob⟩
    · left
      rw [hnone] at hdownload hprinted
      refine ⟨hnone, ?_⟩
      simp only [view, hview, hdownload, List.filter_append, hprinted]
      simp
    · right
      rw [hb] at hdownload hprinted
      have hview : ({ s with
          agent := agent
          downloads := s.downloadsAfter agent a
          printed := s.printed ++ (s.agent.printOf a).toList.map (contentOf s.files) } : Disk).view j
          = (s.view j).after j b (agent.view j) := by
        simp only [view, hdownload, List.filter_append, hprinted]
        rfl
      rw [hview]
      exact ⟨b, hb, .job hjob (fits_view hs hstep hfits hb)⟩
  · cases h

def downloadOf : DiskAct → Option String
  | .request k _ _ | .response k _ _ | .chunk k _ _ | .finish k _ | .httpxError k _ _ _
  | .raises k _ _ => some k
  | .agent _ | .delete _ => none

section DownloadSteps
variable {c : DownloadSettings} {s s' : Disk} {j k : String} {a : DiskAct}

/-- the file of a job with a task is not that of another job -/
theorem path_ne (hs : s.agent.Sound) (hplain : s.PlainRows) (hj : isPlainId j = true) (hk : k ≠ j)
    {i : Nat} {t : Task} (ht : s.agent.task k i = some t) : c.path j ≠ c.path k := by
  intro he
  have hrow : (s.agent.store.row k).isSome = true :=
    (hs.slot k).stored (List.ne_nil_of_mem (List.mem_of_getElem? ht))
  obtain ⟨row, hrow⟩ := Option.isSome_iff_exists.mp hrow
  exact hk (documentPath_injective hj (hplain k row hrow) he).symm

theorem elsewhere_step (hs : s.agent.Sound) (hplain : s.PlainRows) (hj : isPlainId j = true)
    (ha : downloadOf a = some k) (hk : k ≠ j) (h : s.step c a = some s') : Elsewhere c j s s' := by
  cases a with
  | agent => cases ha
  | delete => cases ha
  | request k i message =>
    cases ha
    obtain ⟨⟨record, d⟩, -, h⟩ := Option.bind_eq_some_iff.mp h
    simp only at h
    split at h
    · cases h
      exact elsewhere_setDownload hk _
    · exact elsewhere_answer hs hk h
    · cases h
  | response k i response =>
    cases ha
    obtain ⟨⟨record, d⟩, hread, h⟩ := Option.bind_eq_some_iff.mp h
    obtain ⟨t, ht, -⟩ := of_reading hread
    simp only at h
    split at h
    · cases h
      exact (elsewhere_write (path_ne hs hplain hj hk ht) _ _).trans (elsewhere_setDownload hk _)
    · exact elsewhere_answer hs hk h
    · cases h
  | chunk k i bytes =>
    cases ha
    obtain ⟨⟨record, d⟩, hread, h⟩ := Option.bind_eq_some_iff.mp h
    obtain ⟨t, ht, -⟩ := of_reading hread
    simp only at h
    split at h
    · split at h
      · cases h
        exact (elsewhere_write (path_ne hs hplain hj hk ht) _ _).trans (elsewhere_setDownload hk _)
      · exact elsewhere_answer hs hk h
    · cases h
  | finish k i =>
    cases ha
    obtain ⟨⟨record, d⟩, hread, h⟩ := Option.bind_eq_some_iff.mp h
    obtain ⟨t, ht, -⟩ := of_reading hread
    simp only at h
    split at h
    · rename_i request response body linked
      have hfetch : Elsewhere c j s (s.addFetch ⟨k, request, response, body⟩) := elsewhere_addFetch hk
      split at h
      · have hwrite := elsewhere_write (s := s.addFetch ⟨k, request, response, body⟩)
          (path_ne (c := c) hs hplain hj hk ht) linked ⟨body, true⟩
        have hs' : ((s.addFetch ⟨k, request, response, body⟩).write (c.path k) linked
            ⟨body, true⟩).agent.Sound := by cases linked <;> exact hs
        exact (hfetch.trans hwrite).trans (elsewhere_answer hs' hk h)
      · exact hfetch.trans (elsewhere_answer hs hk h)
    · cases h
  | httpxError k i e error =>
    cases ha
    obtain ⟨⟨record, d⟩, -, h⟩ := Option.bind_eq_some_iff.mp h
    simp only at h
    split at h
    · cases h
    · exact elsewhere_answer hs hk h
  | raises k i message =>
    cases ha
    obtain ⟨⟨record, d⟩, -, h⟩ := Option.bind_eq_some_iff.mp h
    simp only at h
    split at h
    · cases h
    · exact elsewhere_answer hs hk h

theorem failed_step {t : Task} {record : PrintJobRecord} {d : Download} {ans : Answer}
    (hs : s.agent.Sound) (ht : s.agent.task j 0 = some t) (hr : (s.view j).Reading t record d)
    (hans : ∀ path, ans ≠ .downloaded path) (h : s.answer j 0 ans = some s') :
    JobDisk.Step c j (s.view j) .download (s'.view j) := by
  have hfail : JobDisk.Step c j (s.view j) .download (((s.view j).addFetches []).answer t ans) :=
    .failed [] hr hans (.inl rfl)
  rw [view_answer hs ht h]
  have hnone : (s.view j).addFetches [] = s.view j := by
    rw [JobDisk.addFetches, List.append_nil]
  rw [hnone] at hfail
  exact hfail

theorem download_step (hs : s.agent.Sound) (ha : downloadOf a = some j) (h : s.step c a = some s') :
    JobDisk.Step c j (s.view j) .download (s'.view j) := by
  cases a with
  | agent => cases ha
  | delete => cases ha
  | request k i message =>
    cases ha
    obtain ⟨⟨record, d⟩, hread, h⟩ := Option.bind_eq_some_iff.mp h
    obtain ⟨rfl, t, ht, hr⟩ := reading_view hs hread
    simp only at h
    split at h
    · rename_i request hreq
      cases h
      rw [view_setDownload]
      exact .requested hr hreq
    · rename_i e he
      refine failed_step hs ht hr (fun path => ?_) h
      cases e.errorCode <;> exact fun h => by cases h
    · cases h
  | response k i response =>
    cases ha
    obtain ⟨⟨record, d⟩, hread, h⟩ := Option.bind_eq_some_iff.mp h
    obtain ⟨rfl, t, ht, hr⟩ := reading_view hs hread
    simp only at h
    split at h
    · rename_i request _ hcheck
      cases h
      rw [view_setDownload, view_write]
      exact .opened hr hcheck
    · exact failed_step hs ht hr (fun path h => by cases h) h
    · cases h
  | chunk k i bytes =>
    cases ha
    obtain ⟨⟨record, d⟩, hread, h⟩ := Option.bind_eq_some_iff.mp h
    obtain ⟨rfl, t, ht, hr⟩ := reading_view hs hread
    simp only at h
    split at h
    · rename_i request response body linked
      split at h
      · rename_i hcheck
        cases h
        rw [view_setDownload, view_write]
        exact .received hr hcheck
      · exact failed_step hs ht hr (fun path h => by cases h) h
    · cases h
  | finish k i =>
    cases ha
    obtain ⟨⟨record, d⟩, hread, h⟩ := Option.bind_eq_some_iff.mp h
    obtain ⟨rfl, t, ht, hr⟩ := reading_view hs hread
    simp only at h
    split at h
    · rename_i request response body linked
      split at h
      · rename_i hcheck
        have hs' : ((s.addFetch ⟨j, request, response, body⟩).write (c.path j) linked
            ⟨body, true⟩).agent.Sound := by cases linked <;> exact hs
        have ht' : ((s.addFetch ⟨j, request, response, body⟩).write (c.path j) linked
            ⟨body, true⟩).agent.task j 0 = some t := by cases linked <;> exact ht
        rw [view_answer hs' ht' h, view_write, view_addFetch s ⟨j, request, response, body⟩]
        exact .ended hr hcheck
      · rw [view_answer (s := s.addFetch ⟨j, request, response, body⟩) hs ht h,
          view_addFetch s ⟨j, request, response, body⟩]
        exact .failed _ hr (fun path h => by cases h) (.inr ⟨request, response, body, linked, rfl, rfl⟩)
    · cases h
  | httpxError k i e error =>
    cases ha
    obtain ⟨⟨record, d⟩, hread, h⟩ := Option.bind_eq_some_iff.mp h
    obtain ⟨rfl, t, ht, hr⟩ := reading_view hs hread
    simp only at h
    split at h
    · cases h
    · exact failed_step hs ht hr (fun path h => by cases h) h
  | raises k i message =>
    cases ha
    obtain ⟨⟨record, d⟩, hread, h⟩ := Option.bind_eq_some_iff.mp h
    obtain ⟨rfl, t, ht, hr⟩ := reading_view hs hread
    simp only at h
    split at h
    · cases h
    · exact failed_step hs ht hr (fun path h => by cases h) h

end DownloadSteps

/-- **The agent and its files, seen by a job.** -/
theorem disk_shows (c : DownloadSettings) {j : String} (hj : isPlainId j = true) :
    (disk c).Shows (fun s => PrintAgent.agent.Reach Machine.Any s.agent ∧ s.PlainRows) (view j) (seen j)
      fun x b y => (x.job.Fit ∧ x.job.Base) ∧ JobDisk.Step c j x b y := by
  refine Machine.Shows.with (fun s a s' hs h => ?_)
    fun s hs => ⟨(Agent.sound_of_reach hs.1).fit j, Agent.base_of_reach hs.1⟩
  have h : s.step c a = some s' := h
  have hsound := Agent.sound_of_reach hs.1
  have hdownload : ∀ k, downloadOf a = some k →
      JobDisk.Step c j (s.view j) (if k = j then .download else .other) (s'.view j) := by
    intro k hk
    split
    · rename_i he
      subst he
      exact download_step hsound hk h
    · rename_i hne
      exact (elsewhere_step hsound hs.2 hj hk hne h).step
  cases a with
  | agent b =>
    rcases agent_step (j := j) hs.1 h with ⟨hnone, hview⟩ | ⟨b', hb, hstep⟩
    · rw [seen, hnone]
      exact hview
    · rw [seen, hb]
      exact hstep
  | delete path =>
    cases h
    exact .deleted path
  | request k i message => exact hdownload k rfl
  | response k i response => exact hdownload k rfl
  | chunk k i bytes => exact hdownload k rfl
  | finish k i => exact hdownload k rfl
  | httpxError k i e error => exact hdownload k rfl
  | raises k i message => exact hdownload k rfl

end Disk

/-! ## the agent in a run with its files -/

def Act.hasPlainId : Act → Bool
  | .dispatch message => isPlainId message.jobId
  | _ => true

def DiskAct.hasPlainId : DiskAct → Bool
  | .agent a => a.hasPlainId
  | _ => true

namespace Disk
variable {c : DownloadSettings} {C : Disk → DiskAct → Prop} {s s' : Disk} {a : DiskAct}

theorem agent_of_step (h : s.step c a = some s') :
    s'.agent = s.agent ∨ ∃ b, s.agent.step b = some s'.agent ∧ (a.hasPlainId = true → b.hasPlainId = true) := by
  have hanswer : ∀ {s : Disk} {k i ans}, s.answer k i ans = some s' →
      ∃ b, s.agent.step b = some s'.agent ∧ (a.hasPlainId = true → b.hasPlainId = true) := by
    intro s k i ans h
    obtain ⟨agent, hstep, h⟩ := Option.bind_eq_some_iff.mp h
    cases h
    exact ⟨.taskAnswer k i ans, hstep, fun _ => rfl⟩
  have hwrite : ∀ (s : Disk) (path : String) (linked : Bool) (document : Document),
      (s.write path linked document).agent = s.agent := by
    intro s path linked document
    cases linked <;> rfl
  cases a with
  | agent b =>
    simp only [step] at h
    split at h
    · obtain ⟨agent, hstep, rfl⟩ := Option.map_eq_some_iff.mp h
      exact .inr ⟨b, hstep, fun hp => hp⟩
    · cases h
  | delete path =>
    cases h
    exact .inl rfl
  | request k i message =>
    obtain ⟨⟨record, d⟩, -, h⟩ := Option.bind_eq_some_iff.mp h
    simp only at h
    split at h
    · cases h
      exact .inl rfl
    · exact .inr (hanswer h)
    · cases h
  | response k i response =>
    obtain ⟨⟨record, d⟩, -, h⟩ := Option.bind_eq_some_iff.mp h
    simp only at h
    split at h
    · cases h
      exact .inl (hwrite ..)
    · exact .inr (hanswer h)
    · cases h
  | chunk k i bytes =>
    obtain ⟨⟨record, d⟩, -, h⟩ := Option.bind_eq_some_iff.mp h
    simp only at h
    split at h
    · split at h
      · cases h
        exact .inl (hwrite ..)
      · exact .inr (hanswer h)
    · cases h
  | finish k i =>
    obtain ⟨⟨record, d⟩, -, h⟩ := Option.bind_eq_some_iff.mp h
    simp only at h
    split at h
    · split at h
      · obtain ⟨b, hb, hplain⟩ := hanswer h
        rw [hwrite] at hb
        exact .inr ⟨b, hb, hplain⟩
      · obtain ⟨b, hb, hplain⟩ := hanswer h
        exact .inr ⟨b, hb, hplain⟩
    · cases h
  | httpxError k i e error =>
    obtain ⟨⟨record, d⟩, -, h⟩ := Option.bind_eq_some_iff.mp h
    simp only at h
    split at h
    · cases h
    · exact .inr (hanswer h)
  | raises k i message =>
    obtain ⟨⟨record, d⟩, -, h⟩ := Option.bind_eq_some_iff.mp h
    simp only at h
    split at h
    · cases h
    · exact .inr (hanswer h)

theorem agent_of_reach (hC : ∀ s a, C s a → a.hasPlainId = true) (h : (disk c).Reach C s) :
    PrintAgent.agent.Reach (fun _ b => b.hasPlainId = true) s.agent :=
  h.invariant (I := fun s => PrintAgent.agent.Reach (fun _ b => b.hasPlainId = true) s.agent) .init
    fun s a s' _ hs ok hstep => by
      rcases agent_of_step hstep with he | ⟨b, hb, hplain⟩
      · rw [he]
        exact hs
      · exact hs.step (hplain (hC s a ok)) hb

end Disk

/-- the job has a plain id if it has a row, or a `handle_dispatch` for it has begun -/
structure Job.PlainIfKnown (jobId : String) (x : Job) : Prop where
  row : ∀ st, x.status = some st → isPlainId jobId = true
  handler : ∀ h d, x.handler = some h → h.await = .getExisting d ∨ h.await = .insertReceived d →
    isPlainId jobId = true

theorem Job.plainIfKnown_step {jobId : String} {x y : Job} {b : JobAct} (hb : x.Base)
    (hx : x.PlainIfKnown jobId) (hplain : ∀ message, b = .dispatch message → isPlainId jobId = true)
    (hs : Job.Step jobId x b y) : y.PlainIfKnown jobId where
  row st hst := by
    have hstatus := status_step hs hb.leftCall
    rw [hst] at hstatus
    cases hstatus with
    | same he => exact hx.row st he.symm
    | inserted now hh hf ha hr => exact hx.handler _ _ hh (.inr ha)
    | restarted now hl hst' => exact hx.row _ hst'
    | cancelled now hh hf ha hst' => exact hx.row _ hst'
    | worked now ht hl hf hc hw hst' => exact hx.row _ hst'
    | left now hn hw hst' => exact hx.row _ hst'
  handler h d hh ha := by
    have hhandler := handler_step hs
    rw [hh] at hhandler
    cases hhandler with
    | same hno he => exact hx.handler h d he.symm ha
    | dispatch message hn => exact hplain message rfl
    | cancel hn => rcases ha with ha | ha <;> cases ha
    | called now hh' hf hc => exact hx.handler _ d hh' ha
    | sent hh' hf he => exact hx.handler _ d hh' ha
    | went hh' hfut hflow =>
      generalize hw : Handler.await _ = await at hflow
      cases hflow with
      | insert dispatch => exact hx.handler _ _ hh' (.inl hw)
      | inserted dispatch => rcases ha with ha | ha <;> cases ha
      | raced dispatch => rcases ha with ha | ha <;> cases ha
      | resend => rcases ha with ha | ha <;> cases ha
      | cancelled => rcases ha with ha | ha <;> cases ha
    | cancelling hh' ha' hfut hr => rcases ha with ha | ha <;> cases ha

theorem Agent.plainIfKnown {s : Agent} (h : agent.Reach (fun _ a => a.hasPlainId = true) s)
    (j : String) : (s.view j).PlainIfKnown j := by
  refine job_invariant (D := fun _ b => ∀ message, b = .dispatch message → isPlainId j = true)
    ⟨fun st h => (by cases h), fun h d hh => (by cases hh)⟩
    (fun x b y _ hb hx hD hs => Job.plainIfKnown_step hb hx hD hs) ?_ h
  intro s a ha b hb message he
  subst he
  cases a with
  | dispatch m =>
    simp only [seen] at hb
    split at hb
    · rename_i hm
      rw [← hm]
      exact ha
    · cases hb
  | _ =>
    simp only [seen] at hb
    first
      | cases hb
      | (split at hb <;> cases hb)
      | (obtain ⟨_, -, he⟩ := Option.map_eq_some_iff.mp hb; cases he)

theorem Disk.plainRows {c : DownloadSettings} {C : Disk → DiskAct → Prop} {s : Disk}
    (hC : ∀ s a, C s a → a.hasPlainId = true) (h : (disk c).Reach C s) : s.PlainRows := by
  intro k row hrow
  have hknown := Agent.plainIfKnown (agent_of_reach hC h) k
  exact hknown.row row.status (Job.status_eq_some.mpr ⟨row, hrow, rfl⟩)

end PrintAgent
