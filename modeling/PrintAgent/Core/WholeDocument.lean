import PrintAgent.Core.DiskView

/-!
# What is printed is the document

* `keepsDocument`     the condition: the process does not crash while a job that will be resumed has an
                      unfinished file under its recorded path, and nobody deletes a file while its job
                      writes it or is about to print it;
* `JobDisk.Kept`      the invariant: a file that came to its end holds the body of a fetch, and the path
                      that a task goes on with is that of such a file;
* `printed_documents` under the condition each print call finds the document in the file it is given;
* `printed_partial`   a download in the place of a deleted file, cut off by a crash, and printed.
-/

namespace PrintAgent

open PyJson (Str)
open PyUrl (Unicode)

/-! ## the locals of `_process` -/

/-- what becomes of the locals from one await to the next -/
inductive LocalsStep (pathExists : Bool) : Await → Answer → Await → Prop
  | started (ans : Answer) : LocalsStep pathExists .start ans .get
  | missing (record : PrintJobRecord) :
      LocalsStep pathExists .get (.record (some record)) (.download record)
  /-- the file under the recorded path is there -/
  | found {record : PrintJobRecord} {path : String} (hp : record.localFilePath = some path)
      (he : pathExists = true) :
      LocalsStep pathExists .get (.record (some record)) (.getStatus record path)
  | downloaded (record : PrintJobRecord) (path : String) :
      LocalsStep pathExists (.download record) (.downloaded path) (.setLocalFilePath record path)
  | kept {a b : Await} {held : PrintJobRecord × String} (ans : Answer) (ha : a.locals = some held)
      (hb : b.locals = some held) (hno : ∀ record path, a ≠ .print record path) :
      LocalsStep pathExists a ans b
  | failed (a : Await) (ans : Answer) (errorCode message : String) :
      LocalsStep pathExists a ans (.setFailed errorCode message)
  | printed (a : Await) (ans : Answer) : LocalsStep pathExists a ans .setCompleted
  | completed (a : Await) (ans : Answer) : LocalsStep pathExists a ans .sendCompleted
  | reported (a : Await) (ans : Answer) (errorCode message : String) :
      LocalsStep pathExists a ans (.sendFailed errorCode message)

namespace Await

theorem locals_of_resume {a b : Await} {cr e : Bool} {ans : Answer}
    (h : a.resume cr e ans = some (.await b)) : LocalsStep e a ans b := by
  unfold resume at h
  split at h
  case h_1 => cases h; exact .started _
  case h_2 => cases h
  case h_3 =>
    rename_i record
    split at h
    · cases h; exact .missing record
    · rename_i path hpath
      split at h
      · cases h; exact .missing record
      · rename_i hno
        rw [waitForPrinter_await (Option.some.inj h)]
        exact .found hpath (by simpa using (not_or.mp hno).2)
  case h_4 record path => cases h; exact .downloaded record path
  case h_5 => cases h; exact .failed _ _ _ _
  case h_6 => cases h
  case h_7 => rw [waitForPrinter_await (Option.some.inj h)]; exact .kept _ rfl rfl fun _ _ he => by cases he
  case h_8 => rw [(printerOnline_await (Option.some.inj h)).2]; exact .kept _ rfl rfl fun _ _ he => by cases he
  case h_9 => cases h; exact .kept _ rfl rfl fun _ _ he => by cases he
  case h_10 => cases h
  case h_11 =>
    rcases pollLoop_await (Option.some.inj h) with rfl | ⟨_, _, rfl⟩
    · exact .kept _ rfl rfl fun _ _ he => by cases he
    · exact .failed _ _ _ _
  case h_12 => cases h; exact .kept _ rfl rfl fun _ _ he => by cases he
  case h_13 => rw [(printerOnline_await (Option.some.inj h)).2]; exact .kept _ rfl rfl fun _ _ he => by cases he
  case h_14 =>
    rcases pollLoop_await (Option.some.inj h) with rfl | ⟨_, _, rfl⟩
    · exact .kept _ rfl rfl fun _ _ he => by cases he
    · exact .failed _ _ _ _
  case h_15 => cases h
  case h_16 => cases h; exact .kept _ rfl rfl fun _ _ he => by cases he
  case h_17 => cases h; exact .kept _ rfl rfl fun _ _ he => by cases he
  case h_18 => cases h; exact .printed _ _
  case h_19 => cases h; exact .failed _ _ _ _
  case h_20 => cases h; exact .completed _ _
  case h_21 => cases h
  case h_22 => cases h; exact .reported _ _ _ _
  case h_23 => cases h
  case h_24 => cases h

end Await

namespace Task

/-- the record that the task holds, once it is read -/
def record (t : Task) : Option PrintJobRecord :=
  match t.await, t.fut with
  | .get, some (.record record) => record
  | a, _ => a.record

def path (t : Task) : Option String :=
  match t.await, t.fut with
  | .download _, some (.downloaded path) => some path
  | .print _ _, some _ => none
  | a, _ => a.locals.map Prod.snd

section
variable {t : Task} {jobId p : String} {socket e : Bool} {a : Await} {ans : Answer} {r : PrintJobRecord}
  {held : PrintJobRecord × String}

theorem record_of_held (h : t.await.locals = some held) : t.record = some held.1 := by
  obtain ⟨await, fut, cancelled⟩ := t
  have h : await.locals = some held := h
  cases await <;> first | cases h; done | (cases h; rfl)

theorem path_of_held (h : t.await.locals = some held) (hno : ∀ record path, t.await ≠ .print record path) :
    t.path = some held.2 := by
  obtain ⟨await, fut, cancelled⟩ := t
  have h : await.locals = some held := h
  cases await <;> first | cases h; done | exact absurd rfl (hno _ _) | (cases h; rfl)

theorem record_of_locals (h : LocalsStep e t.await ans a) (hfut : t.fut = some ans)
    (hr : (Task.goTo jobId socket a).record = some r) : t.record = some r := by
  obtain ⟨await, fut, cancelled⟩ := t
  have hfut : fut = some ans := hfut
  subst hfut
  have h : LocalsStep e await ans a := h
  cases h with
  | started => cases hr
  | missing record => exact hr
  | found hp he => exact hr
  | downloaded record path => exact hr
  | kept ans ha hb hno =>
    rw [record_of_held (t := .goTo jobId socket a) hb] at hr
    rw [record_of_held (t := ⟨await, some ans, cancelled⟩) ha]
    exact hr
  | failed => cases hr
  | printed => cases hr
  | completed => cases hr
  | reported => cases hr

theorem path_of_locals (h : LocalsStep e t.await ans a) (hfut : t.fut = some ans)
    (hp : (Task.goTo jobId socket a).path = some p) :
    t.path = some p ∨ e = true ∧ t.await = .get ∧
      ∃ record, ans = .record (some record) ∧ record.localFilePath = some p := by
  obtain ⟨await, fut, cancelled⟩ := t
  have hfut : fut = some ans := hfut
  subst hfut
  have h : LocalsStep e await ans a := h
  cases h with
  | started => cases hp
  | missing record => cases hp
  | found hpath he =>
    cases hp
    exact .inr ⟨he, rfl, _, rfl, hpath⟩
  | downloaded record path => exact .inl hp
  | kept ans ha hb hno =>
    left
    rw [path_of_held (t := ⟨await, some ans, cancelled⟩) ha hno, ← hp]
    symm
    cases a <;> cases hb <;> rfl
  | failed => cases hp
  | printed => cases hp
  | completed => cases hp
  | reported => cases hp

theorem path_of_answer (hd : t.await.isDownload = false) (hp : (t.answer ans).path = some p) :
    t.path = some p := by
  obtain ⟨await, fut, cancelled⟩ := t
  cases await <;> first | exact hp | cases hp | cases hd

theorem path_of_pendingPrint {q : PrintCall} (h : t.pendingPrint jobId = some q) :
    t.path = some q.filePath := by
  obtain ⟨-, hfut, hcall⟩ := of_pendingPrint h
  obtain ⟨await, fut, cancelled⟩ := t
  have hfut : fut = none := hfut
  have hcall : await.printCall jobId = some q := hcall
  subst hfut
  cases await <;> cases hcall
  rfl

theorem path_of_setLocalFilePath (h : t.pendingStoreCall = some (.setLocalFilePath p)) :
    t.path = some p := by
  obtain ⟨-, -, hcall⟩ := of_pendingStoreCall h
  obtain ⟨await, fut, cancelled⟩ := t
  have hcall : await.storeCall = some (.setLocalFilePath p) := hcall
  cases await <;> cases hcall
  rfl

end

end Task

/-! ## the row -/

theorem rowCall_document (now jobId : String) (row : PrintJobRow) (call : StoreCall) :
    ∃ row', (rowCall now jobId (some row) call).2 = some row' ∧ row'.documentUrl = row.documentUrl ∧
      (row'.localFilePath = row.localFilePath ∨
        ∃ p, call = .setLocalFilePath p ∧ row'.localFilePath = some p) := by
  cases call with
  | get => exact ⟨row, rfl, rfl, .inl rfl⟩
  | insertReceived job => exact ⟨row, rfl, rfl, .inl rfl⟩
  | updateStatus status errorCode errorMessage =>
    refine ⟨_, rfl, ?_, .inl ?_⟩
    · cases status <;> rfl
    · cases status <;> rfl
  | setLocalFilePath path => exact ⟨_, rfl, rfl, .inr ⟨path, rfl, rfl⟩⟩

namespace Job
variable {jobId p : String} {x y : Job} {b : JobAct} {row row' : PrintJobRow}

inductive Calls (x : Job) : StoreCall → Prop
  | handler {h : Handler} {c : StoreCall} (hh : x.handler = some h) (hc : h.await.storeCall = some c) :
      Calls x c
  | task {t : Task} {c : StoreCall} (ht : x.task = some t) (hc : t.pendingStoreCall = some c) : Calls x c
  | left {c : StoreCall} (hc : ThreadCall.store c ∈ x.leftBehind) : Calls x c

theorem row_written (hs : Step jobId x b y) :
    y.row = x.row ∨
    (∃ now, y.row = x.row.map fun row => if row.status = .printing then row.markFailed now else row) ∨
    ∃ now c, x.Calls c ∧ y.row = (rowCall now jobId x.row c).2 := by
  cases hs with
  | markStuck now hl => exact .inr (.inl ⟨now, rfl⟩)
  | resumeRows hl => rename_i resume; cases resume <;> exact .inl rfl
  | handlerCall now hh hc => exact .inr (.inr ⟨now, _, .handler hh (Handler.of_pendingStoreCall hc).2, rfl⟩)
  | handlerCancelTask => exact .inl (x.cancelTask_row jobId)
  | taskCall now ht hc => exact .inr (.inr ⟨now, _, .task ht hc, rfl⟩)
  | leftCall now hn => exact .inr (.inr ⟨now, _, .left (List.mem_of_getElem? hn), rfl⟩)
  | _ => exact .inl rfl

theorem documentUrl_step (hs : Step jobId x b y) (hrow : x.row = some row) :
    ∃ row', y.row = some row' ∧ row'.documentUrl = row.documentUrl := by
  rcases row_written hs with he | ⟨now, he⟩ | ⟨now, c, -, he⟩
  · exact ⟨row, he.trans hrow, rfl⟩
  · rw [hrow] at he
    refine ⟨_, he, ?_⟩
    show (if row.status = .printing then row.markFailed now else row).documentUrl = _
    split <;> rfl
  · rw [hrow] at he
    obtain ⟨row', hrow', hurl, -⟩ := rowCall_document now jobId row c
    exact ⟨row', he.trans hrow', hurl⟩

theorem localFilePath_step (hs : Step jobId x b y) (hrow : y.row = some row')
    (hp : row'.localFilePath = some p) :
    (∃ row, x.row = some row ∧ row.localFilePath = some p) ∨ x.Calls (.setLocalFilePath p) := by
  rcases row_written hs with he | ⟨now, he⟩ | ⟨now, c, hc, he⟩
  · exact .inl ⟨row', he.symm.trans hrow, hp⟩
  · rw [hrow] at he
    obtain ⟨row, hx, rfl⟩ := Option.map_eq_some_iff.mp he.symm
    refine .inl ⟨row, hx, ?_⟩
    rw [← hp]
    split <;> rfl
  · rw [hrow] at he
    cases hx : x.row with
    | none =>
      rw [hx] at he
      cases c <;> cases he
      cases hp
    | some row =>
      rw [hx] at he
      obtain ⟨row'', hrow'', -, hpath⟩ := rowCall_document now jobId row c
      rw [hrow''] at he
      cases he
      rcases hpath with hpath | ⟨q, rfl, hq⟩
      · exact .inl ⟨row, rfl, hpath ▸ hp⟩
      · rw [hq] at hp
        cases hp
        exact .inr hc

theorem Calls.of_setLocalFilePath (h : x.Calls (.setLocalFilePath p)) :
    (∃ t, x.task = some t ∧ t.isLive = true ∧ t.path = some p) ∨
      ThreadCall.store (.setLocalFilePath p) ∈ x.leftBehind := by
  cases h with
  | handler hh hc =>
    rename_i h
    generalize h.await = a at hc
    cases a <;> cases hc
  | task ht hc => exact .inl ⟨_, ht, (Task.of_pendingStoreCall hc).1, Task.path_of_setLocalFilePath hc⟩
  | left hc => exact .inr hc

/-- the job has no task, or one that has not read its row -/
def Unread (x : Job) : Prop :=
  ∀ t, x.task = some t → t.isLive = true ∧ (t.await = .start ∨ t.await = .get ∧ t.fut = none)

end Job

/-! ## the condition -/

def Download.isReceiving : Download → Bool
  | .receiving _ _ _ _ => true
  | _ => false

def Download.request? : Download → Option DocumentRequest
  | .called => none
  | .requested request | .receiving request _ _ _ => some request

def ThreadCall.printsFile (path : String) : ThreadCall → Bool
  | .print p => p.filePath = path
  | .store _ => false

namespace JobDisk

/-- the job writes its file, or is going to print this one -/
def needs (path : String) (x : JobDisk) : Bool :=
  x.job.task.any (fun t => t.isLive && (t.path = some path || x.download.any Download.isReceiving)) ||
    x.job.leftBehind.any (ThreadCall.printsFile path)

/-- if the job will be resumed, what is under its recorded path is not an unfinished file -/
def resumesWhole (x : JobDisk) : Bool :=
  x.job.row.all fun row => !row.status.isResumable ||
    row.localFilePath.all fun path => (x.files path).all (·.ended)

/-- nobody deletes the file when it is needed, and no crash leaves an unfinished one to be taken up -/
def keepsDocument (c : DownloadSettings) (jobId : String) (x : JobDisk) : JobDiskAct → Bool
  | .delete path => path ≠ c.path jobId || !x.needs path
  | .job .crash => x.resumesWhole
  | _ => true

end JobDisk

/-- the same as a condition on the steps of the agent and its files -/
def keepsDocument (c : DownloadSettings) (jobId : String) : Disk → DiskAct → Bool :=
  Machine.seenAs (Disk.view jobId) (Disk.seen jobId) (JobDisk.keepsDocument c jobId)

/-! ## the invariant -/

namespace JobDisk

def HasWhole (c : DownloadSettings) (jobId : String) (x : JobDisk) : Prop :=
  ∃ document, x.files (c.path jobId) = some document ∧ document.ended = true

def IsFor (x : Job) (url : String) : Prop := ∃ row, x.row = some row ∧ url = row.documentUrl

structure KeptFile (c : DownloadSettings) (jobId : String) (x : JobDisk) : Prop where
  /-- a finished file is the body of a fetch, and so is what was printed -/
  whole : ∀ document, x.files (c.path jobId) = some document → document.ended = true →
    ∃ f ∈ x.fetches, f.IsDocument c.unicode ∧ f.body = document.content
  printed : ∀ q ∈ x.printed, ∃ f ∈ x.fetches, f.IsDocument c.unicode ∧ q.2 = some f.body
  /-- each request is for the job's document -/
  fetched : ∀ f ∈ x.fetches, IsFor x.job f.request.url
  asked : ∀ d request, x.download = some d → d.request? = some request → IsFor x.job request.url
  /-- a body is of an accepted response, and its file is not deleted meanwhile -/
  receiving : ∀ request response body linked, x.download = some (.receiving request response body linked) →
    response.check c.unicode = .ok () ∧ body.length ≤ downloadMaxBytes ∧
      (∀ t, x.job.task = some t → t.isLive = true → linked = true)

structure KeptTask (c : DownloadSettings) (jobId : String) (x : JobDisk) : Prop where
  reading : ∀ d, x.download = some d → ∃ t, x.job.task = some t ∧ t.await.isDownload = true ∧ t.fut = none
  record : ∀ t record, x.job.task = some t → t.isLive = true → t.record = some record →
    IsFor x.job record.documentUrl
  /-- the path it is going to print is that of a finished file -/
  path : ∀ t p, x.job.task = some t → t.isLive = true → t.path = some p →
    p = c.path jobId ∧ x.HasWhole c jobId
  left : ∀ q, ThreadCall.print q ∈ x.job.leftBehind → q.filePath = c.path jobId ∧ x.HasWhole c jobId
  leftPath : ∀ p, ThreadCall.store (.setLocalFilePath p) ∈ x.job.leftBehind → p = c.path jobId

structure KeptPath (c : DownloadSettings) (jobId : String) (x : JobDisk) : Prop where
  recorded : ∀ row p, x.job.row = some row → row.localFilePath = some p → p = c.path jobId
  /-- what a task will find under it, or has found, is not unfinished -/
  unread : x.job.Unread → ∀ row p, x.job.row = some row → row.status.isResumable = true →
    row.localFilePath = some p → ∀ document, x.files p = some document → document.ended = true
  read : ∀ t record p, x.job.task = some t → t.isLive = true → t.await = .get →
    t.fut = some (.record (some record)) → record.localFilePath = some p →
    p = c.path jobId ∧ ∀ document, x.files p = some document → document.ended = true

structure Kept (c : DownloadSettings) (jobId : String) (x : JobDisk) : Prop where
  file : x.KeptFile c jobId
  task : x.KeptTask c jobId
  row : x.KeptPath c jobId

/-! ## the steps of the job -/

section JobSteps
variable {c : DownloadSettings} {jobId : String} {x : JobDisk} {b : JobAct} {y : Job}

theorem isFor_step {x y : Job} {b : JobAct} {url : String} (hs : Job.Step jobId x b y) (h : IsFor x url) :
    IsFor y url := by
  obtain ⟨row, hrow, rfl⟩ := h
  obtain ⟨row', hrow', hurl⟩ := Job.documentUrl_step hs hrow
  exact ⟨row', hrow', hurl.symm⟩

theorem downloadAfter_eq_some {d : Download} (h : x.downloadAfter y b = some d) :
    (x.download = some d ∧ b ≠ .taskThrow ∧ b ≠ .crash) ∨
      d = .called ∧ ∃ pathExists socket, b = .taskResume pathExists socket ∧
        y.task.any (·.await.isDownload) = true := by
  unfold downloadAfter at h
  split at h
  · rename_i pathExists socket
    split at h
    · cases h
      exact .inr ⟨rfl, pathExists, socket, rfl, by assumption⟩
    · exact .inl ⟨h, fun he => (by cases he), fun he => (by cases he)⟩
  · cases h
  · cases h
  · exact .inl ⟨h, by assumption, by assumption⟩

/-- what is printed is the finished file of the job -/
theorem whole_of_printOf (hk : x.KeptTask c jobId) {p : PrintCall} (h : printOf jobId x.job b = some p) :
    p.filePath = c.path jobId ∧ x.HasWhole c jobId := by
  unfold printOf at h
  split at h
  · obtain ⟨t, ht, hp⟩ := Option.bind_eq_some_iff.mp h
    exact hk.path t p.filePath ht (Task.of_pendingPrint hp).1 (Task.path_of_pendingPrint hp)
  · split at h
    · cases h
      rename_i hn
      exact hk.left _ (List.mem_of_getElem? hn)
    · cases h
  · cases h

/-- what becomes of the task; the option is the task after the step -/
inductive TaskMoves (jobId : String) (x : JobDisk) : JobAct → Option Task → Prop
  | same {b : JobAct} {o : Option Task} (hb : b.isTask = false) (he : o = x.job.task) : TaskMoves jobId x b o
  | created {b : JobAct} (hb : b.isTask = false) (hno : x.job.task = none) : TaskMoves jobId x b (some .new)
  | cancelled {b : JobAct} {t : Task} (hb : b.isTask = false) (ht : x.job.task = some t) :
      TaskMoves jobId x b (some t.cancel)
  /-- not a download, and a read answers the row -/
  | answered {b : JobAct} {t : Task} (ans : Answer) (ht : x.job.task = some t) (hl : t.isLive = true)
      (hfut : t.fut = none) (hd : t.await.isDownload = false)
      (hget : t.await = .get → ans = .record (x.job.row.map (·.toPrintJobRecord))) :
      TaskMoves jobId x b (some (t.answer ans))
  | went {t : Task} {ans : Answer} {a : Await} {pathExists : Bool} (socket : Bool)
      (ht : x.job.task = some t) (hl : t.isLive = true) (hfut : t.fut = some ans)
      (hlocals : LocalsStep pathExists t.await ans a)
      (hexists : ∀ p, t.recorded = some p → pathExists = (x.files p).isSome) :
      TaskMoves jobId x (.taskResume pathExists socket) (some (.goTo jobId socket a))
  | returned {t : Task} {ans : Answer} (pathExists socket : Bool) (ht : x.job.task = some t)
      (hfut : t.fut = some ans) : TaskMoves jobId x (.taskResume pathExists socket) (some .finished)
  | thrown : TaskMoves jobId x .taskThrow (some .finished)
  | gone : TaskMoves jobId x .crash none

theorem task_moves (hf : x.job.Fit) (hb : x.job.Base) (hfits : x.fits b = true)
    (hs : Job.Step jobId x.job b y) : TaskMoves jobId x b y.task := by
  have hno : ∀ {t : Task}, t.await.storeCall ≠ none ∨ t.await.event jobId ≠ none ∨
      t.await.printCall jobId ≠ none → t.await.isDownload = false := by
    intro t h
    generalize t.await = a at h
    cases a <;> first | rfl | exact absurd rfl (h.resolve_left (· rfl) |>.resolve_left (· rfl))
  have hnoget : ∀ {t : Task} {ans : Answer}, t.await.storeCall = none → t.await = .get →
      ans = .record (x.job.row.map (·.toPrintJobRecord)) := by
    intro t ans hcall hget
    rw [hget] at hcall
    cases hcall
  cases hs with
  | resumeRows hl =>
    rename_i resume
    have hasleep := (hf.asleep (by rw [hl]; exact fun he => by cases he)).1
    cases resume with
    | false => exact .same rfl rfl
    | true => exact .created rfl hasleep
  | handlerCancelTask hh hfut hr =>
    rcases x.job.cancelTask_cases jobId with ⟨he, -⟩ | ⟨t, -, ht, he⟩
    · rw [he]
      exact .same rfl rfl
    · rw [he]
      exact .cancelled rfl ht
  | handlerCreateTask hh hfut hr =>
    exact .created rfl
      (hb.of_creates hf (.dispatched hh (HandlerAwait.flow_of_resume hr).of_createTask)).1
  | taskCall now ht hc =>
    obtain ⟨hl, hfut, hcall⟩ := Task.of_pendingStoreCall hc
    refine .answered _ ht hl hfut (hno (.inl (by rw [hcall]; exact fun he => by cases he))) fun hget => ?_
    rw [hget] at hcall
    cases hcall
    rfl
  | taskAnswer ht hw ha =>
    obtain ⟨hfut, hc⟩ := Task.of_isWaiting hw
    have hl := Task.isLive_of hc fun he => by rw [he] at ha; cases ha
    have hd : (!x.job.task.any (·.await.isDownload)) = true := hfits
    rw [ht] at hd
    exact .answered _ ht hl hfut (by simpa using hd) (hnoget (Await.storeCall_of_accepts ha))
  | taskSend ht he =>
    obtain ⟨hl, hfut, hev⟩ := Task.of_pendingEvent he
    exact .answered _ ht hl hfut (hno (.inr (.inl (by rw [hev]; exact fun he => by cases he))))
      (hnoget (Await.storeCall_of_event hev))
  | taskPrint raises ht hp =>
    obtain ⟨hl, hfut, hcall⟩ := Task.of_pendingPrint hp
    exact .answered _ ht hl hfut (hno (.inr (.inr (by rw [hcall]; exact fun he => by cases he))))
      (hnoget (Await.storeCall_of_printCall hcall))
  | taskAwait pathExists socket ht hn hfut hr =>
    refine .went socket ht (Job.isLive_of_resume hn hr) hfut (Await.locals_of_resume hr) fun p hp => ?_
    have hall : (x.job.task.bind Task.recorded).all
        (fun path => pathExists = (x.files path).isSome) = true := hfits
    rw [ht, Option.bind_some, hp] at hall
    simpa using hall
  | taskRet pathExists socket ht hn hfut hr => exact .returned pathExists socket ht hfut
  | taskThrow => exact .thrown
  | crash => exact .gone
  | _ => exact .same rfl rfl

section Moves
variable (hm : TaskMoves jobId x b y.task)
include hm

theorem unread_before (hcrash : b ≠ .crash) (hy : y.Unread) : x.job.Unread := by
  intro t ht
  generalize hyt : y.task = o at hm
  cases hm with
  | same hno he => exact hy t (hyt.trans (he.trans ht))
  | created hb hno =>
    rw [hno] at ht
    cases ht
  | cancelled hb ht' =>
    have hlive := (hy _ hyt).1
    rw [Task.cancel_isLive] at hlive
    cases hlive
  | answered ans ht' hl hfut hd hget =>
    rw [ht] at ht'
    cases ht'
    rcases (hy _ hyt).2 with ha | ⟨-, hno⟩
    · exact ⟨hl, .inl ha⟩
    · cases hno
  | went socket ht' hl hfut hlocals hexists =>
    rw [ht] at ht'
    cases ht'
    have ha := (hy _ hyt).2
    generalize t.await = await at hlocals
    cases hlocals with
    | started => exact ⟨hl, .inl rfl⟩
    | kept ans _ hheld =>
      rcases ha with ha | ⟨ha, -⟩
      · cases ha; cases hheld
      · cases ha; cases hheld
    | _ => rcases ha with ha | ⟨ha, -⟩ <;> cases ha
  | returned => cases (hy _ hyt).1
  | thrown => cases (hy _ hyt).1
  | gone => exact absurd rfl hcrash

theorem live_before (hk : x.KeptTask c jobId) {d : Download} (hd : x.download = some d) {t : Task}
    (ht : y.task = some t) (hl : t.isLive = true) : ∃ t, x.job.task = some t ∧ t.isLive = true := by
  obtain ⟨t₀, ht₀, -⟩ := hk.reading d hd
  rw [ht] at hm
  cases hm with
  | same _ he => exact ⟨t, he.symm, hl⟩
  | created hb hno =>
    rw [hno] at ht₀
    cases ht₀
  | cancelled =>
    rw [Task.cancel_isLive] at hl
    cases hl
  | answered ans ht' hl' => exact ⟨_, ht', hl'⟩
  | went _ ht' hl' => exact ⟨_, ht', hl'⟩
  | returned => cases hl
  | thrown => cases hl

theorem reading_job (hk : x.KeptTask c jobId) {d : Download} (hd : x.downloadAfter y b = some d) :
    ∃ t, y.task = some t ∧ t.await.isDownload = true ∧ t.fut = none := by
  rcases downloadAfter_eq_some hd with ⟨hd, hthrow, hcrash⟩ | ⟨-, pathExists, socket, rfl, hany⟩
  · obtain ⟨t, ht, hdown, hfut⟩ := hk.reading d hd
    generalize y.task = o at hm
    cases hm with
    | same _ he => exact ⟨t, he.trans ht, hdown, hfut⟩
    | created hb hno =>
      rw [hno] at ht
      cases ht
    | cancelled hb ht' =>
      rw [ht] at ht'
      cases ht'
      exact ⟨t.cancel, rfl, (congrArg _ Task.cancel_await).trans hdown, Task.cancel_fut.trans hfut⟩
    | answered ans ht' hl hfut' hd' =>
      rw [ht] at ht'
      cases ht'
      rw [hdown] at hd'
      cases hd'
    | went socket ht' hl hfut' =>
      rw [ht] at ht'
      cases ht'
      rw [hfut] at hfut'
      cases hfut'
    | returned _ _ ht' hfut' =>
      rw [ht] at ht'
      cases ht'
      rw [hfut] at hfut'
      cases hfut'
    | thrown => exact absurd rfl hthrow
    | gone => exact absurd rfl hcrash
  · generalize y.task = o at hm hany
    cases hm with
    | same hno => cases hno
    | created hno => cases hno
    | cancelled hno => cases hno
    | answered ans ht' hl hfut' hd' =>
      cases hd'.symm.trans hany
    | went socket ht' hl hfut' hlocals hexists =>
      rename_i t ans a
      refine ⟨_, rfl, hany, ?_⟩
      have hdown : a.isDownload = true := hany
      cases a <;> first | rfl | cases hdown
    | returned => cases hany

end Moves

section Kept
variable (hf : x.job.Fit) (hb : x.job.Base) (hk : x.Kept c jobId) (hfits : x.fits b = true)
  (hs : Job.Step jobId x.job b y)
include hf hb hk hfits hs

theorem keptFile_job : (x.after jobId b y).KeptFile c jobId where
  whole := hk.file.whole
  printed q hq := by
    rcases List.mem_append.mp hq with hq | hq
    · exact hk.file.printed q hq
    · obtain ⟨p, hp, rfl⟩ := List.mem_map.mp hq
      obtain ⟨hpath, document, hfile, hended⟩ := whole_of_printOf hk.task (Option.mem_toList.mp hp)
      obtain ⟨f, hmem, hdoc, hbody⟩ := hk.file.whole document hfile hended
      refine ⟨f, hmem, hdoc, ?_⟩
      show (x.files p.filePath).map _ = _
      rw [hpath, hfile, hbody]
      rfl
  fetched f hmem := isFor_step hs (hk.file.fetched f hmem)
  asked d request hd hr := by
    rcases downloadAfter_eq_some hd with ⟨hd, -, -⟩ | ⟨rfl, -⟩
    · exact isFor_step hs (hk.file.asked d request hd hr)
    · cases hr
  receiving request response body linked hd := by
    rcases downloadAfter_eq_some hd with ⟨hd, -, -⟩ | ⟨hd, -⟩
    · obtain ⟨hcheck, hsize, hlinked⟩ := hk.file.receiving _ _ _ _ hd
      refine ⟨hcheck, hsize, fun t ht hl => ?_⟩
      obtain ⟨t₀, ht₀, hl₀⟩ := live_before (task_moves hf hb hfits hs) hk.task hd ht hl
      exact hlinked t₀ ht₀ hl₀
    · cases hd

theorem record_job {t : Task} {record : PrintJobRecord} (ht : y.task = some t) (hl : t.isLive = true)
    (hr : t.record = some record) : IsFor y record.documentUrl := by
  have hold : ∀ {t₀ : Task}, x.job.task = some t₀ → t₀.isLive = true → t₀.record = some record →
      IsFor y record.documentUrl := fun ht₀ hl₀ hr₀ => isFor_step hs (hk.task.record _ _ ht₀ hl₀ hr₀)
  have hm := task_moves hf hb hfits hs
  rw [ht] at hm
  cases hm with
  | same _ he => exact hold he.symm hl hr
  | created => cases hr
  | cancelled =>
    rw [Task.cancel_isLive] at hl
    cases hl
  | answered ans ht' hl' hfut hd hget =>
    rename_i t
    by_cases ha : t.await = .get
    · -- it reads the row
      obtain ⟨row, hrow⟩ := hf.stored t ht'
      have hans : ans = .record (some row.toPrintJobRecord) := by
        rw [hget ha, hrow]
        rfl
      have hrec : (t.answer ans).record = some row.toPrintJobRecord := by
        rw [Task.record, Task.answer, ha, hans]
      rw [hrec] at hr
      cases hr
      exact isFor_step hs ⟨row, hrow, rfl⟩
    · refine hold ht' hl' ?_
      obtain ⟨await, fut, cancelled⟩ := t
      cases await <;> first | exact hr | exact absurd rfl ha
  | went socket ht' hl' hfut hlocals hexists => exact hold ht' hl' (Task.record_of_locals hlocals hfut hr)
  | returned => cases hl
  | thrown => cases hl

/-- the path that a live task is going to print is that of the finished file -/
theorem path_job {t : Task} {p : String} (ht : y.task = some t) (hl : t.isLive = true)
    (hp : t.path = some p) : p = c.path jobId ∧ x.HasWhole c jobId := by
  have hm := task_moves hf hb hfits hs
  rw [ht] at hm
  cases hm with
  | same _ he => exact hk.task.path t p he.symm hl hp
  | created => cases hp
  | cancelled =>
    rw [Task.cancel_isLive] at hl
    cases hl
  | answered ans ht' hl' hfut hd hget => exact hk.task.path _ p ht' hl' (Task.path_of_answer hd hp)
  | went socket ht' hl' hfut hlocals hexists =>
    rcases Task.path_of_locals hlocals hfut hp with hp | ⟨rfl, ha, record, rfl, hrecorded⟩
    · exact hk.task.path _ p ht' hl' hp
    · -- the recorded file is there, and it is not unfinished
      obtain ⟨rfl, hended⟩ := hk.row.read _ record p ht' hl' ha hfut hrecorded
      have hthere := hexists (c.path jobId) (by rw [Task.recorded, ha, hfut]; exact hrecorded)
      obtain ⟨document, hfile⟩ := Option.isSome_iff_exists.mp hthere.symm
      exact ⟨rfl, document, hfile, hended document hfile⟩
  | returned => cases hl
  | thrown => cases hl

theorem keptTask_job : (x.after jobId b y).KeptTask c jobId where
  reading d hd := reading_job (task_moves hf hb hfits hs) hk.task hd
  record t record ht hl hr := record_job hf hb hk hfits hs ht hl hr
  path t p ht hl hp := path_job hf hb hk hfits hs ht hl hp
  left q hq := by
    rcases Job.leftBehind_step hs with hsub | ⟨t, h, record, ht, -, -, -, -, -, -, he⟩
    · exact hk.task.left q (hsub.subset hq)
    · have hq : ThreadCall.print q ∈ y.leftBehind := hq
      rw [he] at hq
      rcases List.mem_append.mp hq with hq | hq
      · exact hk.task.left q hq
      · have hp : t.pendingPrint jobId = some q := by
          simpa [Task.pendingThreadCall] using hq
        exact hk.task.path t _ ht (Task.of_pendingPrint hp).1 (Task.path_of_pendingPrint hp)
  leftPath p hq := by
    rcases Job.leftBehind_step hs with hsub | ⟨t, h, record, ht, -, -, -, -, -, -, he⟩
    · exact hk.task.leftPath p (hsub.subset hq)
    · have hq : ThreadCall.store (.setLocalFilePath p) ∈ y.leftBehind := hq
      rw [he] at hq
      rcases List.mem_append.mp hq with hq | hq
      · exact hk.task.leftPath p hq
      · have hp : t.pendingStoreCall = some (.setLocalFilePath p) := by
          simpa [Task.pendingThreadCall] using hq
        exact (hk.task.path t _ ht (Task.of_pendingStoreCall hp).1 (Task.path_of_setLocalFilePath hp)).1

omit hf hk hfits in
theorem resumable_before (hx : x.job.Unread) {st st' : PrintJobStatus} (hst : x.job.status = some st)
    (hst' : y.status = some st') (hr : st'.isResumable = true) : st.isResumable = true := by
  have hstatus := Job.status_step hs hb.leftCall
  rw [hst'] at hstatus
  cases hstatus with
  | same he =>
    rw [hst] at he
    cases he
    exact hr
  | inserted now hh hfut ha hnone =>
    rw [Job.status, hnone] at hst
    cases hst
  | restarted => cases hr
  | cancelled => cases hr
  | worked now ht hl hfut hc hw hst =>
    rename_i t c st'
    have ha := (hx t ht).2
    generalize t.await = a at ha hc
    rcases ha with rfl | ⟨rfl, -⟩
    · cases hc
    · cases hc
      cases hw
  | left now hn hw hst =>
    obtain ⟨t, ht, hno⟩ := hb.left (List.ne_nil_of_mem (List.mem_of_getElem? hn))
    rw [(hx t ht).1] at hno
    cases hno

theorem keptPath_job (hok : x.keepsDocument c jobId (.job b) = true) :
    (x.after jobId b y).KeptPath c jobId where
  recorded row p hrow hp := by
    rcases Job.localFilePath_step hs hrow hp with ⟨row₀, hrow₀, hp₀⟩ | hcall
    · exact hk.row.recorded row₀ p hrow₀ hp₀
    · rcases hcall.of_setLocalFilePath with ⟨t, ht, hl, hpath⟩ | hleft
      · exact (hk.task.path t p ht hl hpath).1
      · exact hk.task.leftPath p hleft
  unread hy row p hrow hr hp document hfile := by
    by_cases hcrash : b = .crash
    · subst hcrash
      cases hs
      have hwhole : x.resumesWhole = true := hok
      have hrow : x.job.row = some row := hrow
      have hfile : x.files p = some document := hfile
      rw [resumesWhole, hrow, Option.all_some, hr, hp, Option.all_some, hfile, Option.all_some] at hwhole
      exact hwhole
    · have hx := unread_before (task_moves hf hb hfits hs) hcrash hy
      rcases Job.localFilePath_step hs hrow hp with ⟨row₀, hrow₀, hp₀⟩ | hcall
      · have hr₀ := resumable_before hb hs hx (Job.status_eq_some.mpr ⟨row₀, hrow₀, rfl⟩)
          (Job.status_eq_some.mpr ⟨row, hrow, rfl⟩) hr
        exact hk.row.unread hx row₀ p hrow₀ hr₀ hp₀ document hfile
      · rcases hcall.of_setLocalFilePath with ⟨t, ht, hl, hpath⟩ | hleft
        · have ha := (hx t ht).2
          obtain ⟨await, fut, cancelled⟩ := t
          rcases ha with rfl | ⟨rfl, -⟩ <;> cases hpath
        · obtain ⟨t, ht, hno⟩ := hb.left (List.ne_nil_of_mem hleft)
          rw [(hx t ht).1] at hno
          cases hno
  read t record p ht hl ha hfut hp := by
    have hm := task_moves hf hb hfits hs
    replace ht : y.task = some t := ht
    rw [ht] at hm
    clear ht
    cases hm with
    | same _ he => exact hk.row.read t record p he.symm hl ha hfut hp
    | created => cases hfut
    | cancelled =>
      rw [Task.cancel_isLive] at hl
      cases hl
    | answered ans ht' hl' hfut' hd hget =>
      rename_i t
      have hawait : t.await = .get := ha
      obtain ⟨row, hrow⟩ := hf.stored t ht'
      have hans := hget hawait
      rw [hrow] at hans
      cases hans
      cases hfut
      have hst : x.job.status = some row.status := Job.status_eq_some.mpr ⟨row, hrow, rfl⟩
      have hexpects := hb.live t ht' hl' _ hst
      rw [hawait] at hexpects
      have hunread : x.job.Unread := by
        intro t' ht''
        rw [ht'] at ht''
        cases ht''
        exact ⟨hl', .inr ⟨hawait, hfut'⟩⟩
      exact ⟨hk.row.recorded row p hrow hp, hk.row.unread hunread row p hrow hexpects hp⟩
    | went socket ht' hl' hfut' hlocals hexists =>
      have ha : Await.get = _ := ha.symm
      subst ha
      cases hfut
    | returned => cases hl
    | thrown => cases hl

theorem kept_job (hok : x.keepsDocument c jobId (.job b) = true) : (x.after jobId b y).Kept c jobId where
  file := keptFile_job hf hb hk hfits hs
  task := keptTask_job hf hb hk hfits hs
  row := keptPath_job hf hb hk hfits hs hok

end Kept

end JobSteps

/-! ## the steps of the download, and of the files -/

section DownloadSteps
variable {c : DownloadSettings} {jobId : String} {x : JobDisk} {t : Task} {record : PrintJobRecord}
  {d d' : Download} {files : String → Option Document} {fetches : List Fetch} {ans : Answer}

theorem Reading.isLive (h : x.Reading t record d) : t.isLive = true :=
  Task.isLive_of (Task.of_isWaiting h.isWaiting).2 fun he => by
    rw [h.await] at he
    cases he

/-- the task reads its record no more, holds no path, and has left nothing behind -/
theorem Reading.path_eq_none (h : x.Reading t record d) : t.path = none := by
  rw [Task.path, h.await, (Task.of_isWaiting h.isWaiting).1]
  rfl

theorem Reading.record_eq (h : x.Reading t record d) : t.record = some record := by
  rw [Task.record, h.await]
  rfl

theorem Reading.not_unread (h : x.Reading t record d) : ¬ x.job.Unread := by
  intro hu
  rcases (hu t h.task).2 with ha | ⟨ha, -⟩ <;> rw [h.await] at ha <;> cases ha

theorem Reading.eq (h : x.Reading t record d) {t' : Task} (ht : x.job.task = some t') : t' = t := by
  rw [h.task] at ht
  exact (Option.some.inj ht).symm

theorem kept_goesOn (hb : x.job.Base) (hk : x.Kept c jobId) (h : x.Reading t record d)
    (hfile : ∀ document, files (c.path jobId) = some document → document.ended = true →
      x.files (c.path jobId) = some document)
    (hasked : ∀ request, d'.request? = some request → IsFor x.job request.url)
    (hreceiving : ∀ request response body linked, d' = .receiving request response body linked →
      response.check c.unicode = .ok () ∧ body.length ≤ downloadMaxBytes ∧ linked = true) :
    ({ x with files := files, download := some d' } : JobDisk).Kept c jobId where
  file :=
    { whole := fun document hdoc hended => hk.file.whole document (hfile document hdoc hended) hended
      printed := hk.file.printed
      fetched := hk.file.fetched
      asked := fun d request hd hr => by
        cases hd
        exact hasked request hr
      receiving := fun request response body linked hd => by
        obtain ⟨hcheck, hsize, hlinked⟩ := hreceiving request response body linked (Option.some.inj hd)
        exact ⟨hcheck, hsize, fun _ _ _ => hlinked⟩ }
  task :=
    { reading := fun _ _ => ⟨t, h.task, by rw [h.await]; rfl, (Task.of_isWaiting h.isWaiting).1⟩
      record := hk.task.record
      path := fun t' p ht hl hp => by
        rw [h.eq ht, h.path_eq_none] at hp
        cases hp
      left := fun q hq => by
        have hq : ThreadCall.print q ∈ x.job.leftBehind := hq
        rw [hb.leftBehind_of_live h.task h.isLive] at hq
        cases hq
      leftPath := hk.task.leftPath }
  row :=
    { recorded := hk.row.recorded
      unread := fun hu => absurd hu h.not_unread
      read := fun t' record' p ht hl ha => by
        rw [h.eq ht, h.await] at ha
        cases ha }

theorem kept_answers (hb : x.job.Base) (hk : x.Kept c jobId) (h : x.Reading t record d)
    (hfetches : ∀ f ∈ fetches, IsFor x.job f.request.url)
    (hfile : ∀ document, files (c.path jobId) = some document → document.ended = true →
      ∃ f ∈ x.fetches ++ fetches, f.IsDocument c.unicode ∧ f.body = document.content)
    (hans : ∀ path, ans = .downloaded path →
      path = c.path jobId ∧ ∃ document, files path = some document ∧ document.ended = true) :
    ((({ x with files := files } : JobDisk).addFetches fetches).answer t ans).Kept c jobId where
  file :=
    { whole := hfile
      printed := fun q hq => by
        obtain ⟨f, hmem, hdoc⟩ := hk.file.printed q hq
        exact ⟨f, List.mem_append_left _ hmem, hdoc⟩
      fetched := fun f hmem => by
        rcases List.mem_append.mp hmem with hmem | hmem
        · exact hk.file.fetched f hmem
        · exact hfetches f hmem
      asked := fun _ _ hd => by cases hd
      receiving := fun _ _ _ _ hd => by cases hd }
  task :=
    { reading := fun _ hd => by cases hd
      record := fun t' record' ht hl hr => by
        cases ht
        have hrec : (t.answer ans).record = some record := by
          rw [Task.record, Task.answer, h.await]
          rfl
        rw [hrec] at hr
        cases hr
        exact hk.task.record t record h.task h.isLive h.record_eq
      path := fun t' p ht hl hp => by
        cases ht
        have hdown : ans = .downloaded p := by
          rw [Task.path, Task.answer, h.await] at hp
          cases ans <;> cases hp
          rfl
        obtain ⟨rfl, hwhole⟩ := hans p hdown
        exact ⟨rfl, hwhole⟩
      left := fun q hq => by
        have hq : ThreadCall.print q ∈ x.job.leftBehind := hq
        rw [hb.leftBehind_of_live h.task h.isLive] at hq
        cases hq
      leftPath := hk.task.leftPath }
  row :=
    { recorded := hk.row.recorded
      unread := fun hu => by
        rcases (hu _ rfl).2 with ha | ⟨ha, -⟩
        · exact absurd (h.await.symm.trans ha) (fun he => by cases he)
        · exact absurd (h.await.symm.trans ha) (fun he => by cases he)
      read := fun t' record' p ht hl ha => by
        cases ht
        exact absurd (h.await.symm.trans ha) (fun he => by cases he) }

theorem kept_other (hk : x.Kept c jobId) (hf : files (c.path jobId) = x.files (c.path jobId)) :
    ({ x with files := files } : JobDisk).Kept c jobId where
  file :=
    { whole := fun document hdoc => hk.file.whole document (hf.symm.trans hdoc)
      printed := hk.file.printed
      fetched := hk.file.fetched
      asked := hk.file.asked
      receiving := hk.file.receiving }
  task :=
    { reading := hk.task.reading
      record := hk.task.record
      path := fun t p ht hl hp => by
        obtain ⟨hpath, document, hdoc, hended⟩ := hk.task.path t p ht hl hp
        exact ⟨hpath, document, hf.trans hdoc, hended⟩
      left := fun q hq => by
        obtain ⟨hpath, document, hdoc, hended⟩ := hk.task.left q hq
        exact ⟨hpath, document, hf.trans hdoc, hended⟩
      leftPath := hk.task.leftPath }
  row :=
    { recorded := hk.row.recorded
      unread := fun hu row p hrow hr hp document hdoc => by
        have hpath := hk.row.recorded row p hrow hp
        subst hpath
        exact hk.row.unread hu row _ hrow hr hp document (hf.symm.trans hdoc)
      read := fun t record p ht hl ha hfut hp => by
        obtain ⟨rfl, hended⟩ := hk.row.read t record p ht hl ha hfut hp
        exact ⟨rfl, fun document hdoc => hended document (hf.symm.trans hdoc)⟩ }

theorem unlink_request? (d : Download) : d.unlink.request? = d.request? := by cases d <;> rfl

theorem kept_deleted (hk : x.Kept c jobId) (hno : x.needs (c.path jobId) = false) :
    ({ x with
        files := Function.update x.files (c.path jobId) none
        download := x.download.map Download.unlink } : JobDisk).Kept c jobId := by
  obtain ⟨htask, hleft⟩ := Bool.or_eq_false_iff.mp hno
  have hgone : ∀ document, Function.update x.files (c.path jobId) none (c.path jobId) ≠ some document := by
    intro document h
    rw [Function.update_self] at h
    cases h
  have hlive : ∀ t, x.job.task = some t → t.isLive = true →
      t.path ≠ some (c.path jobId) ∧ x.download.any Download.isReceiving = false := by
    intro t ht hl
    rw [ht, Option.any_some, hl, Bool.true_and, Bool.or_eq_false_iff] at htask
    exact ⟨of_decide_eq_false htask.1, htask.2⟩
  exact {
    file :=
      { whole := fun document hdoc => absurd hdoc (hgone document)
        printed := hk.file.printed
        fetched := hk.file.fetched
        asked := fun d request hd hr => by
          obtain ⟨d, hd₀, rfl⟩ := Option.map_eq_some_iff.mp hd
          exact hk.file.asked d request hd₀ (unlink_request? d ▸ hr)
        receiving := fun request response body linked hd => by
          obtain ⟨d, hd₀, he⟩ := Option.map_eq_some_iff.mp hd
          cases d with
          | called => cases he
          | requested => cases he
          | receiving request' response' body' linked' =>
            cases he
            obtain ⟨hcheck, hsize, -⟩ := hk.file.receiving _ _ _ _ hd₀
            refine ⟨hcheck, hsize, fun t ht hl => ?_⟩
            have hnot := (hlive t ht hl).2
            rw [hd₀] at hnot
            cases hnot }
    task :=
      { reading := fun d hd => by
          obtain ⟨d, hd₀, rfl⟩ := Option.map_eq_some_iff.mp hd
          exact hk.task.reading d hd₀
        record := hk.task.record
        path := fun t p ht hl hp => by
          obtain ⟨rfl, -⟩ := hk.task.path t p ht hl hp
          exact absurd hp (hlive t ht hl).1
        left := fun q hq => by
          obtain ⟨hpath, -⟩ := hk.task.left q hq
          have hnot := List.any_eq_false.mp hleft _ hq
          exact absurd (decide_eq_true hpath) hnot
        leftPath := hk.task.leftPath }
    row :=
      { recorded := hk.row.recorded
        unread := fun hu row p hrow hr hp document hdoc => by
          obtain rfl := hk.row.recorded row p hrow hp
          exact absurd hdoc (hgone document)
        read := fun t record p ht hl ha hfut hp => by
          obtain ⟨rfl, -⟩ := hk.row.read t record p ht hl ha hfut hp
          exact ⟨rfl, fun document hdoc => absurd hdoc (hgone document)⟩ } }

section Write
variable (path : String) (linked : Bool) (document : Document) (x : JobDisk)

@[simp] theorem write_job : (x.write path linked document).job = x.job := by cases linked <;> rfl
@[simp] theorem write_fetches : (x.write path linked document).fetches = x.fetches := by
  cases linked <;> rfl
@[simp] theorem write_printed : (x.write path linked document).printed = x.printed := by
  cases linked <;> rfl

end Write

theorem write_path {path : String} {linked : Bool} {document document' : Document}
    (h : (x.write path linked document).files path = some document') :
    document' = document ∧ linked = true ∨ linked = false ∧ x.files path = some document' := by
  cases linked with
  | false => exact .inr ⟨rfl, h⟩
  | true =>
    have h : Function.update x.files path (some document) path = some document' := h
    rw [Function.update_self] at h
    exact .inl ⟨(Option.some.inj h).symm, rfl⟩

theorem checkSize_eq_ok {byteCount : Nat} (h : checkSize byteCount = .ok ()) :
    byteCount ≤ downloadMaxBytes := by
  unfold checkSize at h
  split at h
  · cases h
  · omega

theorem checkNotEmpty_eq_ok {byteCount : Nat} (h : checkNotEmpty byteCount = .ok ()) : 0 < byteCount := by
  unfold checkNotEmpty at h
  split at h
  · cases h
  · omega

theorem kept_step {a : JobDiskAct} {y : JobDisk} (hf : x.job.Fit) (hb : x.job.Base) (hk : x.Kept c jobId)
    (hok : x.keepsDocument c jobId a = true) (hs : Step c jobId x a y) : y.Kept c jobId := by
  cases hs with
  | job hs hfits => exact kept_job hf hb hk hfits hs hok
  | requested h hr =>
    rename_i t record request
    obtain ⟨row, hrow, hurl⟩ := hk.task.record t record h.task h.isLive h.record_eq
    refine kept_goesOn hb hk h (fun _ hdoc _ => hdoc) (fun request' hreq => ?_) fun _ _ _ _ hd => by cases hd
    cases hreq
    exact ⟨row, hrow, (url_of_downloadRequest hr).trans hurl⟩
  | opened h hr =>
    rename_i t record request response
    simp only [write_job, write_fetches, write_printed]
    refine kept_goesOn hb hk h (fun document hdoc hended => ?_) (fun request' hreq => ?_)
      fun _ _ _ _ hd => ?_
    · rcases write_path hdoc with ⟨rfl, -⟩ | ⟨he, -⟩
      · cases hended
      · cases he
    · exact hk.file.asked _ request' h.download hreq
    · cases hd
      exact ⟨hr, Nat.zero_le _, rfl⟩
  | received h hsize =>
    rename_i t record request response body bytes linked
    obtain ⟨hcheck, -, hlinked⟩ := hk.file.receiving _ _ _ _ h.download
    simp only [write_job, write_fetches, write_printed]
    refine kept_goesOn hb hk h (fun document hdoc hended => ?_) (fun request' hreq => ?_)
      fun _ _ _ _ hd => ?_
    · rcases write_path hdoc with ⟨rfl, -⟩ | ⟨-, hdoc⟩
      · cases hended
      · exact hdoc
    · exact hk.file.asked _ request' h.download hreq
    · cases hd
      exact ⟨hcheck, checkSize_eq_ok hsize, hlinked t h.task h.isLive⟩
  | ended h hnot =>
    rename_i t record request response body linked
    obtain ⟨hcheck, hsize, hlinked⟩ := hk.file.receiving _ _ _ _ h.download
    have hl : linked = true := hlinked t h.task h.isLive
    subst hl
    have hdoc : (⟨jobId, request, response, body⟩ : Fetch).IsDocument c.unicode :=
      ⟨(Response.check_eq_ok.mp hcheck).1, (Response.check_eq_ok.mp hcheck).2, checkNotEmpty_eq_ok hnot, hsize⟩
    show ((({ x with files := Function.update x.files (c.path jobId) (some ⟨body, true⟩) } : JobDisk).addFetches
      [⟨jobId, request, response, body⟩]).answer t (.downloaded (c.path jobId))).Kept c jobId
    refine kept_answers hb hk h (fun f hmem => ?_) (fun document hfile hended => ?_) fun path hpath => ?_
    · cases List.mem_singleton.mp hmem
      exact hk.file.asked _ request h.download rfl
    · rw [Function.update_self] at hfile
      cases hfile
      exact ⟨_, List.mem_append_right _ List.mem_cons_self, hdoc, rfl⟩
    · cases hpath
      exact ⟨rfl, ⟨body, true⟩, Function.update_self .., rfl⟩
  | failed fetches h hans hf' =>
    rename_i t record d ans
    refine kept_answers hb hk h (fun f hmem => ?_) (fun document hfile hended => ?_)
      fun path hpath => absurd hpath (hans path)
    · rcases hf' with rfl | ⟨request, response, body, linked, rfl, rfl⟩
      · cases hmem
      · cases List.mem_singleton.mp hmem
        exact hk.file.asked _ request h.download rfl
    · obtain ⟨f, hmem, hdoc⟩ := hk.file.whole document hfile hended
      exact ⟨f, List.mem_append_left _ hmem, hdoc⟩
  | deleted path =>
    by_cases hp : c.path jobId = path
    · subst hp
      have hno : x.needs (c.path jobId) = false := by simpa [keepsDocument] using hok
      simp only [if_true]
      exact kept_deleted hk hno
    · have hother := kept_other hk (Function.update_of_ne hp none x.files)
      have hsame : (x.download.map fun d => if c.path jobId = path then d.unlink else d) = x.download := by
        simp [hp]
      rw [hsame]
      exact hother
  | other files hf' => exact kept_other hk hf'

end DownloadSteps

theorem kept_init (c : DownloadSettings) (jobId : String) : (Disk.init.view jobId).Kept c jobId where
  file :=
    { whole := fun _ hdoc => by cases hdoc
      printed := fun _ hq => by cases hq
      fetched := fun _ hf => by cases hf
      asked := fun _ _ hd => by cases hd
      receiving := fun _ _ _ _ hd => by cases hd }
  task :=
    { reading := fun _ hd => by cases hd
      record := fun _ _ ht => by cases ht
      path := fun _ _ ht => by cases ht
      left := fun _ hq => by cases hq
      leftPath := fun _ hp => by cases hp }
  row :=
    { recorded := fun _ _ hrow => by cases hrow
      unread := fun _ _ _ hrow => by cases hrow
      read := fun _ _ _ ht => by cases ht }

end JobDisk

/-- **What is printed is the document.**  The file that a print call is given holds the body of a fetch
of the job's document. -/
theorem printed_documents {c : DownloadSettings} {jobId : String} (hid : isPlainId jobId = true) {s : Disk}
    (h : (disk c).Reach (fun s a => (a.hasPlainId && keepsDocument c jobId s a) = true) s)
    {call : PrintCall} {content : Option (List UInt8)} (hprinted : (call, content) ∈ s.printed)
    (hcall : call.jobId = jobId) :
    ∃ row f, s.agent.store.row jobId = some row ∧ f ∈ s.fetches ∧ f.jobId = jobId ∧
      f.request.url = row.documentUrl ∧ f.IsDocument c.unicode ∧ content = some f.body := by
  have hplain : ∀ s (a : DiskAct), (a.hasPlainId && keepsDocument c jobId s a) = true →
      a.hasPlainId = true := fun s a ha => (Bool.and_eq_true_iff.mp ha).1
  have hkept : (s.view jobId).Kept c jobId :=
    h.invariant (JobDisk.kept_init c jobId) fun s a s' hr hk hok hstep => by
      refine (Disk.disk_shows c hid).step_invariant
        (D := fun x b => x.keepsDocument c jobId b = true)
        (fun x b y hk hok hs => JobDisk.kept_step hs.1.1 hs.1.2 hk hok hs.2)
        ⟨(Disk.agent_of_reach hplain hr).any, Disk.plainRows hplain hr⟩ ?_ hstep hk
      exact .of_seenAs (Bool.and_eq_true_iff.mp hok).2
  have hmem : (call, content) ∈ (s.view jobId).printed :=
    List.mem_filter.mpr ⟨hprinted, decide_eq_true hcall⟩
  obtain ⟨f, hf, hdoc, hcontent⟩ := hkept.file.printed _ hmem
  obtain ⟨row, hrow, hurl⟩ := hkept.file.fetched f hf
  obtain ⟨hf, hj⟩ := List.mem_filter.mp hf
  exact ⟨row, f, hrow, hf, of_decide_eq_true hj, hurl, hdoc, hcontent⟩

/-! ## a document printed, and a part of one -/

def exampleSettings : DownloadSettings where
  unicode := Unicode.ascii
  flavour := .posix
  destDir := "/agent/downloads"
  agentSecret := Str.ofString "secret"
  allowedHost := some (Str.ofString "app.example")
  allowInsecureHttp := false

namespace Schedule

def exampleDocument : PrintJobDispatch := ⟨"a", "p", "invoice", "1", "https://app.example/1", 1⟩

def missing (now : String) : List DiskAct :=
  [.agent (.taskResume "a" 0 false), .agent (.taskCall "a" 0 now), .agent (.taskResume "a" 0 false)]

def found (now : String) : List DiskAct :=
  [.agent (.taskResume "a" 0 false), .agent (.taskCall "a" 0 now), .agent (.taskResume "a" 0 true)]

def respond : List DiskAct :=
  [.request "a" 0 "", .response "a" 0 ⟨200, some "application/pdf"⟩, .chunk "a" 0 [37]]

def complete (now : String) : List DiskAct :=
  [.chunk "a" 0 [80], .finish "a" 0, .agent (.taskResume "a" 0 true), .agent (.taskCall "a" 0 now)]

def restart (now : String) : List DiskAct := (startup now).map .agent

/-- the printer is online, the status is written and reported, and the file is printed -/
def printFile (now : String) : List DiskAct :=
  [.agent (.taskAnswer "a" 0 (.status true)), .agent (.taskResume "a" 0 true),
    .agent (.taskCall "a" 0 now), .agent (.taskResume "a" 0 true), .agent (.taskResume "a" 0 true),
    .agent (.taskPrint "a" 0 none)]

/-- a job is accepted and its document is downloaded; the process crashes -/
def downloaded : List DiskAct :=
  (startup "1" ++ connect ++ accept "2" exampleDocument).map .agent ++ missing "3" ++ respond ++
    complete "4" ++ [.agent .crash]

def printedAfterRestart : List DiskAct := downloaded ++ restart "5" ++ found "6" ++ printFile "7"

/-- somebody deletes the file; the next process downloads it again and crashes on the way; the one after
it prints what is there -/
def printedPartially : List DiskAct :=
  downloaded ++ [.delete "/agent/downloads/a.pdf"] ++ restart "5" ++ missing "6" ++ respond ++
    [.agent .crash] ++ restart "7" ++ found "8" ++ printFile "9"

end Schedule

def examplePrint : PrintCall := ⟨"a", "p", "/agent/downloads/a.pdf", 1⟩

theorem printedAfterRestart_isSome :
    ((disk exampleSettings).run (disk exampleSettings).init Schedule.printedAfterRestart).isSome = true := by
  decide +kernel

theorem printed_documents_after_restart :
    ∃ (s : Disk) (row : PrintJobRow) (f : Fetch), (examplePrint, some [37, 80]) ∈ s.printed ∧
      s.agent.store.row "a" = some row ∧ f ∈ s.fetches ∧ f.jobId = "a" ∧
      f.request.url = row.documentUrl ∧ f.IsDocument Unicode.ascii ∧ some [37, 80] = some f.body := by
  have hprinted : (examplePrint, some [37, 80]) ∈
      ((disk exampleSettings).after Schedule.printedAfterRestart printedAfterRestart_isSome).printed := by
    decide +kernel
  have hreach := Machine.Reach.of_obeys (c := fun s a => a.hasPlainId && keepsDocument exampleSettings "a" s a)
    Schedule.printedAfterRestart printedAfterRestart_isSome (by decide +kernel)
  obtain ⟨row, f, h⟩ := printed_documents (by decide) hreach hprinted rfl
  exact ⟨_, row, f, hprinted, h⟩

theorem printedPartially_isSome :
    ((disk exampleSettings).run (disk exampleSettings).init Schedule.printedPartially).isSome = true := by
  decide +kernel

/-- the file was found, and it was not the whole one -/
theorem printed_partial :
    ¬ ∀ (c : DownloadSettings) (jobId : String) (s : Disk), isPlainId jobId = true →
      (disk c).Reach (fun _ a => a.hasPlainId = true) s →
      ∀ (call : PrintCall) (content : Option (List UInt8)), (call, content) ∈ s.printed →
      call.jobId = jobId →
      ∃ row f, s.agent.store.row jobId = some row ∧ f ∈ s.fetches ∧ f.jobId = jobId ∧
        f.request.url = row.documentUrl ∧ f.IsDocument c.unicode ∧ content = some f.body := by
  intro h
  have hreach := Machine.Reach.of_obeys (M := disk exampleSettings) (c := fun _ a => a.hasPlainId)
    Schedule.printedPartially printedPartially_isSome (by decide +kernel)
  have hprinted : (examplePrint, some [37]) ∈
      ((disk exampleSettings).after Schedule.printedPartially printedPartially_isSome).printed := by
    decide +kernel
  have hfetches : ((disk exampleSettings).after Schedule.printedPartially
      printedPartially_isSome).fetches.map (·.body) = [[37, 80]] := by decide +kernel
  obtain ⟨row, f, -, hf, -, -, -, hbody⟩ :=
    h exampleSettings "a" _ (by decide) hreach examplePrint (some [37]) hprinted rfl
  have hmem : f.body ∈ [[37, 80]] := hfetches ▸ List.mem_map_of_mem hf
  rw [← Option.some.inj hbody] at hmem
  revert hmem
  decide

end PrintAgent
