import PrintAgent.Core.Told

/-!
# What a job is printed with

The row of a job is made of the dispatch that inserted it, and keeps the columns of that dispatch for ever;
`_process` prints what it has read off the row.

* `Job.Asked`            every record, path and print call of the job is of that dispatch;
* `Agent.FirstDispatch`  the dispatch that the row of a job was inserted for: every earlier one was cut off by
                         a crash;
* `Agent.UsesFirst`      a print call with the printer, the copies and the document of that dispatch.
-/

namespace PrintAgent

/-- the columns of a record that come from the dispatch -/
def PrintJobRecord.asked (record : PrintJobRecord) : NewJob where
  printerLocalId := record.printerLocalId
  documentType := record.documentType
  documentId := record.documentId
  documentUrl := record.documentUrl
  copies := record.copies

namespace PrintJobRow
variable (now : String) (row : PrintJobRow)

@[simp] theorem updateStatus_asked (status : PrintJobStatus) (errorCode errorMessage : Option String) :
    (updateStatus now status errorCode errorMessage row).asked = row.asked := by
  simp [updateStatus, PrintJobRecord.asked]

@[simp] theorem updateStatus_localFilePath (status : PrintJobStatus) (errorCode errorMessage : Option String) :
    (updateStatus now status errorCode errorMessage row).localFilePath = row.localFilePath := by
  simp [updateStatus]

@[simp] theorem setLocalFilePath_asked (path : String) : (setLocalFilePath now path row).asked = row.asked := rfl

@[simp] theorem markFailed_asked : (markFailed now row).asked = row.asked := rfl

@[simp] theorem inserted_asked (jobId : String) (job : NewJob) : (inserted now jobId job).asked = job := rfl

end PrintJobRow

/-! ## what `_process` carries -/

namespace Await

/-- its `local_path` -/
def path : Await → Option String
  | .setLocalFilePath _ path | .getStatus _ path | .setWaiting _ path | .sleep _ path _
  | .pollStatus _ path _ | .setPrinting _ path | .sendStarted _ path | .print _ path => some path
  | _ => none

end Await

section Holds
variable (job : NewJob) (P : String → Prop)

/-- the record is of the job, and its file is one of those with `P` -/
structure PrintJobRecord.Holds (record : PrintJobRecord) : Prop where
  asked : record.asked = job
  path : ∀ path, record.localFilePath = some path → P path

/-- the print call is for the job, and its file is one of those with `P` -/
structure PrintCall.Holds (p : PrintCall) : Prop where
  printer : p.localPrinterId = job.printerLocalId
  copies : p.copies = job.copies
  path : P p.filePath

def Answer.Holds : Answer → Prop
  | .record (some r) => r.Holds job P
  | .downloaded path => P path
  | _ => True

structure Await.Holds (a : Await) : Prop where
  record : ∀ record, a.record = some record → record.Holds job P
  path : ∀ path, a.path = some path → P path

structure Task.Holds (t : Task) : Prop where
  await : t.await.Holds job P
  fut : ∀ ans, t.fut = some ans → ans.Holds job P

def StoreCall.Holds : StoreCall → Prop
  | .setLocalFilePath path => P path
  | _ => True

def ThreadCall.Holds : ThreadCall → Prop
  | .store c => c.Holds P
  | .print p => p.Holds job P

/-- everything of the job is of the dispatch with these columns -/
structure Job.Asked (x : Job) : Prop where
  row : ∀ row, x.row = some row → row.toPrintJobRecord.Holds job P
  task : ∀ t, x.task = some t → t.Holds job P
  left : ∀ c ∈ x.leftBehind, c.Holds job P
  prints : ∀ p ∈ x.prints, p.Holds job P

end Holds

section Mono
variable {job : NewJob} {P Q : String → Prop} (hPQ : ∀ path, P path → Q path)
include hPQ

theorem PrintJobRecord.Holds.mono {record : PrintJobRecord} (h : record.Holds job P) : record.Holds job Q where
  asked := h.asked
  path path hpath := hPQ path (h.path path hpath)

theorem PrintCall.Holds.mono {p : PrintCall} (h : p.Holds job P) : p.Holds job Q where
  printer := h.printer
  copies := h.copies
  path := hPQ _ h.path

theorem Answer.Holds.mono {ans : Answer} (h : ans.Holds job P) : ans.Holds job Q := by
  cases ans with
  | record o =>
    cases o with
    | none => trivial
    | some record => exact PrintJobRecord.Holds.mono hPQ h
  | downloaded path => exact hPQ path h
  | _ => trivial

theorem Task.Holds.mono {t : Task} (h : t.Holds job P) : t.Holds job Q where
  await :=
    { record := fun record hrecord => (h.await.record record hrecord).mono hPQ
      path := fun path hpath => hPQ path (h.await.path path hpath) }
  fut ans hans := (h.fut ans hans).mono hPQ

theorem ThreadCall.Holds.mono {c : ThreadCall} (h : c.Holds job P) : c.Holds job Q := by
  cases c with
  | store c =>
    cases c with
    | setLocalFilePath path => exact hPQ path h
    | _ => trivial
  | print p => exact PrintCall.Holds.mono hPQ h

theorem Job.Asked.mono {x : Job} (h : x.Asked job P) : x.Asked job Q where
  row row hrow := (h.row row hrow).mono hPQ
  task t ht := (h.task t ht).mono hPQ
  left c hc := ThreadCall.Holds.mono hPQ (h.left c hc)
  prints p hp := (h.prints p hp).mono hPQ

end Mono

namespace Await
variable {job : NewJob} {P : String → Prop} {c e : Bool} {a b : Await} {ans : Answer}

theorem holds_of_none (hr : a.record = none) (hp : a.path = none) : a.Holds job P where
  record _ h := by rw [hr] at h; cases h
  path _ h := by rw [hp] at h; cases h

theorem holds_of_some {record : PrintJobRecord} (hr : a.record = some record) (h : record.Holds job P)
    (hp : ∀ path, a.path = some path → P path) : a.Holds job P where
  record _ h' := by rw [hr] at h'; cases h'; exact h
  path := hp

theorem waitForPrinter_holds {record : PrintJobRecord} {path : String} (h : record.Holds job P) (hp : P path)
    (hb : waitForPrinter c record path = .await b) : b.Holds job P := by
  rw [waitForPrinter_await hb]
  exact holds_of_some rfl h fun _ he => by cases he; exact hp

theorem printerOnline_holds {record : PrintJobRecord} {path : String} (h : record.Holds job P) (hp : P path)
    (hb : printerOnline c record path = .await b) : b.Holds job P := by
  obtain ⟨_, rfl⟩ := printerOnline_await hb
  exact holds_of_some rfl h fun _ he => by cases he; exact hp

theorem pollLoop_holds {record : PrintJobRecord} {path : String} {waited : Nat} (h : record.Holds job P)
    (hp : P path) (hb : pollLoop c record path waited = .await b) : b.Holds job P := by
  rcases pollLoop_await hb with rfl | ⟨_, _, rfl⟩
  · exact holds_of_some rfl h fun _ he => by cases he; exact hp
  · exact holds_of_none rfl rfl

theorem holds_resume (h : a.Holds job P) (hans : ans.Holds job P)
    (hr : a.resume c e ans = some (.await b)) : b.Holds job P := by
  unfold resume at hr
  split at hr
  case h_1 => cases hr; exact holds_of_none rfl rfl
  case h_2 => cases hr
  case h_3 record =>
    split at hr
    · cases hr
      exact holds_of_some rfl hans fun _ he => by cases he
    · rename_i path hpath
      split at hr
      · cases hr
        exact holds_of_some rfl hans fun _ he => by cases he
      · exact waitForPrinter_holds hans (hans.path path hpath) (Option.some.inj hr)
  case h_4 record path => cases hr; exact holds_of_some rfl (h.record _ rfl) fun _ he => by cases he; exact hans
  case h_5 => cases hr; exact holds_of_none rfl rfl
  case h_6 => cases hr
  case h_7 => exact waitForPrinter_holds (h.record _ rfl) (h.path _ rfl) (Option.some.inj hr)
  case h_8 => exact printerOnline_holds (h.record _ rfl) (h.path _ rfl) (Option.some.inj hr)
  case h_9 => cases hr; exact ⟨h.record, h.path⟩
  case h_10 => cases hr
  case h_11 => exact pollLoop_holds (h.record _ rfl) (h.path _ rfl) (Option.some.inj hr)
  case h_12 => cases hr; exact ⟨h.record, h.path⟩
  case h_13 => exact printerOnline_holds (h.record _ rfl) (h.path _ rfl) (Option.some.inj hr)
  case h_14 => exact pollLoop_holds (h.record _ rfl) (h.path _ rfl) (Option.some.inj hr)
  case h_15 => cases hr
  case h_16 => cases hr; exact ⟨h.record, h.path⟩
  case h_17 => cases hr; exact ⟨h.record, h.path⟩
  case h_18 => cases hr; exact holds_of_none rfl rfl
  case h_19 => cases hr; exact holds_of_none rfl rfl
  case h_20 => cases hr; exact holds_of_none rfl rfl
  case h_21 => cases hr
  case h_22 => cases hr; exact holds_of_none rfl rfl
  case h_23 => cases hr
  case h_24 => cases hr

theorem storeCall_holds (h : a.Holds job P) {call : StoreCall} (hc : a.storeCall = some call) : call.Holds P := by
  cases a with
  | setLocalFilePath record path =>
    cases hc
    exact h.path path rfl
  | _ => cases hc <;> trivial

theorem printCall_holds (h : a.Holds job P) {j : String} {p : PrintCall} (hp : a.printCall j = some p) :
    p.Holds job P := by
  cases a with
  | print record path =>
    cases hp
    have hrecord := h.record record rfl
    exact ⟨congrArg NewJob.printerLocalId hrecord.asked, congrArg NewJob.copies hrecord.asked, h.path path rfl⟩
  | _ => cases hp

end Await

section Steps
variable {job : NewJob} {P : String → Prop} {j now : String} {row : PrintJobRow}

theorem rowCall_holds (h : row.toPrintJobRecord.Holds job P) {c : StoreCall} (hc : c.Holds P) :
    (rowCall now j (some row) c).1.Holds job P ∧
      ∀ row', (rowCall now j (some row) c).2 = some row' → row'.toPrintJobRecord.Holds job P := by
  cases c with
  | get => exact ⟨h, fun row' hrow' => by cases hrow'; exact h⟩
  | insertReceived => exact ⟨trivial, fun row' hrow' => by cases hrow'; exact h⟩
  | updateStatus status errorCode errorMessage =>
    refine ⟨trivial, fun row' hrow' => ?_⟩
    cases hrow'
    exact ⟨(PrintJobRow.updateStatus_asked ..).trans h.asked, fun path hpath => h.path path (by simpa using hpath)⟩
  | setLocalFilePath path =>
    refine ⟨trivial, fun row' hrow' => ?_⟩
    cases hrow'
    refine ⟨h.asked, fun path' hpath' => ?_⟩
    cases hpath'
    exact hc

theorem Task.Holds.answer {t : Task} (h : t.Holds job P) {ans : Answer} (hans : ans.Holds job P) :
    (t.answer ans).Holds job P where
  await := h.await
  fut _ he := by cases he; exact hans

theorem Task.Holds.pendingThreadCall {t : Task} (h : t.Holds job P) : ∀ c ∈ t.pendingThreadCall j, c.Holds job P := by
  intro c hc
  rcases Task.mem_pendingThreadCall.mp hc with ⟨call, hcall, rfl⟩ | ⟨p, hp, rfl⟩
  · exact Await.storeCall_holds h.await (Task.of_pendingStoreCall hcall).2.2
  · exact Await.printCall_holds h.await (Task.of_pendingPrint hp).2.2

theorem Task.holds_new : Task.new.Holds job P where
  await := Await.holds_of_none rfl rfl
  fut _ he := by cases he; trivial

theorem Task.holds_finished : Task.finished.Holds job P where
  await := Await.holds_of_none rfl rfl
  fut _ he := by cases he

theorem Task.holds_goTo {socket : Bool} {a : Await} (h : a.Holds job P) : (Task.goTo j socket a).Holds job P where
  await := h
  fut ans he := by
    unfold goTo at he
    split at he
    · cases he
      trivial
    · cases he

theorem Await.accepts_holds {a : Await} {ans : Answer} (h : a.accepts ans = true)
    (hdown : ∀ record path, a = .download record → ans = .downloaded path → P path) : ans.Holds job P := by
  cases ans with
  | downloaded path =>
    cases a with
    | download record => exact hdown record path rfl rfl
    | _ => cases h
  | record record => cases a <;> cases h
  | _ => trivial

/-- one step keeps what is of the dispatch; a file that is new is one that was fetched now -/
theorem Job.Asked.step {x y : Job} {b : JobAct} (h : x.Asked job P) (hrow : x.row = some row)
    (hdown : ∀ t record path, b = .taskAnswer (.downloaded path) → x.task = some t →
      t.await = .download record → P path) (hs : Step j x b y) : y.Asked job P := by
  have hhold := h.row row hrow
  -- a call with an answer that the job may have
  have hcall : ∀ (now : String) {c : StoreCall}, c.Holds P → (rowCall now j x.row c).1.Holds job P ∧
      ∀ row', (rowCall now j x.row c).2 = some row' → row'.toPrintJobRecord.Holds job P := by
    intro now c hc
    rw [hrow]
    exact rowCall_holds hhold hc
  have hset : ∀ {t : Task}, t.Holds job P → ∀ t', some t = some t' → t'.Holds job P := fun ht t' he => by
    cases he
    exact ht
  cases hs with
  | markStuck now hl =>
    refine ⟨fun row' hrow' => ?_, h.task, h.left, h.prints⟩
    have hrow' : (x.row.map fun row => if row.status = .printing then row.markFailed now else row) = some row' :=
      hrow'
    rw [hrow, Option.map_some] at hrow'
    cases hrow'
    split
    · exact ⟨hhold.asked, hhold.path⟩
    · exact hhold
  | handlerCall now hh hc =>
    rename_i hd c
    have hholds : c.Holds P := by
      have hc := (Handler.of_pendingStoreCall hc).2
      generalize hd.await = a at hc
      cases a <;> cases hc <;> trivial
    exact ⟨(hcall now hholds).2, h.task, h.left, h.prints⟩
  | taskCall now ht hc =>
    have hold := h.task _ ht
    have hres := hcall now (Await.storeCall_holds hold.await (Task.of_pendingStoreCall hc).2.2)
    exact ⟨hres.2, hset (hold.answer hres.1), h.left, h.prints⟩
  | taskAnswer ht hw ha =>
    rename_i t ans
    refine ⟨h.row, hset ((h.task _ ht).answer (Await.accepts_holds ha fun record path hawait hans => ?_)),
      h.left, h.prints⟩
    exact hdown t record path (by rw [hans]) ht hawait
  | taskSend ht he => exact ⟨h.row, hset ((h.task _ ht).answer trivial), h.left, h.prints⟩
  | taskPrint raises ht hp =>
    have hold := h.task _ ht
    refine ⟨h.row, hset (hold.answer (by cases raises <;> trivial)), h.left, fun p hmem => ?_⟩
    rcases List.mem_append.mp hmem with hmem | hmem
    · exact h.prints p hmem
    · rw [List.mem_singleton.mp hmem]
      exact Await.printCall_holds hold.await (Task.of_pendingPrint hp).2.2
  | taskAwait pathExists socket ht hn hfut hr =>
    have hold := h.task _ ht
    have hnext := Await.holds_resume hold.await (hold.fut _ hfut) hr
    exact ⟨h.row, hset (Task.holds_goTo hnext), h.left, h.prints⟩
  | taskRet => exact ⟨h.row, hset Task.holds_finished, h.left, h.prints⟩
  | taskThrow => exact ⟨h.row, hset Task.holds_finished, h.left, h.prints⟩
  | handlerCreateTask => exact ⟨h.row, hset Task.holds_new, h.left, h.prints⟩
  | resumeRows hl =>
    rename_i resume
    cases resume with
    | false => exact ⟨h.row, h.task, h.left, h.prints⟩
    | true => exact ⟨h.row, hset Task.holds_new, h.left, h.prints⟩
  | handlerCancelTask =>
    rcases x.cancelTask_cases j with ⟨he, _⟩ | ⟨t, _, ht, he⟩
    · rw [he]
      exact ⟨h.row, h.task, h.left, h.prints⟩
    · rw [he]
      have hold := h.task t ht
      have hcancel : t.cancel.Holds job P := by
        constructor
        · rw [Task.cancel_await]
          exact hold.await
        · rw [Task.cancel_fut]
          exact hold.fut
      refine ⟨h.row, hset hcancel, fun c hc => ?_, h.prints⟩
      rcases List.mem_append.mp hc with hc | hc
      · exact h.left c hc
      · exact hold.pendingThreadCall c hc
  | leftCall now hn =>
    have hres := hcall now (h.left _ (List.mem_of_getElem? hn))
    exact ⟨hres.2, h.task, fun c hc => h.left c (List.mem_of_mem_eraseIdx hc), h.prints⟩
  | leftPrint hn =>
    refine ⟨h.row, h.task, fun c hc => h.left c (List.mem_of_mem_eraseIdx hc), fun p hmem => ?_⟩
    rcases List.mem_append.mp hmem with hmem | hmem
    · exact h.prints p hmem
    · rw [List.mem_singleton.mp hmem]
      exact h.left _ (List.mem_of_getElem? hn)
  | leftDrop hn => exact ⟨h.row, h.task, fun c hc => h.left c (List.mem_of_mem_eraseIdx hc), h.prints⟩
  | crash => exact ⟨h.row, (fun t ht => by cases ht), (fun c hc => by cases hc), h.prints⟩
  | _ => exact ⟨h.row, h.task, h.left, h.prints⟩

theorem rowCall_asked {c : StoreCall} {row' : PrintJobRow} (h : (rowCall now j (some row) c).2 = some row') :
    row'.asked = row.asked := by
  have htriv : row.toPrintJobRecord.Holds row.asked fun _ => True := ⟨rfl, fun _ _ => trivial⟩
  have hc : c.Holds fun _ => True := by cases c <;> trivial
  exact ((rowCall_holds htriv hc).2 row' h).asked

theorem Job.asked_step {x y : Job} {b : JobAct} {row' : PrintJobRow} (hf : x.Fit) (hb : x.Base)
    (hs : Step j x b y) (hx : x.row = some row) (hy : y.row = some row') : row'.asked = row.asked := by
  have hrow := row_step hf hb hs
  rw [hy] at hrow
  generalize ho : some row' = o at hrow
  have hsame : ∀ {row₀}, x.row = some row₀ → row₀ = row := fun h => Option.some.inj (h.symm.trans hx)
  cases hrow with
  | same he => rw [hsame (he.symm.trans ho.symm)]
  | inserted now _ _ _ hnone => rw [hx] at hnone; cases hnone
  | restarted now _ hrow =>
    cases hsame hrow
    cases ho
    rfl
  | cancelled now _ _ _ hrow =>
    cases hsame hrow
    cases ho
    exact PrintJobRow.updateStatus_asked ..
  | worked now _ _ _ _ hrow =>
    cases hsame hrow
    exact rowCall_asked ho.symm
  | left now _ hrow =>
    cases hsame hrow
    exact rowCall_asked ho.symm

theorem Job.nothing_of_unstored {x : Job} (hf : x.Fit) (hb : x.Base) (hx : x.row = none) :
    x.task = none ∧ x.leftBehind = [] := by
  have htask : x.task = none := by
    cases ht : x.task with
    | none => rfl
    | some t =>
      obtain ⟨row, hrow⟩ := hf.stored t ht
      rw [hx] at hrow
      cases hrow
  refine ⟨htask, ?_⟩
  by_contra hne
  obtain ⟨t, ht, _⟩ := hb.left hne
  rw [htask] at ht
  cases ht

theorem Job.unstored_step {x y : Job} {b : JobAct} (hf : x.Fit) (hb : x.Base) (hs : Step j x b y)
    (hx : x.row = none) : y.prints = x.prints := by
  obtain ⟨htask, hleft⟩ := nothing_of_unstored hf hb hx
  rcases prints_step hs with he | ⟨t, _, _, ht, _⟩ | ⟨n, _, hn, _⟩
  · exact he
  · rw [htask] at ht
    cases ht
  · rw [hleft] at hn
    cases hn

theorem Job.insert_step {x y : Job} {b : JobAct} {row : PrintJobRow} (hf : x.Fit) (hb : x.Base)
    (hs : Step j x b y) (hx : x.row = none) (hy : y.row = some row) :
    ∃ now h d, b = .handlerCall now ∧ x.handler = some h ∧ h.fut = none ∧ h.await = .insertReceived d ∧
      row = .inserted now j d.newJob ∧ y.task = none ∧ y.leftBehind = [] := by
  have hrow := row_step hf hb hs
  rw [hy] at hrow
  generalize ho : some row = o at hrow
  cases hrow with
  | same he => cases ho.trans (he.trans hx)
  | inserted now hh hfut ha _ =>
    cases ho
    obtain ⟨htask, hleft⟩ := nothing_of_unstored hf hb hx
    cases hs with
    | handlerCall _ _ _ => exact ⟨now, _, _, rfl, hh, hfut, ha, rfl, htask, hleft⟩
  | restarted now _ hrow => rw [hx] at hrow; cases hrow
  | cancelled now _ _ _ hrow => rw [hx] at hrow; cases hrow
  | worked now _ _ _ _ hrow => rw [hx] at hrow; cases hrow
  | left now _ hrow => rw [hx] at hrow; cases hrow

end Steps


/-! ## the dispatch that a row was inserted for -/

namespace Agent

/-- every dispatch of the job so far was cut off by a crash -/
def AllLost (jobId : String) (as : List Act) : Prop :=
  ∀ before d after, as = before ++ .dispatch d :: after → d.jobId = jobId → .crash ∈ after

/-- the first dispatch of its job that was not cut off by a crash before its insert -/
def FirstDispatch (as : List Act) (d : PrintJobDispatch) : Prop :=
  ∃ before within now after s, as = before ++ .dispatch d :: (within ++ .handlerCall now :: after) ∧
    AllLost d.jobId before ∧ .crash ∉ within ∧
    agent.run init (before ++ .dispatch d :: within) = some s ∧
    s.ws.loop = .handling ⟨d.jobId, .insertReceived d, none⟩ ∧ s.store.row d.jobId = none

/-- `download_document` has fetched the document of the url to this file, for a task of the job -/
def Fetched (as : List Act) (jobId url path : String) : Prop :=
  ∃ before i after s t record, as = before ++ .taskAnswer jobId i (.downloaded path) :: after ∧
    agent.run init before = some s ∧ s.task jobId i = some t ∧ t.await = .download record ∧
    record.documentUrl = url

/-- a call with the printer and the copies of the first dispatch of the job, and with its document -/
def UsesFirst (as : List Act) (p : PrintCall) : Prop :=
  ∃ d, FirstDispatch as d ∧ d.jobId = p.jobId ∧ p.localPrinterId = d.printerId ∧ p.copies = d.copies ∧
    Fetched as p.jobId d.documentUrl p.filePath

/-- `handle_dispatch` has not inserted its row yet -/
def AwaitsInsert (jobId : String) (d : PrintJobDispatch) (h : Handler) : Prop :=
  h = ⟨jobId, .getExisting d, none⟩ ∨ h = ⟨jobId, .getExisting d, some (.record none)⟩ ∨
    h = ⟨jobId, .insertReceived d, none⟩

/-- a job without a row: a dispatch is being handled, or all are lost -/
inductive Unstored (as : List Act) (jobId : String) (o : Option Handler) : Prop
  | handling {before within : List Act} {d : PrintJobDispatch} {h : Handler}
      (has : as = before ++ .dispatch d :: within) (hd : d.jobId = jobId) (hlost : AllLost jobId before)
      (hcrash : .crash ∉ within) (ho : o = some h) (hh : AwaitsInsert jobId d h)
  | lost (hlost : AllLost jobId as) (ho : ∀ h, o = some h → h.await.isCancel = true)

/-- the row of the job, and all that comes of it, are of its first dispatch -/
structure OfFirst (as : List Act) (s : Agent) (jobId : String) : Prop where
  unstored : s.store.row jobId = none → Unstored as jobId (s.view jobId).handler
  unprinted : s.store.row jobId = none → (s.view jobId).prints = []
  first : ∀ row, s.store.row jobId = some row →
    ∃ d, FirstDispatch as d ∧ d.jobId = jobId ∧ row.asked = d.newJob
  asked : ∀ row, s.store.row jobId = some row →
    (s.view jobId).Asked row.asked (Fetched as jobId row.asked.documentUrl)

section History
variable {as : List Act} {a : Act} {j : String}

theorem allLost_nil : AllLost j [] := by
  intro before d after h
  cases before <;> cases h

theorem split_concat {before after : List Act} {b : Act} (h : as ++ [a] = before ++ b :: after) :
    a = b ∨ ∃ after', after = after' ++ [a] ∧ as = before ++ b :: after' := by
  rcases List.eq_nil_or_concat after with rfl | ⟨after', last, rfl⟩
  · obtain ⟨_, hlast⟩ := List.append_inj' h rfl
    exact .inl (List.singleton_injective hlast)
  · rw [List.concat_eq_append, ← List.cons_append, ← List.append_assoc] at h
    obtain ⟨has, hlast⟩ := List.append_inj' h rfl
    cases hlast
    exact .inr ⟨after', List.concat_eq_append, has⟩

theorem allLost_crash : AllLost j (as ++ [.crash]) := by
  intro before d after h hd
  rcases split_concat h with hno | ⟨after', rfl, _⟩
  · cases hno
  · exact List.mem_append_right _ List.mem_cons_self

theorem AllLost.concat (h : AllLost j as) (ha : ∀ d, a = .dispatch d → d.jobId ≠ j) :
    AllLost j (as ++ [a]) := by
  intro before d after he hd
  rcases split_concat he with hlast | ⟨after', rfl, has⟩
  · exact absurd hd (ha d hlast)
  · exact List.mem_append_left _ (h before d after' has hd)

theorem FirstDispatch.mono {d : PrintJobDispatch} (h : FirstDispatch as d) (bs : List Act) :
    FirstDispatch (as ++ bs) d := by
  obtain ⟨before, within, now, after, s, rfl, hrest⟩ := h
  exact ⟨before, within, now, after ++ bs, s, by simp, hrest⟩

theorem Fetched.mono {url path : String} (h : Fetched as j url path) (bs : List Act) :
    Fetched (as ++ bs) j url path := by
  obtain ⟨before, i, after, s, t, record, rfl, hrest⟩ := h
  exact ⟨before, i, after ++ bs, s, t, record, by simp, hrest⟩

end History

/-! ## one step -/

section Step
variable {as : List Act} {s s' : Agent} {a : Act} {j : String}

theorem awaitsInsert_step {x y : Job} {b : JobAct} {d : PrintJobDispatch} {h : Handler}
    (hs : Job.Step j x b y) (hcrash : b ≠ .crash) (hx : x.row = none) (hy : y.row = none)
    (hh : x.handler = some h) (ha : AwaitsInsert j d h) : ∃ h', y.handler = some h' ∧ AwaitsInsert j d h' := by
  have hsame : ∀ {h'}, x.handler = some h' → h' = h := fun hh' => Option.some.inj (hh'.symm.trans hh)
  have hstep := Job.handler_step hs
  generalize hyo : y.handler = o at hstep
  cases hstep with
  | same _ he => exact ⟨h, he.trans hh, ha⟩
  | dispatch message hno => rw [hh] at hno; cases hno
  | cancel hno => rw [hh] at hno; cases hno
  | called now hh' hfut hc =>
    cases hsame hh'
    rcases ha with rfl | rfl | rfl
    · cases hc
      exact ⟨_, rfl, .inr (.inl (by rw [hx]; rfl))⟩
    · cases hfut
    · cases hs with
      | handlerCall _ hh'' hc'' =>
        cases hsame hh''
        cases (Handler.of_pendingStoreCall hc'').2
        have hy : (rowCall now j x.row (.insertReceived d.newJob)).2 = none := hy
        rw [hx] at hy
        cases hy
  | sent hh' _ he =>
    cases hsame hh'
    rcases ha with rfl | rfl | rfl <;> cases he
  | went hh' hfut hflow =>
    cases hsame hh'
    rcases ha with rfl | rfl | rfl
    · cases hfut
    · cases hfut
      cases hflow
      exact ⟨_, rfl, .inr (.inr rfl)⟩
    · cases hfut
  | cancelling hh' ha' =>
    cases hsame hh'
    rcases ha with rfl | rfl | rfl <;> cases ha'
  | creating hh' ha' =>
    cases hsame hh'
    rcases ha with rfl | rfl | rfl <;> cases ha'
  | ended hh' hfut hflow =>
    cases hsame hh'
    rcases ha with rfl | rfl | rfl
    · cases hfut
    · cases hfut
      cases hflow
    · cases hfut
  | gone => exact absurd rfl hcrash

theorem isCancel_step {x y : Job} {b : JobAct} (hs : Job.Step j x b y) (hno : ∀ d, b ≠ .dispatch d)
    (hx : ∀ h, x.handler = some h → h.await.isCancel = true) :
    ∀ h, y.handler = some h → h.await.isCancel = true := by
  intro h hh
  have hstep := Job.handler_step hs
  rw [hh] at hstep
  cases hstep with
  | same _ he => exact hx h he.symm
  | dispatch message _ => exact absurd rfl (hno message)
  | cancel => rfl
  | called now hh' hfut hc =>
    rename_i h' c
    exact hx h' hh'
  | sent hh' hfut he =>
    rename_i h' e
    exact hx h' hh'
  | went hh' _ hflow => exact hflow.isCancel.trans (hx _ hh')
  | cancelling => rfl

theorem Unstored.step (hr : agent.Reach Machine.Any s) (hs : agent.step s a = some s')
    (hx : s.store.row j = none) (hy : s'.store.row j = none) (h : Unstored as j (s.view j).handler) :
    Unstored (as ++ [a]) j (s'.view j).handler := by
  by_cases hcrash : a = .crash
  · subst hcrash
    cases hs
    exact .lost allLost_crash fun h ho => by cases ho
  have hview := seen_step (j := j) hr hs
  cases h with
  | handling has hd hlost hwithin ho hh =>
    rename_i before within d h
    have hgoes : ∃ h', (s'.view j).handler = some h' ∧ AwaitsInsert j d h' := by
      rcases hview with ⟨he, _⟩ | ⟨b, hseen, _, _, hstep⟩
      · rw [he]
        exact ⟨h, ho, hh⟩
      · have hb : b ≠ .crash := by
          rintro rfl
          exact hcrash (crash_of_seen hseen)
        exact awaitsInsert_step hstep hb hx hy ho hh
    obtain ⟨h', ho', hh'⟩ := hgoes
    have has' : as ++ [a] = before ++ .dispatch d :: (within ++ [a]) := by
      rw [has, List.append_assoc, List.cons_append]
    refine .handling has' hd hlost (fun hmem => ?_) ho' hh'
    rcases List.mem_append.mp hmem with hmem | hmem
    · exact hwithin hmem
    · exact hcrash (List.mem_singleton.mp hmem).symm
  | lost hlost ho =>
    by_cases hnew : ∃ d, a = .dispatch d ∧ d.jobId = j
    · obtain ⟨d, rfl, rfl⟩ := hnew
      have hdispatch : s.step (.dispatch d) = some s' := hs
      simp only [step] at hdispatch
      split at hdispatch <;> cases hdispatch
      have hhand : (view d.jobId (s.setLoop (.handling ⟨d.jobId, .getExisting d, none⟩))).handler
          = some ⟨d.jobId, .getExisting d, none⟩ := handler_view.mpr ⟨rfl, rfl⟩
      exact .handling rfl rfl hlost List.not_mem_nil hhand (.inl rfl)
    · have hno : ∀ d, a = .dispatch d → d.jobId ≠ j := fun d ha hd => hnew ⟨d, ha, hd⟩
      refine .lost (hlost.concat hno) ?_
      rcases hview with ⟨he, _⟩ | ⟨b, hseen, _, _, hstep⟩
      · rw [he]
        exact ho
      · refine isCancel_step hstep ?_ ho
        rintro d rfl
        have ha := dispatch_of_seen hseen
        subst ha
        exact hnew ⟨d, rfl, by simpa [seen] using hseen⟩

theorem unstored_of_step (hr : agent.Reach Machine.Any s) (hs : agent.step s a = some s')
    (hy : s'.store.row j = none) : s.store.row j = none := by
  rcases seen_step (j := j) hr hs with ⟨he, _⟩ | ⟨b, _, _, hb, hstep⟩
  · exact (congrArg Job.row he).symm.trans hy
  · cases hx : s.store.row j with
    | none => rfl
    | some row =>
      obtain ⟨st, hst⟩ := Job.stored_step hb hstep ⟨_, Job.status_eq_some.mpr ⟨row, hx, rfl⟩⟩
      obtain ⟨row', hrow', _⟩ := Job.status_eq_some.mp hst
      cases hy.symm.trans hrow'

/-- the row is new: the handler that inserts it is of the first dispatch -/
theorem Unstored.first (hr : agent.run init as = some s) {now : String} {h : Handler} {d : PrintJobDispatch}
    (hx : s.store.row j = none) (hh : (s.view j).handler = some h) (hfut : h.fut = none)
    (ha : h.await = .insertReceived d) (hun : Unstored as j (s.view j).handler) :
    FirstDispatch (as ++ [.handlerCall now]) d ∧ d.jobId = j := by
  cases hun with
  | handling has hd hlost hwithin ho hh' =>
    rename_i before within d' h'
    cases hh.symm.trans ho
    rcases hh' with rfl | rfl | rfl
    · cases ha
    · cases ha
    · cases ha
      subst hd has
      refine ⟨⟨before, within, now, [], s, by simp, hlost, hwithin, hr, (handler_view.mp hh).1, hx⟩, rfl⟩
  | lost _ ho =>
    have hcan := ho h hh
    rw [ha] at hcan
    cases hcan

theorem OfFirst.first_step (hr : agent.run init as = some s) (hs : agent.step s a = some s')
    (h : OfFirst as s j) {row' : PrintJobRow} (hy : s'.store.row j = some row') :
    ∃ d, FirstDispatch (as ++ [a]) d ∧ d.jobId = j ∧ row'.asked = d.newJob := by
  have hreach : agent.Reach Machine.Any s := .of_run hr
  have hkept : ∀ {row}, s.store.row j = some row → row'.asked = row.asked →
      ∃ d, FirstDispatch (as ++ [a]) d ∧ d.jobId = j ∧ row'.asked = d.newJob := by
    intro row hx hasked
    obtain ⟨d, hfirst, hd, he⟩ := h.first row hx
    exact ⟨d, hfirst.mono _, hd, hasked.trans he⟩
  rcases seen_step (j := j) hreach hs with ⟨he, _⟩ | ⟨b, hseen, hf, hb, hstep⟩
  · exact hkept ((congrArg Job.row he).symm.trans hy) rfl
  · cases hx : s.store.row j with
    | some row => exact hkept hx (Job.asked_step hf hb hstep hx hy)
    | none =>
      obtain ⟨now, hd, d, rfl, hh, hfut, ha, rfl, _⟩ := Job.insert_step hf hb hstep hx hy
      have hcall := handlerCall_of_seen hseen
      subst hcall
      obtain ⟨hfirst, hd⟩ := (h.unstored hx).first hr hx hh hfut ha
      exact ⟨d, hfirst, hd, PrintJobRow.inserted_asked ..⟩

theorem fetched_of_answer (hr : agent.run init as = some s) (hs : agent.step s a = some s')
    {job : NewJob} {P : String → Prop} (h : (s.view j).Asked job P) {path : String}
    (hseen : s.seen j a = some (.taskAnswer (.downloaded path))) {t : Task} {record : PrintJobRecord}
    (ht : (s.view j).task = some t) (ha : t.await = .download record) :
    Fetched (as ++ [a]) j job.documentUrl path := by
  obtain ⟨i, rfl⟩ := taskAnswer_of_seen hseen
  obtain ⟨t', ht', _⟩ := of_step_taskAnswer hs
  cases ht.symm.trans (view_task (sound_of_reach (.of_run hr)) ht').1
  have hasked := ((h.task t ht).await.record record (by rw [ha]; rfl)).asked
  exact ⟨as, i, [], s, t, record, rfl, hr, ht', ha, congrArg NewJob.documentUrl hasked⟩

theorem OfFirst.asked_step (hr : agent.run init as = some s) (hs : agent.step s a = some s')
    (h : OfFirst as s j) {row' : PrintJobRow} (hy : s'.store.row j = some row') :
    (s'.view j).Asked row'.asked (Fetched (as ++ [a]) j row'.asked.documentUrl) := by
  have hreach : agent.Reach Machine.Any s := .of_run hr
  have hkept : ∀ {row}, s.store.row j = some row →
      (s.view j).Asked row.asked (Fetched (as ++ [a]) j row.asked.documentUrl) :=
    fun hx => (h.asked _ hx).mono fun path hf => hf.mono _
  rcases seen_step (j := j) hreach hs with ⟨he, _⟩ | ⟨b, hseen, hf, hb, hstep⟩
  · rw [he]
    exact hkept ((congrArg Job.row he).symm.trans hy)
  · cases hx : s.store.row j with
    | some row =>
      rw [Job.asked_step hf hb hstep hx hy]
      refine (hkept hx).step hx (fun t record path hb ht ha => ?_) hstep
      subst hb
      exact fetched_of_answer hr hs (hkept hx) hseen ht ha
    | none =>
      -- the job is new: it has the row, and nothing else
      have hprints := (Job.unstored_step hf hb hstep hx).trans (h.unprinted hx)
      obtain ⟨now, hd, d, _, _, _, _, rfl, htask, hleft⟩ := Job.insert_step hf hb hstep hx hy
      constructor
      · intro row hrow
        cases hy.symm.trans hrow
        exact ⟨rfl, fun path hpath => by cases hpath⟩
      · intro t ht
        rw [htask] at ht
        cases ht
      · intro c hc
        rw [hleft] at hc
        cases hc
      · intro p hp
        rw [hprints] at hp
        cases hp

theorem OfFirst.step (hr : agent.run init as = some s) (hs : agent.step s a = some s')
    (h : OfFirst as s j) : OfFirst (as ++ [a]) s' j := by
  have hreach : agent.Reach Machine.Any s := .of_run hr
  refine ⟨fun hy => ?_, fun hy => ?_, fun row' => h.first_step hr hs, fun row' => h.asked_step hr hs⟩
  · have hx := unstored_of_step hreach hs hy
    exact (h.unstored hx).step hreach hs hx hy
  · have hx := unstored_of_step hreach hs hy
    rcases seen_step (j := j) hreach hs with ⟨he, _⟩ | ⟨b, _, hf, hb, hstep⟩
    · rw [he]
      exact h.unprinted hx
    · exact (Job.unstored_step hf hb hstep hx).trans (h.unprinted hx)

theorem ofFirst_init : OfFirst [] init j where
  unstored _ := .lost allLost_nil fun h ho => by cases ho
  unprinted _ := rfl
  first row hrow := by cases hrow
  asked row hrow := by cases hrow

theorem ofFirst_of_run (h : agent.run init as = some s) : OfFirst as s j :=
  Machine.run_invariant (I := fun as s => OfFirst as s j) ofFirst_init (fun _ _ _ _ hr h hs => h.step hr hs) h

end Step

/-- what is printed is what the first dispatch of the job asks for -/
theorem usesFirst_of_run {as : List Act} {s : Agent} (h : agent.run init as = some s) {p : PrintCall}
    (hp : p ∈ s.prints) : UsesFirst as p := by
  have hof : OfFirst as s p.jobId := ofFirst_of_run h
  have hmem : p ∈ (s.view p.jobId).prints := List.mem_filter.mpr ⟨hp, decide_eq_true rfl⟩
  cases hrow : s.store.row p.jobId with
  | none =>
    rw [hof.unprinted hrow] at hmem
    cases hmem
  | some row =>
    obtain ⟨d, hfirst, hd, hasked⟩ := hof.first row hrow
    have hholds := (hof.asked row hrow).prints p hmem
    rw [hasked] at hholds
    exact ⟨d, hfirst, hd, hholds.printer, hholds.copies, hholds.path⟩

end Agent

end PrintAgent
