import PrintAgent.Core.Rows
import PrintAgent.Net.DownloadDocument

/-!
# The error codes that reach the hub

`PRINT_JOB_ERROR_CODES` lists the codes that the hub knows.  The codes come from `download_document`, from
`_process` and from startup recovery; they are kept in the row and are sent from there once more after a
repeated dispatch.

* `IsDownloadError`        the codes that `download_document` fails with;
* `Job.Coded`              the codes of the row, of the task and of the calls left behind;
* `error_codes_known`      every failure that is reported has a known code and a message.
-/

namespace PrintAgent

open PyJson (Str)
open PyUrl (Unicode)
open PyPath (Flavour)

/-! ## downloads -/

/-- the `error_code` of the exception, if it is a `DownloadError` -/
def DownloadExc.errorCode : DownloadExc → Option String
  | .refused e => e.errorCode
  | .download e => some e.errorCode
  | .httpx _ => none

/-- some call of `download_document` fails with this code -/
def IsDownloadError (errorCode : String) : Prop :=
  ∃ (sha : Sha256) (u : Unicode) (fl : Flavour) (x : Exchange) (url : String) (agentSecret : Str)
    (destDir jobId : String)
    (allowedHost : Option Str) (allowInsecureHttp : Bool) (maxBytes : Nat) (e : DownloadExc) (s : Progress sha),
    downloadDocument sha u fl x url agentSecret destDir jobId allowedHost allowInsecureHttp maxBytes = (.error e, s) ∧
      e.errorCode = some errorCode

theorem IsDownloadError.known {errorCode : String} (h : IsDownloadError errorCode) :
    errorCode ∈ printJobErrorCodes := by
  obtain ⟨sha, u, fl, x, url, agentSecret, destDir, jobId, allowedHost, insecure, maxBytes, e, s, hrun, hcode⟩ := h
  cases hrequest : downloadRequest u url agentSecret allowedHost insecure with
  | error refused =>
    have hrefused : e = .refused refused := by
      unfold downloadDocument at hrun
      simp only [hrequest] at hrun
      cases hrun
      rfl
    rw [hrefused] at hcode
    cases refused with
    | valueError => cases hcode
    | unsupportedScheme | plainHttp | otherHost =>
      cases hcode
      decide
  | ok request =>
    rcases downloadDocument_run sha maxBytes x fl destDir jobId hrequest with ⟨s', hok, -⟩ | ⟨e', s', herror, hknown, -⟩
    · cases hrun.symm.trans hok
    · cases hrun.symm.trans herror
      cases hcode
      exact hknown

def Answer.codeOfDownload : Answer → Option String
  | .downloadError errorCode _ => some errorCode
  | _ => none

def Act.downloadError : Act → Option String
  | .taskAnswer _ _ ans => ans.codeOfDownload
  | _ => none

def JobAct.downloadError : JobAct → Option String
  | .taskAnswer ans => ans.codeOfDownload
  | _ => none

/-- a download fails as `download_document` does -/
def Act.DownloadsFail (a : Act) : Prop := ∀ errorCode, a.downloadError = some errorCode → IsDownloadError errorCode

def JobAct.DownloadsFail (b : JobAct) : Prop :=
  ∀ errorCode, b.downloadError = some errorCode → IsDownloadError errorCode

theorem JobAct.downloadsFail_of_seen {j : String} {s : Agent} {a : Act} {b : JobAct} (h : a.DownloadsFail)
    (hb : s.seen j a = some b) : b.DownloadsFail := by
  intro errorCode he
  cases a with
  | taskAnswer k i ans =>
    obtain ⟨-, hb⟩ := Option.ite_none_right_eq_some.mp hb
    cases hb
    exact h errorCode he
  | handlerCall | handlerSend | handlerResume =>
    obtain ⟨_, -, rfl⟩ := Option.map_eq_some_iff.mp hb
    cases he
  | connect | authenticated | flushSend | flushEnd | synced | disconnect => cases hb
  | dispatch | cancel | taskCall | taskSend | taskPrint | taskResume | taskThrow | leftCall | leftPrint | leftDrop =>
    obtain ⟨-, hb⟩ := Option.ite_none_right_eq_some.mp hb
    cases hb
    cases he
  | boot | markStuck | handStuck | listRows | resumeRows | crash =>
    cases hb
    cases he

/-! ## what has a known code -/

def StoreCall.Coded : StoreCall → Prop
  | .updateStatus _ (some errorCode) _ => errorCode ∈ printJobErrorCodes
  | _ => True

def Await.Coded : Await → Prop
  | .setFailed errorCode _ | .sendFailed errorCode _ => errorCode ∈ printJobErrorCodes
  | _ => True

structure Task.Coded (t : Task) : Prop where
  await : t.await.Coded
  fut : ∀ errorCode message, t.fut = some (.downloadError errorCode message) → errorCode ∈ printJobErrorCodes

def PrintJobRow.Coded (row : PrintJobRow) : Prop :=
  ∀ errorCode, row.errorCode = some errorCode → errorCode ∈ printJobErrorCodes

section Coded
variable {a : Await} {jobId now : String} {row row' : PrintJobRow}

theorem Await.Coded.storeCall (h : a.Coded) {c : StoreCall} (hc : a.storeCall = some c) : c.Coded := by
  cases a <;> cases hc <;> exact h

theorem Await.Coded.resume {cancelRequested pathExists : Bool} {ans : Answer} (h : a.Coded)
    (hans : ∀ errorCode message, ans = .downloadError errorCode message → errorCode ∈ printJobErrorCodes) {b : Await}
    (hr : a.resume cancelRequested pathExists ans = some (.await b)) : b.Coded := by
  have hoffline : "PRINTER_OFFLINE" ∈ printJobErrorCodes := by decide
  have hprinter : "PRINTER_ERROR" ∈ printJobErrorCodes := by decide
  have hwait : ∀ {record path}, waitForPrinter cancelRequested record path = .await b → b.Coded := by
    intro record path he
    rw [waitForPrinter_await he]
    trivial
  have honline : ∀ {record path}, printerOnline cancelRequested record path = .await b → b.Coded := by
    intro record path he
    rw [(printerOnline_await he).2]
    trivial
  have hpoll : ∀ {record path waited}, pollLoop cancelRequested record path waited = .await b → b.Coded := by
    intro record path waited he
    unfold pollLoop printerOffline fail at he
    split at he
    · split at he
      · cases he
        exact hoffline
      · cases he
        trivial
    · cases he
      exact hoffline
  unfold Await.resume at hr
  split at hr
  case h_3 =>
    split at hr
    · cases hr
      trivial
    · split at hr
      · cases hr
        trivial
      · exact hwait (Option.some.inj hr)
  case h_5 errorCode message =>
    cases hr
    exact hans errorCode message rfl
  case h_7 => exact hwait (Option.some.inj hr)
  case h_8 => exact honline (Option.some.inj hr)
  case h_11 => exact hpoll (Option.some.inj hr)
  case h_13 => exact honline (Option.some.inj hr)
  case h_14 => exact hpoll (Option.some.inj hr)
  case h_19 =>
    cases hr
    exact hprinter
  case h_22 =>
    cases hr
    exact h
  all_goals cases hr <;> trivial

theorem PrintJobRow.Coded.updateStatus (h : row.Coded) {status : PrintJobStatus}
    {errorCode errorMessage : Option String}
    (hcode : ∀ code, errorCode = some code → code ∈ printJobErrorCodes) :
    (row.updateStatus now status errorCode errorMessage).Coded := by
  intro code he
  rw [PrintJobRow.updateStatus_errorCode] at he
  cases errorCode with
  | none => exact h code he
  | some c => exact hcode code he

theorem PrintJobRow.Coded.rowCall (h : row.Coded) {c : StoreCall} (hc : c.Coded)
    (hrow : (rowCall now jobId (some row) c).2 = some row') : row'.Coded := by
  cases c with
  | get | insertReceived | setLocalFilePath =>
    cases hrow
    exact h
  | updateStatus status errorCode errorMessage =>
    cases hrow
    refine h.updateStatus fun code he => ?_
    rw [he] at hc
    exact hc

end Coded

/-! ## jobs -/

namespace Job
variable {jobId : String} {x y : Job} {b : JobAct}

structure Coded (jobId : String) (x : Job) : Prop where
  row : ∀ row, x.row = some row → row.Coded
  task : ∀ t, x.task = some t → t.Coded
  left : ∀ c, ThreadCall.store c ∈ x.leftBehind → c.Coded
  handed : ∀ errorCode message, .failed jobId errorCode message ∈ x.handed →
    errorCode.isSome = true ∧ message.isSome = true

theorem coded_init : Coded jobId .init where
  row _ h := by cases h
  task _ h := by cases h
  left _ h := by cases h
  handed _ _ h := by cases h

theorem coded_row (hf : x.Fit) (hb : x.Base) (h : x.Coded jobId) (hs : Step jobId x b y) :
    ∀ row, y.row = some row → row.Coded := by
  have hrow := row_step hf hb hs
  intro row' hy
  generalize y.row = o at hrow hy
  cases hrow with
  | same he => exact h.row row' (he.symm.trans hy)
  | inserted =>
    cases hy
    intro code he
    cases he
  | restarted =>
    cases hy
    intro code he
    cases he
    decide
  | cancelled now hh hfut ha hrow =>
    cases hy
    exact (h.row _ hrow).updateStatus fun code he => by cases he
  | worked now ht hl hfut hc hrow => exact (h.row _ hrow).rowCall ((h.task _ ht).await.storeCall hc) hy
  | left now hn hrow => exact (h.row _ hrow).rowCall (h.left _ (List.mem_of_getElem? hn)) hy

theorem coded_answer {t : Task} {ans : Answer} (h : t.Coded)
    (hans : ∀ errorCode message, ans = .downloadError errorCode message → errorCode ∈ printJobErrorCodes) :
    (t.answer ans).Coded where
  await := h.await
  fut errorCode message he := hans errorCode message (Option.some.inj he)

theorem coded_task (h : x.Coded jobId) (hd : b.DownloadsFail) (hs : Step jobId x b y) :
    ∀ t, y.task = some t → t.Coded := by
  have hnew : Task.new.Coded := ⟨trivial, fun _ _ he => by cases he⟩
  have hfinished : Task.finished.Coded := ⟨trivial, fun _ _ he => by cases he⟩
  intro t hy
  cases hs with
  | resumeRows hl =>
    rename_i resume
    cases resume with
    | false => exact h.task t hy
    | true =>
      cases hy
      exact hnew
  | handlerCancelTask =>
    rcases x.cancelTask_cases jobId with ⟨he, -⟩ | ⟨t', -, ht', he⟩
    · rw [he] at hy
      exact h.task t hy
    · rw [he] at hy
      cases hy
      obtain ⟨hawait, hfut⟩ := h.task t' ht'
      exact ⟨by rwa [Task.cancel_await], by rwa [Task.cancel_fut]⟩
  | handlerCreateTask =>
    cases hy
    exact hnew
  | taskCall now ht hc =>
    rename_i t' c
    cases hy
    refine coded_answer (h.task t' ht) fun errorCode message he => ?_
    cases c <;> cases he
  | taskAnswer ht hw ha =>
    cases hy
    refine coded_answer (h.task _ ht) fun errorCode message he => ?_
    subst he
    exact (hd errorCode rfl).known
  | taskSend ht he =>
    cases hy
    exact coded_answer (h.task _ ht) fun errorCode message he => by cases he
  | taskPrint raises ht hp =>
    cases hy
    refine coded_answer (h.task _ ht) fun errorCode message he => ?_
    cases raises <;> cases he
  | taskAwait pathExists socket ht hn hfut hr =>
    rename_i t' ans a
    cases hy
    refine ⟨(h.task t' ht).await.resume (fun errorCode message he => ?_) hr, fun errorCode message he => ?_⟩
    · subst he
      exact (h.task t' ht).fut errorCode message hfut
    · unfold Task.goTo at he
      split at he <;> cases he
  | taskRet =>
    cases hy
    exact hfinished
  | taskThrow =>
    cases hy
    exact hfinished
  | crash => cases hy
  | _ => exact h.task t hy

theorem coded_left (h : x.Coded jobId) (hs : Step jobId x b y) : ∀ c, ThreadCall.store c ∈ y.leftBehind → c.Coded := by
  intro c hc
  rcases leftBehind_step hs with hsub | ⟨t, _, _, ht, _, _, _, _, _, _, rfl⟩
  · exact h.left c (hsub.subset hc)
  · rcases List.mem_append.mp hc with hold | hnew
    · exact h.left c hold
    · rcases Task.mem_pendingThreadCall.mp hnew with ⟨sc, hsc, he⟩ | ⟨p, _, he⟩
      · cases he
        exact (h.task t ht).await.storeCall (Task.of_pendingStoreCall hsc).2.2
      · cases he

/-- a failure is read off a row that has failed, or was just written -/
theorem coded_handed (htold : x.Told jobId) (hrowed : x.Rowed) (h : x.Coded jobId) (hs : Step jobId x b y) :
    ∀ errorCode message, .failed jobId errorCode message ∈ y.handed →
      errorCode.isSome = true ∧ message.isSome = true := by
  intro errorCode message hmem
  cases hs with
  | handStuck hl =>
    rename_i stuck
    rcases List.mem_append.mp hmem with hold | hnew
    · exact h.handed _ _ hold
    · cases stuck with
      | false => cases hnew
      | true =>
        cases List.mem_singleton.mp hnew
        exact ⟨rfl, rfl⟩
  | resumeRows hl =>
    rename_i resume
    cases resume <;> exact h.handed _ _ hmem
  | handlerCancelTask =>
    rw [show (cancelTask jobId x).handed = x.handed from x.cancelTask_handed jobId] at hmem
    exact h.handed _ _ hmem
  | handlerAwait hh hfut hr =>
    rename_i hd ans a
    rcases List.mem_append.mp hmem with hold | hnew
    · exact h.handed _ _ hold
    · cases a with
      | resend event =>
        obtain ⟨record, rfl, hverdict⟩ := HandlerAwait.verdict_of_resend hr
        have hevent : event = .failed jobId errorCode message := (Option.mem_some_iff.mp (Option.mem_toList.mp hnew))
        rw [hevent] at hverdict
        obtain ⟨hst, rfl, rfl⟩ := record.of_verdict_failed hverdict
        obtain ⟨row, hrow, hfailed, hcode, hmessage⟩ := htold.handler hd record hh hfut hst
        have hagrees := hrowed.agrees row hrow
        have hstamped := hagrees.stamped
        rw [hfailed] at hstamped
        rw [← hcode, ← hmessage, hagrees.errorCode, hagrees.errorMessage]
        exact ⟨hstamped, hstamped⟩
      | _ => cases Option.mem_toList.mp hnew
  | taskAwait pathExists socket ht hn hfut hr =>
    rename_i t ans a
    rcases List.mem_append.mp hmem with hold | hnew
    · exact h.handed _ _ hold
    · rcases Await.event_cases (Option.mem_toList.mp hnew) with ⟨he, -⟩ | ⟨he, -⟩ | ⟨c, m, he, -⟩
      · cases he
      · cases he
      · cases he
        exact ⟨rfl, rfl⟩
  | _ => exact h.handed _ _ hmem

theorem coded_step (hf : x.Fit) (hb : x.Base) (htold : x.Told jobId) (hrowed : x.Rowed) (h : x.Coded jobId)
    (hd : b.DownloadsFail) (hs : Step jobId x b y) : y.Coded jobId where
  row := coded_row hf hb h hs
  task := coded_task h hd hs
  left := coded_left h hs
  handed := coded_handed htold hrowed h hs

end Job

namespace Agent
variable {s : Agent}

theorem coded_of_reach (h : agent.Reach (fun _ a => a.DownloadsFail) s) (jobId : String) :
    (s.view jobId).Coded jobId := by
  have hall : (s.view jobId).Told jobId ∧ (s.view jobId).Rowed ∧ (s.view jobId).Coded jobId := by
    refine job_invariant (D := fun _ b => b.DownloadsFail)
      (I := fun x => x.Told jobId ∧ x.Rowed ∧ x.Coded jobId) ⟨Job.told_init, Job.rowed_init, Job.coded_init⟩ ?_
      (fun _ _ ha _ hb => JobAct.downloadsFail_of_seen ha hb) h
    intro x b y hf hb hx hd hs
    exact ⟨Job.told_step hf hb hx.1 hs, Job.rowed_step hf hb hx.2.1 hs, Job.coded_step hf hb hx.1 hx.2.1 hx.2.2 hd hs⟩
  exact hall.2.2

end Agent

/-- **Every failure that is reported has a known code and a message**, whatever `download_document` meets and
however often the agent crashes: the one it reports first, the one a repeated dispatch is answered with, and the
one that the row keeps. -/
theorem error_codes_known {s : Agent} (h : agent.Reach (fun _ a => a.DownloadsFail) s) :
    (∀ jobId errorCode message, .failed jobId errorCode message ∈ s.handed →
      ∃ code text, errorCode = some code ∧ message = some text ∧ code ∈ printJobErrorCodes) ∧
    ∀ jobId row code, s.store.row jobId = some row → row.errorCode = some code →
      code ∈ printJobErrorCodes ∧ row.errorMessage.isSome = true := by
  refine ⟨fun jobId errorCode message hmem => ?_, fun jobId row code hrow hcode =>
    ⟨(Agent.coded_of_reach h jobId).row row hrow code hcode, ?_⟩⟩
  swap
  · have hagrees := (Agent.rowed_of_reach h.any jobId).agrees row hrow
    rw [hagrees.errorMessage, ← hagrees.errorCode, hcode]
    rfl
  have hcoded := Agent.coded_of_reach h jobId
  have hhanded : JobEvent.failed jobId errorCode message ∈ (s.view jobId).handed :=
    List.mem_filter.mpr ⟨hmem, decide_eq_true rfl⟩
  obtain ⟨hcode, hmessage⟩ := hcoded.handed errorCode message hhanded
  obtain ⟨code, rfl⟩ := Option.isSome_iff_exists.mp hcode
  obtain ⟨text, rfl⟩ := Option.isSome_iff_exists.mp hmessage
  obtain ⟨-, row, hrow, -, hsame, -⟩ := (Agent.told_of_reach h.any jobId).handed _ _ hhanded
  exact ⟨code, text, rfl, rfl, hcoded.row row hrow code hsame⟩

def Schedule.refused : List Act :=
  startup "1" ++ connect ++ accept "2" exampleJob ++
    [.taskResume "a" 0 false, .taskCall "a" 0 "3", .taskResume "a" 0 false,
      .taskAnswer "a" 0 (.downloadError "INVALID_JOB" "no scheme"), .taskResume "a" 0 false, .taskCall "a" 0 "4",
      .taskResume "a" 0 false, .taskSend "a" 0 true, .taskResume "a" 0 false]

theorem isSome_refused : (agent.run agent.init Schedule.refused).isSome = true := by decide

/-- the failure of that job is the one that was handed over, and its row keeps it -/
theorem error_codes_known_refused :
    ∃ code text row, .failed "a" (some code) (some text) ∈ (agent.after Schedule.refused isSome_refused).handed ∧
      code ∈ printJobErrorCodes ∧ (agent.after Schedule.refused isSome_refused).store.row "a" = some row ∧
      row.errorMessage.isSome = true := by
  have hinvalid : IsDownloadError "INVALID_JOB" :=
    ⟨.bytes, .ascii, .posix, smallDocument, "u", [], "/tmp", "a", none, false, 4, _, _, rfl, by decide +kernel⟩
  have hreach : agent.Reach (fun _ a => a.DownloadsFail) (agent.after Schedule.refused isSome_refused) :=
    ⟨_, .of_labels (Machine.run_after _ isSome_refused) fun a ha errorCode he => by
      have hcodes : Schedule.refused.filterMap Act.downloadError = ["INVALID_JOB"] := by decide
      have hmem : errorCode ∈ Schedule.refused.filterMap Act.downloadError := List.mem_filterMap.mpr ⟨a, ha, he⟩
      rw [hcodes, List.mem_singleton] at hmem
      rw [hmem]
      exact hinvalid⟩
  have hhanded : .failed "a" (some "INVALID_JOB") (some "no scheme") ∈
      (agent.after Schedule.refused isSome_refused).handed := by
    decide
  obtain ⟨hreported, hkept⟩ := error_codes_known hreach
  obtain ⟨code, text, hcode, htext, hknown⟩ := hreported "a" _ _ hhanded
  cases hcode
  cases htext
  exact ⟨_, _, _, hhanded, hknown, rfl, (hkept "a" _ "INVALID_JOB" rfl rfl).2⟩

end PrintAgent
