import PrintAgent.Lib.Table
import PrintAgent.Models

/-!
# The persistent print job queue

`db/queue_store.py` over the table `print_jobs` of `db/schema.sql`.  Every method runs under the
store's lock and commits before it returns, so a method is one function on the table; the clock
reading `_now_iso()` of a method is its argument `now`.

* `PrintJobRecord`, `PrintJobRow`     what `get` returns; a row, with the time stamps nothing reads;
* `QueueStore.insertReceived`, `updateStatus`, `setLocalFilePath`, `listNonTerminal`,
  `markStuckPrintingAsFailed`         the methods;
* `StoreCall`, `QueueStore.call`      the calls that a job's coroutines submit to a thread, and what
                                      a call does when the thread runs it;
* `rowCall`                           the same on the job's own row; `call_row` says that a call
                                      does just that, `call_other` that it leaves other jobs alone.
-/

namespace PrintAgent

structure PrintJobRecord where
  jobId : String
  printerLocalId : String
  documentType : String
  documentId : String
  documentUrl : String
  copies : Int
  status : PrintJobStatus
  errorCode : Option String
  errorMessage : Option String
  localFilePath : Option String
  attempts : Nat
  deriving DecidableEq, Repr

/-- a row of `print_jobs` -/
structure PrintJobRow extends PrintJobRecord where
  receivedAt : Option String
  startedAt : Option String
  completedAt : Option String
  failedAt : Option String
  cancelledAt : Option String
  createdAt : String
  updatedAt : String
  deriving DecidableEq, Repr

/-- the columns an inserted row takes from the dispatch, the job id apart -/
structure NewJob where
  printerLocalId : String
  documentType : String
  documentId : String
  documentUrl : String
  copies : Int
  deriving DecidableEq, Repr

/-- the arguments of `insert_received` in `handle_dispatch` -/
def PrintJobDispatch.newJob (d : PrintJobDispatch) : NewJob where
  printerLocalId := d.printerId
  documentType := d.documentType
  documentId := d.documentId
  documentUrl := d.documentUrl
  copies := d.copies

namespace PrintJobRow

/-- the row that `insert_received` inserts -/
def inserted (now jobId : String) (job : NewJob) : PrintJobRow where
  jobId := jobId
  printerLocalId := job.printerLocalId
  documentType := job.documentType
  documentId := job.documentId
  documentUrl := job.documentUrl
  copies := job.copies
  status := .received
  errorCode := none
  errorMessage := none
  localFilePath := none
  attempts := 0
  receivedAt := some now
  startedAt := none
  completedAt := none
  failedAt := none
  cancelledAt := none
  createdAt := now
  updatedAt := now

/-- `_TIMESTAMP_FIELD_BY_STATUS` -/
def stamp (now : String) (row : PrintJobRow) : PrintJobStatus → PrintJobRow
  | .received => { row with receivedAt := some now }
  | .printing => { row with startedAt := some now }
  | .completed => { row with completedAt := some now }
  | .failed => { row with failedAt := some now }
  | .cancelled => { row with cancelledAt := some now }
  | .queued | .waitingForPrinter => row

/-- the `SET` clauses of `update_status`; an error field that is `None` is not set -/
def updateStatus (now : String) (status : PrintJobStatus) (errorCode errorMessage : Option String)
    (row : PrintJobRow) : PrintJobRow :=
  stamp now
    { row with
      status := status
      attempts := row.attempts + 1
      updatedAt := now
      errorCode := errorCode <|> row.errorCode
      errorMessage := errorMessage <|> row.errorMessage } status

def setLocalFilePath (now path : String) (row : PrintJobRow) : PrintJobRow :=
  { row with localFilePath := some path, updatedAt := now }

/-- the error code of a job that was `PRINTING` when the agent stopped -/
def restartErrorCode : String := "AGENT_RESTARTED_DURING_PRINT"

def restartErrorMessage : String := "The agent restarted while this job was printing."

/-- the `SET` clauses of `mark_stuck_printing_as_failed` -/
def markFailed (now : String) (row : PrintJobRow) : PrintJobRow :=
  { row with
    status := .failed
    errorCode := some restartErrorCode
    errorMessage := some restartErrorMessage
    failedAt := some now
    updatedAt := now
    attempts := row.attempts + 1 }

@[simp] theorem stamp_record (now : String) (row : PrintJobRow) (status : PrintJobStatus) :
    (stamp now row status).toPrintJobRecord = row.toPrintJobRecord := by
  cases status <;> rfl

@[simp] theorem updateStatus_jobId (now : String) (status : PrintJobStatus)
    (errorCode errorMessage : Option String) (row : PrintJobRow) :
    (updateStatus now status errorCode errorMessage row).jobId = row.jobId := by
  simp [updateStatus]

@[simp] theorem updateStatus_status (now : String) (status : PrintJobStatus)
    (errorCode errorMessage : Option String) (row : PrintJobRow) :
    (updateStatus now status errorCode errorMessage row).status = status := by
  simp [updateStatus]

@[simp] theorem setLocalFilePath_status (now path : String) (row : PrintJobRow) :
    (setLocalFilePath now path row).status = row.status := rfl

@[simp] theorem inserted_status (now jobId : String) (job : NewJob) :
    (inserted now jobId job).status = .received := rfl

@[simp] theorem markFailed_status (now : String) (row : PrintJobRow) :
    (markFailed now row).status = .failed := rfl

/-- the primary key of `print_jobs` -/
abbrev key (row : PrintJobRow) : String := row.jobId

def statusEdit (now : String) (status : PrintJobStatus) (errorCode errorMessage : Option String) :
    Edit key :=
  ⟨updateStatus now status errorCode errorMessage, by simp [key]⟩

def pathEdit (now path : String) : Edit key := ⟨setLocalFilePath now path, fun _ => rfl⟩

def failEdit (now : String) : Edit key := ⟨markFailed now, fun _ => rfl⟩

end PrintJobRow

/-- the table `print_jobs` -/
abbrev QueueStore := Table PrintJobRow.key

namespace QueueStore

/-- `get`, before `_row_to_record` -/
abbrev row (store : QueueStore) (jobId : String) : Option PrintJobRow := Table.get store jobId

def get (store : QueueStore) (jobId : String) : Option PrintJobRecord :=
  (store.row jobId).map (·.toPrintJobRecord)

def insertReceived (now jobId : String) (job : NewJob) (store : QueueStore) : Bool × QueueStore :=
  Table.insertOrIgnore store (.inserted now jobId job)

def updateStatus (now jobId : String) (status : PrintJobStatus)
    (errorCode errorMessage : Option String) (store : QueueStore) : QueueStore :=
  Table.update store jobId (PrintJobRow.statusEdit now status errorCode errorMessage)

def setLocalFilePath (now jobId path : String) (store : QueueStore) : QueueStore :=
  Table.update store jobId (PrintJobRow.pathEdit now path)

def listNonTerminal (store : QueueStore) : List PrintJobRecord :=
  (store.rows.filter fun row => !row.status.isTerminal).map (·.toPrintJobRecord)

/-- the ids that `mark_stuck_printing_as_failed` selects and returns -/
def stuckPrinting (store : QueueStore) : List String :=
  (store.rows.filter fun row => row.status = .printing).map (·.jobId)

/-- `mark_stuck_printing_as_failed`: select, then one `UPDATE` for each selected id, one commit -/
def markStuckPrintingAsFailed (now : String) (store : QueueStore) : List String × QueueStore :=
  (store.stuckPrinting,
    store.stuckPrinting.foldl
      (fun store jobId => Table.update store jobId (PrintJobRow.failEdit now)) store)

end QueueStore

/-- what a call handed to a thread, or awaited otherwise, answers -/
inductive Answer where
  | record (record : Option PrintJobRecord)
  | inserted (inserted : Bool)
  | done
  | status (online : Bool)
  | downloaded (path : String)
  | downloadError (errorCode message : String)
  | raised (message : String)
  deriving DecidableEq, Repr

/-- the calls of the store that the coroutines of a job submit with `asyncio.to_thread` -/
inductive StoreCall where
  | get
  | insertReceived (job : NewJob)
  | updateStatus (status : PrintJobStatus) (errorCode errorMessage : Option String)
  | setLocalFilePath (path : String)
  deriving DecidableEq, Repr

/-- what the thread does: the answer, and the store after the commit -/
def QueueStore.call (now jobId : String) (store : QueueStore) : StoreCall → Answer × QueueStore
  | .get => (.record (store.get jobId), store)
  | .insertReceived job =>
    let r := store.insertReceived now jobId job
    (.inserted r.1, r.2)
  | .updateStatus status errorCode errorMessage =>
    (.done, store.updateStatus now jobId status errorCode errorMessage)
  | .setLocalFilePath path => (.done, store.setLocalFilePath now jobId path)

def rowCall (now jobId : String) (row : Option PrintJobRow) :
    StoreCall → Answer × Option PrintJobRow
  | .get => (.record (row.map (·.toPrintJobRecord)), row)
  | .insertReceived job => (.inserted row.isNone, some (row.getD (.inserted now jobId job)))
  | .updateStatus status errorCode errorMessage =>
    (.done, row.map (.updateStatus now status errorCode errorMessage))
  | .setLocalFilePath path => (.done, row.map (.setLocalFilePath now path))

namespace QueueStore

/-- a call answers, and does to the job's row, what `rowCall` says -/
theorem call_row (now jobId : String) (store : QueueStore) (c : StoreCall) :
    ((store.call now jobId c).1, (store.call now jobId c).2.row jobId)
      = rowCall now jobId (store.row jobId) c := by
  cases c with
  | get => rfl
  | insertReceived job =>
    show (Answer.inserted (Table.insertOrIgnore store _).1, (Table.insertOrIgnore store _).2.get jobId)
      = _
    rw [Table.insertOrIgnore_fst]
    congr 1
    exact Table.get_insertOrIgnore_self store (.inserted now jobId job)
  | updateStatus status errorCode errorMessage =>
    show (Answer.done, (Table.update store jobId (PrintJobRow.statusEdit ..)).get jobId) = _
    rw [Table.get_update_self]
    rfl
  | setLocalFilePath path =>
    show (Answer.done, (Table.update store jobId (PrintJobRow.pathEdit ..)).get jobId) = _
    rw [Table.get_update_self]
    rfl

theorem call_other (now : String) {jobId k : String} (hk : k ≠ jobId) (store : QueueStore)
    (c : StoreCall) : (store.call now jobId c).2.row k = store.row k := by
  cases c with
  | get => rfl
  | insertReceived job =>
    exact Table.get_insertOrIgnore_of_ne (r := .inserted now jobId job) store hk
  | updateStatus status errorCode errorMessage => exact Table.get_update_of_ne store _ hk
  | setLocalFilePath path => exact Table.get_update_of_ne store _ hk

theorem stuckPrinting_nodup (store : QueueStore) : store.stuckPrinting.Nodup :=
  store.unique.sublist (List.filter_sublist.map _)

theorem mem_stuckPrinting {store : QueueStore} {jobId : String} :
    jobId ∈ store.stuckPrinting ↔ ∃ row, store.row jobId = some row ∧ row.status = .printing := by
  constructor
  · intro h
    obtain ⟨row, hrow, rfl⟩ := List.mem_map.mp h
    obtain ⟨hmem, hst⟩ := List.mem_filter.mp hrow
    exact ⟨row, Table.get_of_mem hmem, by simpa using hst⟩
  · rintro ⟨row, hrow, hst⟩
    obtain ⟨hmem, hid⟩ := Table.get_mem hrow
    exact List.mem_map.mpr ⟨row, List.mem_filter.mpr ⟨hmem, by simpa using hst⟩, hid⟩

/-- the startup pass fails the `PRINTING` rows and leaves every other row as it is -/
theorem row_markStuck (now : String) (store : QueueStore) (jobId : String) :
    (store.markStuckPrintingAsFailed now).2.row jobId
      = (store.row jobId).map fun row => if row.status = .printing then row.markFailed now else row := by
  have h : (store.markStuckPrintingAsFailed now).2.row jobId
      = if jobId ∈ store.stuckPrinting then (store.row jobId).map (.markFailed now)
        else store.row jobId :=
    Table.get_foldl_update store.stuckPrinting store.stuckPrinting_nodup (PrintJobRow.failEdit now) store jobId
  rw [h]
  cases hrow : store.row jobId with
  | none => simp
  | some row =>
    by_cases hst : row.status = .printing
    · simp [mem_stuckPrinting.mpr ⟨row, hrow, hst⟩, hst]
    · have hno : jobId ∉ store.stuckPrinting := fun hm => by
        obtain ⟨row', hrow', hst'⟩ := mem_stuckPrinting.mp hm
        rw [hrow] at hrow'
        cases hrow'
        exact hst hst'
      simp [hno, hst]

theorem listNonTerminal_nodup (store : QueueStore) :
    (store.listNonTerminal.map (·.jobId)).Nodup := by
  unfold listNonTerminal
  rw [List.map_map]
  exact store.unique.sublist (List.filter_sublist.map _)

theorem mem_listNonTerminal {store : QueueStore} {record : PrintJobRecord} :
    record ∈ store.listNonTerminal ↔
      QueueStore.get store record.jobId = some record ∧ record.status.isTerminal = false := by
  unfold listNonTerminal QueueStore.get
  constructor
  · intro h
    obtain ⟨row, hrow, rfl⟩ := List.mem_map.mp h
    obtain ⟨hmem, hst⟩ := List.mem_filter.mp hrow
    have hget : Table.get store row.jobId = some row := Table.get_of_mem hmem
    exact ⟨by simp [QueueStore.row, hget], by simpa using hst⟩
  · rintro ⟨hget, hst⟩
    obtain ⟨row, hrow, rfl⟩ := Option.map_eq_some_iff.mp hget
    exact List.mem_map.mpr ⟨row, List.mem_filter.mpr ⟨(Table.get_mem hrow).1, by simpa using hst⟩, rfl⟩

end QueueStore

end PrintAgent
