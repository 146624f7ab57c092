import PrintAgent.Core.Job
import PrintAgent.Net.Downloader

/-!
# The agent and its files

The agent with the download folder: `download_document` from its call to its end, the files it writes,
and somebody else who deletes them.

* `Disk`, `Disk.step`   the agent, the files under their paths, and a download for each task that
                        awaits one.  A step of the agent is one here (`DiskAct.agent`), but its downloads
                        answer as `download_document` does, and `Path(local_path).exists()` is so;
* `JobDisk`             the same as one job sees it, with all files, and how it moves (`JobDisk.Step`);
                        that the one, seen by a job, is the other is `disk_shows` (`Core/DiskView.lean`).

A file is created when the response is accepted, and grows with each chunk; what was written before a
crash stays.  `Document.ended`, `fetches` and `printed` are history: the download that wrote the file
came to its end, the responses that were read to their end, and what was in the file at each call of
`PrinterManager.print`.
-/

namespace PrintAgent

open PyJson (Str)
open PyUrl (Unicode)
open PyPath (Flavour)

/-- the platform, and the arguments of `download_document` that are the same for all jobs -/
structure DownloadSettings where
  unicode : Unicode
  flavour : Flavour
  destDir : String
  agentSecret : Str
  allowedHost : Option Str
  allowInsecureHttp : Bool

namespace DownloadSettings

def path (c : DownloadSettings) (jobId : String) : String := documentPath c.flavour c.destDir jobId

def request (c : DownloadSettings) (record : PrintJobRecord) : Except UrlRefused DocumentRequest :=
  downloadRequest c.unicode record.documentUrl c.agentSecret c.allowedHost c.allowInsecureHttp

end DownloadSettings

/-- a file: its bytes, and whether the download that wrote them came to its end -/
structure Document where
  content : List UInt8
  ended : Bool
  deriving DecidableEq, Repr

/-- the await is `download_document` -/
def Await.isDownload : Await → Bool
  | .download _ => true
  | _ => false

/-- what `_process` reads from the record it got: the path whose existence decides -/
def Task.recorded (t : Task) : Option String :=
  match t.await, t.fut with
  | .get, some (.record (some record)) => record.localFilePath
  | _, _ => none

def Download.unlink : Download → Download
  | .receiving request response body _ => .receiving request response body false
  | d => d

structure Disk where
  agent : Agent
  /-- by the text of the path: ids whose names are one to the file system (on Windows `a` and `A`) are outside
  of this model, two such files are two here -/
  files : String → Option Document
  downloads : String × Nat → Option Download
  fetches : List Fetch
  printed : List (PrintCall × Option (List UInt8))

inductive DiskAct where
  | agent (a : Act)
  /-- the download of a task: it makes its request (or is refused, with this message), the response
  comes, a chunk, the end of the body, or an exception -/
  | request (jobId : String) (i : Nat) (message : String)
  | response (jobId : String) (i : Nat) (response : Response)
  | chunk (jobId : String) (i : Nat) (bytes : List UInt8)
  | finish (jobId : String) (i : Nat)
  | httpxError (jobId : String) (i : Nat) (e : HttpxError) (error : String)
  | raises (jobId : String) (i : Nat) (message : String)
  /-- somebody deletes a file -/
  | delete (path : String)
  deriving DecidableEq, Repr

/-- the call of `PrinterManager.print` that something is -/
def Agent.printOf (s : Agent) : Act → Option PrintCall
  | .taskPrint jobId i _ => (s.task jobId i).bind (·.pendingPrint jobId)
  | .leftPrint jobId n =>
    match (s.slots jobId).leftBehind[n]? with
    | some (.print p) => some p
    | _ => none
  | _ => none

namespace Disk

def init : Disk := ⟨.init, fun _ => none, fun _ => none, [], []⟩

/-- the agent's part of a step: downloads answer for themselves, and the check of the recorded path is
one of the files -/
def fits (s : Disk) : Act → Bool
  | .taskAnswer jobId i _ => !(s.agent.task jobId i).any (·.await.isDownload)
  | .taskResume jobId i pathExists =>
    ((s.agent.task jobId i).bind Task.recorded).all fun path => pathExists = (s.files path).isSome
  | _ => true

/-- a download begins with the await, and ends with its task or with the process -/
def downloadsAfter (s : Disk) (agent : Agent) : Act → String × Nat → Option Download
  | .taskResume jobId i _ =>
    if (agent.task jobId i).any (·.await.isDownload) then
      Function.update s.downloads (jobId, i) (some .called)
    else s.downloads
  | .taskThrow jobId i => Function.update s.downloads (jobId, i) none
  | .crash => fun _ => none
  | _ => s.downloads

def contentOf (files : String → Option Document) (p : PrintCall) : PrintCall × Option (List UInt8) :=
  (p, (files p.filePath).map (·.content))

/-- the download of a task that awaits it, with the record -/
def reading (s : Disk) (jobId : String) (i : Nat) : Option (PrintJobRecord × Download) := do
  let t ← s.agent.task jobId i
  let d ← s.downloads (jobId, i)
  match t.await with
  | .download record => if t.isWaiting then some (record, d) else none
  | _ => none

def setDownload (s : Disk) (jobId : String) (i : Nat) (d : Download) : Disk :=
  { s with downloads := Function.update s.downloads (jobId, i) (some d) }

def write (s : Disk) (path : String) (linked : Bool) (document : Document) : Disk :=
  if linked then { s with files := Function.update s.files path (some document) } else s

def addFetch (s : Disk) (f : Fetch) : Disk := { s with fetches := s.fetches ++ [f] }

def answer (s : Disk) (jobId : String) (i : Nat) (ans : Answer) : Option Disk := do
  let agent ← s.agent.step (.taskAnswer jobId i ans)
  some { s with agent := agent, downloads := Function.update s.downloads (jobId, i) none }

def fail (s : Disk) (jobId : String) (i : Nat) (e : DownloadError) : Option Disk :=
  s.answer jobId i (.downloadError e.errorCode e.message)

def step (c : DownloadSettings) (s : Disk) : DiskAct → Option Disk
  | .agent a =>
    if s.fits a then
      (s.agent.step a).map fun agent =>
        { s with
          agent := agent
          downloads := s.downloadsAfter agent a
          printed := s.printed ++ (s.agent.printOf a).toList.map (contentOf s.files) }
    else none
  | .request jobId i message => do
    let (record, d) ← s.reading jobId i
    match d, c.request record with
    | .called, .ok request => some (s.setDownload jobId i (.requested request))
    | .called, .error e =>
      s.answer jobId i (e.errorCode.elim (.raised message) fun errorCode => .downloadError errorCode message)
    | _, _ => none
  | .response jobId i response => do
    let (_, d) ← s.reading jobId i
    match d, response.check c.unicode with
    | .requested request, .ok _ =>
      -- `open(dest_path, "wb")`
      some ((s.write (c.path jobId) true ⟨[], false⟩).setDownload jobId i
        (.receiving request response [] true))
    | .requested _, .error e => s.fail jobId i e
    | _, _ => none
  | .chunk jobId i bytes => do
    let (_, d) ← s.reading jobId i
    match d with
    | .receiving request response body linked =>
      match checkSize (body ++ bytes).length with
      | .ok _ =>
        some ((s.write (c.path jobId) linked ⟨body ++ bytes, false⟩).setDownload jobId i
          (.receiving request response (body ++ bytes) linked))
      | .error e => s.fail jobId i e
    | _ => none
  | .finish jobId i => do
    let (_, d) ← s.reading jobId i
    match d with
    | .receiving request response body linked =>
      let s := s.addFetch ⟨jobId, request, response, body⟩
      match checkNotEmpty body.length with
      | .ok _ =>
        (s.write (c.path jobId) linked ⟨body, true⟩).answer jobId i (.downloaded (c.path jobId))
      | .error e => s.fail jobId i e
    | _ => none
  | .httpxError jobId i e error => do
    let (_, d) ← s.reading jobId i
    if d = .called then none else s.fail jobId i (e.downloadError error)
  | .raises jobId i message => do
    let (_, d) ← s.reading jobId i
    if d = .called then none else s.answer jobId i (.raised message)
  | .delete path =>
    some { s with
      files := Function.update s.files path none
      downloads := fun k => (s.downloads k).map fun d => if c.path k.1 = path then d.unlink else d }

end Disk

def disk (c : DownloadSettings) : Machine Disk DiskAct := ⟨Disk.init, Disk.step c⟩

/-! ## what one job sees -/

structure JobDisk where
  job : Job
  files : String → Option Document
  download : Option Download
  fetches : List Fetch
  printed : List (PrintCall × Option (List UInt8))

/-- what can happen, as one job sees it: a step of the job, of its download, a deletion, a download of
another job -/
inductive JobDiskAct where
  | job (b : JobAct)
  | download
  | delete (path : String)
  | other
  deriving DecidableEq, Repr

namespace JobDisk

/-- the call of `PrinterManager.print` that something is -/
def printOf (jobId : String) (x : Job) : JobAct → Option PrintCall
  | .taskPrint _ => x.task.bind (·.pendingPrint jobId)
  | .leftPrint n =>
    match x.leftBehind[n]? with
    | some (.print p) => some p
    | _ => none
  | _ => none

def fits (x : JobDisk) : JobAct → Bool
  | .taskAnswer _ => !x.job.task.any (·.await.isDownload)
  | .taskResume pathExists _ =>
    (x.job.task.bind Task.recorded).all fun path => pathExists = (x.files path).isSome
  | _ => true

def downloadAfter (x : JobDisk) (y : Job) : JobAct → Option Download
  | .taskResume _ _ => if y.task.any (·.await.isDownload) then some .called else x.download
  | .taskThrow | .crash => none
  | _ => x.download

def after (jobId : String) (x : JobDisk) (b : JobAct) (y : Job) : JobDisk :=
  { x with
    job := y
    download := x.downloadAfter y b
    printed := x.printed ++ (printOf jobId x.job b).toList.map (Disk.contentOf x.files) }

structure Reading (x : JobDisk) (t : Task) (record : PrintJobRecord) (d : Download) : Prop where
  task : x.job.task = some t
  await : t.await = .download record
  isWaiting : t.isWaiting = true
  download : x.download = some d

def write (path : String) (linked : Bool) (document : Document) (x : JobDisk) : JobDisk :=
  if linked then { x with files := Function.update x.files path (some document) } else x

def addFetches (fetches : List Fetch) (x : JobDisk) : JobDisk := { x with fetches := x.fetches ++ fetches }

def answer (x : JobDisk) (t : Task) (ans : Answer) : JobDisk :=
  { x with job := { x.job with task := some (t.answer ans) }, download := none }

inductive Step (c : DownloadSettings) (jobId : String) : JobDisk → JobDiskAct → JobDisk → Prop
  | job {x : JobDisk} {b : JobAct} {y : Job} (hs : Job.Step jobId x.job b y)
      (hfits : x.fits b = true) : Step c jobId x (.job b) (x.after jobId b y)
  | requested {x : JobDisk} {t : Task} {record : PrintJobRecord} {request : DocumentRequest}
      (h : x.Reading t record .called) (hr : c.request record = .ok request) :
      Step c jobId x .download { x with download := some (.requested request) }
  | opened {x : JobDisk} {t : Task} {record : PrintJobRecord} {request : DocumentRequest}
      {response : Response} (h : x.Reading t record (.requested request))
      (hr : response.check c.unicode = .ok ()) :
      Step c jobId x .download
        { x.write (c.path jobId) true ⟨[], false⟩ with
          download := some (.receiving request response [] true) }
  | received {x : JobDisk} {t : Task} {record : PrintJobRecord} {request : DocumentRequest}
      {response : Response} {body bytes : List UInt8} {linked : Bool}
      (h : x.Reading t record (.receiving request response body linked))
      (hb : checkSize (body ++ bytes).length = .ok ()) :
      Step c jobId x .download
        { x.write (c.path jobId) linked ⟨body ++ bytes, false⟩ with
          download := some (.receiving request response (body ++ bytes) linked) }
  | ended {x : JobDisk} {t : Task} {record : PrintJobRecord} {request : DocumentRequest}
      {response : Response} {body : List UInt8} {linked : Bool}
      (h : x.Reading t record (.receiving request response body linked))
      (hb : checkNotEmpty body.length = .ok ()) :
      Step c jobId x .download
        (((x.addFetches [⟨jobId, request, response, body⟩]).write (c.path jobId) linked ⟨body, true⟩).answer
          t (.downloaded (c.path jobId)))
  /-- an error, also one after the end of the body -/
  | failed {x : JobDisk} {t : Task} {record : PrintJobRecord} {d : Download} {ans : Answer}
      (fetches : List Fetch) (h : x.Reading t record d) (hans : ∀ path, ans ≠ .downloaded path)
      (hf : fetches = [] ∨ ∃ request response body linked, d = .receiving request response body linked ∧
        fetches = [⟨jobId, request, response, body⟩]) :
      Step c jobId x .download ((x.addFetches fetches).answer t ans)
  | deleted {x : JobDisk} (path : String) :
      Step c jobId x (.delete path)
        { x with
          files := Function.update x.files path none
          download := x.download.map fun d => if c.path jobId = path then d.unlink else d }
  | other {x : JobDisk} (files : String → Option Document)
      (hf : files (c.path jobId) = x.files (c.path jobId)) :
      Step c jobId x .other { x with files := files }

end JobDisk

namespace Disk

def view (jobId : String) (s : Disk) : JobDisk where
  job := s.agent.view jobId
  files := s.files
  download := s.downloads (jobId, 0)
  fetches := s.fetches.filter (·.jobId = jobId)
  printed := s.printed.filter (·.1.jobId = jobId)

def seen (jobId : String) (s : Disk) : DiskAct → Option JobDiskAct
  | .agent a => (s.agent.seen jobId a).map .job
  | .request k _ _ | .response k _ _ | .chunk k _ _ | .finish k _ | .httpxError k _ _ _
  | .raises k _ _ => some (if k = jobId then .download else .other)
  | .delete path => some (.delete path)

end Disk

end PrintAgent
