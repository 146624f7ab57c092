import PrintAgent.Lib.Raise
import PrintAgent.Net.Downloader

/-!
# One download

`download_document` from its request to its result, for any size limit.

* `Exchange`                   what the HTTP client meets;
* `downloadDocument`           the result or the exception, and what was written;
* `readChunks_run`             the loop over the body;
* `download_document_accepts`  which responses give a result, and what every run leaves behind.
-/

namespace PrintAgent

open PyJson (Str)
open PyUrl (Unicode)
open PyPath (Flavour Path)

/-- `hashlib.sha256`: updates one after the other are an update with their concatenation -/
structure Sha256 where
  Hasher : Type
  new : Hasher
  update : Hasher → List UInt8 → Hasher
  hexdigest : Hasher → String
  update_nil : ∀ hasher, update hasher [] = hasher
  update_append : ∀ hasher chunk chunk', update (update hasher chunk) chunk' = update hasher (chunk ++ chunk')

/-- an `httpx.HTTPError` with its text -/
structure Failure where
  kind : HttpxError
  error : String

/-- what the client meets: a response or none, the chunks of its body, and where an exception comes up -/
structure Exchange where
  response : Except Failure Response
  chunks : List (List UInt8)
  /-- the body breaks off after the chunks -/
  brokenOff : Option Failure
  /-- the response or the client cannot be closed -/
  unclosed : Option Failure

def Exchange.body (x : Exchange) : List UInt8 := x.chunks.flatten

inductive DownloadExc where
  | refused (e : UrlRefused)
  | download (e : DownloadError)
  | httpx (failure : Failure)

structure DownloadResult where
  filePath : Path
  byteCount : Nat
  sha256 : String

def printJobErrorCodes : List String :=
  ["PRINTER_OFFLINE", "PRINTER_ERROR", "DOWNLOAD_FAILED", "CHECKSUM_MISMATCH", "TIMEOUT",
    "AGENT_RESTARTED_DURING_PRINT", "CANCELLED_BY_USER", "INVALID_JOB"]

section Download
variable (sha : Sha256)

/-- `byte_count` and `hasher`, and what was written to the file once it is open -/
structure Progress where
  byteCount : Nat := 0
  hasher : sha.Hasher := sha.new
  file : Option (List UInt8) := none

abbrev Downloading := ExceptT DownloadExc (StateM (Progress sha))

variable {sha}

def orRaise {α : Type} (exc : α → DownloadExc) : Option α → Downloading sha PUnit
  | some a => throw (exc a)
  | none => pure ()

def liftDownload {α : Type} : Except DownloadError α → Downloading sha α
  | .ok a => pure a
  | .error e => throw (.download e)

/-- the check of `byte_count` after a chunk was added, for any limit -/
def checkMaxBytes (maxBytes byteCount : Nat) : Except DownloadError Unit :=
  if maxBytes < byteCount then
    .error ⟨"DOWNLOAD_FAILED", "Document exceeds max size of " ++ toString maxBytes ++ " bytes"⟩
  else .ok ()

def readChunk (maxBytes : Nat) (chunk : List UInt8) : Downloading sha PUnit := do
  modify fun s => { s with byteCount := s.byteCount + chunk.length }
  let s ← get
  liftDownload (checkMaxBytes maxBytes s.byteCount)
  modify fun s => { s with hasher := sha.update s.hasher chunk, file := s.file.map (· ++ chunk) }

/-- `async for chunk in response.aiter_bytes()` -/
def readChunks (maxBytes : Nat) : List (List UInt8) → Downloading sha PUnit
  | [] => pure ()
  | chunk :: chunks => do
    readChunk maxBytes chunk
    readChunks maxBytes chunks

/-- `_run`, without the closing -/
def receive (u : Unicode) (x : Exchange) (maxBytes : Nat) : Downloading sha PUnit := do
  match x.response with
  | .error failure => throw (.httpx failure)
  | .ok response =>
    liftDownload (response.check u)
    modify fun s => { s with file := some [] }
    readChunks maxBytes x.chunks
    orRaise .httpx x.brokenOff

/-- `try: ... except httpx.TimeoutException: ... except httpx.HTTPError: ...` -/
def DownloadExc.translated : DownloadExc → DownloadExc
  | .httpx failure => .download (failure.kind.downloadError failure.error)
  | e => e

/-- an exception at the closing takes the place of the one before -/
def receiveClosed (u : Unicode) (x : Exchange) (maxBytes : Nat) : Except DownloadExc PUnit × Progress sha :=
  let (outcome, s) := (receive u x maxBytes).run.run {}
  match x.unclosed with
  | some failure => (.error (.httpx failure), s)
  | none => (outcome, s)

variable (sha) in
/-- `download_document`, and what it has written -/
def downloadDocument (u : Unicode) (fl : Flavour) (x : Exchange) (url : String) (agentSecret : Str)
    (destDir jobId : String) (allowedHost : Option Str) (allowInsecureHttp : Bool) (maxBytes : Nat) :
    Except DownloadExc DownloadResult × Progress sha :=
  match downloadRequest u url agentSecret allowedHost allowInsecureHttp with
  | .error e => (.error (.refused e), {})
  | .ok _ =>
    match receiveClosed u x maxBytes with
    | (.error e, s) => (.error e.translated, s)
    | (.ok _, s) =>
      match checkNotEmpty s.byteCount with
      | .error e => (.error (.download e), s)
      | .ok _ => (.ok ⟨downloadPath fl destDir jobId, s.byteCount, sha.hexdigest s.hasher⟩, s)

/-! ## the loop -/

section Loop
open Raise
variable {maxBytes : Nat} {chunk : List UInt8} {chunks : List (List UInt8)} {s : Progress sha}

/-- `byte_count`, `hasher` and the file say the same of what was read -/
structure Progress.Holds (s : Progress sha) (read : List UInt8) : Prop where
  byteCount : s.byteCount = read.length
  hasher : s.hasher = sha.update sha.new read
  file : s.file = some read

theorem liftDownload_ok {α : Type} (a : α) (s : Progress sha) :
    (liftDownload (.ok a) : Downloading sha α).run.run s = (.ok a, s) := rfl

theorem liftDownload_error {α : Type} (e : DownloadError) (s : Progress sha) :
    (liftDownload (.error e) : Downloading sha α).run.run s = (.error (.download e), s) := rfl

theorem checkMaxBytes_of_le {byteCount : Nat} (h : byteCount ≤ maxBytes) : checkMaxBytes maxBytes byteCount = .ok () :=
  if_neg (not_lt.mpr h)

theorem checkMaxBytes_of_lt {byteCount : Nat} (h : maxBytes < byteCount) :
    ∃ e, checkMaxBytes maxBytes byteCount = .error e ∧ e.errorCode = "DOWNLOAD_FAILED" :=
  ⟨_, if_pos h, rfl⟩

variable (maxBytes chunk) in
/-- a chunk is counted, then checked, and only then written -/
theorem readChunk_run {read : List UInt8} (hs : s.Holds read) :
    (∃ s', (readChunk maxBytes chunk).run.run s = (.ok (), s') ∧ s'.Holds (read ++ chunk) ∧
        (read ++ chunk).length ≤ maxBytes) ∨
      ∃ e s', (readChunk maxBytes chunk).run.run s = (.error (.download e), s') ∧ e.errorCode = "DOWNLOAD_FAILED" ∧
        s'.file = some read ∧ maxBytes < (read ++ chunk).length := by
  have hcount : s.byteCount + chunk.length = (read ++ chunk).length := by
    rw [hs.byteCount, List.length_append]
  rcases Nat.lt_or_ge maxBytes (read ++ chunk).length with hlarge | hsmall
  · obtain ⟨e, hcheck, hcode⟩ := checkMaxBytes_of_lt hlarge
    refine .inr ⟨e, { s with byteCount := s.byteCount + chunk.length }, ?_, hcode, hs.file, hlarge⟩
    rw [← hcount] at hcheck
    rw [readChunk, bind_of_ok (modify_run _ s), bind_of_ok (get_run _), hcheck]
    exact bind_of_error (liftDownload_error e _) _
  · refine .inl ⟨⟨s.byteCount + chunk.length, sha.update s.hasher chunk, s.file.map (· ++ chunk)⟩, ?_,
      ⟨hcount, ?_, ?_⟩, hsmall⟩
    · have hcheck := checkMaxBytes_of_le hsmall
      rw [← hcount] at hcheck
      rw [readChunk, bind_of_ok (modify_run _ s), bind_of_ok (get_run _), hcheck,
        bind_of_ok (liftDownload_ok () _)]
      rfl
    · rw [hs.hasher, sha.update_append]
    · rw [hs.file]
      rfl

variable (maxBytes chunks) in
/-- **The loop**: the whole body is read, or it stops before the chunk that is too much. -/
theorem readChunks_run {read : List UInt8} (hs : s.Holds read) (hread : read.length ≤ maxBytes) :
    (∃ s', (readChunks maxBytes chunks).run.run s = (.ok (), s') ∧ s'.Holds (read ++ chunks.flatten) ∧
        (read ++ chunks.flatten).length ≤ maxBytes) ∨
      ∃ e s' k, (readChunks maxBytes chunks).run.run s = (.error (.download e), s') ∧
        e.errorCode = "DOWNLOAD_FAILED" ∧ s'.file = some (read ++ (chunks.take k).flatten) ∧
        (read ++ (chunks.take k).flatten).length ≤ maxBytes ∧ maxBytes < (read ++ chunks.flatten).length := by
  induction chunks generalizing s read with
  | nil =>
    refine .inl ⟨s, rfl, ?_, ?_⟩
    · rw [List.flatten_nil, List.append_nil]
      exact hs
    · rw [List.flatten_nil, List.append_nil]
      exact hread
  | cons chunk chunks ih =>
    have hflatten : read ++ (chunk :: chunks).flatten = (read ++ chunk) ++ chunks.flatten := by
      rw [List.flatten_cons, List.append_assoc]
    rcases readChunk_run maxBytes chunk hs with
      ⟨s₁, hrun, hs₁, hsize⟩ | ⟨e, s₁, hrun, hcode, hfile, hlarge⟩
    · rw [readChunks, bind_of_ok hrun, hflatten]
      rcases ih hs₁ hsize with hall | ⟨e, s', k, hrun', hcode, hfile, hsize', hlarge⟩
      · exact .inl hall
      · refine .inr ⟨e, s', k + 1, hrun', hcode, ?_, ?_, hlarge⟩
        · rw [hfile, List.take_succ_cons, List.flatten_cons, List.append_assoc]
        · rw [List.take_succ_cons, List.flatten_cons, ← List.append_assoc]
          exact hsize'
    · rw [readChunks, bind_of_error hrun]
      refine .inr ⟨e, s₁, 0, rfl, hcode, ?_, ?_, ?_⟩
      · rw [List.take_zero, List.flatten_nil, List.append_nil]
        exact hfile
      · rw [List.take_zero, List.flatten_nil, List.append_nil]
        exact hread
      · rw [hflatten, List.length_append]
        omega

/-! ## a run -/

def Exchange.IsPdf (u : Unicode) (x : Exchange) : Prop :=
  ∃ response, x.response = .ok response ∧ response.statusCode = 200 ∧
    response.mediaType u = Str.ofString "application/pdf"

/-- the document comes whole, is closed, and has an allowed size -/
structure Exchange.Accepted (u : Unicode) (x : Exchange) (maxBytes : Nat) : Prop where
  isPdf : x.IsPdf u
  whole : x.brokenOff = none
  closed : x.unclosed = none
  notEmpty : 1 ≤ x.body.length
  size : x.body.length ≤ maxBytes

/-- the file, if it was opened, has some chunks of the body, and not too many -/
def Progress.Wrote (s : Progress sha) (x : Exchange) (maxBytes : Nat) : Prop :=
  ∀ file, s.file = some file → ∃ k, file = (x.chunks.take k).flatten ∧ file.length ≤ maxBytes

/-- an exception that becomes a `DownloadError` with a known code -/
inductive DownloadExc.IsCoded : DownloadExc → Prop
  | download (e : DownloadError) (h : e.errorCode ∈ printJobErrorCodes) : IsCoded (.download e)
  | httpx (failure : Failure) : IsCoded (.httpx failure)

theorem isCoded_of_failed {e : DownloadError} (h : e.errorCode = "DOWNLOAD_FAILED") :
    (DownloadExc.download e).IsCoded := .download e (h ▸ by decide)

/-- every exception of the client is translated to a code -/
theorem DownloadExc.IsCoded.translated {e : DownloadExc} (h : e.IsCoded) :
    ∃ e', e.translated = .download e' ∧ e'.errorCode ∈ printJobErrorCodes := by
  cases h with
  | download e h => exact ⟨e, rfl, h⟩
  | httpx failure =>
    refine ⟨_, rfl, ?_⟩
    cases failure.kind with
    | timeoutException =>
      show "TIMEOUT" ∈ printJobErrorCodes
      decide
    | httpError =>
      show "DOWNLOAD_FAILED" ∈ printJobErrorCodes
      decide

theorem Response.check_eq_error {u : Unicode} {r : Response} {e : DownloadError} (h : r.check u = .error e) :
    e.errorCode = "DOWNLOAD_FAILED" ∧ ¬ (r.statusCode = 200 ∧ r.mediaType u = Str.ofString "application/pdf") := by
  refine ⟨?_, fun hok => by cases h.symm.trans (Response.check_eq_ok.mpr hok)⟩
  unfold Response.check at h
  split at h
  · cases h
    rfl
  · split at h
    · cases h
      rfl
    · cases h

theorem Progress.Holds.wrote {x : Exchange} (h : s.Holds x.body) (hsize : x.body.length ≤ maxBytes) :
    s.Wrote x maxBytes := by
  intro file hfile
  rw [h.file] at hfile
  cases hfile
  refine ⟨x.chunks.length, ?_, hsize⟩
  rw [List.take_length]
  rfl

variable {u : Unicode} {x : Exchange}

variable (sha maxBytes u x) in
theorem receive_run :
    (∃ s : Progress sha, (receive u x maxBytes).run.run {} = (.ok ⟨⟩, s) ∧ s.Holds x.body ∧ x.IsPdf u ∧
        x.brokenOff = none ∧ x.body.length ≤ maxBytes) ∨
      ∃ e, ∃ s : Progress sha, (receive u x maxBytes).run.run {} = (.error e, s) ∧ e.IsCoded ∧
        s.Wrote x maxBytes ∧ ¬ (x.IsPdf u ∧ x.brokenOff = none ∧ x.body.length ≤ maxBytes) := by
  have hunopened : ({} : Progress sha).Wrote x maxBytes := fun file h => by cases h
  unfold receive
  cases hresponse : x.response with
  | error failure =>
    refine .inr ⟨.httpx failure, {}, rfl, .httpx failure, hunopened, ?_⟩
    rintro ⟨⟨response, hok, _⟩, _⟩
    cases hresponse.symm.trans hok
  | ok response =>
    dsimp only
    cases hcheck : response.check u with
    | error e =>
      obtain ⟨hcode, hno⟩ := Response.check_eq_error hcheck
      rw [bind_of_error (liftDownload_error e _)]
      refine .inr ⟨_, {}, rfl, isCoded_of_failed hcode, hunopened, ?_⟩
      rintro ⟨⟨response', hok, hpdf⟩, _⟩
      obtain rfl := Except.ok.inj (hresponse.symm.trans hok)
      exact hno hpdf
    | ok _ =>
      have hpdf : x.IsPdf u := ⟨response, hresponse, Response.check_eq_ok.mp hcheck⟩
      have hstart : Progress.Holds { ({} : Progress sha) with file := some [] } [] :=
        ⟨rfl, (sha.update_nil sha.new).symm, rfl⟩
      rw [bind_of_ok (liftDownload_ok () _), bind_of_ok (modify_run _ _)]
      rcases readChunks_run maxBytes x.chunks hstart (Nat.zero_le _) with
        ⟨s, hrun, hs, hsize⟩ | ⟨e, s, k, hrun, hcode, hfile, hsize, hlarge⟩
      · rw [bind_of_ok hrun]
        cases hbroken : x.brokenOff with
        | none => exact .inl ⟨s, rfl, hs, hpdf, rfl, hsize⟩
        | some failure =>
          exact .inr ⟨.httpx failure, s, rfl, .httpx failure, hs.wrote hsize, fun h => by cases h.2.1⟩
      · rw [bind_of_error hrun]
        refine .inr ⟨_, s, rfl, isCoded_of_failed hcode, fun file h => ?_, fun h => ?_⟩
        · rw [hfile] at h
          cases h
          exact ⟨k, rfl, hsize⟩
        · exact absurd h.2.2 (not_le.mpr hlarge)

variable {fl : Flavour} {url : String} {agentSecret : Str} {destDir jobId : String} {allowedHost : Option Str}
  {allowInsecureHttp : Bool} {request : DocumentRequest}

variable (sha maxBytes x fl destDir jobId) in
theorem downloadDocument_run
    (hrequest : downloadRequest u url agentSecret allowedHost allowInsecureHttp = .ok request) :
    (∃ s, downloadDocument sha u fl x url agentSecret destDir jobId allowedHost allowInsecureHttp maxBytes =
          (.ok ⟨downloadPath fl destDir jobId, x.body.length, sha.hexdigest (sha.update sha.new x.body)⟩, s) ∧
        s.file = some x.body ∧ s.Wrote x maxBytes ∧ x.Accepted u maxBytes) ∨
      ∃ e s, downloadDocument sha u fl x url agentSecret destDir jobId allowedHost allowInsecureHttp maxBytes =
          (.error (.download e), s) ∧
        e.errorCode ∈ printJobErrorCodes ∧ s.Wrote x maxBytes ∧ ¬ x.Accepted u maxBytes := by
  have hraised : ∀ (e : DownloadExc) (s : Progress sha), receiveClosed u x maxBytes = (.error e, s) →
      downloadDocument sha u fl x url agentSecret destDir jobId allowedHost allowInsecureHttp maxBytes =
        (.error e.translated, s) := by
    intro e s h
    unfold downloadDocument
    simp only [hrequest, h]
  cases hclosed : x.unclosed with
  | some failure =>
    have hreceived : (receiveClosed u x maxBytes : _ × Progress sha) =
        (.error (.httpx failure), ((receive u x maxBytes).run.run {}).2) := by
      rw [receiveClosed, hclosed]
      rfl
    obtain ⟨e, htranslated, hcode⟩ := (DownloadExc.IsCoded.httpx failure).translated
    refine .inr ⟨e, _, (hraised _ _ hreceived).trans (by rw [htranslated]), hcode, ?_, fun h => ?_⟩
    · rcases receive_run sha maxBytes u x with
        ⟨s, hrun, hs, _, _, hsize⟩ | ⟨e, s, hrun, _, hwrote, _⟩
      · rw [hrun]
        exact hs.wrote hsize
      · rw [hrun]
        exact hwrote
    · cases hclosed.symm.trans h.closed
  | none =>
    rcases receive_run sha maxBytes u x with
      ⟨s, hrun, hs, hpdf, hwhole, hsize⟩ | ⟨e, s, hrun, hcoded, hwrote, hno⟩
    · have hreceived : receiveClosed u x maxBytes = (.ok ⟨⟩, s) := by
        rw [receiveClosed, hrun, hclosed]
      have hresult : downloadDocument sha u fl x url agentSecret destDir jobId allowedHost allowInsecureHttp maxBytes =
          match checkNotEmpty x.body.length with
          | .error e => (.error (.download e), s)
          | .ok _ => (.ok ⟨downloadPath fl destDir jobId, x.body.length,
              sha.hexdigest (sha.update sha.new x.body)⟩, s) := by
        unfold downloadDocument
        simp only [hrequest, hreceived]
        rw [hs.byteCount, hs.hasher]
      rw [hresult]
      rcases Nat.eq_zero_or_pos x.body.length with hempty | hpos
      · rw [hempty]
        exact .inr ⟨_, s, rfl, by decide, hs.wrote hsize, fun h => absurd h.notEmpty (by omega)⟩
      · rw [checkNotEmpty, if_neg (by omega)]
        exact .inl ⟨s, rfl, hs.file, hs.wrote hsize, hpdf, hwhole, hclosed, hpos, hsize⟩
    · have hreceived : receiveClosed u x maxBytes = (.error e, s) := by
        rw [receiveClosed, hrun, hclosed]
      obtain ⟨e', htranslated, hcode⟩ := hcoded.translated
      refine .inr ⟨e', s, (hraised _ _ hreceived).trans (by rw [htranslated]), hcode, hwrote, fun h => ?_⟩
      exact hno ⟨h.isPdf, h.whole, h.size⟩

end Loop

end Download

/-- a download gives a result exactly for a whole, closed PDF document of an allowed size, and the result is about
that document; every run leaves some chunks of the body behind that are not too many, and fails with a known code -/
theorem download_document_accepts (sha : Sha256) {u : Unicode} {fl : Flavour} {url : String} {agentSecret : Str}
    {destDir jobId : String} {allowedHost : Option Str} {allowInsecureHttp : Bool} {request : DocumentRequest}
    (hrequest : downloadRequest u url agentSecret allowedHost allowInsecureHttp = .ok request) (x : Exchange)
    (maxBytes : Nat) {outcome : Except DownloadExc DownloadResult} {s : Progress sha}
    (hrun : downloadDocument sha u fl x url agentSecret destDir jobId allowedHost allowInsecureHttp maxBytes =
      (outcome, s)) :
    ((∃ result, outcome = .ok result) ↔ x.Accepted u maxBytes) ∧
      (∀ result, outcome = .ok result → s.file = some x.body ∧ result.filePath = downloadPath fl destDir jobId ∧
        result.byteCount = x.body.length ∧ result.sha256 = sha.hexdigest (sha.update sha.new x.body)) ∧
      s.Wrote x maxBytes ∧
      ∀ e, outcome = .error e → ∃ e', e = .download e' ∧ e'.errorCode ∈ printJobErrorCodes := by
  rcases downloadDocument_run sha maxBytes x fl destDir jobId hrequest with
    ⟨s', hresult, hfile, hwrote, haccepted⟩ | ⟨e, s', hresult, hcode, hwrote, hno⟩
  · cases hrun.symm.trans hresult
    refine ⟨iff_of_true ⟨_, rfl⟩ haccepted, fun result h => ?_, hwrote, fun e h => by cases h⟩
    cases h
    exact ⟨hfile, rfl, rfl, rfl⟩
  · cases hrun.symm.trans hresult
    refine ⟨iff_of_false (fun ⟨_, h⟩ => by cases h) hno, fun result h => (by cases h), hwrote, fun e' h => ?_⟩
    cases h
    exact ⟨e, rfl, hcode⟩

def Sha256.bytes : Sha256 where
  Hasher := List UInt8
  new := []
  update hasher chunk := hasher ++ chunk
  hexdigest hasher := toString hasher
  update_nil hasher := List.append_nil hasher
  update_append hasher chunk chunk' := List.append_assoc hasher chunk chunk'

def smallDocument : Exchange where
  response := .ok ⟨200, some "Application/PDF; x=y"⟩
  chunks := [[37, 80], [], [68, 70]]
  brokenOff := none
  unclosed := none

theorem download_document_accepts_small :
    ∃ result, (downloadDocument .bytes .ascii .posix smallDocument "https://app.example/1" (Str.ofString "secret")
      "/tmp" "job" none false 4).1 = .ok result :=
  have hrequest : downloadRequest .ascii "https://app.example/1" (Str.ofString "secret") none false =
      .ok ⟨"https://app.example/1", Str.ofString "Bearer secret"⟩ := by decide +kernel
  have hpdf : smallDocument.IsPdf .ascii := ⟨_, rfl, rfl, by decide +kernel⟩
  (download_document_accepts .bytes hrequest smallDocument 4 rfl).1.mpr ⟨hpdf, rfl, rfl, by decide, by decide⟩

end PrintAgent
