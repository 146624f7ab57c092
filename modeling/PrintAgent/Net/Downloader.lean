import PrintAgent.Lib.Path
import PrintAgent.Lib.Url

/-!
# The downloader

`net/downloader.py`.

* `validateUrl`, `downloadRequest`   the checks of the URL, and the request that carries the secret;
* `downloadPath`, `documentPath`     the path that is opened for writing, and its text;
* `Response.check`, `checkSize`, `checkNotEmpty`   the checks of the response and of its body;
* `Download`, `Fetch`                where `download_document` is, and a response that came to its end.
-/

namespace PrintAgent

open PyJson (Str CodePoint)
open PyUrl (Unicode UrlError)
open PyPath (Flavour Path)

def downloadMaxBytes : Nat := 25 * 1024 * 1024

def allowedContentTypes : List String := ["application/pdf"]

/-! ## the request -/

/-- why `_validate_url` raises: `urlparse` does, or a `DownloadError` -/
inductive UrlRefused where
  | valueError (e : UrlError)
  | unsupportedScheme (scheme : Str)
  | plainHttp
  | otherHost (host : Option Str) (allowedHost : Str)
  deriving DecidableEq, Repr

/-- the `error_code` of the `DownloadError` -/
def UrlRefused.errorCode : UrlRefused → Option String
  | .valueError _ => none
  | .unsupportedScheme _ | .plainHttp | .otherHost _ _ => some "INVALID_JOB"

/-- `allowed_host and parsed.hostname != allowed_host` -/
def isOtherHost (host allowedHost : Option Str) : Bool :=
  allowedHost.any fun allowed => allowed ≠ [] && host ≠ some allowed

def validateUrl (u : Unicode) (url : String) (allowedHost : Option Str) (allowInsecureHttp : Bool) :
    Except UrlRefused Unit :=
  match PyUrl.urlsplit u (Str.ofString url) with
  | .error e => .error (.valueError e)
  | .ok parsed =>
    if parsed.scheme ≠ Str.ofString "https" ∧ parsed.scheme ≠ Str.ofString "http" then
      .error (.unsupportedScheme parsed.scheme)
    else if parsed.scheme = Str.ofString "http" ∧ allowInsecureHttp = false then .error .plainHttp
    else if isOtherHost (parsed.hostname u) allowedHost then
      .error (.otherHost (parsed.hostname u) (allowedHost.getD []))
    else .ok ()

/-- the `GET` -/
structure DocumentRequest where
  url : String
  authorization : Str
  deriving DecidableEq, Repr

/-- `download_document` up to its request -/
def downloadRequest (u : Unicode) (url : String) (agentSecret : Str) (allowedHost : Option Str)
    (allowInsecureHttp : Bool) : Except UrlRefused DocumentRequest := do
  validateUrl u url allowedHost allowInsecureHttp
  return ⟨url, Str.ofString "Bearer " ++ agentSecret⟩

theorem downloadRequest_eq_ok {u : Unicode} {url : String} {agentSecret : Str}
    {allowedHost : Option Str} {allowInsecureHttp : Bool} :
    (∃ request, downloadRequest u url agentSecret allowedHost allowInsecureHttp = .ok request) ↔
      ∃ parsed, PyUrl.urlsplit u (Str.ofString url) = .ok parsed ∧
        (parsed.scheme = Str.ofString "https" ∨
          parsed.scheme = Str.ofString "http" ∧ allowInsecureHttp = true) ∧
        isOtherHost (parsed.hostname u) allowedHost = false := by
  have hrequest : (∃ request,
      downloadRequest u url agentSecret allowedHost allowInsecureHttp = .ok request) ↔
      validateUrl u url allowedHost allowInsecureHttp = .ok () := by
    unfold downloadRequest
    cases validateUrl u url allowedHost allowInsecureHttp with
    | error e => exact ⟨fun ⟨_, h⟩ => (by cases h), fun h => (by cases h)⟩
    | ok _ => exact ⟨fun _ => rfl, fun _ => ⟨_, rfl⟩⟩
  have hne : Str.ofString "http" ≠ Str.ofString "https" := by decide
  rw [hrequest]
  unfold validateUrl
  cases PyUrl.urlsplit u (Str.ofString url) with
  | error e => simp
  | ok parsed =>
    have hone : (∃ p, (Except.ok parsed : Except UrlError PyUrl.SplitResult) = .ok p ∧
        (p.scheme = Str.ofString "https" ∨ p.scheme = Str.ofString "http" ∧ allowInsecureHttp = true) ∧
        isOtherHost (p.hostname u) allowedHost = false) ↔
        (parsed.scheme = Str.ofString "https" ∨
          parsed.scheme = Str.ofString "http" ∧ allowInsecureHttp = true) ∧
        isOtherHost (parsed.hostname u) allowedHost = false :=
      ⟨fun ⟨p, hp, h⟩ => (by cases hp; exact h), fun h => ⟨parsed, rfl, h⟩⟩
    rw [hone]
    by_cases hs : parsed.scheme = Str.ofString "https"
    · simp [hs, hne.symm]
    · by_cases hh : parsed.scheme = Str.ofString "http"
      · cases allowInsecureHttp <;> simp [hh, hne]
      · simp [hs, hh]

theorem url_of_downloadRequest {u : Unicode} {url : String} {agentSecret : Str}
    {allowedHost : Option Str} {allowInsecureHttp : Bool} {request : DocumentRequest}
    (h : downloadRequest u url agentSecret allowedHost allowInsecureHttp = .ok request) :
    request.url = url := by
  unfold downloadRequest at h
  cases hv : validateUrl u url allowedHost allowInsecureHttp with
  | error e =>
    rw [hv] at h
    cases h
  | ok _ =>
    rw [hv] at h
    cases h
    rfl

/-! ## the file -/

/-- `f"{job_id}.pdf"` -/
def documentName (jobId : String) : List Char := jobId.toList ++ ['.', 'p', 'd', 'f']

/-- `dest_dir / f"{job_id}.pdf"` -/
def downloadPath (fl : Flavour) (destDir jobId : String) : Path :=
  (fl.parse destDir.toList).join (fl.parse (documentName jobId))

/-- `str(dest_path)` -/
def documentPath (fl : Flavour) (destDir jobId : String) : String :=
  String.ofList ((downloadPath fl destDir jobId).str fl)

def isPlainId (jobId : String) : Bool := PyPath.isPlain jobId.toList

theorem isPlain_documentName {jobId : String} (h : isPlainId jobId = true) :
    PyPath.isPlain (documentName jobId) = true := by
  have h : jobId.toList.all _ = true := h
  rw [PyPath.isPlain, documentName, List.all_append, h]
  rfl

/-- the text of the path of a plain id ends with the id's file name -/
theorem exists_documentPath (fl : Flavour) (destDir : String) :
    ∃ front, ∀ jobId, isPlainId jobId = true →
      documentPath fl destDir jobId = String.ofList (front ++ documentName jobId) := by
  obtain ⟨front, hfront⟩ := PyPath.str_snoc fl (fl.parse destDir.toList)
  refine ⟨front, fun jobId h => ?_⟩
  have hplain := isPlain_documentName h
  have hlen : 4 ≤ (documentName jobId).length := by
    rw [documentName, List.length_append]
    exact Nat.le_add_left 4 _
  have hparse : fl.parse (documentName jobId) = ⟨[], [], [documentName jobId]⟩ := by
    refine PyPath.parse_plain hplain (fun he => ?_) (fun he => ?_)
    · rw [he] at hlen
      exact absurd hlen (by decide)
    · rw [he] at hlen
      exact absurd hlen (by decide)
  have hjoin : downloadPath fl destDir jobId = ⟨(fl.parse destDir.toList).drive,
      (fl.parse destDir.toList).root, (fl.parse destDir.toList).parts ++ [documentName jobId]⟩ := by
    rw [downloadPath, hparse]
    rfl
  rw [documentPath, hjoin, hfront _ hplain]

theorem documentPath_injective {fl : Flavour} {destDir j k : String} (hj : isPlainId j = true)
    (hk : isPlainId k = true) (h : documentPath fl destDir j = documentPath fl destDir k) : j = k := by
  obtain ⟨front, hfront⟩ := exists_documentPath fl destDir
  rw [hfront j hj, hfront k hk] at h
  have hname : documentName j = documentName k :=
    List.append_cancel_left (String.ofList_injective h)
  exact String.toList_injective (List.append_cancel_right hname)

/-! ## the response -/

structure DownloadError where
  errorCode : String
  message : String
  deriving DecidableEq, Repr

/-- the status line and the `content-type` header of a response -/
structure Response where
  statusCode : Nat
  contentType : Option String
  deriving DecidableEq, Repr

/-- what `str.strip` strips -/
def isSpace : CodePoint → Bool
  | .scalar c =>
    let n := c.toNat
    0x09 ≤ n ∧ n ≤ 0x0D ∨ 0x1C ≤ n ∧ n ≤ 0x20 ∨ n = 0x85 ∨ n = 0xA0 ∨ n = 0x1680 ∨
      0x2000 ≤ n ∧ n ≤ 0x200A ∨ n ∈ [0x2028, 0x2029, 0x202F, 0x205F, 0x3000]
  | .surrogate _ => false

/-- `s.strip()` -/
def strip (s : Str) : Str := (((s.dropWhile isSpace).reverse).dropWhile isSpace).reverse

/-- `response.headers.get("content-type", "").split(";")[0].strip().lower()` -/
def Response.mediaType (u : Unicode) (r : Response) : Str :=
  u.lower (strip (PyUrl.before ';' (Str.ofString (r.contentType.getD ""))))

/-- the text of a header: it has no surrogates -/
def headerText (s : Str) : String :=
  String.ofList (s.filterMap fun c => match c with | .scalar c => some c | .surrogate _ => none)

def Response.check (u : Unicode) (r : Response) : Except DownloadError Unit :=
  if r.statusCode ≠ 200 then
    .error ⟨"DOWNLOAD_FAILED", "Document fetch returned HTTP " ++ toString r.statusCode⟩
  else if r.mediaType u ∉ allowedContentTypes.map Str.ofString then
    .error ⟨"DOWNLOAD_FAILED", "Unexpected content type: " ++
      if r.mediaType u = [] then "(none)" else headerText (r.mediaType u)⟩
  else .ok ()

theorem Response.check_eq_ok {u : Unicode} {r : Response} :
    r.check u = .ok () ↔ r.statusCode = 200 ∧ r.mediaType u = Str.ofString "application/pdf" := by
  unfold Response.check
  by_cases hs : r.statusCode = 200
  · by_cases hm : r.mediaType u = Str.ofString "application/pdf"
    · simp [hs, hm, allowedContentTypes]
    · simp [hs, hm, allowedContentTypes]
  · simp [hs]

/-- the check of `byte_count` after a chunk was added -/
def checkSize (byteCount : Nat) : Except DownloadError Unit :=
  if downloadMaxBytes < byteCount then
    .error ⟨"DOWNLOAD_FAILED",
      "Document exceeds max size of " ++ toString downloadMaxBytes ++ " bytes"⟩
  else .ok ()

/-- the check of `byte_count` after the body was read -/
def checkNotEmpty (byteCount : Nat) : Except DownloadError Unit :=
  if byteCount = 0 then .error ⟨"DOWNLOAD_FAILED", "Document was empty"⟩ else .ok ()

/-- what `httpx` raises becomes a `DownloadError`; `error` is the text of the exception -/
inductive HttpxError where
  | timeoutException
  | httpError
  deriving DecidableEq, Repr

def HttpxError.downloadError (e : HttpxError) (error : String) : DownloadError :=
  match e with
  | .timeoutException => ⟨"TIMEOUT", "Document download timed out: " ++ error⟩
  | .httpError => ⟨"DOWNLOAD_FAILED", "Document download failed: " ++ error⟩

/-- where `download_document` is: called, at the request, or at the body.  `linked` says that its path
still names the file it has open. -/
inductive Download where
  | called
  | requested (request : DocumentRequest)
  | receiving (request : DocumentRequest) (response : Response) (body : List UInt8) (linked : Bool)
  deriving DecidableEq, Repr

/-- a response whose body was read to its end, for this job -/
structure Fetch where
  jobId : String
  request : DocumentRequest
  response : Response
  body : List UInt8
  deriving DecidableEq, Repr

structure Fetch.IsDocument (u : Unicode) (f : Fetch) : Prop where
  statusCode : f.response.statusCode = 200
  mediaType : f.response.mediaType u = Str.ofString "application/pdf"
  notEmpty : 0 < f.body.length
  size : f.body.length ≤ downloadMaxBytes

end PrintAgent
