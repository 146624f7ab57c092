import PrintAgent.Core.Pairing
import PrintAgent.Net.Downloader

/-!
# The host of the documents

From the reply that `pair` accepts over the configuration file to the request for a document, which
carries the agent's secret.

* `PinnedTo`       each request goes to the host of this origin, over a scheme that is allowed;
* `KeepsHost`      the condition: the origin has a host, and the file does not make another one of it;
* `host_pinned`    the one holds exactly under the other;
* `host_unpinned`  an origin without a scheme, and a request to any host.
-/

namespace PrintAgent

open PyJson (Str Limits)
open PyUrl (Unicode)

/-- each request for a document, under the configuration of this file, goes to the host of the origin -/
def PinnedTo (u : Unicode) (limits : Limits) (file agentSecret origin : Str) : Prop :=
  ∀ config, AgentConfig.load limits (some file) = .ok config →
    ∀ (documentUrl : String) (allowInsecureHttp : Bool) (request : DocumentRequest),
      downloadRequest u documentUrl agentSecret config.allowedDocumentHost allowInsecureHttp
        = .ok request →
      PyUrl.hostname u (Str.ofString documentUrl) = PyUrl.hostname u origin ∧
        (PyUrl.scheme u (Str.ofString documentUrl) = .ok (Str.ofString "https") ∨
          PyUrl.scheme u (Str.ofString documentUrl) = .ok (Str.ofString "http") ∧
            allowInsecureHttp = true)

/-- the origin has a host; where the reader joins surrogates in it, no document has the host that is
read -/
def KeepsHost (u : Unicode) (origin : Str) : Prop :=
  ∃ host, PyUrl.hostname u origin = .ok (some host) ∧
    ∀ (documentUrl : String) (parsed : PyUrl.SplitResult),
      PyUrl.urlsplit u (Str.ofString documentUrl) = .ok parsed →
      parsed.scheme = Str.ofString "https" ∨ parsed.scheme = Str.ofString "http" →
      parsed.hostname u = some host.joined → host.joined = host

section
variable {u : Unicode} {limits : Limits} {webUrl : Str} {reply : PairReply} {paired : Paired}

theorem pair_eq_ok (h : pair u webUrl reply = .ok paired) :
    ∃ host, PyUrl.hostname u (webOrigin webUrl reply) = .ok host ∧
      paired.config.allowedDocumentHost = host := by
  unfold pair at h
  cases hhost : PyUrl.hostname u (webOrigin webUrl reply) with
  | error e =>
    rw [hhost] at h
    cases h
  | ok host =>
    rw [hhost] at h
    cases h
    exact ⟨host, rfl, rfl⟩

theorem hostname_eq_ok {url : Str} {parsed : PyUrl.SplitResult}
    (h : PyUrl.urlsplit u url = .ok parsed) : PyUrl.hostname u url = .ok (parsed.hostname u) := by
  rw [PyUrl.hostname, h]
  rfl

theorem scheme_eq_ok {url : Str} {parsed : PyUrl.SplitResult}
    (h : PyUrl.urlsplit u url = .ok parsed) : PyUrl.scheme u url = .ok parsed.scheme := by
  rw [PyUrl.scheme, h]
  rfl

theorem isOtherHost_some {host : Option Str} {allowed : Str} (hne : allowed ≠ []) :
    isOtherHost host (some allowed) = false ↔ host = some allowed := by
  simp [isOtherHost, hne]

theorem exists_request (u : Unicode) (agentSecret : Str) (host : List Char)
    (h : ∀ c ∈ host, PyUrl.isPlainChar c = true) (hne : host ≠ []) :
    ∃ (documentUrl : String) (request : DocumentRequest),
      downloadRequest u documentUrl agentSecret none false = .ok request ∧
        PyUrl.hostname u (Str.ofString documentUrl) = .ok (some (host.map .scalar)) := by
  have htext : Str.ofString (String.ofList (PyUrl.httpsUrl host)) = (PyUrl.httpsUrl host).map .scalar := by
    rw [Str.ofString, String.toList_ofList]
  have hsplit := PyUrl.urlsplit_httpsUrl h u
  rw [← htext] at hsplit
  obtain ⟨request, hrequest⟩ : ∃ request,
      downloadRequest u (String.ofList (PyUrl.httpsUrl host)) agentSecret none false = .ok request :=
    downloadRequest_eq_ok.mpr ⟨_, hsplit, .inl rfl, rfl⟩
  refine ⟨_, request, hrequest, ?_⟩
  rw [htext]
  exact PyUrl.hostname_httpsUrl h u hne

def otherHost : List Char := ['o', 't', 'h', 'e', 'r', '.', 'e', 'x', 'a', 'm', 'p', 'l', 'e']

theorem otherHost_plain : ∀ c ∈ otherHost, PyUrl.isPlainChar c = true := List.all_eq_true.mp rfl

/-- **When the documents come from the paired host.** -/
theorem host_pinned (hlimit : 0 < limits.recursionLimit) (h : pair u webUrl reply = .ok paired) :
    PinnedTo u limits paired.config.save paired.agentSecret (webOrigin webUrl reply) ↔
      KeepsHost u (webOrigin webUrl reply) := by
  obtain ⟨host, hhost, hallowed⟩ := pair_eq_ok h
  have hload := AgentConfig.load_save hlimit paired.config
  have hread : paired.config.joined.allowedDocumentHost = host.map Str.joined := by
    rw [← hallowed]
    rfl
  constructor
  · intro hpinned
    have hpinned := hpinned _ hload
    rw [hread] at hpinned
    cases host with
    | none =>
      -- the check is off
      obtain ⟨documentUrl, request, hrequest, hname⟩ :=
        exists_request u paired.agentSecret otherHost otherHost_plain (by decide)
      have hsame := (hpinned documentUrl false request hrequest).1
      rw [hname, hhost] at hsame
      cases hsame
    | some host =>
      refine ⟨host, hhost, fun documentUrl parsed hsplit hscheme hname => ?_⟩
      have hother : isOtherHost (parsed.hostname u) ((some host).map Str.joined) = false := by
        rw [hname]
        simp [isOtherHost]
      have hallowed : parsed.scheme = Str.ofString "https" ∨
          parsed.scheme = Str.ofString "http" ∧ true = true := hscheme.imp_right fun hs => ⟨hs, rfl⟩
      obtain ⟨request, hrequest⟩ : ∃ request, downloadRequest u documentUrl paired.agentSecret
          ((some host).map Str.joined) true = .ok request :=
        downloadRequest_eq_ok.mpr ⟨parsed, hsplit, hallowed, hother⟩
      have hsame := (hpinned documentUrl true request hrequest).1
      rw [hostname_eq_ok hsplit, hname, hhost] at hsame
      exact Option.some.inj (Except.ok.inj hsame)
  · rintro ⟨host', hhost', hsame⟩ config hconfig documentUrl allowInsecureHttp request hrequest
    rw [hload] at hconfig
    cases hconfig
    rw [hhost] at hhost'
    cases hhost'
    rw [hread] at hrequest
    obtain ⟨parsed, hsplit, hscheme, hother⟩ := downloadRequest_eq_ok.mp ⟨request, hrequest⟩
    have hne : host' ≠ [] := by
      obtain ⟨origin, hsplit⟩ : ∃ origin, PyUrl.urlsplit u (webOrigin webUrl reply) = .ok origin := by
        rw [PyUrl.hostname] at hhost
        cases hs : PyUrl.urlsplit u (webOrigin webUrl reply) with
        | error e =>
          rw [hs] at hhost
          cases hhost
        | ok origin => exact ⟨origin, rfl⟩
      rw [hostname_eq_ok hsplit] at hhost
      exact PyUrl.SplitResult.hostname_ne_nil (Except.ok.inj hhost)
    have hname : parsed.hostname u = some host'.joined :=
      (isOtherHost_some (Str.joined_ne_nil hne)).mp hother
    have hjoined := hsame documentUrl parsed hsplit (hscheme.imp_right And.left) hname
    constructor
    · rw [hostname_eq_ok hsplit, hname, hjoined, hhost]
    · rw [scheme_eq_ok hsplit]
      exact hscheme.imp (congrArg Except.ok) fun hs => ⟨congrArg Except.ok hs.1, hs.2⟩

end

/-- the address of the paired application, and a reply that gives another origin, or none -/
def exampleWebUrl : Str := Str.ofString "https://app.example/"

def exampleReply (webUrl : Option Str) : PairReply where
  agentId := Str.ofString "agent-1"
  agentSecret := Str.ofString "secret"
  hubUrl := Str.ofString "wss://hub.example/ws"
  webUrl := webUrl

def pairedHost : List Char := ['a', 'p', 'p', '.', 'e', 'x', 'a', 'm', 'p', 'l', 'e']

def examplePaired (host : Option Str) : Paired where
  agentId := Str.ofString "agent-1"
  agentSecret := Str.ofString "secret"
  config :=
    { agentId := some (Str.ofString "agent-1"), hubUrl := some (Str.ofString "wss://hub.example/ws"),
      allowedDocumentHost := host }

theorem host_pinned_without_webUrl :
    PinnedTo Unicode.ascii ⟨900, 4300⟩ (examplePaired (some (pairedHost.map .scalar))).config.save
      (Str.ofString "secret") (Str.ofString "https://app.example") :=
  have hpair : pair Unicode.ascii exampleWebUrl (exampleReply none)
      = .ok (examplePaired (some (pairedHost.map .scalar))) := by rfl
  have h := @host_pinned Unicode.ascii ⟨900, 4300⟩ exampleWebUrl (exampleReply none) _ (by decide) hpair
  h.mpr ⟨pairedHost.map .scalar, by rfl, fun _ _ _ _ _ => Str.joined_map_scalar pairedHost⟩

/-- the reply gives a host for the origin: there is no scheme, and nothing is checked -/
theorem host_unpinned :
    ¬ ∀ (u : Unicode) (limits : Limits) (webUrl : Str) (reply : PairReply) (paired : Paired),
      0 < limits.recursionLimit → pair u webUrl reply = .ok paired →
      PinnedTo u limits paired.config.save paired.agentSecret (webOrigin webUrl reply) := by
  intro h
  have hpinned := h Unicode.ascii ⟨900, 4300⟩ exampleWebUrl
    (exampleReply (some (pairedHost.map .scalar))) (examplePaired none) (by decide) (by rfl)
  obtain ⟨documentUrl, request, hrequest, hname⟩ := exists_request Unicode.ascii
    (Str.ofString "secret") otherHost otherHost_plain (by decide)
  have hload := @AgentConfig.load_save ⟨900, 4300⟩ (by decide) (examplePaired none).config
  have hsame := (hpinned _ hload documentUrl false request hrequest).1
  rw [hname] at hsame
  have horigin : PyUrl.hostname Unicode.ascii (webOrigin exampleWebUrl
      (exampleReply (some (pairedHost.map .scalar)))) = .ok none := by rfl
  rw [horigin] at hsame
  cases hsame

end PrintAgent
