import PrintAgent.Config
import PrintAgent.Lib.Url

/-!
# Pairing

`core/pairing.py`, from the reply that was accepted to the configuration and the credential that are
saved.  The request and the checks of the reply before are left out.

* `pair`              for a reply whose fields are texts;
* `ReplyData.pair`    for any reply (`ReplyData.pair_texts`: the same for texts).
-/

namespace PrintAgent

open PyJson (Str Value Limits)
open PyUrl (Unicode UrlError)

/-- the `data` of a reply whose fields are texts -/
structure PairReply where
  agentId : Str
  agentSecret : Str
  hubUrl : Str
  webUrl : Option Str
  deriving DecidableEq, Repr

/-- what `pair` has saved when it returns -/
structure Paired where
  agentId : Str
  agentSecret : Str
  config : AgentConfig
  deriving DecidableEq, Repr

/-- `s.rstrip('/')` -/
def rstripSlash (s : Str) : Str := (s.reverse.dropWhile fun x => x = .scalar '/').reverse

def webOrigin (webUrl : Str) (reply : PairReply) : Str := reply.webUrl.getD (rstripSlash webUrl)

/-- `pair`, or the `ValueError` of `urlparse` -/
def pair (u : Unicode) (webUrl : Str) (reply : PairReply) : Except UrlError Paired := do
  let host ← PyUrl.hostname u (webOrigin webUrl reply)
  return {
    agentId := reply.agentId
    agentSecret := reply.agentSecret
    config := { agentId := some reply.agentId, hubUrl := some reply.hubUrl, allowedDocumentHost := host } }

/-! ## any reply -/

/-- the `data` of a reply, as it was read -/
structure ReplyData where
  agentId : Value
  agentSecret : Value
  hubUrl : Value
  webUrl : Option Value

def PairReply.data (reply : PairReply) : ReplyData where
  agentId := .str reply.agentId
  agentSecret := .str reply.agentSecret
  hubUrl := .str reply.hubUrl
  webUrl := reply.webUrl.map .str

/-- what Python makes of values that are no texts: `str` of one, and the floats that are zero -/
structure Builtins where
  str : Value → Str
  str_text : ∀ s, str (.str s) = s
  isZero : String → Bool

/-- `not value` -/
def Builtins.isFalsy (py : Builtins) : Value → Bool
  | .null => true
  | .bool b => !b
  | .int n => n = 0
  | .float literal => py.isZero literal
  | .str s => s.isEmpty
  | .arr items => items.isEmpty
  | .obj members => members.isEmpty

inductive PairExc where
  | urlError (e : UrlError)
  /-- `urlparse` of a value that is no text, and that is not falsy -/
  | attributeError
  deriving DecidableEq, Repr

/-- `urlparse(web_origin).hostname` -/
def originHost (py : Builtins) (u : Unicode) : Value → Except PairExc (Option Str)
  | .str url => (PyUrl.hostname u url).mapError .urlError
  | value => if py.isFalsy value then .ok none else .error .attributeError

namespace ReplyData

def webOrigin (webUrl : Str) (reply : ReplyData) : Value := reply.webUrl.getD (.str (rstripSlash webUrl))

/-- the configuration that is saved, with the host of the web origin -/
def config (reply : ReplyData) (host : Option Str) : LoadedConfig where
  agentId := reply.agentId
  hubUrl := reply.hubUrl
  logLevel := .str (Str.ofString "INFO")
  allowedDocumentHost := fieldValue host

/-- `pair`: the configuration, or the exception of `urlparse` -/
def pair (py : Builtins) (u : Unicode) (webUrl : Str) (reply : ReplyData) : Except PairExc LoadedConfig := do
  return reply.config (← originHost py u (reply.webOrigin webUrl))

/-- the values were read, so they are read again one container further out -/
structure IsRead (limits : Limits) (reply : ReplyData) : Prop where
  agentId : reply.agentId.Fits limits 1
  hubUrl : reply.hubUrl.Fits limits 1

theorem pair_of_host {py : Builtins} {u : Unicode} {webUrl : Str} {reply : ReplyData} {host : Option Str}
    (h : originHost py u (reply.webOrigin webUrl) = .ok host) : reply.pair py u webUrl = .ok (reply.config host) := by
  rw [pair, h]
  rfl

theorem pair_of_error {py : Builtins} {u : Unicode} {webUrl : Str} {reply : ReplyData} {e : PairExc}
    (h : originHost py u (reply.webOrigin webUrl) = .error e) : reply.pair py u webUrl = .error e := by
  rw [pair, h]
  rfl

/-- for texts this is `pair` -/
theorem pair_texts (py : Builtins) (u : Unicode) (webUrl : Str) (reply : PairReply) :
    reply.data.pair py u webUrl =
      ((PrintAgent.pair u webUrl reply).mapError .urlError).map fun paired => paired.config.values := by
  have horigin : reply.data.webOrigin webUrl = .str (PrintAgent.webOrigin webUrl reply) := by
    show (reply.webUrl.map Value.str).getD (.str _) = .str (reply.webUrl.getD _)
    cases reply.webUrl <;> rfl
  have hhost : originHost py u (.str (PrintAgent.webOrigin webUrl reply)) =
      (PyUrl.hostname u (PrintAgent.webOrigin webUrl reply)).mapError .urlError := rfl
  rw [PrintAgent.pair]
  cases h : PyUrl.hostname u (PrintAgent.webOrigin webUrl reply) with
  | error e =>
    rw [h] at hhost
    exact pair_of_error (horigin ▸ hhost)
  | ok host =>
    rw [h] at hhost
    exact pair_of_host (horigin ▸ hhost)

theorem fits_config {limits : Limits} {reply : ReplyData} (h : reply.IsRead limits) (host : Option Str) :
    (reply.config host).Fits limits where
  agentId := h.agentId
  hubUrl := h.hubUrl
  logLevel := trivial
  allowedDocumentHost := AgentConfig.fits_fieldValue limits host

end ReplyData

end PrintAgent
