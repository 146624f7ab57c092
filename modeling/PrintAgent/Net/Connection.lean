import Mathlib.Algebra.Group.Int.Defs
import Mathlib.Algebra.Group.Nat.Defs
import PrintAgent.Lib.Machine
import PrintAgent.Net.ProtocolCodec

/-!
# The hub connection

`net/ws_client.py` in one process life: `run_forever` with every place where it can stand, any number
of calls of `send` beside it, and the connections, each with a number of its own.  `ClientAct` is one
thing that can happen, with the answers of the environment in it (what `websockets.connect` raises,
which frame arrives, whether the status file can be written), so a list of them is a schedule.

* `_socket` is a field of its own: it is set when the connection is made, before `_authenticate`, and
  reset in the `finally`, or when the first reply is not `agent.authenticated`.
* A send over a connection that is open ends when the frame is written; over one that is closed it
  ends with `ConnectionClosed`.  A connection that is closed stays so.
* `calls`, `returned` and `log` are histories: the calls of `send`, those that returned, and what went
  over the connections.
-/

namespace PrintAgent

open PyJson (Str isEncodable Value Source Limits)

/-- the exceptions that `run_forever` catches -/
def Exc.isCaught : Exc → Bool
  | .connectionClosed | .osError | .timeoutError => true
  | _ => false

/-- the `number`-th call of `send` -/
structure SendCall where
  number : Nat
  message : OutboundAgentMessage
  durable : Bool
  deriving DecidableEq, Repr

/-- a call of `send` that awaits `socket.send`; `flush` if `_flush_durable_queue` called it -/
structure Sending where
  call : SendCall
  conn : Nat
  flush : Bool
  deriving DecidableEq, Repr

inductive LogEntry where
  /-- `agent.authenticate` is written -/
  | authenticate (conn : Nat)
  /-- any other message is written -/
  | frame (conn : Nat) (call : SendCall)
  /-- the reply `agent.authenticated` is read -/
  | authenticated (conn : Nat)
  /-- another first reply is read, or none comes -/
  | refused (conn : Nat)
  deriving DecidableEq, Repr

/-- where `run_forever` stands; `conn` is the number of its connection -/
inductive Phase where
  /-- at the test of the `while` -/
  | head
  /-- in `websockets.connect` -/
  | connecting
  /-- `_authenticate` sends, then waits for the reply -/
  | authSending (conn : Nat)
  | authWaiting (conn : Nat)
  /-- in `_flush_durable_queue`, with what is left of the list it took; `intervalMs` is the
  `heartbeatIntervalMs` of the reply -/
  | flushing (conn : Nat) (intervalMs : Int) (pending : List SendCall)
  /-- the same, in the `send` of a message -/
  | flushSending (conn : Nat) (intervalMs : Int) (pending : List SendCall)
  /-- `sync_now`, called by `_on_authenticated`, discovers the printers, then sends them -/
  | discovering (conn : Nat)
  | syncSending (conn : Nat) (number : Nat)
  /-- in `async for raw in socket` -/
  | receiving (conn : Nat)
  /-- in `_on_inbound_message` -/
  | handling (conn : Nat) (message : InboundHubMessage Str)
  /-- the body of the `try` ended, by itself or by an exception, and the connection closes -/
  | leaving (exc : Option Exc)
  /-- waits for the delay to pass, or for `stop` -/
  | backoff
  | returned
  | raised (exc : Exc)
  deriving DecidableEq, Repr

structure Client where
  phase : Phase
  socket : Option Nat
  connected : Bool
  stopped : Bool
  durableQueue : List SendCall
  sending : List Sending
  /-- how many connections were made -/
  connections : Nat
  closed : List Nat
  calls : List SendCall
  returned : List SendCall
  log : List LogEntry
  deriving DecidableEq, Repr

inductive ClientAct where
  /-- `run_forever` -/
  | iterate
  | connect (raises : Option Exc)
  | authSent
  | reply (raw : Source)
  | noReply (timedOut : Bool)
  | flushNext
  | flushed (statusRaises : Option Exc)
  | discovered (printers : Option (List DiscoveredPrinter))
  | synced
  | receive (raw : Source)
  | handled (raises : Option Exc)
  | ends (cleanly : Bool)
  | disconnected (statusRaises : Option Exc)
  | backoffEnds
  /-- the other tasks -/
  | send (message : OutboundAgentMessage) (durable : Bool)
  | stop
  /-- the `i`-th send that is going on ends -/
  | sendEnds (i : Nat)
  /-- a connection breaks -/
  | drop (conn : Nat)

/-- `ms / 1000` raises `OverflowError`: rounded to a float it would be `2 ^ 1024` or more, that is, it
is `2 ^ 1024 - 2 ^ 970` or more -/
def overflowsFloat (ms : Int) : Bool := 1000 * ((2 ^ 128) ^ 8 - (2 ^ 97) ^ 10) ≤ ms.natAbs

/-- the texts that the handler of a message binds to SQL parameters: `get` the job id, `insert_received` all of
a dispatch -/
def InboundHubMessage.texts : InboundHubMessage Str → List Str
  | .dispatch message =>
    [message.jobId, message.printerId, message.documentType, message.documentId, message.documentUrl]
  | .cancel message => [message.jobId]
  | .authenticated _ | .authenticateRejected => []

/-- SQLite has room for the `copies` of a dispatch: 64 bits -/
def InboundHubMessage.fits : InboundHubMessage Str → Bool
  | .dispatch message => -2 ^ 63 ≤ message.copies && message.copies < 2 ^ 63
  | _ => true

/-- SQLite takes what the handler binds -/
def InboundHubMessage.isStorable (message : InboundHubMessage Str) : Bool :=
  message.texts.all isEncodable && message.fits

/-- `_on_inbound_message` can raise: SQLite takes no text with a lone surrogate and no larger `copies` -/
def InboundHubMessage.canRaise (message : InboundHubMessage Str) : Exc → Bool
  | .unicodeEncodeError => !message.texts.all isEncodable
  | .overflowError => !message.fits
  | _ => false

namespace Client

def init : Client := ⟨.head, none, false, false, [], [], 0, [], [], [], []⟩

def isOpen (s : Client) (conn : Nat) : Bool := conn ∉ s.closed

def setPhase (s : Client) (phase : Phase) : Client := { s with phase := phase }

def write (s : Client) (entry : LogEntry) : Client := { s with log := s.log ++ [entry] }

/-- the body of the `try` ends, `async with` closes the connection -/
def leave (s : Client) (conn : Nat) (exc : Option Exc) : Client :=
  { s with phase := .leaving exc, closed := conn :: s.closed }

/-- the end of `send` where the message was not written -/
def keep (s : Client) (call : SendCall) : Client :=
  if call.durable then { s with durableQueue := s.durableQueue ++ [call] } else s

/-- `send` returns, to the flush or to the task that called it -/
def sendReturns (s : Client) (call : SendCall) (flush : Bool) : Client :=
  if flush then
    match s.phase with
    | .flushSending conn intervalMs pending => s.setPhase (.flushing conn intervalMs pending)
    | _ => s
  else { s with returned := s.returned ++ [call] }

/-- `send` up to its first await -/
def beginSend (s : Client) (call : SendCall) (flush : Bool) : Client :=
  match s.socket with
  | some conn => { s with sending := s.sending ++ [⟨call, conn, flush⟩] }
  | none => (s.keep call).sendReturns call flush

/-- a task calls `send` -/
def send (s : Client) (message : OutboundAgentMessage) (durable : Bool) : Client :=
  let call : SendCall := ⟨s.calls.length, message, durable⟩
  { s with calls := s.calls ++ [call] }.beginSend call false

/-- `socket.send` returns or raises `ConnectionClosed`, and `send` goes on to its end -/
def sendEnds (s : Client) (x : Sending) : Client :=
  (if s.isOpen x.conn then s.write (.frame x.conn x.call) else s.keep x.call).sendReturns x.call x.flush

/-- the `finally` of `run_forever` and what follows it -/
def disconnected (s : Client) (exc statusRaises : Option Exc) : Client :=
  { s with
    socket := none
    connected := false
    phase :=
      match statusRaises.or (exc.filter fun e => !e.isCaught) with
      | some e => .raised e
      | none => if s.stopped then .returned else .backoff }

section
variable (limits : Limits) (validate : InboundModel → Value → Except Exc (InboundHubMessage Str))

def step (s : Client) : ClientAct → Option Client
  | .iterate =>
    if s.phase = .head then some (s.setPhase (if s.stopped then .returned else .connecting)) else none
  | .connect raises =>
    if s.phase = .connecting then
      match raises with
      | some e => some (s.setPhase (.leaving (some e)))
      | none =>
        some { s with
          phase := .authSending s.connections
          socket := some s.connections
          connections := s.connections + 1 }
    else none
  | .authSent =>
    match s.phase with
    | .authSending conn =>
      if s.isOpen conn then some ((s.write (.authenticate conn)).setPhase (.authWaiting conn))
      else some ((s.write (.refused conn)).leave conn (some .connectionClosed))
    | _ => none
  | .reply raw =>
    match s.phase with
    | .authWaiting conn =>
      match decode limits validate raw with
      | .error e => some ((s.write (.refused conn)).leave conn (some e))
      | .ok (some (.authenticated intervalMs)) =>
        some { s.write (.authenticated conn) with
          phase := .flushing conn intervalMs s.durableQueue
          connected := true
          durableQueue := [] }
      | .ok _ =>
        some { (s.write (.refused conn)).leave conn (some .connectionClosed) with socket := none }
    | _ => none
  | .noReply timedOut =>
    match s.phase with
    | .authWaiting conn =>
      some ((s.write (.refused conn)).leave conn
        (some (if timedOut then .timeoutError else .connectionClosed)))
    | _ => none
  | .flushNext =>
    match s.phase with
    | .flushing conn intervalMs (call :: pending) =>
      some ((s.setPhase (.flushSending conn intervalMs pending)).beginSend call true)
    | _ => none
  | .flushed statusRaises =>
    match s.phase with
    | .flushing conn intervalMs [] =>
      if overflowsFloat intervalMs then some (s.leave conn (some .overflowError))
      else
        match statusRaises with
        | some e => some (s.leave conn (some e))
        | none => some (s.setPhase (.discovering conn))
    | _ => none
  | .discovered printers =>
    match s.phase with
    | .discovering conn =>
      match printers with
      | none => some (s.setPhase (.receiving conn))
      | some printers =>
        some ((s.setPhase (.syncSending conn s.calls.length)).send (buildSyncMessage printers) false)
    | _ => none
  | .synced =>
    match s.phase with
    | .syncSending conn number =>
      if s.returned.any (·.number = number) then some (s.setPhase (.receiving conn)) else none
    | _ => none
  | .receive raw =>
    match s.phase with
    | .receiving conn =>
      match decode limits validate raw with
      | .error e => some (s.leave conn (some e))
      | .ok none => some s
      | .ok (some message) => some (s.setPhase (.handling conn message))
    | _ => none
  | .handled raises =>
    match s.phase with
    | .handling conn message =>
      match raises with
      | none => some (s.setPhase (.receiving conn))
      | some e => if message.canRaise e then some (s.leave conn (some e)) else none
    | _ => none
  | .ends cleanly =>
    match s.phase with
    | .receiving conn => some (s.leave conn (if cleanly then none else some .connectionClosed))
    | _ => none
  | .disconnected statusRaises =>
    match s.phase with
    | .leaving exc => some (s.disconnected exc statusRaises)
    | _ => none
  | .backoffEnds => if s.phase = .backoff then some (s.setPhase .head) else none
  | .send message durable => some (s.send message durable)
  | .stop => some { s with stopped := true }
  | .sendEnds i =>
    match s.sending[i]? with
    | some x => some ({ s with sending := s.sending.eraseIdx i }.sendEnds x)
    | none => none
  | .drop conn =>
    if conn < s.connections && s.isOpen conn then some { s with closed := conn :: s.closed } else none

end

end Client

def client (limits : Limits) (validate : InboundModel → Value → Except Exc (InboundHubMessage Str)) :
    Machine Client ClientAct := ⟨Client.init, Client.step limits validate⟩

/-! ## pieces of schedules -/

namespace Client.Schedule

def limits : Limits := ⟨900, 4300⟩

def validate : InboundModel → Value → Except Exc (InboundHubMessage Str)
  | .agentAuthenticated, _ => .ok (.authenticated 30000)
  | .agentAuthenticateRejected, _ => .ok .authenticateRejected
  | _, _ => .error .valueError

def authenticatedFrame : Source :=
  .text (PyJson.Str.ofString ("\x7b\"type\":\"agent.authenticated\",\"ts\":\"t\",\"agentId\":\"a\"," ++
    "\"tenantId\":\"t\",\"serverTime\":\"t\",\"heartbeatIntervalMs\":30000\x7d"))

def rejectedFrame : Source :=
  .text (PyJson.Str.ofString
    "\x7b\"type\":\"agent.authenticate.rejected\",\"ts\":\"t\",\"reason\":\"revoked\"\x7d")

def connect : List ClientAct := [.iterate, .connect none, .authSent, .reply authenticatedFrame]

end Client.Schedule

end PrintAgent
