import PrintAgent.Models

/-!
# The durable side of the hub connection

`net/ws_client.py` as far as durable messages and the receive loop go: where `run_forever` stands,
the buffer `_durable_queue`, and what `send` and `_flush_durable_queue` do with a durable message.
The parameter `η` is the handler that the receive loop awaits.

`_socket` is set from the handshake to the `finally` of the loop's body, whatever the peer does
meanwhile, so it is read off where `run_forever` stands.  A send over a socket ends in one of two
ways: the frame is written, or `ConnectionClosed` is raised and the message is queued.
-/

namespace PrintAgent

/-- where `run_forever` stands -/
inductive Loop (η : Type) where
  /-- in `websockets.connect`, or backing off: `_socket` is `None` -/
  | connecting
  /-- `_authenticate` waits for the reply -/
  | authenticating
  /-- `_flush_durable_queue` sends the first message of the list it took -/
  | flushing (pending : List JobEvent)
  /-- in `_on_authenticated` -/
  | syncing
  /-- in `async for raw in socket` -/
  | receiving
  /-- in `_on_inbound_message`, which awaits one handler -/
  | handling (handler : η)

structure WsClient (η : Type) where
  loop : Loop η
  durableQueue : List JobEvent

namespace WsClient
variable {η : Type}

def init : WsClient η := ⟨.connecting, []⟩

/-- `_socket is not None` -/
def socket (ws : WsClient η) : Bool :=
  match ws.loop with
  | .connecting => false
  | _ => true

def handler (ws : WsClient η) : Option η :=
  match ws.loop with
  | .handling h => some h
  | _ => none

/-- the messages that wait to be sent again: the buffer, and what a running flush took from it -/
def waiting (ws : WsClient η) : List JobEvent :=
  ws.durableQueue ++
    match ws.loop with
    | .flushing pending => pending
    | _ => []

def setLoop (ws : WsClient η) (loop : Loop η) : WsClient η := { ws with loop := loop }

/-- `send(event, durable=True)` up to its first await: without a socket the event is queued -/
def send (ws : WsClient η) (event : JobEvent) : WsClient η :=
  if ws.socket then ws else { ws with durableQueue := ws.durableQueue ++ [event] }

/-- the send over the socket ended; without `written`, by `ConnectionClosed` -/
def sendEnds (ws : WsClient η) (event : JobEvent) (written : Bool) : WsClient η :=
  if written then ws else { ws with durableQueue := ws.durableQueue ++ [event] }

/-- `_flush_durable_queue` takes the buffer -/
def beginFlush (ws : WsClient η) : WsClient η := ⟨.flushing ws.durableQueue, []⟩

end WsClient

end PrintAgent
