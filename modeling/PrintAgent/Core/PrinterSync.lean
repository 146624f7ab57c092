import Mathlib.Data.Rat.Defs
import PrintAgent.Net.Conserved

/-!
# The printer sync

`run_periodic_sync` of `core/printer_sync.py` beside `run_forever`, whose `_on_authenticated` sends the
printers too (`sync_now`).  Both write `agent.printers.sync`, but only the periodic loop remembers in
`last_sent` what it wrote.  What `_fingerprint` makes of a message is given by `fingerprint`; a message is
its printers, the timestamp apart.

A tick is one round of the loop, from the check of `connected`.  `Tick` carries the socket of that
moment, as long as it stays, so that the end of a tick tells whether the client stayed connected.

* `SyncHistory`         where the loop sent its last list, and what `sync_now` has found since;
* `keepsFresh`          the condition, on reconnects, failed syncs and printers that change: where a tick finds
                        the list that the loop sent last, that was on this connection, or the `sync_now` of
                        this connection has found the printers and sent them; and it has found no other list.
-/

namespace PrintAgent

open PyJson (Str Value Limits)

def printerSyncIntervalSeconds : ℚ := 5 * 60

/-- where `run_periodic_sync` stands -/
inductive Tick where
  /-- waits for `check_seconds` to pass, or for `stop` -/
  | waiting
  /-- discovers the printers -/
  | discovering (conn : Option Nat)
  /-- in `send`, called when `via` was the socket -/
  | sending (conn via : Option Nat) (number : Nat) (printers : List SyncedPrinter)
  /-- the tick is over: these printers were discovered, and `conn` was the socket all the time -/
  | ticked (conn : Option Nat) (printers : List SyncedPrinter)
  | returned
  deriving DecidableEq, Repr

/-- what has been found and sent, a history -/
structure SyncHistory where
  /-- the connection on which the loop called `send` last, with the list -/
  lastSend : Option (Nat × List SyncedPrinter)
  /-- the lists that `sync_now` has found since then, or was still sending then, with their connections -/
  found : List (Nat × List SyncedPrinter)

structure PrinterSync (φ : Type) where
  client : Client
  tick : Tick
  lastSent : Option φ
  lastSentAt : ℚ
  history : SyncHistory

inductive SyncAct where
  | client (a : ClientAct)
  | wake
  | found (printers : Option (List DiscoveredPrinter)) (now : ℚ)
  | sent (now : ℚ)
  | rest

def OutboundAgentMessage.printers : OutboundAgentMessage → Option (List SyncedPrinter)
  | .printersSync printers => some printers
  | _ => none

/-- a task other than `sync_now` and the periodic loop sends the printers -/
def ClientAct.sendsPrinters : ClientAct → Bool
  | .send message _ => message.printers.isSome
  | _ => false

/-- `sync_now` awaits its `send`: the connection, and the number of the call -/
def Phase.syncSend : Phase → Option (Nat × Nat)
  | .syncSending conn number => some (conn, number)
  | _ => none

namespace SyncHistory

/-- `sync_now` finds the printers -/
def note (h : SyncHistory) (phase : Phase) : ClientAct → SyncHistory
  | .discovered (some printers) =>
    match phase with
    | .discovering conn => { h with found := (conn, printers.map DiscoveredPrinter.toSynced) :: h.found }
    | _ => h
  | _ => h

/-- the loop calls `send` -/
def send (h : SyncHistory) (phase : Phase) (socket : Option Nat) (printers : List SyncedPrinter) :
    SyncHistory where
  lastSend := socket.map fun conn => (conn, printers)
  found := h.found.filter fun f => phase.syncSend.any fun sync => sync.1 = f.1

/-- `sync_now` has found no other list on the connection -/
def agrees (h : SyncHistory) (conn : Nat) (printers : List SyncedPrinter) : Bool :=
  h.found.all fun f => f.1 ≠ conn || f.2 = printers

def sentOn (h : SyncHistory) (conn : Nat) : Bool := h.lastSend.any (·.1 = conn)

/-- `sync_now` has found the printers on the connection -/
def foundOn (h : SyncHistory) (conn : Nat) : Bool := h.found.any (·.1 = conn)

end SyncHistory

namespace PrinterSync
variable {φ : Type} [DecidableEq φ]

def init : PrinterSync φ := ⟨.init, .waiting, none, 0, ⟨none, []⟩⟩

/-- the socket that was there when the tick began, as long as it is still there -/
def stayed (s : PrinterSync φ) (conn : Option Nat) : Option Nat :=
  if s.client.socket = conn then conn else none

section
variable (fingerprint : List SyncedPrinter → φ) (limits : Limits)
  (validate : InboundModel → Value → Except Exc (InboundHubMessage Str))

/-- nothing has changed since the last sync, which is not long ago -/
def skips (s : PrinterSync φ) (printers : List SyncedPrinter) (now : ℚ) : Bool :=
  some (fingerprint printers) = s.lastSent && now - s.lastSentAt < printerSyncIntervalSeconds

def step (s : PrinterSync φ) : SyncAct → Option (PrinterSync φ)
  | .client a =>
    match s.tick with
    -- the loop goes on without an await
    | .ticked _ _ => none
    | _ =>
      if a.sendsPrinters then none
      else
        (s.client.step limits validate a).map fun client =>
          { s with client := client, history := s.history.note s.client.phase a }
  | .wake =>
    if s.tick = .waiting then
      if s.client.stopped then some { s with tick := .returned }
      else if s.client.connected then some { s with tick := .discovering s.client.socket }
      else some { s with lastSent := none }
    else none
  | .found printers now =>
    match s.tick with
    | .discovering conn =>
      match printers with
      | none => some { s with tick := .waiting }
      | some printers =>
        let message := printers.map DiscoveredPrinter.toSynced
        if s.skips fingerprint message now then some { s with tick := .ticked (s.stayed conn) message }
        else
          some { s with
            client := s.client.send (buildSyncMessage printers) false
            tick := .sending (s.stayed conn) s.client.socket s.client.calls.length message
            history := s.history.send s.client.phase s.client.socket message }
    | _ => none
  | .sent now =>
    match s.tick with
    | .sending conn _ number printers =>
      if s.client.sending.any (·.call.number = number) then none
      else
        some { s with
          tick := .ticked conn printers
          lastSent := some (fingerprint printers)
          lastSentAt := now }
    | _ => none
  | .rest =>
    match s.tick with
    | .ticked _ _ => some { s with tick := .waiting }
    | _ => none

/-! ## the condition -/

/-- A tick that finds the list it remembers finds it on the connection on which the loop sent it, or on one
whose `sync_now` has found the printers and is through; and at the end of a tick `sync_now` has found no
other list on the connection since the loop's last send. -/
def keepsFresh (s : PrinterSync φ) : SyncAct → Bool
  | .found (some printers) now =>
    let message := printers.map DiscoveredPrinter.toSynced
    !s.skips fingerprint message now || s.client.socket.all fun conn =>
      s.history.agrees conn message &&
        (s.history.sentOn conn || (s.history.foundOn conn && s.client.phase.syncSend.isNone))
  | .sent _ =>
    match s.tick with
    | .sending (some conn) _ _ printers => s.history.agrees conn printers
    | _ => true
  | _ => true

end

end PrinterSync

/-- the periodic loop beside the connection, as a machine -/
def printerSync {φ : Type} [DecidableEq φ] (fingerprint : List SyncedPrinter → φ) (limits : Limits)
    (validate : InboundModel → Value → Except Exc (InboundHubMessage Str)) :
    Machine (PrinterSync φ) SyncAct := ⟨PrinterSync.init, PrinterSync.step fingerprint limits validate⟩

/-! ## pieces of schedules -/

namespace PrinterSync.Schedule

/-- a printer that is ready, and the same one out of paper -/
def ready : DiscoveredPrinter where
  localPrinterId := "lp0"
  displayName := "Front desk"
  online := some true

def outOfPaper : DiscoveredPrinter := { ready with statusDetail := some "Out of paper" }

/-- a connection on which `sync_now` finds these printers -/
def connects (printers : List DiscoveredPrinter) : List SyncAct :=
  Client.Schedule.connect.map .client ++
  [.client (.flushed none), .client (.discovered (some printers)), .client (.sendEnds 0), .client .synced]

end PrinterSync.Schedule

end PrintAgent
