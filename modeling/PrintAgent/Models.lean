import PrintAgent.StateMachine

/-!
# Messages between the agent and the hub

The part of `models.py` that the agent reads and writes: the inbound messages, the five durable
outbound `print.job.*` events, and the other outbound messages.  The fields `type` and `ts` of a
message are left out, and the fields of an inbound message that nothing but the log reads.
-/

namespace PrintAgent

/-- `PrintJobDispatch`, the inbound `print.job`.  The texts of a frame may hold lone surrogates; the store takes
none of those, so to the jobs themselves a text is a `String`. -/
structure PrintJobDispatch (T : Type := String) where
  jobId : T
  printerId : T
  documentType : T
  documentId : T
  documentUrl : T
  copies : Int := 1
  deriving DecidableEq, Repr

/-- `PrintJobCancel`, the inbound `print.job.cancel` -/
structure PrintJobCancel (T : Type := String) where
  jobId : T
  deriving DecidableEq, Repr

/-- the outbound `print.job.*` events: `PrintJobReceived`, `PrintJobStarted`,
`PrintJobCompleted`, `PrintJobFailed`, `PrintJobCancelled` -/
inductive JobEvent where
  | received (jobId : String)
  | started (jobId : String)
  | completed (jobId : String)
  | failed (jobId : String) (errorCode message : Option String)
  | cancelled (jobId : String)
  deriving DecidableEq, Repr

namespace JobEvent

def jobId : JobEvent → String
  | .received j | .started j | .completed j | .failed j _ _ | .cancelled j => j

def status : JobEvent → PrintJobStatus
  | .received _ => .received
  | .started _ => .printing
  | .completed _ => .completed
  | .failed _ _ _ => .failed
  | .cancelled _ => .cancelled

/-- a verdict: an event that reports a terminal status -/
def isVerdict (e : JobEvent) : Bool := e.status.isTerminal

end JobEvent

/-- `InboundHubMessage`: `AgentAuthenticated`, `AgentAuthenticateRejected`, `PrintJobDispatch`,
`PrintJobCancel` -/
inductive InboundHubMessage (T : Type := String) where
  | authenticated (heartbeatIntervalMs : Int)
  | authenticateRejected
  | dispatch (message : PrintJobDispatch T)
  | cancel (message : PrintJobCancel T)
  deriving DecidableEq, Repr

structure PrinterCapabilities where
  color : Option Bool
  duplex : Option Bool
  paperSizes : Option (List String)
  deriving DecidableEq, Repr

structure SyncedPrinter where
  localPrinterId : String
  displayName : Option String
  driverName : Option String
  portName : Option String
  isDefault : Option Bool
  capabilities : Option PrinterCapabilities
  statusDetail : Option String
  online : Option Bool
  deriving DecidableEq, Repr

/-- a printer as `PrinterManager.discover` reports it -/
structure DiscoveredPrinter where
  localPrinterId : String
  displayName : String
  driverName : Option String := none
  portName : Option String := none
  isDefault : Bool := false
  color : Option Bool := none
  duplex : Option Bool := none
  paperSizes : Option (List String) := none
  statusDetail : Option String := none
  online : Option Bool := none
  deriving DecidableEq, Repr

def DiscoveredPrinter.toSynced (printer : DiscoveredPrinter) : SyncedPrinter where
  localPrinterId := printer.localPrinterId
  displayName := some printer.displayName
  driverName := printer.driverName
  portName := printer.portName
  isDefault := some printer.isDefault
  capabilities := some ⟨printer.color, printer.duplex, printer.paperSizes⟩
  statusDetail := printer.statusDetail
  online := printer.online

/-- what is handed to `WsClient.send`: `AgentHeartbeat`, `AgentPrintersSync` and the
`print.job.*` events -/
inductive OutboundAgentMessage where
  | heartbeat
  | printersSync (printers : List SyncedPrinter)
  | event (event : JobEvent)
  deriving DecidableEq, Repr

/-- `build_sync_message` of `core/printer_sync.py` -/
def buildSyncMessage (discovered : List DiscoveredPrinter) : OutboundAgentMessage :=
  .printersSync (discovered.map DiscoveredPrinter.toSynced)

def OutboundAgentMessage.jobId : OutboundAgentMessage → Option String
  | .event e => some e.jobId
  | _ => none

end PrintAgent
