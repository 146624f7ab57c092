import PrintAgent.Config
import PrintAgent.Lib.Machine

/-!
# The service on Windows

`ERESPrintAgentService` is three threads: the service control manager calls `SvcStop` on one, `SvcDoRun` runs on the
next and starts the third, which runs the loop of the agent.  A step of `host` is a step of one of them, or the end of
the process; what they share is the two attributes, the event and what is called on the loop.  How long the agent runs
is left to the environment.

* `usable_eq_cmdRunStarts`  the service starts the agent exactly where `run` does;
* `Host.Fit`                what the three threads agree on;
* `stop_not_lost`           once a `SvcStop` has set the event, `SvcDoRun` gets to its end by its own steps;
* `stop_told`               from the moment that the loop is there, each `SvcStop` calls `agent.stop`.
-/

namespace PrintAgent

open PyJson (Str)

namespace WindowsService

/-- where `SvcDoRun` stands -/
inductive Main where
  | loading
  /-- there is a credential; the agent is not created yet -/
  | checked
  | agentSet
  | loopSet
  | waiting
  | joining
  /-- `served` is false where there was no usable credential -/
  | returned (served : Bool)
  | raised
  deriving DecidableEq, Repr

/-- where `SvcStop` stands -/
inductive Handler where
  | idle
  | asked
  | sawAgent
  | sawLoop
  | setting
  deriving DecidableEq, Repr

inductive AgentThread where
  | unborn
  | running
  | ended
  /-- a daemon thread that ran when the process ended -/
  | killed
  deriving DecidableEq, Repr

/-- `calls` of `agent.stop` are on the loop and `told` have run; `stops` calls of `SvcStop` have set the event, and
`missed` of them found no agent or no loop -/
structure Host where
  main : Main
  handler : Handler
  thread : AgentThread
  agent : Bool
  loop : Bool
  event : Bool
  calls : Nat
  told : Nat
  stops : Nat
  missed : Nat
  exited : Bool
  deriving DecidableEq, Repr

def init : Host := ⟨.loading, .idle, .unborn, false, false, false, 0, 0, 0, 0, false⟩

inductive HostAct where
  /-- `load_config` and `load_agent_secret` return, or one of them raises -/
  | load (found : Option (AgentConfig × Option Str))
  | create (raises : Bool)
  | newLoop
  | startThread
  | wake
  | join (timedOut : Bool)
  | svcStop
  | readAgent
  | readLoop
  | callSoon
  | setEvent
  | callback
  | agentEnds
  | exit
  deriving DecidableEq

/-- `SvcDoRun` goes on; the secret counts only where there is an id to load it for -/
def usable (config : AgentConfig) (secret : Option Str) : Bool :=
  let agentSecret := if config.agentId.getD [] ≠ [] then secret else none
  !(!config.isPaired || agentSecret.getD [] = [])

/-- `cmd_run` starts the agent -/
def cmdRunStarts (config : AgentConfig) (secret : Option Str) : Bool :=
  if !config.isPaired then false else if secret.getD [] = [] then false else true

theorem usable_eq_cmdRunStarts (config : AgentConfig) (secret : Option Str) :
    usable config secret = cmdRunStarts config secret := by
  unfold usable cmdRunStarts
  cases hpaired : config.isPaired with
  | false => rfl
  | true =>
    have hid : config.agentId.getD [] ≠ [] := by
      have hboth := (Bool.and_eq_true _ _).mp hpaired
      exact of_decide_eq_true hboth.1
    simp only [if_pos hid]
    by_cases hsecret : secret.getD [] = [] <;> simp [hsecret]

namespace Main

def isOver : Main → Bool
  | .returned _ | .raised => true
  | _ => false

/-- how many steps `SvcDoRun` has left at most -/
def left : Main → Nat
  | .loading => 6
  | .checked => 5
  | .agentSet => 4
  | .loopSet => 3
  | .waiting => 2
  | .joining => 1
  | .returned _ | .raised => 0

def hasAgent : Main → Bool
  | .agentSet | .loopSet | .waiting | .joining | .returned true => true
  | _ => false

def hasLoop : Main → Bool
  | .loopSet | .waiting | .joining | .returned true => true
  | _ => false

def serves : Main → Bool
  | .waiting | .joining | .returned true => true
  | _ => false

def early : Main → Bool
  | .joining | .returned true => false
  | _ => true

end Main

def HostAct.isMain : HostAct → Bool
  | .load _ | .create _ | .newLoop | .startThread | .wake | .join _ => true
  | _ => false

/-- `SvcDoRun` -/
def mainStep (h : Host) : HostAct → Option Host
  | .load found =>
    if h.main = .loading then
      some { h with main := match found with
        | some (config, secret) => if usable config secret then .checked else .returned false
        | none => .raised }
    else none
  | .create raises =>
    if h.main = .checked then
      some (if raises then { h with main := .raised } else { h with main := .agentSet, agent := true })
    else none
  | .newLoop => if h.main = .agentSet then some { h with main := .loopSet, loop := true } else none
  | .startThread => if h.main = .loopSet then some { h with main := .waiting, thread := .running } else none
  -- the event is one that resets itself
  | .wake => if h.main = .waiting ∧ h.event = true then some { h with main := .joining, event := false } else none
  | .join timedOut =>
    if h.main = .joining ∧ (h.thread = .ended ∨ timedOut = true) then some { h with main := .returned true } else none
  | _ => none

/-- `SvcStop` -/
def handlerStep (h : Host) : HostAct → Option Host
  | .svcStop => if h.handler = .idle ∧ h.main.isOver = false then some { h with handler := .asked } else none
  | .readAgent =>
    if h.handler = .asked then
      some (if h.agent then { h with handler := .sawAgent } else { h with handler := .setting, missed := h.missed + 1 })
    else none
  | .readLoop =>
    if h.handler = .sawAgent then
      some (if h.loop then { h with handler := .sawLoop } else { h with handler := .setting, missed := h.missed + 1 })
    else none
  | .callSoon => if h.handler = .sawLoop then some { h with handler := .setting, calls := h.calls + 1 } else none
  | .setEvent =>
    if h.handler = .setting then some { h with handler := .idle, event := true, stops := h.stops + 1 } else none
  | _ => none

/-- the thread of the agent, and the end of the process -/
def threadStep (h : Host) : HostAct → Option Host
  | .callback =>
    if h.thread = .running ∧ 0 < h.calls then some { h with calls := h.calls - 1, told := h.told + 1 } else none
  | .agentEnds => if h.thread = .running then some { h with thread := .ended } else none
  | .exit =>
    if h.main.isOver = true then
      some { h with exited := true, thread := if h.thread = .running then .killed else h.thread }
    else none
  | _ => none

def step (h : Host) (a : HostAct) : Option Host :=
  if h.exited then none else (mainStep h a).or ((handlerStep h a).or (threadStep h a))

def host : Machine Host HostAct := ⟨init, step⟩

/-! ## what a step can do -/

inductive Goes (h : Host) : HostAct → Host → Prop
  | refused {found : Option (AgentConfig × Option Str)} {main : Main} (hm : h.main = .loading)
      (hover : main = .returned false ∨ main = .raised) : Goes h (.load found) { h with main := main }
  | loaded {found : Option (AgentConfig × Option Str)} (hm : h.main = .loading) :
      Goes h (.load found) { h with main := .checked }
  | createRaises (hm : h.main = .checked) : Goes h (.create true) { h with main := .raised }
  | created (hm : h.main = .checked) : Goes h (.create false) { h with main := .agentSet, agent := true }
  | newLoop (hm : h.main = .agentSet) : Goes h .newLoop { h with main := .loopSet, loop := true }
  | startThread (hm : h.main = .loopSet) : Goes h .startThread { h with main := .waiting, thread := .running }
  | wake (hm : h.main = .waiting) (he : h.event = true) : Goes h .wake { h with main := .joining, event := false }
  | join {timedOut : Bool} (hm : h.main = .joining) : Goes h (.join timedOut) { h with main := .returned true }
  | svcStop (hh : h.handler = .idle) : Goes h .svcStop { h with handler := .asked }
  | sawAgent (hh : h.handler = .asked) : Goes h .readAgent { h with handler := .sawAgent }
  | noAgent (hh : h.handler = .asked) (ha : h.agent = false) :
      Goes h .readAgent { h with handler := .setting, missed := h.missed + 1 }
  | sawLoop (hh : h.handler = .sawAgent) : Goes h .readLoop { h with handler := .sawLoop }
  | noLoop (hh : h.handler = .sawAgent) (hl : h.loop = false) :
      Goes h .readLoop { h with handler := .setting, missed := h.missed + 1 }
  | callSoon (hh : h.handler = .sawLoop) : Goes h .callSoon { h with handler := .setting, calls := h.calls + 1 }
  | setEvent (hh : h.handler = .setting) :
      Goes h .setEvent { h with handler := .idle, event := true, stops := h.stops + 1 }
  | callback (ht : h.thread = .running) (hc : 0 < h.calls) :
      Goes h .callback { h with calls := h.calls - 1, told := h.told + 1 }
  | agentEnds (ht : h.thread = .running) : Goes h .agentEnds { h with thread := .ended }
  | exit {thread : AgentThread} (hm : h.main.isOver = true)
      (ht : h.thread = .running ∧ thread = .killed ∨ thread = h.thread) :
      Goes h .exit { h with exited := true, thread := thread }

theorem goes_of_main {h h' : Host} {a : HostAct} (hs : mainStep h a = some h') : Goes h a h' := by
  cases a with
  | load found =>
    obtain ⟨hm, hs⟩ := Option.ite_none_right_eq_some.mp hs
    cases hs
    cases found with
    | none => exact .refused hm (.inr rfl)
    | some found =>
      obtain ⟨config, secret⟩ := found
      cases hu : usable config secret with
      | true =>
        simp only [hu]
        exact .loaded hm
      | false =>
        simp only [hu]
        exact .refused hm (.inl rfl)
  | create raises =>
    obtain ⟨hm, hs⟩ := Option.ite_none_right_eq_some.mp hs
    cases hs
    cases raises with
    | true => exact .createRaises hm
    | false => exact .created hm
  | newLoop =>
    obtain ⟨hm, hs⟩ := Option.ite_none_right_eq_some.mp hs
    cases hs
    exact .newLoop hm
  | startThread =>
    obtain ⟨hm, hs⟩ := Option.ite_none_right_eq_some.mp hs
    cases hs
    exact .startThread hm
  | wake =>
    obtain ⟨hm, hs⟩ := Option.ite_none_right_eq_some.mp hs
    cases hs
    exact .wake hm.1 hm.2
  | join timedOut =>
    obtain ⟨hm, hs⟩ := Option.ite_none_right_eq_some.mp hs
    cases hs
    exact .join hm.1
  | _ => cases hs

theorem goes_of_handler {h h' : Host} {a : HostAct} (hs : handlerStep h a = some h') : Goes h a h' := by
  cases a with
  | svcStop =>
    obtain ⟨hh, hs⟩ := Option.ite_none_right_eq_some.mp hs
    cases hs
    exact .svcStop hh.1
  | readAgent =>
    obtain ⟨hh, hs⟩ := Option.ite_none_right_eq_some.mp hs
    cases hs
    split
    · exact .sawAgent hh
    · rename_i ha
      exact .noAgent hh (Bool.eq_false_iff.mpr ha)
  | readLoop =>
    obtain ⟨hh, hs⟩ := Option.ite_none_right_eq_some.mp hs
    cases hs
    split
    · exact .sawLoop hh
    · rename_i hl
      exact .noLoop hh (Bool.eq_false_iff.mpr hl)
  | callSoon =>
    obtain ⟨hh, hs⟩ := Option.ite_none_right_eq_some.mp hs
    cases hs
    exact .callSoon hh
  | setEvent =>
    obtain ⟨hh, hs⟩ := Option.ite_none_right_eq_some.mp hs
    cases hs
    exact .setEvent hh
  | _ => cases hs

theorem goes_of_thread {h h' : Host} {a : HostAct} (hs : threadStep h a = some h') : Goes h a h' := by
  cases a with
  | callback =>
    obtain ⟨ht, hs⟩ := Option.ite_none_right_eq_some.mp hs
    cases hs
    exact .callback ht.1 ht.2
  | agentEnds =>
    obtain ⟨ht, hs⟩ := Option.ite_none_right_eq_some.mp hs
    cases hs
    exact .agentEnds ht
  | exit =>
    obtain ⟨hm, hs⟩ := Option.ite_none_right_eq_some.mp hs
    cases hs
    refine .exit hm ?_
    split
    · rename_i ht
      exact .inl ⟨ht, rfl⟩
    · exact .inr rfl
  | _ => cases hs

theorem goes_of_step {h h' : Host} {a : HostAct} (hs : step h a = some h') : Goes h a h' := by
  unfold step at hs
  split at hs
  · cases hs
  · rcases Option.or_eq_some_iff.mp hs with hs | ⟨-, hs⟩
    · exact goes_of_main hs
    · rcases Option.or_eq_some_iff.mp hs with hs | ⟨-, hs⟩
      · exact goes_of_handler hs
      · exact goes_of_thread hs

/-! ## what the threads agree on -/

structure Host.Fit (h : Host) : Prop where
  agent : h.agent = h.main.hasAgent
  loop : h.loop = h.main.hasLoop
  thread : h.thread ≠ .unborn → h.main.serves = true
  /-- the event stays set until it has been waited for -/
  event : h.main.early = true → (h.event = true ↔ 0 < h.stops)
  late : h.main.early = false → 0 < h.stops
  killed : h.thread = .killed → 0 < h.stops
  /-- a `SvcStop` has called `agent.stop`, or missed it -/
  counts : h.calls + h.told + h.missed = h.stops + if h.handler = .setting then 1 else 0

theorem Main.not_early {main : Main} (hs : main.serves = true) (ho : main.isOver = true) : main.early = false := by
  cases main with
  | returned served =>
    cases served with
    | true => rfl
    | false => cases hs
  | raised => cases hs
  | _ => cases ho

namespace Host
variable {h h' : Host} {a : HostAct}

theorem fit_init : init.Fit where
  agent := rfl
  loop := rfl
  thread h := absurd rfl h
  event _ := by simp [init]
  late := nofun
  killed := nofun
  counts := rfl

/-- `SvcDoRun` goes on and changes nothing that the others see -/
theorem Fit.main (hf : h.Fit) {main : Main} (ha : main.hasAgent = h.main.hasAgent) (hl : main.hasLoop = h.main.hasLoop)
    (hs : main.serves = h.main.serves) (he : main.early = h.main.early) : Fit { h with main := main } where
  agent := hf.agent.trans ha.symm
  loop := hf.loop.trans hl.symm
  thread ht := hs.trans (hf.thread ht)
  event hearly := hf.event (he.symm.trans hearly)
  late hlate := hf.late (he.symm.trans hlate)
  killed := hf.killed
  counts := hf.counts

theorem Fit.unborn (hf : h.Fit) (hs : h.main.serves = false) : h.thread = .unborn := by
  by_contra ht
  have hserves := hf.thread ht
  rw [hs] at hserves
  cases hserves

theorem Fit.goes_main (hf : h.Fit) (hg : Goes h a h') (ha : a.isMain = true) : h'.Fit := by
  cases hg with
  | refused hm hover =>
    rcases hover with rfl | rfl
    all_goals exact hf.main (by rw [hm]; rfl) (by rw [hm]; rfl) (by rw [hm]; rfl) (by rw [hm]; rfl)
  | loaded hm => exact hf.main (by rw [hm]; rfl) (by rw [hm]; rfl) (by rw [hm]; rfl) (by rw [hm]; rfl)
  | createRaises hm => exact hf.main (by rw [hm]; rfl) (by rw [hm]; rfl) (by rw [hm]; rfl) (by rw [hm]; rfl)
  | created hm =>
    have hunborn : h.thread = .unborn := hf.unborn (by rw [hm]; rfl)
    exact
      { agent := rfl
        loop := hf.loop.trans (by rw [hm]; rfl)
        thread := fun ht => absurd hunborn ht
        event := fun _ => hf.event (by rw [hm]; rfl)
        late := nofun
        killed := hf.killed
        counts := hf.counts }
  | newLoop hm =>
    have hunborn : h.thread = .unborn := hf.unborn (by rw [hm]; rfl)
    exact
      { agent := hf.agent.trans (by rw [hm]; rfl)
        loop := rfl
        thread := fun ht => absurd hunborn ht
        event := fun _ => hf.event (by rw [hm]; rfl)
        late := nofun
        killed := hf.killed
        counts := hf.counts }
  | startThread hm =>
    exact
      { agent := hf.agent.trans (by rw [hm]; rfl)
        loop := hf.loop.trans (by rw [hm]; rfl)
        thread := fun _ => rfl
        event := fun _ => hf.event (by rw [hm]; rfl)
        late := nofun
        killed := nofun
        counts := hf.counts }
  | wake hm he =>
    have hstops : 0 < h.stops := (hf.event (by rw [hm]; rfl)).mp he
    exact
      { agent := hf.agent.trans (by rw [hm]; rfl)
        loop := hf.loop.trans (by rw [hm]; rfl)
        thread := fun _ => rfl
        event := nofun
        late := fun _ => hstops
        killed := hf.killed
        counts := hf.counts }
  | join hm => exact hf.main (by rw [hm]; rfl) (by rw [hm]; rfl) (by rw [hm]; rfl) (by rw [hm]; rfl)
  | _ => cases ha

/-- a `SvcStop` goes on, and calls or misses `agent.stop` with the last step before it sets the event -/
theorem Fit.handler (hf : h.Fit) {handler : Handler} {calls missed : Nat} (hh : h.handler ≠ .setting)
    (hc : calls + missed = h.calls + h.missed + if handler = .setting then 1 else 0) :
    Fit { h with handler := handler, calls := calls, missed := missed } where
  agent := hf.agent
  loop := hf.loop
  thread := hf.thread
  event := hf.event
  late := hf.late
  killed := hf.killed
  counts := by
    have hold := hf.counts
    rw [if_neg hh] at hold
    show calls + h.told + missed = h.stops + if handler = .setting then 1 else 0
    omega

theorem Fit.goes_other (hf : h.Fit) (hg : Goes h a h') (ha : a.isMain = false) : h'.Fit := by
  cases hg with
  | svcStop hh => exact hf.handler (by rw [hh]; nofun) rfl
  | sawAgent hh => exact hf.handler (by rw [hh]; nofun) rfl
  | noAgent hh ha => exact hf.handler (by rw [hh]; nofun) (by rw [if_pos rfl]; omega)
  | sawLoop hh => exact hf.handler (by rw [hh]; nofun) rfl
  | noLoop hh hl => exact hf.handler (by rw [hh]; nofun) (by rw [if_pos rfl]; omega)
  | callSoon hh => exact hf.handler (by rw [hh]; nofun) (by rw [if_pos rfl]; omega)
  | setEvent hh =>
    have hcounts := hf.counts
    rw [if_pos hh] at hcounts
    exact
      { agent := hf.agent
        loop := hf.loop
        thread := hf.thread
        event := fun _ => ⟨fun _ => Nat.succ_pos _, fun _ => rfl⟩
        late := fun _ => Nat.succ_pos _
        killed := fun _ => Nat.succ_pos _
        counts := hcounts }
  | callback ht hc =>
    have hcounts := hf.counts
    exact
      { agent := hf.agent
        loop := hf.loop
        thread := hf.thread
        event := hf.event
        late := hf.late
        killed := hf.killed
        counts := by
          show h.calls - 1 + (h.told + 1) + h.missed = h.stops + if h.handler = .setting then 1 else 0
          omega }
  | agentEnds ht =>
    exact
      { agent := hf.agent
        loop := hf.loop
        thread := fun _ => hf.thread (by rw [ht]; nofun)
        event := hf.event
        late := hf.late
        killed := nofun
        counts := hf.counts }
  | exit hm ht =>
    rcases ht with ⟨ht, rfl⟩ | rfl
    · have hserves : h.main.serves = true := hf.thread (by rw [ht]; nofun)
      exact
        { agent := hf.agent
          loop := hf.loop
          thread := fun _ => hserves
          event := hf.event
          late := hf.late
          killed := fun _ => hf.late (Main.not_early hserves hm)
          counts := hf.counts }
    · exact ⟨hf.agent, hf.loop, hf.thread, hf.event, hf.late, hf.killed, hf.counts⟩
  | _ => cases ha

theorem Fit.goes (hf : h.Fit) (hg : Goes h a h') : h'.Fit := by
  cases ha : a.isMain with
  | true => exact hf.goes_main hg ha
  | false => exact hf.goes_other hg ha

theorem fit_of_reach (hr : host.Reach Machine.Any h) : h.Fit :=
  hr.invariant (I := Host.Fit) fit_init fun _ _ _ _ hf _ hstep => hf.goes (goes_of_step hstep)

/-! ## `SvcDoRun` gets to its end -/

/-- the steps of `SvcDoRun` use up what it has left; the others leave it -/
theorem left_goes (hg : Goes h a h') : h'.main.left + (if a.isMain then 1 else 0) ≤ h.main.left := by
  cases hg with
  | refused hm hover => rcases hover with rfl | rfl <;> simp [hm, Main.left, HostAct.isMain]
  | loaded hm | createRaises hm | created hm | newLoop hm | startThread hm | wake hm _ | join hm =>
    simp [hm, Main.left, HostAct.isMain]
  | _ => exact Nat.le_refl _

theorem main_step (hf : h.Fit) (hstop : 0 < h.stops) (hup : h.exited = false) (hover : h.main.isOver = false) :
    ∃ a h', a.isMain = true ∧ host.step h a = some h' ∧ h'.stops = h.stops ∧ h'.exited = false := by
  obtain ⟨a, h', ha, hstep, hstops, hexited⟩ :
      ∃ a h', a.isMain = true ∧ mainStep h a = some h' ∧ h'.stops = h.stops ∧ h'.exited = h.exited := by
    cases hm : h.main with
    | loading => exact ⟨.load none, _, rfl, if_pos hm, rfl, rfl⟩
    | checked => exact ⟨.create true, _, rfl, if_pos hm, rfl, rfl⟩
    | agentSet => exact ⟨.newLoop, _, rfl, if_pos hm, rfl, rfl⟩
    | loopSet => exact ⟨.startThread, _, rfl, if_pos hm, rfl, rfl⟩
    | waiting =>
      have hevent : h.event = true := (hf.event (by rw [hm]; rfl)).mpr hstop
      exact ⟨.wake, _, rfl, if_pos ⟨hm, hevent⟩, rfl, rfl⟩
    | joining => exact ⟨.join true, _, rfl, if_pos ⟨hm, .inr rfl⟩, rfl, rfl⟩
    | returned served =>
      rw [hm] at hover
      cases hover
    | raised =>
      rw [hm] at hover
      cases hover
  refine ⟨a, h', ha, ?_, hstops, hexited.trans hup⟩
  show step h a = some h'
  unfold step
  rw [hup, hstep]
  rfl

/-- on the number of steps that `SvcDoRun` has left -/
theorem ends_alone (hr : host.Reach Machine.Any h) (hstop : 0 < h.stops) (hup : h.exited = false) :
    ∃ bs h', (∀ b ∈ bs, b.isMain = true) ∧ bs.length ≤ h.main.left ∧ host.run h bs = some h' ∧
    h'.main.isOver = true := by
  induction hn : h.main.left using Nat.strongRecOn generalizing h with
  | ind n ih =>
    cases hover : h.main.isOver with
    | true => exact ⟨[], h, nofun, Nat.zero_le _, rfl, hover⟩
    | false =>
      obtain ⟨a, h₁, ha, hstep, hstops, hup₁⟩ := main_step (fit_of_reach hr) hstop hup hover
      have hless := left_goes (goes_of_step hstep)
      rw [ha, if_pos rfl, hn] at hless
      obtain ⟨bs, h', hbs, hlen, hrun, hover'⟩ :=
        ih h₁.main.left (by omega) (hr.step trivial hstep) (hstops ▸ hstop) hup₁ rfl
      refine ⟨a :: bs, h', fun b hb => ?_, ?_, host.run_cons_eq_some.mpr ⟨h₁, hstep, hrun⟩, hover'⟩
      · rcases List.mem_cons.mp hb with rfl | hb
        · exact ha
        · exact hbs b hb
      · rw [List.length_cons]
        omega

end Host

/-- **A stop is never lost**: whenever a `SvcStop` has set the event, before the wait or during it, `SvcDoRun` gets to
its end by its own steps, of which it makes six at most; and it does not come back from the wait without one. -/
theorem stop_not_lost {h : Host} {as : List HostAct} (hrun : host.Path Machine.Any host.init as h) :
    (h.main = .returned true → 0 < h.stops) ∧
    (0 < h.stops → h.exited = false →
      ∃ bs h', (∀ b ∈ bs, b.isMain = true) ∧ as.countP (·.isMain) + bs.length ≤ 6 ∧ host.run h bs = some h' ∧
        h'.main.isOver = true) := by
  have hr : host.Reach Machine.Any h := ⟨as, hrun⟩
  have hcount : as.countP (·.isMain) + h.main.left ≤ 6 :=
    hrun.count_le (fun _ _ _ _ _ hstep => Host.left_goes (goes_of_step hstep)) Machine.Reach.init
  refine ⟨fun hm => (Host.fit_of_reach hr).late (by rw [hm]; rfl), fun hstop hup => ?_⟩
  obtain ⟨bs, h', hbs, hlen, hsteps, hover⟩ := Host.ends_alone hr hstop hup
  exact ⟨bs, h', hbs, by omega, hsteps, hover⟩

def pairedConfig : AgentConfig where
  agentId := some (Str.ofString "a1")
  hubUrl := some (Str.ofString "wss://hub")

/-- a stop that comes while the credential is read: it finds no agent -/
def stopsEarly : List HostAct :=
  [.svcStop, .readAgent, .load (some (pairedConfig, some (Str.ofString "secret"))), .create false, .setEvent]

theorem stopsEarly_isSome : (host.run host.init stopsEarly).isSome = true := by decide

theorem stop_not_lost_early :
    ∃ bs h', (∀ b ∈ bs, b.isMain = true) ∧ bs.length ≤ 4 ∧
      host.run (host.after stopsEarly stopsEarly_isSome) bs = some h' ∧ h'.main.isOver = true := by
  have hrun : host.Path Machine.Any host.init stopsEarly (host.after stopsEarly stopsEarly_isSome) :=
    .of_run (host.run_after stopsEarly stopsEarly_isSome)
  have hcount : stopsEarly.countP (·.isMain) = 2 := by decide
  have hstop : decide (0 < (host.after stopsEarly stopsEarly_isSome).stops) = true :=
    Machine.any_after (p := fun h => decide (0 < h.stops)) stopsEarly_isSome (by decide)
  have hup : (!(host.after stopsEarly stopsEarly_isSome).exited) = true :=
    Machine.any_after (p := fun h => !h.exited) stopsEarly_isSome (by decide)
  obtain ⟨bs, h', hbs, hlen, hsteps, hover⟩ :=
    (stop_not_lost hrun).2 (of_decide_eq_true hstop) ((Bool.not_eq_true' _).mp hup)
  exact ⟨bs, h', hbs, by omega, hsteps, hover⟩

/-! ## `SvcStop` finds the agent -/

theorem Host.loop_goes {h h' : Host} {a : HostAct} (hf : h.Fit) (hg : Goes h a h') (hloop : h.loop = true) :
    h'.loop = true ∧ h'.missed = h.missed := by
  cases hg with
  | noAgent hh ha =>
    -- where the loop is there, the agent is
    have hmain : h.main.hasLoop = true := hf.loop.symm.trans hloop
    have hagent : h.main.hasAgent = false := hf.agent.symm.trans ha
    cases hm : h.main with
    | returned served =>
      rw [hm] at hmain hagent
      cases served with
      | true => cases hagent
      | false => cases hmain
    | loopSet | waiting | joining =>
      rw [hm] at hagent
      cases hagent
    | _ =>
      rw [hm] at hmain
      cases hmain
  | noLoop hh hl =>
    rw [hloop] at hl
    cases hl
  | newLoop hm => exact ⟨rfl, rfl⟩
  | _ => exact ⟨hloop, rfl⟩

/-- **From the moment that `_loop` is set, each `SvcStop` tells the agent**: none misses it, and each that sets the
event has put a call of `agent.stop` on the loop, which has run or is still to run.  The agent's thread is cut off only
after a `SvcStop`. -/
theorem stop_told {h h' : Host} {as : List HostAct} (hr : host.Reach Machine.Any h) (hloop : h.loop = true)
    (hrun : host.Path Machine.Any h as h') :
    h'.calls + h'.told + h.missed = h'.stops + (if h'.handler = .setting then 1 else 0) ∧
      (h'.thread = .killed → 0 < h'.stops) := by
  have hboth : h'.Fit ∧ h'.loop = true ∧ h'.missed = h.missed :=
    hrun.invariant (I := fun x => x.Fit ∧ x.loop = true ∧ x.missed = h.missed)
      (fun _ _ _ hx _ hstep => by
        have hg := goes_of_step hstep
        have hnext := Host.loop_goes hx.1 hg hx.2.1
        exact ⟨hx.1.goes hg, hnext.1, hnext.2.trans hx.2.2⟩)
      ⟨Host.fit_of_reach hr, hloop, rfl⟩
  have hcounts := hboth.1.counts
  rw [hboth.2.2] at hcounts
  exact ⟨hcounts, hboth.1.killed⟩

def comesUp : List HostAct :=
  [.load (some (pairedConfig, some (Str.ofString "secret"))), .create false, .newLoop]

theorem comesUp_isSome : (host.run host.init comesUp).isSome = true := by decide

/-- a stop before the thread of the agent has started -/
def stopsThere : List HostAct := [.svcStop, .readAgent, .readLoop, .startThread, .callSoon, .setEvent, .callback]

theorem stopsThere_isSome : (host.run host.init (comesUp ++ stopsThere)).isSome = true := by decide

def cameUp : Host := host.after comesUp comesUp_isSome

def stoppedThere : Host := host.after (comesUp ++ stopsThere) stopsThere_isSome

theorem stop_told_there :
    stoppedThere.calls + stoppedThere.told + cameUp.missed =
        stoppedThere.stops + (if stoppedThere.handler = .setting then 1 else 0) ∧
      (stoppedThere.thread = .killed → 0 < stoppedThere.stops) :=
  stop_told (Machine.Reach.after comesUp comesUp_isSome)
    (Machine.any_after (p := fun h => h.loop) comesUp_isSome (by decide))
    (.of_run (host.run_after_append comesUp stopsThere comesUp_isSome stopsThere_isSome))

end WindowsService

end PrintAgent
