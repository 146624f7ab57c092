import Mathlib.Data.List.Chain
import Mathlib.Tactic.Linarith
import PrintAgent.Core.PrinterSync
import PrintAgent.Lib.Timed

/-!
# The pace of the printer list

`printerSync` with a clock.  `SyncClocks` are the deadline of the wait, whether a check has found no connection since
the last sync, and two histories, the checks of the connection and the lists that were sent, the last one first.

* `PrinterSync.TickStep`   what a step of the loop is;
* `KeepAlive.Checks`       the connection is checked at most once in `PRINTER_STATUS_CHECK_SECONDS`;
* `KeepAlive.Alive`        what the loop remembers is the list that was sent last;
* `list_kept_alive`        a list that has not changed is sent again after `PRINTER_SYNC_INTERVAL_SECONDS` and not
                           before, and after each tick that found the printers, their list was sent less than that
                           time ago.
-/

namespace PrintAgent

open PyJson (Str Value Limits)

def printerStatusCheckSeconds : ℚ := 60

/-- a list that the loop has sent: `decidedAt` it called `send`, which returned at `sentAt`; `lapsed` if a check since
the list before found no connection -/
structure SentList (φ : Type) where
  fingerprint : φ
  decidedAt : ℚ
  sentAt : ℚ
  lapsed : Bool
  deriving DecidableEq, Repr

structure SyncClocks (φ : Type) where
  /-- when `check_seconds` have passed -/
  checkUntil : ℚ
  decidedAt : ℚ
  lapsed : Bool
  checks : List ℚ
  sent : List (SentList φ)
  deriving DecidableEq, Repr

namespace SyncClocks
variable {φ : Type}

def init (start : ℚ) : SyncClocks φ := ⟨start + printerStatusCheckSeconds, start, false, [], []⟩

def waitForCheck (c : SyncClocks φ) (now : ℚ) : SyncClocks φ := { c with checkUntil := now + printerStatusCheckSeconds }

def check (c : SyncClocks φ) (now : ℚ) : SyncClocks φ := { c with checks := now :: c.checks }

end SyncClocks

abbrev KeepAlive (φ : Type) := Timed (PrinterSync φ) (SyncClocks φ) ℚ

namespace KeepAlive
variable {φ : Type} [DecidableEq φ]

/-- the wait ends when its time has passed, or with `stop`; the loop reads the clock that there is -/
def may (early : ℚ) (s : KeepAlive φ) (t : ℚ) : SyncAct → Bool
  | .wake => s.inner.client.stopped || s.notes.checkUntil ≤ t + early
  | .found _ now | .sent now => now = t
  | _ => true

/-- what becomes of the times in a step to the state `p` -/
def note (fingerprint : List SyncedPrinter → φ) (s : KeepAlive φ) (p : PrinterSync φ) (t : ℚ) : SyncAct → SyncClocks φ
  | .wake =>
    match p.tick with
    | .discovering _ => s.notes.check t
    | .waiting => { (s.notes.check t).waitForCheck t with lapsed := true }
    | _ => s.notes
  | .found _ _ =>
    match p.tick with
    | .waiting => s.notes.waitForCheck t
    | .sending _ _ _ _ => { s.notes with decidedAt := t }
    | _ => s.notes
  | .sent _ =>
    match s.inner.tick with
    | .sending _ _ _ printers =>
      { s.notes with
        sent := ⟨fingerprint printers, s.notes.decidedAt, t, s.notes.lapsed⟩ :: s.notes.sent
        lapsed := false }
    | _ => s.notes
  | .rest => s.notes.waitForCheck t
  | .client _ => s.notes

end KeepAlive

/-- the periodic loop with a clock, from the time `start` on -/
def keepAlive {φ : Type} [DecidableEq φ] (fingerprint : List SyncedPrinter → φ) (limits : Limits)
    (validate : InboundModel → Value → Except Exc (InboundHubMessage Str)) (early start : ℚ) :
    Machine (KeepAlive φ) (ℚ × SyncAct) :=
  (printerSync fingerprint limits validate).timed (KeepAlive.may early) (KeepAlive.note fingerprint) start (.init start)

/-! ## the steps of the loop -/

namespace PrinterSync
variable {φ : Type} [DecidableEq φ] {fingerprint : List SyncedPrinter → φ} {limits : Limits}
  {validate : InboundModel → Value → Except Exc (InboundHubMessage Str)} {s s' : PrinterSync φ}

inductive TickStep (fingerprint : List SyncedPrinter → φ) (s : PrinterSync φ) : SyncAct → PrinterSync φ → Prop
  | client (b : ClientAct) (client : Client) (history : SyncHistory)
      (ht : ∀ conn printers, s.tick ≠ .ticked conn printers) :
      TickStep fingerprint s (.client b) { s with client := client, history := history }
  | stops (ht : s.tick = .waiting) : TickStep fingerprint s .wake { s with tick := .returned }
  | discovers (ht : s.tick = .waiting) (hs : s.client.stopped = false) (conn : Option Nat) :
      TickStep fingerprint s .wake { s with tick := .discovering conn }
  | lapses (ht : s.tick = .waiting) (hs : s.client.stopped = false) :
      TickStep fingerprint s .wake { s with lastSent := none }
  | fails {conn : Option Nat} (now : ℚ) (ht : s.tick = .discovering conn) :
      TickStep fingerprint s (.found none now) { s with tick := .waiting }
  | skips {conn : Option Nat} (conn' : Option Nat) (printers : List DiscoveredPrinter) (now : ℚ)
      (ht : s.tick = .discovering conn)
      (hskip : s.skips fingerprint (printers.map DiscoveredPrinter.toSynced) now = true) :
      TickStep fingerprint s (.found (some printers) now)
        { s with tick := .ticked conn' (printers.map DiscoveredPrinter.toSynced) }
  | sends {conn : Option Nat} (conn' via : Option Nat) (number : Nat) (client : Client) (history : SyncHistory)
      (printers : List DiscoveredPrinter) (now : ℚ) (ht : s.tick = .discovering conn)
      (hskip : s.skips fingerprint (printers.map DiscoveredPrinter.toSynced) now = false) :
      TickStep fingerprint s (.found (some printers) now)
        { s with
          client := client
          tick := .sending conn' via number (printers.map DiscoveredPrinter.toSynced)
          history := history }
  | sent {conn via : Option Nat} {number : Nat} {printers : List SyncedPrinter} (now : ℚ)
      (ht : s.tick = .sending conn via number printers) :
      TickStep fingerprint s (.sent now)
        { s with tick := .ticked conn printers, lastSent := some (fingerprint printers), lastSentAt := now }
  | rest {conn : Option Nat} {printers : List SyncedPrinter} (ht : s.tick = .ticked conn printers) :
      TickStep fingerprint s .rest { s with tick := .waiting }

theorem tickStep_of_step {a : SyncAct} (hstep : s.step fingerprint limits validate a = some s') :
    TickStep fingerprint s a s' := by
  cases a with
  | client b =>
    rw [PrinterSync.step] at hstep
    split at hstep
    · cases hstep
    · rename_i hticked
      split at hstep
      · cases hstep
      · obtain ⟨client, -, rfl⟩ := Option.map_eq_some_iff.mp hstep
        exact .client b client _ hticked
  | wake =>
    rw [PrinterSync.step] at hstep
    split at hstep
    · rename_i ht
      split at hstep
      · cases hstep
        exact .stops ht
      · rename_i hs
        have hs := Bool.eq_false_iff.mpr hs
        split at hstep <;> cases hstep
        · exact .discovers ht hs _
        · exact .lapses ht hs
    · cases hstep
  | found printers now =>
    rw [PrinterSync.step] at hstep
    split at hstep
    · rename_i conn ht
      cases printers with
      | none =>
        cases hstep
        exact .fails now ht
      | some printers =>
        cases hskip : s.skips fingerprint (printers.map DiscoveredPrinter.toSynced) now with
        | true =>
          simp only [hskip, if_true] at hstep
          cases hstep
          exact .skips _ printers now ht hskip
        | false =>
          simp only [hskip, Bool.false_eq_true, if_false] at hstep
          cases hstep
          exact .sends _ _ _ _ _ printers now ht hskip
    · cases hstep
  | sent now =>
    rw [PrinterSync.step] at hstep
    split at hstep
    · rename_i ht
      split at hstep <;> cases hstep
      exact .sent now ht
    · cases hstep
  | rest =>
    rw [PrinterSync.step] at hstep
    split at hstep
    · rename_i ht
      cases hstep
      exact .rest ht
    · cases hstep

end PrinterSync

namespace KeepAlive
variable {φ : Type} {early : ℚ} {s s' : KeepAlive φ}

/-! ## the checks -/

structure Checks (early : ℚ) (s : KeepAlive φ) : Prop where
  spaced : s.notes.checks.Pairwise fun later earlier => earlier + printerStatusCheckSeconds ≤ later + early
  past : ∀ check ∈ s.notes.checks, check ≤ s.now
  waiting : s.inner.tick = .waiting → ∀ check ∈ s.notes.checks, check + printerStatusCheckSeconds ≤ s.notes.checkUntil

theorem checks_init (early start : ℚ) : Checks early (⟨.init, start, .init start⟩ : KeepAlive φ) where
  spaced := .nil
  past _ hc := absurd hc List.not_mem_nil
  waiting _ _ hc := absurd hc List.not_mem_nil

theorem Checks.quiet (h : Checks early s) (hle : s.now ≤ s'.now) (hchecks : s'.notes.checks = s.notes.checks)
    (hwaiting : s'.inner.tick = .waiting →
      s.inner.tick = .waiting ∧ s'.notes.checkUntil = s.notes.checkUntil ∨
        s'.notes.checkUntil = s'.now + printerStatusCheckSeconds) : Checks early s' where
  spaced := hchecks ▸ h.spaced
  past check hc := le_trans (h.past check (hchecks ▸ hc)) hle
  waiting ht check hc := by
    rw [hchecks] at hc
    rcases hwaiting ht with ⟨hold, huntil⟩ | huntil
    · rw [huntil]
      exact h.waiting hold check hc
    · have hpast := h.past check hc
      rw [huntil]
      linarith

theorem Checks.check (h : Checks early s) (hle : s.now ≤ s'.now) (hwaiting : s.inner.tick = .waiting)
    (hdue : s.notes.checkUntil ≤ s'.now + early) (hchecks : s'.notes.checks = s'.now :: s.notes.checks)
    (huntil : s'.inner.tick = .waiting → s'.notes.checkUntil = s'.now + printerStatusCheckSeconds) :
    Checks early s' where
  spaced := by
    rw [hchecks]
    exact .cons (fun check hc => le_trans (h.waiting hwaiting check hc) hdue) h.spaced
  past check hc := by
    rw [hchecks] at hc
    rcases List.mem_cons.mp hc with rfl | hc
    · exact le_refl _
    · exact le_trans (h.past check hc) hle
  waiting ht check hc := by
    rw [hchecks] at hc
    rw [huntil ht]
    rcases List.mem_cons.mp hc with rfl | hc
    · exact le_refl _
    · have hpast := h.past check hc
      linarith

section
variable [DecidableEq φ] {fingerprint : List SyncedPrinter → φ} {limits : Limits}
  {validate : InboundModel → Value → Except Exc (InboundHubMessage Str)} {t : ℚ} {a : SyncAct} {p : PrinterSync φ}

theorem Checks.step (h : Checks early s) (hle : s.now ≤ t) (hmay : s.may early t a = true)
    (hstep : PrinterSync.TickStep fingerprint s.inner a p) : Checks early ⟨p, t, s.note fingerprint p t a⟩ := by
  cases hstep with
  | client b client history ht => exact h.quiet hle rfl fun hw => .inl ⟨hw, rfl⟩
  | stops ht => exact h.quiet hle rfl nofun
  | discovers ht hs conn =>
    have hdue : s.notes.checkUntil ≤ t + early := by simpa [may, hs] using hmay
    exact h.check hle ht hdue rfl nofun
  | lapses ht hs =>
    have hdue : s.notes.checkUntil ≤ t + early := by simpa [may, hs] using hmay
    refine h.check hle ht hdue ?_ fun _ => ?_ <;> simp only [note, ht] <;> rfl
  | fails now ht => exact h.quiet hle rfl fun _ => .inr rfl
  | skips conn' printers now ht hskip => exact h.quiet hle rfl nofun
  | sends conn' via number client history printers now ht hskip => exact h.quiet hle rfl nofun
  | sent now ht =>
    refine h.quiet hle ?_ nofun
    simp only [note, ht]
  | rest ht => exact h.quiet hle rfl fun _ => .inr rfl

end

/-! ## the lists -/

/-- it is time to send the list after `a`: it is another one, a check has found no connection since, or the interval has
passed -/
def Due (a : SentList φ) (fingerprint : φ) (decidedAt : ℚ) (lapsed : Bool) : Prop :=
  lapsed = true ∨ fingerprint ≠ a.fingerprint ∨ a.sentAt + printerSyncIntervalSeconds ≤ decidedAt

/-- what the loop remembers is the list that was sent last, unless a check has found no connection since -/
structure Alive (fingerprint : List SyncedPrinter → φ) (s : KeepAlive φ) : Prop where
  lastSent : s.inner.lastSent = if s.notes.lapsed then none else s.notes.sent.head?.map (·.fingerprint)
  lastSentAt : ∀ a ∈ s.notes.sent.head?, s.inner.lastSentAt = a.sentAt
  spaced : s.notes.sent.IsChain fun b a => Due a b.fingerprint b.decidedAt b.lapsed
  sending : ∀ conn via number printers, s.inner.tick = .sending conn via number printers →
    ∀ a ∈ s.notes.sent.head?, Due a (fingerprint printers) s.notes.decidedAt s.notes.lapsed
  ticked : ∀ conn printers, s.inner.tick = .ticked conn printers →
    ∃ a ∈ s.notes.sent.head?, a.fingerprint = fingerprint printers ∧ s.now < a.sentAt + printerSyncIntervalSeconds

section
variable {fingerprint : List SyncedPrinter → φ}

theorem alive_init (fingerprint : List SyncedPrinter → φ) (start : ℚ) :
    Alive fingerprint (⟨.init, start, .init start⟩ : KeepAlive φ) where
  lastSent := rfl
  lastSentAt _ ha := by cases ha
  spaced := .nil
  sending := nofun
  ticked := nofun

theorem Alive.quiet (h : Alive fingerprint s) (hsent : s'.inner.lastSent = s.inner.lastSent)
    (hat : s'.inner.lastSentAt = s.inner.lastSentAt) (hlists : s'.notes.sent = s.notes.sent)
    (hlapsed : s'.notes.lapsed = s.notes.lapsed)
    (hsending : ∀ conn via number printers, s'.inner.tick = .sending conn via number printers →
      ∀ a ∈ s.notes.sent.head?, Due a (fingerprint printers) s'.notes.decidedAt s.notes.lapsed)
    (hticked : ∀ conn printers, s'.inner.tick = .ticked conn printers →
      ∃ a ∈ s.notes.sent.head?, a.fingerprint = fingerprint printers ∧ s'.now < a.sentAt + printerSyncIntervalSeconds) :
    Alive fingerprint s' where
  lastSent := by
    rw [hsent, hlists, hlapsed]
    exact h.lastSent
  lastSentAt := by
    rw [hat, hlists]
    exact h.lastSentAt
  spaced := by
    rw [hlists]
    exact h.spaced
  sending := by
    rw [hlists, hlapsed]
    exact hsending
  ticked := by
    rw [hlists]
    exact hticked

end

section
variable [DecidableEq φ] {fingerprint : List SyncedPrinter → φ} {limits : Limits}
  {validate : InboundModel → Value → Except Exc (InboundHubMessage Str)} {t : ℚ} {a : SyncAct} {p : PrinterSync φ}
  {printers : List SyncedPrinter}

/-- a list that is not left out is due -/
theorem Alive.due (h : Alive fingerprint s) (hskip : s.inner.skips fingerprint printers t = false) :
    ∀ a ∈ s.notes.sent.head?, Due a (fingerprint printers) t s.notes.lapsed := by
  intro a ha
  cases hlapsed : s.notes.lapsed with
  | true => exact .inl rfl
  | false =>
    have hlast : s.inner.lastSent = some a.fingerprint := by
      rw [h.lastSent, hlapsed, if_neg Bool.false_ne_true, ha]
      rfl
    rw [PrinterSync.skips, hlast, h.lastSentAt a ha, Bool.and_eq_false_iff, decide_eq_false_iff_not,
      decide_eq_false_iff_not] at hskip
    rcases hskip with hother | hpassed
    · exact .inr (.inl fun he => hother (congrArg some he))
    · refine .inr (.inr ?_)
      linarith

/-- a list that is left out was sent not long ago -/
theorem Alive.recent (h : Alive fingerprint s) (hskip : s.inner.skips fingerprint printers t = true) :
    ∃ a ∈ s.notes.sent.head?, a.fingerprint = fingerprint printers ∧ t < a.sentAt + printerSyncIntervalSeconds := by
  rw [PrinterSync.skips, Bool.and_eq_true, decide_eq_true_eq, decide_eq_true_eq, h.lastSent] at hskip
  obtain ⟨hsame, hshort⟩ := hskip
  split at hsame
  · cases hsame
  · obtain ⟨a, ha, hfp⟩ := Option.map_eq_some_iff.mp hsame.symm
    rw [h.lastSentAt a ha] at hshort
    exact ⟨a, ha, hfp, by linarith⟩

theorem Alive.step (h : Alive fingerprint s) (hmay : s.may early t a = true)
    (hstep : PrinterSync.TickStep fingerprint s.inner a p) : Alive fingerprint ⟨p, t, s.note fingerprint p t a⟩ := by
  cases hstep with
  | client b client history ht =>
    exact h.quiet rfl rfl rfl rfl h.sending fun conn printers hticked => absurd hticked (ht conn printers)
  | stops ht => exact h.quiet rfl rfl rfl rfl nofun nofun
  | discovers ht hs conn => exact h.quiet rfl rfl rfl rfl nofun nofun
  | lapses ht hs =>
    have hnote : s.note fingerprint { s.inner with lastSent := none } t .wake =
        { (s.notes.check t).waitForCheck t with lapsed := true } := by
      simp only [note, ht]
    rw [hnote]
    refine ⟨rfl, h.lastSentAt, h.spaced, fun conn via number printers hsending => ?_, fun conn printers hticked => ?_⟩
    · cases ht.symm.trans hsending
    · cases ht.symm.trans hticked
  | fails now ht => exact h.quiet rfl rfl rfl rfl nofun nofun
  | skips conn' printers now ht hskip =>
    have hnow : now = t := of_decide_eq_true hmay
    refine h.quiet rfl rfl rfl rfl nofun fun conn printers' hticked => ?_
    cases hticked
    exact h.recent (hnow ▸ hskip)
  | sends conn' via number client history printers now ht hskip =>
    have hnow : now = t := of_decide_eq_true hmay
    refine h.quiet rfl rfl rfl rfl (fun conn via' number' printers' hsending => ?_) nofun
    cases hsending
    exact h.due (hnow ▸ hskip)
  | sent now ht =>
    have hnow : now = t := of_decide_eq_true hmay
    have hdue := h.sending _ _ _ _ ht
    simp only [note, ht]
    refine ⟨rfl, ?_, ?_, nofun, ?_⟩
    · intro a ha
      cases ha
      exact hnow
    · exact List.isChain_cons.mpr ⟨hdue, h.spaced⟩
    · intro conn printers' hticked
      cases hticked
      refine ⟨_, rfl, rfl, ?_⟩
      show t < t + printerSyncIntervalSeconds
      have hpos : (0 : ℚ) < printerSyncIntervalSeconds := by decide +kernel
      linarith
  | rest ht => exact h.quiet rfl rfl rfl rfl nofun nofun

end

end KeepAlive

/-! ## the runs -/

section Runs
variable {φ : Type} [DecidableEq φ] {fingerprint : List SyncedPrinter → φ} {limits : Limits}
  {validate : InboundModel → Value → Except Exc (InboundHubMessage Str)} {early start : ℚ} {s : KeepAlive φ}

theorem keepAlive_invariant {I : KeepAlive φ → Prop} (hinit : I ⟨.init, start, .init start⟩)
    (hstep : ∀ s t a p, I s → s.now ≤ t → s.may early t a = true → PrinterSync.TickStep fingerprint s.inner a p →
      I ⟨p, t, s.note fingerprint p t a⟩)
    (h : (keepAlive fingerprint limits validate early start).Reach Machine.Any s) : I s := by
  have htimed : ((printerSync fingerprint limits validate).timed (KeepAlive.may early) (KeepAlive.note fingerprint)
      start (.init start)).Reach Machine.Any s := h
  exact htimed.invariant_timed hinit fun s t a p _ hs _ hle hmay hp =>
    hstep s t a p hs hle hmay (PrinterSync.tickStep_of_step hp)

/-- **The printer list is kept alive, and not repeated.**  The connection is checked at most once in 60 seconds.  A list
follows the one before only if it is another one, if a check has found no connection in between, or 300 seconds after
it; and after each tick that found the printers, the list that was sent last is theirs and was sent less than 300
seconds ago. -/
theorem list_kept_alive (h : (keepAlive fingerprint limits validate early start).Reach Machine.Any s) :
    (s.notes.checks.Pairwise fun later earlier => earlier + printerStatusCheckSeconds ≤ later + early) ∧
    (s.notes.sent.IsChain fun b a =>
      b.lapsed = true ∨ b.fingerprint ≠ a.fingerprint ∨ a.sentAt + printerSyncIntervalSeconds ≤ b.decidedAt) ∧
    ∀ conn printers, s.inner.tick = .ticked conn printers →
      ∃ a ∈ s.notes.sent.head?, a.fingerprint = fingerprint printers ∧
        s.now < a.sentAt + printerSyncIntervalSeconds := by
  have hchecks : KeepAlive.Checks early s :=
    keepAlive_invariant (KeepAlive.checks_init early start) (fun _ _ _ _ hs hle hmay hp => hs.step hle hmay hp) h
  have halive : KeepAlive.Alive fingerprint s :=
    keepAlive_invariant (KeepAlive.alive_init fingerprint start) (fun _ _ _ _ hs _ hmay hp => hs.step hmay hp) h
  exact ⟨hchecks.spaced, halive.spaced, halive.ticked⟩

end Runs

namespace KeepAlive

/-- a tick sends the list, the next one leaves it out, and one after 300 seconds sends it again -/
def resends : List (ℚ × SyncAct) :=
  (PrinterSync.Schedule.connects [PrinterSync.Schedule.ready]).map (0, ·) ++
  [(60, .wake), (61, .found (some [PrinterSync.Schedule.ready]) 61), (61, .client (.sendEnds 0)), (61, .sent 61),
    (61, .rest),
    (121, .wake), (122, .found (some [PrinterSync.Schedule.ready]) 122), (122, .rest),
    (361, .wake), (362, .found (some [PrinterSync.Schedule.ready]) 362), (362, .client (.sendEnds 0)), (362, .sent 362)]

def times {φ : Type} (a : SentList φ) : ℚ × ℚ := (a.sentAt, a.decidedAt)

def hasResent {φ : Type} (s : KeepAlive φ) : Bool :=
  decide (s.notes.checks = [361, 121, 60]) && decide (s.notes.sent.map times = [(362, 362), (61, 61)])

theorem resends_isSome :
    ((keepAlive id Client.Schedule.limits Client.Schedule.validate (1 / 1000) 0).run
      (keepAlive id Client.Schedule.limits Client.Schedule.validate (1 / 1000) 0).init resends).isSome = true := by
  decide +kernel

end KeepAlive

/-- the three checks are 60 seconds apart, and the list of 61 is sent again at 362, 300 seconds later -/
theorem list_kept_alive_resends :
    let s := (keepAlive id Client.Schedule.limits Client.Schedule.validate (1 / 1000) 0).after KeepAlive.resends
      KeepAlive.resends_isSome
    (s.notes.checks = [361, 121, 60] ∧ s.notes.sent.map KeepAlive.times = [(362, 362), (61, 61)]) ∧
      (s.notes.checks.Pairwise fun later earlier => earlier + printerStatusCheckSeconds ≤ later + 1 / 1000) ∧
      s.notes.sent.IsChain fun b a => b.lapsed = true ∨ b.fingerprint ≠ a.fingerprint ∨
        a.sentAt + printerSyncIntervalSeconds ≤ b.decidedAt := by
  intro s
  have htimes : KeepAlive.hasResent s = true := Machine.any_after KeepAlive.resends_isSome (by decide +kernel)
  rw [KeepAlive.hasResent, Bool.and_eq_true, decide_eq_true_eq, decide_eq_true_eq] at htimes
  have hreach : (keepAlive id Client.Schedule.limits Client.Schedule.validate (1 / 1000) 0).Reach Machine.Any s :=
    .after KeepAlive.resends KeepAlive.resends_isSome
  have hkept := list_kept_alive hreach
  exact ⟨htimes, hkept.1, hkept.2.1⟩

end PrintAgent
