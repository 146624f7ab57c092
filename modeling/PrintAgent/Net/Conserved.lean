import Mathlib.Algebra.Order.Group.Multiset
import Mathlib.Tactic.Abel
import PrintAgent.Net.Mail

/-!
# No durable message is lost or doubled

Every durable message for which `send` has returned is in one place: written, in `_durable_queue`, or
in the hands of a running flush.  `Mail.Conserved` is the invariant, `durable_conserved` the theorem
about runs.
-/

namespace PrintAgent

open PyJson (Str Value Limits)

namespace Mail

def carried (sending : List Sending) : Multiset SendCall :=
  (sending.filter Sending.flush).map Sending.call

/-- the messages of the calls of `send` that have not returned -/
def unreturned (sending : List Sending) : Multiset SendCall :=
  (sending.filter fun y => !y.flush).map Sending.call

def durables (calls : List SendCall) : Multiset SendCall := calls.filter SendCall.durable

theorem carried_append (l₁ l₂ : List Sending) : carried (l₁ ++ l₂) = carried l₁ + carried l₂ := by
  rw [carried, List.filter_append, List.map_append, ← Multiset.coe_add]
  rfl

theorem carried_cons (y : Sending) (l : List Sending) :
    carried (y :: l) = (if y.flush then {y.call} else 0) + carried l := by
  cases h : y.flush <;> simp [carried, h]

theorem unreturned_append (l₁ l₂ : List Sending) :
    unreturned (l₁ ++ l₂) = unreturned l₁ + unreturned l₂ := by
  rw [unreturned, List.filter_append, List.map_append, ← Multiset.coe_add]
  rfl

theorem unreturned_cons (y : Sending) (l : List Sending) :
    unreturned (y :: l) = (if y.flush then 0 else {y.call}) + unreturned l := by
  cases h : y.flush <;> simp [unreturned, h]

theorem durables_append (l₁ l₂ : List SendCall) :
    durables (l₁ ++ l₂) = durables l₁ + durables l₂ := by
  rw [durables, List.filter_append, ← Multiset.coe_add]
  rfl

theorem durables_singleton (c : SendCall) : durables [c] = if c.durable then {c} else 0 := by
  cases h : c.durable <;> simp [durables, h]

structure Conserved (x : Mail) : Prop where
  numbers : x.calls.map SendCall.number = List.range x.calls.length
  durable : ∀ c ∈ (x.durableQueue : Multiset SendCall) + x.pending + carried x.sending,
    c.durable = true
  calls : (x.calls : Multiset SendCall) = x.returned + unreturned x.sending
  returned : durables x.returned =
    durables x.written + x.durableQueue + x.pending + carried x.sending

theorem numbers_snoc {l : List SendCall} (h : l.map SendCall.number = List.range l.length)
    (message : OutboundAgentMessage) (durable : Bool) :
    (l ++ [(⟨l.length, message, durable⟩ : SendCall)]).map SendCall.number
      = List.range (l ++ [(⟨l.length, message, durable⟩ : SendCall)]).length := by
  rw [List.map_append, h, List.length_append, List.length_singleton, List.range_succ]
  rfl

theorem coe_snoc (l : List SendCall) (c : SendCall) :
    ((l ++ [c] : List SendCall) : Multiset SendCall) = l + {c} := by
  rw [← Multiset.coe_add, Multiset.coe_singleton]

theorem coe_snoc_if (l : List SendCall) (b : Bool) (c : SendCall) :
    ((l ++ if b then [c] else [] : List SendCall) : Multiset SendCall) = l + if b then {c} else 0 := by
  cases b with
  | false => simp
  | true => exact coe_snoc l c

theorem coe_snoc_unless (l : List SendCall) (b : Bool) (c : SendCall) :
    ((l ++ if b then [] else [c] : List SendCall) : Multiset SendCall) = l + if b then 0 else {c} := by
  cases b with
  | false => exact coe_snoc l c
  | true => simp

theorem durables_unless (b : Bool) (c : SendCall) :
    durables (if b then [] else [c]) = if b then 0 else if c.durable then {c} else 0 := by
  cases b with
  | false => exact durables_singleton c
  | true => rfl

theorem written_snoc {x y : Mail} {conn : Nat} {c : SendCall} (h : y.frames = x.frames ++ [(conn, c)]) :
    y.written = x.written ++ [c] := by
  rw [written, h, List.map_append]
  rfl

theorem Conserved.init : Conserved Client.init.mail :=
  ⟨rfl, fun c hc => by simp [Client.init, Client.mail, Phase.pending, carried] at hc, rfl, rfl⟩

theorem Conserved.step {x y : Mail} {b : MailAct} (h : Conserved x) (hstep : Step x b y) :
    Conserved y := by
  obtain ⟨hnumbers, hdurable, hcalls, hreturned⟩ := h
  cases hstep with
  | sendOver message durable hs =>
    rename_i conn
    refine ⟨numbers_snoc hnumbers message durable, ?_, ?_, ?_⟩
    · simpa [carried_append, carried] using hdurable
    · rw [coe_snoc, hcalls, unreturned_append, add_assoc]
      rfl
    · have hnone : carried [⟨⟨x.calls.length, message, durable⟩, conn, false⟩] = 0 := rfl
      show durables x.returned = durables x.written + x.durableQueue + x.pending + carried _
      rw [hreturned, carried_append, hnone, add_zero]
  | sendNowhere message durable hs =>
    refine ⟨numbers_snoc hnumbers message durable, ?_, ?_, ?_⟩
    · intro c hc
      rw [coe_snoc_if] at hc
      cases durable with
      | false => exact hdurable c (by simpa using hc)
      | true =>
        simp only [Multiset.mem_add, if_true, Multiset.mem_singleton] at hc hdurable
        rcases hc with ((hc | rfl) | hc) | hc
        · exact hdurable c (.inl (.inl hc))
        · rfl
        · exact hdurable c (.inl (.inr hc))
        · exact hdurable c (.inr hc)
    · rw [coe_snoc, coe_snoc, hcalls]
      abel
    · show durables (x.returned ++ _) = durables x.written + _ + x.pending + carried x.sending
      rw [durables_append, durables_singleton, coe_snoc_if, hreturned]
      abel
  | written hi ho =>
    rename_i i y
    obtain ⟨l₁, l₂, hl, he, -⟩ := split_of_getElem? hi
    rw [hl, unreturned_append, unreturned_cons] at hcalls
    rw [hl, carried_append, carried_cons] at hreturned hdurable
    refine ⟨hnumbers, ?_, ?_, ?_⟩
    · intro c hc
      refine hdurable c ?_
      rw [he, carried_append] at hc
      simp only [Multiset.mem_add] at hc ⊢
      tauto
    · rw [hcalls, he, unreturned_append, coe_snoc_unless]
      abel
    · rw [written_snoc (x := x) rfl]
      show durables (x.returned ++ _) = durables (x.written ++ _) + x.durableQueue + x.pending + _
      rw [durables_append, durables_append, he, carried_append, hreturned, durables_singleton,
        durables_unless]
      cases hf : y.flush with
      | false =>
        simp only [if_false, Bool.false_eq_true, zero_add]
        abel
      | true =>
        have hd : y.call.durable = true := hdurable y.call (by simp [hf])
        simp only [if_true, hd, add_zero]
        abel
  | kept hi hc =>
    rename_i i y
    obtain ⟨l₁, l₂, hl, he, -⟩ := split_of_getElem? hi
    rw [hl, unreturned_append, unreturned_cons] at hcalls
    rw [hl, carried_append, carried_cons] at hreturned hdurable
    refine ⟨hnumbers, ?_, ?_, ?_⟩
    · intro c hc
      rw [he, carried_append, coe_snoc_if] at hc
      cases hd : y.call.durable with
      | false =>
        refine hdurable c ?_
        simp only [hd, Multiset.mem_add, if_false, Bool.false_eq_true, Multiset.notMem_zero] at hc ⊢
        tauto
      | true =>
        simp only [hd, Multiset.mem_add, if_true, Multiset.mem_singleton] at hc
        rcases hc with ((hc | rfl) | hc) | hc
        · exact hdurable c (by simp only [Multiset.mem_add]; tauto)
        · exact hd
        · exact hdurable c (by simp only [Multiset.mem_add]; tauto)
        · exact hdurable c (by simp only [Multiset.mem_add]; tauto)
    · rw [hcalls, he, unreturned_append, coe_snoc_unless]
      abel
    · show durables (x.returned ++ _) = durables x.written + _ + x.pending + carried _
      rw [durables_append, he, carried_append, hreturned, coe_snoc_if, durables_unless]
      cases hf : y.flush with
      | false =>
        simp only [if_false, Bool.false_eq_true, zero_add]
        abel
      | true =>
        have hd : y.call.durable = true := hdurable y.call (by simp [hf])
        simp only [if_true, hd, add_zero]
        abel
  | beginFlush hp hf =>
    rw [hp] at hdurable hreturned
    refine ⟨hnumbers, ?_, hcalls, ?_⟩
    · simpa using hdurable
    · simpa [written] using hreturned
  | flushNext hp hf hs =>
    rename_i conn call pending
    have hcons : ((call :: pending : List SendCall) : Multiset SendCall) = {call} + pending := rfl
    rw [hp, hcons] at hdurable hreturned
    refine ⟨hnumbers, ?_, ?_, ?_⟩
    · intro c hc
      refine hdurable c ?_
      rw [carried_append, carried_cons] at hc
      simp only [if_true, Multiset.mem_add, Multiset.mem_singleton, carried] at hc ⊢
      tauto
    · rw [hcalls, unreturned_append]
      exact congrArg _ (add_zero _).symm
    · show durables x.returned = durables x.written + x.durableQueue + pending + carried _
      rw [hreturned, carried_append, carried_cons]
      have hnil : carried [] = 0 := rfl
      rw [hnil, if_pos rfl]
      abel
  | connects hp => exact ⟨hnumbers, hdurable, hcalls, hreturned⟩
  | moves hp hs hc => exact ⟨hnumbers, hdurable, hcalls, hreturned⟩
  | closes conn => exact ⟨hnumbers, hdurable, hcalls, hreturned⟩

theorem Conserved.nodup {x : Mail} (h : Conserved x) : x.calls.Nodup := by
  have hmap : (x.calls.map SendCall.number).Nodup := by
    rw [h.numbers]
    exact List.nodup_range
  exact hmap.of_map _

end Mail

namespace Client
variable (limits : Limits) (validate : InboundModel → Value → Except Exc (InboundHubMessage Str))

/-- **No durable message is lost or doubled.**  Those for which `send` has returned are written, in
the queue, not yet attempted by the flush, or carried by its send; each call of `send` is one message,
which has returned or is being sent; no message is written twice. -/
theorem durable_conserved {s : Client} (h : (client limits validate).Reach Machine.Any s) :
    Mail.durables s.returned =
      Mail.durables s.written + s.durableQueue + s.phase.pending + Mail.carried s.sending ∧
    (s.calls : Multiset SendCall) = s.returned + Mail.unreturned s.sending ∧
    (Mail.carried s.sending).card ≤ 1 ∧ s.calls.Nodup ∧ (Mail.durables s.written).Nodup := by
  have hmail : Mail.Conserved s.mail :=
    h.invariant_view (D := fun _ _ => True) (client_shows_mail limits validate)
      (fun _ hs => sound_of_reach hs) (fun _ _ _ hx _ hstep => hx.step hstep) Mail.Conserved.init
      (fun _ _ _ _ _ => trivial)
  have hreturned : Mail.durables s.returned =
    Mail.durables s.written + s.durableQueue + s.phase.pending + Mail.carried s.sending :=
    hmail.returned
  have hcalls : (s.calls : Multiset SendCall) = s.returned + Mail.unreturned s.sending := hmail.calls
  refine ⟨hreturned, hcalls, ?_, hmail.nodup, ?_⟩
  · rw [Mail.carried, Multiset.coe_card, List.length_map, ← List.countP_eq_length_filter,
      (sound_of_reach h).flush]
    split <;> omega
  · have hnodup : (s.calls : Multiset SendCall).Nodup := hmail.nodup
    rw [hcalls] at hnodup
    have hret : (Mail.durables s.returned).Nodup :=
      List.Nodup.filter _ (Multiset.nodup_of_le (Multiset.le_add_right _ _) hnodup)
    rw [hreturned, add_assoc, add_assoc] at hret
    exact Multiset.nodup_of_le (Multiset.le_add_right _ _) hret

/-- three events are queued; the connection breaks while the flush sends the second one, the third
is not yet attempted, and two more sends go on -/
def brokenFlush : List ClientAct :=
  [.send (.event (.received "a")) true, .send (.event (.received "b")) true,
    .send (.event (.received "c")) true] ++ Schedule.connect ++
  [.flushNext, .sendEnds 0, .flushNext, .send .heartbeat false,
    .send (.event (.started "a")) true, .drop 0, .sendEnds 2]

theorem brokenFlush_isSome :
    ((client Schedule.limits Schedule.validate).run init brokenFlush).isSome = true := by
  decide +kernel

theorem durable_conserved_flushing :
    let s := (client Schedule.limits Schedule.validate).after brokenFlush brokenFlush_isSome
    Mail.durables s.returned =
      Mail.durables s.written + s.durableQueue + s.phase.pending + Mail.carried s.sending :=
  (durable_conserved Schedule.limits Schedule.validate (.after brokenFlush brokenFlush_isSome)).1

end Client

end PrintAgent
