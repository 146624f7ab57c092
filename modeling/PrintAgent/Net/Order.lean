import PrintAgent.Net.Conserved

/-!
# The order of a job's durable events

`send` writes directly where there is a socket, past what waits in `_durable_queue` or in the list of
a flush.  `Mail.orderly` is the condition under which no event of the job overtakes another:

* `send` is called for the job only when no event of it is in the list of a flush, all that are being
  sent are so over the present socket, and, if that is open, none is in the queue;
* sends of the job over one connection end in the order in which they began;
* a flush that takes an event of the job finds none being sent.

`events_in_order`: under it the events are written in the order of the calls.  `event_overtakes` is a
send during a flush.
-/

namespace PrintAgent

open PyJson (Str Value Limits)

def SendCall.isFor (jobId : String) (c : SendCall) : Bool := c.durable && c.message.jobId = some jobId

def eventsOf (jobId : String) (calls : List SendCall) : List SendCall :=
  calls.filter (SendCall.isFor jobId)

def sendsOf (jobId : String) (sending : List Sending) : List Sending :=
  sending.filter fun y => y.call.isFor jobId

namespace Mail

def orderly (jobId : String) (x : Mail) : MailAct → Bool
  | .send message durable =>
    !SendCall.isFor jobId ⟨0, message, durable⟩ ||
      (eventsOf jobId x.pending).isEmpty &&
      ((sendsOf jobId x.sending).all fun y => x.socket = some y.conn) &&
      x.socket.all fun conn => conn ∈ x.closed || (eventsOf jobId x.durableQueue).isEmpty
  | .sendEnds i =>
    x.sending[i]?.all fun y => !y.call.isFor jobId ||
      (sendsOf jobId (x.sending.take i)).all fun z => z.conn ≠ y.conn
  | .beginFlush => (eventsOf jobId x.durableQueue).isEmpty || (sendsOf jobId x.sending).isEmpty
  | .flushNext | .socketChanges => true

/-- no event of the job has overtaken another -/
structure InOrder (jobId : String) (x : Mail) : Prop where
  order : eventsOf jobId x.calls = eventsOf jobId x.written ++ eventsOf jobId x.durableQueue ++
    (sendsOf jobId x.sending).map Sending.call ++ eventsOf jobId x.pending
  /-- all its events that are being sent are so over one connection -/
  one : ∀ y ∈ sendsOf jobId x.sending, ∀ z ∈ sendsOf jobId x.sending, y.conn = z.conn
  /-- where one is in the queue, that connection is closed -/
  queue : eventsOf jobId x.durableQueue ≠ [] → ∀ y ∈ sendsOf jobId x.sending, y.conn ∈ x.closed
  /-- while the flush has one in its list, only the flush sends -/
  flush : eventsOf jobId x.pending ≠ [] →
    (∀ y ∈ sendsOf jobId x.sending, y.flush = true ∧ x.socket = some y.conn) ∧
    (eventsOf jobId x.durableQueue ≠ [] → ∀ conn, x.socket = some conn → conn ∈ x.closed)

section
variable {jobId : String}

theorem eventsOf_append (l₁ l₂ : List SendCall) :
    eventsOf jobId (l₁ ++ l₂) = eventsOf jobId l₁ ++ eventsOf jobId l₂ := List.filter_append ..

theorem sendsOf_append (l₁ l₂ : List Sending) :
    sendsOf jobId (l₁ ++ l₂) = sendsOf jobId l₁ ++ sendsOf jobId l₂ := List.filter_append ..

theorem eventsOf_singleton {c : SendCall} (h : c.isFor jobId = true) : eventsOf jobId [c] = [c] := by
  simp [eventsOf, h]

theorem eventsOf_singleton_other {c : SendCall} (h : c.isFor jobId = false) :
    eventsOf jobId [c] = [] := by
  simp [eventsOf, h]

theorem eventsOf_cons {c : SendCall} (l : List SendCall) :
    eventsOf jobId (c :: l) = eventsOf jobId [c] ++ eventsOf jobId l := eventsOf_append [c] l

theorem sendsOf_cons {y : Sending} (l : List Sending) :
    sendsOf jobId (y :: l) = sendsOf jobId [y] ++ sendsOf jobId l := sendsOf_append [y] l

theorem sendsOf_singleton {y : Sending} (h : y.call.isFor jobId = true) : sendsOf jobId [y] = [y] := by
  simp [sendsOf, h]

theorem sendsOf_singleton_other {y : Sending} (h : y.call.isFor jobId = false) :
    sendsOf jobId [y] = [] := by
  simp [sendsOf, h]

theorem mem_sendsOf {y : Sending} {l : List Sending} :
    y ∈ sendsOf jobId l ↔ y ∈ l ∧ y.call.isFor jobId = true := List.mem_filter

variable {x y : Mail} {b : MailAct}

theorem InOrder.frame (h : InOrder jobId x) (hcalls : eventsOf jobId y.calls = eventsOf jobId x.calls)
    (hwritten : eventsOf jobId y.written = eventsOf jobId x.written)
    (hqueue : eventsOf jobId y.durableQueue = eventsOf jobId x.durableQueue)
    (hsending : sendsOf jobId y.sending = sendsOf jobId x.sending)
    (hpending : eventsOf jobId y.pending = eventsOf jobId x.pending)
    (hclosed : x.closed ⊆ y.closed)
    (hsocket : eventsOf jobId x.pending ≠ [] → y.socket = x.socket) : InOrder jobId y := by
  refine ⟨?_, ?_, ?_, ?_⟩
  · rw [hcalls, hwritten, hqueue, hsending, hpending]
    exact h.order
  · rw [hsending]
    exact h.one
  · rw [hqueue, hsending]
    exact fun hq z hz => hclosed (h.queue hq z hz)
  · rw [hpending, hqueue, hsending]
    intro hp
    rw [hsocket hp]
    obtain ⟨hflush, hclose⟩ := h.flush hp
    exact ⟨hflush, fun hq conn hc => hclosed (hclose hq conn hc)⟩

theorem InOrder.first (h : InOrder jobId x) {i : Nat} {z : Sending} (hi : x.sending[i]? = some z)
    (hz : z.call.isFor jobId = true) (hd : x.orderly jobId (.sendEnds i) = true) :
    sendsOf jobId x.sending = z :: sendsOf jobId (x.sending.eraseIdx i) := by
  obtain ⟨l₁, l₂, hl, he, hlen⟩ := split_of_getElem? hi
  have htake : x.sending.take i = l₁ := by rw [hl, ← hlen, List.take_left]
  have hbefore : sendsOf jobId l₁ = [] := by
    rw [List.eq_nil_iff_forall_not_mem]
    intro w hw
    have hw' : w ∈ sendsOf jobId x.sending := by
      rw [hl, sendsOf_append]
      exact List.mem_append_left _ hw
    have hz' : z ∈ sendsOf jobId x.sending := mem_sendsOf.mpr ⟨by rw [hl]; simp, hz⟩
    have hne : w.conn ≠ z.conn := by
      simp only [orderly, hi, Option.all_some, hz, Bool.not_true, Bool.false_or, htake,
        List.all_eq_true] at hd
      simpa using hd w hw
    exact hne (h.one w hw' z hz')
  rw [he, hl, sendsOf_append, sendsOf_append, sendsOf_cons, hbefore, sendsOf_singleton hz]
  rfl

theorem sendsOf_eraseIdx {l : List Sending} {i : Nat} {z : Sending} (hi : l[i]? = some z)
    (hz : z.call.isFor jobId = false) : sendsOf jobId (l.eraseIdx i) = sendsOf jobId l := by
  obtain ⟨l₁, l₂, hl, he, -⟩ := split_of_getElem? hi
  rw [he, hl, sendsOf_append, sendsOf_append, sendsOf_cons, sendsOf_singleton_other hz]
  rfl

/-- what the condition says of a call of `send` for the job -/
theorem orderly_send {message : OutboundAgentMessage} {durable : Bool} {n : Nat}
    (hm : SendCall.isFor jobId ⟨n, message, durable⟩ = true)
    (hd : x.orderly jobId (.send message durable) = true) :
    eventsOf jobId x.pending = [] ∧ (∀ z ∈ sendsOf jobId x.sending, x.socket = some z.conn) ∧
    ∀ conn, x.socket = some conn → conn ∈ x.closed ∨ eventsOf jobId x.durableQueue = [] := by
  have hm : SendCall.isFor jobId ⟨0, message, durable⟩ = true := hm
  simp only [orderly, hm, Bool.not_true, Bool.false_or, Bool.and_eq_true, List.isEmpty_iff,
    List.all_eq_true, decide_eq_true_eq] at hd
  obtain ⟨⟨hp, hone⟩, hsock⟩ := hd
  refine ⟨hp, hone, fun conn hc => ?_⟩
  rw [hc, Option.all_some, Bool.or_eq_true, decide_eq_true_eq, List.isEmpty_iff] at hsock
  exact hsock

theorem InOrder.step (h : InOrder jobId x) (hd : x.orderly jobId b = true) (hstep : Step x b y) :
    InOrder jobId y := by
  cases hstep with
  | sendOver message durable hs =>
    rename_i conn
    cases hm : SendCall.isFor jobId ⟨x.calls.length, message, durable⟩ with
    | false =>
      refine h.frame ?_ rfl rfl ?_ rfl (List.Subset.refl _) fun _ => rfl
      · rw [eventsOf_append, eventsOf_singleton_other hm, List.append_nil]
      · rw [sendsOf_append, sendsOf_singleton_other hm, List.append_nil]
    | true =>
      obtain ⟨hp, hone, hsock⟩ := orderly_send hm hd
      have hconn : ∀ z ∈ sendsOf jobId (x.sending ++
          [⟨⟨x.calls.length, message, durable⟩, conn, false⟩]), z.conn = conn := by
        intro z hz
        rw [sendsOf_append, sendsOf_singleton hm, List.mem_append, List.mem_singleton] at hz
        rcases hz with hz | rfl
        · exact Option.some.inj ((hone z hz).symm.trans hs)
        · rfl
      refine ⟨?_, ?_, ?_, ?_⟩
      · show eventsOf jobId (x.calls ++ _) = eventsOf jobId x.written ++ _ ++ _ ++ _
        rw [eventsOf_append, h.order, hp, sendsOf_append, eventsOf_singleton hm, sendsOf_singleton hm,
          List.map_append, List.append_nil, List.append_nil]
        simp only [List.append_assoc, List.map_cons, List.map_nil]
      · intro z hz w hw
        rw [hconn z hz, hconn w hw]
      · intro hq z hz
        rw [hconn z hz]
        exact (hsock conn hs).resolve_right hq
      · exact fun hne => absurd hp hne
  | sendNowhere message durable hs =>
    cases hm : SendCall.isFor jobId ⟨x.calls.length, message, durable⟩ with
    | false =>
      refine h.frame ?_ rfl ?_ rfl rfl (List.Subset.refl _) fun _ => rfl
      · rw [eventsOf_append, eventsOf_singleton_other hm, List.append_nil]
      · rw [eventsOf_append]
        cases durable with
        | false => exact List.append_nil _
        | true => rw [if_pos rfl, eventsOf_singleton_other hm, List.append_nil]
    | true =>
      obtain ⟨hp, hone, -⟩ := orderly_send hm hd
      have hnone : sendsOf jobId x.sending = [] := by
        rw [List.eq_nil_iff_forall_not_mem]
        intro z hz
        have hz := hone z hz
        rw [hs] at hz
        cases hz
      have hdur : durable = true := by
        rw [SendCall.isFor, Bool.and_eq_true] at hm
        exact hm.1
      refine ⟨?_, ?_, ?_, ?_⟩
      · show eventsOf jobId (x.calls ++ _) = eventsOf jobId x.written ++ _ ++ _ ++ _
        rw [eventsOf_append, h.order, hp, hnone, if_pos hdur, eventsOf_append,
          eventsOf_singleton hm]
        simp only [List.append_assoc, List.map_nil, List.append_nil]
      · rw [hnone]
        exact fun z hz => absurd hz List.not_mem_nil
      · rw [hnone]
        exact fun _ z hz => absurd hz List.not_mem_nil
      · exact fun hne => absurd hp hne
  | written hi ho =>
    rename_i i z
    cases hz : z.call.isFor jobId with
    | false =>
      refine h.frame rfl ?_ rfl (sendsOf_eraseIdx hi hz) rfl (List.Subset.refl _) fun _ => rfl
      show eventsOf jobId ((x.frames ++ [(z.conn, z.call)]).map Prod.snd) = eventsOf jobId x.written
      rw [List.map_append, eventsOf_append, List.map_singleton, eventsOf_singleton_other hz,
        List.append_nil]
      rfl
    | true =>
      have hfirst := h.first hi hz hd
      have hmem : z ∈ sendsOf jobId x.sending := by rw [hfirst]; exact List.mem_cons_self
      have hq : eventsOf jobId x.durableQueue = [] := by
        by_contra hne
        exact ho (h.queue hne z hmem)
      have hsub : ∀ w ∈ sendsOf jobId (x.sending.eraseIdx i), w ∈ sendsOf jobId x.sending := by
        intro w hw
        rw [hfirst]
        exact List.mem_cons_of_mem _ hw
      have hw : eventsOf jobId ((x.frames ++ [(z.conn, z.call)]).map Prod.snd)
          = eventsOf jobId x.written ++ [z.call] := by
        rw [List.map_append, eventsOf_append, List.map_singleton, eventsOf_singleton hz]
        rfl
      refine ⟨?_, ?_, ?_, ?_⟩
      · show eventsOf jobId x.calls
          = eventsOf jobId ((x.frames ++ [(z.conn, z.call)]).map Prod.snd) ++ _ ++ _ ++ _
        rw [hw, h.order, hq, hfirst, List.map_cons]
        simp only [List.append_assoc, List.cons_append, List.nil_append]
      · exact fun w hw w' hw' => h.one w (hsub w hw) w' (hsub w' hw')
      · exact fun hne w hw => h.queue hne w (hsub w hw)
      · intro hne
        obtain ⟨hflush, hclose⟩ := h.flush hne
        exact ⟨fun w hw => hflush w (hsub w hw), hclose⟩
  | kept hi hc =>
    rename_i i z
    cases hz : z.call.isFor jobId with
    | false =>
      refine h.frame rfl rfl ?_ (sendsOf_eraseIdx hi hz) rfl (List.Subset.refl _) fun _ => rfl
      rw [eventsOf_append]
      cases hdur : z.call.durable with
      | false => exact List.append_nil _
      | true => rw [if_pos rfl, eventsOf_singleton_other hz, List.append_nil]
    | true =>
      have hfirst := h.first hi hz hd
      have hmem : z ∈ sendsOf jobId x.sending := by rw [hfirst]; exact List.mem_cons_self
      have hdur : z.call.durable = true := by
        rw [SendCall.isFor, Bool.and_eq_true] at hz
        exact hz.1
      have hsub : ∀ w ∈ sendsOf jobId (x.sending.eraseIdx i), w ∈ sendsOf jobId x.sending := by
        intro w hw
        rw [hfirst]
        exact List.mem_cons_of_mem _ hw
      refine ⟨?_, ?_, ?_, ?_⟩
      · show eventsOf jobId x.calls = eventsOf jobId x.written ++ _ ++ _ ++ _
        rw [h.order, hfirst, if_pos hdur, eventsOf_append, eventsOf_singleton hz, List.map_cons]
        simp only [List.append_assoc, List.cons_append, List.nil_append]
      · exact fun w hw w' hw' => h.one w (hsub w hw) w' (hsub w' hw')
      · intro _ w hw
        rw [h.one w (hsub w hw) z hmem]
        exact hc
      · intro hne
        obtain ⟨hflush, -⟩ := h.flush hne
        refine ⟨fun w hw => hflush w (hsub w hw), fun _ conn hconn => ?_⟩
        rw [(hflush z hmem).2] at hconn
        cases hconn
        exact hc
  | beginFlush hp hf =>
    simp only [orderly, Bool.or_eq_true, List.isEmpty_iff] at hd
    have hp' : eventsOf jobId x.pending = [] := by rw [hp]; rfl
    refine ⟨?_, h.one, ?_, ?_⟩
    · show eventsOf jobId x.calls = eventsOf jobId x.written ++ _ ++ _ ++ _
      rw [h.order, hp', List.append_nil]
      rcases hd with hq | hs
      · rw [hq]
        simp [eventsOf]
      · rw [hs]
        simp [eventsOf]
    · exact fun hne => absurd rfl hne
    · intro hne
      rw [hd.resolve_left hne]
      exact ⟨fun z hz => absurd hz List.not_mem_nil, fun hne => absurd rfl hne⟩
  | flushNext hp hf hs =>
    rename_i conn c pending
    cases hc : c.isFor jobId with
    | false =>
      have hp' : eventsOf jobId pending = eventsOf jobId x.pending := by
        rw [hp, eventsOf_cons, eventsOf_singleton_other hc]
        rfl
      refine h.frame rfl rfl rfl ?_ hp' (List.Subset.refl _) fun _ => rfl
      rw [sendsOf_append, sendsOf_singleton_other hc, List.append_nil]
    | true =>
      have hp' : eventsOf jobId x.pending = c :: eventsOf jobId pending := by
        rw [hp, eventsOf_cons, eventsOf_singleton hc]
        rfl
      obtain ⟨hflush, hclose⟩ := h.flush (by rw [hp']; exact List.cons_ne_nil _ _)
      have hnone : sendsOf jobId x.sending = [] := by
        rw [List.eq_nil_iff_forall_not_mem]
        intro z hz
        have hno := hf z (mem_sendsOf.mp hz).1
        rw [(hflush z hz).1] at hno
        cases hno
      have hsends : sendsOf jobId (x.sending ++ [⟨c, conn, true⟩]) = [⟨c, conn, true⟩] := by
        rw [sendsOf_append, hnone, sendsOf_singleton hc]
        rfl
      refine ⟨?_, ?_, ?_, ?_⟩
      · show eventsOf jobId x.calls = eventsOf jobId x.written ++ _ ++ _ ++ _
        rw [h.order, hnone, hsends, hp']
        simp only [List.append_assoc, List.map_nil, List.map_cons, List.nil_append, List.cons_append]
      · rw [hsends]
        intro z hz w hw
        rw [List.mem_singleton.mp hz, List.mem_singleton.mp hw]
      · rw [hsends]
        intro hne z hz
        rw [List.mem_singleton.mp hz]
        exact hclose hne conn hs
      · intro _
        rw [hsends]
        refine ⟨fun z hz => ?_, hclose⟩
        rw [List.mem_singleton.mp hz]
        exact ⟨rfl, hs⟩
  | connects hp =>
    refine h.frame rfl rfl rfl rfl rfl (List.Subset.refl _) fun hne => ?_
    rw [hp] at hne
    exact absurd rfl hne
  | moves hp hs hc =>
    refine h.frame rfl rfl rfl rfl rfl hc fun hne => ?_
    rw [hp] at hne
    exact absurd rfl hne
  | closes conn => exact h.frame rfl rfl rfl rfl rfl (List.subset_cons_self _ _) fun _ => rfl

theorem InOrder.init : InOrder jobId Client.init.mail :=
  ⟨rfl, fun _ hz => absurd hz List.not_mem_nil, fun hne => absurd rfl hne, fun hne => absurd rfl hne⟩

theorem Conserved.ascending (h : Conserved x) :
    (eventsOf jobId x.calls).Pairwise fun c d => c.number < d.number := by
  have hrange : (x.calls.map SendCall.number).Pairwise (· < ·) := by
    rw [h.numbers]
    exact List.pairwise_lt_range
  exact (List.pairwise_map.mp hrange).filter _

end

end Mail

namespace Client
variable (limits : Limits) (validate : InboundModel → Value → Except Exc (InboundHubMessage Str))
  (jobId : String)

/-- the step goes on with the job's events in order -/
def keepsOrder : Client → ClientAct → Bool :=
  Machine.seenAs mail (seenByMail limits validate) (Mail.orderly jobId)

/-- **The durable events of a job are written in the order of the calls of `send`**, over all
connections, and none while an earlier one is in the queue or in the list of a flush. -/
theorem events_in_order {s : Client}
    (h : (client limits validate).Reach (fun s a => keepsOrder limits validate jobId s a = true) s) :
    eventsOf jobId s.written <+: eventsOf jobId s.calls ∧
    ∀ c ∈ eventsOf jobId s.written, ∀ d ∈ eventsOf jobId (s.durableQueue ++ s.phase.pending),
      c.number < d.number := by
  have horder : Mail.InOrder jobId s.mail :=
    h.invariant_view (client_shows_mail limits validate) (fun _ hs => sound_of_reach hs)
      (fun _ _ _ hx hd hstep => hx.step hd hstep) Mail.InOrder.init
      (fun _ _ ok => Machine.SeenAs.of_seenAs ok)
  have hcons : Mail.Conserved s.mail :=
    h.invariant_view (D := fun _ _ => True) (client_shows_mail limits validate)
      (fun _ hs => sound_of_reach hs) (fun _ _ _ hx _ hstep => hx.step hstep) Mail.Conserved.init
      (fun _ _ _ _ _ => trivial)
  have hcalls : eventsOf jobId s.calls = eventsOf jobId s.written ++ (eventsOf jobId s.durableQueue ++
      ((sendsOf jobId s.sending).map Sending.call ++ eventsOf jobId s.phase.pending)) := by
    rw [← List.append_assoc, ← List.append_assoc]
    exact horder.order
  refine ⟨⟨_, hcalls.symm⟩, fun c hc d hd => ?_⟩
  have hasc : (eventsOf jobId s.calls).Pairwise fun c d => c.number < d.number := hcons.ascending
  rw [hcalls] at hasc
  refine (List.pairwise_append.mp hasc).2.2 c hc d ?_
  rw [Mail.eventsOf_append, List.mem_append] at hd
  simp only [List.mem_append]
  exact hd.imp_right .inr

/-- an event waits for the connection, the next one is queued when that breaks, and is written over
the next connection -/
def resentInOrder : List ClientAct :=
  [.send (.event (.received "a")) true] ++ Schedule.connect ++
  [.flushNext, .sendEnds 0, .flushed none, .discovered none, .send (.event (.started "a")) true,
    .drop 0, .sendEnds 0, .ends false, .disconnected none, .backoffEnds] ++ Schedule.connect ++
  [.flushNext, .sendEnds 0, .send (.event (.completed "a")) true, .sendEnds 0]

theorem resentInOrder_isSome :
    ((client Schedule.limits Schedule.validate).run init resentInOrder).isSome = true := by
  decide +kernel

theorem events_in_order_resent :
    let s := (client Schedule.limits Schedule.validate).after resentInOrder resentInOrder_isSome
    eventsOf "a" s.written <+: eventsOf "a" s.calls :=
  (events_in_order Schedule.limits Schedule.validate "a"
    (.of_obeys resentInOrder resentInOrder_isSome (by decide +kernel))).1

/-- while a flush sends another job's event, `send` is called for the job, whose earlier event is next
in the list of the flush -/
def sendDuringFlush : List ClientAct :=
  [.send (.event (.completed "b")) true, .send (.event (.received "a")) true] ++ Schedule.connect ++
  [.flushNext, .send (.event (.started "a")) true, .sendEnds 0, .sendEnds 0, .flushNext, .sendEnds 0]

/-- `print.job.started` is written before `print.job.received` -/
theorem event_overtakes :
    ¬ ∀ s, (client Schedule.limits Schedule.validate).Reach Machine.Any s →
      (eventsOf "a" s.written).Sublist (eventsOf "a" s.calls) := by
  intro h
  have hrun : ((client Schedule.limits Schedule.validate).run init sendDuringFlush).isSome = true := by
    decide +kernel
  have hsub := h _ (.after sendDuringFlush hrun)
  have hno := Machine.any_after (p := fun s =>
    !(eventsOf "a" s.written).isSublist (eventsOf "a" s.calls)) hrun (by decide +kernel)
  rw [List.isSublist_iff_sublist.mpr hsub] at hno
  cases hno

end Client

end PrintAgent
