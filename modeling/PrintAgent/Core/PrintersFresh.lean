import PrintAgent.Core.PrinterSync

/-!
# The printer list the hub has

* `lastSync`            the printers that were written last on a connection;
* `Mail.Lists`          the invariant: the lists on their way, and the last one written, are the loop's last or
                        what `sync_now` has found since;
* `printers_fresh`      under `keepsFresh` the list is fresh after each tick;
* `printers_stale`      a change that `sync_now` reports and that is undone before the next tick.
-/

namespace PrintAgent

open PyJson (Str Value Limits)

def lastSync (frames : List (Nat × SendCall)) (conn : Nat) : Option (List SyncedPrinter) :=
  (frames.filterMap fun f => if f.1 = conn then f.2.message.printers else none).getLast?

/-! ## what the messages tell -/

section LastSync
variable {frames : List (Nat × SendCall)} {conn conn' : Nat} {call : SendCall}

theorem lastSync_snoc_other (h : conn' ≠ conn ∨ call.message.printers = none) :
    lastSync (frames ++ [(conn', call)]) conn = lastSync frames conn := by
  have hnone : (if conn' = conn then call.message.printers else none) = none := by
    rcases h with h | h
    · rw [if_neg h]
    · rw [h]
      split <;> rfl
  simp [lastSync, List.filterMap_append, hnone]

theorem lastSync_snoc {printers : List SyncedPrinter} (h : call.message.printers = some printers) :
    lastSync (frames ++ [(conn, call)]) conn = some printers := by
  simp [lastSync, List.filterMap_append, h]

end LastSync

namespace Mail

variable {x y : Mail} {b : MailAct}

theorem Conserved.call_of_number (h : Conserved x) {c : SendCall} (hc : c ∈ x.calls) :
    x.calls[c.number]? = some c := by
  obtain ⟨i, hi, hget⟩ := List.getElem_of_mem hc
  have hnum : (x.calls.map SendCall.number)[i]? = some i := by
    rw [h.numbers, List.getElem?_range hi]
  rw [List.getElem?_map, List.getElem?_eq_getElem hi, hget] at hnum
  cases hnum
  rw [List.getElem?_eq_getElem hi, hget]

theorem Conserved.mem_of_returned (h : Conserved x) {c : SendCall} (hc : c ∈ durables x.returned) :
    c ∈ x.calls := by
  have hret : c ∈ x.returned := (List.mem_filter.mp hc).1
  have hcalls : c ∈ (x.calls : Multiset SendCall) := by
    rw [h.calls, Multiset.mem_add]
    exact .inl hret
  exact hcalls

theorem Conserved.mem_of_sending (h : Conserved x) {z : Sending} (hz : z ∈ x.sending) :
    z.call ∈ x.calls := by
  cases hf : z.flush with
  | true =>
    apply h.mem_of_returned
    have hcar : z.call ∈ carried x.sending :=
      List.mem_map_of_mem (List.mem_filter.mpr ⟨hz, hf⟩)
    rw [h.returned, Multiset.mem_add]
    exact .inr hcar
  | false =>
    have hun : z.call ∈ unreturned x.sending :=
      List.mem_map_of_mem (List.mem_filter.mpr ⟨hz, by rw [hf]; rfl⟩)
    have hcalls : z.call ∈ (x.calls : Multiset SendCall) := by
      rw [h.calls, Multiset.mem_add]
      exact .inr hun
    exact hcalls

theorem Conserved.mem_of_pending (h : Conserved x) {c : SendCall} (hc : c ∈ x.pending) :
    c ∈ x.calls ∧ c.durable = true := by
  constructor
  · apply h.mem_of_returned
    rw [h.returned, Multiset.mem_add, Multiset.mem_add]
    exact .inl (.inr hc)
  · apply h.durable
    rw [Multiset.mem_add, Multiset.mem_add]
    exact .inl (.inr hc)

theorem Conserved.number_lt (h : Conserved x) {c : SendCall} (hc : c ∈ x.calls) : c.number < x.calls.length :=
  (List.getElem?_eq_some_iff.mp (h.call_of_number hc)).1

theorem Conserved.returned_subset (h : Conserved x) {c : SendCall} (hc : c ∈ x.returned) : c ∈ x.calls := by
  have hcalls : c ∈ (x.calls : Multiset SendCall) := by
    rw [h.calls, Multiset.mem_add]
    exact .inl hc
  exact hcalls

theorem Conserved.number_ne (h : Conserved x) {z : Sending} (hz : z ∈ x.sending) (hf : z.flush = false)
    {c : SendCall} (hc : c ∈ x.returned) : c.number ≠ z.call.number := by
  have hnodup : ((x.calls : Multiset SendCall).map SendCall.number).Nodup := by
    rw [Multiset.map_coe, h.numbers]
    exact List.nodup_range
  rw [h.calls, Multiset.map_add, Multiset.nodup_add] at hnodup
  have hun : z.call ∈ unreturned x.sending :=
    List.mem_map_of_mem (List.mem_filter.mpr ⟨hz, by rw [hf]; rfl⟩)
  intro hn
  refine Multiset.disjoint_left.mp hnodup.2.2 (Multiset.mem_map_of_mem SendCall.number hc) ?_
  rw [hn]
  exact Multiset.mem_map_of_mem SendCall.number hun

theorem Conserved.durable_of_flush (h : Conserved x) {z : Sending} (hz : z ∈ x.sending) (hf : z.flush = true) :
    z.call.durable = true := by
  have hcar : z.call ∈ carried x.sending := List.mem_map_of_mem (List.mem_filter.mpr ⟨hz, hf⟩)
  exact h.durable _ (Multiset.mem_add.mpr (.inr hcar))

theorem Conserved.eq_of_number (h : Conserved x) {z : Sending} (hz : z ∈ x.sending) {c : SendCall}
    (hc : x.calls[z.call.number]? = some c) : z.call = c :=
  Option.some.inj ((h.call_of_number (h.mem_of_sending hz)).symm.trans hc)

end Mail

/-! ## the invariant -/

/-- the send that the loop awaits, called when `via` was the socket -/
structure LoopSend where
  via : Option Nat
  number : Nat
  printers : List SyncedPrinter

def Tick.loopSend : Tick → Option LoopSend
  | .sending _ via number printers => some ⟨via, number, printers⟩
  | _ => none

namespace Mail

section
variable (x : Mail) (loop : Option LoopSend) (sync : Option (Nat × Nat)) (history : SyncHistory)

/-- the list written last on the connection is the loop's last, or one that `sync_now` has found since -/
def Told (n : Nat) : Prop :=
  ∃ printers, lastSync x.frames n = some printers ∧
    (history.lastSend = some (n, printers) ∨ (n, printers) ∈ history.found)

def LoopSends (n : Nat) : Prop :=
  ∃ l, loop = some l ∧ l.via = some n ∧ ∃ y ∈ x.sending, y.call.number = l.number

/-- the loop has called `send` on the connection, or `sync_now` has sent what it found -/
def Due (n : Nat) : Prop :=
  (∃ printers, history.lastSend = some (n, printers)) ∨
    (∃ printers, (n, printers) ∈ history.found) ∧ ∀ k, sync = some (n, k) → ∃ c ∈ x.returned, c.number = k

/-- the lists on their way and those that were written are the ones of the history -/
structure Lists : Prop where
  plain : ∀ c ∈ x.calls, c.durable = true → c.message.printers = none
  loopCall : ∀ l, loop = some l → x.calls[l.number]? = some ⟨l.number, .printersSync l.printers, false⟩ ∧
    history.lastSend = l.via.map fun n => (n, l.printers)
  syncCall : ∀ n k, sync = some (n, k) →
    ∃ printers, x.calls[k]? = some ⟨k, .printersSync printers, false⟩ ∧ (n, printers) ∈ history.found
  apart : ∀ l n k, loop = some l → sync = some (n, k) → l.number ≠ k
  flight : ∀ y ∈ x.sending, y.call.message.printers.isSome = true →
    (∃ l, loop = some l ∧ l.number = y.call.number ∧ l.via = some y.conn) ∨
      sync = some (y.conn, y.call.number)
  told : ∀ n, n ∉ x.closed → x.Due sync history n → x.Told history n ∨ x.LoopSends loop n

end

variable {x y : Mail} {b : MailAct} {loop : Option LoopSend} {sync : Option (Nat × Nat)}
  {history : SyncHistory}

theorem Lists.init : Lists Client.init.mail none none ⟨none, []⟩ where
  plain := fun c hc => (by cases hc)
  loopCall := fun l hl => (by cases hl)
  syncCall := fun n k hs => (by cases hs)
  apart := fun l n k hl => (by cases hl)
  flight := fun y hy => (by cases hy)
  told := by
    rintro n - (⟨_, hl⟩ | ⟨⟨_, hf⟩, -⟩)
    · cases hl
    · cases hf

section
variable (h : Lists x loop sync history) (hcons : Conserved x) {z : Sending} (hz : z ∈ x.sending)
include h hcons hz

/-- a list on its way is one of the history -/
theorem Lists.inFlight {printers : List SyncedPrinter} (hp : z.call.message.printers = some printers) :
    history.lastSend = some (z.conn, printers) ∨ (z.conn, printers) ∈ history.found := by
  rcases h.flight z hz (by rw [hp]; rfl) with ⟨l, hl, hn, hvia⟩ | hs
  · obtain ⟨hcall, hlast⟩ := h.loopCall l hl
    rw [hcons.eq_of_number hz (hn ▸ hcall)] at hp
    cases hp
    left
    rw [hlast, hvia]
    rfl
  · obtain ⟨q, hcall, hfound⟩ := h.syncCall _ _ hs
    rw [hcons.eq_of_number hz hcall] at hp
    cases hp
    exact .inr hfound

theorem Lists.of_loop {l : LoopSend} (hl : loop = some l) (hn : z.call.number = l.number) :
    z.call.message.printers.isSome = true ∧ l.via = some z.conn := by
  have hsome : z.call.message.printers.isSome = true := by
    rw [hcons.eq_of_number hz (hn ▸ (h.loopCall l hl).1)]
    rfl
  refine ⟨hsome, ?_⟩
  rcases h.flight z hz hsome with ⟨l', hl', -, hvia⟩ | hs
  · rw [hl] at hl'
    cases hl'
    exact hvia
  · exact absurd hn.symm (h.apart l _ _ hl hs)

theorem Lists.of_sync {n k : Nat} (hs : sync = some (n, k)) (hn : z.call.number = k) :
    z.call.message.printers.isSome = true ∧ z.conn = n := by
  obtain ⟨printers, hcall, -⟩ := h.syncCall n k hs
  have hsome : z.call.message.printers.isSome = true := by
    rw [hcons.eq_of_number hz (hn ▸ hcall)]
    rfl
  refine ⟨hsome, ?_⟩
  rcases h.flight z hz hsome with ⟨l, hl, hnum, -⟩ | hs'
  · exact absurd (hnum.trans hn) (h.apart l n k hl hs)
  · rw [hs] at hs'
    cases hs'
    rfl

end

theorem mem_eraseIdx_of_ne {i : Nat} {z w : Sending} (hi : x.sending[i]? = some z)
    (hw : w ∈ x.sending) (hne : w ≠ z) : w ∈ x.sending.eraseIdx i := by
  obtain ⟨l₁, l₂, hl, he, -⟩ := split_of_getElem? hi
  rw [he]
  rw [hl] at hw
  simpa [hne] using hw

/-- a send ends; where it carried a list that list was written, unless its connection has closed -/
theorem Lists.ended (h : Lists x loop sync history) (hcons : Conserved x) {i : Nat} {z : Sending}
    (hi : x.sending[i]? = some z) (hcalls : y.calls = x.calls) (hsending : y.sending = x.sending.eraseIdx i)
    (hreturned : y.returned = x.returned ++ if z.flush then [] else [z.call]) (hclosed : y.closed = x.closed)
    (hown : ∀ printers, z.call.message.printers = some printers → z.conn ∉ x.closed →
      lastSync y.frames z.conn = some printers)
    (hother : ∀ n, z.conn ≠ n ∨ z.call.message.printers = none → lastSync y.frames n = lastSync x.frames n) :
    Lists y loop sync history := by
  have hz : z ∈ x.sending := List.mem_of_getElem? hi
  refine ⟨hcalls ▸ h.plain, hcalls ▸ h.loopCall, hcalls ▸ h.syncCall, h.apart,
    fun w hw => h.flight w (List.mem_of_mem_eraseIdx (hsending ▸ hw)), fun n hn hdue => ?_⟩
  rw [hclosed] at hn
  by_cases hmine : z.conn = n ∧ z.call.message.printers.isSome = true
  · obtain ⟨rfl, hsome⟩ := hmine
    obtain ⟨printers, hp⟩ := Option.isSome_iff_exists.mp hsome
    exact .inl ⟨printers, hown printers hp hn, h.inFlight hcons hz hp⟩
  · -- the send was another one
    have hsame : lastSync y.frames n = lastSync x.frames n := by
      refine hother n ?_
      by_cases hc : z.conn = n
      · exact .inr (Option.not_isSome_iff_eq_none.mp fun hs => hmine ⟨hc, hs⟩)
      · exact .inl hc
    have hdue : x.Due sync history n := by
      refine hdue.imp_right fun ⟨hfound, hret⟩ => ⟨hfound, fun k hk => ?_⟩
      obtain ⟨c, hc, hck⟩ := hret k hk
      rw [hreturned, List.mem_append] at hc
      rcases hc with hc | hc
      · exact ⟨c, hc, hck⟩
      · have hcz : c = z.call := by
          cases hf : z.flush <;> simp [hf] at hc
          exact hc
        have hs := h.of_sync hcons hz hk (hcz ▸ hck)
        exact absurd ⟨hs.2, hs.1⟩ hmine
    rcases h.told n hn hdue with ⟨printers, hlast, hfrom⟩ | ⟨l, hl, hvia, w, hw, hnum⟩
    · exact .inl ⟨printers, hsame.trans hlast, hfrom⟩
    · refine .inr ⟨l, hl, hvia, w, hsending ▸ mem_eraseIdx_of_ne hi hw ?_, hnum⟩
      rintro rfl
      have hs := h.of_loop hcons hz hl hnum
      exact hmine ⟨Option.some.inj (hs.2.symm.trans hvia), hs.1⟩

/-- a call keeps its number -/
theorem call_append {calls more : List SendCall} {k : Nat} {c : SendCall} (h : calls[k]? = some c) :
    (calls ++ more)[k]? = some c := by
  rw [List.getElem?_append_left (List.getElem?_eq_some_iff.mp h).1, h]

theorem Lists.more (h : Lists x loop sync history) {calls : List SendCall} {sendings : List Sending}
    {returned : List SendCall} (hcalls : y.calls = x.calls ++ calls) (hsending : y.sending = x.sending ++ sendings)
    (hreturned : y.returned = x.returned ++ returned) (hclosed : x.closed ⊆ y.closed)
    (hframes : y.frames = x.frames) (hplain : ∀ c ∈ calls, c.message.printers = none)
    (hplain' : ∀ z ∈ sendings, z.call.message.printers = none)
    (hlate : ∀ c ∈ returned, x.calls.length ≤ c.number) : Lists y loop sync history := by
  have hget : ∀ {k : Nat} {c : SendCall}, x.calls[k]? = some c → y.calls[k]? = some c :=
    fun hc => hcalls ▸ call_append hc
  refine ⟨?_, fun l hl => ⟨hget (h.loopCall l hl).1, (h.loopCall l hl).2⟩, fun n k hs => ?_, h.apart, ?_, ?_⟩
  · intro c hc hd
    rw [hcalls, List.mem_append] at hc
    exact hc.elim (fun hc => h.plain c hc hd) (hplain c)
  · obtain ⟨printers, hcall, hfound⟩ := h.syncCall n k hs
    exact ⟨printers, hget hcall, hfound⟩
  · intro z hz hsome
    rw [hsending, List.mem_append] at hz
    rcases hz with hz | hz
    · exact h.flight z hz hsome
    · rw [hplain' z hz] at hsome
      cases hsome
  · intro n hn hdue
    have hdue : x.Due sync history n := by
      refine hdue.imp_right fun ⟨hfound, hret⟩ => ⟨hfound, fun k hk => ?_⟩
      obtain ⟨c, hc, hck⟩ := hret k hk
      rw [hreturned, List.mem_append] at hc
      rcases hc with hc | hc
      · exact ⟨c, hc, hck⟩
      · obtain ⟨_, hcall, -⟩ := h.syncCall n k hk
        have hlt := (List.getElem?_eq_some_iff.mp hcall).1
        have hle := hlate c hc
        omega
    rcases h.told n (fun hc => hn (hclosed hc)) hdue with ⟨printers, hlast, hfrom⟩ | ⟨l, hl, hvia, w, hw, hnum⟩
    · exact .inl ⟨printers, hframes ▸ hlast, hfrom⟩
    · exact .inr ⟨l, hl, hvia, w, hsending ▸ List.mem_append_left _ hw, hnum⟩

theorem Lists.same (h : Lists x loop sync history) (hcalls : y.calls = x.calls) (hsending : y.sending = x.sending)
    (hreturned : y.returned = x.returned) (hclosed : x.closed ⊆ y.closed) (hframes : y.frames = x.frames) :
    Lists y loop sync history := by
  rw [← List.append_nil x.calls] at hcalls
  rw [← List.append_nil x.sending] at hsending
  rw [← List.append_nil x.returned] at hreturned
  exact h.more hcalls hsending hreturned hclosed hframes (fun c hc => by cases hc) (fun z hz => by cases hz)
    fun c hc => by cases hc

theorem Lists.step (h : Lists x loop sync history) (hcons : Conserved x)
    (hb : ∀ message durable, b = .send message durable → message.printers = none) (hstep : Step x b y) :
    Lists y loop sync history := by
  cases hstep with
  | sendOver message durable hs =>
    refine h.more rfl rfl (List.append_nil _).symm (List.Subset.refl _) rfl ?_ ?_ (fun c hc => by cases hc)
    · intro c hc
      rw [List.mem_singleton.mp hc]
      exact hb message durable rfl
    · intro z hz
      rw [List.mem_singleton.mp hz]
      exact hb message durable rfl
  | sendNowhere message durable hs =>
    refine h.more rfl (List.append_nil _).symm rfl (List.Subset.refl _) rfl ?_ (fun z hz => by cases hz) ?_
    · intro c hc
      rw [List.mem_singleton.mp hc]
      exact hb message durable rfl
    · intro c hc
      rw [List.mem_singleton.mp hc]
  | written hi ho =>
    refine h.ended hcons hi rfl rfl rfl rfl ?_ ?_
    · exact fun printers hp _ => lastSync_snoc hp
    · exact fun n hn => lastSync_snoc_other hn
  | kept hi hc =>
    exact h.ended hcons hi rfl rfl rfl rfl (fun _ _ ho => absurd hc ho) fun _ _ => rfl
  | beginFlush hp hf => exact h.same rfl rfl rfl (List.Subset.refl _) rfl
  | flushNext hp hf hs =>
    rename_i conn c pending
    obtain ⟨hc, hd⟩ := hcons.mem_of_pending (c := c) (by rw [hp]; exact List.mem_cons_self)
    refine h.more (List.append_nil _).symm rfl (List.append_nil _).symm (List.Subset.refl _) rfl
      (fun c hc => by cases hc) ?_ (fun c hc => by cases hc)
    intro z hz
    rw [List.mem_singleton.mp hz]
    exact h.plain c hc hd
  | connects hp => exact h.same rfl rfl rfl (List.Subset.refl _) rfl
  | moves hp hs hc => exact h.same rfl rfl rfl hc rfl
  | closes n => exact h.same rfl rfl rfl (List.subset_cons_self _ _) rfl

theorem mem_sending_snoc {z w : Sending} (hw : w ∈ x.sending ++ [z]) : w ∈ x.sending ∨ w = z := by
  rcases List.mem_append.mp hw with hw | hw
  · exact .inl hw
  · exact .inr (List.mem_singleton.mp hw)

theorem plain_snoc (h : ∀ c ∈ x.calls, c.durable = true → c.message.printers = none) {c : SendCall}
    (hc : c.durable = false) : ∀ d ∈ x.calls ++ [c], d.durable = true → d.message.printers = none := by
  intro d hd hdur
  rcases List.mem_append.mp hd with hd | hd
  · exact h d hd hdur
  · rw [List.mem_singleton.mp hd, hc] at hdur
    cases hdur

theorem Lists.discovered {n : Nat} {printers : List SyncedPrinter} (h : Lists x loop none history)
    (hcons : Conserved x) (hsock : x.socket = some n)
    (hstep : Step x (.send (.printersSync printers) false) y) :
    Lists y loop (some (n, x.calls.length)) { history with found := (n, printers) :: history.found } := by
  cases hstep with
  | sendNowhere message durable hs =>
    rw [hs] at hsock
    cases hsock
  | sendOver message durable hs =>
    rename_i conn
    have hn : conn = n := Option.some.inj (hs.symm.trans hsock)
    subst hn
    refine ⟨plain_snoc h.plain rfl, fun l hl => ?_, fun m k hk => ?_, fun l m k hl hk => ?_, ?_, ?_⟩
    · obtain ⟨hcall, hlast⟩ := h.loopCall l hl
      exact ⟨call_append hcall, hlast⟩
    · cases hk
      exact ⟨printers, List.getElem?_concat_length .., List.mem_cons_self⟩
    · cases hk
      exact Nat.ne_of_lt (List.getElem?_eq_some_iff.mp (h.loopCall l hl).1).1
    · intro z hz hsome
      rcases mem_sending_snoc hz with hz | rfl
      · exact .inl ((h.flight z hz hsome).resolve_right (fun hc => by cases hc))
      · exact .inr rfl
    · intro m hm hdue
      have hdue : x.Due none history m := by
        refine hdue.imp_right fun ⟨⟨q, hq⟩, hret⟩ => ⟨?_, fun k hk => by cases hk⟩
        rcases List.mem_cons.mp hq with hq | hq
        · -- its send has not returned
          cases hq
          obtain ⟨c, hc, hk⟩ := hret _ rfl
          exact absurd hk (Nat.ne_of_lt (hcons.number_lt (hcons.returned_subset hc)))
        · exact ⟨q, hq⟩
      rcases h.told m hm hdue with ⟨q, hlast, hfrom⟩ | ⟨l, hl, hvia, w, hw, hnum⟩
      · exact .inl ⟨q, hlast, hfrom.imp_right (List.mem_cons_of_mem _)⟩
      · exact .inr ⟨l, hl, hvia, w, List.mem_append_left _ hw, hnum⟩

theorem Lists.synced {n k : Nat} (h : Lists x loop (some (n, k)) history) (hcons : Conserved x)
    (hret : ∃ c ∈ x.returned, c.number = k) : Lists x loop none history where
  plain := h.plain
  loopCall := h.loopCall
  syncCall _ _ hs := by cases hs
  apart _ _ _ _ hs := by cases hs
  flight z hz hsome := by
    refine .inl ((h.flight z hz hsome).resolve_right fun hs => ?_)
    obtain ⟨c, hc, hck⟩ := hret
    have hk : k = z.call.number := (Prod.mk.inj (Option.some.inj hs)).2
    cases hf : z.flush with
    | false => exact hcons.number_ne hz hf hc (hck.trans hk)
    | true =>
      rw [h.plain _ (hcons.mem_of_sending hz) (hcons.durable_of_flush hz hf)] at hsome
      cases hsome
  told m hm hdue := by
    refine h.told m hm (hdue.imp_right fun hfound => ⟨hfound.1, fun j hj => ?_⟩)
    cases hj
    exact hret

theorem Lists.sends {phase : Phase} {printers : List SyncedPrinter}
    (h : Lists x none phase.syncSend history)
    (hphase : ∀ n k, phase.syncSend = some (n, k) → x.socket = some n)
    (hstep : Step x (.send (.printersSync printers) false) y) :
    Lists y (some ⟨x.socket, x.calls.length, printers⟩) phase.syncSend
      (history.send phase x.socket printers) := by
  have hkept : ∀ {n : Nat} {q : List SyncedPrinter} {k : Nat}, phase.syncSend = some (n, k) →
      (n, q) ∈ history.found → (n, q) ∈ (history.send phase x.socket printers).found := by
    intro n q k hk hq
    refine List.mem_filter.mpr ⟨hq, ?_⟩
    rw [hk]
    exact decide_eq_true rfl
  have hsync : ∀ {n : Nat} {q : List SyncedPrinter},
      (n, q) ∈ (history.send phase x.socket printers).found → x.socket = some n := by
    intro n q hq
    obtain ⟨⟨m, k⟩, hk, hm⟩ := Option.any_eq_true _ _ |>.mp (List.mem_filter.mp hq).2
    exact (of_decide_eq_true hm : m = n) ▸ hphase m k hk
  have hfound : ∀ n k, phase.syncSend = some (n, k) → ∃ q,
      (x.calls ++ [⟨x.calls.length, .printersSync printers, false⟩])[k]?
        = some ⟨k, .printersSync q, false⟩ ∧ (n, q) ∈ (history.send phase x.socket printers).found := by
    intro n k hk
    obtain ⟨q, hcall, hq⟩ := h.syncCall n k hk
    exact ⟨q, call_append hcall, hkept hk hq⟩
  have hapart : ∀ n k, phase.syncSend = some (n, k) → x.calls.length ≠ k := by
    intro n k hk
    obtain ⟨q, hcall, -⟩ := h.syncCall n k hk
    exact Nat.ne_of_gt (List.getElem?_eq_some_iff.mp hcall).1
  have hflight : ∀ z ∈ x.sending, z.call.message.printers.isSome = true →
      phase.syncSend = some (z.conn, z.call.number) :=
    fun z hz hsome => (h.flight z hz hsome).resolve_left fun ⟨l, hl, _⟩ => by cases hl
  have hloop : ∀ l : LoopSend, some ⟨x.socket, x.calls.length, printers⟩ = some l →
      (x.calls ++ [⟨x.calls.length, .printersSync printers, false⟩])[l.number]?
        = some ⟨l.number, .printersSync l.printers, false⟩ ∧
      (history.send phase x.socket printers).lastSend = l.via.map fun n => (n, l.printers) := by
    rintro l hl
    cases hl
    exact ⟨List.getElem?_concat_length .., rfl⟩
  cases hstep with
  | sendOver message durable hs =>
    rename_i conn
    refine ⟨plain_snoc h.plain rfl, hloop, hfound, fun l n k hl hk => ?_, ?_, ?_⟩
    · cases hl
      exact hapart n k hk
    · intro z hz hsome
      rcases mem_sending_snoc hz with hz | rfl
      · exact .inr (hflight z hz hsome)
      · exact .inl ⟨_, rfl, rfl, hs⟩
    · -- the send of the loop goes on
      intro n _ hdue
      refine .inr ⟨_, rfl, ?_, _, List.mem_append_right _ List.mem_cons_self, rfl⟩
      rcases hdue with ⟨q, hlast⟩ | ⟨⟨q, hq⟩, -⟩
      · obtain ⟨m, hm, hpair⟩ := Option.map_eq_some_iff.mp hlast
        cases hpair
        exact hm
      · exact hsync hq
  | sendNowhere message durable hs =>
    refine ⟨plain_snoc h.plain rfl, hloop, hfound, fun l n k hl hk => ?_, ?_, ?_⟩
    · cases hl
      exact hapart n k hk
    · exact fun z hz hsome => .inr (hflight z hz hsome)
    · rintro n - (⟨q, hlast⟩ | ⟨⟨q, hq⟩, -⟩)
      · obtain ⟨m, hm, -⟩ := Option.map_eq_some_iff.mp hlast
        rw [hs] at hm
        cases hm
      · have hno := hsync hq
        rw [hs] at hno
        cases hno

theorem Lists.sent {l : LoopSend} (h : Lists x (some l) sync history)
    (hnone : ∀ z ∈ x.sending, z.call.number ≠ l.number) : Lists x none sync history where
  plain := h.plain
  loopCall _ hl := by cases hl
  syncCall := h.syncCall
  apart _ _ _ hl := by cases hl
  flight z hz hsome := by
    refine .inr ((h.flight z hz hsome).resolve_left ?_)
    rintro ⟨l', hl, hn, -⟩
    cases hl
    exact hnone z hz hn.symm
  told n hn hdue := by
    refine .inl ((h.told n hn hdue).resolve_right ?_)
    rintro ⟨l', hl, -, z, hz, hnum⟩
    cases hl
    exact hnone z hz hnum

theorem Lists.told_of_due {n : Nat} (h : Lists x none sync history) (hn : n ∉ x.closed)
    (hdue : x.Due sync history n) : x.Told history n :=
  (h.told n hn hdue).resolve_right fun ⟨_, hl, _⟩ => by cases hl

end Mail

namespace Client
variable {limits : Limits} {validate : InboundModel → Value → Except Exc (InboundHubMessage Str)}
  {s s' : Client} {a : ClientAct}

/-- what a step does to `sync_now` -/
inductive SyncStep (s : Client) : ClientAct → Client → Prop
  | stays {a : ClientAct} {s' : Client} (hp : s'.phase.syncSend = s.phase.syncSend)
      (hh : ∀ history : SyncHistory, history.note s.phase a = history)
      (hb : ∀ printers, a ≠ .discovered (some printers)) : SyncStep s a s'
  | discovers {conn : Nat} {s' : Client} (printers : List DiscoveredPrinter) (hp : s.phase = .discovering conn)
      (hp' : s'.phase = .syncSending conn s.calls.length) : SyncStep s (.discovered (some printers)) s'
  | returns {conn number : Nat} (hp : s.phase = .syncSending conn number)
      (hr : s.returned.any (·.number = number) = true) : SyncStep s .synced (s.setPhase (.receiving conn))

theorem syncSend_flushGoesOn (flush : Bool) (phase : Phase) :
    (flushGoesOn flush phase).syncSend = phase.syncSend := by
  cases phase with
  | flushSending conn intervalMs pending => cases flush <;> rfl
  | _ => rfl

theorem syncStep_of_step (hsound : s.Sound) (h : Step limits validate s a s') : SyncStep s a s' := by
  cases h with
  | discovered printers hp => exact .discovers printers hp (send_phase _ _ _).1
  | synced hp hr => exact .returns hp hr
  | sendEnds hi =>
    rename_i i x
    refine .stays ?_ (fun _ => rfl) fun _ ha => by cases ha
    cases ho : s.isOpen x.conn with
    | true =>
      rw [sendEnds_open (by exact ho)]
      exact syncSend_flushGoesOn _ _
    | false =>
      rw [sendEnds_closed (by exact ho)]
      exact syncSend_flushGoesOn _ _
  | send message durable =>
    exact .stays (by rw [(send_phase _ _ _).1]) (fun _ => rfl) fun _ ha => by cases ha
  | flushNext hp =>
    rw [beginSend_over _ true (hsound.socket _ (by rw [hp]; rfl))]
    exact .stays (by rw [hp]; rfl) (fun _ => rfl) fun _ ha => by cases ha
  | iterate hp =>
    refine .stays ?_ (fun _ => rfl) fun _ ha => by cases ha
    rw [hp]
    show (if s.stopped then Phase.returned else .connecting).syncSend = none
    split <;> rfl
  | disconnected statusRaises hp =>
    rename_i exc
    refine .stays ?_ (fun _ => rfl) fun _ ha => by cases ha
    rw [hp]
    rcases disconnected_phase s exc statusRaises with ⟨e, he⟩ | ⟨he, -⟩ | he <;> rw [he] <;> rfl
  | stop | drop _ | receiveDrops _ => exact .stays rfl (fun _ => rfl) fun _ ha => by cases ha
  | discoveryFails hp => exact .stays (by rw [hp]; rfl) (fun _ => rfl) fun _ ha => by cases ha
  | connect hp | connectRaises _ hp | authSent hp _ | authSendRaises hp | replyRaises hp _
  | authenticated hp _ | rejected hp _ | noReply _ hp | intervalOverflows _ hp _ | statusRaises _ hp
  | flushed hp | receiveRaises hp _ | receive hp _ | handled hp | handlerRaises hp _ | ends _ hp
  | backoffEnds hp => exact .stays (by rw [hp]; rfl) (fun _ => rfl) fun _ ha => by cases ha

theorem no_list_of_seen {message : OutboundAgentMessage} {durable : Bool}
    (ha : a.sendsPrinters = false) (hb : ∀ printers, a ≠ .discovered (some printers))
    (hseen : seenByMail limits validate s a = some (.send message durable)) :
    message.printers = none := by
  cases a with
  | reply raw =>
    simp only [seenByMail] at hseen
    split at hseen <;> cases hseen
  | connect raises => cases raises <;> cases hseen
  | discovered printers =>
    cases printers with
    | none => cases hseen
    | some printers => exact absurd rfl (hb printers)
  | send m d =>
    cases hseen
    exact Option.not_isSome_iff_eq_none.mp (Bool.eq_false_iff.mp ha)
  | _ => cases hseen

end Client

namespace PrinterSync
variable {φ : Type} {fingerprint : List SyncedPrinter → φ} {s s' : PrinterSync φ}

/-- a tick is over whose list is the last one on the connection -/
def Fresh (s : PrinterSync φ) : Prop :=
  ∀ conn printers, s.tick = .ticked (some conn) printers → s.client.socket = some conn →
    s.client.isOpen conn = true → lastSync s.client.frames conn = some printers

/-- what is so wherever the loop stands -/
structure Sound (fingerprint : List SyncedPrinter → φ) (s : PrinterSync φ) : Prop where
  client : s.client.Sound
  conserved : Mail.Conserved s.client.mail
  lists : Mail.Lists s.client.mail s.tick.loopSend s.client.phase.syncSend s.history
  stayed : ∀ n via number printers, s.tick = .sending (some n) via number printers → via = some n
  remembered : s.tick.loopSend = none → ∀ n printers, s.history.lastSend = some (n, printers) →
    s.lastSent = none ∨ s.lastSent = some (fingerprint printers)
  fresh : Fresh s

theorem Sound.init : Sound fingerprint init where
  client := Client.Sound.init
  conserved := Mail.Conserved.init
  lists := Mail.Lists.init
  stayed := fun _ _ _ _ ht => (by cases ht)
  remembered := fun _ _ _ hl => (by cases hl)
  fresh := fun _ _ ht => (by cases ht)

theorem Sound.moves {tick : Tick} (h : Sound fingerprint s) (ht : s.tick.loopSend = none)
    (ht' : tick.loopSend = none) (hfresh : Fresh { s with tick := tick }) :
    Sound fingerprint { s with tick := tick } := by
  refine ⟨h.client, h.conserved, ?_, fun n via number printers hs => ?_, fun _ => h.remembered ht, hfresh⟩
  · have hlists := h.lists
    rw [ht] at hlists
    show Mail.Lists _ tick.loopSend _ _
    rw [ht']
    exact hlists
  · have hs : tick = .sending (some n) via number printers := hs
    rw [hs] at ht'
    cases ht'

theorem Sound.socket_of_syncSend (h : Sound fingerprint s) {n k : Nat}
    (hs : s.client.phase.syncSend = some (n, k)) : s.client.socket = some n := by
  refine h.client.socket n ?_
  generalize s.client.phase = phase at hs
  cases phase <;> cases hs
  rfl

theorem Sound.sends_list {conn : Option Nat} {printers : List DiscoveredPrinter} (h : Sound fingerprint s)
    (ht : s.tick.loopSend = none) :
    Sound fingerprint { s with
      client := s.client.send (buildSyncMessage printers) false
      tick := .sending (s.stayed conn) s.client.socket s.client.calls.length
        (printers.map DiscoveredPrinter.toSynced)
      history := s.history.send s.client.phase s.client.socket (printers.map DiscoveredPrinter.toSynced) } := by
  have hmail := Client.mail_send (s := s.client) (buildSyncMessage printers) false
  have hlists := h.lists
  rw [ht] at hlists
  refine ⟨h.client.of_send _ _, h.conserved.step hmail, ?_, ?_, (fun hc => by cases hc),
    fun _ _ hc => Tick.noConfusion hc⟩
  · show Mail.Lists _ (some ⟨s.client.socket, s.client.calls.length, _⟩)
      (s.client.send (buildSyncMessage printers) false).phase.syncSend _
    rw [(Client.send_phase _ _ _).1]
    exact hlists.sends (fun n k hk => h.socket_of_syncSend hk) hmail
  · intro n via number q hq
    obtain ⟨hstayed, rfl, -⟩ := Tick.sending.inj hq
    unfold PrinterSync.stayed at hstayed
    split at hstayed
    · rename_i hsock
      exact hsock.trans hstayed
    · cases hstayed

/-- the list on the connection is the one that `sync_now` and the loop agree on -/
theorem eq_of_told {n : Nat} {printers : List SyncedPrinter} (htold : Mail.Told s.client.mail s.history n)
    (hloop : ∀ q, s.history.lastSend = some (n, q) → q = printers)
    (hagrees : s.history.agrees n printers = true) : lastSync s.client.frames n = some printers := by
  obtain ⟨q, hlast, hfrom⟩ := htold
  refine hlast.trans (congrArg some ?_)
  rcases hfrom with hfrom | hfrom
  · exact hloop q hfrom
  · simpa using List.all_eq_true.mp hagrees _ hfrom

variable {limits : Limits} {validate : InboundModel → Value → Except Exc (InboundHubMessage Str)}

theorem Sound.client_step {client : Client} {a : ClientAct} (h : Sound fingerprint s)
    (ha : a.sendsPrinters = false) (hstep : s.client.step limits validate a = some client)
    (ht : ∀ conn printers, s.tick ≠ .ticked conn printers) :
    Sound fingerprint { s with client := client, history := s.history.note s.client.phase a } := by
  have hcases := Client.step_cases hstep
  have hsound : client.Sound := h.client.step hcases
  have hview := Client.client_shows_mail limits validate s.client a client h.client hstep
  have hfresh : Fresh { s with client := client, history := s.history.note s.client.phase a } :=
    fun _ _ hc => absurd hc (ht _ _)
  have hconserved : Mail.Conserved client.mail := by
    cases hb : Client.seenByMail limits validate s.client a with
    | none =>
      rw [hb] at hview
      exact (hview : client.mail = s.client.mail) ▸ h.conserved
    | some b =>
      rw [hb] at hview
      exact h.conserved.step hview
  cases Client.syncStep_of_step h.client hcases with
  | stays hp hh hb =>
    rw [hh]
    refine ⟨hsound, hconserved, ?_, h.stayed, h.remembered, by rw [hh] at hfresh; exact hfresh⟩
    show Mail.Lists client.mail s.tick.loopSend client.phase.syncSend s.history
    rw [hp]
    cases hseen : Client.seenByMail limits validate s.client a with
    | none =>
      rw [hseen] at hview
      exact (hview : client.mail = s.client.mail) ▸ h.lists
    | some b =>
      rw [hseen] at hview
      refine h.lists.step h.conserved (fun message durable hm => ?_) hview
      subst hm
      exact Client.no_list_of_seen ha hb hseen
  | discovers printers hp hp' =>
    have hseen : Client.seenByMail limits validate s.client (.discovered (some printers))
        = some (.send (buildSyncMessage printers) false) := rfl
    rw [hseen] at hview
    rename_i conn
    have hlists := h.lists
    rw [hp] at hlists
    refine ⟨hsound, hconserved, ?_, h.stayed, fun ht n q hq => ?_, hfresh⟩
    · show Mail.Lists client.mail s.tick.loopSend client.phase.syncSend
        (s.history.note s.client.phase (.discovered (some printers)))
      rw [hp', hp]
      exact hlists.discovered h.conserved (h.client.socket conn (by rw [hp]; rfl)) hview
    · rw [hp] at hq
      exact h.remembered ht n q hq
  | returns hp hr =>
    have hmail : (s.client.setPhase _).mail = s.client.mail := hview
    obtain ⟨c, hc, hnum⟩ := List.any_eq_true.mp hr
    have hlists := h.lists
    rw [hp] at hlists
    refine ⟨hsound, hconserved, ?_, h.stayed, h.remembered, hfresh⟩
    show Mail.Lists (s.client.setPhase _).mail s.tick.loopSend none s.history
    rw [hmail]
    exact hlists.synced h.conserved ⟨c, hc, of_decide_eq_true hnum⟩

variable [DecidableEq φ]

theorem Sound.sent {conn via : Option Nat} {number : Nat} {printers : List SyncedPrinter} {now : ℚ}
    (h : Sound fingerprint s) (ht : s.tick = .sending conn via number printers)
    (hnone : ∀ z ∈ s.client.sending, z.call.number ≠ number)
    (hok : s.keepsFresh fingerprint (.sent now) = true) :
    Sound fingerprint { s with
      tick := .ticked conn printers
      lastSent := some (fingerprint printers)
      lastSentAt := now } := by
  have hlists := h.lists
  rw [ht] at hlists
  have hlast := (hlists.loopCall _ rfl).2
  refine ⟨h.client, h.conserved, hlists.sent hnone, fun _ _ _ _ hc => Tick.noConfusion hc, ?_, ?_⟩
  · intro _ n q hq
    have hq : s.history.lastSend = some (n, q) := hq
    rw [hlast] at hq
    obtain ⟨m, -, hm⟩ := Option.map_eq_some_iff.mp hq
    cases hm
    exact .inr rfl
  · intro n q hq hsock hopen
    obtain ⟨rfl, rfl⟩ := Tick.ticked.inj hq
    have hvia := h.stayed _ _ _ _ ht
    have hlast : s.history.lastSend = some (n, printers) := by
      rw [hlast, hvia]
      rfl
    have hclosed : n ∉ s.client.closed := by simpa [Client.isOpen] using hopen
    refine eq_of_told (s := s) ((hlists.sent hnone).told_of_due hclosed (.inl ⟨_, hlast⟩)) ?_ ?_
    · intro q hq
      rw [hlast] at hq
      cases hq
      rfl
    · simpa [keepsFresh, ht] using hok

/-- the list has not changed -/
theorem Sound.skips {conn : Option Nat} {printers : List DiscoveredPrinter} {now : ℚ}
    (hfp : Function.Injective fingerprint) (h : Sound fingerprint s) (ht : s.tick.loopSend = none)
    (hskip : s.skips fingerprint (printers.map DiscoveredPrinter.toSynced) now = true)
    (hok : s.keepsFresh fingerprint (.found (some printers) now) = true) :
    Sound fingerprint { s with
      tick := .ticked (s.stayed conn) (printers.map DiscoveredPrinter.toSynced) } := by
  have hlists := h.lists
  rw [ht] at hlists
  refine h.moves ht rfl ?_
  intro n q hq hsock hopen
  obtain ⟨-, rfl⟩ := Tick.ticked.inj hq
  have hsock : s.client.socket = some n := hsock
  have hclosed : n ∉ s.client.closed := by
    have hopen : s.client.isOpen n = true := hopen
    simpa [Client.isOpen] using hopen
  simp only [keepsFresh, hskip, hsock, Bool.not_true, Bool.false_or, Option.all_some, Bool.and_eq_true,
    Bool.or_eq_true] at hok
  obtain ⟨hagrees, hdue⟩ := hok
  refine eq_of_told (s := s) (hlists.told_of_due hclosed ?_) ?_ hagrees
  · rcases hdue with hsent | ⟨hfound, hthrough⟩
    · obtain ⟨⟨m, q⟩, hlast, hm⟩ := Option.any_eq_true _ _ |>.mp hsent
      exact .inl ⟨q, (of_decide_eq_true hm : m = n) ▸ hlast⟩
    · obtain ⟨⟨m, q⟩, hmem, hm⟩ := List.any_eq_true.mp hfound
      refine .inr ⟨⟨q, (of_decide_eq_true hm : m = n) ▸ hmem⟩, fun k hk => ?_⟩
      rw [Option.isNone_iff_eq_none.mp hthrough] at hk
      cases hk
  · -- what the loop remembers is what it sent last
    intro q hq
    simp only [PrinterSync.skips, Bool.and_eq_true, decide_eq_true_eq] at hskip
    rcases h.remembered ht n q hq with hnone | hsome
    · rw [hnone] at hskip
      cases hskip.1
    · rw [hsome] at hskip
      exact (hfp (Option.some.inj hskip.1)).symm

theorem Sound.step {a : SyncAct} (hfp : Function.Injective fingerprint) (h : Sound fingerprint s)
    (hok : s.keepsFresh fingerprint a = true)
    (hstep : s.step fingerprint limits validate a = some s') : Sound fingerprint s' := by
  cases a with
  | client b =>
    have hticked : ∀ conn printers, s.tick ≠ .ticked conn printers := by
      intro conn printers ht
      rw [PrinterSync.step, ht] at hstep
      cases hstep
    have hstep' : (if b.sendsPrinters then none
        else (s.client.step limits validate b).map fun client =>
          { s with client := client, history := s.history.note s.client.phase b }) = some s' := by
      rw [PrinterSync.step] at hstep
      split at hstep
      · cases hstep
      · exact hstep
    split at hstep'
    · cases hstep'
    · rename_i hb
      obtain ⟨client, hc, rfl⟩ := Option.map_eq_some_iff.mp hstep'
      exact h.client_step (Bool.eq_false_iff.mpr hb) hc hticked
  | wake =>
    rw [PrinterSync.step] at hstep
    split at hstep
    · rename_i ht
      have hnone : s.tick.loopSend = none := by rw [ht]; rfl
      split at hstep
      · cases hstep
        exact h.moves hnone rfl fun _ _ hc => Tick.noConfusion hc
      · split at hstep <;> cases hstep
        · exact h.moves hnone rfl fun _ _ hc => Tick.noConfusion hc
        · show Sound fingerprint { s with lastSent := none }
          exact ⟨h.client, h.conserved, h.lists, h.stayed, fun _ _ _ _ => .inl rfl, h.fresh⟩
    · cases hstep
  | found printers now =>
    rw [PrinterSync.step] at hstep
    split at hstep
    · rename_i conn ht
      have hnone : s.tick.loopSend = none := by rw [ht]; rfl
      cases printers with
      | none =>
        cases hstep
        exact h.moves hnone rfl fun _ _ hc => Tick.noConfusion hc
      | some printers =>
        cases hskip : s.skips fingerprint (printers.map DiscoveredPrinter.toSynced) now with
        | true =>
          simp only [hskip, if_true] at hstep
          cases hstep
          exact h.skips hfp hnone hskip hok
        | false =>
          simp only [hskip, Bool.false_eq_true, if_false] at hstep
          cases hstep
          exact h.sends_list hnone
    · cases hstep
  | sent now =>
    rw [PrinterSync.step] at hstep
    split at hstep
    · rename_i conn via number printers ht
      split at hstep
      · cases hstep
      · rename_i hnone
        cases hstep
        refine h.sent ht (fun z hz hnum => hnone ?_) hok
        exact List.any_eq_true.mpr ⟨z, hz, decide_eq_true hnum⟩
    · cases hstep
  | rest =>
    rw [PrinterSync.step] at hstep
    split at hstep
    · rename_i ht
      cases hstep
      exact h.moves (by rw [ht]; rfl) rfl fun _ _ hc => Tick.noConfusion hc
    · cases hstep

variable (limits validate)

/-- **After a tick the hub has the list.**  Where the client stayed connected and the printers were
discovered, they are what was written last on the connection. -/
theorem printers_fresh (hfp : Function.Injective fingerprint) {conn : Nat}
    {printers : List SyncedPrinter}
    (h : (printerSync fingerprint limits validate).Reach
      (fun s a => s.keepsFresh fingerprint a = true) s)
    (ht : s.tick = .ticked (some conn) printers) (hsock : s.client.socket = some conn)
    (hopen : s.client.isOpen conn = true) : lastSync s.client.frames conn = some printers :=
  have hsound : Sound fingerprint s := h.invariant Sound.init fun _ _ _ _ hs ok hstep => hs.step hfp ok hstep
  hsound.fresh conn printers ht hsock hopen

namespace Schedule

/-- two ticks find the printer ready: the first one sends it, the second one leaves it out -/
def unchanged : List SyncAct :=
  connects [outOfPaper] ++
  [.wake, .found (some [ready]) 1000, .client (.sendEnds 0), .sent 1000, .rest,
    .wake, .found (some [ready]) 1060]

theorem unchanged_isSome :
    ((printerSync id Client.Schedule.limits Client.Schedule.validate).run init unchanged).isSome
      = true := by
  decide +kernel

/-- the printer is out of paper while the client reconnects, and ready again at the next tick -/
def changesBack : List SyncAct :=
  connects [ready] ++
  [.wake, .found (some [ready]) 1000, .client (.sendEnds 0), .sent 1000, .rest,
    .client (.ends false), .client (.disconnected none), .client .backoffEnds] ++
  connects [outOfPaper] ++ [.wake, .found (some [ready]) 1060]

/-- a tick has found the printer ready, and the client stayed connected -/
def readyOn (conn : Nat) (s : PrinterSync (List SyncedPrinter)) : Bool :=
  decide (s.tick = .ticked (some conn) [ready.toSynced]) &&
    (decide (s.client.socket = some conn) && s.client.isOpen conn)

def toldOutOfPaper (conn : Nat) (s : PrinterSync (List SyncedPrinter)) : Bool :=
  lastSync s.client.frames conn = some [outOfPaper.toSynced]

theorem changesBack_isSome :
    ((printerSync id Client.Schedule.limits Client.Schedule.validate).run init changesBack).isSome
      = true := by
  decide +kernel

end Schedule

theorem printers_fresh_unchanged :
    let s := (printerSync id Client.Schedule.limits Client.Schedule.validate).after Schedule.unchanged
      Schedule.unchanged_isSome
    lastSync s.client.frames 0 = some [Schedule.ready.toSynced] := by
  intro s
  have hs : Schedule.readyOn 0 s = true := Machine.any_after Schedule.unchanged_isSome (by decide +kernel)
  simp only [Schedule.readyOn, Bool.and_eq_true, decide_eq_true_eq] at hs
  obtain ⟨ht, hsock, hopen⟩ := hs
  exact printers_fresh Client.Schedule.limits Client.Schedule.validate Function.injective_id
    (.of_obeys Schedule.unchanged Schedule.unchanged_isSome (by decide +kernel)) ht hsock hopen

/-- the hub is left with a printer that is out of paper -/
theorem printers_stale :
    ¬ ∀ (s : PrinterSync (List SyncedPrinter)) (conn : Nat) (printers : List SyncedPrinter),
      (printerSync id Client.Schedule.limits Client.Schedule.validate).Reach Machine.Any s →
      s.tick = .ticked (some conn) printers → s.client.socket = some conn →
      s.client.isOpen conn = true → lastSync s.client.frames conn = some printers := by
  intro h
  have hs : (Schedule.readyOn 1 _ && Schedule.toldOutOfPaper 1 _) = true :=
    Machine.any_after (p := fun s => Schedule.readyOn 1 s && Schedule.toldOutOfPaper 1 s)
      Schedule.changesBack_isSome (by decide +kernel)
  simp only [Schedule.readyOn, Schedule.toldOutOfPaper, Bool.and_eq_true, decide_eq_true_eq] at hs
  obtain ⟨⟨ht, hsock, hopen⟩, hlast⟩ := hs
  have hfresh := h _ _ _ (.after Schedule.changesBack Schedule.changesBack_isSome) ht hsock hopen
  rw [hlast] at hfresh
  revert hfresh
  decide

end PrinterSync

end PrintAgent
