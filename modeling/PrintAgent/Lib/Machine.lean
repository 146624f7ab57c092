import Mathlib.Data.List.Induction

/-!
# Machines with labelled steps

A machine is an initial state and a partial step function; a label carries every choice the
environment has (which party moves, what a call answers, how a race ends), so that one list of
labels is one schedule.

* `Machine.Path C`   a run whose every step satisfies the condition `C` on the state before the
                     step and on the label (`C` true everywhere: any run);
* `Path.invariant`   an invariant that every step keeps holds at the end of a run
                     (`Path.invariant_schedule`: one of the schedule so far);
* `Reach C`          the states such runs reach from the initial state;
* `Shows`            the machine seen through a view: each step is a step of a smaller relation
                     on the view, or leaves the view alone; `Reach.invariant_view` carries an
                     invariant of the smaller relation to every reachable state;
* `run_invariant`    an invariant of the schedule so far, together with the state;
* `Path.count_le`    the steps that use up a rank are bounded by it;
* `Reach.of_obeys`   a state that a schedule reaches, when the condition is computed along it;
* `Path.related`     two runs stay related if every step keeps them so, where the second one may
                     leave out some of the steps.
-/

universe u v w x

structure Machine (σ : Type u) (α : Type v) where
  init : σ
  step : σ → α → Option σ

namespace Machine
variable {σ : Type u} {α : Type v} (M : Machine σ α)

/-- the state after a schedule, `none` where one of its steps is not possible -/
def run : σ → List α → Option σ
  | s, [] => some s
  | s, a :: as => (M.step s a).bind fun s' => run s' as

@[simp] theorem run_nil (s : σ) : M.run s [] = some s := rfl

theorem run_cons (s : σ) (a : α) (as : List α) :
    M.run s (a :: as) = (M.step s a).bind fun s' => M.run s' as := rfl

theorem run_append (s : σ) (as bs : List α) :
    M.run s (as ++ bs) = (M.run s as).bind fun s' => M.run s' bs := by
  induction as generalizing s with
  | nil => rfl
  | cons a as ih =>
    rw [List.cons_append, run_cons, run_cons, Option.bind_assoc]
    congr 1
    funext s'
    exact ih s'

theorem run_cons_eq_some {s s'' : σ} {a : α} {as : List α} :
    M.run s (a :: as) = some s'' ↔ ∃ s', M.step s a = some s' ∧ M.run s' as = some s'' := by
  rw [run_cons, Option.bind_eq_some_iff]

/-- a run from `s` under the schedule, each step of which satisfies `C` -/
inductive Path (C : σ → α → Prop) : σ → List α → σ → Prop
  | nil (s : σ) : Path C s [] s
  | cons {s s' s'' : σ} {a : α} {as : List α} (step : M.step s a = some s') (ok : C s a)
      (rest : Path C s' as s'') : Path C s (a :: as) s''

/-- the condition that every step satisfies -/
def Any : σ → α → Prop := fun _ _ => True

/-- the states that runs under `C` reach from the initial state -/
def Reach (C : σ → α → Prop) (s : σ) : Prop := ∃ as, M.Path C M.init as s

variable {M} {C D : σ → α → Prop}

theorem Path.run {s s' : σ} {as : List α} (h : M.Path C s as s') : M.run s as = some s' := by
  induction h with
  | nil _ => rfl
  | cons step _ _ ih => exact M.run_cons_eq_some.mpr ⟨_, step, ih⟩

theorem Path.of_run {s s' : σ} {as : List α} (h : M.run s as = some s') : M.Path Any s as s' := by
  induction as generalizing s with
  | nil => cases h; exact .nil _
  | cons a as ih =>
    obtain ⟨t, hstep, hrest⟩ := M.run_cons_eq_some.mp h
    exact .cons hstep trivial (ih hrest)

/-- a condition on the labels alone is one on the schedule -/
theorem Path.of_labels {c : α → Prop} {s s' : σ} {as : List α} (h : M.run s as = some s')
    (hc : ∀ a ∈ as, c a) : M.Path (fun _ a => c a) s as s' := by
  induction as generalizing s with
  | nil => cases h; exact .nil _
  | cons a as ih =>
    obtain ⟨t, hstep, hrest⟩ := M.run_cons_eq_some.mp h
    exact .cons hstep (hc a List.mem_cons_self) (ih hrest fun b hb => hc b (List.mem_cons_of_mem a hb))

theorem Path.mono {s s' : σ} {as : List α} (h : M.Path C s as s') (hCD : ∀ s a, C s a → D s a) :
    M.Path D s as s' := by
  induction h with
  | nil s => exact .nil s
  | cons step ok _ ih => exact .cons step (hCD _ _ ok) ih

theorem Path.append {s s' s'' : σ} {as bs : List α} (h : M.Path C s as s')
    (h' : M.Path C s' bs s'') : M.Path C s (as ++ bs) s'' := by
  induction h with
  | nil s => exact h'
  | cons step ok _ ih => exact .cons step ok (ih h')

theorem Path.single {s s' : σ} {a : α} (step : M.step s a = some s') (ok : C s a) :
    M.Path C s [a] s' := .cons step ok (.nil s')

/-- **The rule for invariants of runs.** -/
theorem Path.invariant {I : σ → Prop} (hstep : ∀ s a s', I s → C s a → M.step s a = some s' → I s')
    {s s' : σ} {as : List α} (h : M.Path C s as s') (hs : I s) : I s' := by
  induction h with
  | nil s => exact hs
  | cons step ok _ ih => exact ih (hstep _ _ _ hs ok step)

/-- **The same with the schedule so far.** -/
theorem Path.invariant_schedule {I : List α → σ → Prop}
    (hstep : ∀ as s a s', I as s → C s a → M.step s a = some s' → I (as ++ [a]) s')
    {s s' : σ} {before as : List α} (h : M.Path C s as s') (hs : I before s) : I (before ++ as) s' := by
  induction h generalizing before with
  | nil s =>
    rw [List.append_nil]
    exact hs
  | cons step ok _ ih =>
    rw [List.append_cons]
    exact ih (hstep _ _ _ _ hs ok step)

theorem Reach.init : M.Reach C M.init := ⟨[], .nil _⟩

theorem Reach.mono {s : σ} (h : M.Reach C s) (hCD : ∀ s a, C s a → D s a) : M.Reach D s := by
  obtain ⟨as, h⟩ := h
  exact ⟨as, h.mono hCD⟩

theorem Reach.any {s : σ} (h : M.Reach C s) : M.Reach Any s := h.mono fun _ _ _ => trivial

theorem Reach.path {s s' : σ} {as : List α} (h : M.Reach C s) (hp : M.Path C s as s') :
    M.Reach C s' := by
  obtain ⟨bs, h⟩ := h
  exact ⟨bs ++ as, h.append hp⟩

theorem Reach.step {s s' : σ} {a : α} (h : M.Reach C s) (ok : C s a) (step : M.step s a = some s') :
    M.Reach C s' := h.path (.single step ok)

theorem Reach.of_run {s : σ} {as : List α} (h : M.run M.init as = some s) : M.Reach Any s :=
  ⟨as, .of_run h⟩

/-- an invariant holds in every reachable state if it holds initially and every step of a
reachable state keeps it -/
theorem Reach.invariant {I : σ → Prop} (hinit : I M.init)
    (hstep : ∀ s a s', M.Reach C s → I s → C s a → M.step s a = some s' → I s')
    {s : σ} (h : M.Reach C s) : I s := by
  obtain ⟨as, hp⟩ := h
  have both : M.Reach C s ∧ I s :=
    hp.invariant (I := fun s => M.Reach C s ∧ I s)
      (fun s a s' hs ok st => ⟨hs.1.step ok st, hstep s a s' hs.1 hs.2 ok st⟩)
      ⟨Reach.init, hinit⟩
  exact both.2

/-- **The rule for bounds on runs**: the steps that cost something use up a rank. -/
theorem Path.count_le {rank : σ → Nat} {cost : α → Bool}
    (hstep : ∀ s a s', M.Reach Any s → C s a → M.step s a = some s' → rank s' + (if cost a then 1 else 0) ≤ rank s)
    {s s' : σ} {as : List α} (hr : M.Reach Any s) (h : M.Path C s as s') : as.countP cost + rank s' ≤ rank s := by
  induction h with
  | nil s =>
    rw [List.countP_nil]
    omega
  | cons step ok _ ih =>
    have hfirst := hstep _ _ _ hr ok step
    have hrest := ih (hr.step trivial step)
    rw [List.countP_cons]
    omega

/-! ## runs with their history -/

theorem run_concat {s s'' : σ} {as : List α} {a : α} :
    M.run s (as ++ [a]) = some s'' ↔ ∃ s', M.run s as = some s' ∧ M.step s' a = some s'' := by
  rw [run_append, Option.bind_eq_some_iff]
  constructor
  · rintro ⟨s', hs', hlast⟩
    obtain ⟨t, hstep, hnil⟩ := M.run_cons_eq_some.mp hlast
    cases hnil
    exact ⟨s', hs', hstep⟩
  · rintro ⟨s', hs', hstep⟩
    exact ⟨s', hs', M.run_cons_eq_some.mpr ⟨s'', hstep, rfl⟩⟩

/-- **The rule for invariants of the schedule so far and the state that it leads to.** -/
theorem run_invariant {I : List α → σ → Prop} {s₀ : σ} (hinit : I [] s₀)
    (hstep : ∀ as s a s', M.run s₀ as = some s → I as s → M.step s a = some s' → I (as ++ [a]) s')
    {as : List α} {s : σ} (h : M.run s₀ as = some s) : I as s := by
  induction as using List.reverseRecOn generalizing s with
  | nil =>
    cases h
    exact hinit
  | append_singleton as a ih =>
    obtain ⟨t, ht, hlast⟩ := run_concat.mp h
    exact hstep as t a s ht (ih ht) hlast

/-! ## runs that are computed -/

def after (M : Machine σ α) (as : List α) (h : (M.run M.init as).isSome = true) : σ :=
  (M.run M.init as).get h

theorem run_after (as : List α) (h : (M.run M.init as).isSome = true) :
    M.run M.init as = some (M.after as h) := (Option.some_get h).symm

theorem Reach.after (as : List α) (h : (M.run M.init as).isSome = true) :
    M.Reach Any (M.after as h) := .of_run (run_after as h)

theorem any_after {p : σ → Bool} {as : List α} (h : (M.run M.init as).isSome = true)
    (hp : (M.run M.init as).any p = true) : p (M.after as h) = true := by
  rwa [run_after as h, Option.any_some] at hp

theorem run_after_append (as bs : List α) (h : (M.run M.init as).isSome = true)
    (h' : (M.run M.init (as ++ bs)).isSome = true) :
    M.run (M.after as h) bs = some (M.after (as ++ bs) h') := by
  have hrun := run_after (as ++ bs) h'
  rwa [run_append, run_after as h, Option.bind_some] at hrun

theorem step_after (as : List α) (a : α) (h : (M.run M.init as).isSome = true)
    (h' : (M.run M.init (as ++ [a])).isSome = true) :
    M.step (M.after as h) a = some (M.after (as ++ [a]) h') := by
  have hrun := run_after_append as [a] h h'
  rw [run_cons_eq_some] at hrun
  obtain ⟨s, hs, hnil⟩ := hrun
  rw [hs, ← hnil, run_nil]

/-- every step of the schedule is possible and satisfies the condition -/
def obeys (M : Machine σ α) (c : σ → α → Bool) : σ → List α → Bool
  | _, [] => true
  | s, a :: as => c s a && ((M.step s a).any fun s' => obeys M c s' as)

theorem Path.of_obeys {c : σ → α → Bool} {s s' : σ} {as : List α} (h : M.obeys c s as = true)
    (hrun : M.run s as = some s') : M.Path (fun s a => c s a = true) s as s' := by
  induction as generalizing s with
  | nil => cases hrun; exact .nil _
  | cons a as ih =>
    obtain ⟨t, hstep, hrest⟩ := M.run_cons_eq_some.mp hrun
    rw [obeys, Bool.and_eq_true, hstep, Option.any_some] at h
    exact .cons hstep h.1 (ih h.2 hrest)

/-- a computed run under a condition reaches its last state -/
theorem Reach.of_obeys {c : σ → α → Bool} (as : List α)
    (hrun : (M.run M.init as).isSome = true) (h : M.obeys c M.init as = true) :
    M.Reach (fun s a => c s a = true) (M.after as hrun) :=
  ⟨as, .of_obeys h (run_after as hrun)⟩

/-! ## a machine seen through a view -/

section View
variable {τ : Type w} {β : Type x}

/-- In the states that satisfy `U`, a step with label `a` is seen through `v` as the step of `R`
with the label `lab s a`, or leaves the view alone where `lab s a = none`. -/
def Shows (M : Machine σ α) (U : σ → Prop) (v : σ → τ) (lab : σ → α → Option β)
    (R : τ → β → τ → Prop) : Prop :=
  ∀ s a s', U s → M.step s a = some s' →
    match lab s a with
    | none => v s' = v s
    | some b => R (v s) b (v s')

/-- the condition `D` on the steps of the view, as a condition on the steps of the machine -/
def SeenAs (v : σ → τ) (lab : σ → α → Option β) (D : τ → β → Prop) : σ → α → Prop :=
  fun s a => ∀ b, lab s a = some b → D (v s) b

def seenAs (v : σ → τ) (lab : σ → α → Option β) (d : τ → β → Bool) (s : σ) (a : α) : Bool :=
  (lab s a).all (d (v s))

theorem SeenAs.of_seenAs {v : σ → τ} {lab : σ → α → Option β} {d : τ → β → Bool} {s : σ} {a : α}
    (h : seenAs v lab d s a = true) : SeenAs v lab (fun x b => d x b = true) s a := by
  intro b hb
  simpa [seenAs, hb] using h

variable {U : σ → Prop} {v : σ → τ} {lab : σ → α → Option β} {R : τ → β → τ → Prop}
  {D : τ → β → Prop} {I : τ → Prop}

/-- what the states of `U` show may be used in the steps of the view -/
theorem Shows.with {V : τ → Prop} (hv : M.Shows U v lab R) (hV : ∀ s, U s → V (v s)) :
    M.Shows U v lab fun x b y => V x ∧ R x b y := by
  intro s a s' hU hstep
  have hs := hv s a s' hU hstep
  cases hl : lab s a with
  | none =>
    rw [hl] at hs
    exact hs
  | some b =>
    rw [hl] at hs
    exact ⟨hV s hU, hs⟩

theorem Shows.step_invariant (hv : M.Shows U v lab R)
    (hI : ∀ x b y, I x → D x b → R x b y → I y) {s s' : σ} {a : α} (hU : U s)
    (hD : SeenAs v lab D s a) (hstep : M.step s a = some s') (h : I (v s)) : I (v s') := by
  have hs := hv s a s' hU hstep
  cases hl : lab s a with
  | none =>
    rw [hl] at hs
    rw [hs]
    exact h
  | some b =>
    rw [hl] at hs
    exact hI _ _ _ h (hD b hl) hs

/-- **An invariant of the view holds in every reachable state.** -/
theorem Reach.invariant_view (hv : M.Shows U v lab R) (hU : ∀ s, M.Reach Any s → U s)
    (hI : ∀ x b y, I x → D x b → R x b y → I y) (hinit : I (v M.init))
    (hC : ∀ s a, C s a → SeenAs v lab D s a) {s : σ} (h : M.Reach C s) : I (v s) :=
  h.invariant (I := fun s => I (v s)) hinit fun s a _ hr hs ok hstep =>
    hv.step_invariant hI (hU s hr.any) (hC s a ok) hstep hs

theorem Path.invariant_view (hv : M.Shows U v lab R) (hU : ∀ s, M.Reach Any s → U s)
    (hI : ∀ x b y, I x → D x b → R x b y → I y) (hC : ∀ s a, C s a → SeenAs v lab D s a)
    {s s' : σ} {as : List α} (hr : M.Reach Any s) (h : M.Path C s as s') (hs : I (v s)) :
    I (v s') := by
  have both : M.Reach Any s' ∧ I (v s') :=
    h.invariant (I := fun s => M.Reach Any s ∧ I (v s))
      (fun s a _ hs ok hstep =>
        ⟨hs.1.step trivial hstep, hv.step_invariant hI (hU s hs.1) (hC s a ok) hstep hs.2⟩)
      ⟨hr, hs⟩
  exact both.2

end View

/-! ## two runs under one schedule -/

/-- Two states stay related along a run from the first one: the second takes the steps of the
schedule that are kept, and stands still in the others. -/
theorem Path.related {Rel : σ → σ → Prop} {keep : α → Bool}
    (hstep : ∀ s t a s', M.Reach Any s → Rel s t → C s a → M.step s a = some s' →
      if keep a then ∃ t', M.step t a = some t' ∧ Rel s' t' else Rel s' t)
    {s t s' : σ} {as : List α} (hr : M.Reach Any s) (h : M.Path C s as s') (hrel : Rel s t) :
    ∃ t', M.run t (as.filter keep) = some t' ∧ Rel s' t' := by
  induction h generalizing t with
  | nil s => exact ⟨t, rfl, hrel⟩
  | cons step ok rest ih =>
    rename_i s s₁ s'' a as
    have hnext := hstep s t a s₁ hr hrel ok step
    cases hk : keep a with
    | true =>
      rw [hk, if_pos rfl] at hnext
      obtain ⟨t₁, ht₁, hrel₁⟩ := hnext
      obtain ⟨t', ht', hrel'⟩ := ih (hr.step trivial step) hrel₁
      rw [List.filter_cons_of_pos hk]
      exact ⟨t', M.run_cons_eq_some.mpr ⟨t₁, ht₁, ht'⟩, hrel'⟩
    | false =>
      rw [hk, if_neg Bool.false_ne_true] at hnext
      rw [List.filter_cons_of_neg (by simp [hk])]
      exact ih (hr.step trivial step) hnext

/-- the state after a schedule in which the labels that are not possible are passed over -/
def play (M : Machine σ α) : σ → List α → σ
  | s, [] => s
  | s, a :: as => play M ((M.step s a).getD s) as

def heeds (M : Machine σ α) (c : σ → α → Bool) : σ → List α → Bool
  | _, [] => true
  | s, a :: as => (!(M.step s a).isSome || c s a) && heeds M c ((M.step s a).getD s) as

/-- Two states stay related under every schedule if what is possible in one is possible in the
other, and leads to related states. -/
theorem play_related {Rel : σ → σ → Prop} {c : σ → α → Bool}
    (hstep : ∀ s t a s', M.Reach Any s → Rel s t → c s a = true → M.step s a = some s' →
      ∃ t', M.step t a = some t' ∧ Rel s' t')
    (hnone : ∀ s t a, M.Reach Any s → Rel s t → M.step s a = none → M.step t a = none)
    {s t : σ} {as : List α} (hr : M.Reach Any s) (hrel : Rel s t) (hc : M.heeds c s as = true) :
    Rel (M.play s as) (M.play t as) := by
  induction as generalizing s t with
  | nil => exact hrel
  | cons a as ih =>
    rw [heeds, Bool.and_eq_true] at hc
    show Rel (M.play ((M.step s a).getD s) as) (M.play ((M.step t a).getD t) as)
    cases hs : M.step s a with
    | none =>
      rw [hs] at hc
      rw [hnone s t a hr hrel hs]
      exact ih hr hrel hc.2
    | some s' =>
      rw [hs] at hc
      obtain ⟨t', ht, hrel'⟩ := hstep s t a s' hr hrel (by simpa using hc.1) hs
      rw [ht]
      exact ih (hr.step trivial hs) hrel' hc.2

end Machine
