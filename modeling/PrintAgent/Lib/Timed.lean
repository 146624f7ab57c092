import Mathlib.Order.Defs.LinearOrder
import PrintAgent.Lib.Machine

/-!
# Machines with a clock

`M.timed` is the machine `M` whose steps happen at times that never go back.  What a program keeps of the
times, its deadlines and the times it has noted, are the `notes`; `note` says what becomes of them in a step,
and `may` which steps a timer holds back.

* `of_timed_step`          what a step is: one of `M`, at a time that is not past, that no timer holds back;
* `Reach.untimed`          without the times a run is one of `M`;
* `Reach.invariant_timed`  the rule for invariants, with the step of `M` at hand.
-/

universe u v w x

/-- the state of a machine, the time, and what is noted of the times -/
structure Timed (σ : Type u) (τ : Type w) (T : Type x) where
  inner : σ
  now : T
  notes : τ

namespace Machine
variable {σ : Type u} {α : Type v} {τ : Type w} {T : Type x} [Preorder T] [DecidableLE T]
  (M : Machine σ α) (may : Timed σ τ T → T → α → Bool) (note : Timed σ τ T → σ → T → α → τ)

def timed (start : T) (notes : τ) : Machine (Timed σ τ T) (T × α) where
  init := ⟨M.init, start, notes⟩
  step s a :=
    if s.now ≤ a.1 ∧ may s a.1 a.2 = true then
      (M.step s.inner a.2).map fun inner => ⟨inner, a.1, note s inner a.1 a.2⟩
    else none

variable {M may note} {start : T} {notes : τ} {s s' : Timed σ τ T} {t : T} {a : α}

theorem of_timed_step (h : (M.timed may note start notes).step s (t, a) = some s') :
    s.now ≤ t ∧ may s t a = true ∧ ∃ inner, M.step s.inner a = some inner ∧ s' = ⟨inner, t, note s inner t a⟩ := by
  simp only [timed] at h
  split at h
  · rename_i hc
    obtain ⟨inner, hstep, rfl⟩ := Option.map_eq_some_iff.mp h
    exact ⟨hc.1, hc.2, inner, hstep, rfl⟩
  · cases h

variable {C : Timed σ τ T → T × α → Prop}

/-- **Without the times a run is one of the machine.** -/
theorem Reach.untimed (h : (M.timed may note start notes).Reach C s) : M.Reach Any s.inner :=
  h.invariant (I := fun s => M.Reach Any s.inner) Reach.init fun s a s' _ hs _ hstep => by
    obtain ⟨-, -, inner, hinner, rfl⟩ := of_timed_step (t := a.1) (a := a.2) hstep
    exact hs.step trivial hinner

/-- **The rule for invariants of runs with a clock.** -/
theorem Reach.invariant_timed {I : Timed σ τ T → Prop} (hinit : I ⟨M.init, start, notes⟩)
    (hstep : ∀ s t a inner, M.Reach Any s.inner → I s → C s (t, a) → s.now ≤ t → may s t a = true →
      M.step s.inner a = some inner → I ⟨inner, t, note s inner t a⟩)
    (h : (M.timed may note start notes).Reach C s) : I s :=
  h.invariant hinit fun s a s' hr hs ok hs' => by
    obtain ⟨hle, hmay, inner, hinner, rfl⟩ := of_timed_step (t := a.1) (a := a.2) hs'
    exact hstep s a.1 a.2 inner hr.untimed hs ok hle hmay hinner

end Machine
