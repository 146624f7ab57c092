import Mathlib.Init

/-!
# Programs that raise

The rules of a program with exceptions whose state outlives them (`ExceptT ε (StateM σ)`).

* `bind_of_ok`, `bind_of_error`   what a run of a sequence is;
* `Ends P x Q E`                  from a state in `P` the program returns with `Q`, or raises with `E`: one rule for
                                  each form a program has.
-/

namespace Raise

variable {ε σ α β : Type} {x : ExceptT ε (StateM σ) α} {s s' : σ} {a : α} {e : ε}

theorem bind_of_ok (h : x.run.run s = (.ok a, s')) (f : α → ExceptT ε (StateM σ) β) :
    (x >>= f).run.run s = (f a).run.run s' := by
  rw [ExceptT.run_bind, StateT.run_bind, h]
  rfl

theorem bind_of_error (h : x.run.run s = (.error e, s')) (f : α → ExceptT ε (StateM σ) β) :
    (x >>= f).run.run s = (.error e, s') := by
  rw [ExceptT.run_bind, StateT.run_bind, h]
  rfl

theorem tryCatch_of_ok (h : x.run.run s = (.ok a, s')) (handler : ε → ExceptT ε (StateM σ) α) :
    (tryCatch x handler).run.run s = (.ok a, s') := by
  rw [ExceptT.run_tryCatch, StateT.run_bind, h]
  rfl

theorem tryCatch_of_error (h : x.run.run s = (.error e, s')) (handler : ε → ExceptT ε (StateM σ) α) :
    (tryCatch x handler).run.run s = (handler e).run.run s' := by
  rw [ExceptT.run_tryCatch, StateT.run_bind, h]
  rfl

theorem modify_run (f : σ → σ) (s : σ) :
    (modify f : ExceptT ε (StateM σ) PUnit).run.run s = (.ok ⟨⟩, f s) := rfl

theorem get_run (s : σ) : (get : ExceptT ε (StateM σ) σ).run.run s = (.ok s, s) := rfl

/-! ## conditions before and after -/

/-- from a state in `P` the program returns with `Q`, or raises in a state in `E` -/
def Ends (P : σ → Prop) (x : ExceptT ε (StateM σ) α) (Q : α → σ → Prop) (E : σ → Prop) : Prop :=
  ∀ s s', P s → (∀ a, x.run.run s = (.ok a, s') → Q a s') ∧ (∀ e, x.run.run s = (.error e, s') → E s')

/-- the program keeps `P`, whether it raises or not -/
abbrev Keeps (P : σ → Prop) (x : ExceptT ε (StateM σ) α) : Prop := Ends P x (fun _ => P) P

namespace Ends
variable {P P' E : σ → Prop} {Q R : α → σ → Prop} {x y : ExceptT ε (StateM σ) α}

theorem of_pure (h : ∀ s, P s → Q a s) : Ends P (pure a : ExceptT ε (StateM σ) α) Q E := by
  intro s s' hs
  refine ⟨fun b hrun => ?_, fun e hrun => ?_⟩
  · cases hrun
    exact h s hs
  · cases hrun

theorem of_throw (h : ∀ s, P s → E s) : Ends P (throw e : ExceptT ε (StateM σ) α) Q E := by
  intro s s' hs
  refine ⟨fun b hrun => ?_, fun e hrun => ?_⟩
  · cases hrun
  · cases hrun
    exact h s hs

theorem of_modify {Q : PUnit → σ → Prop} {f : σ → σ} (h : ∀ s, P s → Q ⟨⟩ (f s)) :
    Ends P (modify f : ExceptT ε (StateM σ) PUnit) Q E := by
  intro s s' hs
  refine ⟨fun b hrun => ?_, fun e hrun => ?_⟩
  · cases hrun
    exact h s hs
  · cases hrun

theorem of_get {Q : σ → σ → Prop} (h : ∀ s, P s → Q s s) :
    Ends P (get : ExceptT ε (StateM σ) σ) Q E := by
  intro s s' hs
  refine ⟨fun b hrun => ?_, fun e hrun => ?_⟩
  · cases hrun
    exact h s hs
  · cases hrun

theorem seq {S : β → σ → Prop} {f : α → ExceptT ε (StateM σ) β} (hx : Ends P x R E)
    (hf : ∀ a, Ends (R a) (f a) S E) : Ends P (x >>= f) S E := by
  intro s s' hs
  rcases hrun : x.run.run s with ⟨result, t⟩
  cases result with
  | ok a =>
    rw [bind_of_ok hrun]
    exact hf a t s' ((hx s t hs).1 a hrun)
  | error e =>
    rw [bind_of_error hrun]
    refine ⟨fun b h => ?_, fun e' h => ?_⟩
    · cases h
    · cases h
      exact (hx s _ hs).2 e hrun

theorem of_ite {c : Prop} [Decidable c] (hx : c → Ends P x Q E) (hy : ¬ c → Ends P y Q E) :
    Ends P (if c then x else y) Q E := by
  by_cases h : c
  · rw [if_pos h]
    exact hx h
  · rw [if_neg h]
    exact hy h

theorem of_imp (h : Ends P x Q E) (hP : ∀ s, P' s → P s) : Ends P' x Q E :=
  fun s s' hs => h s s' (hP s hs)

theorem state (h : Ends P x (fun _ => E) E) (hs : P s) : E (x.run.run s).2 := by
  rcases hrun : x.run.run s with ⟨result, t⟩
  cases result with
  | ok a => exact (h s t hs).1 a hrun
  | error e => exact (h s t hs).2 e hrun

end Ends

end Raise
