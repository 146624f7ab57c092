import Mathlib.Data.List.GetD

/-!
# Loops over a range

`loopTo n body s` is `for k in range(n)` with a body that may raise; it is also the state after the
first `n` iterations of a longer loop.  `loopTo_invariant` is the rule for what such a loop keeps, and
`mapM_ok`, `ok_of_mapM` and `exists_mapM` are about a loop over a list that collects results.
-/

universe u v

variable {ε : Type u} {σ : Type v}

def loopTo : Nat → (σ → Nat → Except ε σ) → σ → Except ε σ
  | 0, _, s => .ok s
  | n + 1, body, s => (loopTo n body s).bind fun s => body s n

variable {body : σ → Nat → Except ε σ} {s t u : σ} {n : Nat}

@[simp] theorem loopTo_zero : loopTo 0 body s = .ok s := rfl

theorem loopTo_succ : loopTo (n + 1) body s = (loopTo n body s).bind fun s => body s n := rfl

theorem loopTo_succ_of_ok (h : loopTo n body s = .ok t) (hb : body t n = .ok u) :
    loopTo (n + 1) body s = .ok u := by
  rw [loopTo_succ, h]
  exact hb

/-- **The rule for loops**: the body does not raise where the invariant holds, and keeps it. -/
theorem loopTo_invariant {I : Nat → σ → Prop} (h : I 0 s)
    (hstep : ∀ k < n, ∀ s, I k s → ∃ s', body s k = .ok s' ∧ I (k + 1) s') :
    ∃ s', loopTo n body s = .ok s' ∧ I n s' := by
  induction n with
  | zero => exact ⟨s, rfl, h⟩
  | succ n ih =>
    obtain ⟨t, ht, hI⟩ := ih fun k hk => hstep k (Nat.lt_succ_of_lt hk)
    obtain ⟨u, hu, hI'⟩ := hstep n (Nat.lt_succ_self n) t hI
    exact ⟨u, loopTo_succ_of_ok ht hu, hI'⟩

theorem bind_eq_ok {α β : Type v} {x : Except ε α} {f : α → Except ε β} {b : β} :
    x >>= f = .ok b ↔ ∃ a, x = .ok a ∧ f a = .ok b := by
  cases x with
  | error e => exact ⟨fun h => (by cases h), fun ⟨a, h, _⟩ => (by cases h)⟩
  | ok a =>
    refine ⟨fun h => ⟨a, rfl, h⟩, fun ⟨a', h, hb⟩ => ?_⟩
    cases h
    exact hb

theorem mapM_ok {α β : Type v} {f : α → Except ε β} {g : α → β} {l : List α}
    (h : ∀ x ∈ l, f x = .ok (g x)) : l.mapM f = .ok (l.map g) := by
  induction l with
  | nil => rfl
  | cons x l ih =>
    rw [List.mapM_cons, h x List.mem_cons_self, ih fun y hy => h y (List.mem_cons_of_mem x hy)]
    rfl

theorem ok_of_mapM {α β : Type v} {f : α → Except ε β} {l : List α} {ys : List β} (h : l.mapM f = .ok ys) {x : α}
    (hx : x ∈ l) : ∃ y, f x = .ok y := by
  induction l generalizing ys with
  | nil => cases hx
  | cons x' l ih =>
    rw [List.mapM_cons] at h
    obtain ⟨y, hy, h⟩ := bind_eq_ok.mp h
    obtain ⟨ys', hys, _⟩ := bind_eq_ok.mp h
    rcases List.mem_cons.mp hx with rfl | hx
    · exact ⟨y, hy⟩
    · exact ih hys hx

theorem exists_mapM {α β : Type v} {f : α → Except ε β} {l : List α} (h : ∀ x ∈ l, ∃ y, f x = .ok y) :
    ∃ ys, l.mapM f = .ok ys := by
  induction l with
  | nil => exact ⟨[], rfl⟩
  | cons x l ih =>
    obtain ⟨y, hy⟩ := h x List.mem_cons_self
    obtain ⟨ys, hys⟩ := ih fun x' hx' => h x' (List.mem_cons_of_mem x hx')
    rw [List.mapM_cons]
    exact ⟨y :: ys, bind_eq_ok.mpr ⟨y, hy, bind_eq_ok.mpr ⟨ys, hys, rfl⟩⟩⟩

theorem getD_concat {α : Type v} {l : List α} (h : l.length = n) (x d : α) {i : Nat} (hi : i ≤ n) :
    (l ++ [x]).getD i d = if i = n then x else l.getD i d := by
  by_cases hin : i = n
  · rw [if_pos hin, List.getD_append_right _ _ _ _ (by omega), h, hin, Nat.sub_self]
    rfl
  · rw [if_neg hin, List.getD_append _ _ _ _ (by omega)]
