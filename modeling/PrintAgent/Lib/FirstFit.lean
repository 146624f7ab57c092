import Mathlib.Data.List.Basic
import Mathlib.Order.Lattice

/-!
# First fit in a sorted list

In a list in ascending order of `key` the head is least, the last element is greatest, and the first
element that fits is the least one that does.
-/

universe u v

variable {α : Type u} {β : Type v} [LinearOrder β] {key : α → β} {p : α → Bool} {l : List α} {x : α}

/-- sorting by `key`, which keeps the order of equal elements -/
theorem pairwise_mergeSort_key (key : α → β) (l : List α) :
    (l.mergeSort fun a b => decide (key a ≤ key b)).Pairwise fun a b => key a ≤ key b := by
  have htrans : ∀ a b c : α, decide (key a ≤ key b) = true → decide (key b ≤ key c) = true →
      decide (key a ≤ key c) = true := fun a b c hab hbc =>
    decide_eq_true (le_trans (of_decide_eq_true hab) (of_decide_eq_true hbc))
  have htotal : ∀ a b : α, (decide (key a ≤ key b) || decide (key b ≤ key a)) = true := fun a b => by
    simpa using le_total (key a) (key b)
  exact (List.pairwise_mergeSort htrans htotal l).imp fun h => of_decide_eq_true h

theorem head?_least (hs : l.Pairwise fun a b => key a ≤ key b) (h : l.head? = some x) :
    ∀ y ∈ l, key x ≤ key y := by
  obtain ⟨more, rfl⟩ := List.head?_eq_some_iff.mp h
  intro y hy
  rcases List.mem_cons.mp hy with rfl | hy
  · exact le_refl _
  · exact List.rel_of_pairwise_cons hs hy

theorem getLast?_greatest (hs : l.Pairwise fun a b => key a ≤ key b) (h : l.getLast? = some x) :
    ∀ y ∈ l, key y ≤ key x := by
  obtain ⟨more, rfl⟩ := List.getLast?_eq_some_iff.mp h
  intro y hy
  rcases List.mem_append.mp hy with hy | hy
  · exact (List.pairwise_append.mp hs).2.2 y hy x (List.mem_singleton_self x)
  · rw [List.mem_singleton.mp hy]

/-- **First fit is least fit.** -/
theorem find?_least (hs : l.Pairwise fun a b => key a ≤ key b) (h : l.find? p = some x) :
    ∀ y ∈ l, p y = true → key x ≤ key y := by
  obtain ⟨_, before, after, rfl, hbefore⟩ := List.find?_eq_some_iff_append.mp h
  have hafter := (List.pairwise_append.mp hs).2.1
  intro y hy hp
  rcases List.mem_append.mp hy with hy | hy
  · have hno := hbefore y hy
    rw [hp] at hno
    cases hno
  · exact head?_least hafter rfl y hy
