import Mathlib.Data.List.Nodup
import Mathlib.Data.List.TakeWhile

/-!
# Words joined by a separator

* `intercalate_injective`   words that do not contain the first element of the separator can be read back;
* `head?_intercalate`       what the text begins with.
-/

namespace Joined

universe u
variable {α : Type u} {c : α} {separator : List α}

theorem head?_intercalate {word : List α} {words : List (List α)} (h : word ≠ []) :
    (separator.intercalate (word :: words)).head? = word.head? := by
  cases words with
  | nil => rw [List.intercalate_singleton]
  | cons next words =>
    obtain ⟨c, rest, rfl⟩ := List.exists_cons_of_ne_nil h
    rw [List.intercalate_cons_cons, List.append_assoc]
    rfl

/-- what a filter keeps can be read back from the names of what it keeps -/
theorem filter_of_map {β : Type u} {names : List (α × β)} (hnames : (names.map Prod.fst).Nodup) {p q : α × β → Bool}
    (h : (names.filter p).map Prod.fst = (names.filter q).map Prod.fst) {x : α × β} (hx : x ∈ names) : p x = q x := by
  have hmem : ∀ r : α × β → Bool, x.1 ∈ (names.filter r).map Prod.fst ↔ r x = true := by
    intro r
    constructor
    · intro hr
      obtain ⟨y, hy, he⟩ := List.mem_map.mp hr
      have hsame : y = x := List.inj_on_of_nodup_map hnames (List.mem_of_mem_filter hy) hx he
      rw [← hsame]
      exact (List.mem_filter.mp hy).2
    · intro hr
      exact List.mem_map.mpr ⟨x, List.mem_filter.mpr ⟨hx, hr⟩, rfl⟩
  rw [Bool.eq_iff_iff, ← hmem p, ← hmem q, h]

section
variable [DecidableEq α]

theorem takeWhile_append_cons {word after : List α} (h : c ∉ word) :
    (word ++ c :: after).takeWhile (fun x => decide (x ≠ c)) = word := by
  have hword : ∀ x ∈ word, decide (x ≠ c) = true := by
    intro x hx
    exact decide_eq_true (ne_of_mem_of_not_mem hx h)
  rw [List.takeWhile_append_of_pos hword, List.takeWhile_cons_of_neg (by simp), List.append_nil]

theorem takeWhile_of_not_mem {word : List α} (h : c ∉ word) : word.takeWhile (fun x => decide (x ≠ c)) = word := by
  refine List.takeWhile_eq_self_iff.mpr ?_
  intro x hx
  exact decide_eq_true (ne_of_mem_of_not_mem hx h)

theorem takeWhile_intercalate {word : List α} (words : List (List α)) (h : c ∉ word) :
    ((c :: separator).intercalate (word :: words)).takeWhile (fun x => decide (x ≠ c)) = word := by
  cases words with
  | nil => rw [List.intercalate_singleton, takeWhile_of_not_mem h]
  | cons next words =>
    rw [List.intercalate_cons_cons, List.append_assoc, List.cons_append, takeWhile_append_cons h]

/-- on the words: the first ends where the separator begins -/
theorem intercalate_injective {words words' : List (List α)} (hw : words ≠ []) (hw' : words' ≠ [])
    (h : ∀ word ∈ words, c ∉ word) (h' : ∀ word ∈ words', c ∉ word)
    (he : (c :: separator).intercalate words = (c :: separator).intercalate words') : words = words' := by
  induction words generalizing words' with
  | nil => exact absurd rfl hw
  | cons word words ih =>
    cases words' with
    | nil => exact absurd rfl hw'
    | cons word' words' =>
      have hword : word = word' := by
        rw [← takeWhile_intercalate words (h word List.mem_cons_self), he,
          takeWhile_intercalate words' (h' word' List.mem_cons_self)]
      subst hword
      cases words with
      | nil =>
        cases words' with
        | nil => rfl
        | cons next' words' =>
          have hlen := congrArg List.length he
          simp only [List.intercalate_singleton, List.intercalate_cons_cons, List.length_append,
            List.length_cons] at hlen
          omega
      | cons next words =>
        cases words' with
        | nil =>
          have hlen := congrArg List.length he
          simp only [List.intercalate_singleton, List.intercalate_cons_cons, List.length_append,
            List.length_cons] at hlen
          omega
        | cons next' words' =>
          rw [List.intercalate_cons_cons, List.intercalate_cons_cons, List.append_assoc, List.append_assoc] at he
          have hrest := List.append_cancel_left (List.append_cancel_left he)
          rw [ih (List.cons_ne_nil _ _) (List.cons_ne_nil _ _) (fun w hmem => h w (List.mem_cons_of_mem _ hmem))
            (fun w hmem => h' w (List.mem_cons_of_mem _ hmem)) hrest]

end

end Joined
