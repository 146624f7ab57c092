import Mathlib.Data.List.DropRight

/-!
# Trimming a list

* `TrimsTo p l t`       `t` is `l` from its first element with `p` to its last one;
* `TrimsTo.unique`      there is one such list, so trimming it again changes nothing (`TrimsTo.refl`);
* `TrimsTo.filter_eq`   it has every element with `p`;
* `trimsTo_indices`     it is the slice between the first and the last index of an element with `p`.
-/

universe u

variable {α : Type u}

/-- the first and the last element, if there are any -/
structure EndsIn (p : α → Bool) (t : List α) : Prop where
  first : ∀ x ∈ t.head?, p x = true
  last : ∀ x ∈ t.getLast?, p x = true

/-- only elements without `p` are gone, at both ends, and no more are left there -/
structure TrimsTo (p : α → Bool) (l t : List α) : Prop where
  parts : ∃ before after, l = before ++ t ++ after ∧ ∀ x ∈ before ++ after, p x = false
  ends : EndsIn p t

variable {p : α → Bool} {l t t' : List α}

theorem EndsIn.nil : EndsIn p [] where
  first x h := by cases h
  last x h := by cases h

theorem EndsIn.append (h : EndsIn p t) (h' : EndsIn p t') : EndsIn p (t ++ t') where
  first x hx := by
    rw [List.head?_append] at hx
    cases ht : t.head? with
    | none =>
      rw [ht] at hx
      exact h'.first x hx
    | some y =>
      rw [ht] at hx
      exact h.first x (ht.trans hx)
  last x hx := by
    rw [List.getLast?_append] at hx
    cases ht : t'.getLast? with
    | none =>
      rw [ht] at hx
      exact h.last x hx
    | some y =>
      rw [ht] at hx
      exact h'.last x (ht.trans hx)

theorem EndsIn.flatten {ts : List (List α)} (h : ∀ t ∈ ts, EndsIn p t) : EndsIn p ts.flatten := by
  induction ts with
  | nil => exact EndsIn.nil
  | cons t ts ih =>
    rw [List.flatten_cons]
    exact (h t List.mem_cons_self).append (ih fun t' ht' => h t' (List.mem_cons_of_mem t ht'))

theorem TrimsTo.refl (h : EndsIn p t) : TrimsTo p t t where
  parts := ⟨[], [], by simp, fun x hx => by cases hx⟩
  ends := h

theorem TrimsTo.filter_eq (h : TrimsTo p l t) : t.filter p = l.filter p := by
  obtain ⟨before, after, rfl, hout⟩ := h.parts
  have hnone : ∀ gone : List α, (∀ x ∈ gone, x ∈ before ++ after) → gone.filter p = [] := fun gone hsub =>
    List.filter_eq_nil_iff.mpr fun x hx => by rw [hout x (hsub x hx)]; decide
  rw [List.filter_append, List.filter_append, hnone before fun x hx => List.mem_append_left _ hx,
    hnone after fun x hx => List.mem_append_right _ hx, List.nil_append, List.append_nil]

/-- nothing is left of a list without `p`, and something of every other list -/
theorem TrimsTo.eq_nil_iff (h : TrimsTo p l t) : t = [] ↔ ∀ x ∈ l, p x = false := by
  obtain ⟨before, after, rfl, hout⟩ := h.parts
  constructor
  · rintro rfl x hx
    rw [List.append_nil] at hx
    exact hout x hx
  · intro hno
    cases t with
    | nil => rfl
    | cons x t =>
      have hx : p x = false := hno x (by simp)
      exact absurd (h.ends.first x rfl) (by rw [hx]; decide)

theorem dropWhile_without {before : List α} (hout : ∀ x ∈ before, p x = false)
    (h : ∀ x ∈ t.head?, p x = true) : (before ++ t).dropWhile (fun x => !p x) = t := by
  induction before with
  | nil =>
    cases t with
    | nil => rfl
    | cons x t => simp [h x rfl]
  | cons y before ih =>
    have hy := hout y List.mem_cons_self
    rw [List.cons_append, List.dropWhile_cons_of_pos (by rw [hy]; rfl)]
    exact ih fun x hx => hout x (List.mem_cons_of_mem y hx)

theorem TrimsTo.eq_dropWhile (h : TrimsTo p l t) :
    t = (l.dropWhile fun x => !p x).rdropWhile fun x => !p x := by
  obtain ⟨before, after, rfl, hout⟩ := h.parts
  have hbefore : ∀ x ∈ before, p x = false := fun x hx => hout x (List.mem_append_left _ hx)
  have hafter : ∀ x ∈ after.reverse, p x = false := fun x hx =>
    hout x (List.mem_append_right _ (List.mem_reverse.mp hx))
  cases t with
  | nil =>
    have hall := dropWhile_without hout EndsIn.nil.first
    rw [List.append_nil] at hall
    rw [List.append_nil, hall]
    rfl
  | cons x t =>
    have hlast : ∀ y ∈ (x :: t).reverse.head?, p y = true := by
      rw [List.head?_reverse]
      exact h.ends.last
    rw [List.append_assoc, dropWhile_without hbefore (by simpa using h.ends.first), List.rdropWhile,
      List.reverse_append, dropWhile_without hafter hlast, List.reverse_reverse]

theorem TrimsTo.unique (h : TrimsTo p l t) (h' : TrimsTo p l t') : t = t' :=
  h.eq_dropWhile.trans h'.eq_dropWhile.symm

/-! ## by indices -/

/-- where the elements with `p` are -/
def indicesOf (p : α → Bool) (l : List α) : List Nat :=
  (List.range l.length).filter fun i => (l[i]?).any p

theorem mem_indicesOf {i : Nat} : i ∈ indicesOf p l ↔ ∃ h : i < l.length, p l[i] = true := by
  rw [indicesOf, List.mem_filter, List.mem_range]
  constructor
  · rintro ⟨hi, hp⟩
    exact ⟨hi, by simpa [List.getElem?_eq_getElem hi] using hp⟩
  · rintro ⟨hi, hp⟩
    exact ⟨hi, by simpa [List.getElem?_eq_getElem hi] using hp⟩

theorem indicesOf_sorted : (indicesOf p l).Pairwise (· < ·) := List.pairwise_lt_range.filter _

theorem trimsTo_nil (h : indicesOf p l = []) : TrimsTo p l [] where
  parts := by
    refine ⟨l, [], by simp, fun x hx => ?_⟩
    rw [List.append_nil] at hx
    obtain ⟨i, hi, rfl⟩ := List.mem_iff_getElem.mp hx
    rw [Bool.eq_false_iff]
    intro hp
    have hmem : i ∈ indicesOf p l := mem_indicesOf.mpr ⟨hi, hp⟩
    rw [h] at hmem
    cases hmem
  ends := EndsIn.nil

/-- **The slice between the first and the last index.** -/
theorem trimsTo_indices {first last : Nat} (hfirst : (indicesOf p l).head? = some first)
    (hlast : (indicesOf p l).getLast? = some last) : TrimsTo p l ((l.take (last + 1)).drop first) := by
  have hsorted := indicesOf_sorted (p := p) (l := l)
  obtain ⟨hfl, hpf⟩ := mem_indicesOf.mp (List.mem_of_head? hfirst)
  obtain ⟨hll, hpl⟩ := mem_indicesOf.mp (List.mem_of_getLast? hlast)
  have hge : ∀ i ∈ indicesOf p l, first ≤ i := by
    obtain ⟨more, hmore⟩ := List.head?_eq_some_iff.mp hfirst
    rw [hmore] at hsorted ⊢
    intro i hi
    rcases List.mem_cons.mp hi with rfl | hi
    · exact Nat.le_refl i
    · exact Nat.le_of_lt (List.rel_of_pairwise_cons hsorted hi)
  have hle : ∀ i ∈ indicesOf p l, i ≤ last := by
    obtain ⟨more, hmore⟩ := List.getLast?_eq_some_iff.mp hlast
    rw [hmore] at hsorted ⊢
    intro i hi
    rcases List.mem_append.mp hi with hi | hi
    · exact Nat.le_of_lt ((List.pairwise_append.mp hsorted).2.2 i hi last (by simp))
    · exact Nat.le_of_eq (List.mem_singleton.mp hi)
  have hfl' : first ≤ last := hge last (List.mem_of_getLast? hlast)
  refine ⟨⟨l.take first, l.drop (last + 1), ?_, fun x hx => ?_⟩, fun x hx => ?_, fun x hx => ?_⟩
  · have htake : l.take first = (l.take (last + 1)).take first := by
      rw [List.take_take, Nat.min_eq_left (by omega)]
    rw [htake, List.take_append_drop, List.take_append_drop]
  · rw [Bool.eq_false_iff]
    intro hp
    rcases List.mem_append.mp hx with hx | hx
    · obtain ⟨i, hi, rfl⟩ := List.mem_iff_getElem.mp hx
      rw [List.length_take] at hi
      rw [List.getElem_take] at hp
      have hmem := hge i (mem_indicesOf.mpr ⟨by omega, hp⟩)
      omega
    · obtain ⟨i, hi, rfl⟩ := List.mem_iff_getElem.mp hx
      rw [List.length_drop] at hi
      rw [List.getElem_drop] at hp
      have hmem := hle _ (mem_indicesOf.mpr ⟨by omega, hp⟩)
      omega
  · rw [List.head?_drop, List.getElem?_take_of_lt (by omega), List.getElem?_eq_getElem hfl] at hx
    obtain rfl := Option.some.inj hx
    exact hpf
  · rw [List.getLast?_drop, if_neg (by rw [List.length_take]; omega), List.getLast?_take,
      if_neg (Nat.succ_ne_zero last), Nat.add_sub_cancel, List.getElem?_eq_getElem hll] at hx
    obtain rfl := Option.some.inj hx
    exact hpl
