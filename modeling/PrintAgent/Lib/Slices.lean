import Mathlib.Data.List.Basic

/-!
# Slices and readers

* `slices`           a list cut into pieces of one length, the last of which may be shorter;
* `readMany`         a reader of one item, used until it finds none; `readMany_items` says that it reads
                     back what was written item by item.

A reader takes an item off the front of its input and returns the rest.
-/

universe u v

/-- `l[k * size : (k + 1) * size]` for each `k < count` -/
def slices {α : Type u} (size count : Nat) (l : List α) : List (List α) :=
  (List.range count).map fun k => (l.drop (k * size)).take size

section Slices
variable {α : Type u} {size count : Nat} {l rest : List α}

@[simp] theorem slices_zero : slices size 0 l = [] := rfl

theorem slices_succ : slices size (count + 1) l = l.take size :: slices size count (l.drop size) := by
  rw [slices, List.range_succ_eq_map, List.map_cons, List.map_map, Nat.zero_mul, List.drop_zero, slices]
  congr 1
  refine List.map_congr_left fun k _ => ?_
  rw [List.drop_drop, Function.comp_apply, Nat.succ_mul, Nat.add_comm]

theorem flatten_slices : (slices size count l).flatten = l.take (count * size) := by
  induction count generalizing l with
  | zero => simp
  | succ count ih =>
    rw [slices_succ, List.flatten_cons, ih, Nat.succ_mul, Nat.add_comm, List.take_add]

theorem flatten_slices_of_le (h : l.length ≤ count * size) : (slices size count l).flatten = l := by
  rw [flatten_slices, List.take_of_length_le h]

/-- pieces of one length are the slices of what they make together -/
theorem slices_flatten {pieces : List (List α)} (h : ∀ p ∈ pieces, p.length = size) :
    slices size pieces.length (pieces.flatten ++ rest) = pieces := by
  induction pieces with
  | nil => rfl
  | cons p pieces ih =>
    have hp : p.length = size := h p List.mem_cons_self
    rw [List.length_cons, slices_succ, List.flatten_cons, List.append_assoc, ← hp, List.take_left,
      List.drop_left, hp, ih fun q hq => h q (List.mem_cons_of_mem p hq)]

theorem length_flatten_pieces {pieces : List (List α)} (h : ∀ p ∈ pieces, p.length = size) :
    pieces.flatten.length = size * pieces.length := by
  induction pieces with
  | nil => simp
  | cons p pieces ih =>
    rw [List.flatten_cons, List.length_append, h p List.mem_cons_self,
      ih fun q hq => h q (List.mem_cons_of_mem p hq), List.length_cons, Nat.mul_succ, Nat.add_comm]

/-- as many slices as the list fills have something in them, and no more than one slice's length -/
theorem length_of_mem_slices {p : List α} (h : p ∈ slices size ((l.length + (size - 1)) / size) l) :
    1 ≤ p.length ∧ p.length ≤ size := by
  obtain ⟨k, hk, rfl⟩ := List.mem_map.mp h
  have hk := List.mem_range.mp hk
  rw [List.length_take, List.length_drop]
  have hsize : 0 < size := by
    by_contra hno
    rw [Nat.eq_zero_of_not_pos hno, Nat.div_zero] at hk
    omega
  have hmul : (k + 1) * size ≤ l.length + (size - 1) :=
    Nat.le_trans (Nat.mul_le_mul_right size hk) (Nat.div_mul_le_self _ _)
  rw [Nat.succ_mul] at hmul
  omega

theorem mem_of_mem_slices {p : List α} {x : α} (h : p ∈ slices size count l) (hx : x ∈ p) : x ∈ l := by
  obtain ⟨k, _, rfl⟩ := List.mem_map.mp h
  exact List.mem_of_mem_drop (List.mem_of_mem_take hx)

theorem length_le_count_mul (hsize : 0 < size) :
    l.length ≤ (l.length + (size - 1)) / size * size := by
  have hlt := Nat.lt_div_mul_add hsize (a := l.length + (size - 1))
  omega

end Slices

/-! ## readers -/

section Readers
variable {α : Type u} {β : Type v} {read : List β → Option (α × List β)}

/-- items, until there is none; `fuel` bounds their number -/
def readMany (read : List β → Option (α × List β)) : Nat → List β → List α × List β
  | 0, input => ([], input)
  | fuel + 1, input =>
    match read input with
    | none => ([], input)
    | some (item, rest) =>
      let more := readMany read fuel rest
      (item :: more.1, more.2)

/-- what was written item by item is read item by item, if the rest does not look like an item -/
theorem readMany_items {write : α → List β} {items : List α} {rest : List β}
    (h : ∀ item ∈ items, ∀ rest, read (write item ++ rest) = some (item, rest))
    (hrest : read rest = none) {fuel : Nat} (hfuel : items.length ≤ fuel) :
    readMany read fuel ((items.map write).flatten ++ rest) = (items, rest) := by
  induction items generalizing fuel with
  | nil =>
    cases fuel with
    | zero => rfl
    | succ fuel => simp [readMany, hrest]
  | cons item items ih =>
    cases fuel with
    | zero => cases hfuel
    | succ fuel =>
      have hitem := h item List.mem_cons_self
      have hmore := ih (fun x hx => h x (List.mem_cons_of_mem item hx)) (Nat.le_of_succ_le_succ hfuel)
      rw [List.map_cons, List.flatten_cons, List.append_assoc, readMany, hitem]
      simp only [hmore]

theorem length_le_written {write : α → List β} {items : List α} (h : ∀ item ∈ items, write item ≠ []) :
    items.length ≤ (items.map write).flatten.length := by
  induction items with
  | nil => exact Nat.le_refl 0
  | cons item items ih =>
    have hpos := List.length_pos_iff.mpr (h item List.mem_cons_self)
    have hmore := ih fun x hx => h x (List.mem_cons_of_mem item hx)
    rw [List.map_cons, List.flatten_cons, List.length_append, List.length_cons]
    omega

end Readers
