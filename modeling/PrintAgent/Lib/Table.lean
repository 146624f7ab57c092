import Mathlib.Data.List.Nodup
import Mathlib.Data.List.Perm.Basic

/-!
# Tables with a primary key

A table is a list of rows with pairwise different keys; the field `unique` keeps a table with two
rows of one key from being built.  The operations are the statements a store issues:

* `Table.get k`              `SELECT * … WHERE key = k`;
* `Table.insertOrIgnore r`   `INSERT OR IGNORE`, with the number of rows inserted as a `Bool`;
* `Table.update k e`         `UPDATE … WHERE key = k`, for an edit `e` that keeps keys (`Edit`).

What each does to the row under a key is said by the `get_…` lemmas; nothing else about the order
of the rows is needed.
-/

universe u v

structure Table {κ : Type u} {ρ : Type v} (key : ρ → κ) where
  rows : List ρ
  unique : (rows.map key).Nodup

structure Edit {κ : Type u} {ρ : Type v} (key : ρ → κ) where
  apply : ρ → ρ
  key_apply : ∀ r, key (apply r) = key r

namespace Table
variable {κ : Type u} {ρ : Type v} {key : ρ → κ} [DecidableEq κ]

def empty : Table key := ⟨[], List.nodup_nil⟩

def get (t : Table key) (k : κ) : Option ρ := t.rows.find? fun r => key r = k

def insertOrIgnore (t : Table key) (r : ρ) : Bool × Table key :=
  if h : key r ∈ t.rows.map key then (false, t)
  else (true, ⟨t.rows ++ [r], by
    rw [List.map_append, List.nodup_append_comm]
    exact List.nodup_cons.mpr ⟨h, t.unique⟩⟩)

omit [DecidableEq κ] in
theorem map_key_edit (e : Edit key) (p : ρ → Prop) [DecidablePred p] (rows : List ρ) :
    (rows.map fun r => if p r then e.apply r else r).map key = rows.map key := by
  rw [List.map_map]
  apply List.map_congr_left
  intro r _
  by_cases h : p r
  · simp [h, e.key_apply r]
  · simp [h]

def update (t : Table key) (k : κ) (e : Edit key) : Table key :=
  ⟨t.rows.map fun r => if key r = k then e.apply r else r, by
    rw [map_key_edit e (fun r => key r = k)]
    exact t.unique⟩

@[simp] theorem get_empty (k : κ) : (empty : Table key).get k = none := rfl

theorem get_mem {t : Table key} {k : κ} {r : ρ} (h : t.get k = some r) : r ∈ t.rows ∧ key r = k :=
  ⟨List.mem_of_find?_eq_some h, by simpa using List.find?_some h⟩

omit [DecidableEq κ] in
theorem find_of_mem [DecidableEq κ] {rows : List ρ} (hn : (rows.map key).Nodup) {r : ρ}
    (hr : r ∈ rows) : rows.find? (fun r' => key r' = key r) = some r := by
  induction rows with
  | nil => cases hr
  | cons x rows ih =>
    rw [List.map_cons, List.nodup_cons] at hn
    rcases List.mem_cons.mp hr with rfl | hr'
    · simp
    · have hne : key x ≠ key r := fun h => hn.1 (h ▸ List.mem_map_of_mem hr')
      rw [List.find?_cons_of_neg (by simpa using hne)]
      exact ih hn.2 hr'

theorem get_of_mem {t : Table key} {r : ρ} (h : r ∈ t.rows) : t.get (key r) = some r :=
  find_of_mem t.unique h

theorem get_eq_none_iff {t : Table key} {k : κ} : t.get k = none ↔ k ∉ t.rows.map key := by
  simp [get, List.mem_map]

/-! ## inserting -/

theorem insertOrIgnore_fst (t : Table key) (r : ρ) :
    (t.insertOrIgnore r).1 = (t.get (key r)).isNone := by
  unfold insertOrIgnore
  split
  · rename_i h
    cases hg : t.get (key r) with
    | none => exact absurd h (get_eq_none_iff.mp hg)
    | some _ => rfl
  · rename_i h
    rw [get_eq_none_iff.mpr h]
    rfl

theorem get_insertOrIgnore_self (t : Table key) (r : ρ) :
    (t.insertOrIgnore r).2.get (key r) = some ((t.get (key r)).getD r) := by
  unfold insertOrIgnore
  split
  · rename_i h
    cases hg : t.get (key r) with
    | none => exact absurd h (get_eq_none_iff.mp hg)
    | some r' => rfl
  · rename_i h
    rw [get_eq_none_iff.mpr h]
    exact Table.get_of_mem (List.mem_append_right t.rows (List.mem_singleton.mpr rfl))

theorem get_insertOrIgnore_of_ne (t : Table key) {r : ρ} {k : κ} (hk : k ≠ key r) :
    (t.insertOrIgnore r).2.get k = t.get k := by
  unfold insertOrIgnore
  split
  · rfl
  · show (t.rows ++ [r]).find? (fun r' => key r' = k) = t.rows.find? (fun r' => key r' = k)
    have hr : ¬ (key r = k) := fun h => hk h.symm
    rw [List.find?_append]
    simp [hr]

/-! ## updating -/

theorem get_map_edit (rows : List ρ) (e : Edit key) (p : ρ → Prop) [DecidablePred p] (k : κ) :
    (rows.map fun r => if p r then e.apply r else r).find? (fun r => key r = k)
      = (rows.find? fun r => key r = k).map fun r => if p r then e.apply r else r := by
  have hkey : ∀ r, key (if p r then e.apply r else r) = key r := fun r => by
    by_cases h : p r
    · simp [h, e.key_apply r]
    · simp [h]
  rw [List.find?_map]
  congr 1
  apply congrArg (fun q => List.find? q rows)
  funext r
  simp only [Function.comp, hkey]

theorem get_update_self (t : Table key) (k : κ) (e : Edit key) :
    (t.update k e).get k = (t.get k).map e.apply := by
  show (t.rows.map fun r => if key r = k then e.apply r else r).find? (fun r => key r = k) = _
  rw [get_map_edit t.rows e (fun r => key r = k) k]
  cases hg : t.rows.find? (fun r => key r = k) with
  | none => simp [get, hg]
  | some r =>
    have hr : key r = k := by simpa using List.find?_some hg
    simp [get, hg, hr]

theorem get_update_of_ne (t : Table key) {k k' : κ} (e : Edit key) (hk : k' ≠ k) :
    (t.update k e).get k' = t.get k' := by
  show (t.rows.map fun r => if key r = k then e.apply r else r).find? (fun r => key r = k') = _
  rw [get_map_edit t.rows e (fun r => key r = k) k']
  cases hg : t.rows.find? (fun r => key r = k') with
  | none => simp [get, hg]
  | some r =>
    have hr : key r = k' := by simpa using List.find?_some hg
    have hne : ¬ (key r = k) := by rw [hr]; exact hk
    simp [get, hg, hne]

/-- one edit under each of several different keys: every row is edited once -/
theorem get_foldl_update (ks : List κ) (hks : ks.Nodup) (e : Edit key) (t : Table key) (k : κ) :
    (ks.foldl (fun t k => t.update k e) t).get k
      = if k ∈ ks then (t.get k).map e.apply else t.get k := by
  induction ks generalizing t with
  | nil => simp
  | cons x ks ih =>
    obtain ⟨hx, hn⟩ := List.nodup_cons.mp hks
    rw [List.foldl_cons, ih hn]
    by_cases hk : k = x
    · subst hk
      simp [hx, get_update_self]
    · simp [hk, get_update_of_ne t e hk]

end Table
