import Mathlib.Data.List.Forall2
import Mathlib.Data.List.GetD

/-!
# Regular expressions

* `Regex.run`        the matches of an expression at a place of a text, in the order in which backtracking
                     comes to them;
* `Regex.search`     the first match at the first place that has one;
* `Regex.findAll`    the matches from left to right, each one after the end of the one before;
* `groups_of_run`    what the groups of a match hold.
-/

inductive Regex (α : Type) where
  /-- one character of the class -/
  | one (p : α → Bool)
  /-- as many characters of the class as there are, or else fewer -/
  | many (p : α → Bool)
  | seq (r s : Regex α)
  /-- without groups -/
  | alt (r s : Regex α)
  | group (r : Regex α)
  /-- a condition on the characters before and after the place -/
  | between (p : Option α → Option α → Bool)

namespace Regex

/-- the text of a match, what comes after it, and its groups in the order in which they begin -/
structure Match (α : Type) where
  text : List α
  rest : List α
  groups : List (List α)

variable {α : Type}

/-- `match.group(i)` -/
def Match.group (m : Match α) (i : Nat) : List α := m.groups.getD (i - 1) []

def Match.append (m m' : Match α) : Match α := ⟨m.text ++ m'.text, m'.rest, m.groups ++ m'.groups⟩

def runMany (p : α → Bool) : List α → List (Match α)
  | [] => [⟨[], [], []⟩]
  | c :: cs =>
    if p c then (runMany p cs).map (fun m => { m with text := c :: m.text }) ++ [⟨[], c :: cs, []⟩]
    else [⟨[], c :: cs, []⟩]

/-- `previous` is the character before the place -/
def run : Regex α → Option α → List α → List (Match α)
  | one _, _, [] => []
  | one p, _, c :: cs => if p c then [⟨[c], cs, []⟩] else []
  | many p, _, text => runMany p text
  | seq r s, previous, text =>
    (run r previous text).flatMap fun m => (run s (m.text.getLast?.or previous) m.rest).map m.append
  | alt r s, previous, text => (run r previous text ++ run s previous text).map fun m => { m with groups := [] }
  | group r, previous, text => (run r previous text).map fun m => { m with groups := m.text :: m.groups }
  | between p, previous, text => if p previous text.head? then [⟨[], text, []⟩] else []

def searchFrom (r : Regex α) (previous : Option α) : List α → Option (Match α)
  | [] => (r.run previous []).head?
  | c :: cs =>
    match (r.run previous (c :: cs)).head? with
    | some m => some m
    | none => searchFrom r (some c) cs

/-- `re.search` -/
def search (r : Regex α) (text : List α) : Option (Match α) := r.searchFrom none text

/-- the next `skip` characters are of the match before -/
def findFrom (r : Regex α) (previous : Option α) (skip : Nat) : List α → List (Match α)
  | [] => if skip = 0 then (r.run previous []).head?.toList else []
  | c :: cs =>
    match skip with
    | skip + 1 => findFrom r (some c) skip cs
    | 0 =>
      match (r.run previous (c :: cs)).head? with
      | some m => m :: findFrom r (some c) (m.text.length - 1) cs
      | none => findFrom r (some c) 0 cs

/-- `re.finditer`, of an expression that matches no empty text -/
def findAll (r : Regex α) (text : List α) : List (Match α) := r.findFrom none 0 text

/-! ## the usual expressions -/

def nothing : Regex α := between fun _ _ => true

def cat (rs : List (Regex α)) : Regex α := rs.foldr seq nothing

/-- one of the expressions; the last one is `r` -/
def oneOf (rs : List (Regex α)) (r : Regex α) : Regex α := rs.foldr alt r

/-- one character of the class, and as many more as there are -/
def plus (p : α → Bool) : Regex α := seq (one p) (many p)

def literal [DecidableEq α] (text : List α) : Regex α := cat (text.map fun c => one fun c' => c' = c)

/-! ## the groups of a match -/

def captures : Regex α → List (Regex α)
  | seq r s => r.captures ++ s.captures
  | group r => r :: r.captures
  | _ => []

/-- the expression has a match with this text, at some place -/
def Reads (r : Regex α) (text : List α) : Prop :=
  ∃ previous after, ∃ m ∈ r.run previous after, m.text = text

theorem of_stop (p : α → Bool) {text : List α} {m : Match α} (h : m ∈ [(⟨[], text, []⟩ : Match α)]) :
    m.groups = [] ∧ ∀ c ∈ m.text, p c = true := by
  rw [List.mem_singleton.mp h]
  exact ⟨rfl, fun c hc => by cases hc⟩

theorem of_runMany {p : α → Bool} {text : List α} {m : Match α} (h : m ∈ runMany p text) :
    m.groups = [] ∧ ∀ c ∈ m.text, p c = true := by
  induction text generalizing m with
  | nil => exact of_stop p h
  | cons c cs ih =>
    rw [runMany] at h
    split at h
    · rename_i hp
      rcases List.mem_append.mp h with h | h
      · obtain ⟨m', hm', rfl⟩ := List.mem_map.mp h
        obtain ⟨hgroups, htext⟩ := ih hm'
        refine ⟨hgroups, fun c' hc' => ?_⟩
        rcases List.mem_cons.mp hc' with rfl | hc'
        · exact hp
        · exact htext c' hc'
      · exact of_stop p h
    · exact of_stop p h

/-- every group of a match is a text that its expression reads -/
theorem groups_of_run {r : Regex α} {previous : Option α} {text : List α} {m : Match α}
    (h : m ∈ r.run previous text) : List.Forall₂ Reads r.captures m.groups := by
  induction r generalizing previous text m with
  | one p =>
    cases text with
    | nil => cases h
    | cons c cs =>
      rw [run] at h
      split at h
      · rw [List.mem_singleton.mp h]
        exact .nil
      · cases h
  | many p =>
    rw [(of_runMany h).1]
    exact .nil
  | seq r s ihr ihs =>
    obtain ⟨m₁, h₁, h⟩ := List.mem_flatMap.mp h
    obtain ⟨m₂, h₂, rfl⟩ := List.mem_map.mp h
    exact List.rel_append (ihr h₁) (ihs h₂)
  | alt r s _ _ =>
    obtain ⟨m', _, rfl⟩ := List.mem_map.mp h
    exact .nil
  | group r ih =>
    obtain ⟨m', hm', rfl⟩ := List.mem_map.mp h
    exact .cons ⟨previous, text, m', hm', rfl⟩ (ih hm')
  | between p =>
    rw [run] at h
    split at h
    · rw [List.mem_singleton.mp h]
      exact .nil
    · cases h

theorem reads_group {r e : Regex α} {previous : Option α} {text : List α} {m : Match α}
    (h : m ∈ r.run previous text) {i : Nat} (he : r.captures[i]? = some e) : e.Reads (m.group (i + 1)) := by
  obtain ⟨hlen, hget⟩ := List.forall₂_iff_get.mp (groups_of_run h)
  obtain ⟨hi, rfl⟩ := List.getElem?_eq_some_iff.mp he
  have hi' : i < m.groups.length := hlen ▸ hi
  have hgroup : m.group (i + 1) = m.groups[i] := List.getD_eq_getElem m.groups [] hi'
  rw [hgroup]
  exact hget i hi hi'

theorem run_of_search {r : Regex α} {text : List α} {m : Match α} (h : r.search text = some m) :
    ∃ previous after, m ∈ r.run previous after := by
  have hfrom : ∀ (text : List α) (previous : Option α), r.searchFrom previous text = some m →
      ∃ previous after, m ∈ r.run previous after := by
    intro text
    induction text with
    | nil => exact fun previous h => ⟨previous, [], List.mem_of_head? h⟩
    | cons c cs ih =>
      intro previous h
      rw [searchFrom] at h
      split at h
      · rename_i m' hm'
        cases h
        exact ⟨previous, c :: cs, List.mem_of_head? hm'⟩
      · exact ih (some c) h
  exact hfrom text none h

@[simp] theorem captures_nothing : (nothing : Regex α).captures = [] := rfl

@[simp] theorem captures_cat (rs : List (Regex α)) : (cat rs).captures = rs.flatMap captures := by
  induction rs with
  | nil => rfl
  | cons r rs ih =>
    show r.captures ++ (cat rs).captures = _
    rw [ih, List.flatMap_cons]

@[simp] theorem captures_literal [DecidableEq α] (text : List α) : (literal text).captures = [] := by
  rw [literal, captures_cat, List.flatMap_eq_nil_iff]
  intro r hr
  obtain ⟨c, _, rfl⟩ := List.mem_map.mp hr
  rfl

theorem reads_plus {p : α → Bool} {text : List α} (h : (plus p).Reads text) :
    text ≠ [] ∧ ∀ c ∈ text, p c = true := by
  obtain ⟨previous, after, m, hm, rfl⟩ := h
  obtain ⟨m₁, h₁, h⟩ := List.mem_flatMap.mp hm
  obtain ⟨m₂, h₂, rfl⟩ := List.mem_map.mp h
  cases after with
  | nil => cases h₁
  | cons c cs =>
    rw [run] at h₁
    split at h₁
    · rename_i hp
      rw [List.mem_singleton.mp h₁]
      refine ⟨List.cons_ne_nil c _, fun c' hc' => ?_⟩
      rcases List.mem_cons.mp hc' with rfl | hc'
      · exact hp
      · exact (of_runMany h₂).2 c' hc'
    · cases h₁

end Regex
