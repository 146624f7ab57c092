import Mathlib.Data.List.Infix
import PrintAgent.Lib.Regex
import PrintAgent.Lib.Text

/-!
# Replacing the matches of a regular expression

* `Regex.sub`          `re.sub`, of an expression that matches no empty text;
* `Regex.Accepts`      a text that is matched wherever it stands, and what it is composed of;
* `Regex.Replaced`     how the result comes about from left to right;
* `Regex.Masks`        each match is replaced by how it begins, and a text in brackets after that;
* `Replaced.word_of_result`  where a word of the result without brackets comes from, when matches are masked.
-/

namespace Regex

variable {α : Type} {r s : Regex α} {previous : Option α} {text : List α} {m : Match α} {p : α → Bool}

/-- the next `skip` characters are of the match before -/
def subFrom (r : Regex α) (replace : Match α → List α) (previous : Option α) (skip : Nat) : List α → List α
  | [] => if skip = 0 then (r.run previous []).head?.elim [] replace else []
  | c :: cs =>
    match skip with
    | skip + 1 => subFrom r replace (some c) skip cs
    | 0 =>
      match (r.run previous (c :: cs)).head? with
      | some m => replace m ++ subFrom r replace (some c) (m.text.length - 1) cs
      | none => c :: subFrom r replace (some c) 0 cs

/-- `re.sub` -/
def sub (r : Regex α) (replace : Match α → List α) (text : List α) : List α := r.subFrom replace none 0 text

/-! ## what a match reads -/

theorem text_append_rest_runMany (h : m ∈ runMany p text) : m.text ++ m.rest = text := by
  induction text generalizing m with
  | nil => rw [List.mem_singleton.mp h]; rfl
  | cons c cs ih =>
    rw [runMany] at h
    split at h
    · rcases List.mem_append.mp h with h | h
      · obtain ⟨m', hm', rfl⟩ := List.mem_map.mp h
        rw [← ih hm']
        rfl
      · rw [List.mem_singleton.mp h]
        rfl
    · rw [List.mem_singleton.mp h]
      rfl

theorem text_append_rest (h : m ∈ r.run previous text) : m.text ++ m.rest = text := by
  induction r generalizing previous text m with
  | one p =>
    cases text with
    | nil => cases h
    | cons c cs =>
      rw [run] at h
      split at h
      · rw [List.mem_singleton.mp h]
        rfl
      · cases h
  | many p => exact text_append_rest_runMany h
  | seq r s ihr ihs =>
    obtain ⟨m₁, h₁, h⟩ := List.mem_flatMap.mp h
    obtain ⟨m₂, h₂, rfl⟩ := List.mem_map.mp h
    rw [← ihr h₁, ← ihs h₂]
    exact List.append_assoc _ _ _
  | alt r s ihr ihs =>
    obtain ⟨m', hm', rfl⟩ := List.mem_map.mp h
    have hparts : m'.text ++ m'.rest = text := by
      rcases List.mem_append.mp hm' with h | h
      · exact ihr h
      · exact ihs h
    exact hparts
  | group r ih =>
    obtain ⟨m', hm', rfl⟩ := List.mem_map.mp h
    have hparts : m'.text ++ m'.rest = text := ih hm'
    exact hparts
  | between p =>
    rw [run] at h
    split at h
    · rw [List.mem_singleton.mp h]
      rfl
    · cases h

theorem exists_of_seq (h : m ∈ (seq r s).run previous text) : ∃ m₁ ∈ r.run previous text, ∃ previous' rest,
    ∃ m₂ ∈ s.run previous' rest, m = m₁.append m₂ := by
  obtain ⟨m₁, h₁, h⟩ := List.mem_flatMap.mp h
  obtain ⟨m₂, h₂, rfl⟩ := List.mem_map.mp h
  exact ⟨m₁, h₁, _, _, m₂, h₂, rfl⟩

theorem exists_of_plus (h : m ∈ (plus p).run previous text) : ∃ c cs, m.text = c :: cs ∧ p c = true ∧
    (∀ c ∈ cs, p c = true) ∧ m.groups = [] := by
  obtain ⟨m₁, h₁, _, _, m₂, h₂, rfl⟩ := exists_of_seq h
  obtain ⟨hgroups, hmany⟩ := of_runMany h₂
  cases text with
  | nil => cases h₁
  | cons c cs =>
    rw [run] at h₁
    split at h₁
    · rename_i hp
      rw [List.mem_singleton.mp h₁]
      exact ⟨c, m₂.text, rfl, hp, hmany, hgroups⟩
    · cases h₁

def each (ps : List (α → Bool)) : Regex α := cat (ps.map one)

/-- the characters of a text, one by one, are of the classes -/
def IsOf (ps : List (α → Bool)) (text : List α) : Prop := List.Forall₂ (fun p c => p c = true) ps text

theorem text_of_each {ps : List (α → Bool)} (h : m ∈ (each ps).run previous text) : IsOf ps m.text ∧ m.groups = [] := by
  induction ps generalizing previous text m with
  | nil =>
    have hnothing : m ∈ [(⟨[], text, []⟩ : Match α)] := h
    rw [List.mem_singleton.mp hnothing]
    exact ⟨.nil, rfl⟩
  | cons p ps ih =>
    obtain ⟨m₁, h₁, _, _, m₂, h₂, rfl⟩ := exists_of_seq h
    obtain ⟨hof, hgroups⟩ := ih h₂
    cases text with
    | nil => cases h₁
    | cons c cs =>
      rw [run] at h₁
      split at h₁
      · rename_i hp
        rw [List.mem_singleton.mp h₁]
        exact ⟨.cons hp hof, hgroups⟩
      · cases h₁

/-- classes of one value each -/
theorem isOf_map_iff {β γ : Type} [DecidableEq β] {f : α → β} {g : γ → β} {l : List γ} {text : List α} :
    IsOf (l.map fun c x => decide (f x = g c)) text ↔ text.map f = l.map g := by
  induction l generalizing text with
  | nil =>
    constructor
    · intro h
      cases h
      rfl
    · intro h
      rw [List.map_eq_nil_iff.mp h]
      exact .nil
  | cons c l ih =>
    constructor
    · intro h
      cases h with
      | cons hc hrest => rw [List.map_cons, List.map_cons, of_decide_eq_true hc, ih.mp hrest]
    · intro h
      cases text with
      | nil => cases h
      | cons x text =>
        obtain ⟨hx, hrest⟩ := List.cons_eq_cons.mp h
        exact .cons (decide_eq_true hx) (ih.mpr hrest)

theorem literal_eq [DecidableEq α] (word : List α) :
    literal word = each (word.map fun c x => decide (id x = id c)) := by
  rw [literal, each, List.map_map]
  rfl

theorem text_of_literal [DecidableEq α] {word : List α} (h : m ∈ (literal word).run previous text) :
    m.text = word ∧ m.groups = [] := by
  rw [literal_eq] at h
  obtain ⟨hof, hgroups⟩ := text_of_each h
  have hword := isOf_map_iff.mp hof
  rw [List.map_id, List.map_id] at hword
  exact ⟨hword, hgroups⟩

/-! ## what is matched wherever it stands -/

/-- there is a match of this text, whatever is around it -/
def Accepts (r : Regex α) (word : List α) : Prop :=
  ∀ previous rest, ∃ m ∈ r.run previous (word ++ rest), m.text = word ∧ m.rest = rest

theorem Accepts.seq {w w' : List α} (h : r.Accepts w) (h' : s.Accepts w') : (seq r s).Accepts (w ++ w') := by
  intro previous rest
  obtain ⟨m, hm, htext, hrest⟩ := h previous (w' ++ rest)
  obtain ⟨m', hm', htext', hrest'⟩ := h' (m.text.getLast?.or previous) rest
  rw [← hrest] at hm'
  refine ⟨m.append m', ?_, ?_, hrest'⟩
  · rw [List.append_assoc]
    exact List.mem_flatMap.mpr ⟨m, hm, List.mem_map_of_mem hm'⟩
  · rw [Match.append, htext, htext']

theorem Accepts.group {w : List α} (h : r.Accepts w) : (group r).Accepts w := by
  intro previous rest
  obtain ⟨m, hm, htext, hrest⟩ := h previous rest
  exact ⟨_, List.mem_map_of_mem hm, htext, hrest⟩

theorem accepts_nothing : (nothing : Regex α).Accepts [] := fun _ _ => ⟨_, List.mem_singleton_self _, rfl, rfl⟩

theorem accepts_one {c : α} (h : p c = true) : (one p).Accepts [c] := by
  intro previous rest
  refine ⟨⟨[c], rest, []⟩, ?_, rfl, rfl⟩
  show _ ∈ if p c then _ else _
  rw [if_pos h]
  exact List.mem_singleton_self _

theorem mem_runMany {w : List α} (h : ∀ c ∈ w, p c = true) (rest : List α) : ⟨w, rest, []⟩ ∈ runMany p (w ++ rest) := by
  induction w with
  | nil =>
    cases rest with
    | nil => exact List.mem_singleton_self _
    | cons c rest =>
      rw [List.nil_append, runMany]
      split
      · exact List.mem_append_right _ (List.mem_singleton_self _)
      · exact List.mem_singleton_self _
  | cons c w ih =>
    rw [List.cons_append, runMany, if_pos (h c List.mem_cons_self)]
    have htail := ih fun c' hc' => h c' (List.mem_cons_of_mem c hc')
    exact List.mem_append_left _ (List.mem_map.mpr ⟨_, htail, rfl⟩)

theorem accepts_plus {w : List α} (h : ∀ c ∈ w, p c = true) (hne : w ≠ []) : (plus p).Accepts w := by
  cases w with
  | nil => exact absurd rfl hne
  | cons c w =>
    have hmany : (many p).Accepts w := fun previous rest =>
      ⟨_, mem_runMany (fun c' hc' => h c' (List.mem_cons_of_mem c hc')) rest, rfl, rfl⟩
    exact (accepts_one (h c List.mem_cons_self)).seq hmany

theorem accepts_each {ps : List (α → Bool)} {w : List α} (h : IsOf ps w) : (each ps).Accepts w := by
  induction h with
  | nil => exact accepts_nothing
  | cons hp _ ih => exact (accepts_one hp).seq ih

theorem accepts_literal [DecidableEq α] (word : List α) : (literal word).Accepts word := by
  rw [literal_eq]
  exact accepts_each (isOf_map_iff.mpr rfl)

theorem Accepts.run_ne_nil {w : List α} (h : r.Accepts w) (hw : w <+: text) : r.run previous text ≠ [] := by
  obtain ⟨rest, rfl⟩ := hw
  obtain ⟨m, hm, _⟩ := h previous rest
  exact List.ne_nil_of_mem hm

/-! ## the result, from left to right -/

/-- a character where no match begins stays, and a match is replaced -/
inductive Replaced (r : Regex α) (replace : Match α → List α) : List α → List α → Prop
  | nil : Replaced r replace [] []
  | keep {previous : Option α} {c : α} {text result : List α} (none : r.run previous (c :: text) = [])
      (rest : Replaced r replace text result) : Replaced r replace (c :: text) (c :: result)
  | replace {previous : Option α} {text result : List α} {m : Match α} (found : m ∈ r.run previous text)
      (rest : Replaced r replace m.rest result) : Replaced r replace text (replace m ++ result)

variable {replace : Match α → List α}

theorem subFrom_drop (skip : Nat) (h : skip ≤ text.length) :
    ∃ previous', r.subFrom replace previous skip text = r.subFrom replace previous' 0 (text.drop skip) := by
  induction skip generalizing previous text with
  | zero => exact ⟨previous, rfl⟩
  | succ skip ih =>
    cases text with
    | nil => cases h
    | cons c cs => exact ih (Nat.le_of_succ_le_succ h)

/-- **The result of a substitution.** -/
theorem replaced_sub (hne : ∀ previous text, ∀ m ∈ r.run previous text, m.text ≠ []) (text : List α) :
    Replaced r replace text (r.sub replace text) := by
  have hfrom : ∀ (n : Nat) (text : List α) (previous : Option α), text.length = n →
      Replaced r replace text (r.subFrom replace previous 0 text) := by
    intro n
    induction n using Nat.strong_induction_on with
    | _ n ih =>
      intro text previous hn
      cases text with
      | nil =>
        have hrun : r.run previous [] = [] := by
          refine List.eq_nil_iff_forall_not_mem.mpr fun m hm => hne previous [] m hm ?_
          exact (List.append_eq_nil_iff.mp (text_append_rest hm)).1
        show Replaced r replace [] ((r.run previous []).head?.elim [] replace)
        rw [hrun]
        exact .nil
      | cons c cs =>
        rw [List.length_cons] at hn
        show Replaced r replace (c :: cs) (match (r.run previous (c :: cs)).head? with
          | some m => replace m ++ r.subFrom replace (some c) (m.text.length - 1) cs
          | none => c :: r.subFrom replace (some c) 0 cs)
        cases hhead : (r.run previous (c :: cs)).head? with
        | none => exact .keep (List.head?_eq_none_iff.mp hhead) (ih cs.length (by omega) cs (some c) rfl)
        | some m =>
          have hm := List.mem_of_head? hhead
          have hparts := text_append_rest hm
          obtain ⟨c', t, ht⟩ := List.exists_cons_of_ne_nil (hne _ _ m hm)
          rw [ht, List.cons_append, List.cons_eq_cons] at hparts
          have hlength : t.length + m.rest.length = cs.length := by rw [← List.length_append, hparts.2]
          obtain ⟨previous', hdrop⟩ : ∃ previous', r.subFrom replace (some c) t.length cs = _ :=
            subFrom_drop t.length (by omega)
          have hrest : cs.drop t.length = m.rest := by rw [← hparts.2, List.drop_left]
          have hskip : m.text.length - 1 = t.length := by rw [ht, List.length_cons, Nat.add_sub_cancel]
          show Replaced r replace (c :: cs) (replace m ++ r.subFrom replace (some c) (m.text.length - 1) cs)
          rw [hskip, hdrop, hrest]
          exact .replace hm (ih m.rest.length (by omega) m.rest previous' rfl)
  exact hfrom text.length text none rfl

/-- where no match begins anywhere nothing changes -/
theorem Replaced.eq_self {result : List α} (h : Replaced r replace text result)
    (hnone : ∀ previous t, t <:+ text → r.run previous t = []) : result = text := by
  induction h with
  | nil => rfl
  | keep none rest ih => rw [ih fun previous t ht => hnone previous t (ht.trans (List.suffix_cons _ _))]
  | replace found rest ih =>
    rw [hnone _ _ (List.suffix_refl _)] at found
    cases found

/-! ## masked matches -/

/-- the front of a match stays, and a text in brackets comes in the place of the rest -/
structure Masks (r : Regex α) (replace : Match α → List α) (front : Match α → List α) (opening closing : α)
    (inner : List α) : Prop where
  replace_eq : ∀ m, replace m = front m ++ opening :: (inner ++ [closing])
  front_prefix : ∀ previous text, ∀ m ∈ r.run previous text, front m <+: m.text
  text_ne_nil : ∀ previous text, ∀ m ∈ r.run previous text, m.text ≠ []

section Masked
variable {front : Match α → List α} {opening closing : α} {inner result : List α}

theorem Masks.front_prefix_text (hmasks : Masks r replace front opening closing inner) (h : m ∈ r.run previous text) :
    front m <+: text := by
  refine (hmasks.front_prefix _ _ m h).trans ?_
  rw [← text_append_rest h]
  exact List.prefix_append _ _

/-- how the result begins, up to a bracket -/
theorem Replaced.begins (hmasks : Masks r replace front opening closing inner) (h : Replaced r replace text result)
    {w : List α} (hopening : opening ∉ w) (hw : w <+: result) : w <+: text := by
  induction h generalizing w with
  | nil => exact hw
  | keep none rest ih =>
    cases w with
    | nil => exact List.nil_prefix
    | cons c w =>
      obtain ⟨rfl, hrest⟩ := List.cons_prefix_cons.mp hw
      exact List.cons_prefix_cons.mpr ⟨rfl, ih (fun hc => hopening (List.mem_cons_of_mem _ hc)) hrest⟩
  | @replace previous text result m found rest ih =>
    rw [hmasks.replace_eq, List.append_assoc] at hw
    exact (PyStr.prefix_of_prefix_append_cons hopening hw).trans (hmasks.front_prefix_text found)

/-- **Where a word without brackets in the result comes from**: it begins where no match does, or it is in the front
of a match, or in the text that is put in. -/
theorem Replaced.word_of_result (hmasks : Masks r replace front opening closing inner)
    (h : Replaced r replace text result)
    {w : List α} (hopening : opening ∉ w) (hclosing : closing ∉ w) (hne : w ≠ []) (hw : w <:+: result) :
    (∃ previous t, t <:+ text ∧ r.run previous t = [] ∧ w <+: t) ∨
      (∃ previous t, t <:+ text ∧ ∃ m ∈ r.run previous t, w <:+: front m) ∨ w <:+: inner := by
  induction h with
  | nil => exact absurd (List.eq_nil_of_infix_nil hw) hne
  | @keep previous c text result none rest ih =>
    rcases List.infix_cons_iff.mp hw with hw | hw
    · exact .inl ⟨previous, c :: text, List.suffix_refl _, none, (Replaced.keep none rest).begins hmasks hopening hw⟩
    · rcases ih hw with ⟨previous, t, ht, hrun⟩ | ⟨previous, t, ht, hrun⟩ | hinner
      · exact .inl ⟨previous, t, ht.trans (List.suffix_cons _ _), hrun⟩
      · exact .inr (.inl ⟨previous, t, ht.trans (List.suffix_cons _ _), hrun⟩)
      · exact .inr (.inr hinner)
  | @replace previous text result m found rest ih =>
    rw [hmasks.replace_eq, List.append_assoc, List.cons_append, List.append_assoc] at hw
    rcases (PyStr.infix_append_cons_of_not_mem hopening).mp hw with hfront | hw
    · exact .inr (.inl ⟨previous, text, List.suffix_refl _, m, found, hfront⟩)
    · rcases (PyStr.infix_append_cons_of_not_mem hclosing).mp hw with hinner | hw
      · exact .inr (.inr hinner)
      · have hsuffix : m.rest <:+ text := by
          rw [← text_append_rest found]
          exact List.suffix_append _ _
        rcases ih hw with ⟨previous, t, ht, hrun⟩ | ⟨previous, t, ht, hrun⟩ | hinner
        · exact .inl ⟨previous, t, ht.trans hsuffix, hrun⟩
        · exact .inr (.inl ⟨previous, t, ht.trans hsuffix, hrun⟩)
        · exact .inr (.inr hinner)

/-- a word of the result that is not in the text put in is a word of the text -/
theorem Replaced.word_of_text (hmasks : Masks r replace front opening closing inner)
    (h : Replaced r replace text result)
    {w : List α} (hopening : opening ∉ w) (hclosing : closing ∉ w) (hne : w ≠ []) (hw : w <:+: result) :
    w <:+: text ∨ w <:+: inner := by
  rcases h.word_of_result hmasks hopening hclosing hne hw with
    ⟨_, t, ht, -, hword⟩ | ⟨_, t, ht, m, found, hword⟩ | hinner
  · exact .inl (hword.isInfix.trans ht.isInfix)
  · exact .inl (hword.trans ((hmasks.front_prefix_text found).isInfix.trans ht.isInfix))
  · exact .inr hinner

end Masked

end Regex
