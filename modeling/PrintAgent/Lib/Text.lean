import Mathlib.Data.List.Infix
import PrintAgent.Lib.Url

/-!
# Searching and splitting texts

* `infix_append_cons`   where a word stands in a text that is put together at a separator;
* `infix_flatten`       and in one that is put together of several;
* `contains`            `word in text`;
* `Casing`              what `str.lower` makes of a text that has blanks;
* `isTokenChar`         the characters of an id or a secret;
* `splitlines`          `str.splitlines`, and what it makes of lines that end with a line feed;
* `universalNewlines`   what `read_text` makes of the ends of lines.
-/

namespace PyStr

open PyJson (Str CodePoint)
open PyUrl (Unicode)

section Infix
variable {α : Type} {word before after : List α} {separator : α}

/-- a word is before the separator, after it, or around it -/
theorem infix_append_cons : word <:+: before ++ separator :: after ↔
    word <:+: before ∨ word <:+: after ∨
      ∃ front back, word = front ++ separator :: back ∧ front <:+ before ∧ back <+: after := by
  constructor
  · intro h
    rcases List.infix_append_iff.mp h with h | h | ⟨front, rest, rfl, hfront, hrest⟩
    · exact .inl h
    · rcases List.infix_cons_iff.mp h with h | h
      · cases word with
        | nil => exact .inl List.nil_infix
        | cons c back =>
          obtain ⟨rfl, hback⟩ := List.cons_prefix_cons.mp h
          exact .inr (.inr ⟨[], back, rfl, List.nil_suffix, hback⟩)
      · exact .inr (.inl h)
    · cases rest with
      | nil =>
        rw [List.append_nil]
        exact .inl hfront.isInfix
      | cons c back =>
        obtain ⟨rfl, hback⟩ := List.cons_prefix_cons.mp hrest
        exact .inr (.inr ⟨front, back, rfl, hfront, hback⟩)
  · rintro (h | h | ⟨front, back, rfl, hfront, hback⟩)
    · exact List.infix_append_of_infix_left h
    · exact List.infix_append_of_infix_right (List.infix_cons h)
    · exact List.infix_append_iff.mpr (.inr (.inr ⟨front, _, rfl, hfront, List.cons_prefix_cons.mpr ⟨rfl, hback⟩⟩))

/-- a word without the separator is on one side of it -/
theorem infix_append_cons_of_not_mem (h : separator ∉ word) :
    word <:+: before ++ separator :: after ↔ word <:+: before ∨ word <:+: after := by
  rw [infix_append_cons]
  refine or_congr_right (or_iff_left ?_)
  rintro ⟨front, back, rfl, _⟩
  exact h (List.mem_append_right _ List.mem_cons_self)

/-- a word without the separator that the text begins with is before it -/
theorem prefix_of_prefix_append_cons (h : separator ∉ word) (hw : word <+: before ++ separator :: after) :
    word <+: before := by
  rcases List.prefix_or_prefix_of_prefix hw (List.prefix_append _ _) with hw | ⟨t, rfl⟩
  · exact hw
  · rw [List.prefix_append_right_inj] at hw
    cases t with
    | nil => exact ⟨[], by rw [List.append_nil, List.append_nil]⟩
    | cons c t =>
      obtain ⟨rfl, -⟩ := List.cons_prefix_cons.mp hw
      exact absurd (List.mem_append_right _ List.mem_cons_self) h

/-- two words around a separator are on one side of another one, or around it too -/
theorem infix_append_cons_of_phrase {front back : List α} (hfront : separator ∉ front) (hback : separator ∉ back) :
    front ++ separator :: back <:+: before ++ separator :: after ↔
      front ++ separator :: back <:+: before ∨ front ++ separator :: back <:+: after ∨
        front <:+ before ∧ back <+: after := by
  rw [infix_append_cons]
  refine or_congr_right (or_congr_right ⟨?_, fun h => ⟨front, back, rfl, h⟩⟩)
  rintro ⟨front', back', he, h⟩
  obtain ⟨rfl, _, rfl⟩ := (List.append_cons_inj_of_notMem hfront hback).mp he
  exact h

/-- a word of texts that follow each other is in one of them, or around a place where one ends and the next one
begins -/
theorem infix_flatten {texts : List (List α)} (hne : word ≠ []) :
    word <:+: texts.flatten ↔ (∃ text ∈ texts, word <:+: text) ∨
      ∃ left right front back, texts = left ++ right ∧ word = front ++ back ∧ front ≠ [] ∧ back ≠ [] ∧
        front <:+ left.flatten ∧ back <+: right.flatten := by
  constructor
  · intro h
    induction texts with
    | nil => exact absurd (List.infix_nil.mp h) hne
    | cons text texts ih =>
      rw [List.flatten_cons] at h
      rcases List.infix_append_iff_ne_nil.mp h with h | h | ⟨front, back, hf, hb, rfl, hfront, hback⟩
      · exact .inl ⟨text, List.mem_cons_self, h⟩
      · rcases ih h with ⟨other, hother, h⟩ | ⟨left, right, front, back, rfl, rfl, hf, hb, hfront, hback⟩
        · exact .inl ⟨other, List.mem_cons_of_mem _ hother, h⟩
        · refine .inr ⟨text :: left, right, front, back, rfl, rfl, hf, hb, ?_, hback⟩
          rw [List.flatten_cons]
          exact hfront.trans (List.suffix_append _ _)
      · refine .inr ⟨[text], texts, front, back, rfl, rfl, hf, hb, ?_, hback⟩
        rw [List.flatten_singleton]
        exact hfront
  · rintro (⟨text, htext, h⟩ | ⟨left, right, front, back, rfl, rfl, -, -, hfront, hback⟩)
    · exact h.trans (List.infix_of_mem_flatten htext)
    · rw [List.flatten_append]
      exact List.infix_append_iff.mpr (.inr (.inr ⟨front, back, rfl, hfront, hback⟩))

end Infix

/-- `word in text` -/
def contains (word : String) (text : Str) : Bool := decide (Str.ofString word <:+: text)

theorem contains_iff {word : String} {text : Str} : contains word text = true ↔ Str.ofString word <:+: text :=
  decide_eq_true_iff

theorem toLower_cases (c : Char) : c.toLower = c ∨ 65 ≤ c.toNat ∧ c.toNat ≤ 90 ∧ c.toLower.toNat = c.toNat + 32 := by
  by_cases h : c.val ≥ 'A'.val ∧ c.val ≤ 'Z'.val
  · have hlower : c.toLower = ⟨c.val + ('a'.val - 'A'.val), _⟩ := dif_pos h
    have hlow : 65 ≤ c.toNat := UInt32.le_iff_toNat_le.mp h.1
    have hhigh : c.toNat ≤ 90 := UInt32.le_iff_toNat_le.mp h.2
    refine .inr ⟨hlow, hhigh, ?_⟩
    rw [hlower]
    show (c.val + 32).toNat = c.val.toNat + 32
    rw [UInt32.toNat_add]
    have h32 : (32 : UInt32).toNat = 32 := rfl
    have hval : c.val.toNat ≤ 90 := hhigh
    omega
  · exact .inl (dif_neg h)

/-- `str.lower` takes every character for itself but the capital sigma, which looks at the letters around it;
a blank and a hyphen are none, and no letter becomes a blank -/
structure Casing extends Unicode where
  lower_apart : ∀ (c : Char) (before after : Str), c = ' ' ∨ c = '-' →
    lower (before ++ .scalar c :: after) = lower before ++ .scalar c :: lower after
  mem_of_blank : ∀ s : Str, .scalar ' ' ∈ lower s → .scalar ' ' ∈ s

theorem Casing.lower_word (u : Casing) {word : String}
    (h : word.toList.all (fun c => c.toNat < 0x80 && c.toLower = c) = true) :
    u.lower (Str.ofString word) = Str.ofString word := by
  have hall := List.all_eq_true.mp h
  have hascii : ∀ c ∈ word.toList, c.toNat < 0x80 := fun c hc => by simpa using (Bool.and_eq_true_iff.mp (hall c hc)).1
  have hlower : ∀ c ∈ word.toList, c.toLower = id c := by
    intro c hc
    simpa using (Bool.and_eq_true_iff.mp (hall c hc)).2
  rw [Str.ofString, u.lower_ascii _ hascii, List.map_congr_left hlower, List.map_id]

/-- ASCII alone -/
def Casing.ascii : Casing where
  toUnicode := .ascii
  lower_apart c before after h := by
    rcases h with rfl | rfl <;> simp [Unicode.ascii]
  mem_of_blank s h := by
    obtain ⟨x, hx, he⟩ := List.mem_map.mp h
    cases x with
    | surrogate n => cases he
    | scalar c =>
      have hblank : c.toLower = ' ' := CodePoint.scalar.inj he
      have hc : c = ' ' := by
        rcases toLower_cases c with hc | ⟨hlow, -, hval⟩
        · exact hc.symm.trans hblank
        · rw [hblank] at hval
          have hspace : ' '.toNat = 32 := rfl
          omega
      exact hc ▸ hx

/-! ## words -/

/-- `[A-Za-z0-9_-]` -/
def isTokenChar : CodePoint → Bool
  | .scalar c => c.isAlphanum || c = '_' || c = '-'
  | .surrogate _ => false

/-- a character of a token is a scalar between the hyphen and the small z -/
theorem exists_of_isTokenChar {c : CodePoint} (h : isTokenChar c = true) :
    ∃ d : Char, c = .scalar d ∧ (d.toNat = 0x2D ∨ 0x30 ≤ d.toNat ∧ d.toNat ≤ 0x7A) := by
  cases c with
  | surrogate n => cases h
  | scalar d =>
    refine ⟨d, rfl, ?_⟩
    have hd : ((((decide (d.val ≥ 65 ∧ d.val ≤ 90) || (d.val ≥ 97 && d.val ≤ 122)) || (d.val ≥ 48 && d.val ≤ 57)) ||
      decide (d = '_')) || decide (d = '-')) = true := h
    simp only [Bool.or_eq_true, Bool.and_eq_true, decide_eq_true_eq, ge_iff_le, UInt32.le_iff_toNat_le] at hd
    rcases hd with ((((⟨hlow, hhigh⟩ | ⟨hlow, hhigh⟩) | ⟨hlow, hhigh⟩) | rfl) | rfl)
    · exact .inr ⟨le_trans (by decide) hlow, le_trans hhigh (by decide)⟩
    · exact .inr ⟨le_trans (by decide) hlow, le_trans hhigh (by decide)⟩
    · exact .inr ⟨le_trans (by decide) hlow, le_trans hhigh (by decide)⟩
    · exact .inr (by decide)
    · exact .inl (by decide)

/-! ## lines -/

/-- what ends a line for `str.splitlines` -/
def isLineBreak : CodePoint → Bool
  | .scalar c => c.toNat ∈ [0x0A, 0x0B, 0x0C, 0x0D, 0x1C, 0x1D, 0x1E, 0x85, 0x2028, 0x2029]
  | .surrogate _ => false

/-- the lines, the first of which has begun with `line` -/
def splitlinesFrom (line : Str) : Str → List Str
  | [] => if line = [] then [] else [line]
  | .scalar '\r' :: .scalar '\n' :: s => line :: splitlinesFrom [] s
  | c :: s => if isLineBreak c then line :: splitlinesFrom [] s else splitlinesFrom (line ++ [c]) s

/-- `s.splitlines()` -/
def splitlines (s : Str) : List Str := splitlinesFrom [] s

theorem splitlinesFrom_append {line text rest : Str} (h : ∀ c ∈ text, isLineBreak c = false) :
    splitlinesFrom line (text ++ rest) = splitlinesFrom (line ++ text) rest := by
  induction text generalizing line with
  | nil => rw [List.nil_append, List.append_nil]
  | cons c text ih =>
    have hc : isLineBreak c = false := h c List.mem_cons_self
    have hcr : c ≠ .scalar '\r' := by
      rintro rfl
      cases hc
    have hstep : splitlinesFrom line (c :: (text ++ rest)) = splitlinesFrom (line ++ [c]) (text ++ rest) := by
      rw [splitlinesFrom.eq_3 line c _ (fun _ h => absurd h hcr), hc]
      rfl
    rw [List.cons_append, hstep, ih fun x hx => h x (List.mem_cons_of_mem c hx), List.append_assoc]
    rfl

theorem splitlines_line {line rest : Str} (h : ∀ c ∈ line, isLineBreak c = false) :
    splitlines (line ++ .scalar '\n' :: rest) = line :: splitlines rest := by
  rw [splitlines, splitlinesFrom_append h]
  rfl

/-- what `write_text` puts into the file, where a line ends with two characters or with one -/
def expandNewlines (crlf : Bool) (s : Str) : Str :=
  s.flatMap fun c => if crlf && c = .scalar '\n' then [.scalar '\r', c] else [c]

/-- what `read_text` makes of the characters of a file -/
def universalNewlines : Str → Str
  | [] => []
  | .scalar '\r' :: .scalar '\n' :: s => .scalar '\n' :: universalNewlines s
  | c :: s => (if c = .scalar '\r' then .scalar '\n' else c) :: universalNewlines s

theorem universalNewlines_cons {c : CodePoint} (h : c ≠ .scalar '\r') (s : Str) :
    universalNewlines (c :: s) = c :: universalNewlines s := by
  rw [universalNewlines.eq_3 c s (fun _ hc => absurd hc h), if_neg h]

/-- a text without carriage returns is read as it was written -/
theorem universalNewlines_expandNewlines (crlf : Bool) {s : Str} (h : .scalar '\r' ∉ s) :
    universalNewlines (expandNewlines crlf s) = s := by
  induction s with
  | nil => rfl
  | cons c s ih =>
    have hc : c ≠ .scalar '\r' := fun he => h (he ▸ List.mem_cons_self)
    have hs := ih fun hm => h (List.mem_cons_of_mem c hm)
    show universalNewlines ((if crlf && c = .scalar '\n' then [.scalar '\r', c] else [c]) ++ expandNewlines crlf s) = _
    split
    · rename_i hn
      have hline : c = .scalar '\n' := of_decide_eq_true (Bool.and_eq_true_iff.mp hn).2
      subst hline
      show .scalar '\n' :: universalNewlines (expandNewlines crlf s) = _
      rw [hs]
    · rw [List.singleton_append, universalNewlines_cons hc, hs]

end PyStr
