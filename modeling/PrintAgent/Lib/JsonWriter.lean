import PrintAgent.Lib.Json

/-!
# How Python's JSON writer writes a string

* `encodeStr`             a string, in ASCII;
* `Str.joined`            what the reader makes of it: two lone surrogates that are a pair become one code point;
* `Lexer.run_encodeStr`   the token that is read.
-/

namespace PyJson

namespace CodePoint

def toNat : CodePoint → Nat
  | .scalar c => c.toNat
  | .surrogate n => 0xD800 + n

theorem ofNat_toNat (c : CodePoint) : ofNat c.toNat = some c := by
  cases c with
  | scalar c =>
    have hvalid : c.toNat.isValidChar := c.valid
    have hchar : Char.ofNatAux c.toNat hvalid = Char.ofNat c.toNat := by rw [Char.ofNat, dif_pos hvalid]
    rw [toNat, ofNat, dif_pos hvalid, hchar, Char.ofNat_toNat]
  | surrogate n =>
    have hn := n.isLt
    have hinvalid : ¬ Nat.isValidChar (0xD800 + n) := by
      unfold Nat.isValidChar
      omega
    rw [toNat, ofNat, dif_neg hinvalid, dif_pos (by omega)]
    have hfin : (⟨0xD800 + n - 0xD800, by omega⟩ : Fin 0x800) = n :=
      Fin.ext (Nat.add_sub_cancel_left 0xD800 n)
    rw [hfin]

end CodePoint

/-- `'{:04x}'` of a number below `0x10000`, after `\u` -/
def hexDigits (n : Nat) : List Char :=
  [Nat.digitChar (n / 0x1000), Nat.digitChar (n / 0x100 % 16), Nat.digitChar (n / 0x10 % 16),
    Nat.digitChar (n % 16)]

def escapeUnicode (n : Nat) : Str := ('\\' :: 'u' :: hexDigits n).map .scalar

/-- `ESCAPE_DCT` -/
def escapeOf : Char → Option Char
  | '"' => some '"'
  | '\\' => some '\\'
  | '\n' => some 'n'
  | '\r' => some 'r'
  | '\t' => some 't'
  | c => if c.toNat = 0x0C then some 'f' else if c.toNat = 0x08 then some 'b' else none

def isPrintable (c : Char) : Bool := decide (0x20 ≤ c.toNat ∧ c.toNat ≤ 0x7E)

def escapeChar : CodePoint → Str
  | .scalar c =>
    match escapeOf c with
    | some e => [.scalar '\\', .scalar e]
    | none =>
      if isPrintable c then [.scalar c]
      else if c.toNat < 0x10000 then escapeUnicode c.toNat
      else escapeUnicode (0xD800 + (c.toNat - 0x10000) / 0x400) ++
        escapeUnicode (0xDC00 + (c.toNat - 0x10000) % 0x400)
  | .surrogate n => escapeUnicode (0xD800 + n)

/-- `py_encode_basestring_ascii` -/
def encodeStr (s : Str) : Str := .scalar '"' :: (s.flatMap escapeChar ++ [.scalar '"'])

/-- two lone surrogates that are a pair become one code point -/
def Str.joined : Str → Str
  | .surrogate h :: .surrogate l :: rest =>
    if CodePoint.isHigh (0xD800 + h) && CodePoint.isLow (0xD800 + l) then
      (CodePoint.ofNat (CodePoint.join (0xD800 + h) (0xD800 + l))).toList ++ joined rest
    else .surrogate h :: joined (.surrogate l :: rest)
  | c :: rest => c :: joined rest
  | [] => []

namespace Str

@[simp] theorem joined_scalar (c : Char) (s : Str) :
    joined (.scalar c :: s) = .scalar c :: joined s := by
  rw [joined]
  intro h l rest hc
  cases hc

theorem joined_surrogate_scalar (n : Fin 0x800) (c : Char) (s : Str) :
    joined (.surrogate n :: .scalar c :: s) = .surrogate n :: .scalar c :: joined s := by
  rw [joined, joined_scalar]
  intro h l rest hc hrest
  cases hrest

theorem joined_of_not_high {n : Fin 0x800} (h : CodePoint.isHigh (0xD800 + n) = false) (s : Str) :
    joined (.surrogate n :: s) = .surrogate n :: joined s := by
  match s with
  | [] => rfl
  | .scalar c :: s => rw [joined_surrogate_scalar, joined_scalar]
  | .surrogate l :: s => rw [joined, h, Bool.false_and, if_neg Bool.false_ne_true]

theorem joined_pair {h l : Fin 0x800} (hh : CodePoint.isHigh (0xD800 + h) = true)
    (hl : CodePoint.isLow (0xD800 + l) = true) (s : Str) :
    joined (.surrogate h :: .surrogate l :: s)
      = (CodePoint.ofNat (CodePoint.join (0xD800 + h) (0xD800 + l))).toList ++ joined s := by
  rw [joined, hh, hl, Bool.true_and, if_pos rfl]

theorem joined_of_not_low {l : Fin 0x800} (h : Fin 0x800)
    (hl : CodePoint.isLow (0xD800 + l) = false) (s : Str) :
    joined (.surrogate h :: .surrogate l :: s) = .surrogate h :: joined (.surrogate l :: s) := by
  rw [joined, hl, Bool.and_false, if_neg Bool.false_ne_true]

theorem joined_ne_nil {s : Str} (h : s ≠ []) : joined s ≠ [] := by
  match s with
  | .scalar c :: s => simp
  | .surrogate n :: .scalar c :: s => simp [joined_surrogate_scalar]
  | [.surrogate n] => simp [joined]
  | .surrogate n :: .surrogate l :: s =>
    cases hh : CodePoint.isHigh (0xD800 + n) with
    | false => simp [joined_of_not_high hh]
    | true =>
      cases hl : CodePoint.isLow (0xD800 + l) with
      | false => simp [joined_of_not_low n hl]
      | true =>
        have hn := n.isLt
        have hjoin : ∃ c, CodePoint.ofNat (CodePoint.join (0xD800 + n) (0xD800 + l)) = some c := by
          have hvalid : Nat.isValidChar (CodePoint.join (0xD800 + n) (0xD800 + l)) := by
            simp only [CodePoint.isHigh, CodePoint.isLow, decide_eq_true_eq] at hh hl
            unfold Nat.isValidChar CodePoint.join
            omega
          exact ⟨_, dif_pos hvalid⟩
        obtain ⟨c, hc⟩ := hjoin
        simp [joined_pair hh hl, hc]

theorem joined_map_scalar (l : List Char) : joined (l.map .scalar) = l.map .scalar := by
  induction l with
  | nil => rfl
  | cons c l ih => rw [List.map_cons, joined_scalar, ih]

end Str

/-! ## a string is read back -/

namespace Lexer
variable {acc rest : Str} {high : Option Nat}

@[simp] theorem run_cons (l : Lexer) (c : CodePoint) (cs : Str) :
    l.run (c :: cs) = (l.step c).1 ++ (l.step c).2.run cs := rfl

theorem hexDigit?_digitChar {d : Nat} (h : d < 16) : hexDigit? (Nat.digitChar d) = some d := by
  have hall : ∀ d : Fin 16, hexDigit? (Nat.digitChar d) = some d.val := by decide
  exact hall ⟨d, h⟩

theorem run_digitChar {d digits value : Nat} (h : d < 16) :
    (Lexer.hex acc high digits value).run (.scalar (Nat.digitChar d) :: rest)
      = if digits = 3 then (unicode acc high (value * 16 + d)).run rest
        else (Lexer.hex acc high (digits + 1) (value * 16 + d)).run rest := by
  show (stepChar (.hex acc high digits value) _).1 ++ (stepChar (.hex acc high digits value) _).2.run rest = _
  by_cases hd : digits = 3
  · simp only [stepChar, hexDigit?_digitChar h, if_pos hd, List.nil_append]
  · simp only [stepChar, hexDigit?_digitChar h, if_neg hd, List.nil_append]

theorem run_escapeUnicode {n : Nat} (h : n < 0x10000) :
    (Lexer.str acc high).run (escapeUnicode n ++ rest) = (unicode acc high n).run rest := by
  have hn : (((0 * 16 + n / 0x1000) * 16 + n / 0x100 % 16) * 16 + n / 0x10 % 16) * 16 + n % 16 = n := by
    omega
  show (Lexer.hex acc high 0 0).run (.scalar (Nat.digitChar (n / 0x1000)) :: _) = _
  rw [run_digitChar (by omega), if_neg (by omega)]
  show (Lexer.hex acc high 1 _).run (.scalar (Nat.digitChar (n / 0x100 % 16)) :: _) = _
  rw [run_digitChar (by omega), if_neg (by omega)]
  show (Lexer.hex acc high 2 _).run (.scalar (Nat.digitChar (n / 0x10 % 16)) :: _) = _
  rw [run_digitChar (by omega), if_neg (by omega)]
  show (Lexer.hex acc high 3 _).run (.scalar (Nat.digitChar (n % 16)) :: rest) = _
  rw [run_digitChar (by omega), if_pos rfl, hn]

theorem escape?_of_escapeOf {c e : Char} (h : escapeOf c = some e) : e ≠ 'u' ∧ escape? e = some c := by
  unfold escapeOf at h
  split at h
  all_goals try (cases h; exact ⟨by decide, rfl⟩)
  split at h
  · rename_i hc
    cases h
    refine ⟨by decide, ?_⟩
    rw [← Char.ofNat_toNat c, hc]
    rfl
  · split at h
    · rename_i hc
      cases h
      refine ⟨by decide, ?_⟩
      rw [← Char.ofNat_toNat c, hc]
      rfl
    · cases h

theorem unicode_scalar {c : Char} :
    unicode acc high c.toNat = .str (flush acc high ++ [.scalar c]) none := by
  have hvalid : c.toNat.isValidChar := c.valid
  have hhigh : CodePoint.isHigh c.toNat = false := by
    unfold Nat.isValidChar at hvalid
    simp only [CodePoint.isHigh, decide_eq_false_iff_not]
    omega
  have hlow : CodePoint.isLow c.toNat = false := by
    unfold Nat.isValidChar at hvalid
    simp only [CodePoint.isLow, decide_eq_false_iff_not]
    omega
  have hof : CodePoint.ofNat c.toNat = some (.scalar c) := CodePoint.ofNat_toNat (.scalar c)
  cases high with
  | none => simp [unicode, hhigh, hof, flush]
  | some n => simp [unicode, hhigh, hlow, hof]

/-- a code point above `0xFFFF` is written as two escapes -/
theorem unicode_pair {c : Char} (hc : 0x10000 ≤ c.toNat) :
    (unicode acc high (0xD800 + (c.toNat - 0x10000) / 0x400)).run
        (escapeUnicode (0xDC00 + (c.toNat - 0x10000) % 0x400) ++ rest)
      = (Lexer.str (flush acc high ++ [.scalar c]) none).run rest := by
  have hvalid : c.toNat.isValidChar := c.valid
  have hlt : c.toNat < 0x110000 := by
    unfold Nat.isValidChar at hvalid
    omega
  have hhigh : CodePoint.isHigh (0xD800 + (c.toNat - 0x10000) / 0x400) = true := by
    simp only [CodePoint.isHigh, decide_eq_true_eq]
    omega
  have hnotlow : CodePoint.isLow (0xD800 + (c.toNat - 0x10000) / 0x400) = false := by
    simp only [CodePoint.isLow, decide_eq_false_iff_not]
    omega
  have hlow : CodePoint.isLow (0xDC00 + (c.toNat - 0x10000) % 0x400) = true := by
    simp only [CodePoint.isLow, decide_eq_true_eq]
    omega
  have hjoin : CodePoint.join (0xD800 + (c.toNat - 0x10000) / 0x400)
      (0xDC00 + (c.toNat - 0x10000) % 0x400) = c.toNat := by
    unfold CodePoint.join
    omega
  have hof : CodePoint.ofNat c.toNat = some (.scalar c) := CodePoint.ofNat_toNat (.scalar c)
  have hfirst : unicode acc high (0xD800 + (c.toNat - 0x10000) / 0x400)
      = .str (flush acc high) (some (0xD800 + (c.toNat - 0x10000) / 0x400)) := by
    cases high with
    | none => simp [unicode, hhigh, flush]
    | some n => simp [unicode, hhigh, hnotlow]
  rw [hfirst, run_escapeUnicode (by omega), unicode, if_pos hlow, hjoin, hof]
  rfl

theorem run_escapeChar (c : Char) :
    (Lexer.str acc high).run (escapeChar (.scalar c) ++ rest)
      = (Lexer.str (flush acc high ++ [.scalar c]) none).run rest := by
  cases he : escapeOf c with
  | some e =>
    obtain ⟨hu, hc⟩ := escape?_of_escapeOf he
    simp only [escapeChar, he]
    show (stepChar (.esc acc high) e).1 ++ (stepChar (.esc acc high) e).2.run rest = _
    simp only [stepChar, if_neg hu, hc, List.nil_append]
  | none =>
    have hquote : c ≠ '"' := by
      rintro rfl
      cases he
    have hback : c ≠ '\\' := by
      rintro rfl
      cases he
    cases hp : isPrintable c with
    | true =>
      have hspace : ¬ c.toNat < 0x20 := by
        simp only [isPrintable, decide_eq_true_eq] at hp
        omega
      simp only [escapeChar, he, hp, if_true]
      show (stepChar (.str acc high) c).1 ++ (stepChar (.str acc high) c).2.run rest = _
      simp only [stepChar, if_neg hquote, if_neg hback, if_neg hspace, List.nil_append]
    | false =>
      by_cases hbmp : c.toNat < 0x10000
      · simp only [escapeChar, he, hp, Bool.false_eq_true, if_false, if_pos hbmp]
        rw [run_escapeUnicode hbmp, unicode_scalar]
      · have hvalid : c.toNat.isValidChar := c.valid
        have hlt : c.toNat < 0x110000 := by
          unfold Nat.isValidChar at hvalid
          omega
        simp only [escapeChar, he, hp, Bool.false_eq_true, if_false, if_neg hbmp]
        rw [List.append_assoc, run_escapeUnicode (by omega), unicode_pair (Nat.not_lt.mp hbmp)]

/-- a high surrogate that was escaped just before, if any -/
def IsPending (high : Option Nat) : Prop :=
  ∀ n, high = some n → ∃ k : Fin 0x800, n = 0xD800 + k ∧ CodePoint.isHigh n = true

/-- what is read of `s` after it -/
def goesOn (high : Option Nat) (s : Str) : Str :=
  Str.joined ((high.bind CodePoint.ofNat).toList ++ s)

theorem ofNat_surrogate (k : Fin 0x800) : CodePoint.ofNat (0xD800 + k) = some (.surrogate k) :=
  CodePoint.ofNat_toNat (.surrogate k)

theorem goesOn_scalar (hh : IsPending high) (c : Char) (s : Str) :
    acc ++ goesOn high (.scalar c :: s) = flush acc high ++ [.scalar c] ++ goesOn none s := by
  cases high with
  | none => simp [goesOn, flush]
  | some n =>
    obtain ⟨k, rfl, -⟩ := hh n rfl
    simp [goesOn, flush, ofNat_surrogate, Str.joined_surrogate_scalar]

/-- a surrogate that was written is read: it waits, or goes with the one before it, or stays alone -/
theorem run_surrogate (acc : Str) (hh : IsPending high) (k : Fin 0x800) (s : Str) :
    ∃ acc' high', IsPending high' ∧ acc ++ goesOn high (.surrogate k :: s) = acc' ++ goesOn high' s ∧
      unicode acc high (0xD800 + k) = .str acc' high' := by
  have hnone : IsPending none := fun n hn => by cases hn
  have hsome : CodePoint.isHigh (0xD800 + k) = true → IsPending (some (0xD800 + k)) := by
    rintro hhigh n hn
    cases hn
    exact ⟨k, rfl, hhigh⟩
  cases hhigh : CodePoint.isHigh (0xD800 + k) with
  | true =>
    have hnotlow : CodePoint.isLow (0xD800 + k) = false := by
      simp only [CodePoint.isHigh, decide_eq_true_eq] at hhigh
      simp only [CodePoint.isLow, decide_eq_false_iff_not]
      omega
    refine ⟨flush acc high, some (0xD800 + k), hsome hhigh, ?_, ?_⟩
    · cases high with
      | none => simp [goesOn, flush, ofNat_surrogate]
      | some n =>
        obtain ⟨j, rfl, -⟩ := hh n rfl
        simp [goesOn, flush, ofNat_surrogate, Str.joined_of_not_low j hnotlow]
    · cases high with
      | none => simp [unicode, hhigh, flush]
      | some n => simp [unicode, hhigh, hnotlow]
  | false =>
    have hlow : CodePoint.isLow (0xD800 + k) = true := by
      have hk := k.isLt
      simp only [CodePoint.isHigh, decide_eq_false_iff_not] at hhigh
      simp only [CodePoint.isLow, decide_eq_true_eq]
      omega
    cases high with
    | none =>
      refine ⟨acc ++ [.surrogate k], none, hnone, ?_, ?_⟩
      · simp [goesOn, Str.joined_of_not_high hhigh]
      · simp [unicode, hhigh, ofNat_surrogate]
    | some n =>
      obtain ⟨j, rfl, hj⟩ := hh n rfl
      refine ⟨acc ++ (CodePoint.ofNat (CodePoint.join (0xD800 + j) (0xD800 + k))).toList, none, hnone,
        ?_, ?_⟩
      · simp [goesOn, ofNat_surrogate, Str.joined_pair hj hlow]
      · simp [unicode, hlow]

/-- **A string that was written is read**, from wherever the lexer stands in a string. -/
theorem run_escaped {s : Str} (hh : IsPending high) :
    (Lexer.str acc high).run (s.flatMap escapeChar ++ .scalar '"' :: rest)
      = .str (acc ++ goesOn high s) :: Lexer.start.run rest := by
  induction s generalizing acc high with
  | nil =>
    have hend : goesOn high [] = (high.bind CodePoint.ofNat).toList := by
      cases high with
      | none => rfl
      | some n =>
        obtain ⟨k, rfl, -⟩ := hh n rfl
        rw [goesOn, Option.bind_some, ofNat_surrogate]
        rfl
    rw [hend]
    rfl
  | cons c s ih =>
    rw [List.flatMap_cons, List.append_assoc]
    cases c with
    | scalar c =>
      rw [run_escapeChar, ih fun n hn => by cases hn]
      rw [goesOn_scalar hh]
    | surrogate k =>
      have hk := k.isLt
      obtain ⟨acc', high', hh', hgoes, hstate⟩ := run_surrogate acc hh k s
      rw [show escapeChar (.surrogate k) = escapeUnicode (0xD800 + k) from rfl,
        run_escapeUnicode (by omega), hstate, ih hh', hgoes]

theorem run_encodeStr (s : Str) :
    Lexer.start.run (encodeStr s ++ rest) = .str s.joined :: Lexer.start.run rest := by
  have h : (Lexer.str [] none).run (s.flatMap escapeChar ++ .scalar '"' :: rest) = _ :=
    run_escaped fun n hn => by cases hn
  rw [encodeStr, List.cons_append, List.append_assoc]
  exact h

end Lexer

end PyJson
