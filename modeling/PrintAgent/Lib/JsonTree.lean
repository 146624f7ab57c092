import Mathlib.Data.Nat.Digits.Lemmas
import PrintAgent.Lib.JsonWriter

/-!
# Python's JSON writer on nested values

`json.dumps` of lists and objects in each other, over texts, numbers, booleans and `None`, with `indent` or
without.  A `float` is written as the text that the reader kept of it.

* `Value.encode`     the text; `isText_encode`: printable ASCII, and the line ends of `indent`;
* `Value.tokens`     the tokens of the text (`run_encode`);
* `IsFloat`          the text of a `float`;
* `Value.Fits`       no object has a key twice, and the reader's limits are not reached;
* `loads_encode`     the text is read back.
-/

namespace PyJson

/-- `indent=None` and `indent=width` -/
inductive Layout where
  | compact
  | indent (width : Nat)

namespace Layout

/-- what stands between a bracket and an item, at the item's level -/
def newline : Layout → Nat → Str
  | .compact, _ => []
  | .indent width, level => .scalar '\n' :: List.replicate (width * level) (.scalar ' ')

def comma (l : Layout) (level : Nat) : Str :=
  match l with
  | .compact => [.scalar ',', .scalar ' ']
  | .indent _ => .scalar ',' :: l.newline level

end Layout

def decimalDigits (n : Nat) : List Nat := if n = 0 then [0] else (Nat.digits 10 n).reverse

/-- `int.__repr__` -/
def encodeInt (n : Int) : Str :=
  (if n < 0 then [.scalar '-'] else []) ++ (decimalDigits n.natAbs).map fun d => .scalar (Nat.digitChar d)

def word (s : List Char) : Str := s.map .scalar

/-- printable ASCII -/
def IsWritten (c : CodePoint) : Prop := ∃ d : Char, c = .scalar d ∧ 0x20 ≤ d.toNat ∧ d.toNat ≤ 0x7E

instance (c : CodePoint) : Decidable (IsWritten c) :=
  match c with
  | .scalar d => decidable_of_iff (0x20 ≤ d.toNat ∧ d.toNat ≤ 0x7E)
      ⟨fun h => ⟨d, rfl, h⟩, fun ⟨_, he, h⟩ => CodePoint.scalar.inj he ▸ h⟩
  | .surrogate _ => isFalse fun ⟨_, he, _⟩ => CodePoint.noConfusion he

/-- no number goes on here -/
def Lexer.Ends (rest : Str) : Prop :=
  rest = [] ∨ ∃ c more, rest = .scalar c :: more ∧ digit? c = none ∧ c ≠ '.' ∧ c ≠ 'e' ∧ c ≠ 'E'

/-- the text of a `float`: it is read as one, whatever follows -/
structure IsFloat (literal : String) : Prop where
  reads : ∀ rest, Lexer.Ends rest →
    Lexer.start.run (Str.ofString literal ++ rest) = .word (.float literal) :: Lexer.start.run rest
  printed : ∀ c ∈ Str.ofString literal, IsWritten c

example : IsFloat "2.5" where
  reads rest hrest := by
    rcases hrest with rfl | ⟨c, more, rfl, hdigit, -, he, hE⟩
    · rfl
    · have hno : c.isDigit = false := by
        cases h : c.isDigit with
        | false => rfl
        | true =>
          rw [Lexer.digit?, h, if_pos rfl] at hdigit
          cases hdigit
      show (Lexer.stepChar (.frac "2.5") c).1 ++ (Lexer.stepChar (.frac "2.5") c).2.run more = _
      rw [Lexer.stepChar, if_neg (by rw [hno]; exact Bool.false_ne_true), if_neg (not_or.mpr ⟨he, hE⟩)]
      rfl
  printed := by decide

namespace Value

mutual

/-- `json.dumps`, `level` containers deep -/
def encode (l : Layout) (level : Nat) : Value → Str
  | .null => word ['n', 'u', 'l', 'l']
  | .bool true => word ['t', 'r', 'u', 'e']
  | .bool false => word ['f', 'a', 'l', 's', 'e']
  | .int n => encodeInt n
  | .float literal => Str.ofString literal
  | .str s => encodeStr s
  | .arr [] => word ['[', ']']
  | .arr (item :: items) =>
    .scalar '[' :: (l.newline (level + 1) ++ encode l (level + 1) item ++ encodeItems l level items)
  | .obj [] => word ['\x7b', '\x7d']
  | .obj ((key, item) :: members) =>
    .scalar '\x7b' :: (l.newline (level + 1) ++ encodeStr key ++ word [':', ' '] ++ encode l (level + 1) item ++
      encodeMembers l level members)

def encodeItems (l : Layout) (level : Nat) : List Value → Str
  | [] => l.newline level ++ [.scalar ']']
  | item :: items => l.comma (level + 1) ++ encode l (level + 1) item ++ encodeItems l level items

def encodeMembers (l : Layout) (level : Nat) : List (Str × Value) → Str
  | [] => l.newline level ++ [.scalar '\x7d']
  | (key, item) :: members =>
    l.comma (level + 1) ++ encodeStr key ++ word [':', ' '] ++ encode l (level + 1) item ++
      encodeMembers l level members

end

mutual

def tokens : Value → List Token
  | .null => [.word .null]
  | .bool b => [.word (.bool b)]
  | .int n => [.int (n < 0) (decimalDigits n.natAbs)]
  | .float literal => [.word (.float literal)]
  | .str s => [.str s.joined]
  | .arr [] => [.lbracket, .rbracket]
  | .arr (item :: items) => .lbracket :: (tokens item ++ itemTokens items)
  | .obj [] => [.lbrace, .rbrace]
  | .obj ((key, item) :: members) => .lbrace :: .str key.joined :: .colon :: (tokens item ++ restTokens members)

def itemTokens : List Value → List Token
  | [] => [.rbracket]
  | item :: items => .comma :: (tokens item ++ itemTokens items)

def restTokens : List (Str × Value) → List Token
  | [] => [.rbrace]
  | (key, item) :: members => .comma :: .str key.joined :: .colon :: (tokens item ++ restTokens members)

end

mutual

def joined : Value → Value
  | .null => .null
  | .bool b => .bool b
  | .int n => .int n
  | .float literal => .float literal
  | .str s => .str s.joined
  | .arr items => .arr (joinedItems items)
  | .obj members => .obj (joinedMembers members)

def joinedItems : List Value → List Value
  | [] => []
  | item :: items => joined item :: joinedItems items

def joinedMembers : List (Str × Value) → List (Str × Value)
  | [] => []
  | (key, item) :: members => (key.joined, joined item) :: joinedMembers members

end

mutual

/-- the reader's limits are not reached, `depth` containers deep, and no key comes twice -/
def Fits (limits : Limits) (depth : Nat) : Value → Prop
  | .null | .bool _ | .str _ => True
  | .int n => limits.intMaxStrDigits ≠ 0 → (decimalDigits n.natAbs).length ≤ limits.intMaxStrDigits
  | .float literal => IsFloat literal
  | .arr items => depth < limits.recursionLimit ∧ FitsItems limits (depth + 1) items
  | .obj members =>
    depth < limits.recursionLimit ∧ (members.map fun m => m.1.joined).Nodup ∧ FitsMembers limits (depth + 1) members

def FitsItems (limits : Limits) (depth : Nat) : List Value → Prop
  | [] => True
  | item :: items => Fits limits depth item ∧ FitsItems limits depth items

def FitsMembers (limits : Limits) (depth : Nat) : List (Str × Value) → Prop
  | [] => True
  | (_, item) :: members => Fits limits depth item ∧ FitsMembers limits depth members

end

end Value

/-! ## integers -/

section Digits
variable {n : Nat}

theorem decimalDigits_ne_nil (n : Nat) : decimalDigits n ≠ [] := by
  by_cases h : n = 0
  · rw [decimalDigits, if_pos h]
    exact List.cons_ne_nil 0 []
  · rw [decimalDigits, if_neg h]
    exact fun he => Nat.digits_ne_nil_iff_ne_zero.mpr h (List.reverse_eq_nil_iff.mp he)

theorem lt_of_mem_decimalDigits {d : Nat} (h : d ∈ decimalDigits n) : d < 10 := by
  by_cases hn : n = 0
  · rw [decimalDigits, if_pos hn, List.mem_singleton] at h
    omega
  · rw [decimalDigits, if_neg hn, List.mem_reverse] at h
    exact Nat.digits_lt_base (by omega) h

theorem length_decimalDigits_le {k : Nat} (h : n < 10 ^ (k + 1)) : (decimalDigits n).length ≤ k + 1 := by
  by_cases hn : n = 0
  · rw [decimalDigits, if_pos hn]
    show 1 ≤ k + 1
    omega
  · rw [decimalDigits, if_neg hn, List.length_reverse]
    exact (Nat.digits_length_le_iff (by omega) n).mpr h

theorem foldl_decimalDigits (n : Nat) : (decimalDigits n).foldl (fun n d => n * 10 + d) 0 = n := by
  by_cases hn : n = 0
  · rw [decimalDigits, if_pos hn, hn]
    rfl
  · rw [decimalDigits, if_neg hn, List.foldl_reverse]
    have hfold : ∀ l : List Nat, l.foldr (fun d n => n * 10 + d) 0 = Nat.ofDigits 10 l := by
      intro l
      induction l with
      | nil => rfl
      | cons d l ih =>
        rw [List.foldr_cons, ih, Nat.ofDigits_cons]
        omega
    rw [hfold, Nat.ofDigits_digits]

theorem intValue_decimalDigits (n : Int) : Reader.intValue (n < 0) (decimalDigits n.natAbs) = n := by
  unfold Reader.intValue
  rw [foldl_decimalDigits]
  by_cases h : n < 0
  · rw [decide_eq_true h]
    show -(n.natAbs : Int) = n
    omega
  · rw [decide_eq_false h]
    show (n.natAbs : Int) = n
    omega

/-- a number of one digit is that digit, and any other does not begin with a zero -/
theorem decimalDigits_cases (n : Nat) :
    decimalDigits n = [0] ∨ ∃ d rest, decimalDigits n = d :: rest ∧ d ≠ 0 ∧ d < 10 ∧ ∀ x ∈ rest, x < 10 := by
  by_cases hn : n = 0
  · exact .inl (if_pos hn)
  · obtain ⟨d, rest, hrest⟩ := List.exists_cons_of_ne_nil (decimalDigits_ne_nil n)
    have hlt : ∀ x ∈ d :: rest, x < 10 := fun x hx => lt_of_mem_decimalDigits (hrest ▸ hx)
    refine .inr ⟨d, rest, hrest, ?_, hlt d List.mem_cons_self, fun x hx => hlt x (List.mem_cons_of_mem d hx)⟩
    have hdigits : (Nat.digits 10 n).reverse = d :: rest := by
      rw [← hrest, decimalDigits, if_neg hn]
    have hlast := Nat.getLast_digit_ne_zero 10 hn
    have hhead : (Nat.digits 10 n).getLast (Nat.digits_ne_nil_iff_ne_zero.mpr hn) = d := by
      rw [List.getLast_eq_head_reverse]
      simp only [hdigits, List.head_cons]
    exact hhead ▸ hlast

end Digits

namespace Lexer
variable {rest : Str}

theorem ends_cons {c : Char} (h : c = ',' ∨ c = ']' ∨ c = '\x7d' ∨ c = '\n') (rest : Str) :
    Ends (.scalar c :: rest) := by
  rcases h with rfl | rfl | rfl | rfl <;> exact .inr ⟨_, rest, rfl, by decide, by decide, by decide, by decide⟩

theorem digit?_digitChar {d : Nat} (h : d < 10) : digit? (Nat.digitChar d) = some d := by
  have hall : ∀ d : Fin 10, digit? (Nat.digitChar d) = some d.val := by decide
  exact hall ⟨d, h⟩

theorem run_afterInt {negative : Bool} {digits : List Nat} {l : Lexer} (hl : l = .int negative digits ∨
    digits = [0] ∧ l = .zero negative) (hrest : Ends rest) : l.run rest = .int negative digits :: start.run rest := by
  rcases hrest with rfl | ⟨c, more, rfl, hdigit, hdot, he, hE⟩
  · rcases hl with rfl | ⟨rfl, rfl⟩ <;> rfl
  · have hafter : ∀ literal, afterInt (.int negative digits) literal c = ends (.int negative digits) c := by
      intro literal
      rw [afterInt, if_neg hdot, if_neg (not_or.mpr ⟨he, hE⟩)]
    have hstep : l.stepChar c = ends (.int negative digits) c := by
      rcases hl with rfl | ⟨rfl, rfl⟩
      · simp only [stepChar, hdigit, hafter]
      · simp only [stepChar, hafter]
    rw [run_cons]
    show (l.stepChar c).1 ++ (l.stepChar c).2.run more = _
    rw [hstep]
    rfl

theorem run_digits {negative : Bool} (hrest : Ends rest) {more : List Nat} (hmore : ∀ x ∈ more, x < 10)
    (digits : List Nat) :
    (Lexer.int negative digits).run (more.map (fun d => .scalar (Nat.digitChar d)) ++ rest)
      = .int negative (digits ++ more) :: start.run rest := by
  induction more generalizing digits with
  | nil =>
    rw [List.append_nil]
    exact run_afterInt (.inl rfl) hrest
  | cons d more ih =>
    have hd : digit? (Nat.digitChar d) = some d := digit?_digitChar (hmore d List.mem_cons_self)
    show (stepChar (.int negative digits) (Nat.digitChar d)).1 ++
      (stepChar (.int negative digits) (Nat.digitChar d)).2.run _ = _
    simp only [stepChar, hd, List.nil_append]
    refine (ih (fun x hx => hmore x (List.mem_cons_of_mem d hx)) (digits ++ [d])).trans ?_
    rw [List.append_assoc]
    rfl

/-- a digit that is no zero, where a token may begin and after a sign -/
theorem step_firstDigit {d : Nat} (hd : d < 10) (h0 : d ≠ 0) :
    start.stepChar (Nat.digitChar d) = ([], .int false [d]) ∧
      minus.stepChar (Nat.digitChar d) = ([], .int true [d]) := by
  have hall : ∀ d : Fin 10, d.val ≠ 0 →
      isWhitespace (Nat.digitChar d) = false ∧ Nat.digitChar d ≠ 'I' ∧ Nat.digitChar d ≠ '0' := by decide
  obtain ⟨hspace, hI, hzero⟩ := hall ⟨d, hd⟩ h0
  have hdigit := digit?_digitChar hd
  constructor
  · have hcases : d = 1 ∨ d = 2 ∨ d = 3 ∨ d = 4 ∨ d = 5 ∨ d = 6 ∨ d = 7 ∨ d = 8 ∨ d = 9 := by omega
    rcases hcases with rfl | rfl | rfl | rfl | rfl | rfl | rfl | rfl | rfl <;> rfl
  · simp only [stepChar, if_neg hI, if_neg hzero, hdigit]

theorem run_encodeInt (n : Int) (hrest : Ends rest) :
    start.run (encodeInt n ++ rest) = .int (n < 0) (decimalDigits n.natAbs) :: start.run rest := by
  have hdigits : ∀ negative : Bool, (if negative then minus else start).run
      ((decimalDigits n.natAbs).map (fun d => .scalar (Nat.digitChar d)) ++ rest)
        = .int negative (decimalDigits n.natAbs) :: start.run rest := by
    intro negative
    rcases decimalDigits_cases n.natAbs with hzero | ⟨d, more, hcons, h0, hd, hmore⟩
    · rw [hzero]
      cases negative with
      | true =>
        show (Lexer.zero true).run rest = _
        exact run_afterInt (.inr ⟨rfl, rfl⟩) hrest
      | false =>
        show (Lexer.zero false).run rest = _
        exact run_afterInt (.inr ⟨rfl, rfl⟩) hrest
    · obtain ⟨hstart, hminus⟩ := step_firstDigit hd h0
      rw [hcons]
      cases negative with
      | true =>
        show (minus.stepChar (Nat.digitChar d)).1 ++ (minus.stepChar (Nat.digitChar d)).2.run _ = _
        rw [hminus]
        exact run_digits hrest hmore [d]
      | false =>
        show (start.stepChar (Nat.digitChar d)).1 ++ (start.stepChar (Nat.digitChar d)).2.run _ = _
        rw [hstart]
        exact run_digits hrest hmore [d]
  unfold encodeInt
  by_cases h : n < 0
  · rw [if_pos h, decide_eq_true h]
    exact hdigits true
  · rw [if_neg h, decide_eq_false h]
    exact hdigits false

end Lexer

/-! ## the tokens of a text -/

namespace Lexer
variable {limits : Limits} {rest : Str} (l : Layout) (level : Nat)

theorem run_newline : start.run (l.newline level ++ rest) = start.run rest := by
  have hblanks : ∀ n, start.run (List.replicate n (.scalar ' ') ++ rest) = start.run rest := by
    intro n
    induction n with
    | zero => rfl
    | succ n ih => exact ih
  cases l with
  | compact => rfl
  | indent width => exact hblanks (width * level)

theorem run_comma : start.run (l.comma level ++ rest) = .comma :: start.run rest := by
  cases l with
  | compact => rfl
  | indent width =>
    show Token.comma :: start.run ((Layout.indent width).newline level ++ rest) = _
    rw [run_newline]

theorem ends_comma : Ends (l.comma level ++ rest) := by
  cases l with
  | compact => exact ends_cons (.inl rfl) _
  | indent width => exact ends_cons (.inl rfl) _

theorem ends_newline {c : Char} (hc : c = ']' ∨ c = '\x7d') : Ends (l.newline level ++ .scalar c :: rest) := by
  cases l with
  | compact => exact ends_cons (.inr (hc.imp_right .inl)) rest
  | indent width => exact ends_cons (.inr (.inr (.inr rfl))) _

theorem ends_encodeItems (items : List Value) (rest : Str) : Ends (Value.encodeItems l level items ++ rest) := by
  cases items with
  | nil =>
    rw [Value.encodeItems, List.append_assoc]
    exact ends_newline l level (.inl rfl)
  | cons item items =>
    rw [Value.encodeItems, List.append_assoc, List.append_assoc]
    exact ends_comma l (level + 1)

theorem ends_encodeMembers (members : List (Str × Value)) (rest : Str) :
    Ends (Value.encodeMembers l level members ++ rest) := by
  cases members with
  | nil =>
    rw [Value.encodeMembers, List.append_assoc]
    exact ends_newline l level (.inr rfl)
  | cons m members =>
    rw [Value.encodeMembers]
    simp only [List.append_assoc]
    exact ends_comma l (level + 1)

theorem run_word {cs : List Char} {token : Value} (hrest : Ends rest) :
    (Lexer.word cs token).run (PyJson.word cs ++ rest) = .word token :: start.run rest := by
  induction cs with
  | nil =>
    rcases hrest with rfl | ⟨c, more, rfl, -⟩
    · rfl
    · rfl
  | cons c cs ih =>
    show (stepChar (.word (c :: cs) token) c).1 ++
      (stepChar (.word (c :: cs) token) c).2.run (PyJson.word cs ++ rest) = _
    simp only [stepChar, if_true]
    exact ih

mutual

/-- **The tokens of what was written.** -/
theorem run_encode (level : Nat) (t : Value) {depth : Nat} (h : t.Fits limits depth) {rest : Str} (hrest : Ends rest) :
    start.run (t.encode l level ++ rest) = t.tokens ++ start.run rest := by
  match t with
  | .null => exact run_word hrest
  | .bool true => exact run_word hrest
  | .bool false => exact run_word hrest
  | .int n => exact run_encodeInt n hrest
  | .float literal => exact h.reads rest hrest
  | .str s => exact run_encodeStr s
  | .arr [] => rfl
  | .arr (item :: items) =>
    have hitems := run_encodeItems level items h.2.2 hrest
    have hfirst := run_encode (level + 1) item h.2.1 (ends_encodeItems l level items rest)
    rw [Value.encode, List.cons_append, List.append_assoc, List.append_assoc]
    show Token.lbracket :: start.run (l.newline (level + 1) ++ (item.encode l (level + 1) ++ (_ ++ rest))) = _
    rw [run_newline, hfirst, hitems, Value.tokens, List.cons_append, List.append_assoc]
  | .obj [] => rfl
  | .obj ((key, item) :: members) =>
    have hmembers := run_encodeMembers level members h.2.2.2 hrest
    have hfirst := run_encode (level + 1) item h.2.2.1 (ends_encodeMembers l level members rest)
    rw [Value.encode, List.cons_append]
    simp only [List.append_assoc]
    show Token.lbrace :: start.run (l.newline (level + 1) ++ (encodeStr key ++ (PyJson.word [':', ' '] ++ _))) = _
    rw [run_newline, run_encodeStr]
    show Token.lbrace :: Token.str key.joined :: Token.colon :: start.run (item.encode l (level + 1) ++ (_ ++ rest)) = _
    rw [hfirst, hmembers, Value.tokens]
    simp only [List.cons_append, List.append_assoc]

theorem run_encodeItems (level : Nat) (items : List Value) {depth : Nat} (h : Value.FitsItems limits depth items)
    {rest : Str} (hrest : Ends rest) :
    start.run (Value.encodeItems l level items ++ rest) = Value.itemTokens items ++ start.run rest := by
  match items with
  | [] =>
    rw [Value.encodeItems, List.append_assoc, run_newline]
    rfl
  | item :: items =>
    have hitems := run_encodeItems level items h.2 hrest
    have hfirst := run_encode (level + 1) item h.1 (ends_encodeItems l level items rest)
    rw [Value.encodeItems, List.append_assoc, List.append_assoc, run_comma, hfirst, hitems, Value.itemTokens,
      List.cons_append, List.append_assoc]

theorem run_encodeMembers (level : Nat) (members : List (Str × Value)) {depth : Nat}
    (h : Value.FitsMembers limits depth members) {rest : Str} (hrest : Ends rest) :
    start.run (Value.encodeMembers l level members ++ rest) = Value.restTokens members ++ start.run rest := by
  match members with
  | [] =>
    rw [Value.encodeMembers, List.append_assoc, run_newline]
    rfl
  | (key, item) :: members =>
    have hmembers := run_encodeMembers level members h.2 hrest
    have hfirst := run_encode (level + 1) item h.1 (ends_encodeMembers l level members rest)
    rw [Value.encodeMembers]
    simp only [List.append_assoc]
    rw [run_comma, run_encodeStr]
    show Token.comma :: Token.str key.joined :: Token.colon :: start.run (item.encode l (level + 1) ++ (_ ++ rest)) = _
    rw [hfirst, hmembers, Value.restTokens]
    simp only [List.cons_append, List.append_assoc]

end

end Lexer

/-! ## the reader -/

namespace Reader

theorem setItem_of_notMem {members : List (Str × Value)} {key : Str} (value : Value)
    (h : key ∉ members.map Prod.fst) : Value.setItem members key value = members ++ [(key, value)] := by
  have hno : members.any (·.1 = key) = false := by
    rw [List.any_eq_false]
    intro m hm hkey
    exact h (List.mem_map.mpr ⟨m, hm, of_decide_eq_true hkey⟩)
  rw [Value.setItem, hno, if_neg Bool.false_ne_true]

variable {limits : Limits} {more : List Token}

/-- no value begins with the end of a list -/
theorem tokens_cons (t : Value) : ∃ first others, t.tokens = first :: others ∧ first ≠ .rbracket := by
  match t with
  | .null | .bool _ | .int _ | .float _ | .str _ | .arr [] | .obj [] => exact ⟨_, _, rfl, by simp⟩
  | .arr (_ :: _) | .obj ((_, _) :: _) => exact ⟨_, _, rfl, by simp⟩

theorem foldlM_openArr (t : Value) (stack : List Frame) :
    (t.tokens ++ more).foldlM (step limits) (.openArr stack)
      = (t.tokens ++ more).foldlM (step limits) (.awaitValue (.arr [] :: stack)) := by
  obtain ⟨first, others, htokens, hfirst⟩ := tokens_cons t
  have hstep : step limits (.openArr stack) first = step limits (.awaitValue (.arr [] :: stack)) first := by
    cases first <;> first | rfl | exact absurd rfl hfirst
  rw [htokens, List.cons_append, List.foldlM_cons, List.foldlM_cons, hstep]

mutual

/-- **The tokens of a value are read as the value.** -/
theorem foldlM_tokens (t : Value) (stack : List Frame) (h : t.Fits limits stack.length) (more : List Token) :
    (t.tokens ++ more).foldlM (step limits) (.awaitValue stack) =
      more.foldlM (step limits) (complete t.joined stack) := by
  match t with
  | .null => rfl
  | .bool b => rfl
  | .float literal => rfl
  | .str s => rfl
  | .int n =>
    have hfits : ¬ (limits.intMaxStrDigits ≠ 0 ∧ limits.intMaxStrDigits < (decimalDigits n.natAbs).length) :=
      fun hlong => Nat.not_lt.mpr (h hlong.1) hlong.2
    have hbegins : begins limits stack (.int (n < 0) (decimalDigits n.natAbs)) = .ok (complete (.int n) stack) := by
      have hvalue := intValue_decimalDigits n
      show (if _ ∧ _ then _ else Except.ok (complete (.int (intValue (n < 0) (decimalDigits n.natAbs))) stack)) = _
      rw [if_neg hfits, hvalue]
    show ((begins limits stack (.int (n < 0) (decimalDigits n.natAbs))).bind fun r => more.foldlM (step limits) r) = _
    rw [hbegins]
    rfl
  | .arr [] =>
    have hopen : begins limits stack .lbracket = .ok (.openArr stack) := if_pos h.1
    show ((begins limits stack .lbracket).bind fun r => (Token.rbracket :: more).foldlM (step limits) r) = _
    rw [hopen]
    rfl
  | .arr (item :: items) =>
    have hopen : begins limits stack .lbracket = .ok (.openArr stack) := if_pos h.1
    have hfirst := foldlM_tokens item (.arr [] :: stack) h.2.1 (Value.itemTokens items ++ more)
    have hitems := foldlM_itemTokens items [item.joined] stack h.2.2 more
    show ((begins limits stack .lbracket).bind fun r =>
      ((item.tokens ++ Value.itemTokens items) ++ more).foldlM (step limits) r) = _
    rw [hopen]
    show ((item.tokens ++ Value.itemTokens items) ++ more).foldlM (step limits) (.openArr stack) = _
    rw [List.append_assoc, foldlM_openArr, hfirst]
    exact hitems
  | .obj [] =>
    have hopen : begins limits stack .lbrace = .ok (.openObj stack) := if_pos h.1
    show ((begins limits stack .lbrace).bind fun r => (Token.rbrace :: more).foldlM (step limits) r) = _
    rw [hopen]
    rfl
  | .obj ((key, item) :: members) =>
    have hopen : begins limits stack .lbrace = .ok (.openObj stack) := if_pos h.1
    have hfirst := foldlM_tokens item (.obj [] key.joined :: stack) h.2.2.1 (Value.restTokens members ++ more)
    have hmembers := foldlM_restTokens' members [(key.joined, item.joined)] stack h.2.1 h.2.2.2 more
    show ((begins limits stack .lbrace).bind fun r => (Token.str key.joined :: Token.colon ::
      ((item.tokens ++ Value.restTokens members) ++ more)).foldlM (step limits) r) = _
    rw [hopen]
    show ((item.tokens ++ Value.restTokens members) ++ more).foldlM (step limits)
      (.awaitValue (.obj [] key.joined :: stack)) = _
    rw [List.append_assoc, hfirst]
    exact hmembers

theorem foldlM_itemTokens (items : List Value) (before : List Value) (stack : List Frame)
    (h : Value.FitsItems limits (stack.length + 1) items) (more : List Token) :
    (Value.itemTokens items ++ more).foldlM (step limits) (.afterItem before stack)
      = more.foldlM (step limits) (complete (.arr (before ++ Value.joinedItems items)) stack) := by
  match items with
  | [] =>
    rw [Value.joinedItems, List.append_nil]
    rfl
  | item :: items =>
    have hfirst := foldlM_tokens item (.arr before :: stack) h.1 (Value.itemTokens items ++ more)
    have hitems := foldlM_itemTokens items (before ++ [item.joined]) stack h.2 more
    show ((item.tokens ++ Value.itemTokens items) ++ more).foldlM (step limits) (.awaitValue (.arr before :: stack)) = _
    rw [List.append_assoc, hfirst]
    refine hitems.trans ?_
    rw [List.append_assoc]
    rfl

theorem foldlM_restTokens' (members : List (Str × Value)) (before : List (Str × Value)) (stack : List Frame)
    (hkeys : (before.map Prod.fst ++ members.map fun m => m.1.joined).Nodup)
    (h : Value.FitsMembers limits (stack.length + 1) members) (more : List Token) :
    (Value.restTokens members ++ more).foldlM (step limits) (.afterMember before stack)
      = more.foldlM (step limits) (complete (.obj (before ++ Value.joinedMembers members)) stack) := by
  match members with
  | [] =>
    rw [Value.joinedMembers, List.append_nil]
    rfl
  | (key, item) :: members =>
    have hnew : key.joined ∉ before.map Prod.fst := by
      intro hmem
      exact (List.nodup_append.mp hkeys).2.2 _ hmem _ List.mem_cons_self rfl
    have hfirst := foldlM_tokens item (.obj before key.joined :: stack) h.1 (Value.restTokens members ++ more)
    have hmembers := foldlM_restTokens' members (before ++ [(key.joined, item.joined)]) stack
      (by simpa using hkeys) h.2 more
    show ((item.tokens ++ Value.restTokens members) ++ more).foldlM (step limits)
      (.awaitValue (.obj before key.joined :: stack)) = _
    rw [List.append_assoc, hfirst]
    show (Value.restTokens members ++ more).foldlM (step limits)
      (.afterMember (Value.setItem before key.joined item.joined) stack) = _
    rw [setItem_of_notMem _ hnew]
    refine hmembers.trans ?_
    rw [List.append_assoc]
    rfl

end

end Reader

/-! ## the text -/

section Written
variable {c : CodePoint}

theorem isWritten_word {s : List Char} (hs : (s.all fun d => decide (0x20 ≤ d.toNat ∧ d.toNat ≤ 0x7E)) = true)
    (hc : c ∈ word s) : IsWritten c := by
  obtain ⟨d, hd, rfl⟩ := List.mem_map.mp hc
  exact ⟨d, rfl, of_decide_eq_true (List.all_eq_true.mp hs d hd)⟩

theorem isWritten_digitChar {d : Nat} (h : d < 16) : IsWritten (.scalar (Nat.digitChar d)) := by
  have hall : ∀ d : Fin 16, 0x20 ≤ (Nat.digitChar d).toNat ∧ (Nat.digitChar d).toNat ≤ 0x7E := by decide
  exact ⟨_, rfl, hall ⟨d, h⟩⟩

theorem isWritten_escapeUnicode {n : Nat} (h : n < 0x10000) (hc : c ∈ escapeUnicode n) : IsWritten c := by
  obtain ⟨d, hd, rfl⟩ := List.mem_map.mp hc
  rcases List.mem_cons.mp hd with rfl | hd
  · exact ⟨_, rfl, by decide, by decide⟩
  · rcases List.mem_cons.mp hd with rfl | hd
    · exact ⟨_, rfl, by decide, by decide⟩
    · simp only [hexDigits, List.mem_cons, List.not_mem_nil, or_false] at hd
      rcases hd with rfl | rfl | rfl | rfl <;> exact isWritten_digitChar (by omega)

theorem isWritten_escapeChar (x : CodePoint) (hc : c ∈ escapeChar x) : IsWritten c := by
  cases x with
  | surrogate n =>
    have hn := n.isLt
    exact isWritten_escapeUnicode (by omega) hc
  | scalar d =>
    have hvalid : d.toNat.isValidChar := d.valid
    have hlt : d.toNat < 0x110000 := by
      unfold Nat.isValidChar at hvalid
      omega
    unfold escapeChar at hc
    cases he : escapeOf d with
    | some e =>
      simp only [he, List.mem_cons, List.not_mem_nil, or_false] at hc
      rcases hc with rfl | rfl
      · exact ⟨_, rfl, by decide, by decide⟩
      · unfold escapeOf at he
        split at he
        all_goals try (cases he; exact ⟨_, rfl, by decide, by decide⟩)
        split at he
        · cases he
          exact ⟨_, rfl, by decide, by decide⟩
        · split at he
          · cases he
            exact ⟨_, rfl, by decide, by decide⟩
          · cases he
    | none =>
      simp only [he] at hc
      cases hp : isPrintable d with
      | true =>
        rw [hp, if_pos rfl, List.mem_singleton] at hc
        exact ⟨d, hc, of_decide_eq_true hp⟩
      | false =>
        rw [hp, if_neg Bool.false_ne_true] at hc
        by_cases hbmp : d.toNat < 0x10000
        · rw [if_pos hbmp] at hc
          exact isWritten_escapeUnicode hbmp hc
        · rw [if_neg hbmp] at hc
          rcases List.mem_append.mp hc with hc | hc
          · exact isWritten_escapeUnicode (by omega) hc
          · exact isWritten_escapeUnicode (by omega) hc

theorem isWritten_encodeStr (s : Str) (hc : c ∈ encodeStr s) : IsWritten c := by
  rcases List.mem_cons.mp hc with rfl | hc
  · exact ⟨_, rfl, by decide, by decide⟩
  · rcases List.mem_append.mp hc with hc | hc
    · obtain ⟨x, -, hx⟩ := List.mem_flatMap.mp hc
      exact isWritten_escapeChar x hx
    · rw [List.mem_singleton.mp hc]
      exact ⟨_, rfl, by decide, by decide⟩

theorem isWritten_encodeInt (n : Int) (hc : c ∈ encodeInt n) : IsWritten c := by
  rcases List.mem_append.mp hc with hc | hc
  · split at hc
    · rw [List.mem_singleton.mp hc]
      exact ⟨_, rfl, by decide, by decide⟩
    · cases hc
  · obtain ⟨d, hd, rfl⟩ := List.mem_map.mp hc
    have hlt := lt_of_mem_decimalDigits hd
    exact isWritten_digitChar (by omega)

/-- what stands in a text: printable ASCII, or a line end where there is an indentation -/
def Layout.IsText : Layout → CodePoint → Prop
  | .compact, c => IsWritten c
  | .indent _, c => IsWritten c ∨ c = .scalar '\n'

variable (l : Layout) (level : Nat)

theorem Layout.isText_of_isWritten (h : IsWritten c) : l.IsText c := by
  cases l with
  | compact => exact h
  | indent width => exact .inl h

theorem Layout.isText_newline (hc : c ∈ l.newline level) : l.IsText c := by
  cases l with
  | compact => cases hc
  | indent width =>
    rcases List.mem_cons.mp hc with rfl | hc
    · exact .inr rfl
    · rw [List.eq_of_mem_replicate hc]
      exact .inl ⟨_, rfl, by decide, by decide⟩

theorem Layout.isText_comma (hc : c ∈ l.comma level) : l.IsText c := by
  cases l with
  | compact => exact isWritten_word (s := [',', ' ']) (by decide) hc
  | indent width =>
    rcases List.mem_cons.mp hc with rfl | hc
    · exact .inl ⟨_, rfl, by decide, by decide⟩
    · exact Layout.isText_newline _ level hc

end Written

section Written
variable {limits : Limits} (l : Layout) {c : CodePoint}

theorem isText_colon (hc : c ∈ word [':', ' ']) : l.IsText c := l.isText_of_isWritten (isWritten_word (by decide) hc)

mutual

theorem isText_encode (level : Nat) (t : Value) {depth : Nat} (h : t.Fits limits depth) (hc : c ∈ t.encode l level) :
    l.IsText c := by
  match t with
  | .null => exact l.isText_of_isWritten (isWritten_word (by decide) hc)
  | .bool true => exact l.isText_of_isWritten (isWritten_word (by decide) hc)
  | .bool false => exact l.isText_of_isWritten (isWritten_word (by decide) hc)
  | .int n => exact l.isText_of_isWritten (isWritten_encodeInt n hc)
  | .float literal => exact l.isText_of_isWritten (h.printed c hc)
  | .str s => exact l.isText_of_isWritten (isWritten_encodeStr s hc)
  | .arr [] => exact l.isText_of_isWritten (isWritten_word (by decide) hc)
  | .obj [] => exact l.isText_of_isWritten (isWritten_word (by decide) hc)
  | .arr (item :: items) =>
    rw [Value.encode] at hc
    simp only [List.mem_cons, List.mem_append] at hc
    rcases hc with rfl | (hc | hc) | hc
    · exact l.isText_of_isWritten ⟨_, rfl, by decide, by decide⟩
    · exact l.isText_newline _ hc
    · exact isText_encode (level + 1) item h.2.1 hc
    · exact isText_encodeItems level items h.2.2 hc
  | .obj ((key, item) :: members) =>
    rw [Value.encode] at hc
    simp only [List.mem_cons, List.mem_append] at hc
    rcases hc with rfl | (((hc | hc) | hc) | hc) | hc
    · exact l.isText_of_isWritten ⟨_, rfl, by decide, by decide⟩
    · exact l.isText_newline _ hc
    · exact l.isText_of_isWritten (isWritten_encodeStr key hc)
    · exact isText_colon l hc
    · exact isText_encode (level + 1) item h.2.2.1 hc
    · exact isText_encodeMembers level members h.2.2.2 hc

theorem isText_encodeItems (level : Nat) (items : List Value) {depth : Nat} (h : Value.FitsItems limits depth items)
    (hc : c ∈ Value.encodeItems l level items) : l.IsText c := by
  match items with
  | [] =>
    rw [Value.encodeItems] at hc
    rcases List.mem_append.mp hc with hc | hc
    · exact l.isText_newline _ hc
    · exact l.isText_of_isWritten (isWritten_word (s := [']']) (by decide) hc)
  | item :: items =>
    rw [Value.encodeItems] at hc
    simp only [List.mem_append] at hc
    rcases hc with (hc | hc) | hc
    · exact l.isText_comma _ hc
    · exact isText_encode (level + 1) item h.1 hc
    · exact isText_encodeItems level items h.2 hc

theorem isText_encodeMembers (level : Nat) (members : List (Str × Value)) {depth : Nat}
    (h : Value.FitsMembers limits depth members) (hc : c ∈ Value.encodeMembers l level members) : l.IsText c := by
  match members with
  | [] =>
    rw [Value.encodeMembers] at hc
    rcases List.mem_append.mp hc with hc | hc
    · exact l.isText_newline _ hc
    · exact l.isText_of_isWritten (isWritten_word (s := ['\x7d']) (by decide) hc)
  | (key, item) :: members =>
    rw [Value.encodeMembers] at hc
    simp only [List.mem_append] at hc
    rcases hc with (((hc | hc) | hc) | hc) | hc
    · exact l.isText_comma _ hc
    · exact l.isText_of_isWritten (isWritten_encodeStr key hc)
    · exact isText_colon l hc
    · exact isText_encode (level + 1) item h.1 hc
    · exact isText_encodeMembers level members h.2 hc

end

end Written

/-- **What was written is read back.** -/
theorem loads_encode {limits : Limits} (l : Layout) {t : Value} (h : t.Fits limits 0) :
    loads limits (.text (t.encode l 0)) = .ok t.joined := by
  have hhead : (t.encode l 0).head? ≠ some (.scalar (Char.ofNat 0xFEFF)) := by
    intro he
    have hmark : l.IsText (.scalar (Char.ofNat 0xFEFF)) := isText_encode l 0 t h (List.mem_of_mem_head? he)
    have hno : ¬ IsWritten (.scalar (Char.ofNat 0xFEFF)) := by decide
    cases l with
    | compact => exact hno hmark
    | indent width => exact hmark.elim hno (by decide)
  have hlex : lex (t.encode l 0) = t.tokens := by
    have hrun : Lexer.start.run (t.encode l 0 ++ []) = t.tokens ++ Lexer.start.run [] :=
      Lexer.run_encode l 0 t h (.inl rfl)
    rw [List.append_nil] at hrun
    exact hrun.trans (List.append_nil _)
  have hread : (t.tokens ++ []).foldlM (Reader.step limits) (.awaitValue []) = _ := Reader.foldlM_tokens t [] h []
  rw [List.append_nil] at hread
  rw [loads, if_neg hhead, read, hlex, hread]
  rfl

end PyJson
