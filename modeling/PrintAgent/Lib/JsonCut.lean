import PrintAgent.Lib.JsonTree
import PrintAgent.Lib.Loop

/-!
# A text that was cut

The text that `json.dumps` writes for an object ends with the bracket that closes it.  In a text that is cut
before its end more brackets are opened than closed, so the object stays open.

* `Lexer.run_cut`    the tokens of a text that is cut are those of the whole text so far;
* `Reader.depth`     how many containers are open, by the brackets that were read (`Reader.depth_foldlM`);
* `IsNested`         tokens whose brackets close each other, as those of a value do (`isNested_tokens`);
* `loads_cut`        what was cut is not read.
-/

namespace PyJson

def Token.opens : Token → Int
  | .lbrace | .lbracket => 1
  | .rbrace | .rbracket => -1
  | _ => 0

def opened (tokens : List Token) : Int := (tokens.map Token.opens).sum

@[simp] theorem opened_nil : opened [] = 0 := rfl

@[simp] theorem opened_cons (t : Token) (tokens : List Token) : opened (t :: tokens) = t.opens + opened tokens := by
  simp only [opened, List.map_cons, List.sum_cons]

@[simp] theorem opened_append (tokens more : List Token) : opened (tokens ++ more) = opened tokens + opened more := by
  simp only [opened, List.map_append, List.sum_append]

namespace Lexer

/-- the tokens of the first part of a text, and where the lexer stands after it -/
theorem run_cut (l : Lexer) (s rest : Str) :
    ∃ (tokens : List Token) (l' : Lexer), l.run (s ++ rest) = tokens ++ l'.run rest ∧
    l.run s = tokens ++ l'.finish := by
  induction s generalizing l with
  | nil => exact ⟨[], l, rfl, rfl⟩
  | cons c s ih =>
    obtain ⟨tokens, l', hall, hcut⟩ := ih (l.step c).2
    refine ⟨(l.step c).1 ++ tokens, l', ?_, ?_⟩
    · show (l.step c).1 ++ (l.step c).2.run (s ++ rest) = _
      rw [hall, List.append_assoc]
    · show (l.step c).1 ++ (l.step c).2.run s = _
      rw [hcut, List.append_assoc]

/-- where the text ends no container does, unless the text is wrong -/
theorem opened_finish (l : Lexer) : .bad ∈ l.finish ∨ opened l.finish = 0 := by
  cases l with
  | start | stuck => exact .inr rfl
  | word rest value =>
    cases rest with
    | nil => exact .inr rfl
    | cons c rest => exact .inl List.mem_cons_self
  | zero negative => exact .inr rfl
  | int negative digits => exact .inr rfl
  | frac literal | expDigits literal => exact .inr rfl
  | dot token literal | exp token literal signed => exact .inl (List.mem_cons_of_mem _ List.mem_cons_self)
  | str s high | esc s high | hex s high digits value | minus => exact .inl List.mem_cons_self

end Lexer

namespace Reader
variable {limits : Limits}

def depth : Reader → Nat
  | .awaitValue stack => stack.length
  | .openArr stack | .openObj stack | .awaitKey _ stack | .awaitColon _ _ stack | .afterItem _ stack
  | .afterMember _ stack => stack.length + 1
  | .done _ => 0

@[simp] theorem depth_complete (value : Value) (stack : List Frame) : (complete value stack).depth = stack.length := by
  cases stack with
  | nil => rfl
  | cons frame stack => cases frame <;> rfl

theorem depth_begins {stack : List Frame} {t : Token} {r : Reader} (h : begins limits stack t = .ok r) :
    (r.depth : Int) = stack.length + t.opens := by
  cases t with
  | word value | str s =>
    cases h
    rw [depth_complete]
    exact (Int.add_zero _).symm
  | int negative digits =>
    rw [begins] at h
    split at h
    · cases h
    · cases h
      rw [depth_complete]
      exact (Int.add_zero _).symm
  | lbracket | lbrace =>
    rw [begins] at h
    split at h
    · cases h
      rfl
    · cases h
  | rbrace | rbracket | colon | comma | bad => cases h

theorem depth_step {r r' : Reader} {t : Token} (h : step limits r t = .ok r') :
    (r'.depth : Int) = r.depth + t.opens := by
  cases r with
  | awaitValue stack => exact depth_begins h
  | openArr stack =>
    have hitem : ∀ t, begins limits (.arr [] :: stack) t = .ok r' →
        (r'.depth : Int) = (openArr stack).depth + t.opens := fun t => depth_begins
    cases t with
    | rbracket =>
      cases h
      rw [depth_complete]
      show (stack.length : Int) = ((stack.length + 1 : Nat) : Int) + -1
      omega
    | lbrace | lbracket | colon | comma | str _ | int _ _ | word _ | rbrace | bad =>
      exact hitem _ h
  | openObj stack =>
    cases t with
    | rbrace =>
      cases h
      rw [depth_complete]
      show (stack.length : Int) = ((stack.length + 1 : Nat) : Int) + -1
      omega
    | str key =>
      cases h
      exact (Int.add_zero _).symm
    | _ => cases h
  | awaitKey members stack =>
    cases t with
    | str key =>
      cases h
      exact (Int.add_zero _).symm
    | _ => cases h
  | awaitColon members key stack =>
    cases t with
    | colon =>
      cases h
      exact (Int.add_zero _).symm
    | _ => cases h
  | afterItem items stack =>
    cases t with
    | rbracket =>
      cases h
      rw [depth_complete]
      show (stack.length : Int) = ((stack.length + 1 : Nat) : Int) + -1
      omega
    | comma =>
      cases h
      exact (Int.add_zero _).symm
    | _ => cases h
  | afterMember members stack =>
    cases t with
    | rbrace =>
      cases h
      rw [depth_complete]
      show (stack.length : Int) = ((stack.length + 1 : Nat) : Int) + -1
      omega
    | comma =>
      cases h
      exact (Int.add_zero _).symm
    | _ => cases h
  | done value => cases h

theorem depth_foldlM {tokens : List Token} {r r' : Reader} (h : tokens.foldlM (step limits) r = .ok r') :
    (r'.depth : Int) = r.depth + opened tokens := by
  induction tokens generalizing r with
  | nil =>
    cases h
    exact (Int.add_zero _).symm
  | cons t tokens ih =>
    rw [List.foldlM_cons] at h
    obtain ⟨r₁, hstep, hrest⟩ := bind_eq_ok.mp h
    have hfirst := depth_step hstep
    have hothers := ih hrest
    rw [opened_cons]
    omega

/-- no token is read after a wrong one -/
theorem step_bad (r : Reader) : step limits r .bad = .error .jsonDecodeError := by
  cases r <;> rfl

theorem foldlM_bad {tokens : List Token} (h : .bad ∈ tokens) (r r' : Reader) :
    tokens.foldlM (step limits) r ≠ .ok r' := by
  induction tokens generalizing r with
  | nil => cases h
  | cons t tokens ih =>
    intro hfold
    rw [List.foldlM_cons] at hfold
    obtain ⟨r₁, hstep, hrest⟩ := bind_eq_ok.mp hfold
    rcases List.mem_cons.mp h with rfl | h
    · rw [step_bad] at hstep
      cases hstep
    · exact ih h r₁ hrest

end Reader

/-! ## brackets -/

/-- each bracket that is closed was opened before, and each that is opened is closed -/
structure IsNested (tokens : List Token) : Prop where
  closed : opened tokens = 0
  opened_prefix : ∀ p, p <+: tokens → 0 ≤ opened p

theorem isNested_nil : IsNested [] where
  closed := rfl
  opened_prefix p hp := by
    rw [List.prefix_nil.mp hp]
    exact Int.le_refl 0

theorem isNested_singleton {t : Token} (h : t.opens = 0) : IsNested [t] where
  closed := by rw [opened_cons, h, opened_nil, Int.add_zero]
  opened_prefix p hp := by
    rcases List.prefix_cons_iff.mp hp with rfl | ⟨q, rfl, hq⟩
    · exact Int.le_refl 0
    · rw [List.prefix_nil.mp hq, opened_cons, h]
      exact Int.le_refl 0

namespace IsNested
variable {tokens more : List Token}

theorem append (h : IsNested tokens) (hmore : IsNested more) : IsNested (tokens ++ more) where
  closed := by rw [opened_append, h.closed, hmore.closed, Int.add_zero]
  opened_prefix p hp := by
    rcases List.prefix_or_prefix_of_prefix hp (List.prefix_append tokens more) with hshort | ⟨q, rfl⟩
    · exact h.opened_prefix p hshort
    · rw [opened_append, h.closed, Int.zero_add]
      exact hmore.opened_prefix q ((List.prefix_append_right_inj tokens).mp hp)

theorem cons {t : Token} (ht : t.opens = 0) (h : IsNested tokens) : IsNested (t :: tokens) :=
  (isNested_singleton ht).append h

theorem bracket {first last : Token} (hfirst : first.opens = 1) (hlast : last.opens = -1) (h : IsNested tokens) :
    IsNested (first :: (tokens ++ [last])) where
  closed := by
    rw [opened_cons, opened_append, opened_cons, opened_nil, hfirst, hlast, h.closed]
    rfl
  opened_prefix p hp := by
    rcases List.prefix_cons_iff.mp hp with rfl | ⟨q, rfl, hq⟩
    · exact Int.le_refl 0
    · rw [opened_cons, hfirst]
      rcases List.prefix_concat_iff.mp hq with rfl | hq
      · rw [opened_append, h.closed, opened_cons, opened_nil, hlast]
        decide
      · have hinner := h.opened_prefix q hq
        omega

end IsNested

mutual

theorem isNested_tokens (v : Value) : IsNested v.tokens := by
  match v with
  | .null | .bool _ | .int _ | .float _ | .str _ => exact isNested_singleton rfl
  | .arr [] => exact isNested_nil.bracket rfl rfl
  | .obj [] => exact isNested_nil.bracket rfl rfl
  | .arr (item :: items) =>
    obtain ⟨inner, hitems, hinner⟩ := exists_itemTokens items
    rw [Value.tokens, hitems, ← List.append_assoc]
    exact ((isNested_tokens item).append hinner).bracket rfl rfl
  | .obj ((key, item) :: members) =>
    obtain ⟨inner, hmembers, hinner⟩ := exists_restTokens members
    have hall : IsNested (.str key.joined :: .colon :: (item.tokens ++ inner)) :=
      .cons rfl (.cons rfl ((isNested_tokens item).append hinner))
    rw [Value.tokens, hmembers, ← List.append_assoc]
    exact hall.bracket rfl rfl

theorem exists_itemTokens (items : List Value) :
    ∃ inner, Value.itemTokens items = inner ++ [.rbracket] ∧ IsNested inner := by
  match items with
  | [] => exact ⟨[], rfl, isNested_nil⟩
  | item :: items =>
    obtain ⟨inner, hitems, hinner⟩ := exists_itemTokens items
    refine ⟨.comma :: (item.tokens ++ inner), ?_, .cons rfl ((isNested_tokens item).append hinner)⟩
    rw [Value.itemTokens, hitems, ← List.append_assoc, List.cons_append]

theorem exists_restTokens (members : List (Str × Value)) :
    ∃ inner, Value.restTokens members = inner ++ [.rbrace] ∧ IsNested inner := by
  match members with
  | [] => exact ⟨[], rfl, isNested_nil⟩
  | (key, item) :: members =>
    obtain ⟨inner, hmembers, hinner⟩ := exists_restTokens members
    refine ⟨.comma :: .str key.joined :: .colon :: (item.tokens ++ inner), ?_,
      .cons rfl (.cons rfl (.cons rfl ((isNested_tokens item).append hinner)))⟩
    rw [Value.restTokens, hmembers, ← List.append_assoc]
    rfl

end

/-! ## an object without its last bracket -/

section Cut
variable {limits : Limits} (l : Layout) (level : Nat) {depth : Nat}

/-- the members after the first one, without the end -/
theorem exists_open (members : List (Str × Value)) (h : Value.FitsMembers limits depth members) :
    ∃ body inner, Value.encodeMembers l level members = body ++ [.scalar '\x7d'] ∧ Lexer.start.run body = inner ∧
      Lexer.Ends body ∧ IsNested inner := by
  induction members with
  | nil =>
    refine ⟨l.newline level, [], rfl, ?_, ?_, isNested_nil⟩
    · have hrun : Lexer.start.run (l.newline level ++ []) = _ := Lexer.run_newline l level
      rw [List.append_nil] at hrun
      exact hrun
    · cases l with
      | compact => exact .inl rfl
      | indent width => exact Lexer.ends_cons (.inr (.inr (.inr rfl))) _
  | cons m members ih =>
    obtain ⟨key, item⟩ := m
    obtain ⟨body, inner, hbody, hrun, hends, hinner⟩ := ih h.2
    refine ⟨l.comma (level + 1) ++ encodeStr key ++ word [':', ' '] ++ item.encode l (level + 1) ++ body,
      .comma :: .str key.joined :: .colon :: (item.tokens ++ inner), ?_, ?_, ?_,
      .cons rfl (.cons rfl (.cons rfl ((isNested_tokens item).append hinner)))⟩
    · rw [Value.encodeMembers, hbody, ← List.append_assoc]
    · simp only [List.append_assoc]
      rw [Lexer.run_comma, Lexer.run_encodeStr]
      show Token.comma :: Token.str key.joined :: Token.colon :: Lexer.start.run (item.encode l (level + 1) ++ body) = _
      rw [Lexer.run_encode l (level + 1) item h.1 hends, hrun]
    · simp only [List.append_assoc]
      exact Lexer.ends_comma l (level + 1)

end Cut

/-- an object whose text so far opens more than it closes is not read, wherever the text ends -/
theorem read_open {limits : Limits} {s : Str} (rest : Str) (h : IsNested (Lexer.start.run (s ++ rest)))
    (value : Value) :
    read limits (.scalar '\x7b' :: s) ≠ .ok value := by
  obtain ⟨tokens, l, hall, hcut⟩ := Lexer.run_cut .start s rest
  have hlex : lex (.scalar '\x7b' :: s) = .lbrace :: (tokens ++ l.finish) := by
    rw [← hcut]
    rfl
  have hopened : 0 ≤ opened tokens := h.opened_prefix tokens ⟨l.run rest, hall.symm⟩
  intro hread
  rw [read, hlex] at hread
  obtain ⟨r, hfold, hfinish⟩ := bind_eq_ok.mp hread
  rcases l.opened_finish with hbad | hends
  · exact Reader.foldlM_bad (List.mem_cons_of_mem _ (List.mem_append_right _ hbad)) _ _ hfold
  · have hdepth := Reader.depth_foldlM hfold
    rw [opened_cons, opened_append, hends] at hdepth
    cases r with
    | done value =>
      have hzero : (0 : Int) = 0 + (1 + (opened tokens + 0)) := hdepth
      omega
    | _ => cases hfinish

/-- **A strict prefix of what was written is not read.** -/
theorem loads_cut {limits : Limits} (l : Layout) {m : Str × Value} {members : List (Str × Value)}
    (h : (Value.obj (m :: members)).Fits limits 0) {s : Str} (hbegins : s <+: (Value.obj (m :: members)).encode l 0)
    (hne : s ≠ (Value.obj (m :: members)).encode l 0) (value : Value) : loads limits (.text s) ≠ .ok value := by
  obtain ⟨key, item⟩ := m
  obtain ⟨body, inner, hbody, hrun, hends, hinner⟩ := exists_open l 0 members h.2.2.2
  have htext : (Value.obj ((key, item) :: members)).encode l 0 = .scalar '\x7b' ::
      (l.newline 1 ++ (encodeStr key ++ (word [':', ' '] ++ (item.encode l 1 ++ body)))) ++ [.scalar '\x7d'] := by
    rw [Value.encode, hbody]
    simp only [List.append_assoc, List.cons_append]
  have hopen : s <+: .scalar '\x7b' ::
      (l.newline 1 ++ (encodeStr key ++ (word [':', ' '] ++ (item.encode l 1 ++ body)))) := by
    rw [htext] at hbegins hne
    exact (List.prefix_concat_iff.mp hbegins).resolve_left hne
  cases s with
  | nil =>
    intro h
    cases h
  | cons c s =>
    obtain ⟨rfl, rest, hrest⟩ := List.cons_prefix_cons.mp hopen
    refine read_open rest ?_ value
    have htokens : Lexer.start.run (l.newline 1 ++ (encodeStr key ++ (word [':', ' '] ++ (item.encode l 1 ++ body))))
        = .str key.joined :: .colon :: (item.tokens ++ inner) := by
      rw [Lexer.run_newline, Lexer.run_encodeStr]
      show Token.str key.joined :: Token.colon :: Lexer.start.run (item.encode l 1 ++ body) = _
      rw [Lexer.run_encode l 1 item h.2.2.1 hends, hrun]
    rw [hrest, htokens]
    exact .cons rfl (.cons rfl ((isNested_tokens item).append hinner))

end PyJson
