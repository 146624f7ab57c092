import PrintAgent.Credentials
import PrintAgent.Lib.JsonWriter
import PrintAgent.Lib.Percent
import PrintAgent.Lib.RegexSub

/-!
# Logging

`logging_setup.py`, and what `logging` makes of a record: its template is redacted, then formatted with the
arguments, then put into a line together with the exception.

* `redact`               `_redact`; the result is clean, and redacting it again changes nothing;
* `emitted`              the line of a handler;
* `NoSecretLogged`       no line has a secret, and the second filter changes nothing;
* `LogRecord.pieces`     what the line is made of: the template, and the texts that are put in beside it;
* `KeepsClean`           none of those has a secret, and none is formed between them;
* `no_secret_logged`     the one holds exactly with the other;
* `argument_logged`      a secret that is an argument.
-/

namespace PrintAgent

open PyJson (Str CodePoint)
open PyStr PyFormat

def foldCase : CodePoint → CodePoint
  | .scalar c => .scalar c.toLower
  | .surrogate n => .surrogate n

def agentSecretPrefix : Str := Str.ofString "eres_agent_live_"

/-- `[A-Za-z0-9_\-\.]` -/
def isBearerChar (c : CodePoint) : Bool := isTokenChar c || decide (c = .scalar '.')

/-- the same under `re.IGNORECASE`, where the letters I, K and S have more forms -/
def isBearerCharAnyCase (c : CodePoint) : Bool :=
  isBearerChar c || decide (c ∈ [0x130, 0x131, 0x17F, 0x212A].map fun n => CodePoint.scalar (Char.ofNat n))

def agentSecretPattern : Regex CodePoint := .cat [.literal agentSecretPrefix, .plus isTokenChar]

def bearerTokenPattern : Regex CodePoint :=
  .cat [.group (.cat [.each ("Bearer".toList.map fun c x => decide (foldCase x = .scalar c.toLower)), .plus isSpace]),
    .plus isBearerCharAnyCase]

def redactedWord : Str := Str.ofString "redacted"

def redact (message : Str) : Str :=
  let redacted := agentSecretPattern.sub (fun _ => Str.ofString "eres_agent_live_[redacted]") message
  bearerTokenPattern.sub (fun m => m.group 1 ++ Str.ofString "[redacted]") redacted

/-- a record, by the texts that its parts give: `msg` is `str(record.msg)`, unless that raises; the other
texts are those of `formatTime` with each format, of `formatException` and of `formatStack` -/
structure LogRecord where
  msg : Option Str
  args : Args
  levelname : Str
  name : Str
  ts : Str
  asctime : Str
  excInfo : Option Str
  stackInfo : Option Str

namespace LogRecord

def filter (record : LogRecord) : LogRecord := { record with msg := record.msg.map redact }

/-- `if self.args:` -/
def hasArgs (record : LogRecord) : Bool :=
  match record.args with
  | .positional args => !args.isEmpty
  | .mapping _ _ => true

/-- `getMessage`, or nothing where it raises -/
def getMessage (record : LogRecord) : Option Str :=
  record.msg.bind fun msg => if record.hasArgs then percent msg record.args else some msg

end LogRecord

def encodeMember (m : String × Str) : Str :=
  PyJson.encodeStr (Str.ofString m.1) ++ Str.ofString ": " ++ PyJson.encodeStr m.2

/-- `json.dumps` of texts -/
def dumpsTexts (members : List (String × Str)) : Str :=
  .scalar '\x7b' :: ((Str.ofString ", ").intercalate (members.map encodeMember) ++ [.scalar '\x7d'])

/-- `JsonFormatter.format` -/
def jsonFormat (record : LogRecord) : Option Str :=
  record.getMessage.map fun message =>
    dumpsTexts ([("ts", record.ts), ("level", record.levelname), ("logger", record.name), ("message", message)]
      ++ (record.excInfo.map fun text => ("exc_info", text)).toList)

/-- what follows `s` for the text of an exception or of a stack, if there is one -/
def onNextLine (s : Str) : Option Str → Str
  | none => []
  | some text => if text = [] then [] else (if s.getLast? = some (.scalar '\n') then [] else [.scalar '\n']) ++ text

/-- `%(asctime)s %(levelname)s %(name)s` -/
def consoleFields (record : LogRecord) : Str :=
  record.asctime ++ Str.ofString " " ++ record.levelname ++ Str.ofString " " ++ record.name

def consoleHeader (record : LogRecord) : Str := consoleFields record ++ Str.ofString ": "

/-- `logging.Formatter.format` -/
def consoleFormat (record : LogRecord) : Option Str :=
  record.getMessage.map fun message =>
    let s := consoleHeader record ++ message
    let s := s ++ onNextLine s record.excInfo
    s ++ onNextLine s record.stackInfo

/-- the handlers of `configure_logging` -/
inductive LogHandler where
  | file | console
  deriving DecidableEq, Repr

def LogHandler.format : LogHandler → LogRecord → Option Str
  | .file => jsonFormat
  | .console => consoleFormat

/-- the line of a handler, or nothing where a formatter raises -/
def emitted (handler : LogHandler) (record : LogRecord) : Option Str := handler.format record.filter

/-! ## what is not to be logged -/

def IsAgentSecret (w : Str) : Prop := ∃ c, isTokenChar c = true ∧ w = agentSecretPrefix ++ [c]

def IsBearer (isHead : Str → Prop) (isChar : CodePoint → Bool) (w : Str) : Prop :=
  ∃ head space c, isHead head ∧ space ≠ [] ∧ (∀ x ∈ space, isSpace x = true) ∧ isChar c = true ∧
    w = head ++ space ++ [c]

def IsBearerHead (anyCase : Bool) (head : Str) : Prop :=
  if anyCase then head.map foldCase = Str.ofString "bearer" else head = Str.ofString "Bearer"

/-- an agent secret or a bearer token, up to its first character; `Bearer` as it stands or in any case -/
def IsLeak (anyCase : Bool) (w : Str) : Prop := IsAgentSecret w ∨ IsBearer (IsBearerHead anyCase) isBearerChar w

def IsClean (anyCase : Bool) (text : Str) : Prop := ∀ w, w <:+: text → ¬ IsLeak anyCase w

/-- no line has a secret, and the filter of the second handler changes no line -/
def NoSecretLogged (anyCase : Bool) (record : LogRecord) : Prop :=
  (∀ handler line, emitted handler record = some line → IsClean anyCase line) ∧
    ∀ handler : LogHandler, handler.format record.filter.filter = handler.format record.filter

/-! ## the result of redacting -/

section Redacted
variable {previous : Option CodePoint} {text w : Str} {m : Regex.Match CodePoint} {isHead : Str → Prop}
  {isChar : CodePoint → Bool} {anyCase : Bool}

theorem exists_of_agentSecret (h : m ∈ agentSecretPattern.run previous text) :
    ∃ c rest, isTokenChar c = true ∧ m.text = agentSecretPrefix ++ c :: rest := by
  obtain ⟨m₁, h₁, _, _, m₂, h₂, rfl⟩ := Regex.exists_of_seq h
  obtain ⟨m₃, h₃, _, _, m₄, _, rfl⟩ := Regex.exists_of_seq h₂
  obtain ⟨c, cs, htext, hc, -, -⟩ := Regex.exists_of_plus h₃
  refine ⟨c, cs ++ m₄.text, hc, ?_⟩
  show m₁.text ++ (m₃.text ++ m₄.text) = _
  rw [(Regex.text_of_literal h₁).1, htext]
  rfl

theorem accepts_agentSecret (h : IsAgentSecret w) : agentSecretPattern.Accepts w := by
  obtain ⟨c, hc, rfl⟩ := h
  have hplus : (Regex.plus isTokenChar).Accepts [c] := by
    refine Regex.accepts_plus (fun x hx => ?_) (List.cons_ne_nil c [])
    rw [List.mem_singleton.mp hx]
    exact hc
  exact (Regex.accepts_literal agentSecretPrefix).seq (hplus.seq Regex.accepts_nothing)

theorem agentSecret_masks : Regex.Masks agentSecretPattern (fun _ => Str.ofString "eres_agent_live_[redacted]")
    (fun _ => agentSecretPrefix) (.scalar '[') (.scalar ']') redactedWord where
  replace_eq _ := by decide +kernel
  front_prefix previous text m h := by
    obtain ⟨c, rest, -, htext⟩ := exists_of_agentSecret h
    rw [htext]
    exact List.prefix_append _ _
  text_ne_nil previous text m h := by
    obtain ⟨c, rest, -, htext⟩ := exists_of_agentSecret h
    rw [htext]
    exact List.append_ne_nil_of_right_ne_nil _ (List.cons_ne_nil _ _)

theorem bearer_letters : ("Bearer".toList.map fun c => CodePoint.scalar c.toLower) = Str.ofString "bearer" := by
  decide +kernel

theorem exists_of_bearerToken (h : m ∈ bearerTokenPattern.run previous text) :
    ∃ head space c rest, head.map foldCase = Str.ofString "bearer" ∧ space ≠ [] ∧ (∀ x ∈ space, isSpace x = true) ∧
      isBearerCharAnyCase c = true ∧ m.text = head ++ space ++ c :: rest ∧ m.group 1 = head ++ space := by
  obtain ⟨m₁, h₁, _, _, m₂, h₂, rfl⟩ := Regex.exists_of_seq h
  obtain ⟨m₃, h₃, _, _, m₄, _, rfl⟩ := Regex.exists_of_seq h₂
  obtain ⟨c, cs, htext, hc, -, -⟩ := Regex.exists_of_plus h₃
  obtain ⟨m₅, h₅, rfl⟩ := List.mem_map.mp h₁
  obtain ⟨m₆, h₆, _, _, m₇, h₇, rfl⟩ := Regex.exists_of_seq h₅
  obtain ⟨m₈, h₈, _, _, m₉, h₉, rfl⟩ := Regex.exists_of_seq h₇
  obtain ⟨x, xs, hspace, hx, hxs, -⟩ := Regex.exists_of_plus h₈
  have hnothing : m₉.text = [] := by
    have hm : m₉ ∈ [(⟨[], _, []⟩ : Regex.Match CodePoint)] := h₉
    rw [List.mem_singleton.mp hm]
  have hhead : m₆.text.map foldCase = Str.ofString "bearer" :=
    (Regex.isOf_map_iff.mp (Regex.text_of_each h₆).1).trans bearer_letters
  have hall : ∀ y ∈ m₈.text, isSpace y = true := by
    rw [hspace]
    intro y hy
    rcases List.mem_cons.mp hy with rfl | hy
    · exact hx
    · exact hxs y hy
  have hfront : m₆.text ++ (m₈.text ++ m₉.text) = m₆.text ++ m₈.text := by rw [hnothing, List.append_nil]
  refine ⟨m₆.text, m₈.text, c, cs ++ m₄.text, hhead, by rw [hspace]; exact List.cons_ne_nil _ _, hall, hc, ?_, hfront⟩
  show m₆.text ++ (m₈.text ++ m₉.text) ++ (m₃.text ++ m₄.text) = _
  rw [hfront, htext]
  rfl

theorem isBearerCharAnyCase_of (c : CodePoint) (h : isBearerChar c = true) : isBearerCharAnyCase c = true := by
  rw [isBearerCharAnyCase, h, Bool.true_or]

def IsWideBearer (w : Str) : Prop := IsBearer (IsBearerHead true) isBearerCharAnyCase w

theorem accepts_bearerToken (h : IsWideBearer w) : bearerTokenPattern.Accepts w := by
  obtain ⟨head, space, c, hhead, hne, hspace, hc, rfl⟩ := h
  have heach : (Regex.each ("Bearer".toList.map fun c x => decide (foldCase x = .scalar c.toLower))).Accepts head := by
    have hletters : head.map foldCase = Str.ofString "bearer" := hhead
    exact Regex.accepts_each (Regex.isOf_map_iff.mpr (hletters.trans bearer_letters.symm))
  have hplus : (Regex.plus isBearerCharAnyCase).Accepts [c] := by
    refine Regex.accepts_plus (fun x hx => ?_) (List.cons_ne_nil c [])
    rw [List.mem_singleton.mp hx]
    exact hc
  have hfront := (heach.seq ((Regex.accepts_plus hspace hne).seq Regex.accepts_nothing)).group
  rw [List.append_nil] at hfront
  exact hfront.seq (hplus.seq Regex.accepts_nothing)

theorem bearerToken_masks : Regex.Masks bearerTokenPattern (fun m => m.group 1 ++ Str.ofString "[redacted]")
    (fun m => m.group 1) (.scalar '[') (.scalar ']') redactedWord where
  replace_eq _ := rfl
  front_prefix previous text m h := by
    obtain ⟨head, space, c, rest, -, -, -, -, htext, hgroup⟩ := exists_of_bearerToken h
    rw [htext, hgroup]
    exact List.prefix_append _ _
  text_ne_nil previous text m h := by
    obtain ⟨head, space, c, rest, -, -, -, -, htext, -⟩ := exists_of_bearerToken h
    rw [htext]
    exact List.append_ne_nil_of_right_ne_nil _ (List.cons_ne_nil _ _)

/-- what is in no secret, -/
theorem notMem_agentSecret {c : CodePoint} (hbegins : c ∉ agentSecretPrefix) (hc : isTokenChar c = false)
    (h : IsAgentSecret w) : c ∉ w := by
  obtain ⟨d, hd, rfl⟩ := h
  intro hmem
  rcases List.mem_append.mp hmem with hmem | hmem
  · exact hbegins hmem
  · rw [List.mem_singleton.mp hmem, hd] at hc
    cases hc

/-- and in no bearer token -/
theorem notMem_bearer {c : CodePoint} (hfold : foldCase c ∉ Str.ofString "bearer") (hspace : isSpace c = false)
    (hchar : isBearerCharAnyCase c = false) (h : IsWideBearer w) : c ∉ w := by
  obtain ⟨head, space, d, hhead, -, hall, hd, rfl⟩ := h
  have hletters : head.map foldCase = Str.ofString "bearer" := hhead
  intro hmem
  rcases List.mem_append.mp hmem with hmem | hmem
  · rcases List.mem_append.mp hmem with hmem | hmem
    · rw [← hletters] at hfold
      exact hfold (List.mem_map_of_mem hmem)
    · rw [hall c hmem] at hspace
      cases hspace
  · rw [List.mem_singleton.mp hmem, hd] at hchar
    cases hchar

theorem bracket_notMem_agentSecret (h : IsAgentSecret w) : CodePoint.scalar '[' ∉ w ∧ CodePoint.scalar ']' ∉ w :=
  ⟨notMem_agentSecret (by decide) rfl h, notMem_agentSecret (by decide) rfl h⟩

theorem bracket_notMem_bearer (h : IsWideBearer w) : CodePoint.scalar '[' ∉ w ∧ CodePoint.scalar ']' ∉ w :=
  ⟨notMem_bearer (by decide) rfl rfl h, notMem_bearer (by decide) rfl rfl h⟩

theorem length_agentSecret (h : IsAgentSecret w) : w.length = 17 := by
  obtain ⟨c, -, rfl⟩ := h
  rfl

theorem not_isSpace_of_bearerChar {c : CodePoint} (h : isBearerCharAnyCase c = true) : isSpace c = false := by
  rw [isBearerCharAnyCase, isBearerChar, Bool.or_eq_true, Bool.or_eq_true] at h
  rcases h with (h | h) | h
  · exact not_isSpace_of_token h
  · rw [of_decide_eq_true h]
    rfl
  · obtain ⟨n, hn, rfl⟩ := List.mem_map.mp (of_decide_eq_true h)
    revert n
    decide

theorem not_isSpace_of_foldCase {x : CodePoint} (h : foldCase x ∈ Str.ofString "bearer") : isSpace x = false := by
  cases x with
  | surrogate n => rfl
  | scalar d =>
    by_contra hspace
    rw [Bool.not_eq_false] at hspace
    have hlower : d.toLower = d := by
      rcases toLower_cases d with hsame | ⟨hlow, hhigh, -⟩
      · exact hsame
      · simp only [isSpace, List.mem_cons, List.not_mem_nil, or_false, decide_eq_true_eq] at hspace
        omega
    have hfold : foldCase (.scalar d) = .scalar d := congrArg CodePoint.scalar hlower
    have hletters : ∀ y ∈ Str.ofString "bearer", isSpace y = false := by decide
    rw [hfold] at h
    rw [hletters _ h] at hspace
    cases hspace

/-- a bearer token does not end with its white space -/
theorem not_infix_of_bearer (h : IsWideBearer w) {head space : Str} (hhead : ∀ x ∈ head, isSpace x = false)
    (hspace : ∀ x ∈ space, isSpace x = true) : ¬ w <:+: head ++ space := by
  obtain ⟨head', space', c, -, hne, hspace', hc, rfl⟩ := h
  obtain ⟨x, xs, rfl⟩ := List.exists_cons_of_ne_nil hne
  have hx : isSpace x = true := hspace' x List.mem_cons_self
  have hmem : x ∈ head' ++ x :: xs ++ [c] := List.mem_append_left _ (List.mem_append_right _ List.mem_cons_self)
  have hinhead : ¬ head' ++ x :: xs ++ [c] <:+: head := by
    intro hw
    have hfalse := hhead x (hw.subset hmem)
    rw [hx] at hfalse
    cases hfalse
  have hlast : c ∉ space := by
    intro hcspace
    have htrue := hspace c hcspace
    rw [not_isSpace_of_bearerChar hc] at htrue
    cases htrue
  intro hw
  rcases List.infix_append_iff.mp hw with hw | hw | ⟨u, v, huv, hu, hv⟩
  · exact hinhead hw
  · exact hlast (hw.subset (List.mem_append_right _ (List.mem_singleton_self c)))
  · rcases List.eq_nil_or_concat v with rfl | ⟨v', c', rfl⟩
    · rw [List.append_nil] at huv
      rw [huv] at hinhead
      exact hinhead hu.isInfix
    · rw [List.concat_eq_append, ← List.append_assoc] at huv
      have hcc : c = c' := List.singleton_inj.mp (List.append_inj_right' huv rfl)
      refine hlast (hv.subset ?_)
      rw [hcc, List.concat_eq_append]
      exact List.mem_append_right _ (List.mem_singleton_self c')

theorem not_infix_redactedWord (h : IsAgentSecret w ∨ IsWideBearer w) : ¬ w <:+: redactedWord := by
  intro hw
  rcases h with h | h
  · have hlength := hw.length_le
    rw [length_agentSecret h] at hlength
    revert hlength
    decide
  · have hempty : ¬ w <:+: redactedWord ++ [] := not_infix_of_bearer h (by decide) fun x hx => by cases hx
    rw [List.append_nil] at hempty
    exact hempty hw

/-- what the first substitution leaves has no agent secret -/
theorem sub_agentSecret_clean (h : IsAgentSecret w) (text : Str) :
    ¬ w <:+: agentSecretPattern.sub (fun _ => Str.ofString "eres_agent_live_[redacted]") text := by
  intro hw
  have hreplaced : Regex.Replaced agentSecretPattern (fun _ => Str.ofString "eres_agent_live_[redacted]") text _ :=
    Regex.replaced_sub agentSecret_masks.text_ne_nil text
  have hne : w ≠ [] := by
    rintro rfl
    cases length_agentSecret h
  rcases hreplaced.word_of_result agentSecret_masks (bracket_notMem_agentSecret h).1
    (bracket_notMem_agentSecret h).2 hne hw with ⟨_, t, -, hnone, hbegins⟩ | ⟨_, _, _, m, _, hfront⟩ | hinner
  · exact (accepts_agentSecret h).run_ne_nil hbegins hnone
  · have hlength := hfront.length_le
    rw [length_agentSecret h] at hlength
    revert hlength
    decide
  · exact not_infix_redactedWord (.inl h) hinner

/-- what the second one leaves has no bearer token -/
theorem sub_bearerToken_clean (h : IsWideBearer w) (text : Str) :
    ¬ w <:+: bearerTokenPattern.sub (fun m => m.group 1 ++ Str.ofString "[redacted]") text := by
  intro hw
  have hreplaced : Regex.Replaced bearerTokenPattern (fun m => m.group 1 ++ Str.ofString "[redacted]") text _ :=
    Regex.replaced_sub bearerToken_masks.text_ne_nil text
  have hne : w ≠ [] := by
    obtain ⟨head, space, c, -, -, -, -, rfl⟩ := h
    exact List.append_ne_nil_of_right_ne_nil _ (List.cons_ne_nil c [])
  rcases hreplaced.word_of_result bearerToken_masks (bracket_notMem_bearer h).1
    (bracket_notMem_bearer h).2 hne hw with ⟨_, t, -, hnone, hbegins⟩ | ⟨_, _, _, m, hm, hfront⟩ | hinner
  · exact (accepts_bearerToken h).run_ne_nil hbegins hnone
  · obtain ⟨head, space, c, rest, hhead, -, hspace, -, -, hgroup⟩ := exists_of_bearerToken hm
    rw [hgroup] at hfront
    refine not_infix_of_bearer h (fun x hx => not_isSpace_of_foldCase ?_) hspace hfront
    rw [← hhead]
    exact List.mem_map_of_mem hx
  · exact not_infix_redactedWord (.inr h) hinner

/-- **What is redacted has neither.** -/
theorem redact_clean (h : IsAgentSecret w ∨ IsWideBearer w) (message : Str) : ¬ w <:+: redact message := by
  intro hw
  rcases h with h | h
  · have hreplaced : Regex.Replaced bearerTokenPattern (fun m => m.group 1 ++ Str.ofString "[redacted]") _
      (redact message) :=
      Regex.replaced_sub bearerToken_masks.text_ne_nil _
    have hne : w ≠ [] := by
      rintro rfl
      cases length_agentSecret h
    rcases hreplaced.word_of_text bearerToken_masks (bracket_notMem_agentSecret h).1
      (bracket_notMem_agentSecret h).2 hne hw with hword | hinner
    · exact sub_agentSecret_clean h message hword
    · exact not_infix_redactedWord (.inl h) hinner
  · exact sub_bearerToken_clean h _ hw

/-- **Redacting it again changes nothing.** -/
theorem redact_redact (message : Str) : redact (redact message) = redact message := by
  have hsecret : ∀ previous t, t <:+ redact message → agentSecretPattern.run previous t = [] := by
    intro previous t ht
    refine List.eq_nil_iff_forall_not_mem.mpr fun m hm => ?_
    obtain ⟨c, rest, hc, htext⟩ := exists_of_agentSecret hm
    have hword : agentSecretPrefix ++ [c] <+: m.text := ⟨rest, by rw [htext, List.append_assoc]; rfl⟩
    refine redact_clean (.inl ⟨c, hc, rfl⟩) message (List.IsInfix.trans ?_ ht.isInfix)
    rw [← Regex.text_append_rest hm]
    exact (hword.trans (List.prefix_append _ _)).isInfix
  have hbearer : ∀ previous t, t <:+ redact message → bearerTokenPattern.run previous t = [] := by
    intro previous t ht
    refine List.eq_nil_iff_forall_not_mem.mpr fun m hm => ?_
    obtain ⟨head, space, c, rest, hhead, hne, hspace, hc, htext, -⟩ := exists_of_bearerToken hm
    have hword : head ++ space ++ [c] <+: m.text := ⟨rest, by rw [htext, List.append_assoc]; rfl⟩
    refine redact_clean (.inr ⟨head, space, c, hhead, hne, hspace, hc, rfl⟩) message (List.IsInfix.trans ?_ ht.isInfix)
    rw [← Regex.text_append_rest hm]
    exact (hword.trans (List.prefix_append _ _)).isInfix
  have hfirst : agentSecretPattern.sub (fun _ => Str.ofString "eres_agent_live_[redacted]") (redact message)
      = redact message :=
    Regex.Replaced.eq_self (Regex.replaced_sub agentSecret_masks.text_ne_nil _) hsecret
  have hsecond : bearerTokenPattern.sub (fun m => m.group 1 ++ Str.ofString "[redacted]") (redact message)
      = redact message :=
    Regex.Replaced.eq_self (Regex.replaced_sub bearerToken_masks.text_ne_nil _) hbearer
  show bearerTokenPattern.sub _ (agentSecretPattern.sub _ (redact message)) = _
  rw [hfirst, hsecond]

/-- a secret or a token is found by the patterns -/
theorem IsLeak.wide (h : IsLeak anyCase w) : IsAgentSecret w ∨ IsWideBearer w := by
  rcases h with h | ⟨head, space, c, hhead, hne, hspace, hc, hw⟩
  · exact .inl h
  · refine .inr ⟨head, space, c, ?_, hne, hspace, isBearerCharAnyCase_of c hc, hw⟩
    cases anyCase with
    | true => exact hhead
    | false =>
      have hword : head = Str.ofString "Bearer" := hhead
      rw [hword]
      show (Str.ofString "Bearer").map foldCase = Str.ofString "bearer"
      decide

end Redacted

/-! ## the pieces of a line -/

/-- a text of the template in JSON: a character that is escaped is put in -/
def escapeOwn : Str → List Piece
  | [] => []
  | c :: s =>
    if PyJson.escapeChar c = [c] then keep c (escapeOwn s) else .put (PyJson.escapeChar c) :: escapeOwn s

def escapePiece : Piece → List Piece
  | .own text => escapeOwn text
  | .put text => [.put (text.flatMap PyJson.escapeChar)]

/-- what the JSON line has before the message and after it -/
def jsonFields (record : LogRecord) : Str :=
  .scalar '\x7b' :: (encodeMember ("ts", record.ts) ++ Str.ofString ", " ++ encodeMember ("level", record.levelname)
    ++ Str.ofString ", " ++ encodeMember ("logger", record.name) ++ Str.ofString ", "
    ++ PyJson.encodeStr (Str.ofString "message") ++ Str.ofString ": ")

def jsonBefore (record : LogRecord) : Str := jsonFields record ++ [.scalar '"']

def jsonAfter (record : LogRecord) : Str :=
  .scalar '"' :: (record.excInfo.elim [] (fun text => Str.ofString ", " ++ encodeMember ("exc_info", text))
    ++ [.scalar '\x7d'])

/-- the message: the template, and the arguments that are put in -/
def LogRecord.messagePieces (record : LogRecord) : Option (List Piece) :=
  record.msg.bind fun msg => if record.hasArgs then formatFrom record.args.left 0 msg else some [.own msg]

/-- beside the message a handler puts in the other fields, the exception and the stack -/
def LogRecord.linePieces (record : LogRecord) (message : List Piece) : LogHandler → List Piece
  | .file => .put (jsonBefore record) :: (message.flatMap escapePiece ++ [.put (jsonAfter record)])
  | .console =>
    let s := consoleHeader record ++ joined message
    .put (consoleHeader record) :: (message ++ [.put (onNextLine s record.excInfo),
      .put (onNextLine (s ++ onNextLine s record.excInfo) record.stackInfo)])

/-- what a handler makes the line of a record of: the template, the arguments, the exception, the stack and the
other fields -/
def LogRecord.pieces (record : LogRecord) (handler : LogHandler) : Option (List Piece) :=
  record.messagePieces.map fun message => record.linePieces message handler

/-- no text that is put in beside the template has a secret or a token, and none is formed where one text ends and
the next one begins -/
structure KeepsClean (anyCase : Bool) (pieces : List Piece) : Prop where
  puts : ∀ text, .put text ∈ pieces → IsClean anyCase text
  seams : ∀ left right front back, pieces = left ++ right → front ≠ [] → back ≠ [] → front <:+ joined left →
    back <+: joined right → ¬ IsLeak anyCase (front ++ back)

section Pieces
variable {record : LogRecord} {template : Str} {pieces : List Piece}

theorem joined_escapeOwn (s : Str) : joined (escapeOwn s) = s.flatMap PyJson.escapeChar := by
  induction s with
  | nil => rfl
  | cons c s ih =>
    rw [escapeOwn, List.flatMap_cons, ← ih]
    split
    · rename_i hkept
      rw [joined_keep, hkept]
      rfl
    · rfl

theorem joined_flatMap_escapePiece (message : List Piece) :
    joined (message.flatMap escapePiece) = (joined message).flatMap PyJson.escapeChar := by
  induction message with
  | nil => rfl
  | cons piece message ih =>
    rw [List.flatMap_cons, joined_append, ih, joined_cons, List.flatMap_append]
    congr 1
    cases piece with
    | own text => exact joined_escapeOwn text
    | put text => exact List.append_nil _

theorem dumpsTexts_eq (record : LogRecord) (message : Str) :
    dumpsTexts ([("ts", record.ts), ("level", record.levelname), ("logger", record.name), ("message", message)]
      ++ (record.excInfo.map fun text => ("exc_info", text)).toList)
      = jsonBefore record ++ message.flatMap PyJson.escapeChar ++ jsonAfter record := by
  have hmessage : encodeMember ("message", message) = PyJson.encodeStr (Str.ofString "message") ++ Str.ofString ": "
      ++ [.scalar '"'] ++ message.flatMap PyJson.escapeChar ++ [.scalar '"'] := by
    simp only [encodeMember, PyJson.encodeStr, List.append_assoc, List.cons_append, List.nil_append]
  unfold dumpsTexts jsonBefore jsonFields jsonAfter
  cases record.excInfo with
  | none =>
    simp only [Option.map_none, Option.toList_none, List.append_nil, List.map_cons, List.map_nil, hmessage,
      List.intercalate_cons_cons, List.intercalate_singleton, Option.elim_none, List.append_assoc, List.cons_append,
      List.nil_append]
  | some text =>
    simp only [Option.map_some, Option.toList_some, List.map_cons, List.map_nil, hmessage, List.cons_append,
      List.nil_append,
      List.intercalate_cons_cons, List.intercalate_singleton, Option.elim_some, List.append_assoc]

theorem joined_messagePieces (record : LogRecord) : record.messagePieces.map joined = record.getMessage := by
  unfold LogRecord.messagePieces LogRecord.getMessage
  cases record.msg with
  | none => rfl
  | some msg =>
    rw [Option.bind_some, Option.bind_some]
    split
    · rfl
    · exact congrArg some (List.append_nil msg)

theorem joined_pieces (record : LogRecord) (handler : LogHandler) :
    (record.pieces handler).map joined = handler.format record := by
  rw [LogRecord.pieces, Option.map_map]
  cases handler with
  | file =>
    show _ = record.getMessage.map fun message => _
    rw [← joined_messagePieces, Option.map_map]
    refine congrArg (Option.map · _) (funext fun message => ?_)
    show joined (record.linePieces message .file) = dumpsTexts _
    rw [dumpsTexts_eq, LogRecord.linePieces, joined_cons, joined_append, joined_flatMap_escapePiece, List.append_assoc]
    show jsonBefore record ++ (_ ++ (jsonAfter record ++ [])) = _
    rw [List.append_nil]
  | console =>
    show _ = record.getMessage.map fun message => _
    rw [← joined_messagePieces, Option.map_map]
    refine congrArg (Option.map · _) (funext fun message => ?_)
    show joined (record.linePieces message .console) = _
    rw [LogRecord.linePieces, joined_cons, joined_append, joined_cons, joined_cons]
    show consoleHeader record ++ (joined message ++ (_ ++ (_ ++ []))) = consoleHeader record ++ joined message ++ _ ++ _
    simp only [Piece.text, List.append_nil, List.append_assoc]

theorem ownIn_escapeOwn (s : Str) : OwnIn (escapeOwn s) s True := by
  induction s with
  | nil => exact .nil _
  | cons c s ih =>
    rw [escapeOwn]
    split
    · exact ih.keep c
    · exact ih.put c _ _

theorem infix_of_pieces {handler : LogHandler} {text : Str} (hmsg : record.msg = some template)
    (h : record.pieces handler = some pieces) (htext : .own text ∈ pieces) : text <:+: template := by
  obtain ⟨message, hmessage, rfl⟩ := Option.map_eq_some_iff.mp h
  have hown : ∀ t, .own t ∈ message → t <:+: template := by
    rw [LogRecord.messagePieces, hmsg, Option.bind_some] at hmessage
    split at hmessage
    · exact (ownIn_formatFrom hmessage).infixes
    · cases hmessage
      intro t ht
      cases List.mem_singleton.mp ht
      exact List.infix_rfl
  cases handler with
  | file =>
    rcases List.mem_cons.mp htext with htext | htext
    · cases htext
    · rcases List.mem_append.mp htext with htext | htext
      · obtain ⟨piece, hpiece, htext⟩ := List.mem_flatMap.mp htext
        cases piece with
        | own t => exact ((ownIn_escapeOwn t).infixes text htext).trans (hown t hpiece)
        | put t => cases List.mem_singleton.mp htext
      · cases List.mem_singleton.mp htext
  | console =>
    rcases List.mem_cons.mp htext with htext | htext
    · cases htext
    · rcases List.mem_append.mp htext with htext | htext
      · exact hown text htext
      · simp at htext

end Pieces

theorem IsLeak.notMem {anyCase : Bool} {w : Str} {c : CodePoint} (h : IsLeak anyCase w) (hbegins : c ∉ agentSecretPrefix)
    (hfold : foldCase c ∉ Str.ofString "bearer") (htoken : isTokenChar c = false) (hspace : isSpace c = false)
    (hchar : isBearerCharAnyCase c = false) : c ∉ w :=
  h.wide.elim (notMem_agentSecret hbegins htoken) (notMem_bearer hfold hspace hchar)

theorem IsLeak.ne_nil {anyCase : Bool} {w : Str} (h : IsLeak anyCase w) : w ≠ [] := by
  rcases h.wide with ⟨c, -, rfl⟩ | ⟨head, space, c, -, -, -, -, rfl⟩
  · exact List.append_ne_nil_of_right_ne_nil _ (List.cons_ne_nil c [])
  · exact List.append_ne_nil_of_right_ne_nil _ (List.cons_ne_nil c [])

theorem isClean_joined {anyCase : Bool} {pieces : List Piece}
    (hown : ∀ text, .own text ∈ pieces → IsClean anyCase text) :
    IsClean anyCase (joined pieces) ↔ KeepsClean anyCase pieces := by
  constructor
  · intro h
    refine ⟨fun text htext w hw => ?_, fun left right front back hcut _ _ hfront hback hleak => ?_⟩
    · exact h w (hw.trans (List.infix_of_mem_flatten (List.mem_map_of_mem htext)))
    · refine h _ ?_ hleak
      rw [hcut, joined_append]
      exact List.infix_append_iff.mpr (.inr (.inr ⟨front, back, rfl, hfront, hback⟩))
  · intro h w hw hleak
    rcases (infix_flatten hleak.ne_nil).mp hw with
      ⟨text, htext, hw⟩ | ⟨left, right, front, back, hcut, rfl, hf, hb, hfront, hback⟩
    · obtain ⟨piece, hpiece, rfl⟩ := List.mem_map.mp htext
      cases piece with
      | own text => exact hown text hpiece w hw hleak
      | put text => exact h.puts text hpiece w hw hleak
    · obtain ⟨left, right, rfl, rfl, rfl⟩ := List.map_eq_append_iff.mp hcut
      exact h.seams left right front back rfl hf hb hfront hback hleak

/-- a secret or a token begins with a letter, and has no colon -/
theorem not_infix_of_header {anyCase : Bool} {w header message : Str} (h : IsLeak anyCase w) (hheader : ¬ w <:+: header)
    (hmessage : ¬ w <:+: message) : ¬ w <:+: header ++ Str.ofString ": " ++ message := by
  have hcolon : CodePoint.scalar ':' ∉ w := h.notMem (by decide) (by decide) rfl rfl rfl
  have hletter : ∃ c t, w = c :: t ∧ isSpace c = false := by
    rcases h.wide with ⟨c, -, rfl⟩ | ⟨head, space, c, hhead, -, -, -, rfl⟩
    · exact ⟨.scalar 'e', _, rfl, rfl⟩
    · have hletters : head.map foldCase = Str.ofString "bearer" := hhead
      cases head with
      | nil => cases hletters
      | cons x head =>
        refine ⟨x, _, rfl, not_isSpace_of_foldCase ?_⟩
        rw [← hletters]
        exact List.mem_cons_self
  intro hw
  have htext : header ++ Str.ofString ": " ++ message = header ++ .scalar ':' :: .scalar ' ' :: message := by
    rw [List.append_assoc]
    rfl
  rw [htext] at hw
  rcases (infix_append_cons_of_not_mem hcolon).mp hw with hw | hw
  · exact hheader hw
  · rcases List.infix_cons_iff.mp hw with hw | hw
    · obtain ⟨c, t, rfl, hc⟩ := hletter
      obtain ⟨rfl, -⟩ := List.cons_prefix_cons.mp hw
      cases hc
    · exact hmessage hw

/-- without arguments the message is the redacted template -/
theorem exists_of_getMessage {record : LogRecord} {message : Str} (hargs : record.hasArgs = false)
    (h : record.filter.getMessage = some message) : ∃ msg, record.filter.msg = some message ∧ message = redact msg := by
  obtain ⟨template, hmsg, hformat⟩ := Option.bind_eq_some_iff.mp h
  have hnone : record.filter.hasArgs = false := hargs
  rw [hnone] at hformat
  cases hformat
  obtain ⟨msg, -, hredacted⟩ := Option.map_eq_some_iff.mp hmsg
  exact ⟨msg, hmsg, hredacted.symm⟩

/-- **A message without arguments**, of a record without an exception, is clean on the console. -/
theorem console_clean {anyCase : Bool} {record : LogRecord} {line : Str} (hargs : record.hasArgs = false)
    (hexc : record.excInfo = none) (hstack : record.stackInfo = none)
    (hheader : IsClean anyCase (consoleFields record)) (h : emitted .console record = some line) :
    IsClean anyCase line := by
  obtain ⟨message, hmessage, rfl⟩ := Option.map_eq_some_iff.mp h
  intro w hw hleak
  obtain ⟨msg, -, rfl⟩ := exists_of_getMessage hargs hmessage
  have htail : ∀ s : Str, onNextLine s record.filter.excInfo = [] ∧ onNextLine s record.filter.stackInfo = [] := by
    intro s
    rw [LogRecord.filter, hexc, hstack]
    exact ⟨rfl, rfl⟩
  simp only [htail, List.append_nil] at hw
  exact not_infix_of_header hleak (fun hw => hheader w hw hleak) (redact_clean hleak.wide msg) hw

/-- the same in the JSON line, where no character of the template is escaped -/
theorem file_clean {anyCase : Bool} {record : LogRecord} {line : Str} (hargs : record.hasArgs = false)
    (hexc : record.excInfo = none)
    (hplain : ∀ template, record.filter.msg = some template → ∀ c ∈ template, PyJson.escapeChar c = [c])
    (hfields : IsClean anyCase (jsonFields record)) (h : emitted .file record = some line) : IsClean anyCase line := by
  obtain ⟨message, hmessage, rfl⟩ := Option.map_eq_some_iff.mp h
  obtain ⟨msg, hmsg, rfl⟩ := exists_of_getMessage hargs hmessage
  intro w hw hleak
  have hsame : (redact msg).flatMap PyJson.escapeChar = redact msg := by
    rw [List.flatMap_congr (hplain _ hmsg), List.flatMap_singleton']
  have hquote : CodePoint.scalar '"' ∉ w := hleak.notMem (by decide) (by decide) rfl rfl rfl
  have hafter : jsonAfter record.filter = .scalar '"' :: [.scalar '\x7d'] := by
    rw [jsonAfter, LogRecord.filter, hexc]
    rfl
  rw [dumpsTexts_eq, hsame, hafter, infix_append_cons_of_not_mem hquote] at hw
  rcases hw with hw | hw
  · have hline : jsonBefore record.filter ++ redact msg = jsonFields record ++ .scalar '"' :: redact msg :=
      List.append_assoc (jsonFields record) _ _
    rw [hline, infix_append_cons_of_not_mem hquote] at hw
    rcases hw with hw | hw
    · exact hfields w hw hleak
    · exact redact_clean hleak.wide msg hw
  · have hlength := hw.length_le
    rcases hleak.wide with h | ⟨head, space, c, hhead, -, -, -, rfl⟩
    · rw [length_agentSecret h] at hlength
      revert hlength
      decide
    · have hletters : head.map foldCase = Str.ofString "bearer" := hhead
      have hsix : head.length = 6 := by
        rw [← List.length_map, hletters]
        rfl
      rw [List.length_append, List.length_append, hsix] at hlength
      simp at hlength

/-- **A line has no secret and no token exactly where none comes in beside the template, by an argument, an exception,
a stack, another field or an escape of JSON, and none is formed between these texts; and the second filter changes
nothing.**  A record without arguments, exception and stack has none but in its other fields; in the JSON line where
no character of the template is escaped. -/
theorem no_secret_logged (anyCase : Bool) (record : LogRecord) :
    (NoSecretLogged anyCase record ↔
      ∀ handler pieces, record.filter.pieces handler = some pieces → KeepsClean anyCase pieces) ∧
    (record.hasArgs = false → record.excInfo = none → record.stackInfo = none → ∀ line,
      emitted .console record = some line → (IsClean anyCase line ↔ IsClean anyCase (consoleFields record))) ∧
    (record.hasArgs = false → record.excInfo = none →
      (∀ template, record.filter.msg = some template → ∀ c ∈ template, PyJson.escapeChar c = [c]) → ∀ line,
      emitted .file record = some line → (IsClean anyCase line ↔ IsClean anyCase (jsonFields record))) := by
  have htwice : record.filter.filter = record.filter := by
    unfold LogRecord.filter
    cases record.msg with
    | none => rfl
    | some msg => simp only [Option.map_some, redact_redact]
  have hown : ∀ {handler pieces}, record.filter.pieces handler = some pieces →
      ∀ text, .own text ∈ pieces → IsClean anyCase text := by
    intro handler pieces hpieces text htext w hw hleak
    obtain ⟨template, htemplate⟩ : ∃ template, record.filter.msg = some template := by
      cases hmsg : record.filter.msg with
      | none =>
        rw [LogRecord.pieces, LogRecord.messagePieces, hmsg] at hpieces
        cases hpieces
      | some template => exact ⟨template, rfl⟩
    obtain ⟨msg, -, rfl⟩ := Option.map_eq_some_iff.mp htemplate
    exact redact_clean hleak.wide msg (hw.trans (infix_of_pieces htemplate hpieces htext))
  have hline : ∀ {handler line}, emitted handler record = some line ↔
      ∃ pieces, record.filter.pieces handler = some pieces ∧ joined pieces = line := by
    intro handler line
    rw [emitted, ← joined_pieces, Option.map_eq_some_iff]
  refine ⟨⟨fun h handler pieces hpieces => ?_, fun h => ⟨fun handler line hemitted => ?_,
    fun handler => by rw [htwice]⟩⟩,
    fun hargs hexc hstack line hemitted => ⟨fun h w hw => ?_, fun h => console_clean hargs hexc hstack h hemitted⟩,
    fun hargs hexc hplain line hemitted => ⟨fun h w hw => ?_, fun h => file_clean hargs hexc hplain h hemitted⟩⟩
  · exact (isClean_joined (hown hpieces)).mp (h.1 handler _ (hline.mpr ⟨pieces, hpieces, rfl⟩))
  · obtain ⟨pieces, hpieces, rfl⟩ := hline.mp hemitted
    exact (isClean_joined (hown hpieces)).mpr (h handler pieces hpieces)
  · obtain ⟨message, -, rfl⟩ := Option.map_eq_some_iff.mp hemitted
    refine h w (hw.trans ?_)
    show consoleFields record <:+: consoleFields record ++ Str.ofString ": " ++ message ++ _ ++ _
    simp only [List.append_assoc]
    exact (List.prefix_append _ _).isInfix
  · obtain ⟨message, -, rfl⟩ := Option.map_eq_some_iff.mp hemitted
    refine h w (hw.trans ?_)
    rw [dumpsTexts_eq, jsonBefore, List.append_assoc, List.append_assoc]
    exact (List.prefix_append (jsonFields record) _).isInfix

/-- a text, as the argument of `%s` -/
def textArg (text : Str) : Arg where
  render c := if c = { flags := [], width := none, precision := none, type := .scalar 's' } then some text else none
  int := none

/-- what `WsClient._authenticate` logs of a frame that it does not expect -/
def unexpectedFrame : LogRecord where
  msg := some (Str.ofString "Unexpected first message from print-hub: %s")
  args := .positional [textArg (Str.ofString "echo eres_agent_live_1")]
  levelname := Str.ofString "ERROR"
  name := Str.ofString "eres_print_agent.net.ws_client"
  ts := Str.ofString "2025-01-01T00:00:00"
  asctime := Str.ofString "2025-01-01 00:00:00,000"
  excInfo := none
  stackInfo := none

theorem secret_emitted (handler : LogHandler) :
    ∃ line, emitted handler unexpectedFrame = some line ∧ Str.ofString "eres_agent_live_1" <:+: line := by
  have hany : (emitted handler unexpectedFrame).any (contains "eres_agent_live_1") = true := by
    cases handler <;> decide +kernel
  obtain ⟨line, hline, hcontains⟩ := (Option.any_eq_true _ _).mp hany
  exact ⟨line, hline, contains_iff.mp hcontains⟩

/-- the secret in the frame is in the line of each handler, so no reading of the promise holds -/
theorem argument_logged :
    ((∃ line, emitted .file unexpectedFrame = some line ∧ Str.ofString "eres_agent_live_1" <:+: line) ∧
      ∃ line, emitted .console unexpectedFrame = some line ∧ Str.ofString "eres_agent_live_1" <:+: line) ∧
    ¬ NoSecretLogged true unexpectedFrame ∧ ¬ NoSecretLogged false unexpectedFrame := by
  have hbroken : ∀ anyCase, ¬ NoSecretLogged anyCase unexpectedFrame := by
    intro anyCase h
    obtain ⟨line, hemitted, hsecret⟩ := secret_emitted .file
    exact h.1 .file line hemitted _ hsecret (.inl ⟨.scalar '1', rfl, by decide⟩)
  exact ⟨⟨secret_emitted .file, secret_emitted .console⟩, hbroken true, hbroken false⟩

end PrintAgent
