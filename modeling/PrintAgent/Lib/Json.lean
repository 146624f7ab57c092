import Mathlib.Data.List.Basic

/-!
# Python's JSON reader

`json.loads` of a `str` or of `bytes`, with all the ways it can fail.

* `CodePoint`, `Str`          a Python `str`: code points, surrogates included;
* `decodeBytes`               `bytes.decode(detect_encoding(bytes), 'surrogatepass')`;
* `Lexer.step`, `lex`         the tokens of a text, up to the first place that is none;
* `Reader.step`, `read`       the reader, which keeps the open containers on a stack;
* `loads`                     all of it.

The reader takes a text from left to right and fails at the first place it cannot read, so the tokens
carry what may still fail: a container may be nested too deep, an integer too long, both of which
`Limits` bounds as the interpreter does.  The value of a `float` is not computed, it keeps its text.
-/

namespace PyJson

/-- a code point of a `str` -/
inductive CodePoint where
  | scalar (c : Char)
  /-- a lone surrogate, `U+D800` plus the number -/
  | surrogate (n : Fin 0x800)
  deriving DecidableEq, Repr

abbrev Str := List CodePoint

def Str.ofString (s : String) : Str := s.toList.map .scalar

/-- a lone surrogate has no UTF-8 -/
def isEncodable (s : Str) : Bool := s.all fun c => match c with | .scalar _ => true | .surrogate _ => false

namespace CodePoint

def ofNat (n : Nat) : Option CodePoint :=
  if h : n.isValidChar then some (.scalar (Char.ofNatAux n h))
  else if h : 0xD800 ≤ n ∧ n < 0xE000 then some (.surrogate ⟨n - 0xD800, by omega⟩)
  else none

def isHigh (n : Nat) : Bool := decide (0xD800 ≤ n ∧ n < 0xDC00)

def isLow (n : Nat) : Bool := decide (0xDC00 ≤ n ∧ n < 0xE000)

def join (high low : Nat) : Nat := 0x10000 + (high - 0xD800) * 0x400 + (low - 0xDC00)

end CodePoint

/-! ## bytes -/

/-- `'utf-8'` with `'surrogatepass'` -/
def utf8 : List UInt8 → Option Str
  | [] => some []
  | a :: as =>
    if a < 0x80 then do return (← CodePoint.ofNat a.toNat) :: (← utf8 as)
    else match as with
      | [] => none
      | b :: bs =>
        if b &&& 0xC0 ≠ 0x80 then none
        else if 0xC2 ≤ a ∧ a < 0xE0 then do
          return (← CodePoint.ofNat ((a.toNat - 0xC0) * 0x40 + (b.toNat - 0x80))) :: (← utf8 bs)
        else match bs with
          | [] => none
          | c :: cs =>
            if c &&& 0xC0 ≠ 0x80 then none
            else if 0xE0 ≤ a ∧ a < 0xF0 ∧ (a = 0xE0 → 0xA0 ≤ b) then do
              return (← CodePoint.ofNat
                ((a.toNat - 0xE0) * 0x1000 + (b.toNat - 0x80) * 0x40 + (c.toNat - 0x80))) :: (← utf8 cs)
            else match cs with
              | [] => none
              | d :: ds =>
                if d &&& 0xC0 ≠ 0x80 then none
                else if 0xF0 ≤ a ∧ a < 0xF5 ∧ (a = 0xF0 → 0x90 ≤ b) then do
                  return (← CodePoint.ofNat ((a.toNat - 0xF0) * 0x40000 + (b.toNat - 0x80) * 0x1000 +
                    (c.toNat - 0x80) * 0x40 + (d.toNat - 0x80))) :: (← utf8 ds)
                else none

/-- `'utf-16-be'` and `'utf-16-le'` with `'surrogatepass'` -/
def utf16 (bigEndian : Bool) : List UInt8 → Option Str
  | [] => some []
  | [_] => none
  | a :: b :: rest =>
    let unit (a b : UInt8) : Nat :=
      if bigEndian then a.toNat * 0x100 + b.toNat else b.toNat * 0x100 + a.toNat
    let high := unit a b
    match rest with
    | c :: d :: rest' =>
      let low := unit c d
      if CodePoint.isHigh high && CodePoint.isLow low then do
        return (← CodePoint.ofNat (CodePoint.join high low)) :: (← utf16 bigEndian rest')
      else do return (← CodePoint.ofNat high) :: (← utf16 bigEndian (c :: d :: rest'))
    | rest => do return (← CodePoint.ofNat high) :: (← utf16 bigEndian rest)

/-- `'utf-32-be'` and `'utf-32-le'` with `'surrogatepass'` -/
def utf32 (bigEndian : Bool) : List UInt8 → Option Str
  | [] => some []
  | a :: b :: c :: d :: rest => do
    let n := if bigEndian then ((a.toNat * 0x100 + b.toNat) * 0x100 + c.toNat) * 0x100 + d.toNat
      else ((d.toNat * 0x100 + c.toNat) * 0x100 + b.toNat) * 0x100 + a.toNat
    return (← CodePoint.ofNat n) :: (← utf32 bigEndian rest)
  | _ => none

/-- `detect_encoding` without a byte order mark: the null bytes of the first characters tell -/
def decodeUnmarked (bytes : List UInt8) : Option Str :=
  match bytes with
  | a :: b :: c :: d :: _ =>
    if a = 0 then if b = 0 then utf32 true bytes else utf16 true bytes
    else if b = 0 then if c = 0 ∧ d = 0 then utf32 false bytes else utf16 false bytes
    else utf8 bytes
  | [a, b] => if a = 0 then utf16 true bytes else if b = 0 then utf16 false bytes else utf8 bytes
  | _ => utf8 bytes

/-- `bytes.decode(detect_encoding(bytes), 'surrogatepass')`, `none` where it raises -/
def decodeBytes : List UInt8 → Option Str
  | 0x00 :: 0x00 :: 0xFE :: 0xFF :: rest => utf32 true rest
  | 0xFF :: 0xFE :: 0x00 :: 0x00 :: rest => utf32 false rest
  | 0xFE :: 0xFF :: rest => utf16 true rest
  | 0xFF :: 0xFE :: rest => utf16 false rest
  | 0xEF :: 0xBB :: 0xBF :: rest => utf8 rest
  | bytes => decodeUnmarked bytes

/-! ## values -/

inductive Value where
  | null
  | bool (b : Bool)
  | int (n : Int)
  | float (literal : String)
  | str (s : Str)
  | arr (items : List Value)
  | obj (members : List (Str × Value))

namespace Value

/-- `members[key] = value` of a `dict`, which keeps the place of a key it has -/
def setItem (members : List (Str × Value)) (key : Str) (value : Value) : List (Str × Value) :=
  if members.any (·.1 = key) then members.map fun m => if m.1 = key then (key, value) else m
  else members ++ [(key, value)]

/-- `members.get(key)` of a `dict` -/
def getItem (members : List (Str × Value)) (key : Str) : Option Value := members.lookup key

end Value

/-! ## tokens -/

inductive Token where
  | lbrace
  | rbrace
  | lbracket
  | rbracket
  | colon
  | comma
  | str (s : Str)
  | int (negative : Bool) (digits : List Nat)
  /-- a float, and the words `null`, `true`, `false` -/
  | word (value : Value)
  /-- no token begins here -/
  | bad

inductive Lexer where
  | start
  /-- a word, with what is left of it -/
  | word (rest : List Char) (value : Value)
  /-- a string, with a high surrogate that was escaped just before -/
  | str (s : Str) (high : Option Nat)
  | esc (s : Str) (high : Option Nat)
  | hex (s : Str) (high : Option Nat) (digits : Nat) (value : Nat)
  /-- a number after its sign -/
  | minus
  | zero (negative : Bool)
  | int (negative : Bool) (digits : List Nat)
  /-- a number after `.`, `e` or `E` and a sign, without a digit yet: what it is without them -/
  | dot (token : Token) (literal : String)
  | exp (token : Token) (literal : String) (signed : Bool)
  | frac (literal : String)
  | expDigits (literal : String)
  /-- the rest is not read -/
  | stuck

namespace Lexer

def digit? (c : Char) : Option Nat := if c.isDigit then some (c.toNat - '0'.toNat) else none

def hexDigit? (c : Char) : Option Nat :=
  if c.isDigit then some (c.toNat - '0'.toNat)
  else if 'a' ≤ c ∧ c ≤ 'f' then some (c.toNat - 'a'.toNat + 10)
  else if 'A' ≤ c ∧ c ≤ 'F' then some (c.toNat - 'A'.toNat + 10)
  else none

def isWhitespace (c : Char) : Bool := c = ' ' || c = '\t' || c = '\n' || c = '\r'

/-- the characters of an integer, for a number that turns out to be a float -/
def intText (negative : Bool) (digits : List Nat) : String :=
  (if negative then "-" else "") ++ String.ofList (digits.map fun d => Char.ofNat ('0'.toNat + d))

def infinity : List Char := ['n', 'f', 'i', 'n', 'i', 't', 'y']

def begins (c : Char) : List Token × Lexer :=
  if isWhitespace c then ([], .start)
  else match c with
    | '{' => ([.lbrace], .start)
    | '}' => ([.rbrace], .start)
    | '[' => ([.lbracket], .start)
    | ']' => ([.rbracket], .start)
    | ':' => ([.colon], .start)
    | ',' => ([.comma], .start)
    | '"' => ([], .str [] none)
    | 'n' => ([], .word ['u', 'l', 'l'] .null)
    | 't' => ([], .word ['r', 'u', 'e'] (.bool true))
    | 'f' => ([], .word ['a', 'l', 's', 'e'] (.bool false))
    | 'N' => ([], .word ['a', 'N'] (.float "NaN"))
    | 'I' => ([], .word infinity (.float "Infinity"))
    | '-' => ([], .minus)
    | '0' => ([], .zero false)
    | c => match digit? c with
      | some d => ([], .int false [d])
      | none => ([.bad], .stuck)

/-- a token has ended, and the character is the next one -/
def ends (token : Token) (c : Char) : List Token × Lexer :=
  ((token :: (begins c).1), (begins c).2)

/-- a number after its integer part, whose token so far is `token` -/
def afterInt (token : Token) (literal : String) (c : Char) : List Token × Lexer :=
  if c = '.' then ([], .dot token literal)
  else if c = 'e' ∨ c = 'E' then ([], .exp token (literal.push c) false)
  else ends token c

/-- an escaped high surrogate that no low one follows stays alone -/
def flush (s : Str) (high : Option Nat) : Str := s ++ (high.bind CodePoint.ofNat).toList

/-- the four digits of `\uXXXX` are read -/
def unicode (s : Str) (high : Option Nat) (n : Nat) : Lexer :=
  match high with
  | some h =>
    if CodePoint.isLow n then .str (s ++ (CodePoint.ofNat (CodePoint.join h n)).toList) none
    else if CodePoint.isHigh n then .str (flush s high) (some n)
    else .str (flush s high ++ (CodePoint.ofNat n).toList) none
  | none => if CodePoint.isHigh n then .str s (some n) else .str (s ++ (CodePoint.ofNat n).toList) none

def escape? : Char → Option Char
  | '"' => some '"'
  | '\\' => some '\\'
  | '/' => some '/'
  | 'b' => some (Char.ofNat 0x08)
  | 'f' => some (Char.ofNat 0x0C)
  | 'n' => some '\n'
  | 'r' => some '\r'
  | 't' => some '\t'
  | _ => none

def stepChar : Lexer → Char → List Token × Lexer
  | .start, c => begins c
  | .word [] value, c => ends (.word value) c
  | .word (r :: rest) value, c => if c = r then ([], .word rest value) else ([.bad], .stuck)
  | .str s high, c =>
    if c = '"' then ([.str (flush s high)], .start)
    else if c = '\\' then ([], .esc s high)
    else if c.toNat < 0x20 then ([.bad], .stuck)
    else ([], .str (flush s high ++ [.scalar c]) none)
  | .esc s high, c =>
    if c = 'u' then ([], .hex s high 0 0)
    else match escape? c with
      | some e => ([], .str (flush s high ++ [.scalar e]) none)
      | none => ([.bad], .stuck)
  | .hex s high digits value, c =>
    match hexDigit? c with
    | some d =>
      if digits = 3 then ([], unicode s high (value * 16 + d))
      else ([], .hex s high (digits + 1) (value * 16 + d))
    | none => ([.bad], .stuck)
  | .minus, c =>
    if c = 'I' then ([], .word infinity (.float "-Infinity"))
    else if c = '0' then ([], .zero true)
    else match digit? c with
      | some d => ([], .int true [d])
      | none => ([.bad], .stuck)
  | .zero negative, c => afterInt (.int negative [0]) (intText negative [0]) c
  | .int negative digits, c =>
    match digit? c with
    | some d => ([], .int negative (digits ++ [d]))
    | none => afterInt (.int negative digits) (intText negative digits) c
  | .dot token literal, c =>
    if c.isDigit then ([], .frac ((literal.push '.').push c)) else ([token, .bad], .stuck)
  | .frac literal, c =>
    if c.isDigit then ([], .frac (literal.push c))
    else if c = 'e' ∨ c = 'E' then ([], .exp (.word (.float literal)) (literal.push c) false)
    else ends (.word (.float literal)) c
  | .exp token literal signed, c =>
    if c.isDigit then ([], .expDigits (literal.push c))
    else if (c = '+' ∨ c = '-') ∧ signed = false then ([], .exp token (literal.push c) true)
    else ([token, .bad], .stuck)
  | .expDigits literal, c =>
    if c.isDigit then ([], .expDigits (literal.push c)) else ends (.word (.float literal)) c
  | .stuck, _ => ([], .stuck)

/-- one code point: a surrogate may stand in a string only -/
def step : Lexer → CodePoint → List Token × Lexer
  | l, .scalar c => l.stepChar c
  | .str s high, .surrogate n => ([], .str (flush s high ++ [.surrogate n]) none)
  | .stuck, .surrogate _ => ([], .stuck)
  | _, .surrogate _ => ([.bad], .stuck)

def finish : Lexer → List Token
  | .start | .stuck => []
  | .word [] value => [.word value]
  | .zero negative => [.int negative [0]]
  | .int negative digits => [.int negative digits]
  | .frac literal | .expDigits literal => [.word (.float literal)]
  | .dot token _ | .exp token _ _ => [token, .bad]
  | _ => [.bad]

/-- the tokens of a text from where the lexer stands -/
def run : Lexer → Str → List Token
  | l, [] => l.finish
  | l, c :: cs => (l.step c).1 ++ run (l.step c).2 cs

end Lexer

def lex (s : Str) : List Token := Lexer.start.run s

/-! ## the reader -/

/-- the exceptions of `json.loads` -/
inductive LoadError where
  | jsonDecodeError
  | unicodeDecodeError
  | recursionError
  | valueError
  deriving DecidableEq, Repr

/-- the limits of the interpreter: how deep containers may be nested, and how many digits an integer
may have, `0` for no limit -/
structure Limits where
  recursionLimit : Nat
  intMaxStrDigits : Nat

/-- an open container that waits for a value -/
inductive Frame where
  | arr (items : List Value)
  | obj (members : List (Str × Value)) (key : Str)

/-- what the reader waits for; the stack holds the containers around -/
inductive Reader where
  | awaitValue (stack : List Frame)
  /-- after `[` and after `{` -/
  | openArr (stack : List Frame)
  | openObj (stack : List Frame)
  | awaitKey (members : List (Str × Value)) (stack : List Frame)
  | awaitColon (members : List (Str × Value)) (key : Str) (stack : List Frame)
  /-- after an item and after a member: `,` or the end of the container -/
  | afterItem (items : List Value) (stack : List Frame)
  | afterMember (members : List (Str × Value)) (stack : List Frame)
  /-- the text is over -/
  | done (value : Value)

namespace Reader

/-- a value is read, and goes into the container around it -/
def complete (value : Value) : List Frame → Reader
  | [] => .done value
  | .arr items :: stack => .afterItem (items ++ [value]) stack
  | .obj members key :: stack => .afterMember (Value.setItem members key value) stack

def intValue (negative : Bool) (digits : List Nat) : Int :=
  let n : Nat := digits.foldl (fun n d => n * 10 + d) 0
  if negative then -(n : Int) else n

def begins (limits : Limits) (stack : List Frame) : Token → Except LoadError Reader
  | .word value => .ok (complete value stack)
  | .str s => .ok (complete (.str s) stack)
  | .int negative digits =>
    if limits.intMaxStrDigits ≠ 0 ∧ limits.intMaxStrDigits < digits.length then .error .valueError
    else .ok (complete (.int (intValue negative digits)) stack)
  | .lbracket =>
    if stack.length < limits.recursionLimit then .ok (.openArr stack) else .error .recursionError
  | .lbrace =>
    if stack.length < limits.recursionLimit then .ok (.openObj stack) else .error .recursionError
  | _ => .error .jsonDecodeError

def step (limits : Limits) : Reader → Token → Except LoadError Reader
  | .awaitValue stack, t => begins limits stack t
  | .openArr stack, .rbracket => .ok (complete (.arr []) stack)
  | .openArr stack, t => begins limits (.arr [] :: stack) t
  | .openObj stack, .rbrace => .ok (complete (.obj []) stack)
  | .openObj stack, .str key => .ok (.awaitColon [] key stack)
  | .awaitKey members stack, .str key => .ok (.awaitColon members key stack)
  | .awaitColon members key stack, .colon => .ok (.awaitValue (.obj members key :: stack))
  | .afterItem items stack, .comma => .ok (.awaitValue (.arr items :: stack))
  | .afterItem items stack, .rbracket => .ok (complete (.arr items) stack)
  | .afterMember members stack, .comma => .ok (.awaitKey members stack)
  | .afterMember members stack, .rbrace => .ok (complete (.obj members) stack)
  | _, _ => .error .jsonDecodeError

def finish : Reader → Except LoadError Value
  | .done value => .ok value
  | _ => .error .jsonDecodeError

end Reader

def read (limits : Limits) (s : Str) : Except LoadError Value := do
  (← (lex s).foldlM (Reader.step limits) (.awaitValue [])).finish

/-- what is given to `json.loads` -/
inductive Source where
  | text (s : Str)
  | bytes (bytes : List UInt8)

/-- `json.loads` -/
def loads (limits : Limits) : Source → Except LoadError Value
  | .text s =>
    if s.head? = some (.scalar (Char.ofNat 0xFEFF)) then .error .jsonDecodeError else read limits s
  | .bytes bytes =>
    match decodeBytes bytes with
    | none => .error .unicodeDecodeError
    | some s => read limits s

end PyJson
