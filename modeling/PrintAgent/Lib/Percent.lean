import PrintAgent.Lib.Json

/-!
# Formatting with `%`

`template % args` of a `str`.  What an object gives for a conversion is its own; everything that raises is
`none`.

* `parseDirective`        a conversion specifier: mapping key, flags, width, precision, type;
* `Piece`                 a text of the template, or one that is put in;
* `formatFrom`            the template from left to right;
* `percent`               the operator;
* `ownIn_formatFrom`      what is of the template stands so in the template.
-/

namespace PyFormat

open PyJson (Str CodePoint)

structure Conversion where
  flags : Str
  width : Option Int
  precision : Option Int
  type : CodePoint
  deriving DecidableEq, Repr

/-- an object, by the text that it gives for a conversion, and its value if it is an `int` -/
structure Arg where
  render : Conversion → Option Str
  int : Option Int

/-- a width or a precision, `*` is taken from the arguments -/
inductive Number where
  | digits (n : Nat)
  | star
  deriving DecidableEq, Repr

structure Directive where
  key : Option Str
  flags : Str
  width : Option Number
  precision : Option Number
  type : CodePoint
  deriving DecidableEq, Repr

def isOneOf (chars : List Char) : CodePoint → Bool
  | .scalar c => c ∈ chars
  | .surrogate _ => false

def isDigit (c : CodePoint) : Bool := isOneOf ['0', '1', '2', '3', '4', '5', '6', '7', '8', '9'] c

/-- a key up to its closing parenthesis, and the rest -/
def keyFrom (depth : Nat) : Str → Option (Str × Str)
  | [] => none
  | c :: s =>
    if c = .scalar ')' ∧ depth = 0 then some ([], s)
    else
      let depth := if c = .scalar ')' then depth - 1 else if c = .scalar '(' then depth + 1 else depth
      (keyFrom depth s).map fun (key, rest) => (c :: key, rest)

def parseKey : Str → Option (Option Str × Str)
  | .scalar '(' :: s => (keyFrom 0 s).map fun (key, rest) => (some key, rest)
  | s => some (none, s)

def valueOf (digits : Str) : Nat :=
  digits.foldl (fun n c => match c with | .scalar c => 10 * n + (c.toNat - '0'.toNat) | .surrogate _ => n) 0

def parseNumber : Str → Option Number × Str
  | .scalar '*' :: s => (some .star, s)
  | s => (if s.takeWhile isDigit = [] then none else some (.digits (valueOf (s.takeWhile isDigit))),
    s.dropWhile isDigit)

/-- a precision without digits is zero -/
def parsePrecision : Str → Option Number × Str
  | .scalar '.' :: s => (some ((parseNumber s).1.getD (.digits 0)), (parseNumber s).2)
  | s => (none, s)

/-- a length modifier is read and ignored -/
def skipLength : Str → Str
  | c :: s => if isOneOf ['h', 'l', 'L'] c then s else c :: s
  | [] => []

/-- what follows a `%`, and how many characters it has -/
def parseDirective (s : Str) : Option (Directive × Nat) := do
  let (key, afterKey) ← parseKey s
  let flags := afterKey.takeWhile (isOneOf ['-', '+', ' ', '#', '0'])
  let (width, afterWidth) := parseNumber (afterKey.dropWhile (isOneOf ['-', '+', ' ', '#', '0']))
  let (precision, afterPrecision) := parsePrecision afterWidth
  match skipLength afterPrecision with
  | [] => none
  | type :: rest => some ({ key, flags, width, precision, type }, s.length - rest.length)

/-! ## the arguments -/

/-- a tuple, or a mapping that may also be formatted as a whole -/
inductive Args where
  | positional (args : List Arg)
  | mapping (self : Arg) (items : Str → Option Arg)

/-- the arguments that are left; after a key the value of the key is the next one -/
inductive ArgsLeft where
  | positional (args : List Arg)
  | mapping (items : Str → Option Arg) (next : Option Arg)

def Args.left : Args → ArgsLeft
  | positional args => .positional args
  | mapping self items => .mapping items (some self)

namespace ArgsLeft

def next : ArgsLeft → Option (Arg × ArgsLeft)
  | positional (arg :: args) => some (arg, positional args)
  | mapping items (some arg) => some (arg, mapping items none)
  | _ => none

def lookup (key : Str) : ArgsLeft → Option ArgsLeft
  | positional _ => none
  | mapping items _ => (items key).map fun arg => mapping items (some arg)

def areUsed : ArgsLeft → Bool
  | positional args => args.isEmpty
  | mapping _ _ => true

def number (left : ArgsLeft) : Option Number → Option (Option Int × ArgsLeft)
  | none => some (none, left)
  | some (.digits n) => some (some n, left)
  | some .star => do
    let (arg, left) ← left.next
    return (some (← arg.int), left)

/-- the text for a directive, and the arguments that are left then -/
def convert (left : ArgsLeft) (d : Directive) : Option (Str × ArgsLeft) := do
  let left ← match d.key with
    | none => some left
    | some key => left.lookup key
  let (width, left) ← left.number d.width
  let (precision, left) ← left.number d.precision
  if d.type = .scalar '%' then return ([.scalar '%'], left)
  let (arg, left) ← left.next
  if !isOneOf ['s', 'r', 'a', 'i', 'd', 'u', 'o', 'x', 'X', 'e', 'E', 'f', 'F', 'g', 'G', 'c'] d.type then none
  return (← arg.render { flags := d.flags, width, precision, type := d.type }, left)

end ArgsLeft

/-! ## the operator -/

/-- a text of the result: of the template, or put in -/
inductive Piece where
  | own (text : Str)
  | put (text : Str)
  deriving DecidableEq, Repr

def Piece.text : Piece → Str
  | .own text | .put text => text

def joined (pieces : List Piece) : Str := (pieces.map Piece.text).flatten

def keep (c : CodePoint) : List Piece → List Piece
  | .own text :: pieces => .own (c :: text) :: pieces
  | pieces => .own [c] :: pieces

/-- the template from left to right; the next `skip` characters are of a directive -/
def formatFrom (left : ArgsLeft) (skip : Nat) : Str → Option (List Piece)
  | [] => if left.areUsed then some [] else none
  | c :: cs =>
    match skip with
    | skip + 1 => formatFrom left skip cs
    | 0 =>
      if c = .scalar '%' then
        match parseDirective cs with
        | none => none
        | some (d, n) =>
          match left.convert d with
          | none => none
          | some (text, left) => (formatFrom left n cs).map (.put text :: ·)
      else (formatFrom left 0 cs).map (keep c)

theorem joined_cons (piece : Piece) (pieces : List Piece) :
    joined (piece :: pieces) = piece.text ++ joined pieces := rfl

theorem joined_append (left right : List Piece) : joined (left ++ right) = joined left ++ joined right := by
  rw [joined, List.map_append, List.flatten_append]
  rfl

theorem joined_keep (c : CodePoint) (pieces : List Piece) : joined (keep c pieces) = c :: joined pieces := by
  unfold keep
  split <;> rfl

/-- the pieces of a text that are its own stand in it, and one that comes first may be its beginning -/
structure OwnIn (pieces : List Piece) (text : Str) (fromStart : Prop) : Prop where
  infixes : ∀ t, .own t ∈ pieces → t <:+: text
  start : fromStart → ∀ t rest, pieces = .own t :: rest → t <+: text

theorem OwnIn.nil (fromStart : Prop) : OwnIn [] [] fromStart :=
  ⟨fun _ h => (by cases h), fun _ _ _ h => (by cases h)⟩

theorem OwnIn.put {pieces : List Piece} {cs : Str} {P : Prop} (h : OwnIn pieces cs P) (c : CodePoint) (text : Str)
    (Q : Prop) : OwnIn (.put text :: pieces) (c :: cs) Q where
  infixes t ht := by
    rcases List.mem_cons.mp ht with ht | ht
    · cases ht
    · exact List.infix_cons (h.infixes t ht)
  start _ t rest ht := by cases ht

theorem OwnIn.skip {pieces : List Piece} {cs : Str} {P : Prop} (h : OwnIn pieces cs P) (c : CodePoint) :
    OwnIn pieces (c :: cs) False :=
  ⟨fun t ht => List.infix_cons (h.infixes t ht), fun hno => hno.elim⟩

theorem OwnIn.keep {pieces : List Piece} {cs : Str} (h : OwnIn pieces cs True) (c : CodePoint) :
    OwnIn (keep c pieces) (c :: cs) True := by
  have hstart : ∀ t rest, PyFormat.keep c pieces = .own t :: rest → t <+: c :: cs := by
    intro t rest ht
    unfold PyFormat.keep at ht
    split at ht
    · rename_i text rest'
      cases ht
      exact List.cons_prefix_cons.mpr ⟨rfl, h.start trivial text _ rfl⟩
    · cases ht
      exact List.cons_prefix_cons.mpr ⟨rfl, List.nil_prefix⟩
  refine ⟨fun t ht => ?_, fun _ => hstart⟩
  have hmem : (∃ rest, PyFormat.keep c pieces = .own t :: rest) ∨ .own t ∈ pieces := by
    unfold PyFormat.keep at ht ⊢
    split at ht
    · rcases List.mem_cons.mp ht with ht | ht
      · cases ht
        exact .inl ⟨_, rfl⟩
      · exact .inr (List.mem_cons_of_mem _ ht)
    · rcases List.mem_cons.mp ht with ht | ht
      · cases ht
        exact .inl ⟨_, rfl⟩
      · exact .inr ht
  rcases hmem with ⟨rest, hrest⟩ | ht
  · exact (hstart t rest hrest).isInfix
  · exact List.infix_cons (h.infixes t ht)

/-- **What is of the template stands so in the template.** -/
theorem ownIn_formatFrom {left : ArgsLeft} {skip : Nat} {template : Str} {pieces : List Piece}
    (h : formatFrom left skip template = some pieces) : OwnIn pieces template (skip = 0) := by
  induction template generalizing left skip pieces with
  | nil =>
    rw [formatFrom] at h
    split at h
    · cases h
      exact .nil _
    · cases h
  | cons c cs ih =>
    cases skip with
    | succ skip =>
      have hskip := (ih h).skip c
      exact ⟨hskip.infixes, fun hno => absurd hno (Nat.succ_ne_zero skip)⟩
    | zero =>
      rw [formatFrom.eq_def] at h
      dsimp only at h
      split at h
      · split at h
        · cases h
        · split at h
          · cases h
          · obtain ⟨rest, hrest, rfl⟩ := Option.map_eq_some_iff.mp h
            exact (ih hrest).put c _ _
      · obtain ⟨rest, hrest, rfl⟩ := Option.map_eq_some_iff.mp h
        have hown := ih hrest
        have hkeep := (OwnIn.mk hown.infixes fun _ => hown.start rfl).keep c
        exact ⟨hkeep.infixes, fun _ => hkeep.start trivial⟩

/-- `template % args` -/
def percent (template : Str) (args : Args) : Option Str := (formatFrom args.left 0 template).map joined

end PyFormat
