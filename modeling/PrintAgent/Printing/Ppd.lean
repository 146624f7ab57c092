import PrintAgent.Lib.Loop
import PrintAgent.Lib.Regex
import PrintAgent.Printing.Media

/-!
# What the PPD and the PDF say

The part of `printing/macos.py` that reads the PPD of a printer and the first page of a PDF, in any
arithmetic.  `none` is a file that cannot be read.

The expressions are of texts that hold only characters below 256, which is what `latin-1` gives.
-/

namespace PrintAgent

open FloatArith Regex

/-! ## texts -/

def latin1 (byte : UInt8) : Char := Char.ofNat byte.toNat

/-- `read_text(encoding="latin-1")`, which ends every line with a line feed -/
def readText : List UInt8 → List Char
  | [] => []
  | 13 :: 10 :: bytes => '\n' :: readText bytes
  | 13 :: bytes => '\n' :: readText bytes
  | byte :: bytes => latin1 byte :: readText bytes

/-- `\s` -/
def isWhite (c : Char) : Bool :=
  let n := c.toNat
  0x09 ≤ n ∧ n ≤ 0x0D ∨ 0x1C ≤ n ∧ n ≤ 0x20 ∨ n = 0x85 ∨ n = 0xA0

/-- `\s` of an expression for bytes -/
def isAsciiWhite (c : Char) : Bool := 0x09 ≤ c.toNat ∧ c.toNat ≤ 0x0D ∨ c = ' '

/-- `\w` -/
def isWord (c : Char) : Bool :=
  let n := c.toNat
  c.isAlphanum ∨ c = '_' ∨ n ∈ [0xAA, 0xB2, 0xB3, 0xB5, 0xB9, 0xBA, 0xBC, 0xBD, 0xBE] ∨
    0xC0 ≤ n ∧ n ≤ 0xFF ∧ n ≠ 0xD7 ∧ n ≠ 0xF7

/-- `^`, of every line -/
def lineStart : Regex Char := between fun previous _ => previous.all (· = '\n')

/-- `\b` -/
def wordEdge : Regex Char := between fun previous next => previous.any isWord != next.any isWord

/-- the text, in letters of any case -/
def anyCase (text : String) : Regex Char := cat (text.toList.map fun c => one fun c' => c'.toLower = c)

/-- `[\d.]` -/
def isDecimalChar (c : Char) : Bool := c.isDigit || c = '.'

/-- `[-\d.]` -/
def isSignedDecimalChar (c : Char) : Bool := c = '-' || isDecimalChar c

/-! ## numbers -/

def digitsValue (digits : List Char) : Nat := digits.foldl (fun n c => 10 * n + (c.toNat - '0'.toNat)) 0

/-- digits with at most one point, which is not alone -/
def unsignedDecimal (text : List Char) : Option ℚ :=
  let whole := text.takeWhile Char.isDigit
  match text.dropWhile Char.isDigit with
  | [] => if whole.isEmpty then none else some (digitsValue whole)
  | c :: fraction =>
    if c = '.' && fraction.all Char.isDigit && !(whole ++ fraction).isEmpty then
      some (digitsValue (whole ++ fraction) / 10 ^ fraction.length)
    else none

/-- what `float` reads of a text of digits, points and minus signs -/
def decimal : List Char → Option ℚ
  | '-' :: text => (unsignedDecimal text).map fun q => -q
  | text => unsignedDecimal text

section Parse
variable {F : Type} [FloatArith F]

/-- `float(text)` -/
def floatOf (text : List Char) : Except ArithError F :=
  match decimal text with
  | some q => .ok (ofRat q)
  | none => .error .valueError

/-- `int(digits)`, which Python refuses for more than 4300 digits -/
def intOf (digits : List Char) : Except ArithError ℤ :=
  if 4300 < digits.length then .error .valueError else .ok (digitsValue digits)

/-! ## the papers -/

/-- `^\*PaperDimension\s+([^/:\s]+)[^:]*:\s*"([\d.]+)\s+([\d.]+)"` -/
def paperDimension : Regex Char :=
  cat [lineStart, literal "*PaperDimension".toList, plus isWhite,
    group (plus fun c => c ≠ '/' ∧ c ≠ ':' ∧ ¬ isWhite c), many (· ≠ ':'), one (· = ':'), many isWhite,
    one (· = '"'), group (plus isDecimalChar), plus isWhite, group (plus isDecimalChar), one (· = '"')]

def paperSizes (ppd : Option (List UInt8)) : Except ArithError (List (PaperSize F)) :=
  match ppd with
  | none => .ok []
  | some bytes => (paperDimension.findAll (readText bytes)).mapM fun m => do
    return ⟨String.ofList (m.group 1), ← floatOf (m.group 2), ← floatOf (m.group 3)⟩

/-- `^\*CustomPageSize\s+True` -/
def customPageSize : Regex Char :=
  cat [lineStart, literal "*CustomPageSize".toList, plus isWhite, literal "True".toList]

/-- `^\*ParamCustomPageSize\s+<name>:\s*\d+\s+points\s+([\d.]+)\s+([\d.]+)` -/
def paramCustomPageSize (name : String) : Regex Char :=
  cat [lineStart, literal "*ParamCustomPageSize".toList, plus isWhite, literal name.toList, one (· = ':'),
    many isWhite, plus Char.isDigit, plus isWhite, literal "points".toList, plus isWhite,
    group (plus isDecimalChar), plus isWhite, group (plus isDecimalChar)]

def customSizeRange (ppd : Option (List UInt8)) : Except ArithError (Option (CustomRange F)) :=
  match ppd with
  | none => .ok none
  | some bytes =>
    let text := readText bytes
    if (customPageSize.search text).isNone then .ok none
    else
      match (paramCustomPageSize "Width").search text, (paramCustomPageSize "Height").search text with
      | some width, some height => do
        return some ⟨← floatOf (width.group 2), ← floatOf (height.group 1), ← floatOf (height.group 2)⟩
      | _, _ => .ok none

/-! ## the page -/

/-- `/MediaBox\s*\[\s*([-\d.]+)\s+([-\d.]+)\s+([-\d.]+)\s+([-\d.]+)\s*\]` -/
def mediaBox : Regex Char :=
  let number := group (plus isSignedDecimalChar)
  cat [literal "/MediaBox".toList, many isAsciiWhite, one (· = '['), many isAsciiWhite, number,
    plus isAsciiWhite, number, plus isAsciiWhite, number, plus isAsciiWhite, number, many isAsciiWhite,
    one (· = ']')]

def pdfPageSize (file : Option (List UInt8)) : Except ArithError (Option (PageSize F)) :=
  match file with
  | none => .ok none
  | some bytes =>
    match mediaBox.search ((bytes.take (2 * 1024 * 1024)).map latin1) with
    | none => .ok none
    | some m => do
      let x₀ ← floatOf (m.group 1)
      let y₀ ← floatOf (m.group 2)
      let x₁ ← floatOf (m.group 3)
      let y₁ ← floatOf (m.group 4)
      return some ⟨FloatArith.abs (sub x₁ x₀), FloatArith.abs (sub y₁ y₀)⟩

/-! ## the receipt printers -/

def ppdText (ppd : Option (List UInt8)) : List Char := (ppd.map readText).getD []

/-- `^\*(?:Manufacturer|ModelName|NickName|cupsFilter2?):\s*"([^"]*)"` -/
def headerLine : Regex Char :=
  cat [lineStart, one (· = '*'),
    oneOf [literal "Manufacturer".toList, literal "ModelName".toList, literal "NickName".toList]
      (cat [literal "cupsFilter".toList, oneOf [one (· = '2')] nothing]),
    one (· = ':'), many isWhite, one (· = '"'), group (many (· ≠ '"')), one (· = '"')]

def notEscpos : Regex Char :=
  oneOf [anyCase "zebra", anyCase "dymo", anyCase "rollo", anyCase "godex",
    cat [wordEdge, anyCase "tsc", wordEdge], anyCase "brother", anyCase "label", anyCase "zpl"] (anyCase "epl")

def maxReceiptWidthPt : F := ofRat 230

/-- `^\*DefaultResolution:\s*(\d+)` -/
def defaultResolution : Regex Char :=
  cat [lineStart, literal "*DefaultResolution:".toList, many isWhite, group (plus Char.isDigit)]

/-- `int(match.group(1)) if match else 203` -/
def dpiOf (ppdText : List Char) : Except ArithError ℤ :=
  match defaultResolution.search ppdText with
  | some m => intOf (m.group 1)
  | none => .ok 203

def receiptRolls (sizes : List (PaperSize F)) (custom : Option (CustomRange F)) : List F :=
  (sizes.filter fun size => lt (ofRat 0) size.width && le (ofRat (5 / 2)) (div size.height size.width)).map
      (·.width) ++
    (custom.filter fun custom =>
      lt (ofRat 0) custom.maxWidth && le rollRatio (div custom.maxHeight custom.maxWidth)).toList.map (·.maxWidth)

def escposWidthDots (ppdText : List Char) (sizes : List (PaperSize F)) (custom : Option (CustomRange F)) :
    Except ArithError (Option ℤ) :=
  if ppdText.isEmpty then .ok none
  else
    let header := [' '].intercalate ((headerLine.findAll ppdText).map (·.group 1))
    if (notEscpos.search header).isSome then .ok none
    else
      match receiptRolls sizes custom with
      | [] => .ok none
      | roll :: rolls => do
        let widthPt := rolls.foldl maxOf roll
        if lt maxReceiptWidthPt widthPt then return none
        let dpi ← ofInt (← dpiOf ppdText)
        let bytes ← roundInt (div (mul (div widthPt (ofRat 72)) dpi) (ofRat 8))
        return some (max 8 (bytes * 8))

/-! ## what comes out -/

end Parse

end PrintAgent
