import Mathlib.Data.List.ModifyLast
import PrintAgent.Lib.Loop
import PrintAgent.Lib.Round
import PrintAgent.Lib.Slices

/-!
# ESC/POS raster output

`printing/escpos.py`.  The floats of `gray_to_rows` are rationals with a rounding `rnd` after each
operation: `double` is what the code computes with, `id` is exact arithmetic.

A page is dithered row by row (`dither`), a row pixel by pixel (`ditherRow`).  `Dither.errors` and
`Raster.errors` are history: the quantisation error of each pixel, which the code does not keep.
-/

namespace PrintAgent

inductive RenderError where
  | indexError
  | valueError
  | overflowError
  | runtimeError (message : String)
  deriving DecidableEq, Repr

def defaultPadMm : ℚ := 4

/-- `FEED_LINES` -/
def feedLinesDefault : Int := 4

def rowsPerBlock : Nat := 24

/-- an integer too large for a float: rounded it would be `2 ^ 1024` or more -/
def tooLargeForFloat (n : Int) : Bool := (2 ^ 128) ^ 8 - (2 ^ 97) ^ 10 ≤ n.natAbs

def mmToDots (rnd : ℚ → ℚ) (mm : ℚ) (dpi : Int) : Except RenderError Int :=
  if tooLargeForFloat dpi then .error .overflowError
  else .ok (max 0 (roundEven (rnd (rnd (mm / rnd (254 / 10)) * rnd dpi))))

/-! ## `gray_to_rows` -/

structure Dither where
  current : List ℚ
  following : Option (List ℚ)
  row : List UInt8
  errors : List ℚ

structure Raster where
  current : List ℚ
  rows : List (List UInt8)
  errors : List (List ℚ)

/-- `row[x >> 3] |= 0x80 >> (x & 7)` -/
def inkPixel (row : List UInt8) (x : Nat) : List UInt8 :=
  row.modify (x / 8) fun byte => byte ||| (0x80 >>> UInt8.ofNat (x % 8))

/-- `values[i] += error * weight / 16` -/
def addShare (rnd : ℚ → ℚ) (error : ℚ) (weight : Nat) (values : List ℚ) (i : Nat) :
    Except RenderError (List ℚ) :=
  if i < values.length then .ok (values.modify i fun v => rnd (v + rnd (rnd (error * weight) / 16)))
  else .error .indexError

/-- the same, under the `if` that keeps `i` inside the row -/
def addShareIf (inside : Bool) (rnd : ℚ → ℚ) (error : ℚ) (weight : Nat) (values : List ℚ) (i : Nat) :
    Except RenderError (List ℚ) :=
  if inside then addShare rnd error weight values i else .ok values

/-- the shares of the pixel `x` for the next row -/
def diffuseBelow (rnd : ℚ → ℚ) (width x : Nat) (error : ℚ) (following : List ℚ) :
    Except RenderError (List ℚ) := do
  let values ← addShareIf (0 < x) rnd error 3 following (x - 1)
  let values ← addShare rnd error 5 values x
  addShareIf (x + 1 < width) rnd error 1 values (x + 1)

def diffuse (rnd : ℚ → ℚ) (width x : Nat) (error : ℚ) (s : Dither) : Except RenderError Dither := do
  let current ← addShareIf (x + 1 < width) rnd error 7 s.current (x + 1)
  match s.following with
  | none => .ok { s with current := current }
  | some following => do
    let following ← diffuseBelow rnd width x error following
    .ok { s with current := current, following := some following }

/-- `new = 0.0 if old < threshold else 255.0` -/
def quantised (threshold old : ℚ) : ℚ := if old < threshold then 0 else 255

def ditherPixel (rnd : ℚ → ℚ) (threshold : ℚ) (width : Nat) (s : Dither) (x : Nat) :
    Except RenderError Dither :=
  match s.current[x]? with
  | none => .error .indexError
  | some old =>
    let new := quantised threshold old
    let row := if new = 0 then inkPixel s.row x else s.row
    let error := rnd (old - new)
    let s := { s with row := row, errors := s.errors ++ [error] }
    if error = 0 then .ok s else diffuse rnd width x error s

/-- `width` gray bytes from the row `y` on -/
def grayRow (gray : List UInt8) (width y : Nat) : List ℚ :=
  ((gray.drop (y * width)).take width).map fun value => (value.toNat : ℚ)

def bytesPerRow (width : Nat) : Nat := (width + 7) / 8

/-- the row `y` before its first pixel -/
def startRow (gray : List UInt8) (width height : Nat) (s : Raster) (y : Nat) : Dither where
  current := s.current
  following := if y + 1 < height then some (grayRow gray width (y + 1)) else none
  row := List.replicate (bytesPerRow width) 0
  errors := []

/-- the first `k` pixels of a row -/
def ditherRow (rnd : ℚ → ℚ) (threshold : ℚ) (width k : Nat) (s : Dither) : Except RenderError Dither :=
  loopTo k (ditherPixel rnd threshold width) s

def ditherNext (rnd : ℚ → ℚ) (gray : List UInt8) (width height : Nat) (threshold : ℚ) (s : Raster)
    (y : Nat) : Except RenderError Raster := do
  let done ← ditherRow rnd threshold width width (startRow gray width height s y)
  .ok {
    current := done.following.getD done.current
    rows := s.rows ++ [done.row]
    errors := s.errors ++ [done.errors] }

/-- the first `k` rows of a page -/
def ditherRows (rnd : ℚ → ℚ) (gray : List UInt8) (width height : Nat) (threshold : ℚ) (k : Nat) :
    Except RenderError Raster :=
  loopTo k (ditherNext rnd gray width height threshold) ⟨grayRow gray width 0, [], []⟩

def grayToRows (rnd : ℚ → ℚ) (gray : List UInt8) (width height : Nat) (threshold : ℚ := 128) :
    Except RenderError (List (List UInt8)) :=
  (ditherRows rnd gray width height threshold height).map (·.rows)

/-! ## the job -/

/-- `any(row)` -/
def hasInk (row : List UInt8) : Bool := row.any fun byte => byte ≠ 0

def inkRows (rows : List (List UInt8)) : List Nat :=
  (List.range rows.length).filter fun i => hasInk (rows.getD i [])

def trimBlankRows (rows : List (List UInt8)) : List (List UInt8) :=
  match (inkRows rows).head?, (inkRows rows).getLast? with
  | some first, some last => (rows.take (last + 1)).drop first
  | _, _ => []

/-- `bytes(values)` -/
def bytesOf (values : List Int) : Except RenderError (List UInt8) :=
  if values.all fun v => 0 ≤ v && v < 256 then .ok (values.map fun v => UInt8.ofNat v.toNat)
  else .error .valueError

/-- `rows[start : start + _ROWS_PER_BLOCK]` for each start -/
def blocksOf (rows : List (List UInt8)) : List (List (List UInt8)) :=
  slices rowsPerBlock ((rows.length + (rowsPerBlock - 1)) / rowsPerBlock) rows

/-- `GS v 0` with its data -/
def imageBlock (bytesPerRow : Nat) (block : List (List UInt8)) : Except RenderError (List UInt8) := do
  let sizes ← bytesOf [bytesPerRow % 256, bytesPerRow / 256, block.length % 256, block.length / 256]
  return [0x1D, 0x76, 0x30, 0x00] ++ sizes ++ block.flatten

/-- `ESC d n`, unless there is nothing to feed -/
def feedCommand (feedLines : Int) : Except RenderError (List UInt8) :=
  if feedLines = 0 then .ok [] else (bytesOf [min 255 feedLines]).map ([0x1B, 0x64] ++ ·)

/-- an integer that Python takes as the length of a list -/
def isIndexSized (n : Int) : Bool := -2 ^ 63 ≤ n && n < 2 ^ 63

/-- `[blank] * pad_rows` -/
def repeated (blank : List UInt8) (padRows : Int) : Except RenderError (List (List UInt8)) :=
  if isIndexSized padRows then .ok (List.replicate padRows.toNat blank) else .error .overflowError

def buildEscposJob (rows : List (List UInt8)) (padRows : Int := 0) (feedLines : Int := feedLinesDefault)
    (cut : Bool := true) : Except RenderError (List UInt8) :=
  match rows with
  | [] => .ok []
  | row :: _ => do
    let padding ← repeated (List.replicate row.length 0) padRows
    let images ← (blocksOf (padding ++ rows ++ padding)).mapM (imageBlock row.length)
    let feed ← feedCommand feedLines
    return [0x1B, 0x40] ++ images.flatten ++ feed ++ if cut then [0x1D, 0x56, 0x01] else []

/-! ## the receipt -/

/-- a page of `render_pdf_gray` -/
structure GrayPage where
  gray : List UInt8
  width : Nat
  height : Nat

/-- `build_escpos_receipt`, from the rendered pages on -/
def buildEscposReceipt (rnd : ℚ → ℚ) (pages : List GrayPage) (dpi : Int) :
    Except RenderError (List UInt8) := do
  let dithered ← pages.mapM fun page => grayToRows rnd page.gray page.width page.height
  let rows := (dithered.map trimBlankRows).flatten
  if rows = [] then .error (.runtimeError "The receipt is blank")
  else do
    let padRows ← mmToDots rnd defaultPadMm dpi
    buildEscposJob rows padRows

end PrintAgent
