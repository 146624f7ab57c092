import PrintAgent.Printing.Escpos

/-!
# The job as the printer reads it

The printer's side of `build_escpos_job`: `ESC @`, image blocks, a feed and a cut.

* `readBlock`, `readJob`   a block with its length fields, and the whole job;
* `writtenJob`             what a job says, in blocks; `readJob_buildEscposJob` reads it back;
* `escpos_round_trip`      what the printer reads is the padded rows, in blocks of at most 24 rows.

The data of a block may look like a command, so the reader is in step only because the length fields are
right; after the last block the input does not start like a block (`readBlock_feedAndCut`).
-/

namespace PrintAgent

structure ImageBlock where
  width : Nat
  rows : List (List UInt8)
  deriving DecidableEq, Repr

structure EscposJob where
  blocks : List ImageBlock
  feed : Option Nat
  cut : Bool
  deriving DecidableEq, Repr

/-- a 16-bit number, low byte first -/
def littleEndian (low high : UInt8) : Nat := low.toNat + 256 * high.toNat

/-- `GS v 0`, mode 0 -/
def readBlock : List UInt8 → Option (ImageBlock × List UInt8)
  | 0x1D :: 0x76 :: 0x30 :: 0x00 :: xL :: xH :: yL :: yH :: data =>
    let width := littleEndian xL xH
    let count := littleEndian yL yH
    if width * count ≤ data.length then
      some (⟨width, slices width count data⟩, data.drop (width * count))
    else none
  | _ => none

/-- `ESC d n`, if it is there -/
def readFeed : List UInt8 → Option Nat × List UInt8
  | 0x1B :: 0x64 :: n :: rest => (some n.toNat, rest)
  | rest => (none, rest)

/-- `GS V 1`, if it is there -/
def readCut : List UInt8 → Bool × List UInt8
  | 0x1D :: 0x56 :: 0x01 :: rest => (true, rest)
  | rest => (false, rest)

def readJob : List UInt8 → Option EscposJob
  | 0x1B :: 0x40 :: input =>
    let (blocks, input) := readMany readBlock input.length input
    let (feed, input) := readFeed input
    let (cut, input) := readCut input
    if input = [] then some ⟨blocks, feed, cut⟩ else none
  | _ => none

/-! ## writing and reading back -/

def writeBlock (block : ImageBlock) : List UInt8 :=
  [0x1D, 0x76, 0x30, 0x00, UInt8.ofNat (block.width % 256), UInt8.ofNat (block.width / 256),
    UInt8.ofNat (block.rows.length % 256), UInt8.ofNat (block.rows.length / 256)] ++ block.rows.flatten

/-- the rows are as wide as the block, and their number fits the length field -/
structure ImageBlock.Fits (block : ImageBlock) : Prop where
  width : block.width < 65536
  count : block.rows.length < 65536
  rows : ∀ row ∈ block.rows, row.length = block.width

theorem littleEndian_ofNat {n : Nat} (h : n < 65536) :
    littleEndian (UInt8.ofNat (n % 256)) (UInt8.ofNat (n / 256)) = n := by
  have hlow : n % 256 < 256 := Nat.mod_lt n (by decide)
  have hhigh : n / 256 < 256 := by omega
  rw [littleEndian, UInt8.toNat_ofNat_of_lt' hlow, UInt8.toNat_ofNat_of_lt' hhigh]
  omega

theorem readBlock_writeBlock {block : ImageBlock} (h : block.Fits) (rest : List UInt8) :
    readBlock (writeBlock block ++ rest) = some (block, rest) := by
  have hlength := length_flatten_pieces h.rows
  show readBlock (0x1D :: 0x76 :: 0x30 :: 0x00 :: UInt8.ofNat (block.width % 256) ::
    UInt8.ofNat (block.width / 256) :: UInt8.ofNat (block.rows.length % 256) ::
    UInt8.ofNat (block.rows.length / 256) :: (block.rows.flatten ++ rest)) = _
  rw [readBlock]
  simp only [littleEndian_ofNat h.width, littleEndian_ofNat h.count]
  rw [if_pos (by rw [List.length_append, hlength]; omega), slices_flatten h.rows, ← hlength, List.drop_left]

def feedAndCut (feedLines : Nat) (cut : Bool) : List UInt8 :=
  (if feedLines = 0 then [] else [0x1B, 0x64, UInt8.ofNat (min 255 feedLines)]) ++
    if cut then [0x1D, 0x56, 0x01] else []

theorem readBlock_feedAndCut (feedLines : Nat) (cut : Bool) : readBlock (feedAndCut feedLines cut) = none := by
  unfold feedAndCut
  by_cases hfeed : feedLines = 0
  · cases cut <;> rw [if_pos hfeed] <;> rfl
  · cases cut <;> rw [if_neg hfeed] <;> rfl

theorem readFeed_feedAndCut (feedLines : Nat) (cut : Bool) :
    readFeed (feedAndCut feedLines cut) =
      (if feedLines = 0 then none else some (min 255 feedLines), if cut then [0x1D, 0x56, 0x01] else []) := by
  have hlines : (UInt8.ofNat (min 255 feedLines)).toNat = min 255 feedLines :=
    UInt8.toNat_ofNat_of_lt' (Nat.lt_of_le_of_lt (Nat.min_le_left ..) (by decide))
  unfold feedAndCut
  by_cases hfeed : feedLines = 0
  · rw [if_pos hfeed, if_pos hfeed]
    cases cut <;> rfl
  · rw [if_neg hfeed, if_neg hfeed]
    show (some (UInt8.ofNat (min 255 feedLines)).toNat, _) = _
    rw [hlines]
    rfl

theorem readJob_written {blocks : List ImageBlock} (h : ∀ block ∈ blocks, block.Fits) (feedLines : Nat)
    (cut : Bool) :
    readJob ([0x1B, 0x40] ++ (blocks.map writeBlock).flatten ++ feedAndCut feedLines cut) =
      some ⟨blocks, if feedLines = 0 then none else some (min 255 feedLines), cut⟩ := by
  have hfuel : blocks.length ≤ ((blocks.map writeBlock).flatten ++ feedAndCut feedLines cut).length := by
    have hne : ∀ block ∈ blocks, writeBlock block ≠ [] := fun _ _ => by simp [writeBlock]
    have hwritten := length_le_written hne
    rw [List.length_append]
    omega
  have hread := readMany_items (fun block hb => readBlock_writeBlock (h block hb))
    (readBlock_feedAndCut feedLines cut) hfuel
  show readJob (0x1B :: 0x40 :: ((blocks.map writeBlock).flatten ++ feedAndCut feedLines cut)) = _
  rw [readJob, hread]
  simp only [readFeed_feedAndCut]
  cases cut <;> rfl

/-! ## the job that is built -/

theorem bytesOf_ok (values : List Nat) (h : ∀ v ∈ values, v < 256) :
    bytesOf (values.map Nat.cast) = .ok (values.map UInt8.ofNat) := by
  have hall : (values.map (Nat.cast : Nat → Int)).all (fun v => 0 ≤ v && v < 256) = true := by
    rw [List.all_eq_true]
    intro v hv
    obtain ⟨n, hn, rfl⟩ := List.mem_map.mp hv
    have hlt := h n hn
    rw [Bool.and_eq_true, decide_eq_true_iff, decide_eq_true_iff]
    omega
  rw [bytesOf, if_pos hall, List.map_map]
  rfl

theorem imageBlock_ok {width : Nat} {block : List (List UInt8)} (hw : width < 65536)
    (hn : block.length < 65536) : imageBlock width block = .ok (writeBlock ⟨width, block⟩) := by
  have hsizes := bytesOf_ok [width % 256, width / 256, block.length % 256, block.length / 256]
    (by
      intro v hv
      simp only [List.mem_cons, List.not_mem_nil, or_false] at hv
      omega)
  simp only [List.map_cons, List.map_nil, Int.natCast_mod, Int.natCast_div, Nat.cast_ofNat] at hsizes
  rw [imageBlock, hsizes]
  rfl

theorem feedCommand_ok (feedLines : Nat) :
    feedCommand feedLines =
      .ok (if feedLines = 0 then [] else [0x1B, 0x64, UInt8.ofNat (min 255 feedLines)]) := by
  by_cases hfeed : feedLines = 0
  · simp [feedCommand, hfeed]
  · have hbyte := bytesOf_ok [min 255 feedLines] (by simp)
    simp only [List.map_cons, List.map_nil, Nat.cast_min, Nat.cast_ofNat] at hbyte
    rw [feedCommand, if_neg hfeed, if_neg (by omega), hbyte]
    rfl

def paddedRows (width padRows : Nat) (rows : List (List UInt8)) : List (List UInt8) :=
  List.replicate padRows (List.replicate width 0) ++ rows ++
    List.replicate padRows (List.replicate width 0)

theorem length_of_mem_paddedRows {width : Nat} (padRows : Nat) {rows : List (List UInt8)}
    (h : ∀ row ∈ rows, row.length = width) : ∀ row ∈ paddedRows width padRows rows, row.length = width := by
  intro row hrow
  simp only [paddedRows, List.mem_append, List.mem_replicate] at hrow
  rcases hrow with (⟨_, rfl⟩ | hrow) | ⟨_, rfl⟩
  · exact List.length_replicate
  · exact h row hrow
  · exact List.length_replicate

theorem fits_of_mem_blocksOf {width : Nat} {rows : List (List UInt8)} (hw : width < 65536)
    (h : ∀ row ∈ rows, row.length = width) {block : List (List UInt8)} (hb : block ∈ blocksOf rows) :
    (1 ≤ block.length ∧ block.length ≤ 24) ∧ ImageBlock.Fits ⟨width, block⟩ := by
  have hlength := length_of_mem_slices hb
  refine ⟨hlength, hw, ?_, fun row hrow => h row (mem_of_mem_slices hb hrow)⟩
  exact Nat.lt_of_le_of_lt hlength.2 (by decide)

theorem repeated_ok (blank : List UInt8) {padRows : Nat} (h : padRows < 2 ^ 63) :
    repeated blank padRows = .ok (List.replicate padRows blank) := by
  have hsized : isIndexSized padRows = true := by
    simp only [isIndexSized, Bool.and_eq_true, decide_eq_true_eq]
    omega
  rw [repeated, if_pos hsized, Int.toNat_natCast]

theorem repeated_tooLong (blank : List UInt8) {padRows : Int} (h : 2 ^ 63 ≤ padRows) :
    repeated blank padRows = .error .overflowError := by
  have hsized : isIndexSized padRows = false := by
    simp only [isIndexSized, Bool.and_eq_false_iff, decide_eq_false_iff_not]
    omega
  rw [repeated, hsized]
  rfl

theorem buildEscposJob_ok {rows : List (List UInt8)} {w padRows feedLines : Nat} {cut : Bool}
    (hne : rows ≠ []) (hrows : ∀ row ∈ rows, row.length = w) (hw : w < 65536) (hpad : padRows < 2 ^ 63) :
    buildEscposJob rows padRows feedLines cut =
      .ok ([0x1B, 0x40] ++
        (((blocksOf (paddedRows w padRows rows)).map (ImageBlock.mk w)).map writeBlock).flatten ++
        feedAndCut feedLines cut) := by
  cases rows with
  | nil => exact absurd rfl hne
  | cons row more =>
    have hrow : row.length = w := hrows row List.mem_cons_self
    have hlen := length_of_mem_paddedRows padRows hrows
    have himages : (blocksOf (paddedRows w padRows (row :: more))).mapM (imageBlock w) =
        .ok ((blocksOf (paddedRows w padRows (row :: more))).map fun block => writeBlock ⟨w, block⟩) :=
      mapM_ok fun block hb => by
        obtain ⟨_, hfits⟩ := fits_of_mem_blocksOf hw hlen hb
        exact imageBlock_ok hw hfits.count
    simp only [buildEscposJob, hrow, repeated_ok _ hpad, feedCommand_ok]
    show (do
      let images ← (blocksOf (paddedRows w padRows (row :: more))).mapM (imageBlock w)
      _) = _
    rw [himages, List.map_map, feedAndCut, ← List.append_assoc]
    rfl

theorem buildEscposJob_tooLong {rows : List (List UInt8)} {padRows feedLines : Int} {cut : Bool} (hne : rows ≠ [])
    (hpad : 2 ^ 63 ≤ padRows) : buildEscposJob rows padRows feedLines cut = .error .overflowError := by
  cases rows with
  | nil => exact absurd rfl hne
  | cons row more =>
    rw [buildEscposJob, repeated_tooLong _ hpad]
    rfl

def writtenJob (w padRows feedLines : Nat) (cut : Bool) (rows : List (List UInt8)) : EscposJob where
  blocks := (blocksOf (paddedRows w padRows rows)).map (ImageBlock.mk w)
  feed := if feedLines = 0 then none else some (min 255 feedLines)
  cut := cut

def EscposJob.rows (job : EscposJob) : List (List UInt8) := (job.blocks.map (·.rows)).flatten

theorem rows_writtenJob {w padRows feedLines : Nat} {cut : Bool} {rows : List (List UInt8)} :
    (writtenJob w padRows feedLines cut rows).rows = paddedRows w padRows rows := by
  have hrows : ((blocksOf (paddedRows w padRows rows)).map (ImageBlock.mk w)).map (·.rows) =
      blocksOf (paddedRows w padRows rows) := by
    rw [List.map_map]
    exact List.map_id _
  rw [writtenJob, EscposJob.rows, hrows, blocksOf, flatten_slices_of_le (length_le_count_mul (by decide))]

theorem block_of_mem_writtenJob {w padRows feedLines : Nat} {cut : Bool} {rows : List (List UInt8)}
    (hrows : ∀ row ∈ rows, row.length = w) (hw : w < 65536) :
    ∀ block ∈ (writtenJob w padRows feedLines cut rows).blocks,
      (block.width = w ∧ 1 ≤ block.rows.length ∧ block.rows.length ≤ 24) ∧ block.Fits := by
  intro block hb
  obtain ⟨rows', hrows', rfl⟩ := List.mem_map.mp hb
  obtain ⟨hlength, hfits⟩ := fits_of_mem_blocksOf hw (length_of_mem_paddedRows padRows hrows) hrows'
  exact ⟨⟨rfl, hlength⟩, hfits⟩

theorem readJob_buildEscposJob {rows : List (List UInt8)} {w : Nat} (padRows feedLines : Nat) (cut : Bool)
    (hne : rows ≠ []) (hrows : ∀ row ∈ rows, row.length = w) (hw : w < 65536) (hpad : padRows < 2 ^ 63) :
    ∃ bytes, buildEscposJob rows padRows feedLines cut = .ok bytes ∧
      readJob bytes = some (writtenJob w padRows feedLines cut rows) := by
  have hfits : ∀ block ∈ (writtenJob w padRows feedLines cut rows).blocks, block.Fits := fun block hb =>
    (block_of_mem_writtenJob hrows hw block hb).2
  exact ⟨_, buildEscposJob_ok hne hrows hw hpad, readJob_written hfits feedLines cut⟩

/-- **What the printer reads is what was to be printed.** -/
theorem escpos_round_trip {rows : List (List UInt8)} {w padRows feedLines : Nat} {cut : Bool}
    (hne : rows ≠ []) (hrows : ∀ row ∈ rows, row.length = w) (hw : w ≤ 65535) (hpad : padRows < 2 ^ 63) :
    ∃ bytes job, buildEscposJob rows padRows feedLines cut = .ok bytes ∧ readJob bytes = some job ∧
      (∀ block ∈ job.blocks, block.width = w ∧ 1 ≤ block.rows.length ∧ block.rows.length ≤ 24) ∧
      (job.blocks.map (·.rows)).flatten =
        List.replicate padRows (List.replicate w 0) ++ rows ++
          List.replicate padRows (List.replicate w 0) ∧
      job.feed = (if feedLines = 0 then none else some (min 255 feedLines)) ∧ job.cut = cut := by
  have hw : w < 65536 := Nat.lt_succ_of_le hw
  obtain ⟨bytes, hbuild, hread⟩ := readJob_buildEscposJob padRows feedLines cut hne hrows hw hpad
  exact ⟨bytes, _, hbuild, hread, fun block hb => (block_of_mem_writtenJob hrows hw block hb).1,
    rows_writtenJob, rfl, rfl⟩

theorem escpos_round_trip_wide :
    ∃ bytes job, buildEscposJob [[0x1D, 0x76], [0x30, 0x00]] (1 : Nat) (300 : Nat) true = .ok bytes ∧
      readJob bytes = some job ∧
      (∀ block ∈ job.blocks, block.width = 2 ∧ 1 ≤ block.rows.length ∧ block.rows.length ≤ 24) ∧
      (job.blocks.map (·.rows)).flatten =
        List.replicate 1 (List.replicate 2 0) ++ [[0x1D, 0x76], [0x30, 0x00]] ++
          List.replicate 1 (List.replicate 2 0) ∧
      job.feed = (if 300 = 0 then none else some (min 255 300)) ∧ job.cut = true :=
  escpos_round_trip (by decide) (by decide) (by decide) (by decide)

/-- no list is as long as this padding -/
theorem escpos_padding_overflows :
    ¬ ∀ (rows : List (List UInt8)) (w padRows feedLines : Nat) (cut : Bool), rows ≠ [] →
      (∀ row ∈ rows, row.length = w) → 1 ≤ w → w ≤ 65535 →
        ∃ bytes job, buildEscposJob rows padRows feedLines cut = .ok bytes ∧ readJob bytes = some job := by
  intro h
  obtain ⟨bytes, job, hbuild, -⟩ := h [[1]] 1 (2 ^ 63) 4 true (by decide) (by decide) (by decide) (by decide)
  rw [buildEscposJob_tooLong (by decide) (by norm_num)] at hbuild
  cases hbuild

end PrintAgent
