import PrintAgent.Printing.Escpos

/-!
# What `gray_to_rows` does, pixel by pixel

`Printing/Escpos.lean` gives the loops of `gray_to_rows`; here is what one pixel changes (`ditherPixel_ok`)
and what holds after `k` pixels of a row (`RowInv`) and after `k` rows of a page (`PageInv`), for every
rounding: the loops do not raise on a page of the right size, a bit is set where the value was under the
threshold, and the padding bits stay zero.

`gray_to_rows_exact` is the first use: where no value is between black and white no error comes up, and the
bits are the pixels.
-/

namespace PrintAgent

def pixel (row : List UInt8) (x : Nat) : Bool := (row.getD (x / 8) 0).toNat.testBit (7 - x % 8)

/-! ## one bit -/

theorem length_inkPixel (row : List UInt8) (x : Nat) : (inkPixel row x).length = row.length :=
  List.length_modify ..

theorem toNat_mask : ∀ k < 8, (0x80 >>> UInt8.ofNat k : UInt8).toNat = 2 ^ (7 - k) := by decide

theorem pixel_inkPixel {row : List UInt8} {x : Nat} (hx : x / 8 < row.length) (j : Nat) :
    pixel (inkPixel row x) j = (pixel row j || decide (j = x)) := by
  have hbyte : (inkPixel row x).getD (j / 8) 0 =
      if x / 8 = j / 8 then row.getD (j / 8) 0 ||| (0x80 >>> UInt8.ofNat (x % 8)) else row.getD (j / 8) 0 := by
    rw [inkPixel, List.getD_eq_getElem?_getD, List.getElem?_modify, List.getD_eq_getElem?_getD]
    by_cases hj : x / 8 = j / 8
    · rw [← hj, List.getElem?_eq_getElem hx]
      simp
    · cases row[j / 8]? <;> simp [hj]
  rw [pixel, hbyte, pixel]
  by_cases hj : x / 8 = j / 8
  · rw [if_pos hj, UInt8.toNat_or, Nat.testBit_or, toNat_mask _ (Nat.mod_lt x (by decide)),
      Nat.testBit_two_pow]
    congr 1
    rw [decide_eq_decide]
    have hxmod := Nat.mod_lt x (show 0 < 8 by decide)
    have hjmod := Nat.mod_lt j (show 0 < 8 by decide)
    constructor
    · intro h
      omega
    · rintro rfl
      rfl
  · rw [if_neg hj, decide_eq_false fun he => hj (by rw [he]), Bool.or_false]

theorem pixel_replicate (n j : Nat) : pixel (List.replicate n 0) j = false := by
  have hbyte : (List.replicate n (0 : UInt8)).getD (j / 8) 0 = 0 := by
    rw [List.getD_eq_getElem?_getD, List.getElem?_replicate]
    split <;> rfl
  rw [pixel, hbyte]
  exact Nat.zero_testBit _

theorem lt_bytesPerRow {width x : Nat} (hx : x < width) : x / 8 < bytesPerRow width := by
  unfold bytesPerRow
  omega

/-! ## one pixel -/

/-- a value once it got its share of the error; weight zero stands for no share -/
def spread (rnd : ℚ → ℚ) (error : ℚ) (weight : Nat) (v : ℚ) : ℚ :=
  if weight = 0 then v else rnd (v + rnd (rnd (error * weight) / 16))

/-- the sixteenths of the error of the pixel `x` that its right neighbour gets -/
def weightRight (x j : Nat) : Nat := if j = x + 1 then 7 else 0

/-- and the pixels of the next row -/
def weightBelow (x j : Nat) : Nat :=
  if j + 1 = x then 3 else if j = x then 5 else if j = x + 1 then 1 else 0

section Pixel
variable (rnd : ℚ → ℚ) (threshold error : ℚ) (weight : Nat) {width x : Nat}

theorem addShare_ok {values : List ℚ} {i : Nat} (hi : i < values.length) (hw : weight ≠ 0) :
    ∃ values', addShare rnd error weight values i = .ok values' ∧ values'.length = values.length ∧
      ∀ j, values'.getD j 0 = spread rnd error (if j = i then weight else 0) (values.getD j 0) := by
  refine ⟨_, if_pos hi, List.length_modify .., fun j => ?_⟩
  rw [List.getD_eq_getElem?_getD, List.getElem?_modify, List.getD_eq_getElem?_getD]
  by_cases hj : j = i
  · rw [hj, List.getElem?_eq_getElem hi]
    simp [spread, hw]
  · have hij : ¬ i = j := fun he => hj he.symm
    cases values[j]? <;> simp [spread, hj, hij]

theorem addShareIf_ok {values : List ℚ} {i : Nat} {inside : Bool} (hn : values.length = width)
    (hin : inside = true ↔ i < width) (hw : weight ≠ 0) :
    ∃ values', addShareIf inside rnd error weight values i = .ok values' ∧ values'.length = width ∧
      ∀ j < width, values'.getD j 0 = spread rnd error (if j = i then weight else 0) (values.getD j 0) := by
  cases hinside : inside with
  | true =>
    have hi : i < values.length := by
      rw [hn]
      exact hin.mp hinside
    obtain ⟨values', hok, hlen, hget⟩ := addShare_ok rnd error weight hi hw
    exact ⟨values', hok, hlen.trans hn, fun j _ => hget j⟩
  | false =>
    have hout : ¬ i < width := fun hi => by
      rw [hin.mpr hi] at hinside
      cases hinside
    refine ⟨values, rfl, hn, fun j hj => ?_⟩
    rw [if_neg (by omega), spread, if_pos rfl]

theorem diffuseBelow_ok {values : List ℚ} (hx : x < width) (hn : values.length = width) :
    ∃ values', diffuseBelow rnd width x error values = .ok values' ∧ values'.length = width ∧
      ∀ j < width, values'.getD j 0 = spread rnd error (weightBelow x j) (values.getD j 0) := by
  obtain ⟨left, hleft, hlen, hget⟩ : ∃ left, addShareIf (0 < x) rnd error 3 values (x - 1) = .ok left ∧
      left.length = width ∧
      ∀ j < width, left.getD j 0 = spread rnd error (if j + 1 = x then 3 else 0) (values.getD j 0) := by
    by_cases hpos : 0 < x
    · have hin : decide (0 < x) = true ↔ x - 1 < width := by
        rw [decide_eq_true_iff]
        omega
      obtain ⟨left, hleft, hlen, hget⟩ := addShareIf_ok rnd error 3 hn hin (by decide)
      refine ⟨left, hleft, hlen, fun j hj => ?_⟩
      rw [hget j hj]
      congr 1
      exact if_congr (by omega) rfl rfl
    · refine ⟨values, by rw [addShareIf, decide_eq_false hpos]; rfl, hn, fun j _ => ?_⟩
      rw [if_neg (by omega), spread, if_pos rfl]
  have hx' : x < left.length := by
    rw [hlen]
    exact hx
  obtain ⟨below, hbelow, hlen', hget'⟩ := addShare_ok rnd error 5 hx' (by decide)
  obtain ⟨right, hright, hlen'', hget''⟩ := addShareIf_ok rnd error 1 (hlen'.trans hlen)
    (decide_eq_true_iff (p := x + 1 < width)) (by decide)
  refine ⟨right, ?_, hlen'', fun j hj => ?_⟩
  · rw [diffuseBelow, hleft]
    show (addShare rnd error 5 left x).bind _ = _
    rw [hbelow]
    exact hright
  · -- each value gets one share at most
    rw [hget'' j hj, hget' j, hget j hj, weightBelow]
    by_cases h3 : j + 1 = x
    · simp [spread, h3, show ¬ j = x by omega, show ¬ j = x + 1 by omega]
    · by_cases h5 : j = x
      · simp [spread, h5]
      · simp [spread, h3, h5]

/-- the lists of a row are as long as the page is wide -/
structure Dither.Sized (width : Nat) (s : Dither) : Prop where
  current : s.current.length = width
  following : ∀ values, s.following = some values → values.length = width
  row : s.row.length = bytesPerRow width

/-- what the error of the pixel `x` changes -/
structure Dither.Spreads (rnd : ℚ → ℚ) (width x : Nat) (error : ℚ) (s s' : Dither) : Prop where
  current : ∀ j < width, s'.current.getD j 0 = spread rnd error (weightRight x j) (s.current.getD j 0)
  none : s.following = none → s'.following = none
  some : ∀ values, s.following = some values → ∃ values', s'.following = some values' ∧
    ∀ j < width, values'.getD j 0 = spread rnd error (weightBelow x j) (values.getD j 0)

theorem diffuse_ok {s : Dither} (hs : s.Sized width) (hx : x < width) :
    ∃ s', diffuse rnd width x error s = .ok s' ∧ s'.Sized width ∧ s'.row = s.row ∧
      s'.errors = s.errors ∧ s.Spreads rnd width x error s' := by
  obtain ⟨current, hcur, hlen, hget⟩ := addShareIf_ok rnd error 7 hs.current
    (decide_eq_true_iff (p := x + 1 < width)) (by decide)
  cases hf : s.following with
  | none =>
    refine ⟨{ s with current := current }, ?_, ⟨hlen, fun values he => ?_, hs.row⟩, rfl, rfl, hget, fun _ => hf,
      fun values he => ?_⟩
    · rw [diffuse, hcur, hf]
      rfl
    · have he : s.following = some values := he
      rw [hf] at he
      cases he
    · rw [hf] at he
      cases he
  | some following =>
    obtain ⟨values, hbelow, hlen', hget'⟩ :=
      diffuseBelow_ok rnd error hx (hs.following following hf)
    refine ⟨{ s with current := current, following := some values }, ?_,
      ⟨hlen, fun v he => ?_, hs.row⟩, rfl, rfl, hget, fun he => ?_, fun v he => ?_⟩
    · rw [diffuse, hcur, hf]
      show (diffuseBelow rnd width x error following).bind _ = _
      rw [hbelow]
      rfl
    · cases he
      exact hlen'
    · rw [hf] at he
      cases he
    · rw [hf] at he
      cases he
      exact ⟨values, rfl, hget'⟩

/-- the quantisation error of the pixel `x` -/
def Dither.errorAt (rnd : ℚ → ℚ) (threshold : ℚ) (s : Dither) (x : Nat) : ℚ :=
  rnd (s.current.getD x 0 - quantised threshold (s.current.getD x 0))

/-- **One pixel.** -/
theorem ditherPixel_ok {s : Dither} (hs : s.Sized width) (hx : x < width) :
    ∃ s', ditherPixel rnd threshold width s x = .ok s' ∧ s'.Sized width ∧
      s'.row = (if s.current.getD x 0 < threshold then inkPixel s.row x else s.row) ∧
      s'.errors = s.errors ++ [s.errorAt rnd threshold x] ∧
      (s.errorAt rnd threshold x = 0 → s'.current = s.current ∧ s'.following = s.following) ∧
      (s.errorAt rnd threshold x ≠ 0 → s.Spreads rnd width x (s.errorAt rnd threshold x) s') := by
  have hold : s.current[x]? = some (s.current.getD x 0) := by
    have hlt : x < s.current.length := by rw [hs.current]; exact hx
    rw [List.getD_eq_getElem?_getD, List.getElem?_eq_getElem hlt]
    rfl
  have hrow : (if quantised threshold (s.current.getD x 0) = 0 then inkPixel s.row x else s.row) =
      if s.current.getD x 0 < threshold then inkPixel s.row x else s.row := by
    unfold quantised
    split <;> simp
  rw [ditherPixel, hold]
  simp only [hrow, ← Dither.errorAt.eq_def]
  generalize s.errorAt rnd threshold x = error
  generalize (if s.current.getD x 0 < threshold then inkPixel s.row x else s.row) = row at hrow
  have hlen : row.length = s.row.length := by
    rw [← hrow]
    split
    · exact length_inkPixel s.row x
    · rfl
  have hsized : Dither.Sized width { s with row := row, errors := s.errors ++ [error] } :=
    ⟨hs.current, hs.following, hlen.trans hs.row⟩
  by_cases hzero : error = 0
  · exact ⟨_, if_pos hzero, hsized, rfl, rfl, fun _ => ⟨rfl, rfl⟩, fun hne => absurd hzero hne⟩
  · obtain ⟨s', hok, hsized', hrow', herr', hspread⟩ := diffuse_ok rnd error hsized hx
    exact ⟨s', (if_neg hzero).trans hok, hsized', hrow', herr', fun he => absurd he hzero,
      fun _ => ⟨hspread.current, hspread.none, hspread.some⟩⟩

end Pixel

/-! ## one row -/

/-- what holds after the first `k` pixels of a row that began as `s` -/
structure RowInv (rnd : ℚ → ℚ) (threshold : ℚ) (width : Nat) (s : Dither) (k : Nat) (d : Dither) : Prop where
  sized : d.Sized width
  isSome : d.following.isSome = s.following.isSome
  bits : ∀ j, pixel d.row j = true ↔ j < k ∧ d.current.getD j 0 < threshold
  length : d.errors.length = k
  errors : ∀ j < k, d.errors.getD j 0 = d.errorAt rnd threshold j

section Row
variable {rnd : ℚ → ℚ} {threshold : ℚ} {width : Nat} {s d d' : Dither} {k : Nat}

theorem current_of_pixel (hd : d.Sized width) (hk : k < width)
    (hok : ditherPixel rnd threshold width d k = .ok d') {j : Nat} (hj : j ≤ k) :
    d'.current.getD j 0 = d.current.getD j 0 := by
  obtain ⟨d'', hok', _, _, _, hzero, hspread⟩ := ditherPixel_ok rnd threshold hd hk
  obtain rfl : d' = d'' := Except.ok.inj (hok.symm.trans hok')
  by_cases he : d.errorAt rnd threshold k = 0
  · rw [(hzero he).1]
  · rw [(hspread he).current j (by omega), weightRight, if_neg (by omega), spread, if_pos rfl]

theorem RowInv.start (hs : s.Sized width) (hrow : s.row = List.replicate (bytesPerRow width) 0)
    (herr : s.errors = []) : RowInv rnd threshold width s 0 s where
  sized := hs
  isSome := rfl
  bits j := by
    rw [hrow, pixel_replicate]
    exact iff_of_false Bool.false_ne_true fun h => absurd h.1 (Nat.not_lt_zero j)
  length := by rw [herr]; rfl
  errors j hj := absurd hj (Nat.not_lt_zero j)

theorem rowInv_step (h : RowInv rnd threshold width s k d) (hk : k < width)
    (hok : ditherPixel rnd threshold width d k = .ok d') : RowInv rnd threshold width s (k + 1) d' := by
  have hkept : ∀ j ≤ k, d'.current.getD j 0 = d.current.getD j 0 := fun j hj =>
    current_of_pixel h.sized hk hok hj
  obtain ⟨d'', hok', hsized, hrow, herr, hzero, hspread⟩ :=
    ditherPixel_ok rnd threshold h.sized hk
  obtain rfl : d' = d'' := Except.ok.inj (hok.symm.trans hok')
  refine ⟨hsized, ?_, fun j => ?_, ?_, fun j hj => ?_⟩
  · by_cases he : d.errorAt rnd threshold k = 0
    · rw [(hzero he).2]
      exact h.isSome
    · rw [← h.isSome]
      cases hf : d.following with
      | none => rw [(hspread he).none hf]
      | some values =>
        obtain ⟨values', hf', _⟩ := (hspread he).some values hf
        rw [hf']
        rfl
  · have hbyte : k / 8 < d.row.length := by
      rw [h.sized.row]
      exact lt_bytesPerRow hk
    by_cases hjk : j = k
    · rw [hjk, hkept k (Nat.le_refl k), hrow]
      by_cases hlt : d.current.getD k 0 < threshold
      · rw [if_pos hlt, pixel_inkPixel hbyte]
        simpa using hlt
      · rw [if_neg hlt, h.bits]
        exact iff_of_false (fun hb => hlt hb.2) fun hb => hlt hb.2
    · have hsame : pixel d'.row j = pixel d.row j := by
        rw [hrow]
        split
        · rw [pixel_inkPixel hbyte]
          simp [hjk]
        · rfl
      rw [hsame, h.bits]
      constructor
      · rintro ⟨hlt, hb⟩
        exact ⟨by omega, by rwa [hkept j (by omega)]⟩
      · rintro ⟨hlt, hb⟩
        rw [hkept j (by omega)] at hb
        exact ⟨by omega, hb⟩
  · rw [herr, List.length_append, h.length]
    rfl
  · have hj' : d'.errorAt rnd threshold j = d.errorAt rnd threshold j := by
      rw [Dither.errorAt, Dither.errorAt, hkept j (by omega)]
    rw [hj', herr, getD_concat h.length _ _ (by omega)]
    split
    · rename_i hjk
      rw [hjk]
    · exact h.errors j (by omega)

variable (rnd threshold) in
/-- a row is dithered to its end, with an invariant that a pixel keeps -/
theorem ditherRow_invariant {I : Nat → Dither → Prop} (hs : s.Sized width)
    (hrow : s.row = List.replicate (bytesPerRow width) 0) (herr : s.errors = []) (hI : I 0 s)
    (hstep : ∀ k < width, ∀ d d', RowInv rnd threshold width s k d → I k d →
      ditherPixel rnd threshold width d k = .ok d' → I (k + 1) d') {n : Nat} (hn : n ≤ width) :
    ∃ d, ditherRow rnd threshold width n s = .ok d ∧ RowInv rnd threshold width s n d ∧ I n d := by
  refine loopTo_invariant (I := fun k d => RowInv rnd threshold width s k d ∧ I k d)
    ⟨.start hs hrow herr, hI⟩ fun k hk d hd => ?_
  have hk' : k < width := Nat.lt_of_lt_of_le hk hn
  obtain ⟨d', hok, _⟩ := ditherPixel_ok rnd threshold hd.1.sized hk'
  exact ⟨d', hok, rowInv_step hd.1 hk' hok, hstep k hk' d d' hd.1 hd.2 hok⟩

end Row

/-! ## the page -/

section Page
variable {rnd : ℚ → ℚ} {threshold : ℚ} {width height : Nat} {gray : List UInt8} {s s' : Raster} {y : Nat}

theorem length_grayRow (hgray : gray.length = width * height) (hy : y < height) :
    (grayRow gray width y).length = width := by
  have hle : (y + 1) * width ≤ gray.length := by
    rw [hgray, Nat.mul_comm width]
    exact Nat.mul_le_mul_right width hy
  rw [Nat.succ_mul] at hle
  rw [grayRow, List.length_map, List.length_take, List.length_drop]
  omega

theorem getD_grayRow {x : Nat} (hx : x < width) :
    (grayRow gray width y).getD x 0 = (gray.getD (y * width + x) 0).toNat := by
  rw [grayRow, List.getD_eq_getElem?_getD, List.getElem?_map, List.getElem?_take_of_lt hx,
    List.getElem?_drop, List.getD_eq_getElem?_getD]
  cases gray[y * width + x]? <;> simp

theorem sized_startRow (hgray : gray.length = width * height) (hs : s.current.length = width) :
    (startRow gray width height s y).Sized width where
  current := hs
  following values he := by
    unfold startRow at he
    simp only at he
    split at he
    · cases he
      exact length_grayRow hgray (by assumption)
    · cases he
  row := List.length_replicate

/-- what holds after the first `k` rows of a page -/
structure PageInv (width height : Nat) (k : Nat) (s : Raster) : Prop where
  current : k < height → s.current.length = width
  length : s.rows.length = k
  rows : ∀ row ∈ s.rows, row.length = bytesPerRow width ∧ ∀ j, width ≤ j → pixel row j = false

theorem following_of_rowInv {d : Dither} (hy : y + 1 < height)
    (hd : RowInv rnd threshold width (startRow gray width height s y) width d) :
    ∃ values, d.following = some values ∧ values.length = width := by
  have hsome : d.following.isSome = true := by
    rw [hd.isSome, startRow]
    simp [hy]
  obtain ⟨values, hv⟩ := Option.isSome_iff_exists.mp hsome
  exact ⟨values, hv, hd.sized.following values hv⟩

def Raster.add (s : Raster) (d : Dither) : Raster :=
  ⟨d.following.getD d.current, s.rows ++ [d.row], s.errors ++ [d.errors]⟩

theorem pageInv_step (h : PageInv width height y s) {d : Dither}
    (hd : RowInv rnd threshold width (startRow gray width height s y) width d) :
    PageInv width height (y + 1) (s.add d) where
  current hy := by
    obtain ⟨values, hv, hlen⟩ := following_of_rowInv hy hd
    rw [Raster.add, hv]
    exact hlen
  length := by
    rw [Raster.add, List.length_append, h.length]
    rfl
  rows row hrow := by
    rcases List.mem_append.mp hrow with hrow | hrow
    · exact h.rows row hrow
    · rw [List.mem_singleton.mp hrow]
      refine ⟨hd.sized.row, fun j hj => ?_⟩
      rw [Bool.eq_false_iff]
      intro hbit
      exact absurd ((hd.bits j).mp hbit).1 (Nat.not_lt.mpr hj)

variable (rnd threshold) in
/-- a page is dithered to its end, with invariants that a pixel and a row keep -/
theorem ditherRows_invariant {I : Nat → Raster → Prop} {J : Nat → Raster → Nat → Dither → Prop}
    (hgray : gray.length = width * height) (hI : I 0 ⟨grayRow gray width 0, [], []⟩)
    (hrow : ∀ y < height, ∀ s, PageInv width height y s → I y s →
      J y s 0 (startRow gray width height s y))
    (hpixel : ∀ y < height, ∀ s, PageInv width height y s → I y s → ∀ k < width, ∀ d d',
      RowInv rnd threshold width (startRow gray width height s y) k d → J y s k d →
      ditherPixel rnd threshold width d k = .ok d' → J y s (k + 1) d')
    (hnext : ∀ y < height, ∀ s, PageInv width height y s → I y s → ∀ d,
      RowInv rnd threshold width (startRow gray width height s y) width d → J y s width d →
      I (y + 1) (s.add d)) {n : Nat} (hn : n ≤ height) :
    ∃ s, ditherRows rnd gray width height threshold n = .ok s ∧ PageInv width height n s ∧ I n s := by
  refine loopTo_invariant (I := fun k s => PageInv width height k s ∧ I k s)
    ⟨⟨fun h0 => length_grayRow hgray h0, rfl, fun row h => by cases h⟩, hI⟩ fun y hy s hs => ?_
  have hy' : y < height := Nat.lt_of_lt_of_le hy hn
  obtain ⟨d, hok, hd, hJ⟩ := ditherRow_invariant rnd threshold
    (sized_startRow hgray (hs.1.current hy')) rfl rfl (hrow y hy' s hs.1 hs.2)
    (hpixel y hy' s hs.1 hs.2) (Nat.le_refl width)
  refine ⟨s.add d, ?_, pageInv_step hs.1 hd, hnext y hy' s hs.1 hs.2 d hd hJ⟩
  rw [ditherNext, hok]
  rfl

variable (rnd threshold) in
/-- every page of the right size is dithered, to rows of the right size with zero padding -/
theorem ditherRows_ok (hgray : gray.length = width * height) {n : Nat} (hn : n ≤ height) :
    ∃ s, ditherRows rnd gray width height threshold n = .ok s ∧ PageInv width height n s := by
  obtain ⟨s, hok, hs, _⟩ := ditherRows_invariant rnd threshold
    (I := fun _ _ => True) (J := fun _ _ _ _ => True) hgray trivial (fun _ _ _ _ _ => trivial)
    (fun _ _ _ _ _ _ _ _ _ _ _ _ => trivial) (fun _ _ _ _ _ _ _ _ => trivial) hn
  exact ⟨s, hok, hs⟩

/-! ## black and white -/

def IsBlackAndWhite (gray : List UInt8) : Prop := ∀ value ∈ gray, value = 0 ∨ value = 255

theorem getD_blackAndWhite (h : IsBlackAndWhite gray) (i : Nat) : gray.getD i 0 = 0 ∨ gray.getD i 0 = 255 := by
  rw [List.getD_eq_getElem?_getD]
  cases hi : gray[i]? with
  | none => exact .inl rfl
  | some value => exact h value (List.mem_of_getElem? hi)

theorem lt_threshold_iff {value : UInt8} (h : value = 0 ∨ value = 255) :
    ((value.toNat : ℚ) < 128) ↔ value = 0 := by
  rcases h with rfl | rfl
  · exact iff_of_true (by norm_num) rfl
  · have hwhite : (128 : ℚ) ≤ ((255 : UInt8).toNat : ℚ) := by exact_mod_cast (show 128 ≤ 255 by decide)
    exact iff_of_false (not_lt.mpr hwhite) (by decide)

theorem errorAt_of_blackAndWhite {d : Dither} {x : Nat} {value : UInt8} (hrnd : rnd 0 = 0)
    (h : value = 0 ∨ value = 255) (hd : d.current.getD x 0 = value.toNat) : d.errorAt rnd 128 x = 0 := by
  rw [Dither.errorAt, hd, quantised, if_congr (lt_threshold_iff h) rfl rfl]
  rcases h with rfl | rfl
  · simpa using hrnd
  · simpa using hrnd

/-- the values stay those of the page, so its pixels are what is inked -/
theorem ditherRows_blackAndWhite (hrnd : rnd 0 = 0) (hgray : gray.length = width * height)
    (h : IsBlackAndWhite gray) {n : Nat} (hn : n ≤ height) :
    ∃ s, ditherRows rnd gray width height 128 n = .ok s ∧ PageInv width height n s ∧
      ∀ y < n, ∀ x < width, (pixel (s.rows.getD y []) x = true ↔ gray.getD (y * width + x) 0 = 0) := by
  have hrun := ditherRows_invariant rnd 128
    (I := fun n s => (n < height → s.current = grayRow gray width n) ∧
      ∀ y < n, ∀ x < width, (pixel (s.rows.getD y []) x = true ↔ gray.getD (y * width + x) 0 = 0))
    (J := fun y s _ d => d.current = grayRow gray width y ∧
      d.following = (startRow gray width height s y).following) hgray ?_ ?_ ?_ ?_ hn
  · obtain ⟨s, hok, hs, _, hbits⟩ := hrun
    exact ⟨s, hok, hs, hbits⟩
  · exact ⟨fun _ => rfl, fun y hy => absurd hy (Nat.not_lt_zero y)⟩
  · intro y hy s _ hI
    exact ⟨hI.1 hy, rfl⟩
  · intro y _ s _ _ k hk d d' hd hJ hok
    obtain ⟨d'', hok', _, _, _, hzero, _⟩ := ditherPixel_ok rnd 128 hd.sized hk
    obtain rfl : d' = d'' := Except.ok.inj (hok.symm.trans hok')
    have hvalue : d.current.getD k 0 = (gray.getD (y * width + k) 0).toNat := by
      rw [hJ.1]
      exact getD_grayRow hk
    have hsame := hzero (errorAt_of_blackAndWhite hrnd (getD_blackAndWhite h _) hvalue)
    rw [hsame.1, hsame.2]
    exact hJ
  · intro y _ s hs hI d hd hJ
    refine ⟨fun hy' => ?_, fun j hj x hx => ?_⟩
    · rw [Raster.add, hJ.2, startRow, if_pos hy']
      rfl
    · rw [Raster.add, getD_concat hs.length _ _ (by omega)]
      by_cases hjy : j = y
      · rw [if_pos hjy, hd.bits, hJ.1, getD_grayRow hx, lt_threshold_iff (getD_blackAndWhite h _), hjy]
        exact and_iff_right hx
      · rw [if_neg hjy]
        exact hI.2 j (by omega) x hx

end Page

/-- **A page is dithered to rows of its size, and a black and white one to its pixels.** -/
theorem gray_to_rows_exact {gray : List UInt8} {width height : Nat} (hgray : gray.length = width * height) :
    ∃ rows, grayToRows double gray width height = .ok rows ∧ rows.length = height ∧
      (∀ row ∈ rows, row.length = (width + 7) / 8 ∧
        ∀ x, width ≤ x → x < 8 * row.length → pixel row x = false) ∧
      ((∀ value ∈ gray, value = 0 ∨ value = 255) → ∀ y < height, ∀ x < width,
        (pixel (rows.getD y []) x = true ↔ gray.getD (y * width + x) 0 = 0)) := by
  obtain ⟨s, hok, hs⟩ := ditherRows_ok double 128 hgray (Nat.le_refl height)
  refine ⟨s.rows, by rw [grayToRows, hok]; rfl, hs.length, fun row hrow => ?_, fun hbw => ?_⟩
  · obtain ⟨hlen, hpad⟩ := hs.rows row hrow
    exact ⟨hlen, fun x hx _ => hpad x hx⟩
  · obtain ⟨s', hok', _, hbits⟩ := ditherRows_blackAndWhite double_zero hgray hbw (Nat.le_refl height)
    obtain rfl : s = s' := Except.ok.inj (hok.symm.trans hok')
    exact hbits

/-- ten pixels and two rows -/
theorem gray_to_rows_exact_ten :
    ∃ rows, grayToRows double (List.replicate 19 255 ++ [0]) 10 2 = .ok rows ∧
      pixel (rows.getD 1 []) 9 = true ∧ pixel (rows.getD 1 []) 8 = false := by
  have hgray : (List.replicate 19 255 ++ [0] : List UInt8).length = 10 * 2 := rfl
  obtain ⟨rows, hok, _, _, hbits⟩ := gray_to_rows_exact hgray
  have hpixels := hbits (by simp) 1 (by decide)
  refine ⟨rows, hok, (hpixels 9 (by decide)).mpr rfl, ?_⟩
  rw [Bool.eq_false_iff]
  exact fun hb => absurd ((hpixels 8 (by decide)).mp hb) (by decide)

end PrintAgent
