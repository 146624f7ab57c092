import PrintAgent.Lib.Trim
import PrintAgent.Printing.Dither
import PrintAgent.Printing.EscposReader

/-!
# The receipt

`build_escpos_receipt`: the pages are dithered, trimmed to their ink and printed one below the other.

`trimBlankRows_trims` says what a page is trimmed to (`TrimsTo`, of `Lib/Trim.lean`); the receipt is one job
of these rows (`buildEscposReceipt_ok`), unless there are none, or the padding is no list (`paddingTooLong`).
-/

namespace PrintAgent

/-! ## trimming -/

theorem inkRows_eq (rows : List (List UInt8)) : inkRows rows = indicesOf hasInk rows := by
  refine List.filter_congr fun i hi => ?_
  rw [List.getD_eq_getElem _ _ (List.mem_range.mp hi), List.getElem?_eq_getElem (List.mem_range.mp hi)]
  rfl

theorem trimBlankRows_trims (rows : List (List UInt8)) : TrimsTo hasInk rows (trimBlankRows rows) := by
  unfold trimBlankRows
  rw [inkRows_eq]
  cases hfirst : (indicesOf hasInk rows).head? with
  | none => exact trimsTo_nil (List.head?_eq_none_iff.mp hfirst)
  | some first =>
    cases hlast : (indicesOf hasInk rows).getLast? with
    | none =>
      rw [List.getLast?_eq_none_iff.mp hlast] at hfirst
      cases hfirst
    | some last => exact trimsTo_indices hfirst hlast

theorem trimBlankRows_of_endsIn {rows : List (List UInt8)} (h : EndsIn hasInk rows) :
    trimBlankRows rows = rows :=
  (trimBlankRows_trims rows).unique (TrimsTo.refl h)

theorem mem_of_mem_trimBlankRows {rows : List (List UInt8)} {row : List UInt8}
    (h : row ∈ trimBlankRows rows) : row ∈ rows := by
  obtain ⟨before, after, hparts, _⟩ := (trimBlankRows_trims rows).parts
  rw [hparts]
  exact List.mem_append_left _ (List.mem_append_right _ h)

/-! ## the pages -/

def receiptRows (dithered : List (List (List UInt8))) : List (List UInt8) :=
  (dithered.map trimBlankRows).flatten

section Rows
variable {dithered : List (List (List UInt8))}

theorem endsIn_receiptRows : EndsIn hasInk (receiptRows dithered) := by
  refine EndsIn.flatten fun t ht => ?_
  obtain ⟨rows, _, rfl⟩ := List.mem_map.mp ht
  exact (trimBlankRows_trims rows).ends

theorem filter_receiptRows : (receiptRows dithered).filter hasInk = dithered.flatten.filter hasInk := by
  rw [receiptRows, List.filter_flatten, List.filter_flatten, List.map_map]
  congr 1
  exact List.map_congr_left fun rows _ => (trimBlankRows_trims rows).filter_eq

theorem receiptRows_eq_nil : receiptRows dithered = [] ↔ ∀ rows ∈ dithered, ∀ row ∈ rows, hasInk row = false := by
  rw [receiptRows, List.flatten_eq_nil_iff]
  constructor
  · intro h rows hrows
    exact (trimBlankRows_trims rows).eq_nil_iff.mp (h _ (List.mem_map_of_mem hrows))
  · intro h t ht
    obtain ⟨rows, hrows, rfl⟩ := List.mem_map.mp ht
    exact (trimBlankRows_trims rows).eq_nil_iff.mpr (h rows hrows)

theorem length_of_mem_receiptRows {w : Nat} (h : ∀ rows ∈ dithered, ∀ row ∈ rows, row.length = w) :
    ∀ row ∈ receiptRows dithered, row.length = w := by
  intro row hrow
  obtain ⟨t, ht, hrow⟩ := List.mem_flatten.mp hrow
  obtain ⟨rows, hrows, rfl⟩ := List.mem_map.mp ht
  exact h rows hrows row (mem_of_mem_trimBlankRows hrow)

end Rows

theorem filter_paddedRows {w padRows : Nat} {rows : List (List UInt8)} :
    (paddedRows w padRows rows).filter hasInk = rows.filter hasInk := by
  have hblank : (List.replicate padRows (List.replicate w (0 : UInt8))).filter hasInk = [] := by
    rw [List.filter_eq_nil_iff]
    intro row hrow
    rw [List.eq_of_mem_replicate hrow]
    simp [hasInk]
  rw [paddedRows, List.filter_append, List.filter_append, hblank, List.nil_append, List.append_nil]

def GrayPage.Sized (width : Nat) (page : GrayPage) : Prop :=
  page.width = width ∧ page.gray.length = width * page.height

section Receipt
variable {rnd : ℚ → ℚ} {pages : List GrayPage} {width : Nat} {dpi : Int}

theorem dithered_ok (rnd : ℚ → ℚ) (h : ∀ page ∈ pages, page.Sized width) :
    ∃ dithered, (pages.mapM fun page => grayToRows rnd page.gray page.width page.height) = .ok dithered ∧
      ∀ rows ∈ dithered, ∀ row ∈ rows, row.length = bytesPerRow width := by
  induction pages with
  | nil => exact ⟨[], rfl, fun rows hrows => by cases hrows⟩
  | cons page pages ih =>
    obtain ⟨hwidth, hgray⟩ := h page List.mem_cons_self
    obtain ⟨s, hok, hs⟩ := ditherRows_ok rnd 128 hgray (Nat.le_refl page.height)
    obtain ⟨dithered, hmore, hlen⟩ := ih fun p hp => h p (List.mem_cons_of_mem page hp)
    refine ⟨s.rows :: dithered, ?_, fun rows hrows => ?_⟩
    · have hrows : grayToRows rnd page.gray page.width page.height = .ok s.rows := by
        rw [hwidth, grayToRows, hok]
        rfl
      rw [List.mapM_cons, hrows, hmore]
      rfl
    · rcases List.mem_cons.mp hrows with rfl | hrows
      · exact fun row hrow => (hs.rows row hrow).1
      · exact hlen rows hrows

theorem buildEscposReceipt_eq {dithered : List (List (List UInt8))}
    (h : (pages.mapM fun page => grayToRows rnd page.gray page.width page.height) = .ok dithered) :
    buildEscposReceipt rnd pages dpi =
      if receiptRows dithered = [] then .error (.runtimeError "The receipt is blank")
      else (mmToDots rnd defaultPadMm dpi).bind fun padRows => buildEscposJob (receiptRows dithered) padRows := by
  rw [buildEscposReceipt, h]
  rfl

theorem mmToDots_cases (rnd : ℚ → ℚ) (mm : ℚ) (dpi : Int) :
    mmToDots rnd mm dpi = .error .overflowError ∨ ∃ dots : Nat, mmToDots rnd mm dpi = .ok (dots : Int) := by
  cases h : tooLargeForFloat dpi with
  | true =>
    refine .inl ?_
    rw [mmToDots, h]
    rfl
  | false =>
    refine .inr ⟨(max 0 (roundEven (rnd (rnd (mm / rnd (254 / 10)) * rnd dpi)))).toNat, ?_⟩
    rw [mmToDots, h, Int.toNat_of_nonneg (le_max_left _ _)]
    rfl

/-- `mm_to_dots(DEFAULT_PAD_MM, dpi)` is no length of a list, or raises -/
def paddingTooLong (rnd : ℚ → ℚ) (dpi : Int) : Bool :=
  match mmToDots rnd defaultPadMm dpi with
  | .ok padRows => 2 ^ 63 ≤ padRows
  | .error _ => true

theorem paddingTooLong_eq_false (h : paddingTooLong rnd dpi = false) :
    ∃ padRows : Nat, mmToDots rnd defaultPadMm dpi = .ok (padRows : Int) ∧ padRows < 2 ^ 63 := by
  unfold paddingTooLong at h
  rcases mmToDots_cases rnd defaultPadMm dpi with he | ⟨padRows, hpad⟩
  · rw [he] at h
    cases h
  · rw [hpad] at h
    have hlt : ¬ (2 ^ 63 : Int) ≤ padRows := of_decide_eq_false h
    exact ⟨padRows, hpad, by omega⟩

/-- **The receipt is one job of the trimmed pages.** -/
theorem buildEscposReceipt_ok {dithered : List (List (List UInt8))} (hwidth : width ≤ 524280)
    (h : (pages.mapM fun page => grayToRows rnd page.gray page.width page.height) = .ok dithered)
    (hlen : ∀ rows ∈ dithered, ∀ row ∈ rows, row.length = bytesPerRow width)
    (hink : receiptRows dithered ≠ []) (hdpi : paddingTooLong rnd dpi = false) :
    ∃ (padRows : Nat) (bytes : List UInt8), mmToDots rnd defaultPadMm dpi = .ok (padRows : Int) ∧
      buildEscposReceipt rnd pages dpi = .ok bytes ∧
      readJob bytes = some (writtenJob (bytesPerRow width) padRows 4 true (receiptRows dithered)) := by
  obtain ⟨padRows, hpad, hshort⟩ := paddingTooLong_eq_false hdpi
  have hbytes : bytesPerRow width < 65536 := by
    unfold bytesPerRow
    omega
  obtain ⟨bytes, hbuild, hread⟩ := readJob_buildEscposJob padRows 4 true
    hink (length_of_mem_receiptRows hlen) hbytes hshort
  refine ⟨padRows, bytes, hpad, ?_, hread⟩
  rw [buildEscposReceipt_eq h, if_neg hink, hpad]
  exact hbuild

theorem buildEscposReceipt_tooLarge {dithered : List (List (List UInt8))}
    (h : (pages.mapM fun page => grayToRows rnd page.gray page.width page.height) = .ok dithered)
    (hink : receiptRows dithered ≠ []) (hdpi : paddingTooLong rnd dpi = true) :
    buildEscposReceipt rnd pages dpi = .error .overflowError := by
  rw [buildEscposReceipt_eq h, if_neg hink]
  unfold paddingTooLong at hdpi
  rcases mmToDots_cases rnd defaultPadMm dpi with he | ⟨padRows, hpad⟩
  · rw [he]
    rfl
  · rw [hpad] at hdpi
    rw [hpad]
    exact buildEscposJob_tooLong hink (of_decide_eq_true hdpi)

end Receipt

/-- **A receipt keeps all its ink, in order.** -/
theorem receipt_keeps_ink {pages : List GrayPage} {width : Nat} {dpi : Int} (hwidth : width ≤ 524280)
    (hpages : ∀ page ∈ pages, page.width = width ∧ page.gray.length = width * page.height) :
    ∃ dithered, (pages.mapM fun page => grayToRows double page.gray page.width page.height) = .ok dithered ∧
      ((∃ e, buildEscposReceipt double pages dpi = .error e) ↔
        (∀ rows ∈ dithered, ∀ row ∈ rows, hasInk row = false) ∨ paddingTooLong double dpi = true) ∧
      (∀ bytes, buildEscposReceipt double pages dpi = .ok bytes → ∃ (padRows : Nat) (job : EscposJob),
        mmToDots double defaultPadMm dpi = .ok (padRows : Int) ∧ readJob bytes = some job ∧
        job.rows = paddedRows (bytesPerRow width) padRows (dithered.map trimBlankRows).flatten ∧
        job.rows.filter hasInk = dithered.flatten.filter hasInk) ∧
      (∀ rows ∈ dithered, TrimsTo hasInk rows (trimBlankRows rows) ∧
        trimBlankRows (trimBlankRows rows) = trimBlankRows rows) ∧
      EndsIn hasInk (dithered.map trimBlankRows).flatten ∧
      trimBlankRows (dithered.map trimBlankRows).flatten = (dithered.map trimBlankRows).flatten := by
  obtain ⟨dithered, hok, hlen⟩ := dithered_ok double hpages
  refine ⟨dithered, hok, ?_, fun bytes hbytes => ?_, fun rows _ => ⟨trimBlankRows_trims rows, ?_⟩,
    endsIn_receiptRows, trimBlankRows_of_endsIn endsIn_receiptRows⟩
  · rw [← receiptRows_eq_nil]
    by_cases hink : receiptRows dithered = []
    · exact iff_of_true ⟨_, by rw [buildEscposReceipt_eq hok, if_pos hink]⟩ (.inl hink)
    · cases hdpi : paddingTooLong double dpi with
      | true => exact iff_of_true ⟨_, buildEscposReceipt_tooLarge hok hink hdpi⟩ (.inr rfl)
      | false =>
        obtain ⟨padRows, bytes, _, hbuild, _⟩ := buildEscposReceipt_ok hwidth hok hlen hink hdpi
        refine iff_of_false (fun ⟨e, he⟩ => ?_) (by simpa using hink)
        rw [hbuild] at he
        cases he
  · have hink : receiptRows dithered ≠ [] := fun hno => by
      rw [buildEscposReceipt_eq hok, if_pos hno] at hbytes
      cases hbytes
    have hdpi : paddingTooLong double dpi = false := Bool.eq_false_iff.mpr fun hlarge => by
      rw [buildEscposReceipt_tooLarge hok hink hlarge] at hbytes
      cases hbytes
    obtain ⟨padRows, bytes', hpad, hbuild, hread⟩ := buildEscposReceipt_ok hwidth hok hlen hink hdpi
    obtain rfl : bytes = bytes' := Except.ok.inj (hbytes.symm.trans hbuild)
    refine ⟨padRows, _, hpad, hread, rows_writtenJob, ?_⟩
    rw [rows_writtenJob, filter_paddedRows, filter_receiptRows]
  · exact trimBlankRows_of_endsIn (trimBlankRows_trims rows).ends

def blackPixel : GrayPage := ⟨[0], 1, 1⟩

theorem receipt_keeps_ink_one :
    ∃ dithered, ([blackPixel].mapM fun page => grayToRows double page.gray page.width page.height) =
      .ok dithered ∧ EndsIn hasInk (dithered.map trimBlankRows).flatten := by
  have hpages : ∀ page ∈ [blackPixel], page.width = 1 ∧ page.gray.length = 1 * page.height := by
    intro page hpage
    rw [List.mem_singleton.mp hpage]
    exact ⟨rfl, rfl⟩
  obtain ⟨dithered, hok, _, _, _, hends, _⟩ := @receipt_keeps_ink [blackPixel] 1 203 (by decide) hpages
  exact ⟨dithered, hok, hends⟩

theorem hasInk_of_pixel {row : List UInt8} {x : Nat} (h : pixel row x = true) : hasInk row = true := by
  by_contra hno
  have hzero : row.getD (x / 8) 0 = 0 := by
    rw [List.getD_eq_getElem?_getD]
    cases hx : row[x / 8]? with
    | none => rfl
    | some byte =>
      by_contra hbyte
      exact hno (List.any_eq_true.mpr ⟨byte, List.mem_of_getElem? hx, by simpa using hbyte⟩)
  rw [pixel, hzero] at h
  simp at h

/-- four millimetres at so many dots per inch are more rows than a list can have -/
theorem paddingTooLong_large : paddingTooLong double (2 ^ 70) = true := by
  have hfloat : tooLargeForFloat (2 ^ 70) = false := by decide
  have hinch := (double_near (q := 254 / 10) (by norm_num)).2
  have hpos := (double_near (q := 254 / 10) (by norm_num)).1
  have hquotient : 4 / (254 / 5) ≤ defaultPadMm / double (254 / 10) :=
    div_le_div_of_nonneg_left (by norm_num) (by linarith) (by linarith)
  have hshare := (double_near (by linarith)).1.trans' (div_le_div_of_nonneg_right hquotient two_pos.le)
  have hdpi := (double_near (q := ((2 ^ 70 : Int) : ℚ)) (by norm_num)).1
  have hproduct : 4 / (254 / 5) / 2 * (((2 ^ 70 : Int) : ℚ) / 2) ≤
      double (defaultPadMm / double (254 / 10)) * double ((2 ^ 70 : Int) : ℚ) :=
    mul_le_mul hshare hdpi (by norm_num) (by linarith)
  have hdots := (double_near (hproduct.trans' (by norm_num))).1
  have hrows : ((2 ^ 63 : Int) : ℚ) ≤
      double (double (defaultPadMm / double (254 / 10)) * double ((2 ^ 70 : Int) : ℚ)) := by
    refine le_trans ?_ hdots
    refine le_trans ?_ (div_le_div_of_nonneg_right hproduct two_pos.le)
    norm_num
  unfold paddingTooLong mmToDots
  rw [hfloat]
  exact decide_eq_true (le_max_of_le_right (le_roundEven_of_le hrows))

/-- a page with ink, at a resolution that makes the padding too long -/
theorem receipt_overflows :
    ∃ rows row, grayToRows double blackPixel.gray blackPixel.width blackPixel.height = .ok rows ∧ row ∈ rows ∧
      hasInk row = true ∧ buildEscposReceipt double [blackPixel] (2 ^ 70) = .error .overflowError := by
  have hblack : IsBlackAndWhite blackPixel.gray := by
    intro value hvalue
    exact .inl (List.mem_singleton.mp hvalue)
  have hgray : blackPixel.gray.length = 1 * 1 := rfl
  obtain ⟨s, hok, hs, hbits⟩ := ditherRows_blackAndWhite double_zero hgray hblack (Nat.le_refl 1)
  have hrows : grayToRows double blackPixel.gray blackPixel.width blackPixel.height = .ok s.rows := by
    show grayToRows double blackPixel.gray 1 1 = _
    rw [grayToRows, hok]
    rfl
  have hrow : s.rows.getD 0 [] ∈ s.rows := by
    rw [List.getD_eq_getElem _ _ (by rw [hs.length]; decide)]
    exact List.getElem_mem _
  have hink := hasInk_of_pixel ((hbits 0 (by decide) 0 (by decide)).mpr rfl)
  have hdithered : ([blackPixel].mapM fun page => grayToRows double page.gray page.width page.height) =
      .ok [s.rows] := by
    rw [List.mapM_cons, hrows]
    rfl
  refine ⟨s.rows, _, hrows, hrow, hink, ?_⟩
  refine buildEscposReceipt_tooLarge hdithered (fun hnil => ?_) paddingTooLong_large
  rw [receiptRows_eq_nil.mp hnil _ (List.mem_singleton_self _) _ hrow] at hink
  cases hink

end PrintAgent
