import Hawiya.MrzRepair

/-!
# From OCR text to MRZ lines

What `_read_sync` does with the raw text of the OCR: it takes the first two lines that are not
blank, pads or cuts them to 44 characters and repairs them. A line is not stripped, so whitespace
around one is kept in its columns.
-/

namespace Hawiya.Mrz
open PyString Validators

def td3LineCount : ℕ := 2

/-- `line.ljust(44, "<")[:44]`. -/
def fit (s : Str) : Str := (ljust 44 '<' s).take 44

def nonblank (s : Str) : Bool := strip s ≠ []

/-- `_read_sync` from the raw text on. -/
def mrzLines (raw : Str) : Except PyError (Str × Str) :=
  if raw = [] then .error (.noMRZFoundError "OCR returned no MRZ text")
  else
    match (splitlines raw).filter nonblank with
    | line1 :: line2 :: _ => .ok (repairMrzChars (fit line1) (fit line2))
    | lines => .error (.noMRZFoundError ("expected " ++ toString td3LineCount ++
        " MRZ lines, got " ++ toString lines.length))

/-- A space, a tab or a line break. -/
def IsBlank (c : Char) : Prop := c = ' ' ∨ c = '\t' ∨ isLineBreak c = true

/-- The start of a text that ends its line. -/
def trailing (s : Str) : Str := s.takeWhile (fun c => !isLineBreak c)

theorem IsBlank.isspace {c : Char} (h : IsBlank c) : isspace c = true := by
  rcases h with rfl | rfl | h
  · rfl
  · rfl
  · exact isspace_of_isLineBreak h

theorem nonblank_iff {s : Str} : nonblank s = true ↔ ∃ c ∈ s, isspace c = false := by
  rw [nonblank, decide_eq_true_eq, Ne, strip_eq_nil_iff]
  simp

theorem not_nonblank {s : Str} (h : ∀ c ∈ s, isspace c = true) : nonblank s = false := by
  rw [← Bool.not_eq_true, nonblank_iff]
  rintro ⟨c, hc, hspace⟩
  rw [h c hc] at hspace
  cases hspace

theorem nonblank_append {s : Str} (h : nonblank s = true) (t : Str) : nonblank (s ++ t) = true := by
  obtain ⟨c, hc, hspace⟩ := nonblank_iff.mp h
  exact nonblank_iff.mpr ⟨c, List.mem_append_left _ hc, hspace⟩

theorem ne_nil_of_nonblank {s : Str} (h : nonblank s = true) : s ≠ [] := by
  rintro rfl
  cases h

theorem noBreak_trailing (s : Str) : ∀ c ∈ trailing s, isLineBreak c = false := by
  intro c hc
  simpa using List.mem_takeWhile_imp hc

theorem trailing_of_noBreak {s : Str} (h : ∀ c ∈ s, isLineBreak c = false) : trailing s = s :=
  List.takeWhile_eq_self_iff.mpr (fun c hc => by simp [h c hc])

theorem exists_trailing_break {s : Str} (h : ∃ c ∈ s, isLineBreak c = true) :
    ∃ b rest, s = trailing s ++ b :: rest ∧ isLineBreak b = true := by
  have hne : s.dropWhile (fun c => !isLineBreak c) ≠ [] := by
    intro hnil
    obtain ⟨c, hc, hbreak⟩ := h
    have hnot := List.dropWhile_eq_nil_iff.mp hnil c hc
    rw [hbreak] at hnot
    cases hnot
  obtain ⟨b, rest, hdrop⟩ := List.exists_cons_of_ne_nil hne
  have hhead := List.head_dropWhile_not (fun c => !isLineBreak c) hne
  simp only [hdrop, List.head_cons, Bool.not_eq_false'] at hhead
  refine ⟨b, rest, ?_, hhead⟩
  rw [← hdrop]
  exact List.takeWhile_append_dropWhile.symm

section Lines
variable {cur blank s : Str} {cr : Bool}

/-- A blank text leaves the line it begins, and none before. -/
theorem lines_blank (hcur : ∀ c ∈ cur, isspace c = true) (hcr : cr = true → cur = [])
    (hblank : ∀ c ∈ blank, IsBlank c) (s : Str) :
    ∃ cr', (splitlinesFrom cur cr (blank ++ s)).filter nonblank =
      (splitlinesFrom (begun cur blank) cr' s).filter nonblank := by
  induction blank generalizing cur cr with
  | nil => exact ⟨cr, rfl⟩
  | cons c blank ih =>
    have hrest : ∀ d ∈ blank, IsBlank d := fun d hd => hblank d (List.mem_cons_of_mem _ hd)
    rw [List.cons_append, splitlinesFrom, begun]
    by_cases hnewline : (cr && c == '\n') = true
    · -- the second half of a line break
      obtain ⟨htrue, hc⟩ := Bool.and_eq_true_iff.mp hnewline
      have hbreak : isLineBreak c = true := by
        rw [beq_iff_eq.mp hc]
        rfl
      rw [if_pos hnewline, if_pos hbreak, hcr htrue]
      exact ih (by simp) (fun h => absurd h Bool.false_ne_true) hrest
    · rw [if_neg hnewline]
      by_cases hbreak : isLineBreak c = true
      · rw [if_pos hbreak, if_pos hbreak, List.filter_cons_of_neg (by simp [not_nonblank hcur])]
        exact ih (by simp) (fun _ => rfl) hrest
      · rw [if_neg hbreak, if_neg hbreak]
        refine ih (fun d hd => ?_) (fun h => absurd h Bool.false_ne_true) hrest
        rcases List.mem_append.mp hd with hd | hd
        · exact hcur d hd
        · rw [List.mem_singleton.mp hd]
          exact (hblank c (List.mem_cons_self ..)).isspace

theorem lines_blank_nil (cr : Bool) (hblank : ∀ c ∈ blank, IsBlank c) (s : Str) :
    ∃ cr', (splitlinesFrom [] cr (blank ++ s)).filter nonblank =
      (splitlinesFrom (begun [] blank) cr' s).filter nonblank :=
  lines_blank (fun _ hc => absurd hc List.not_mem_nil) (fun _ => rfl) hblank s

/-- A line that is not blank, and the whitespace up to its line break. -/
theorem lines_line (hcur : nonblank cur = true) (hbreak : ∃ c ∈ blank, isLineBreak c = true)
    (hblank : ∀ c ∈ blank, IsBlank c) (s : Str) :
    ∃ cr', (splitlinesFrom cur false (blank ++ s)).filter nonblank =
      (cur ++ trailing blank) :: (splitlinesFrom (begun [] blank) cr' s).filter nonblank := by
  obtain ⟨b, rest, hsplit, hb⟩ := exists_trailing_break hbreak
  have hnoBreak := noBreak_trailing blank
  have hfirst : splitlinesFrom cur false (blank ++ s) =
      (cur ++ trailing blank) :: splitlinesFrom [] (b == '\r') (rest ++ s) := by
    conv_lhs => rw [hsplit, List.append_assoc]
    rw [splitlinesFrom_append_false hnoBreak, List.cons_append, splitlinesFrom,
      if_neg (by simp), if_pos hb]
  have hbegun : begun [] blank = begun [] rest := by
    conv_lhs => rw [hsplit]
    rw [begun_of_noBreak hnoBreak, begun, if_pos hb]
  have hrest : ∀ c ∈ rest, IsBlank c := by
    intro c hc
    apply hblank
    rw [hsplit]
    exact List.mem_append_right _ (List.mem_cons_of_mem _ hc)
  obtain ⟨cr', htail⟩ := lines_blank_nil (b == '\r') hrest s
  refine ⟨cr', ?_⟩
  rw [hfirst, List.filter_cons_of_pos (nonblank_append hcur _), htail, hbegun]

/-- The last line, and the whitespace after it. -/
theorem lines_end (hcur : nonblank cur = true) (hblank : ∀ c ∈ blank, IsBlank c) :
    (splitlinesFrom cur false blank).filter nonblank = [cur ++ trailing blank] := by
  by_cases hbreak : ∃ c ∈ blank, isLineBreak c = true
  · obtain ⟨cr', h⟩ := lines_line hcur hbreak hblank []
    rw [List.append_nil] at h
    rw [h, splitlinesFrom]
    split_ifs with hnil
    · rfl
    · rw [List.filter_cons_of_neg, List.filter_nil]
      rw [not_nonblank (fun c hc => (hblank c ?_).isspace)]
      · simp
      · exact (mem_begun hc).resolve_left List.not_mem_nil
  · have hnoBreak : ∀ c ∈ blank, isLineBreak c = false := by
      simpa using hbreak
    have hline : splitlinesFrom cur false blank = [cur ++ blank] := by
      have h := splitlinesFrom_append_false hnoBreak cur []
      rw [List.append_nil] at h
      rw [h, splitlinesFrom, if_neg]
      exact ne_nil_of_nonblank (nonblank_append hcur _)
    rw [hline, trailing_of_noBreak hnoBreak, List.filter_cons_of_pos (nonblank_append hcur _),
      List.filter_nil]

end Lines

theorem trailing_eq_nil_iff {s : Str} :
    trailing s = [] ↔ ∀ c, s.head? = some c → isLineBreak c = true := by
  cases s with
  | nil => simp [trailing]
  | cons c s => simp [trailing]

theorem fixChar_space (k : Option ColumnClass) {c : Char} (h : isspace c = true) :
    fixChar k c = c := by
  cases k with
  | none => rfl
  | some k =>
    apply translateChar_of_not_mem
    intro hmem
    have hkeys : (k.table.map Prod.fst).all (fun d => !isspace d) = true := by
      cases k <;> decide
    have hc := List.all_eq_true.mp hkeys c hmem
    rw [h] at hc
    cases hc

section Repairs
variable {classOf : ℕ → Option ColumnClass} {repair : Str → Str} {n : ℕ}

/-- Repair leaves whitespace where it is. -/
theorem RepairsBy.space_mem (h : RepairsBy classOf (fun s => n ≤ s.length) repair) {s : Str}
    {c : Char} (hc : c ∈ s) (hspace : isspace c = true) : c ∈ repair s := by
  by_cases hlong : n ≤ s.length
  · obtain ⟨i, hi, rfl⟩ := List.getElem_of_mem hc
    rw [(h s).1 hlong, List.mem_mapIdx]
    exact ⟨i, hi, fixChar_space _ hspace⟩
  · rwa [(h s).2 hlong]

theorem RepairsBy.fixes (h : RepairsBy classOf (fun s => n ≤ s.length) repair) (hn : n ≤ 44)
    {s : Str} (hs : ClassCorrect classOf s) : repair s = s := by
  refine h.undoes hn hs ⟨rfl, fun i c d hc hd => .inl ?_⟩
  rw [hc] at hd
  exact (Option.some.inj hd).symm

theorem mem_fit {s t : Str} {c : Char} (h : s.length < 44) : c ∈ fit (s ++ c :: t) := by
  rw [fit, ljust, List.mem_iff_getElem?]
  refine ⟨s.length, ?_⟩
  rw [List.getElem?_take, if_pos h, List.append_assoc, List.getElem?_append_right le_rfl,
    Nat.sub_self]
  rfl

theorem fit_of_long {s : Str} (h : s.length = 44) (t : Str) : fit (s ++ t) = s := by
  rw [fit, ljust, List.append_assoc, ← h, List.take_left]

theorem fit_of_dropped {s : Str} {k : ℕ} (h : (s ++ List.replicate k '<').length = 44) :
    fit s = s ++ List.replicate k '<' := by
  have hk : 44 - s.length = k := by
    rw [List.length_append, List.length_replicate] at h
    omega
  rw [fit, ljust, hk, ← h, List.take_length]

/-- A line of the text is recovered exactly when no whitespace comes before it, nor into the
columns of its dropped filler. -/
theorem RepairsBy.fit_iff (h : RepairsBy classOf (fun s => n ≤ s.length) repair) (hn : n ≤ 44)
    {s kept pre post : Str} {dropped : ℕ} (hs : ClassCorrect classOf s)
    (hmrz : ∀ c ∈ s, IsMrzChar c) (hkept : s = kept ++ List.replicate dropped '<')
    (hpre : ∀ c ∈ pre, isspace c = true) (hpost : ∀ c ∈ post, isspace c = true) :
    repair (fit (pre ++ kept ++ post)) = s ↔ pre = [] ∧ (dropped = 0 ∨ post = []) := by
  have hlength : kept.length + dropped = 44 := by
    have h44 := hs.1
    rwa [hkept, List.length_append, List.length_replicate] at h44
  constructor
  · intro hfit
    have hclean : ∀ c ∈ fit (pre ++ kept ++ post), isspace c = false := by
      intro c hc
      by_contra hspace
      rw [Bool.not_eq_false] at hspace
      have hmem := h.space_mem hc hspace
      rw [hfit] at hmem
      rw [not_isspace_of_mrz (hmrz c hmem)] at hspace
      cases hspace
    have hnone : pre = [] := by
      by_contra hne
      obtain ⟨c, cs, rfl⟩ := List.exists_cons_of_ne_nil hne
      have hc := hclean c (@mem_fit [] _ c (by simp))
      rw [hpre c (List.mem_cons_self ..)] at hc
      cases hc
    refine ⟨hnone, ?_⟩
    by_contra hnot
    rw [not_or] at hnot
    obtain ⟨c, cs, rfl⟩ := List.exists_cons_of_ne_nil hnot.2
    rw [hnone, List.nil_append] at hclean
    have hc := hclean c (mem_fit (by omega))
    rw [hpost c (List.mem_cons_self ..)] at hc
    cases hc
  · rintro ⟨rfl, hfull⟩
    have hfit : fit ([] ++ kept ++ post) = s := by
      rw [List.nil_append]
      rcases hfull with rfl | rfl
      · rw [List.replicate_zero, List.append_nil] at hkept
        rw [← hkept]
        exact fit_of_long hs.1 post
      · rw [List.append_nil, hkept]
        exact fit_of_dropped (hkept ▸ hs.1)
    rw [hfit, h.fixes hn hs]

end Repairs

/-- Two MRZ lines as they stand in the text of a scan: fillers may be missing at the end of the
first, and whitespace is around them. -/
structure Scan where
  line1 : Str
  line2 : Str
  kept : Str
  dropped : ℕ
  before : Str
  between : Str
  after : Str
  correct1 : ClassCorrect classOf1 line1
  correct2 : ClassCorrect classOf2 line2
  mrz1 : ∀ c ∈ line1, IsMrzChar c
  mrz2 : ∀ c ∈ line2, IsMrzChar c
  line1_eq : line1 = kept ++ List.replicate dropped '<'
  blank : ∀ c ∈ before ++ between ++ after, IsBlank c
  lineBreak : ∃ c ∈ between, isLineBreak c = true

namespace Scan
variable (s : Scan)

def text : Str := s.before ++ (s.kept ++ (s.between ++ (s.line2 ++ s.after)))

/-- Whitespace does not come before a line, nor after line 1 where a filler was dropped. -/
def Flush : Prop :=
  (∀ c, s.before.getLast? = some c → isLineBreak c = true) ∧
  (∀ c, s.between.getLast? = some c → isLineBreak c = true) ∧
  (s.dropped = 0 ∨ ∀ c, s.between.head? = some c → isLineBreak c = true)

theorem blank_before : ∀ c ∈ s.before, IsBlank c :=
  fun c hc => s.blank c (List.mem_append_left _ (List.mem_append_left _ hc))

theorem blank_between : ∀ c ∈ s.between, IsBlank c :=
  fun c hc => s.blank c (List.mem_append_left _ (List.mem_append_right _ hc))

theorem blank_after : ∀ c ∈ s.after, IsBlank c :=
  fun c hc => s.blank c (List.mem_append_right _ hc)

theorem isspace_begun {blank : Str} (h : ∀ c ∈ blank, IsBlank c) :
    ∀ c ∈ begun [] blank, isspace c = true :=
  fun c hc => (h c ((mem_begun hc).resolve_left List.not_mem_nil)).isspace

theorem isspace_trailing {blank : Str} (h : ∀ c ∈ blank, IsBlank c) :
    ∀ c ∈ trailing blank, isspace c = true :=
  fun c hc => (h c ((List.takeWhile_sublist _).subset hc)).isspace

theorem line2_ne_nil : s.line2 ≠ [] := by
  intro hnil
  have hlength := s.correct2.1
  rw [hnil] at hlength
  cases hlength

theorem text_ne_nil : s.text ≠ [] := by
  simp [text, s.line2_ne_nil]

theorem noBreak_of_mrz {t : Str} (h : ∀ c ∈ t, IsMrzChar c) : ∀ c ∈ t, isLineBreak c = false := by
  intro c hc
  by_contra hbreak
  rw [Bool.not_eq_false] at hbreak
  have hspace := isspace_of_isLineBreak hbreak
  rw [not_isspace_of_mrz (h c hc)] at hspace
  cases hspace

theorem nonblank_of_mrz {t : Str} (hne : t ≠ []) (h : ∀ c ∈ t, IsMrzChar c) (pre : Str) :
    nonblank (pre ++ t) = true := by
  obtain ⟨c, cs, rfl⟩ := List.exists_cons_of_ne_nil hne
  exact nonblank_iff.mpr ⟨c, List.mem_append_right _ (List.mem_cons_self ..),
    not_isspace_of_mrz (h c (List.mem_cons_self ..))⟩

theorem mrz_kept : ∀ c ∈ s.kept, IsMrzChar c := by
  intro c hc
  apply s.mrz1
  rw [s.line1_eq]
  exact List.mem_append_left _ hc

theorem lines_line2 (cur : Str) (cr : Bool) :
    (splitlinesFrom cur cr (s.line2 ++ s.after)).filter nonblank =
      [cur ++ s.line2 ++ trailing s.after] := by
  rw [splitlinesFrom_append (noBreak_of_mrz s.mrz2) s.line2_ne_nil]
  exact lines_end (nonblank_of_mrz s.line2_ne_nil s.mrz2 _) s.blank_after

theorem lines_of_kept (hkept : s.kept ≠ []) :
    (splitlines s.text).filter nonblank =
      [begun [] s.before ++ s.kept ++ trailing s.between,
        begun [] s.between ++ s.line2 ++ trailing s.after] := by
  obtain ⟨cr, hbefore⟩ := lines_blank_nil false s.blank_before
    (s.kept ++ (s.between ++ (s.line2 ++ s.after)))
  obtain ⟨cr', hline1⟩ := lines_line (nonblank_of_mrz hkept s.mrz_kept (begun [] s.before))
    s.lineBreak s.blank_between (s.line2 ++ s.after)
  rw [splitlines, text, hbefore, splitlinesFrom_append (noBreak_of_mrz s.mrz_kept) hkept, hline1,
    s.lines_line2]

theorem lines_of_nil (hkept : s.kept = []) :
    ∃ only, (splitlines s.text).filter nonblank = [only] := by
  have hblank : ∀ c ∈ s.before ++ s.between, IsBlank c :=
    fun c hc => s.blank c (List.mem_append_left _ hc)
  obtain ⟨cr, hbefore⟩ := lines_blank_nil false hblank
    (s.line2 ++ s.after)
  refine ⟨begun [] (s.before ++ s.between) ++ s.line2 ++ trailing s.after, ?_⟩
  rw [splitlines, text, hkept, List.nil_append, ← List.append_assoc, hbefore, s.lines_line2]

/-- The lines are recovered exactly when something of the first was read and no whitespace stands
in the columns. -/
theorem recovered_iff :
    mrzLines s.text = .ok (s.line1, s.line2) ↔ s.kept ≠ [] ∧ s.Flush := by
  by_cases hkept : s.kept = []
  · obtain ⟨only, honly⟩ := s.lines_of_nil hkept
    rw [mrzLines, if_neg s.text_ne_nil, honly]
    simp [hkept]
  · have hline1 := repairLine1_repairs.fit_iff (by decide) s.correct1 s.mrz1 s.line1_eq
      (isspace_begun s.blank_before) (isspace_trailing s.blank_between)
    have hline2 := repairLine2_repairs.fit_iff (by decide) s.correct2 s.mrz2
      (show s.line2 = s.line2 ++ List.replicate 0 '<' by simp)
      (isspace_begun s.blank_between) (isspace_trailing s.blank_after)
    rw [mrzLines, if_neg s.text_ne_nil, s.lines_of_kept hkept]
    change Except.ok (repairLine1 _, repairLine2 _) = _ ↔ _
    rw [Except.ok.injEq, Prod.mk.injEq, hline1, hline2, begun_nil_eq_nil_iff, begun_nil_eq_nil_iff,
      trailing_eq_nil_iff]
    constructor
    · rintro ⟨⟨hbefore, hdropped⟩, hbetween, -⟩
      exact ⟨hkept, hbefore, hbetween, hdropped⟩
    · rintro ⟨-, hbefore, hbetween, hdropped⟩
      exact ⟨⟨hbefore, hdropped⟩, hbetween, .inl rfl⟩

/-- A space before the first line. -/
def indented : Scan where
  line1 := "P<AREALMANSOORI<<MOHAMED<<<<<<<<<<<<<<<<<<<<".toList
  line2 := "P1234567<1ARE9001125M3001019<<<<<<<<<<<<<<04".toList
  kept := "P<AREALMANSOORI<<MOHAMED<<<<<<<<<<<<<<<<<<<<".toList
  dropped := 0
  before := [' ']
  between := ['\n']
  after := ['\n']
  correct1 := Misread.classCorrect_of_fixed rfl (by decide +kernel)
  correct2 := Misread.classCorrect_of_fixed rfl (by decide +kernel)
  mrz1 := forall_of_all rfl
  mrz2 := forall_of_all rfl
  line1_eq := rfl
  blank := by simp [IsBlank, isLineBreak]
  lineBreak := ⟨'\n', by simp, rfl⟩

/-- The space stays in column 0, and the last filler is cut off. -/
theorem indented_shifted :
    mrzLines indented.text = .ok (' ' :: indented.line1.take 43, indented.line2) ∧
      mrzLines indented.text ≠ .ok (indented.line1, indented.line2) := by
  have hlines : mrzLines indented.text = .ok (' ' :: indented.line1.take 43, indented.line2) := by
    rfl
  refine ⟨hlines, ?_⟩
  rw [hlines, Ne, Except.ok.injEq, Prod.mk.injEq]
  decide +kernel

end Scan
end Hawiya.Mrz
