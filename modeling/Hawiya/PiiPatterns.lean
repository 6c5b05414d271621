import Hawiya.Pii

/-!
# The edges of the redacted patterns

What stands inside, before and behind a match of each pattern. A passport number and a date stand
between word boundaries and never overlap others of their kind, an MRZ line is a whole run of its
class, and an e-mail address neither begins right behind a local character nor ends right before a
letter. Hence no match begins right behind an ASCII digit or ends right before a capital that is
left in the text (`edged_covered`).
-/

namespace Hawiya

open PyString Regex

section Classes

theorem isAsciiDigit_iff {c : Char} : isAsciiDigit c = true ↔ '0' ≤ c ∧ c ≤ '9' := by
  simp [isAsciiDigit]

theorem isLetter_of_isCapital {c : Char} (h : isCapital c = true) : isLetter c = true := by
  simp [isLetter, h]

theorem lt_of_isLocalChar {c : Char} (h : isLocalChar c = true) : c.toNat < 128 := by
  have hle : ∀ {a b : Char}, a ≤ b → a.toNat ≤ b.toNat := fun h => h
  have h9 : '9'.toNat < 128 := by decide
  have hZ : 'Z'.toNat < 128 := by decide
  have hz : 'z'.toNat < 128 := by decide
  simp only [isLocalChar, isLetter, isCapital, isAsciiDigit, Bool.or_eq_true, Bool.and_eq_true,
    decide_eq_true_eq, beq_iff_eq] at h
  rcases h with ((((((⟨-, h⟩ | ⟨-, h⟩) | ⟨-, h⟩) | rfl) | rfl) | rfl) | rfl) | rfl
  · exact (hle h).trans_lt hZ
  · exact (hle h).trans_lt hz
  · exact (hle h).trans_lt h9
  all_goals decide

theorem isLocalChar_of_isLetter {c : Char} (h : isLetter c = true) : isLocalChar c = true := by
  simp [isLocalChar, h]

theorem isLocalChar_of_isAsciiDigit {c : Char} (h : isAsciiDigit c = true) :
    isLocalChar c = true := by
  simp [isLocalChar, h]

theorem isMrzChar_of_isCapital {c : Char} (h : isCapital c = true) : isMrzChar c = true := by
  simp [isMrzChar, h]

theorem isMrzChar_of_isAsciiDigit {c : Char} (h : isAsciiDigit c = true) : isMrzChar c = true := by
  simp [isMrzChar, h]

theorem isLocalChar_of_isDomainChar {c : Char} (h : isDomainChar c = true) :
    isLocalChar c = true := by
  simp only [isDomainChar, isLocalChar, Bool.or_eq_true] at h ⊢
  tauto

theorem isDecimal_of_isAsciiDigit {c : Char} (h : isAsciiDigit c = true) : isDecimal c = true := by
  obtain ⟨d, hd, rfl⟩ := digitChar_toNat_sub (isAsciiDigit_iff.mp h).1 (isAsciiDigit_iff.mp h).2
  rw [isDecimal, decimalValue?_digitChar d hd, Option.isSome_some]

/-- Of the decimal digits, only the ASCII ones are ASCII characters. -/
theorem isAsciiDigit_of_isDecimal {c : Char} (hc : c.toNat < 128) (h : isDecimal c = true) :
    isAsciiDigit c = true := by
  rw [isDecimal, decimalValue?, Option.isSome_map, List.find?_isSome] at h
  obtain ⟨z, hz, hle⟩ := h
  have hfirst : ∀ z ∈ decimalZeros, z < 128 → z = 48 := by decide
  simp only [Bool.and_eq_true, decide_eq_true_eq] at hle
  obtain rfl := hfirst z hz (hle.1.trans_lt hc)
  exact isAsciiDigit_iff.mpr ⟨hle.1, hle.2⟩

theorem not_isDecimal_dash : isDecimal '-' = false := by decide +kernel

variable (words : Words)

theorem Words.of_isLetter {c : Char} (h : isLetter c = true) : words.isWord c = true := by
  rw [words.ascii c (lt_of_isLocalChar (isLocalChar_of_isLetter h)), h]
  rfl

theorem Words.of_isCapital {c : Char} (h : isCapital c = true) : words.isWord c = true :=
  words.of_isLetter (isLetter_of_isCapital h)

theorem Words.of_isAsciiDigit {c : Char} (h : isAsciiDigit c = true) : words.isWord c = true :=
  words.decimal c (isDecimal_of_isAsciiDigit h)

theorem Words.star : words.isWord '*' = false := by
  rw [words.ascii '*' (by decide)]
  decide

end Classes

section Matches
variable {words : Words} {s : Str} {i n : ℕ}

/-- The characters of an e-mail address. -/
def isEmailChar (c : Char) : Bool := isLocalChar c || c == '@'

theorem hasBefore_add {cls : Char → Bool} {j k : ℕ} (hk : 0 < k) (h : Filled cls s j (j + k)) :
    hasBefore cls s (j + k) = true := by
  obtain ⟨k, rfl⟩ : ∃ k', k = k' + 1 := ⟨k - 1, by omega⟩
  exact h (j + k) (by omega) (by omega)

theorem has_false_of_all {cls : Char → Bool} (h : s.all (fun c => !cls c) = true) (i : ℕ) :
    has cls s i = false := by
  by_contra hi
  obtain ⟨c, hc, hcls⟩ := has_eq_true.mp (by simpa using hi)
  have hall := List.all_eq_true.mp h c (List.mem_of_getElem? hc)
  rw [hcls] at hall
  cases hall

/-- A passport number: capitals, then digits. -/
theorem exists_of_mem_passportBody {word : Char → Bool} (h : n ∈ lengths word passportBody s i) :
    ∃ a b, n = a + b ∧ 0 < a ∧ 0 < b ∧ Filled isCapital s i (i + a) ∧
      Filled isAsciiDigit s (i + a) (i + a + b) := by
  obtain ⟨a, ha, b, hb, rfl⟩ := mem_lengths_seq.mp h
  obtain ⟨ha, -, hcapitals⟩ := mem_lengths_many.mp ha
  obtain ⟨hb, -, hdigits⟩ := mem_lengths_many.mp hb
  exact ⟨a, b, rfl, by omega, by omega, hcapitals, hdigits⟩

theorem passportBody_first {word : Char → Bool} (h : n ∈ lengths word passportBody s i) :
    has isCapital s i = true := by
  obtain ⟨a, b, rfl, ha, hb, hcapitals, hdigits⟩ := exists_of_mem_passportBody h
  exact hcapitals i le_rfl (by omega)

theorem passportBody_last {word : Char → Bool} (h : n ∈ lengths word passportBody s i) :
    hasBefore isAsciiDigit s (i + n) = true := by
  obtain ⟨a, b, rfl, ha, hb, hcapitals, hdigits⟩ := exists_of_mem_passportBody h
  rw [← Nat.add_assoc]
  exact hasBefore_add hb hdigits

/-- Every class that has the capitals and the digits holds throughout a passport number. -/
theorem filled_passportBody {word cls : Char → Bool}
    (hcapital : ∀ c, isCapital c = true → cls c = true)
    (hdigit : ∀ c, isAsciiDigit c = true → cls c = true) (h : n ∈ lengths word passportBody s i) :
    Filled cls s i (i + n) := by
  obtain ⟨a, b, rfl, ha, hb, hcapitals, hdigits⟩ := exists_of_mem_passportBody h
  rw [← Nat.add_assoc]
  exact (hcapitals.imp hcapital).append (hdigits.imp hdigit)

theorem hasBefore_mono {cls cls' : Char → Bool} (h : ∀ c, cls c = true → cls' c = true)
    (hi : hasBefore cls s i = true) : hasBefore cls' s i = true := by
  cases i with
  | zero => cases hi
  | succ i => exact has_mono h hi

theorem passport_solid (words : Words) : Solid words.isWord '*' passportBody where
  nonword := words.star
  plain := by decide
  avoids := by decide
  least_pos := by decide
  first h := has_mono (fun _ => words.of_isCapital) (passportBody_first h)
  last h := hasBefore_mono (fun _ => words.of_isAsciiDigit) (passportBody_last h)

/-- A date by columns: the first two digits are ASCII, the others of any script. -/
structure IsDate (s : Str) (i n : ℕ) : Prop where
  length : n = 10
  ascii : ∀ k < 2, has isAsciiDigit s (i + k) = true
  decimal : ∀ k < 10, k ≠ 4 → k ≠ 7 → has isDecimal s (i + k) = true
  dash : ∀ k, k = 4 ∨ k = 7 → has (· == '-') s (i + k) = true

theorem mem_lengths_lit {word : Char → Bool} {c : Char} :
    n ∈ lengths word (.lit c) s i ↔ n = 1 ∧ has (· == c) s i = true :=
  mem_lengths_one

theorem century {word : Char → Bool}
    (h : n ∈ lengths word (.alt (.seq (.lit '1') (.lit '9')) (.seq (.lit '2') (.lit '0'))) s i) :
    n = 2 ∧ Filled isAsciiDigit s i (i + 2) := by
  have hpair : ∀ {c d : Char}, isAsciiDigit c = true → isAsciiDigit d = true →
      n ∈ lengths word (.seq (.lit c) (.lit d)) s i → n = 2 ∧ Filled isAsciiDigit s i (i + 2) := by
    intro c d hc hd h
    obtain ⟨a, ha, b, hb, rfl⟩ := mem_lengths_seq.mp h
    obtain ⟨rfl, hfirst⟩ := mem_lengths_lit.mp ha
    obtain ⟨rfl, hsecond⟩ := mem_lengths_lit.mp hb
    exact ⟨rfl, (filled_one.mpr (has_of_lit hc hfirst)).append
      (filled_one.mpr (has_of_lit hd hsecond))⟩
  rcases mem_lengths_alt.mp h with h | h
  · exact hpair (by decide) (by decide) h
  · exact hpair (by decide) (by decide) h

theorem isDate_of_mem {word : Char → Bool} (h : n ∈ lengths word dateBody s i) : IsDate s i n := by
  obtain ⟨a, ha, _, h₁, rfl⟩ := mem_lengths_seq.mp h
  obtain ⟨rfl, hcentury⟩ := century ha
  obtain ⟨a, ha, _, h₂, rfl⟩ := mem_lengths_seq.mp h₁
  obtain ⟨hlo, hhi, hyear⟩ := mem_lengths_many.mp ha
  obtain rfl : a = 2 := le_antisymm (hhi 2 rfl) hlo
  obtain ⟨a, ha, _, h₃, rfl⟩ := mem_lengths_seq.mp h₂
  obtain ⟨rfl, hdash⟩ := mem_lengths_lit.mp ha
  obtain ⟨a, ha, _, h₄, rfl⟩ := mem_lengths_seq.mp h₃
  obtain ⟨hlo, hhi, hmonth⟩ := mem_lengths_many.mp ha
  obtain rfl : a = 2 := le_antisymm (hhi 2 rfl) hlo
  obtain ⟨a, ha, b, h₅, rfl⟩ := mem_lengths_seq.mp h₄
  obtain ⟨rfl, hdash'⟩ := mem_lengths_lit.mp ha
  obtain ⟨hlo, hhi, hday⟩ := mem_lengths_many.mp h₅
  obtain rfl : b = 2 := le_antisymm (hhi 2 rfl) hlo
  simp only [Nat.add_assoc, Nat.reduceAdd] at hyear hdash hmonth hdash' hday
  have hcentury' := hcentury.imp fun _ => isDecimal_of_isAsciiDigit
  refine ⟨rfl, fun k hk => hcentury (i + k) (by omega) (by omega), fun k hk h4 h7 => ?_, ?_⟩
  · by_cases h₂ : k < 2
    · exact hcentury' (i + k) (by omega) (by omega)
    by_cases h₄ : k < 4
    · exact hyear (i + k) (by omega) (by omega)
    by_cases h₇ : k < 7
    · exact hmonth (i + k) (by omega) (by omega)
    · exact hday (i + k) (by omega) (by omega)
  · rintro k (rfl | rfl)
    · exact hdash
    · exact hdash'

theorem date_solid (words : Words) : Solid words.isWord '*' dateBody where
  nonword := words.star
  plain := by decide
  avoids := by decide +kernel
  least_pos := by decide
  first h := has_mono words.decimal ((isDate_of_mem h).decimal 0 (by omega) (by omega) (by omega))
  last {s i n} h := by
    have hdate := isDate_of_mem h
    obtain rfl := hdate.length
    exact has_mono words.decimal (hdate.decimal 9 (by omega) (by omega) (by omega))

/-- Two dates that overlap share at most two characters: the dashes of the one would meet digits of
the other. -/
theorem IsDate.apart {j m : ℕ} (h : IsDate s i n) (h' : IsDate s j m) (hij : i < j) :
    i + 8 ≤ j := by
  by_contra hlt
  have hclash : ∀ k l, k = 4 ∨ k = 7 → l < 10 → l ≠ 4 → l ≠ 7 → i + k = j + l → False := by
    intro k l hk hl h4 h7 hkl
    have hdash : has isDecimal s (i + k) = false :=
      has_disjoint (fun c hc => by rw [beq_iff_eq.mp hc]; exact not_isDecimal_dash) (h.dash k hk)
    rw [hkl, h'.decimal l hl h4 h7] at hdash
    cases hdash
  have hoffset : j = i + 1 ∨ j = i + 2 ∨ j = i + 3 ∨ j = i + 4 ∨ j = i + 5 ∨ j = i + 6 ∨
      j = i + 7 := by
    omega
  rcases hoffset with hj | hj | hj | hj | hj | hj | hj
  · exact hclash 4 3 (by omega) (by omega) (by omega) (by omega) (by omega)
  · exact hclash 4 2 (by omega) (by omega) (by omega) (by omega) (by omega)
  · exact hclash 4 1 (by omega) (by omega) (by omega) (by omega) (by omega)
  · exact hclash 4 0 (by omega) (by omega) (by omega) (by omega) (by omega)
  · exact hclash 7 2 (by omega) (by omega) (by omega) (by omega) (by omega)
  · exact hclash 7 1 (by omega) (by omega) (by omega) (by omega) (by omega)
  · exact hclash 7 0 (by omega) (by omega) (by omega) (by omega) (by omega)

/-- Every date the pattern matches is found by the scan. -/
theorem date_hit (h : n ∈ lengths words.isWord dateRe s i) : Hit words.isWord dateRe s i n := by
  apply hit_of_isolated
  · intro i j m n hm hn hij
    obtain ⟨hbody, -, hafter⟩ := (date_solid words).mem_between.mp hm
    obtain ⟨hbody', -, -⟩ := (date_solid words).mem_between.mp hn
    have hdate := isDate_of_mem hbody
    have hdate' := isDate_of_mem hbody'
    have hapart := hdate.apart hdate' hij
    obtain rfl := hdate.length
    by_contra hlt
    -- the third or the second digit of the later date stands where the earlier one has ended
    have hdigit := has_mono words.decimal
      (hdate'.decimal (i + 10 - j) (by omega) (by omega) (by omega))
    rw [Nat.add_sub_cancel' (by omega), hafter] at hdigit
    cases hdigit
  · intro i m n hm hn
    rw [(isDate_of_mem ((date_solid words).mem_between.mp hm).1).length,
      (isDate_of_mem ((date_solid words).mem_between.mp hn).1).length]
  · exact h

theorem filled_isWord_passport (h : n ∈ lengths words.isWord passportBody s i) :
    Filled words.isWord s i (i + n) :=
  filled_passportBody (fun _ => words.of_isCapital) (fun _ => words.of_isAsciiDigit) h

theorem passport_hit (h : n ∈ lengths words.isWord passportRe s i) :
    Hit words.isWord passportRe s i n := by
  apply hit_of_isolated
  · intro i j m n hm hn hij
    obtain ⟨hbody, -, -⟩ := (passport_solid words).mem_between.mp hm
    obtain ⟨-, hbefore, -⟩ := (passport_solid words).mem_between.mp hn
    obtain ⟨j, rfl⟩ : ∃ k, j = k + 1 := ⟨j - 1, by omega⟩
    by_contra hlt
    have hword := filled_isWord_passport hbody j (by omega) (by omega)
    rw [hasBefore, hword] at hbefore
    cases hbefore
  · intro i m n hm hn
    obtain ⟨hbody, -, hafter⟩ := (passport_solid words).mem_between.mp hm
    obtain ⟨hbody', -, hafter'⟩ := (passport_solid words).mem_between.mp hn
    rcases lt_trichotomy m n with hlt | heq | hlt
    · rw [filled_isWord_passport hbody' (i + m) (by omega) (by omega)] at hafter
      cases hafter
    · exact heq
    · rw [filled_isWord_passport hbody (i + n) (by omega) (by omega)] at hafter'
      cases hafter'
  · exact h

/-- An e-mail address is made of its characters, has the sign and ends with a letter. -/
theorem exists_of_mem_email {word : Char → Bool} (h : n ∈ lengths word emailRe s i) :
    (∃ k, has (· == '@') s k = true) ∧ 0 < n ∧ Filled isEmailChar s i (i + n) ∧
      hasBefore isLetter s (i + n) = true := by
  obtain ⟨a, ha, _, h₁, rfl⟩ := mem_lengths_seq.mp h
  obtain ⟨hlo, -, hlocal⟩ := mem_lengths_many.mp ha
  obtain ⟨b, hb, _, h₂, rfl⟩ := mem_lengths_seq.mp h₁
  obtain ⟨rfl, hat⟩ := mem_lengths_lit.mp hb
  obtain ⟨b, hb, _, h₃, rfl⟩ := mem_lengths_seq.mp h₂
  obtain ⟨-, -, hdomain⟩ := mem_lengths_many.mp hb
  obtain ⟨c, hc, d, h₄, rfl⟩ := mem_lengths_seq.mp h₃
  obtain ⟨rfl, hdot⟩ := mem_lengths_lit.mp hc
  obtain ⟨htwo, -, hletters⟩ := mem_lengths_many.mp h₄
  have hemail : ∀ c, isLocalChar c = true → isEmailChar c = true := fun c hc => by
    simp [isEmailChar, hc]
  have hfirst := hlocal.imp hemail
  have hsign := filled_one.mpr (has_of_lit (show isEmailChar '@' = true by decide) hat)
  have hmiddle := hdomain.imp fun c hc => hemail c (isLocalChar_of_isDomainChar hc)
  have hpoint := filled_one.mpr (has_of_lit (show isEmailChar '.' = true by decide) hdot)
  have hlast := hletters.imp fun c hc => hemail c (isLocalChar_of_isLetter hc)
  have hall := (((hfirst.append hsign).append hmiddle).append hpoint).append hlast
  have hend := hasBefore_add (by omega) hletters
  simp only [Nat.add_assoc] at hall hend ⊢
  exact ⟨⟨_, hat⟩, by omega, hall, hend⟩

/-- The letters at the end of an e-mail address are taken as far as they go. -/
theorem email_after {word : Char → Bool} (h : Hit word emailRe s i n) :
    has isLetter s (i + n) = false := by
  obtain ⟨a, -, _, h₁, rfl⟩ := exists_of_matchAt_seq h.2
  obtain ⟨b, -, _, h₂, rfl⟩ := exists_of_matchAt_seq h₁
  obtain ⟨c, -, _, h₃, rfl⟩ := exists_of_matchAt_seq h₂
  obtain ⟨d, -, _, h₄, rfl⟩ := exists_of_matchAt_seq h₃
  obtain ⟨rfl, -⟩ := matchAt_many.mp h₄
  simp only [← Nat.add_assoc]
  exact has_run _

end Matches

section Edges
variable {C D : ℕ → Bool} {s : Str} {words : Words}

/-- No stretch of the positions begins right behind an ASCII digit that is not among them, and none
ends right before such a capital. -/
structure Edged (C : ℕ → Bool) (s : Str) : Prop where
  before : ∀ j, C j = false → C (j + 1) = true → has isAsciiDigit s j = false
  after : ∀ j, C j = true → C (j + 1) = false → has isCapital s (j + 1) = false

/-- The edges of the matches of a pattern bound what its scan covers. -/
theorem edged_of_hits {word : Char → Bool} {p : Pattern} (hp : 0 < p.least)
    (hstart : ∀ j n, Hit word p s (j + 1) n → covered word p s j = false →
      has isAsciiDigit s j = false)
    (hend : ∀ a n, Hit word p s a n → has isCapital s (a + n) = false) :
    Edged (covered word p s) s where
  before j hj hj' := by
    obtain ⟨n, hit⟩ := exists_hit_of_covered_succ hp hj' hj
    exact hstart j n hit hj
  after j hj hj' := by
    obtain ⟨a, n, hit, ha⟩ := exists_hit_of_not_covered_succ hp hj hj'
    rw [← ha]
    exact hend a n hit

/-- If the larger class fails, so does the smaller. -/
theorem has_false_mono {cls cls' : Char → Bool} (h : ∀ c, cls c = true → cls' c = true) {i : ℕ}
    (hi : has cls' s i = false) : has cls s i = false := by
  by_contra hcls
  rw [has_mono h (by simpa using hcls)] at hi
  cases hi

theorem edged_mrz (words : Words) (s : Str) : Edged (covered words.isWord mrzLineRe s) s :=
  edged_of_hits (by decide)
    (fun _ _ hit _ => has_false_mono (fun _ => isMrzChar_of_isAsciiDigit)
      (hit.before_of_many (by decide)))
    (fun _ _ hit => has_false_mono (fun _ => isMrzChar_of_isCapital) hit.after_of_many)

theorem edged_between {body : Pattern} (hsolid : Solid words.isWord '*' body) (s : Str) :
    Edged (covered words.isWord (.between body) s) s :=
  edged_of_hits hsolid.least_pos
    (fun _ _ hit _ => has_false_mono (fun _ => words.of_isAsciiDigit)
      (hsolid.mem_between.mp hit.mem).2.1)
    (fun _ _ hit => has_false_mono (fun _ => words.of_isCapital)
      (hsolid.mem_between.mp hit.mem).2.2)

theorem edged_email (words : Words) (s : Str) : Edged (covered words.isWord emailRe s) s :=
  edged_of_hits (by decide)
    (fun _ _ hit hcov => has_false_mono (fun _ => isLocalChar_of_isAsciiDigit)
      (hit.before_of_seq hcov))
    (fun _ _ hit => has_false_mono (fun _ => isLetter_of_isCapital) (email_after hit))

/-- What two passes strike out one after the other has such edges if each has them. -/
theorem Edged.comp (hC : Edged C s) (hD : Edged D (strike '*' C s)) :
    Edged (fun j => C j || D j) s where
  before j hj hj' := by
    simp only [Bool.or_eq_false_iff] at hj
    rcases Bool.or_eq_true _ _ |>.mp hj' with h | h
    · exact hC.before j hj.1 h
    · have hdigit := hD.before j hj.2 h
      rw [has_strike (by decide), hj.1] at hdigit
      simpa using hdigit
  after j hj hj' := by
    simp only [Bool.or_eq_false_iff] at hj'
    rcases Bool.or_eq_true _ _ |>.mp hj with h | h
    · exact hC.after j h hj'.1
    · have hcapital := hD.after j h hj'.2
      rw [has_strike (by decide), hj'.1] at hcapital
      simpa using hcapital

/-- Striking out such stretches makes no new passport number. -/
theorem Edged.passport (hC : Edged C s) {i n : ℕ}
    (h : n ∈ lengths words.isWord passportRe (strike '*' C s) i) :
    n ∈ lengths words.isWord passportRe s i := by
  have hsolid := passport_solid words
  obtain ⟨hbody, hfree⟩ :=
    (mem_lengths_strike hsolid.plain hsolid.avoids).mp (hsolid.mem_between.mp h).1
  have hpos := hsolid.pos hbody
  apply hsolid.mem_of_strike h
  · rintro j rfl
    by_contra hj
    have hcapital := hC.after j (by simpa using hj) (hfree (j + 1) le_rfl (by omega))
    rw [passportBody_first hbody] at hcapital
    cases hcapital
  · by_contra hj
    have hdigit := passportBody_last hbody
    obtain ⟨k, hk⟩ : ∃ k, i + n = k + 1 := ⟨i + n - 1, by omega⟩
    rw [hk] at hj hdigit
    have hbefore := hC.before k (hfree k (by omega) (by omega)) (by simpa using hj)
    rw [hasBefore, hbefore] at hdigit
    cases hdigit

end Edges

end Hawiya
