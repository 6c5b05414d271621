import Hawiya.RedactedValues

/-!
# Which matches are redacted as a whole

A match of a pattern in the original string vanishes if no character of the redacted string comes
from it. MRZ lines and passport numbers always vanish. An e-mail address is left in part when a
passport number or an MRZ line was taken out of it and the rest is no e-mail address any more, and
a date when an earlier pass took some of its characters. `noneInPart_iff` says exactly when neither
happens: a later pass never makes up for what an earlier one has left of a match.
-/

namespace Hawiya

open PyString Regex

section Definitions
variable (words : Words) (s : Str)

/-- No character of the redacted string comes from the `n` positions of `s` from `a` on. The string is
redacted with its positions attached; without them, that is `redactString` (`chars_redactText`). -/
def Vanishes (a n : ℕ) : Prop :=
  ∀ i, a ≤ i → i < a + n →
    some i ∉ (redactText words Prod.fst (foreign redacted) (tagged s)).map Prod.snd

def NoneInPart : Prop :=
  ∀ p ∈ piiPatterns, ∀ a n, Hit words.isWord p s a n → Vanishes words s a n

/-- Position `j` belongs to an MRZ line or to a passport number of the string. -/
def identified (j : ℕ) : Bool :=
  covered words.isWord mrzLineRe s j || covered words.isWord passportRe s j

/-- Or it belongs to an e-mail address of the string with the former struck out. -/
def addressed (j : ℕ) : Bool :=
  identified words s j || covered words.isWord emailRe (strike '*' (identified words s) s) j

end Definitions

section Passes
variable {words : Words} {s : Str}

theorem covered_passport_iff {t : Str} {j : ℕ} :
    covered words.isWord passportRe t j = true ↔
      ∃ a n, n ∈ lengths words.isWord passportRe t a ∧ a ≤ j ∧ j < a + n := by
  rw [covered_iff (by decide)]
  constructor
  · rintro ⟨a, n, hit, hj⟩
    exact ⟨a, n, hit.mem, hj⟩
  · rintro ⟨a, n, hn, hj⟩
    exact ⟨a, n, passport_hit hn, hj⟩

theorem passport_in_mrz {a n i : ℕ} (h : n ∈ lengths words.isWord passportRe s a)
    (hi : a ≤ i ∧ i < a + n) (hmrz : mrzTaken words s i = true) :
    ∀ j, a ≤ j → j < a + n → mrzTaken words s j = true := by
  obtain ⟨b, m, hit, hb⟩ := (covered_iff (p := mrzLineRe) (by decide)).mp hmrz
  have hbody := ((passport_solid words).mem_between.mp h).1
  have hfilled : Filled isMrzChar s a (a + n) :=
    filled_passportBody (fun _ => isMrzChar_of_isCapital) (fun _ => isMrzChar_of_isAsciiDigit) hbody
  obtain ⟨hleft, hright⟩ :=
    hfilled.inside (hit.before_of_many (by decide)) hit.after_of_many hb hi
  intro j hj hj'
  exact hit.covers ⟨by omega, by omega⟩

theorem passportTaken_eq : passportTaken words s = identified words s := by
  funext j
  rw [Bool.eq_iff_iff]
  simp only [passportTaken, identified, Bool.or_eq_true]
  constructor
  · rintro (hmrz | hpassport)
    · exact Or.inl hmrz
    · obtain ⟨a, n, hn, hj⟩ := covered_passport_iff.mp hpassport
      exact Or.inr (covered_passport_iff.mpr ⟨a, n, (edged_mrz words s).passport hn, hj⟩)
  · rintro (hmrz | hpassport)
    · exact Or.inl hmrz
    · obtain ⟨a, n, hn, hj⟩ := covered_passport_iff.mp hpassport
      by_cases htouched : ∃ i, (a ≤ i ∧ i < a + n) ∧ mrzTaken words s i = true
      · obtain ⟨i, hi, hmrz⟩ := htouched
        exact Or.inl (passport_in_mrz hn hi hmrz j hj.1 hj.2)
      · have hfree : ∀ i, a ≤ i → i < a + n → mrzTaken words s i = false := by
          intro i hi hi'
          by_contra hmrz
          exact htouched ⟨i, ⟨hi, hi'⟩, by simpa using hmrz⟩
        exact Or.inr (covered_passport_iff.mpr ⟨a, n, (passport_solid words).mem_strike hn hfree, hj⟩)

theorem emailTaken_eq : emailTaken words s = addressed words s := by
  funext j
  rw [emailTaken, addressed, passportTaken_eq]

theorem edged_emailTaken : Edged (emailTaken words s) s := by
  have hpassport : Edged (passportTaken words s) s :=
    (edged_mrz words s).comp (edged_between (passport_solid words) _)
  exact hpassport.comp (edged_email words _)

theorem vanishes_iff {p : Pattern} (hp : p ∈ piiPatterns) {a n : ℕ}
    (h : n ∈ lengths words.isWord p s a) :
    Vanishes words s a n ↔ ∀ i, a ≤ i → i < a + n → taken words s i = true := by
  have hinert := inert words p hp
  have hlen : a + n ≤ s.length := add_le_length hinert.avoids h (hinert.pos.trans_le (least_le h))
  simp only [Vanishes, renders_redactText.mem_origins]
  constructor
  · intro hgone i hi hi'
    by_contra htaken
    exact hgone i hi hi' ⟨Nat.zero_le i, by omega, by simpa using htaken⟩
  · rintro htaken i hi hi' ⟨-, -, hfree⟩
    rw [htaken i hi hi'] at hfree
    cases hfree

end Passes

section Residues
variable {words : Words} {s : Str}

theorem isDecimal_of_isLetter {c : Char} (h : isLetter c = true) : isDecimal c = false := by
  by_contra hdecimal
  have hdigit := isAsciiDigit_of_isDecimal (lt_of_isLocalChar (isLocalChar_of_isLetter h))
    (by simpa using hdecimal)
  have hle : c.toNat ≤ 57 := (isAsciiDigit_iff.mp hdigit).2
  simp only [isLetter, isCapital, Bool.or_eq_true, Bool.and_eq_true, decide_eq_true_eq] at h
  rcases h with h | h
  · have hge : 65 ≤ c.toNat := h.1
    omega
  · have hge : 97 ≤ c.toNat := h.1
    omega

theorem IsDate.no_letter {a n i : ℕ} (h : IsDate s a n) (hi : a ≤ i ∧ i < a + n) :
    has isLetter s i = false := by
  obtain rfl := h.length
  obtain ⟨k, rfl⟩ : ∃ k, i = a + k := ⟨i - a, by omega⟩
  by_cases hk : k = 4 ∨ k = 7
  · exact has_disjoint (fun c hc => by rw [beq_iff_eq.mp hc]; decide) (h.dash k hk)
  · by_contra hletter
    have hdecimal := has_disjoint (fun _ => isDecimal_of_isLetter) (by simpa using hletter)
    rw [h.decimal k (by omega) (by omega) (by omega)] at hdecimal
    cases hdecimal

theorem IsDate.of_strike {C : ℕ → Bool} {a n : ℕ} (h : IsDate (strike '*' C s) a n) :
    IsDate s a n ∧ ∀ i, a ≤ i → i < a + n → C i = false := by
  have hcolumns := fun k hk h4 h7 => has_of_strike (h.decimal k hk h4 h7) (by decide +kernel)
  have hdashes := fun k hk => has_of_strike (h.dash k hk) (by decide)
  refine ⟨⟨h.length, fun k hk => (has_of_strike (h.ascii k hk) (by decide)).2,
    fun k hk h4 h7 => (hcolumns k hk h4 h7).2, fun k hk => (hdashes k hk).2⟩, fun i hi hi' => ?_⟩
  obtain ⟨k, rfl⟩ : ∃ k, i = a + k := ⟨i - a, by omega⟩
  have hlength := h.length
  by_cases hk : k = 4 ∨ k = 7
  · exact (hdashes k hk).1
  · exact (hcolumns k (by omega) (by omega) (by omega)).1

/-- What the date pass finds: a date of the string that no earlier pass has touched, with no word
character of what is left behind it. -/
theorem exists_date_of_taken {i : ℕ} (h : taken words s i = true)
    (hi : emailTaken words s i = false) :
    ∃ d, Hit words.isWord dateRe (strike '*' (emailTaken words s) s) d 10 ∧ (d ≤ i ∧ i < d + 10) ∧
      IsDate s d 10 ∧ (∀ j, d ≤ j → j < d + 10 → emailTaken words s j = false) ∧
      (emailTaken words s (d + 10) = true ∨ has words.isWord s (d + 10) = false) := by
  rw [taken, hi, Bool.false_or] at h
  obtain ⟨d, n, hit, hd⟩ := (covered_iff (p := dateRe) (date_solid words).least_pos).mp h
  obtain ⟨hbody, -, hafter⟩ := (date_solid words).mem_between.mp hit.mem
  obtain ⟨hdate, hfree⟩ := (isDate_of_mem hbody).of_strike
  obtain rfl := hdate.length
  refine ⟨d, hit, hd, hdate, hfree, ?_⟩
  rw [has_strike words.star, Bool.and_eq_false_iff, Bool.not_eq_false'] at hafter
  exact hafter

theorem email_goes_on {a n d i : ℕ} (hn : n ∈ lengths words.isWord emailRe s a)
    (hdate : IsDate s d 10) (hi : a ≤ i ∧ i < a + n) (hd : d ≤ i ∧ i < d + 10) : d + 10 < a + n := by
  obtain ⟨-, -, -, hlast⟩ := exists_of_mem_email hn
  by_contra hle
  obtain ⟨k, hk⟩ : ∃ k, a + n = k + 1 := ⟨a + n - 1, by omega⟩
  rw [hk, hasBefore, hdate.no_letter (by omega)] at hlast
  cases hlast

theorem lt_of_isEmailChar {c : Char} (h : isEmailChar c = true) : c.toNat < 128 := by
  rcases Bool.or_eq_true _ _ |>.mp h with h | h
  · exact lt_of_isLocalChar h
  · rw [beq_iff_eq.mp h]
    decide

theorem digit_of_email {i : ℕ} (hdecimal : has isDecimal s i = true)
    (hemail : has isEmailChar s i = true) : has isAsciiDigit s i = true := by
  obtain ⟨c, hc, hdecimal⟩ := has_eq_true.mp hdecimal
  obtain ⟨c', hc', hemail⟩ := has_eq_true.mp hemail
  rw [hc, Option.some.injEq] at hc'
  subst hc'
  exact has_eq_true.mpr ⟨c, hc, isAsciiDigit_of_isDecimal (lt_of_isEmailChar hemail) hdecimal⟩

/-- The date pass does not complete the redaction of an e-mail address: behind the date it takes
out of it, a character of the address is left. -/
theorem email_addressed {a n : ℕ} (hn : n ∈ lengths words.isWord emailRe s a)
    (htaken : ∀ i, a ≤ i → i < a + n → taken words s i = true) :
    ∀ i, a ≤ i → i < a + n → emailTaken words s i = true := by
  intro i hi hi'
  by_contra hleft
  obtain ⟨d, hit, hd, hdate, hfree, hafter⟩ :=
    exists_date_of_taken (htaken i hi hi') (by simpa using hleft)
  have hbehind := email_goes_on hn hdate ⟨hi, hi'⟩ hd
  obtain ⟨-, -, hchars, -⟩ := exists_of_mem_email hn
  have hdigit := digit_of_email (hdate.decimal 9 (by omega) (by omega) (by omega))
    (hchars (d + 9) (by omega) (by omega))
  have hnext : emailTaken words s (d + 10) = false := by
    by_contra hnext
    have hbefore := edged_emailTaken.before (d + 9) (hfree (d + 9) (by omega) (by omega))
      (by simpa using hnext)
    rw [hdigit] at hbefore
    cases hbefore
  -- a date that begins there would begin with a word character, which none is behind a date
  obtain ⟨d', hit', hd', hdate', -, -⟩ :=
    exists_date_of_taken (htaken (d + 10) (by omega) hbehind) hnext
  have hword := hafter.resolve_left (by rw [hnext]; decide)
  rcases lt_trichotomy d d' with hlt | heq | hlt
  · have hend := hit.not_inside hit' hlt
    obtain rfl : d' = d + 10 := by omega
    have hfirst := has_mono words.decimal (hdate'.decimal 0 (by omega) (by omega) (by omega))
    rw [Nat.add_zero, hword] at hfirst
    cases hfirst
  · omega
  · have hend := hit'.not_inside hit hlt
    omega

/-- Where an earlier pass has taken a part of a date, the date pass does not take the rest: another
date would have to overlap this one. -/
theorem date_whole {a n : ℕ} (hn : n ∈ lengths words.isWord dateRe s a)
    (htaken : ∀ i, a ≤ i → i < a + n → taken words s i = true) {i j : ℕ}
    (hi : a ≤ i ∧ i < a + n) (hi' : emailTaken words s i = true) (hj : a ≤ j ∧ j < a + n) :
    emailTaken words s j = true := by
  by_contra hleft
  obtain ⟨d, hit, hd, hdate, hfree, hafter⟩ :=
    exists_date_of_taken (htaken j hj.1 hj.2) (by simpa using hleft)
  obtain ⟨hbody, -, hend⟩ := (date_solid words).mem_between.mp hn
  have hdate₀ := isDate_of_mem hbody
  obtain rfl := hdate₀.length
  rcases lt_trichotomy a d with hlt | rfl | hlt
  · have hapart := hdate₀.apart hdate hlt
    have hdigit := has_mono words.decimal
      (hdate.decimal (a + 10 - d) (by omega) (by omega) (by omega))
    rw [Nat.add_sub_cancel' (by omega), hend] at hdigit
    cases hdigit
  · rw [hfree i hi.1 hi.2] at hi'
    cases hi'
  · have hapart := hdate.apart hdate₀ hlt
    have hword := has_mono words.decimal
      (hdate₀.decimal (d + 10 - a) (by omega) (by omega) (by omega))
    have hascii := hdate₀.ascii (d + 9 - a) (by omega)
    rw [Nat.add_sub_cancel' (by omega)] at hword hascii
    have hnext := hafter.resolve_right (by rw [hword]; decide)
    have hbefore := edged_emailTaken.before (d + 9) (hfree (d + 9) (by omega) (by omega)) hnext
    rw [hascii] at hbefore
    cases hbefore

theorem date_taken {a n : ℕ} (hn : n ∈ lengths words.isWord dateRe s a)
    (hfree : ∀ i, a ≤ i → i < a + n → emailTaken words s i = false) :
    ∀ i, a ≤ i → i < a + n → taken words s i = true := by
  have hmem := (date_solid words).mem_strike hn hfree
  intro i hi hi'
  rw [taken, (date_hit hmem).covers ⟨hi, hi'⟩, Bool.or_true]

end Residues

/-- No match is left in part if and only if each e-mail address of the string lies in MRZ lines,
passport numbers and the e-mail addresses that are left when those are struck out, and each date
lies wholly inside or wholly outside of these. -/
theorem noneInPart_iff (words : Words) (s : Str) :
    NoneInPart words s ↔
      (∀ a n, Hit words.isWord emailRe s a n →
        ∀ i, a ≤ i → i < a + n → addressed words s i = true) ∧
      (∀ a n, Hit words.isWord dateRe s a n →
        (∀ i, a ≤ i → i < a + n → addressed words s i = true) ∨
          (∀ i, a ≤ i → i < a + n → addressed words s i = false)) := by
  have hlater : ∀ i, emailTaken words s i = true → taken words s i = true := fun i hi => by
    rw [taken, hi, Bool.true_or]
  rw [← emailTaken_eq]
  constructor
  · intro h
    have htaken : ∀ p ∈ piiPatterns, ∀ a n, Hit words.isWord p s a n →
        ∀ i, a ≤ i → i < a + n → taken words s i = true := fun p hp a n hit =>
      (vanishes_iff hp hit.mem).mp (h p hp a n hit)
    obtain ⟨-, -, hemail, hdate⟩ := forall_piiPatterns.mp htaken
    refine ⟨fun a n hit => email_addressed hit.mem (hemail a n hit), fun a n hit => ?_⟩
    by_cases htouched : ∃ i, (a ≤ i ∧ i < a + n) ∧ emailTaken words s i = true
    · obtain ⟨i, hi, hi'⟩ := htouched
      exact Or.inl fun j hj hj' => date_whole hit.mem (hdate a n hit) hi hi' ⟨hj, hj'⟩
    · refine Or.inr fun i hi hi' => ?_
      by_contra hi''
      exact htouched ⟨i, ⟨hi, hi'⟩, by simpa using hi''⟩
  · rintro ⟨hemail, hdate⟩
    have htaken : ∀ p ∈ piiPatterns, ∀ a n, Hit words.isWord p s a n →
        ∀ i, a ≤ i → i < a + n → taken words s i = true := by
      refine forall_piiPatterns.mpr ⟨fun a n hit i hi hi' => ?_, fun a n hit i hi hi' => ?_,
        fun a n hit i hi hi' => hlater i (hemail a n hit i hi hi'), fun a n hit => ?_⟩
      · apply hlater
        rw [emailTaken_eq, addressed, identified, hit.covers ⟨hi, hi'⟩, Bool.true_or, Bool.true_or]
      · apply hlater
        rw [emailTaken_eq, addressed, identified, hit.covers ⟨hi, hi'⟩, Bool.or_true, Bool.true_or]
      · rcases hdate a n hit with hinside | houtside
        · exact fun i hi hi' => hlater i (hinside i hi hi')
        · exact date_taken hit.mem houtside
    exact fun p hp a n hit => (vanishes_iff hp hit.mem).mpr (htaken p hp a n hit)

def asciiWords : Words where
  isWord c := isLetter c || isAsciiDigit c || c == '_' || isDecimal c
  ascii c hc := by
    cases hdecimal : isDecimal c with
    | false => rw [Bool.or_false]
    | true => simp [isAsciiDigit_of_isDecimal hc hdecimal]
  decimal c hc := by simp [hc]

theorem address_left_in_part :
    redactString asciiWords "john.AB123456@example.com".toList =
        "john.***REDACTED***@example.com".toList ∧
      ¬ NoneInPart asciiWords "john.AB123456@example.com".toList := by
  refine ⟨by decide +kernel, fun h => ?_⟩
  have hit : Hit asciiWords.isWord emailRe "john.AB123456@example.com".toList 0 25 :=
    ⟨rfl, by decide +kernel⟩
  have hgone := h emailRe (by simp [piiPatterns]) 0 25 hit 0 le_rfl (by decide)
  revert hgone
  decide +kernel

end Hawiya
