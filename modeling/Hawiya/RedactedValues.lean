import Hawiya.PiiPatterns

/-!
# What redaction leaves of a value

The four substitutions are followed by position: `mrzTaken`, `passportTaken`, `emailTaken` and
`taken` are the positions of the original string that the passes have replaced so far, and the
redacted string renders the original with these struck out (`renders_redactText`). No pass makes a
match of an earlier pattern: the MRZ line and the e-mail address have no word boundary, and the
passport number has capitals and digits at its ends, next to which nothing is struck out.
-/

namespace Hawiya

open PyString Regex

section Passes
variable (words : Words) (s : Str)

/-- The patterns of `_redact_string`, in its order. -/
def piiPatterns : List Pattern := [mrzLineRe, passportRe, emailRe, dateRe]

def mrzTaken : ℕ → Bool := covered words.isWord mrzLineRe s

def passportTaken (j : ℕ) : Bool :=
  mrzTaken words s j || covered words.isWord passportRe (strike '*' (mrzTaken words s) s) j

def emailTaken (j : ℕ) : Bool :=
  passportTaken words s j || covered words.isWord emailRe (strike '*' (passportTaken words s) s) j

def taken (j : ℕ) : Bool :=
  emailTaken words s j || covered words.isWord dateRe (strike '*' (emailTaken words s) s) j

variable {words s}

theorem forall_piiPatterns {P : Pattern → Prop} :
    (∀ p ∈ piiPatterns, P p) ↔ P mrzLineRe ∧ P passportRe ∧ P emailRe ∧ P dateRe := by
  simp [piiPatterns]

/-- In `REDACTED` the stars stand outside and no pattern matches. -/
theorem inert_of_clear {p : Pattern} (havoids : p.avoids '*' = true) (hpos : 0 < p.least)
    (h : ∀ i n, n ∉ lengths words.isWord p redacted i) : Inert words.isWord '*' redacted p where
  nonword := words.star
  avoids := havoids
  pos := hpos
  first := by decide
  last := by decide
  clear := clear_iff.mpr h

theorem no_digit_redacted (i : ℕ) : has isAsciiDigit redacted i = false :=
  has_false_of_all (by decide) i

theorem inert_mrz (words : Words) : Inert words.isWord '*' redacted mrzLineRe := by
  have havoids : mrzLineRe.avoids '*' = true := by decide
  refine inert_of_clear havoids (by decide) fun i n hn => ?_
  have hlong : 30 ≤ n := least_le hn
  have hlen := add_le_length havoids hn (by omega)
  have hshort : redacted.length = 14 := by decide
  omega

theorem inert_passport (words : Words) : Inert words.isWord '*' redacted passportRe := by
  refine inert_of_clear (by decide) (by decide) fun i n hn => ?_
  have hbody := ((passport_solid words).mem_between.mp hn).1
  have hpos := (passport_solid words).pos hbody
  have hlast := passportBody_last hbody
  obtain ⟨k, hk⟩ : ∃ k, i + n = k + 1 := ⟨i + n - 1, by omega⟩
  rw [hk, hasBefore, no_digit_redacted] at hlast
  cases hlast

theorem inert_email (words : Words) : Inert words.isWord '*' redacted emailRe := by
  refine inert_of_clear (by decide) (by decide) fun i n hn => ?_
  obtain ⟨⟨k, hk⟩, -⟩ := exists_of_mem_email hn
  rw [has_false_of_all (by decide)] at hk
  cases hk

theorem inert_date (words : Words) : Inert words.isWord '*' redacted dateRe := by
  refine inert_of_clear (by decide) (by decide) fun i n hn => ?_
  have hfirst := (isDate_of_mem ((date_solid words).mem_between.mp hn).1).ascii 0 (by omega)
  rw [no_digit_redacted] at hfirst
  cases hfirst

theorem inert (words : Words) : ∀ p ∈ piiPatterns, Inert words.isWord '*' redacted p :=
  forall_piiPatterns.mpr ⟨inert_mrz words, inert_passport words, inert_email words, inert_date words⟩

/-- The redacted string renders the original one with the positions struck out that were taken. -/
theorem renders_redactText :
    Renders redacted (taken words s) s 0
      (redactText words Prod.fst (foreign redacted) (tagged s)) := by
  have hmrz := (renders_tagged s).sub (inert_mrz words)
  simp only [strike_none, Bool.false_or] at hmrz
  have hpassport := hmrz.sub (inert_passport words)
  have hemail := hpassport.sub (inert_email words)
  exact hemail.sub (inert_date words)

/-- On the characters alone, that is `_redact_string`. -/
theorem chars_redactText :
    Tagged.chars (redactText words Prod.fst (foreign redacted) (tagged s)) =
      redactString words s := by
  have hmarker : (foreign redacted).map Prod.fst = redacted := by decide
  have hchars : (tagged s).map Prod.fst = s := chars_tagged s
  simp only [Tagged.chars, redactText, redactString]
  rw [map_sub Prod.fst Prod.fst id fun _ => rfl, map_sub Prod.fst Prod.fst id fun _ => rfl,
    map_sub Prod.fst Prod.fst id fun _ => rfl, map_sub Prod.fst Prod.fst id fun _ => rfl, hmarker,
    hchars]

theorem strike_passportTaken :
    strike '*' (covered words.isWord passportRe (strike '*' (mrzTaken words s) s))
      (strike '*' (mrzTaken words s) s) = strike '*' (passportTaken words s) s :=
  strike_strike

theorem strike_emailTaken :
    strike '*' (covered words.isWord emailRe (strike '*' (passportTaken words s) s))
      (strike '*' (passportTaken words s) s) = strike '*' (emailTaken words s) s :=
  strike_strike

theorem strike_taken :
    strike '*' (covered words.isWord dateRe (strike '*' (emailTaken words s) s))
      (strike '*' (emailTaken words s) s) = strike '*' (taken words s) s :=
  strike_strike

theorem Edged.clear_passport {C : ℕ → Bool} {t : Str} (hC : Edged C t)
    (h : Clear words.isWord passportRe t) : Clear words.isWord passportRe (strike '*' C t) :=
  clear_iff.mpr fun i n hn => clear_iff.mp h i n (hC.passport hn)

theorem clear_mrz_taken : Clear words.isWord mrzLineRe (strike '*' (taken words s) s) := by
  have hplain : mrzLineRe.plain = true := by decide
  have havoids := (inert_mrz words).avoids
  have hmrz : Clear words.isWord mrzLineRe (strike '*' (mrzTaken words s) s) :=
    clear_strike hplain havoids (by decide)
  rw [← strike_taken, ← strike_emailTaken, ← strike_passportTaken]
  exact ((hmrz.strike hplain havoids).strike hplain havoids).strike hplain havoids

theorem clear_passport_taken : Clear words.isWord passportRe (strike '*' (taken words s) s) := by
  have hpassport : Clear words.isWord passportRe (strike '*' (passportTaken words s) s) := by
    rw [← strike_passportTaken]
    exact (passport_solid words).clear_strike
  have hemail : Clear words.isWord passportRe (strike '*' (emailTaken words s) s) := by
    rw [← strike_emailTaken]
    exact (edged_email words _).clear_passport hpassport
  rw [← strike_taken]
  exact (edged_between (date_solid words) _).clear_passport hemail

theorem clear_email_taken : Clear words.isWord emailRe (strike '*' (taken words s) s) := by
  have hplain : emailRe.plain = true := by decide
  have havoids := (inert_email words).avoids
  have hemail : Clear words.isWord emailRe (strike '*' (emailTaken words s) s) := by
    rw [← strike_emailTaken]
    exact clear_strike hplain havoids (by decide)
  rw [← strike_taken]
  exact hemail.strike hplain havoids

theorem clear_date_taken : Clear words.isWord dateRe (strike '*' (taken words s) s) := by
  rw [← strike_taken]
  exact (date_solid words).clear_strike

/-- A redacted string has no match of any of the four patterns. -/
theorem clear_redactString : ∀ p ∈ piiPatterns, Clear words.isWord p (redactString words s) := by
  rw [← chars_redactText]
  exact forall_piiPatterns.mpr ⟨renders_redactText.clear (inert_mrz words) clear_mrz_taken,
    renders_redactText.clear (inert_passport words) clear_passport_taken,
    renders_redactText.clear (inert_email words) clear_email_taken,
    renders_redactText.clear (inert_date words) clear_date_taken⟩

/-- `s'` is `s` with a marker for each stretch that the passes take, and the rest as it was. -/
def Struck (words : Words) (s s' : Str) : Prop :=
  ∃ x, Renders redacted (taken words s) s 0 x ∧ Tagged.chars x = s'

theorem struck_redactString : Struck words s (redactString words s) :=
  ⟨_, renders_redactText, chars_redactText⟩

end Passes

section Values
variable (words : Words) (lower : Str → Str) {σ : Type}

/-- `v'` has the shape of `v`: the same keys in the same order, the same lengths, the same scalars
and for each string the string with its matches struck out, except that the marker stands for
whatever a sensitive key had. -/
inductive Redacts : PyValue σ → PyValue σ → Prop
  | mapping {n : ℕ} {key : Fin n → Str} {distinct : Function.Injective key}
      {value value' : Fin n → PyValue σ}
      (sensitive : ∀ k, lower (key k) ∈ sensitiveKeys → value' k = .str redacted)
      (other : ∀ k, lower (key k) ∉ sensitiveKeys → Redacts (value k) (value' k)) :
      Redacts (.mapping n key distinct value) (.mapping n key distinct value')
  | list {n : ℕ} {item item' : Fin n → PyValue σ} (h : ∀ k, Redacts (item k) (item' k)) :
      Redacts (.list n item) (.list n item')
  | tuple {n : ℕ} {item item' : Fin n → PyValue σ} (h : ∀ k, Redacts (item k) (item' k)) :
      Redacts (.tuple n item) (.tuple n item')
  | str {s s' : Str} (h : Struck words s s') : Redacts (.str s) (.str s')
  | scalar (x : σ) : Redacts (.scalar x) (.scalar x)

/-- No string value, at any depth, has a match of any of the four patterns. -/
def Matchless : PyValue σ → Prop
  | .mapping _ _ _ value => ∀ k, Matchless (value k)
  | .list _ item => ∀ k, Matchless (item k)
  | .tuple _ item => ∀ k, Matchless (item k)
  | .str s => ∀ p ∈ piiPatterns, Clear words.isWord p s
  | .scalar _ => True

variable {words lower}

theorem isSensitiveKey_iff (key : Str) :
    isSensitiveKey lower key = true ↔ lower key ∈ sensitiveKeys := by
  simp [isSensitiveKey]

theorem redacts_redactPii (v : PyValue σ) : Redacts words lower v (redactPii words lower v) := by
  induction v with
  | mapping n key distinct value ih =>
    refine Redacts.mapping (fun k hk => ?_) fun k hk => ?_
    · rw [← isSensitiveKey_iff] at hk
      rw [if_pos hk]
    · rw [← isSensitiveKey_iff] at hk
      rw [if_neg hk]
      exact ih k
  | list n item ih => exact Redacts.list ih
  | tuple n item ih => exact Redacts.tuple ih
  | str s => exact Redacts.str struck_redactString
  | scalar x => exact Redacts.scalar x

theorem matchless_redactPii (v : PyValue σ) : Matchless words (redactPii words lower v) := by
  induction v with
  | mapping n key distinct value ih =>
    intro k
    beta_reduce
    by_cases hk : isSensitiveKey lower (key k) = true
    · rw [if_pos hk]
      exact fun p hp => (inert words p hp).clear
    · rw [if_neg hk]
      exact ih k
  | list n item ih => exact ih
  | tuple n item ih => exact ih
  | str s => exact clear_redactString
  | scalar x => trivial

/-- Where no pattern matches, there is nothing to redact. -/
theorem redactString_of_clear {s : Str} (h : ∀ p ∈ piiPatterns, Clear words.isWord p s) :
    redactString words s = s := by
  have hsub : ∀ p ∈ piiPatterns, sub words.isWord p id redacted s = s := fun p hp =>
    sub_of_clear (by simpa using h p hp)
  obtain ⟨hmrz, hpassport, hemail, hdate⟩ := forall_piiPatterns.mp hsub
  simp only [redactString, redactText, hmrz, hpassport, hemail, hdate]

/-- What has been redacted is its own redaction. -/
theorem redactPii_of_redacts {v v' : PyValue σ} (h : Redacts words lower v v')
    (hv' : Matchless words v') : redactPii words lower v' = v' := by
  induction h with
  | @mapping n key distinct value value' sensitive other ih =>
    rw [redactPii]
    congr 1
    funext k
    by_cases hk : isSensitiveKey lower (key k) = true
    · rw [if_pos hk, sensitive k ((isSensitiveKey_iff _).mp hk)]
    · rw [if_neg hk]
      rw [isSensitiveKey_iff] at hk
      exact ih k hk (hv' k)
  | list h ih =>
    rw [redactPii]
    congr 1
    funext k
    exact ih k (hv' k)
  | tuple h ih =>
    rw [redactPii]
    congr 1
    funext k
    exact ih k (hv' k)
  | str h => rw [redactPii, redactString_of_clear hv']
  | scalar x => rfl

/-- `redact_pii` keeps the shape of a value, has the marker under every sensitive key and in each
string for what the passes take, leaves no match of a pattern in any string and changes nothing when
it is applied again. A string without a match stays as it is. -/
theorem redactPii_redacts (words : Words) (lower : Str → Str) (v : PyValue σ) :
    Redacts words lower v (redactPii words lower v) ∧ Matchless words (redactPii words lower v) ∧
      redactPii words lower (redactPii words lower v) = redactPii words lower v ∧
      ∀ s : Str, (∀ p ∈ piiPatterns, Clear words.isWord p s) →
        redactPii words lower (.str s : PyValue σ) = .str s := by
  refine ⟨redacts_redactPii v, matchless_redactPii v,
    redactPii_of_redacts (redacts_redactPii v) (matchless_redactPii v), fun s hs => ?_⟩
  rw [redactPii, redactString_of_clear hs]

end Values

end Hawiya
