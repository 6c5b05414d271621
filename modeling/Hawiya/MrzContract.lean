import Hawiya.MrzChecks
import Hawiya.MrzRoundTrip

/-!
# What the parser raises

The docstring of the parser promises that it raises on a wrong length only. It keeps this promise on
the lines that are `Readable`: a character that has no value, or a letter in a check column, raises
a `ValueError` of the check-digit helpers instead of turning a flag off.
-/

namespace Hawiya.Mrz
open PyString Calendar Validators MrzRoundTrip

/-- A check that cannot be made fails. -/
def flagOf (r : Except PyError Bool) : Bool :=
  match r with
  | .ok b => b
  | .error _ => false

/-- A date that cannot be read is absent. -/
def dateOf (r : Except PyError (Option Date)) : Option Date :=
  match r with
  | .ok d => d
  | .error _ => none

def compositeCheck (line2 : Str) : Except PyError Bool := do
  let composite ← computeCheckDigit (compositeOf line2)
  return (composite : ℤ) == parseCheckForComposite (line2.getD 43 '<')

/-- What the contract of `parse_td3` describes for two lines of 44 characters: every field is read,
and what is wrong in one shows in its flag or its date. -/
def describedResult (today : Date) (line1 line2 : Str) : ParsedMRZ where
  document_type := rstripChar '<' (slice 0 2 line1)
  issuing_country := slice 2 5 line1
  surname := (parseName (slice 5 44 line1)).1
  given_names := (parseName (slice 5 44 line1)).2
  document_number := rstripChar '<' (slice 0 9 line2)
  nationality := slice 10 13 line2
  date_of_birth := dateOf (parseDob today (slice 13 19 line2))
  sex := parseSex (line2.getD 20 '<')
  date_of_expiry := dateOf (parseExpiry (slice 21 27 line2))
  personal_number := rstripChar '<' (slice 28 42 line2)
  checksums := {
    doc_number := flagOf (verify (slice 0 9 line2) (line2.getD 9 '<'))
    dob := flagOf (verify (slice 13 19 line2) (line2.getD 19 '<'))
    expiry := flagOf (verify (slice 21 27 line2) (line2.getD 27 '<'))
    personal := flagOf (verify (slice 28 42 line2) (line2.getD 42 '<'))
    composite := flagOf (compositeCheck line2) }
  raw_line_1 := line1
  raw_line_2 := line2

/-- The contract of `parse_td3` at two lines. -/
def KeepsContract (today : Date) (line1 line2 : Str) : Prop :=
  ((∃ m, parseTd3 today line1 line2 = .error (.mrzFormatError m)) ↔
    line1.length ≠ 44 ∨ line2.length ≠ 44) ∧
  (line1.length = 44 → line2.length = 44 →
    parseTd3 today line1 line2 = .ok (describedResult today line1 line2))

theorem mrz_digit {c : Char} (h : IsMrzChar c) (hdigit : isdigitChar c = true) : IsAsciiDigit c := by
  rcases h with rfl | h | ⟨hlo, hhi⟩
  · exact absurd hdigit (by decide)
  · exact h
  · have hletter : ∀ n, 65 ≤ n → n ≤ 90 → isdigitChar (Char.ofNat n) = false :=
      fun n h₁ h₂ => by interval_cases n <;> decide
    rw [of_between (P := fun c => isdigitChar c = false) hletter hlo hhi] at hdigit
    cases hdigit

theorem digits_of_mrz {raw : Str} (h : ∀ c ∈ raw, IsMrzChar c) (hdigit : isdigit raw = true) :
    ∀ c ∈ raw, IsAsciiDigit c := by
  unfold isdigit at hdigit
  rw [Bool.and_eq_true, List.all_eq_true] at hdigit
  exact fun c hc => mrz_digit (h c hc) (hdigit.2 c hc)

theorem parseDob_isOk (today : Date) {raw : Str} (hlength : raw.length = 6)
    (h : ∀ c ∈ raw, IsMrzChar c) : ∃ d, parseDob today raw = .ok d := by
  by_cases hdigit : isdigit raw = true
  · obtain ⟨o, ho, -⟩ := parseDob_spells today hlength (digits_of_mrz h hdigit)
    exact ⟨o, ho⟩
  · exact ⟨none, by simp [parseDob, hdigit]⟩

theorem parseExpiry_isOk {raw : Str} (hlength : raw.length = 6) (h : ∀ c ∈ raw, IsMrzChar c) :
    ∃ d, parseExpiry raw = .ok d := by
  by_cases hdigit : isdigit raw = true
  · obtain ⟨o, ho, -⟩ := parseExpiry_spells hlength (digits_of_mrz h hdigit)
    exact ⟨o, ho⟩
  · exact ⟨none, by simp [parseExpiry, hdigit]⟩

/-- Whatever is raised is a plain `ValueError`. -/
def OnlyValueError {α : Type} (r : Except PyError α) : Prop :=
  ∀ e, r = .error e → ∃ m, e = .valueError m

section OnlyValueError
variable {α β : Type}

theorem onlyValueError_ok (a : α) : OnlyValueError (.ok a) := nofun

theorem onlyValueError_of {r : Except PyError α}
    (h : (∃ a, r = .ok a) ∨ ∃ m, r = .error (.valueError m)) : OnlyValueError r := by
  rintro e rfl
  rcases h with ⟨a, ha⟩ | ⟨m, hm⟩
  · cases ha
  · exact ⟨m, Except.error.inj hm⟩

theorem onlyValueError_bind {r : Except PyError α} {f : α → Except PyError β}
    (hr : OnlyValueError r) (hf : ∀ a, OnlyValueError (f a)) : OnlyValueError (r >>= f) := by
  cases r with
  | ok a => exact hf a
  | error e =>
    rintro _ ⟨⟩
    exact hr e rfl

theorem onlyValueError_int (s : Str) : OnlyValueError (int s) := by
  unfold int
  cases int? s with
  | some n => exact onlyValueError_ok n
  | none => exact onlyValueError_of (.inr ⟨_, rfl⟩)

theorem onlyValueError_date {raw : Str} {f : ℕ → ℕ → ℕ → Option Date} :
    OnlyValueError (do
      let yy ← int (slice 0 2 raw)
      let mm ← int (slice 2 4 raw)
      let dd ← int (slice 4 6 raw)
      .ok (f yy mm dd)) :=
  onlyValueError_bind (onlyValueError_int _) (fun _ =>
    onlyValueError_bind (onlyValueError_int _) (fun _ =>
      onlyValueError_bind (onlyValueError_int _) (fun _ => onlyValueError_ok _)))

theorem onlyValueError_parseDob (today : Date) (raw : Str) : OnlyValueError (parseDob today raw) := by
  unfold parseDob
  by_cases hdigit : (!isdigit raw) = true
  · rw [if_pos hdigit]
    exact onlyValueError_ok none
  · rw [if_neg hdigit]
    exact onlyValueError_date

theorem onlyValueError_parseExpiry (raw : Str) : OnlyValueError (parseExpiry raw) := by
  unfold parseExpiry
  by_cases hdigit : (!isdigit raw) = true
  · rw [if_pos hdigit]
    exact onlyValueError_ok none
  · rw [if_neg hdigit]
    exact onlyValueError_date

theorem onlyValueError_verify (s : Str) (c : Char) : OnlyValueError (verify s c) := by
  by_cases h : (∀ d ∈ s, IsMrzChar d) ∧ IsCheckChar c
  · exact onlyValueError_of (.inl ⟨_, verify_eq h.1 h.2⟩)
  · exact onlyValueError_of (.inr (verify_error h))

theorem onlyValueError_computeCheckDigit (s : Str) : OnlyValueError (computeCheckDigit s) := by
  by_cases h : ∀ d ∈ s, IsMrzChar d
  · exact onlyValueError_of (.inl ⟨_, computeCheckDigit_eq h⟩)
  · exact onlyValueError_of (.inr (computeCheckDigit_error h))

theorem onlyValueError_parseBlocks (today : Date) (b : Blocks) :
    OnlyValueError (parseBlocks today b) :=
  onlyValueError_bind (onlyValueError_parseDob today _) (fun _ =>
    onlyValueError_bind (onlyValueError_parseExpiry _) (fun _ =>
      onlyValueError_bind (onlyValueError_verify _ _) (fun _ =>
        onlyValueError_bind (onlyValueError_verify _ _) (fun _ =>
          onlyValueError_bind (onlyValueError_verify _ _) (fun _ =>
            onlyValueError_bind (onlyValueError_verify _ _) (fun _ =>
              onlyValueError_bind (onlyValueError_computeCheckDigit _) (fun _ =>
                onlyValueError_ok _)))))))

end OnlyValueError

section Lines
variable {today : Date} {line1 line2 : Str}

theorem parseTd3_ofLines (today : Date) (h₁ : line1.length = 44) (h₂ : line2.length = 44) :
    parseTd3 today line1 line2 = parseBlocks today (Blocks.ofLines line1 line2 h₁ h₂) := by
  have h := parseTd3_lines today (Blocks.ofLines line1 line2 h₁ h₂)
  rwa [line1_ofLines, line2_ofLines] at h

theorem parseTd3_of_length (today : Date) (h : line1.length ≠ 44 ∨ line2.length ≠ 44) :
    ∃ m, parseTd3 today line1 line2 = .error (.mrzFormatError m) := by
  by_cases h₁ : line1.length ≠ 44
  · have hline1 : line1.length ≠ td3LineLength := h₁
    exact ⟨_, by rw [parseTd3, if_pos hline1]; rfl⟩
  · have hline1 : ¬ line1.length ≠ td3LineLength := h₁
    have hline2 : line2.length ≠ td3LineLength := h.resolve_left h₁
    exact ⟨_, by rw [parseTd3, if_neg hline1, if_pos hline2]; rfl⟩

theorem readable_iff (h₂ : line2.length = 44) : Readable line2 ↔
    ((∀ c ∈ slice 0 9 line2, IsMrzChar c) ∧ IsCheckChar (line2.getD 9 '<')) ∧
    ((∀ c ∈ slice 13 19 line2, IsMrzChar c) ∧ IsCheckChar (line2.getD 19 '<')) ∧
    ((∀ c ∈ slice 21 27 line2, IsMrzChar c) ∧ IsCheckChar (line2.getD 27 '<')) ∧
    ((∀ c ∈ slice 28 42 line2, IsMrzChar c) ∧ IsCheckChar (line2.getD 42 '<')) := by
  have hget : ∀ i < 44, ∀ c, line2[i]? = some c ↔ line2.getD i '<' = c := by
    intro i hi c
    have hlt : i < line2.length := by omega
    simp [hlt]
  constructor
  · rintro ⟨hdata, hchecks⟩
    simp only [List.mem_append] at hdata
    refine ⟨⟨fun c hc => hdata c (.inl (.inl (.inl hc))), ?_⟩,
      ⟨fun c hc => hdata c (.inl (.inl (.inr hc))), ?_⟩,
      ⟨fun c hc => hdata c (.inl (.inr hc)), ?_⟩, ⟨fun c hc => hdata c (.inr hc), ?_⟩⟩
    · exact hchecks 9 (by simp) _ ((hget 9 (by omega) _).mpr rfl)
    · exact hchecks 19 (by simp) _ ((hget 19 (by omega) _).mpr rfl)
    · exact hchecks 27 (by simp) _ ((hget 27 (by omega) _).mpr rfl)
    · exact hchecks 42 (by simp) _ ((hget 42 (by omega) _).mpr rfl)
  · rintro ⟨⟨hdoc, hdoc'⟩, ⟨hdob, hdob'⟩, ⟨hexpiry, hexpiry'⟩, hpersonal, hpersonal'⟩
    refine ⟨fun c hc => ?_, fun i hi c hc => ?_⟩
    · simp only [List.mem_append] at hc
      rcases hc with ((hc | hc) | hc) | hc
      · exact hdoc c hc
      · exact hdob c hc
      · exact hexpiry c hc
      · exact hpersonal c hc
    · simp only [List.mem_cons, List.not_mem_nil, or_false] at hi
      rcases hi with rfl | rfl | rfl | rfl
      · exact (hget 9 (by omega) c).mp hc ▸ hdoc'
      · exact (hget 19 (by omega) c).mp hc ▸ hdob'
      · exact (hget 27 (by omega) c).mp hc ▸ hexpiry'
      · exact (hget 42 (by omega) c).mp hc ▸ hpersonal'

theorem compositeOf_mrz (h₁ : line1.length = 44) (h₂ : line2.length = 44) (h : Readable line2) :
    ∀ c ∈ compositeOf line2, IsMrzChar c := by
  obtain ⟨⟨hdoc, hdoc'⟩, ⟨hdob, hdob'⟩, ⟨hexpiry, hexpiry'⟩, hpersonal, hpersonal'⟩ :=
    (readable_iff h₂).mp h
  intro c hc
  rw [← composite_ofLines h₁ h₂] at hc
  simp only [Blocks.composite, Blocks.ofLines, List.mem_append, List.mem_singleton] at hc
  rcases hc with ((((((hc | rfl) | hc) | rfl) | hc) | rfl) | hc) | rfl
  · exact hdoc c hc
  · exact hdoc'.mrz
  · exact hdob c hc
  · exact hdob'.mrz
  · exact hexpiry c hc
  · exact hexpiry'.mrz
  · exact hpersonal c hc
  · exact hpersonal'.mrz

theorem parseTd3_of_readable (today : Date) (h₁ : line1.length = 44) (h₂ : line2.length = 44)
    (h : Readable line2) :
    parseTd3 today line1 line2 = .ok (describedResult today line1 line2) := by
  have hcomposite := computeCheckDigit_eq (compositeOf_mrz h₁ h₂ h)
  obtain ⟨⟨hdoc, hdoc'⟩, ⟨hdob, hdob'⟩, ⟨hexpiry, hexpiry'⟩, hpersonal, hpersonal'⟩ :=
    (readable_iff h₂).mp h
  obtain ⟨birth, hbirth⟩ := parseDob_isOk today (length_slice (by omega)) hdob
  obtain ⟨expires, hexpires⟩ := parseExpiry_isOk (length_slice (by omega)) hexpiry
  have hblocks := composite_ofLines h₁ h₂
  rw [parseTd3_ofLines today h₁ h₂, parseBlocks, hblocks, hcomposite, line1_ofLines, line2_ofLines]
  simp only [Blocks.ofLines, hbirth, hexpires, verify_eq hdoc hdoc', verify_eq hdob hdob',
    verify_eq hexpiry hexpiry', verify_eq hpersonal hpersonal', except_ok_bind, except_pure,
    describedResult, dateOf, flagOf, compositeCheck, hcomposite]

theorem verify_of_ok {s : Str} {c : Char} {b : Bool} (h : verify s c = .ok b) :
    (∀ d ∈ s, IsMrzChar d) ∧ IsCheckChar c := by
  by_contra hnot
  obtain ⟨m, hm⟩ := verify_error hnot
  rw [hm] at h
  cases h

theorem readable_of_ok {p : ParsedMRZ} (h₁ : line1.length = 44) (h₂ : line2.length = 44)
    (h : parseTd3 today line1 line2 = .ok p) : Readable line2 := by
  rw [parseTd3_ofLines today h₁ h₂, parseBlocks] at h
  obtain ⟨_, -, h⟩ := except_bind_eq_ok.mp h
  obtain ⟨_, -, h⟩ := except_bind_eq_ok.mp h
  obtain ⟨_, hdoc, h⟩ := except_bind_eq_ok.mp h
  obtain ⟨_, hdob, h⟩ := except_bind_eq_ok.mp h
  obtain ⟨_, hexpiry, h⟩ := except_bind_eq_ok.mp h
  obtain ⟨_, hpersonal, -⟩ := except_bind_eq_ok.mp h
  exact (readable_iff h₂).mpr ⟨verify_of_ok hdoc, verify_of_ok hdob, verify_of_ok hexpiry,
    verify_of_ok hpersonal⟩

end Lines

/-- The parser keeps its contract exactly at lines of another length and at readable ones. -/
theorem keepsContract_iff (today : Date) (line1 line2 : Str) :
    KeepsContract today line1 line2 ↔
      (line1.length = 44 → line2.length = 44 → Readable line2) := by
  by_cases hlength : line1.length = 44 ∧ line2.length = 44
  · obtain ⟨h₁, h₂⟩ := hlength
    have hvalue : ¬ ∃ m, parseTd3 today line1 line2 = .error (.mrzFormatError m) := by
      rintro ⟨m, hm⟩
      rw [parseTd3_ofLines today h₁ h₂] at hm
      obtain ⟨m', hm'⟩ := onlyValueError_parseBlocks today _ _ hm
      cases hm'
    constructor
    · intro h _ _
      exact readable_of_ok h₁ h₂ (h.2 h₁ h₂)
    · intro h
      refine ⟨iff_of_false hvalue (by simp [h₁, h₂]), fun _ _ => ?_⟩
      exact parseTd3_of_readable today h₁ h₂ (h h₁ h₂)
  · rw [Classical.not_and_iff_not_or_not] at hlength
    refine iff_of_true ⟨iff_of_true (parseTd3_of_length today hlength) hlength, ?_⟩ ?_
    · exact fun h₁ h₂ => absurd hlength (by simp [h₁, h₂])
    · exact fun h₁ h₂ => absurd hlength (by simp [h₁, h₂])

namespace Misread

def today : Date := ⟨2026, 5, 5, by decide⟩

def line1 : Str := "P<AREALMANSOORI<<MOHAMED<<<<<<<<<<<<<<<<<<<<".toList

/-- A letter is read for the check digit of the document number. -/
def line2 : Str := "P1234567<LARE9001125M3001019<<<<<<<<<<<<<<04".toList

/-- A letter in a check column of 44 characters raises a plain `ValueError`. -/
theorem check_digit_raises :
    parseTd3 today line1 line2 =
      .error (.valueError "check digit must be 0-9 or '<', got 'L'") ∧
      ¬ KeepsContract today line1 line2 := by
  have hraises : parseTd3 today line1 line2 =
      .error (.valueError "check digit must be 0-9 or '<', got 'L'") := by
    decide +kernel
  refine ⟨hraises, fun h => ?_⟩
  have hreturns := h.2 (by decide) (by decide)
  rw [hraises] at hreturns
  cases hreturns

end Misread
end Hawiya.Mrz
