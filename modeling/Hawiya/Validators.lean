import Hawiya.Types

/-!
# ICAO 9303 check digits

The weighted sum behind all five passport checksums, and the positions of the TD3 fields in the
88 characters of the two lines.
-/

namespace Hawiya.Validators
open PyString

def weights : List ℕ := [7, 3, 1]

def filler : Char := '<'

def td3DocNumber (full : Str) : Str := slice 44 53 full
def td3DocNumberCheck : ℕ := 53
def td3Dob (full : Str) : Str := slice 57 63 full
def td3DobCheck : ℕ := 63
def td3Expiry (full : Str) : Str := slice 65 71 full
def td3ExpiryCheck : ℕ := 71
def td3Personal (full : Str) : Str := slice 72 86 full
def td3PersonalCheck : ℕ := 86
def td3CompositeCheck : ℕ := 87

/-- `repr` of a character, where those beyond ASCII are printable. -/
def charRepr (ch : Char) : String := String.ofList (strRepr (fun _ => true) [ch])

/-- The value of one character. Callers iterate a string, so the length check of the source never
fires and `ch` is a character. -/
def charValue (ch : Char) : Except PyError ℕ :=
  if ch = filler then .ok 0
  else if '0' ≤ ch ∧ ch ≤ '9' then .ok (ch.toNat - '0'.toNat)
  else if 'A' ≤ ch ∧ ch ≤ 'Z' then .ok (ch.toNat - 'A'.toNat + 10)
  else .error (.valueError ("invalid MRZ character: " ++ charRepr ch))

/-- The loop of `compute_check_digit` from position `i` on. -/
def weightedTotal : ℕ → Str → Except PyError ℕ
  | _, [] => .ok 0
  | i, ch :: rest => do
      let v ← charValue ch
      let total ← weightedTotal (i + 1) rest
      .ok (v * weights.getD (i % weights.length) 0 + total)

def computeCheckDigit (field : Str) : Except PyError ℕ := do
  let total ← weightedTotal 0 field
  .ok (total % 10)

def parseCheckDigit (ch : Char) : Except PyError ℕ :=
  if ch = filler then .ok 0
  else if '0' ≤ ch ∧ ch ≤ '9' then .ok (ch.toNat - '0'.toNat)
  else .error (.valueError ("check digit must be 0-9 or '<', got " ++ charRepr ch))

def verify (field : Str) (checkDigitChar : Char) : Except PyError Bool := do
  let computed ← computeCheckDigit field
  let given ← parseCheckDigit checkDigitChar
  .ok (computed == given)

/-- The MRZ alphabet `[0-9A-Z<]`. -/
def IsMrzChar (ch : Char) : Prop := ch = '<' ∨ ('0' ≤ ch ∧ ch ≤ '9') ∨ ('A' ≤ ch ∧ ch ≤ 'Z')

instance (ch : Char) : Decidable (IsMrzChar ch) := inferInstanceAs (Decidable (_ ∨ _ ∨ _))

theorem charValue_isOk_iff (ch : Char) : (∃ v, charValue ch = .ok v) ↔ IsMrzChar ch := by
  unfold charValue IsMrzChar filler
  split_ifs with h₁ h₂ h₃
  · simp [h₁]
  · simp [h₂]
  · simp [h₃]
  · simp [h₁, h₂, h₃]

theorem not_isspace_of_mrz {c : Char} (h : IsMrzChar c) : isspace c = false := by
  by_contra hspace
  rw [Bool.not_eq_false] at hspace
  simp only [isspace, Bool.or_eq_true, Bool.and_eq_true, decide_eq_true_eq,
    beq_iff_eq] at hspace
  rcases h with rfl | h | h
  · revert hspace
    decide
  · have hlo : 48 ≤ c.toNat := h.1
    have hhi : c.toNat ≤ 57 := h.2
    omega
  · have hlo : 65 ≤ c.toNat := h.1
    have hhi : c.toNat ≤ 90 := h.2
    omega

theorem weightedTotal_isOk {s : Str} (hs : ∀ c ∈ s, IsMrzChar c) (i : ℕ) :
    ∃ n, weightedTotal i s = .ok n := by
  induction s generalizing i with
  | nil => exact ⟨0, rfl⟩
  | cons c rest ih =>
      obtain ⟨v, hv⟩ := (charValue_isOk_iff c).2 (hs c (by simp))
      obtain ⟨n, hn⟩ := ih (fun d hd => hs d (by simp [hd])) (i + 1)
      exact ⟨_, by simp only [weightedTotal, hv, hn, except_ok_bind]; rfl⟩

/-- Over the MRZ alphabet the check digit exists and is a single digit. -/
theorem computeCheckDigit_isOk {s : Str} (hs : ∀ c ∈ s, IsMrzChar c) :
    ∃ d < 10, computeCheckDigit s = .ok d := by
  obtain ⟨n, hn⟩ := weightedTotal_isOk hs 0
  exact ⟨n % 10, Nat.mod_lt _ (by omega), by simp only [computeCheckDigit, hn, except_ok_bind]⟩

theorem digitChar_mrz (d : ℕ) (hd : d < 10) : IsMrzChar (Nat.digitChar d) := by
  interval_cases d <;> decide

theorem parseCheckDigit_digitChar (d : ℕ) (hd : d < 10) :
    parseCheckDigit (Nat.digitChar d) = .ok d := by
  interval_cases d <;> rfl

/-- The digit computed for a field verifies it. -/
theorem verify_computed {s : Str} {d : ℕ} (hd : d < 10) (hs : computeCheckDigit s = .ok d) :
    verify s (Nat.digitChar d) = .ok true := by
  simp only [verify, hs, parseCheckDigit_digitChar d hd, except_ok_bind, beq_self_eq_true]

end Hawiya.Validators
