import Hawiya.Lib.CheckDigit
import Hawiya.MrzLayout

/-!
# Check digits as weighted sums

Over the MRZ alphabet the check digit of a field is a weighted sum of the values of its characters
modulo ten. A field of line 2 and the check character after it make a flag; the composite flag is
about three stretches of the line. `Readable` lines are those all of whose check digits can be
computed and compared.
-/

namespace Hawiya.Mrz
open PyString Calendar Validators

def weight (i : ℕ) : ℕ := weights.getD (i % weights.length) 0

theorem weight_coprime (i : ℕ) : Nat.Coprime 10 (weight i) := by
  have hlt : i % 3 < 3 := Nat.mod_lt _ (by omega)
  change Nat.Coprime 10 ([7, 3, 1].getD (i % 3) 0)
  generalize i % 3 = j at hlt
  interval_cases j <;> decide

/-- The value of a character of the alphabet, and zero for others. -/
def value (c : Char) : ℕ :=
  match charValue c with
  | .ok v => v
  | .error _ => 0

/-- The characters that are read in a check column. -/
def IsCheckChar (c : Char) : Prop := c = '<' ∨ ('0' ≤ c ∧ c ≤ '9')

instance (c : Char) : Decidable (IsCheckChar c) := inferInstanceAs (Decidable (_ ∨ _))

theorem IsCheckChar.mrz {c : Char} (h : IsCheckChar c) : IsMrzChar c := by
  rcases h with h | h
  · exact .inl h
  · exact .inr (.inl h)

theorem charValue_eq {c : Char} (h : IsMrzChar c) : charValue c = .ok (value c) := by
  obtain ⟨v, hv⟩ := (charValue_isOk_iff c).mpr h
  unfold value
  rw [hv]

theorem charValue_error {c : Char} (h : ¬ IsMrzChar c) :
    ∃ m, charValue c = .error (.valueError m) := by
  unfold IsMrzChar at h
  rw [not_or, not_or] at h
  have hfiller : c ≠ filler := h.1
  unfold charValue
  rw [if_neg hfiller, if_neg h.2.1, if_neg h.2.2]
  exact ⟨_, rfl⟩

theorem parseCheckDigit_eq {c : Char} (h : IsCheckChar c) : parseCheckDigit c = .ok (value c) := by
  rw [← charValue_eq h.mrz]
  unfold parseCheckDigit charValue
  by_cases hfiller : c = filler
  · rw [if_pos hfiller, if_pos hfiller]
  · have hdigit : '0' ≤ c ∧ c ≤ '9' := h.resolve_left hfiller
    rw [if_neg hfiller, if_neg hfiller, if_pos hdigit, if_pos hdigit]

theorem parseCheckDigit_error {c : Char} (h : ¬ IsCheckChar c) :
    ∃ m, parseCheckDigit c = .error (.valueError m) := by
  unfold IsCheckChar at h
  rw [not_or] at h
  have hfiller : c ≠ filler := h.1
  unfold parseCheckDigit
  rw [if_neg hfiller, if_neg h.2]
  exact ⟨_, rfl⟩

theorem value_lt_ten {c : Char} (h : IsCheckChar c) : value c < 10 := by
  rcases h with rfl | ⟨h₀, h₉⟩
  · decide
  · obtain ⟨d, hd, rfl⟩ := digitChar_toNat_sub h₀ h₉
    interval_cases d <;> decide

/-- The check digit of a field of the alphabet. -/
def digitOf (s : Str) : ℕ := CheckDigit.total weight 0 (s.map value) % 10

theorem weightedTotal_eq {s : Str} (h : ∀ c ∈ s, IsMrzChar c) (i : ℕ) :
    weightedTotal i s = .ok (CheckDigit.total weight i (s.map value)) := by
  induction s generalizing i with
  | nil => rfl
  | cons c s ih =>
    have hhead := charValue_eq (h c (List.mem_cons_self ..))
    have htail := ih (fun d hd => h d (List.mem_cons_of_mem _ hd)) (i + 1)
    rw [weightedTotal, hhead, except_ok_bind, htail]
    rfl

theorem weightedTotal_error {s : Str} (h : ¬ ∀ c ∈ s, IsMrzChar c) (i : ℕ) :
    ∃ m, weightedTotal i s = .error (.valueError m) := by
  induction s generalizing i with
  | nil => exact absurd (fun c hc => absurd hc List.not_mem_nil) h
  | cons c s ih =>
    rw [weightedTotal]
    by_cases hhead : IsMrzChar c
    · have htail : ¬ ∀ d ∈ s, IsMrzChar d := by
        intro hs
        refine h (fun d hd => ?_)
        rcases List.mem_cons.mp hd with rfl | hd
        · exact hhead
        · exact hs d hd
      obtain ⟨m, hm⟩ := ih htail (i + 1)
      exact ⟨m, by rw [charValue_eq hhead, except_ok_bind, hm, except_error_bind]⟩
    · obtain ⟨m, hm⟩ := charValue_error hhead
      exact ⟨m, by rw [hm, except_error_bind]⟩

theorem computeCheckDigit_eq {s : Str} (h : ∀ c ∈ s, IsMrzChar c) :
    computeCheckDigit s = .ok (digitOf s) := by
  rw [computeCheckDigit, weightedTotal_eq h, except_ok_bind]
  rfl

theorem computeCheckDigit_error {s : Str} (h : ¬ ∀ c ∈ s, IsMrzChar c) :
    ∃ m, computeCheckDigit s = .error (.valueError m) := by
  obtain ⟨m, hm⟩ := weightedTotal_error h 0
  exact ⟨m, by rw [computeCheckDigit, hm, except_error_bind]⟩

theorem verify_eq {s : Str} {c : Char} (hs : ∀ d ∈ s, IsMrzChar d) (hc : IsCheckChar c) :
    verify s c = .ok (digitOf s == value c) := by
  rw [verify, computeCheckDigit_eq hs, except_ok_bind, parseCheckDigit_eq hc, except_ok_bind]

theorem verify_error {s : Str} {c : Char} (h : ¬ ((∀ d ∈ s, IsMrzChar d) ∧ IsCheckChar c)) :
    ∃ m, verify s c = .error (.valueError m) := by
  rw [verify]
  by_cases hs : ∀ d ∈ s, IsMrzChar d
  · obtain ⟨m, hm⟩ := parseCheckDigit_error (fun hc => h ⟨hs, hc⟩)
    exact ⟨m, by rw [computeCheckDigit_eq hs, except_ok_bind, hm, except_error_bind]⟩
  · obtain ⟨m, hm⟩ := computeCheckDigit_error hs
    exact ⟨m, by rw [hm, except_error_bind]⟩

/-- The field in these columns against the check character after them. -/
def fieldFlag (start stop : ℕ) (line2 : Str) : Bool :=
  digitOf (slice start stop line2) == value (line2.getD stop '<')

/-- What the composite check digit is about. -/
def compositeOf (line2 : Str) : Str := slice 0 10 line2 ++ slice 13 20 line2 ++ slice 21 43 line2

def compositeFlag (line2 : Str) : Bool :=
  (digitOf (compositeOf line2) : ℤ) == parseCheckForComposite (line2.getD 43 '<')

def reportOf (line2 : Str) : ChecksumReport where
  doc_number := fieldFlag 0 9 line2
  dob := fieldFlag 13 19 line2
  expiry := fieldFlag 21 27 line2
  personal := fieldFlag 28 42 line2
  composite := compositeFlag line2

/-- The columns of the checked fields and their check columns hold characters that count. -/
structure Readable (line2 : Str) : Prop where
  data : ∀ c ∈ slice 0 9 line2 ++ slice 13 19 line2 ++ slice 21 27 line2 ++ slice 28 42 line2,
    IsMrzChar c
  checks : ∀ i ∈ [9, 19, 27, 42], ∀ c, line2[i]? = some c → IsCheckChar c

/-- The blocks of two lines of the right length. -/
def Blocks.ofLines (line1 line2 : Str) (h₁ : line1.length = 44) (h₂ : line2.length = 44) :
    Blocks where
  document_type := slice 0 2 line1
  issuing_country := slice 2 5 line1
  name := slice 5 44 line1
  doc_number := slice 0 9 line2
  doc_number_check := line2.getD 9 '<'
  nationality := slice 10 13 line2
  dob := slice 13 19 line2
  dob_check := line2.getD 19 '<'
  sex := line2.getD 20 '<'
  expiry := slice 21 27 line2
  expiry_check := line2.getD 27 '<'
  personal := slice 28 42 line2
  personal_check := line2.getD 42 '<'
  composite_check := line2.getD 43 '<'
  length_document_type := length_slice (by omega)
  length_issuing_country := length_slice (by omega)
  length_name := length_slice (by omega)
  length_doc_number := length_slice (by omega)
  length_nationality := length_slice (by omega)
  length_dob := length_slice (by omega)
  length_expiry := length_slice (by omega)
  length_personal := length_slice (by omega)

variable {line1 line2 : Str} (h₁ : line1.length = 44) (h₂ : line2.length = 44)

theorem line1_ofLines : (Blocks.ofLines line1 line2 h₁ h₂).line1 = line1 := by
  unfold Blocks.line1 Blocks.ofLines
  simp only [slice_append_slice (show 0 ≤ 2 by omega) (show 2 ≤ 5 by omega),
    slice_append_slice (show 0 ≤ 5 by omega) (show 5 ≤ 44 by omega), slice_all h₁]

theorem line2_ofLines : (Blocks.ofLines line1 line2 h₁ h₂).line2 = line2 := by
  have hone : ∀ i < 44, [line2.getD i '<'] = slice i (i + 1) line2 :=
    fun i hi => (slice_one (by omega) '<').symm
  unfold Blocks.line2 Blocks.ofLines
  simp only [hone 9 (by omega), hone 19 (by omega), hone 20 (by omega), hone 27 (by omega),
    hone 42 (by omega), hone 43 (by omega)]
  have hjoin : ∀ b c, b ≤ c → slice 0 b line2 ++ slice b c line2 = slice 0 c line2 :=
    fun b c h => slice_append_slice (Nat.zero_le b) h line2
  rw [hjoin 9 10 (by omega), hjoin 10 13 (by omega), hjoin 13 19 (by omega), hjoin 19 20 (by omega),
    hjoin 20 21 (by omega), hjoin 21 27 (by omega), hjoin 27 28 (by omega), hjoin 28 42 (by omega),
    hjoin 42 43 (by omega), hjoin 43 44 (by omega), slice_all h₂]

theorem composite_ofLines : (Blocks.ofLines line1 line2 h₁ h₂).composite = compositeOf line2 := by
  have hone : ∀ i < 44, [line2.getD i '<'] = slice i (i + 1) line2 :=
    fun i hi => (slice_one (by omega) '<').symm
  unfold Blocks.composite Blocks.ofLines compositeOf
  simp only [hone 9 (by omega), hone 19 (by omega), hone 27 (by omega), hone 42 (by omega)]
  rw [slice_append_slice (show 0 ≤ 9 by omega) (show 9 ≤ 10 by omega)]
  simp only [List.append_assoc, slice_append_slice (show 13 ≤ 19 by omega) (show 19 ≤ 20 by omega),
    slice_append_slice (show 28 ≤ 42 by omega) (show 42 ≤ 43 by omega),
    slice_append_slice (show 27 ≤ 28 by omega) (show 28 ≤ 43 by omega),
    slice_append_slice (show 21 ≤ 27 by omega) (show 27 ≤ 43 by omega)]

end Hawiya.Mrz
