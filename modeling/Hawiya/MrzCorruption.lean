import Hawiya.MrzContract

/-!
# One character of an MRZ replaced

In lines that pass every check, a character of line 2 is replaced by another. The values of the two
modulo ten and the column decide which flags fall: the weights are units modulo ten, so a changed
value changes the check digit of its field and that of the composite. Line 1 has no check digit.
Neighbours in one field that change places are noticed unless their values agree modulo five.
-/

namespace Hawiya.Mrz
open PyString Calendar Validators

/-- The values of two characters agree modulo ten. -/
def SameValue (c d : Char) : Prop :=
  ∃ v w, charValue c = .ok v ∧ charValue d = .ok w ∧ v % 10 = w % 10

theorem sameValue_iff {c d : Char} (hc : IsMrzChar c) (hd : IsMrzChar d) :
    SameValue c d ↔ value c % 10 = value d % 10 := by
  constructor
  · rintro ⟨v, w, hv, hw, h⟩
    rw [charValue_eq hc] at hv
    rw [charValue_eq hd] at hw
    cases hv
    cases hw
    exact h
  · exact fun h => ⟨_, _, charValue_eq hc, charValue_eq hd, h⟩

/-- What a column may be replaced by and still be read. -/
def Replaceable (i : ℕ) (c : Char) : Prop :=
  IsMrzChar c ∧ (i ∈ [9, 19, 27, 42] → IsCheckChar c) ∧ (i = 43 → '0' ≤ c ∧ c ≤ '9')

/-- The columns of line 2 that no check digit is about. -/
def unchecked : List ℕ := [10, 11, 12, 20]

/-- The flags that a changed value in column `i` leaves. -/
def brokenAt (i : ℕ) : ChecksumReport where
  doc_number := !decide (i ≤ 9)
  dob := !decide (13 ≤ i ∧ i ≤ 19)
  expiry := !decide (21 ≤ i ∧ i ≤ 27)
  personal := !decide (28 ≤ i ∧ i ≤ 42)
  composite := false

theorem brokenAt_status {i : ℕ} (h : i < 44) : (brokenAt i).status = .partialPass := by
  interval_cases i <;> rfl

theorem eq_of_allPass {r : ChecksumReport} (h : r.status = .allPass) :
    r = ⟨true, true, true, true, true⟩ := by
  have hall : [r.doc_number, r.dob, r.expiry, r.personal, r.composite].all id = true := by
    by_contra hnot
    rw [ChecksumReport.status, if_neg hnot] at h
    split_ifs at h
  rcases r with ⟨doc_number, dob, expiry, personal, composite⟩
  simp only [List.all_cons, List.all_nil, id, Bool.and_true, Bool.and_eq_true] at hall
  obtain ⟨rfl, rfl, rfl, rfl, rfl⟩ := hall
  rfl

/-- What the parser reports is read off line 2. -/
theorem checksums_of_ok {today : Date} {line1 line2 : Str} {p : ParsedMRZ}
    (h : parseTd3 today line1 line2 = .ok p) :
    line1.length = 44 ∧ line2.length = 44 ∧ Readable line2 ∧ p.checksums = reportOf line2 := by
  have hlength : line1.length = 44 ∧ line2.length = 44 := by
    by_contra hnot
    obtain ⟨m, hm⟩ := parseTd3_of_length today (Classical.not_and_iff_not_or_not.mp hnot)
    rw [hm] at h
    cases h
  obtain ⟨h₁, h₂⟩ := hlength
  have hreadable := readable_of_ok h₁ h₂ h
  refine ⟨h₁, h₂, hreadable, ?_⟩
  rw [parseTd3_of_readable today h₁ h₂ hreadable] at h
  cases h
  have hcomposite := computeCheckDigit_eq (compositeOf_mrz h₁ h₂ hreadable)
  obtain ⟨⟨hdoc, hdoc'⟩, ⟨hdob, hdob'⟩, ⟨hexpiry, hexpiry'⟩, hpersonal, hpersonal'⟩ :=
    (readable_iff h₂).mp hreadable
  simp only [describedResult, verify_eq hdoc hdoc', verify_eq hdob hdob',
    verify_eq hexpiry hexpiry', verify_eq hpersonal hpersonal', compositeCheck, hcomposite, flagOf,
    except_ok_bind, except_pure]
  rfl

theorem parseTd3_ok (today : Date) {line1 line2 : Str} (h₁ : line1.length = 44)
    (h₂ : line2.length = 44) (h : Readable line2) :
    ∃ p, parseTd3 today line1 line2 = .ok p ∧ p.checksums = reportOf line2 := by
  have hparse := parseTd3_of_readable today h₁ h₂ h
  exact ⟨_, hparse, (checksums_of_ok hparse).2.2.2⟩

theorem digitOf_set {s : Str} {k : ℕ} {c d : Char} (hc : s[k]? = some c) :
    digitOf (s.set k d) = digitOf s ↔ value c % 10 = value d % 10 := by
  obtain ⟨hk, hget⟩ := List.getElem?_eq_some_iff.mp hc
  have hlt : k < (s.map value).length := by rwa [List.length_map]
  have h := CheckDigit.total_set_mod_iff weight weight_coprime 0 k (value d) hlt
  rw [List.getElem_map, hget, ← List.map_set] at h
  exact h

section Set
variable {line2 : Str} {i start stop : ℕ} {c d : Char}

theorem getD_set_ne (h : i ≠ stop) : (line2.set i d).getD stop '<' = line2.getD stop '<' := by
  rw [List.getD_eq_getElem?_getD, List.getD_eq_getElem?_getD, List.getElem?_set_ne h]

theorem getD_set_self (h : line2[i]? = some c) : (line2.set i d).getD i '<' = d := by
  obtain ⟨hlt, -⟩ := List.getElem?_eq_some_iff.mp h
  rw [List.getD_eq_getElem?_getD, List.getElem?_set_self hlt, Option.getD_some]

theorem getD_of_getElem? (h : line2[i]? = some c) : line2.getD i '<' = c := by
  rw [List.getD_eq_getElem?_getD, h, Option.getD_some]

theorem fieldFlag_set_outside (hle : start ≤ stop) (h : i < start ∨ stop < i) :
    fieldFlag start stop (line2.set i d) = fieldFlag start stop line2 := by
  have hdata : i < start ∨ stop ≤ i := by omega
  have hcheck : i ≠ stop := by omega
  rw [fieldFlag, slice_set_of_not_mem hdata, getD_set_ne hcheck, fieldFlag]

theorem fieldFlag_set_inside (h : start ≤ i ∧ i ≤ stop) (hc : line2[i]? = some c)
    (hcheck : i = stop → IsCheckChar c ∧ IsCheckChar d)
    (hflag : fieldFlag start stop line2 = true) :
    fieldFlag start stop (line2.set i d) = decide (value c % 10 = value d % 10) := by
  unfold fieldFlag at hflag ⊢
  rw [beq_iff_eq] at hflag
  rw [Bool.eq_iff_iff, beq_iff_eq, decide_eq_true_eq]
  by_cases hstop : i = stop
  · subst hstop
    obtain ⟨hcc, hcd⟩ := hcheck rfl
    rw [slice_set_of_not_mem (.inr le_rfl), getD_set_self hc, hflag, getD_of_getElem? hc,
      Nat.mod_eq_of_lt (value_lt_ten hcc), Nat.mod_eq_of_lt (value_lt_ten hcd)]
  · have hlt : i < stop := by omega
    have hget : (slice start stop line2)[i - start]? = some c := by
      rw [getElem?_slice, Nat.add_sub_cancel' h.1, if_pos hlt]
      exact hc
    rw [slice_set h.1, getD_set_ne hstop, ← hflag]
    exact digitOf_set hget

def compositePosition (i : ℕ) : ℕ := if i < 10 then i else if i < 20 then i - 3 else i - 4

theorem compositeOf_set_outside (h : i ∈ unchecked ∨ 43 ≤ i) :
    compositeOf (line2.set i d) = compositeOf line2 := by
  have hcases : i = 10 ∨ i = 11 ∨ i = 12 ∨ i = 20 ∨ 43 ≤ i := by
    rcases h with h | h
    · simp only [unchecked, List.mem_cons, List.not_mem_nil, or_false] at h
      omega
    · omega
  rw [compositeOf, slice_set_of_not_mem (by omega), slice_set_of_not_mem (by omega),
    slice_set_of_not_mem (by omega), compositeOf]

theorem compositeOf_set (hlength : line2.length = 44) (h : i < 43) (hfree : i ∉ unchecked)
    (hc : line2[i]? = some c) :
    compositeOf (line2.set i d) = (compositeOf line2).set (compositePosition i) d ∧
      (compositeOf line2)[compositePosition i]? = some c := by
  have hfirst : (slice 0 10 line2).length = 10 := length_slice (by omega)
  have hsecond : (slice 13 20 line2).length = 7 := length_slice (by omega)
  have hcolumns : i < 10 ∨ (13 ≤ i ∧ i < 20) ∨ (21 ≤ i ∧ i < 43) := by
    simp only [unchecked, List.mem_cons, List.not_mem_nil, or_false] at hfree
    omega
  unfold compositeOf compositePosition
  rcases hcolumns with hi | ⟨hlo, hhi⟩ | ⟨hlo, hhi⟩
  · rw [if_pos hi, slice_set (Nat.zero_le i), slice_set_of_not_mem (by omega),
      slice_set_of_not_mem (by omega), List.append_assoc, List.append_assoc,
      List.set_append_left _ _ (by omega), List.getElem?_append_left (by omega), getElem?_slice,
      Nat.zero_add, if_pos hi]
    exact ⟨rfl, hc⟩
  · rw [if_neg (by omega), if_pos hhi, slice_set hlo, slice_set_of_not_mem (by omega),
      slice_set_of_not_mem (by omega), List.append_assoc, List.append_assoc,
      List.set_append_right _ _ (by omega), List.set_append_left _ _ (by omega),
      List.getElem?_append_right (by omega), List.getElem?_append_left (by omega), getElem?_slice,
      hfirst]
    have hposition : i - 3 - 10 = i - 13 := by omega
    have hcolumn : 13 + (i - 13) = i := by omega
    rw [hposition, hcolumn, if_pos hhi]
    exact ⟨rfl, hc⟩
  · rw [if_neg (by omega), if_neg (by omega), slice_set hlo, slice_set_of_not_mem (by omega),
      slice_set_of_not_mem (by omega), List.append_assoc, List.append_assoc,
      List.set_append_right _ _ (by omega), List.set_append_right _ _ (by omega),
      List.getElem?_append_right (by omega), List.getElem?_append_right (by omega), getElem?_slice,
      hfirst, hsecond]
    have hposition : i - 4 - 10 - 7 = i - 21 := by omega
    have hcolumn : 21 + (i - 21) = i := by omega
    rw [hposition, hcolumn, if_pos hhi]
    exact ⟨rfl, hc⟩

theorem parseCheckForComposite_eq {c : Char} (h : '0' ≤ c ∧ c ≤ '9') :
    parseCheckForComposite c = value c := by
  obtain ⟨d, hd, rfl⟩ := digitChar_toNat_sub h.1 h.2
  interval_cases d <;> rfl

theorem digit_of_compositeFlag (h : compositeFlag line2 = true) :
    '0' ≤ line2.getD 43 '<' ∧ line2.getD 43 '<' ≤ '9' := by
  unfold compositeFlag parseCheckForComposite at h
  by_contra hdigit
  rw [if_neg hdigit, beq_iff_eq] at h
  omega

theorem compositeFlag_set_outside (h : i ∈ unchecked) :
    compositeFlag (line2.set i d) = compositeFlag line2 := by
  have hne : i ≠ 43 := by
    rintro rfl
    exact absurd h (by decide)
  rw [compositeFlag, compositeOf_set_outside (.inl h), getD_set_ne hne, compositeFlag]

theorem compositeFlag_set (hlength : line2.length = 44) (hi : i < 44) (hfree : i ∉ unchecked)
    (hc : line2[i]? = some c) (hd : i = 43 → '0' ≤ d ∧ d ≤ '9')
    (hflag : compositeFlag line2 = true) :
    compositeFlag (line2.set i d) = decide (value c % 10 = value d % 10) := by
  have hdigit := digit_of_compositeFlag hflag
  unfold compositeFlag at hflag ⊢
  rw [beq_iff_eq] at hflag
  rw [Bool.eq_iff_iff, beq_iff_eq, decide_eq_true_eq]
  by_cases hlast : i = 43
  · subst hlast
    rw [getD_of_getElem? hc] at hdigit hflag
    have hcc : IsCheckChar c := .inr hdigit
    have hcd : IsCheckChar d := .inr (hd rfl)
    rw [compositeOf_set_outside (.inr le_rfl), getD_set_self hc, hflag,
      parseCheckForComposite_eq hdigit, parseCheckForComposite_eq (hd rfl),
      Nat.mod_eq_of_lt (value_lt_ten hcc), Nat.mod_eq_of_lt (value_lt_ten hcd), Nat.cast_inj]
  · obtain ⟨hset, hget⟩ := compositeOf_set (d := d) hlength (by omega) hfree hc
    rw [hset, getD_set_ne hlast, ← hflag, Nat.cast_inj]
    exact digitOf_set hget

end Set

section Report
variable {line2 : Str} {i : ℕ} {c d : Char}

theorem readable_set (hlength : line2.length = 44) (h : Readable line2)
    (hd : Replaceable i d) : Readable (line2.set i d) := by
  have hslice : ∀ a b, (∀ c ∈ slice a b line2, IsMrzChar c) →
      ∀ c ∈ slice a b (line2.set i d), IsMrzChar c := by
    intro a b hall c hc
    obtain ⟨k, ha, hb, hk⟩ := mem_slice.mp hc
    by_cases hik : i = k
    · subst hik
      obtain ⟨hlt, hget⟩ := List.getElem?_eq_some_iff.mp hk
      rw [List.getElem_set_self] at hget
      exact hget ▸ hd.1
    · rw [List.getElem?_set_ne hik] at hk
      exact hall c (mem_slice.mpr ⟨k, ha, hb, hk⟩)
  have hcheck : ∀ k ∈ [9, 19, 27, 42], IsCheckChar (line2.getD k '<') →
      IsCheckChar ((line2.set i d).getD k '<') := by
    intro k hk hold
    by_cases hik : i = k
    · subst hik
      have hlt : i < line2.length := by
        simp only [List.mem_cons, List.not_mem_nil, or_false] at hk
        omega
      rw [getD_set_self (List.getElem?_eq_getElem hlt)]
      exact hd.2.1 hk
    · rwa [getD_set_ne hik]
  obtain ⟨⟨hdoc, hdoc'⟩, ⟨hdob, hdob'⟩, ⟨hexpiry, hexpiry'⟩, hpersonal, hpersonal'⟩ :=
    (readable_iff hlength).mp h
  exact (readable_iff (by rwa [List.length_set])).mpr
    ⟨⟨hslice _ _ hdoc, hcheck 9 (by simp) hdoc'⟩, ⟨hslice _ _ hdob, hcheck 19 (by simp) hdob'⟩,
      ⟨hslice _ _ hexpiry, hcheck 27 (by simp) hexpiry'⟩,
      ⟨hslice _ _ hpersonal, hcheck 42 (by simp) hpersonal'⟩⟩

theorem reportOf_set_unchecked (h : i ∈ unchecked) : reportOf (line2.set i d) = reportOf line2 := by
  have hcases : i = 10 ∨ i = 11 ∨ i = 12 ∨ i = 20 := by
    simpa only [unchecked, List.mem_cons, List.not_mem_nil, or_false] using h
  unfold reportOf
  rw [fieldFlag_set_outside (by omega) (by omega), fieldFlag_set_outside (by omega) (by omega),
    fieldFlag_set_outside (by omega) (by omega), fieldFlag_set_outside (by omega) (by omega),
    compositeFlag_set_outside h]

/-- In a line that passes, a replaced value breaks the flags of its column, or none. -/
theorem reportOf_set (hlength : line2.length = 44) (hreadable : Readable line2)
    (hpass : reportOf line2 = ⟨true, true, true, true, true⟩) (hfree : i ∉ unchecked)
    (hc : line2[i]? = some c) (hd : Replaceable i d) :
    reportOf (line2.set i d) =
      if value c % 10 = value d % 10 then reportOf line2 else brokenAt i := by
  obtain ⟨hlt, -⟩ := List.getElem?_eq_some_iff.mp hc
  rw [hlength] at hlt
  obtain ⟨hdoc, hdob, hexpiry, hpersonal, hcomposite⟩ :
      fieldFlag 0 9 line2 = true ∧ fieldFlag 13 19 line2 = true ∧ fieldFlag 21 27 line2 = true ∧
        fieldFlag 28 42 line2 = true ∧ compositeFlag line2 = true := by
    simpa only [reportOf, ChecksumReport.mk.injEq] using hpass
  -- a field's flag after the change, whether the column is one of its own or not
  have hfield : ∀ start stop, stop ∈ [9, 19, 27, 42] → start ≤ stop →
      fieldFlag start stop line2 = true → fieldFlag start stop (line2.set i d) =
        (decide (value c % 10 = value d % 10) || !decide (start ≤ i ∧ i ≤ stop)) := by
    intro start stop hstop hle hflag
    by_cases hinside : start ≤ i ∧ i ≤ stop
    · have hcheck : i = stop → IsCheckChar c ∧ IsCheckChar d := by
        rintro rfl
        exact ⟨hreadable.checks i hstop c hc, hd.2.1 hstop⟩
      rw [fieldFlag_set_inside hinside hc hcheck hflag, decide_eq_true hinside]
      simp
    · rw [fieldFlag_set_outside hle (by omega), hflag, decide_eq_false hinside]
      simp
  have hlast := compositeFlag_set hlength hlt hfree hc hd.2.2 hcomposite
  rw [hpass]
  unfold reportOf
  rw [hfield 0 9 (by simp) (by omega) hdoc, hfield 13 19 (by simp) (by omega) hdob,
    hfield 21 27 (by simp) (by omega) hexpiry, hfield 28 42 (by simp) (by omega) hpersonal, hlast]
  by_cases hsame : value c % 10 = value d % 10
  · simp [hsame]
  · simp [hsame, brokenAt]

theorem mrz_of_checked {line1 : Str} (h₁ : line1.length = 44) (hlength : line2.length = 44)
    (hreadable : Readable line2) (hcomposite : compositeFlag line2 = true) (hfree : i ∉ unchecked)
    (hc : line2[i]? = some c) : IsMrzChar c := by
  obtain ⟨hlt, -⟩ := List.getElem?_eq_some_iff.mp hc
  by_cases hlast : i = 43
  · subst hlast
    have hdigit := digit_of_compositeFlag hcomposite
    rw [getD_of_getElem? hc] at hdigit
    exact .inr (.inl hdigit)
  · obtain ⟨-, hget⟩ := compositeOf_set (d := c) hlength (by omega) hfree hc
    exact compositeOf_mrz h₁ hlength hreadable c (List.mem_of_getElem? hget)

end Report

/-- In lines that pass every check, any one character of line 2 replaced by another: no flag changes
if the column is unchecked or the values agree modulo ten, and otherwise those of the column fall
and the status is partial. Line 1 may be replaced as a whole. -/
theorem single_replacement (today : Date) (line1 line2 : Str) (p : ParsedMRZ)
    (hparse : parseTd3 today line1 line2 = .ok p) (hpass : p.checksums.status = .allPass) :
    (∀ i c d, line2[i]? = some c → d ≠ c → Replaceable i d →
      ∃ p', parseTd3 today line1 (line2.set i d) = .ok p' ∧
        (i ∈ unchecked ∨ SameValue c d → p'.checksums = p.checksums) ∧
        (i ∉ unchecked → ¬ SameValue c d →
          p'.checksums = brokenAt i ∧ p'.checksums.status = .partialPass)) ∧
    (∀ line1', line1'.length = 44 →
      ∃ p', parseTd3 today line1' line2 = .ok p' ∧ p'.checksums = p.checksums) := by
  obtain ⟨h₁, h₂, hreadable, hreport⟩ := checksums_of_ok hparse
  have hall := eq_of_allPass hpass
  rw [hreport] at hall
  refine ⟨fun i c d hc _ hd => ?_, fun line1' h₁' => ?_⟩
  · obtain ⟨p', hparse', hreport'⟩ := parseTd3_ok today h₁
      (by rwa [List.length_set]) (readable_set h₂ hreadable hd)
    refine ⟨p', hparse', ?_⟩
    rw [hreport', hreport]
    obtain ⟨hlt, -⟩ := List.getElem?_eq_some_iff.mp hc
    by_cases hfree : i ∈ unchecked
    · exact ⟨fun _ => reportOf_set_unchecked hfree, fun h => absurd hfree h⟩
    · have hcomposite : compositeFlag line2 = true := congrArg ChecksumReport.composite hall
      have hmrz := mrz_of_checked h₁ h₂ hreadable hcomposite hfree hc
      rw [sameValue_iff hmrz hd.1, reportOf_set h₂ hreadable hall hfree hc hd]
      constructor
      · intro h
        exact if_pos (h.resolve_left hfree)
      · intro _ hdiffer
        rw [if_neg hdiffer]
        exact ⟨rfl, brokenAt_status (by omega)⟩
  · obtain ⟨p', hparse', hreport'⟩ := parseTd3_ok today h₁' h₂ hreadable
    exact ⟨p', hparse', hreport'.trans hreport.symm⟩

namespace Misread

def printed : Str := "P1234567<1ARE9001125M3001019<<<<<<<<<<<<<<04".toList

theorem readable_printed : Readable printed where
  data := forall_of_all rfl
  checks := by
    intro i hi c hc
    simp only [List.mem_cons, List.not_mem_nil, or_false] at hi
    rcases hi with rfl | rfl | rfl | rfl <;> (cases hc; decide)

theorem single_replacement_printed :
    ∃ p', parseTd3 today line1 (printed.set 0 'Q') = .ok p' ∧
      p'.checksums = ⟨false, true, true, true, false⟩ ∧ p'.checksums.status = .partialPass := by
  have hpass : (parseTd3 today line1 printed).map (fun p => p.checksums.status) = .ok .allPass := by
    decide +kernel
  cases hparse : parseTd3 today line1 printed with
  | error e =>
    rw [hparse] at hpass
    cases hpass
  | ok p =>
    rw [hparse] at hpass
    obtain ⟨hreplaced, -⟩ := single_replacement today line1 printed p hparse (Except.ok.inj hpass)
    obtain ⟨p', hparse', -, hbroken⟩ := hreplaced 0 'P' 'Q' rfl (by decide)
      ⟨by decide, fun h => absurd h (by decide), fun h => absurd h (by decide)⟩
    have hdiffer : ¬ SameValue 'P' 'Q' := by
      rw [sameValue_iff (by decide) (by decide)]
      decide
    exact ⟨p', hparse', hbroken (by decide) hdiffer⟩

end Misread

/-- The weights of neighbours differ by twice a unit modulo five. -/
theorem weight_sub_weight (i : ℕ) :
    ∃ u : ℤ, (weight i : ℤ) - weight (i + 1) = (2 : ℕ) * u ∧ IsCoprime ((5 : ℕ) : ℤ) u := by
  have hlt : i % 3 < 3 := Nat.mod_lt _ (by omega)
  have hnext : (i + 1) % 3 = (i % 3 + 1) % 3 := by omega
  change ∃ u : ℤ, (([7, 3, 1].getD (i % 3) 0 : ℕ) : ℤ) -
    ([7, 3, 1].getD ((i + 1) % 3) 0 : ℕ) = _ ∧ _
  rw [hnext]
  generalize i % 3 = j at hlt
  interval_cases j
  · exact ⟨2, rfl, Int.isCoprime_iff_gcd_eq_one.mpr rfl⟩
  · exact ⟨1, rfl, Int.isCoprime_iff_gcd_eq_one.mpr rfl⟩
  · exact ⟨-3, rfl, Int.isCoprime_iff_gcd_eq_one.mpr rfl⟩

theorem digitOf_swap {s : Str} {k : ℕ} {c d : Char} (hc : s[k]? = some c)
    (hd : s[k + 1]? = some d) :
    digitOf ((s.set k d).set (k + 1) c) = digitOf s ↔ value c % 5 = value d % 5 := by
  obtain ⟨hk, hgetc⟩ := List.getElem?_eq_some_iff.mp hc
  obtain ⟨hk', hgetd⟩ := List.getElem?_eq_some_iff.mp hd
  have hlt : k + 1 < (s.map value).length := by rwa [List.length_map]
  have h := CheckDigit.total_swap_mod_iff weight two_pos weight_sub_weight 0 k hlt
  rw [List.getElem_map, List.getElem_map, hgetc, hgetd, ← List.map_set, ← List.map_set] at h
  exact h

/-- A field and a misreading of it have check digits, which differ exactly when the values of the
two characters differ modulo `n`. -/
def NoticedModulo (n : ℕ) (s misread : Str) (c d : Char) : Prop :=
  ∃ x y v w, computeCheckDigit s = .ok x ∧ computeCheckDigit misread = .ok y ∧
    charValue c = .ok v ∧ charValue d = .ok w ∧ (x ≠ y ↔ v % n ≠ w % n)

theorem mrz_set {s : Str} {d : Char} (hs : ∀ c ∈ s, IsMrzChar c) (hd : IsMrzChar d) (i : ℕ) :
    ∀ c ∈ s.set i d, IsMrzChar c := by
  intro c hc
  rcases List.mem_or_eq_of_mem_set hc with hc | rfl
  · exact hs c hc
  · exact hd

theorem noticedModulo_of_iff {n : ℕ} {s misread : Str} {c d : Char} (hs : ∀ a ∈ s, IsMrzChar a)
    (hmisread : ∀ a ∈ misread, IsMrzChar a) (hc : IsMrzChar c) (hd : IsMrzChar d)
    (h : digitOf misread = digitOf s ↔ value c % n = value d % n) :
    NoticedModulo n s misread c d := by
  refine ⟨_, _, _, _, computeCheckDigit_eq hs, computeCheckDigit_eq hmisread, charValue_eq hc,
    charValue_eq hd, ?_⟩
  exact not_congr (eq_comm.trans h)

/-- A replaced character is noticed by the check digit of its field exactly when the two values
differ modulo ten, and neighbours that change places exactly when theirs differ modulo five. -/
theorem check_digit_notices (s : Str) (hs : ∀ c ∈ s, IsMrzChar c) :
    (∀ i c d, s[i]? = some c → IsMrzChar d → NoticedModulo 10 s (s.set i d) c d) ∧
    (∀ i c d, s[i]? = some c → s[i + 1]? = some d →
      NoticedModulo 5 s ((s.set i d).set (i + 1) c) c d) := by
  constructor
  · intro i c d hc hd
    have hmrz : IsMrzChar c := hs c (List.mem_of_getElem? hc)
    exact noticedModulo_of_iff hs (mrz_set hs hd i) hmrz hd (digitOf_set hc)
  · intro i c d hc hd
    have hmrz : IsMrzChar c := hs c (List.mem_of_getElem? hc)
    have hmrz' : IsMrzChar d := hs d (List.mem_of_getElem? hd)
    have hswapped := mrz_set (mrz_set hs hmrz' i) hmrz (i + 1)
    exact noticedModulo_of_iff hs hswapped hmrz hmrz' (digitOf_swap hc hd)

/-- The check digit of `AF7` notices neither an `R` for the seven nor its letters in each other's
place. -/
theorem check_digit_notices_AF7 :
    computeCheckDigit ['A', 'F', '7'] = .ok 2 ∧
    NoticedModulo 10 ['A', 'F', '7'] ['A', 'F', 'R'] '7' 'R' ∧
    NoticedModulo 5 ['A', 'F', '7'] ['F', 'A', '7'] 'A' 'F' := by
  obtain ⟨hreplaced, hswapped⟩ := check_digit_notices ['A', 'F', '7'] (forall_of_all rfl)
  exact ⟨rfl, hreplaced 2 '7' 'R' rfl (by decide), hswapped 0 'A' 'F' rfl rfl⟩

end Hawiya.Mrz
