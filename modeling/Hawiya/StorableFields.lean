import Hawiya.FieldCleaning
import Hawiya.Schema

/-!
# NUL characters in the fields of a passport

The columns under a check digit hold characters of the MRZ alphabet once the lines are parsed. The
other columns reach the text fields as the OCR read them.
-/

namespace Hawiya
open PyString Calendar

namespace Mrz
open Validators MrzRoundTrip
variable {today : Date} {line1 line2 : Str} {p : ParsedMRZ}

/-- No NUL reaches a text field from the columns without a check digit: the document type, the two
country codes and the names as they are cleaned. -/
structure NulFree (line1 line2 : Str) : Prop where
  head : nul ∉ slice 0 5 line1
  surname : nul ∉ stripOcrJunk (parseName (slice 5 44 line1)).1
  given_names : nul ∉ stripOcrJunk (parseName (slice 5 44 line1)).2
  nationality : nul ∉ slice 10 13 line2

theorem not_mrz_nul : ¬ IsMrzChar nul := by decide

theorem mem_of_mem_rstripChar {c d : Char} {s : Str} (h : d ∈ rstripChar c s) : d ∈ s :=
  (List.rdropWhile_prefix _ s).subset h

theorem nul_not_mem_rstripChar {s : Str} (h : ∀ c ∈ s, IsMrzChar c) : nul ∉ rstripChar '<' s :=
  fun hmem => not_mrz_nul (h nul (mem_of_mem_rstripChar hmem))

theorem nul_mem_rstripChar_iff {s : Str} : nul ∈ rstripChar '<' s ↔ nul ∈ s := by
  refine ⟨mem_of_mem_rstripChar, fun h => ?_⟩
  have hsplit := List.takeWhile_append_dropWhile (p := (· == '<')) (l := s.reverse)
  rw [← List.mem_reverse, ← hsplit, List.mem_append] at h
  rw [rstripChar, List.rdropWhile, List.mem_reverse]
  refine h.resolve_left (fun hpad => ?_)
  have hfiller := List.mem_takeWhile_imp hpad
  revert hfiller
  decide

theorem nul_not_mem_document_number (h : parseTd3 today line1 line2 = .ok p) :
    nul ∉ p.document_number := by
  obtain ⟨-, -, hreadable, -⟩ := checksums_of_ok h
  obtain ⟨-, -, rfl⟩ := result_of_ok h
  exact nul_not_mem_rstripChar (fun c hc => hreadable.data c (by simp [hc]))

theorem nul_not_mem_isoformat (d : Date) : nul ∉ d.isoformat := by
  obtain ⟨year, month, day, -, hyear, -, hmonth, -, hday⟩ := d
  have hlast : daysInMonth year month ≤ 31 := by
    unfold daysInMonth
    split_ifs
    all_goals decide
  have hdigits : ∀ n < 100, nul ∉ digits2 n := fun n hn hmem =>
    absurd (digits2_isdigit hn nul hmem) (by decide)
  have hdash : nul ≠ '-' := by decide
  simp only [Date.isoformat, digits4, List.mem_append, List.mem_cons, not_or]
  exact ⟨⟨⟨hdigits (year / 100) (by omega), hdigits (year % 100) (by omega)⟩, hdash,
    hdigits month (by omega)⟩, hdash, hdigits day (by omega)⟩

/-- The fields put no NUL into the `extracted_data` column exactly if none reaches a text field. -/
theorem nul_free_iff (h : parseTd3 today line1 line2 = .ok p) :
    (∀ s ∈ (fieldsFromParsed p).texts, nul ∉ s) ↔ NulFree line1 line2 := by
  have hnumber := nul_not_mem_document_number h
  obtain ⟨-, -, hreadable, -⟩ := checksums_of_ok h
  obtain ⟨-, -, rfl⟩ := result_of_ok h
  have hpersonal : nul ∉ rstripChar '<' (slice 28 42 line2) :=
    nul_not_mem_rstripChar (fun c hc => hreadable.data c (by simp [hc]))
  have hhead : nul ∉ slice 0 5 line1 ↔
      nul ∉ rstripChar '<' (slice 0 2 line1) ∧ nul ∉ slice 2 5 line1 := by
    rw [← slice_append_slice (by decide : 0 ≤ 2) (by decide : 2 ≤ 5), List.mem_append,
      nul_mem_rstripChar_iff, not_or]
  have hdate : ∀ o : Option Date, ∀ s ∈ o.map Date.isoformat, nul ∉ s := by
    intro o s hs
    obtain ⟨d, -, rfl⟩ := Option.map_eq_some_iff.mp hs
    exact nul_not_mem_isoformat d
  have hsex : ∀ s ∈ (parseSex (line2.getD 20 '<')).map Sex.value, nul ∉ s := by
    intro s hs
    obtain ⟨sex, -, rfl⟩ := Option.map_eq_some_iff.mp hs
    cases sex with
    | _ => decide
  have hown : ∀ s ∈ orNone (some (rstripChar '<' (slice 28 42 line2))), nul ∉ s := by
    intro s hs
    rw [← Option.some.inj (orNone_eq_some_iff.mp hs).1]
    exact hpersonal
  have hsome : ∀ s : Str, (∀ t ∈ some s, nul ∉ t) ↔ nul ∉ s := fun s => by simp
  have hend : ∀ s ∈ ([] : List Str), nul ∉ s := fun s hs => nomatch hs
  simp only [Fields.texts, fieldsFromParsed, describedResult, forall_reduceOption_cons,
    List.reduceOption_nil, hsome, iff_true_intro (hdate _), iff_true_intro hsex,
    iff_true_intro hown, iff_true_intro hend, and_true]
  constructor
  · rintro ⟨htype, hissuing, hsurname, hgiven, -, hnationality⟩
    exact ⟨hhead.mpr ⟨htype, hissuing⟩, hsurname, hgiven, hnationality⟩
  · rintro ⟨hfirst, hsurname, hgiven, hnationality⟩
    obtain ⟨htype, hissuing⟩ := hhead.mp hfirst
    exact ⟨htype, hissuing, hsurname, hgiven, hnumber, hnationality⟩

end Mrz
end Hawiya
