import Hawiya.Mrz

/-!
# Extracted fields and their confidences

What the extraction service keeps of a parsed MRZ: the `fields` dictionary, with dates in ISO
form, and the per-field confidences derived from the checksums.
-/

namespace Hawiya
open PyString Calendar

/-- The `fields` dictionary of an extraction; its keys are fixed. -/
structure Fields where
  document_type : Option Str
  issuing_country : Option Str
  surname : Option Str
  given_names : Option Str
  document_number : Option Str
  nationality : Option Str
  date_of_birth : Option Str
  sex : Option Str
  date_of_expiry : Option Str
  personal_number : Option Str
  deriving DecidableEq

/-- `value or None` for a string: an empty string is falsy. -/
def orNone (s : Option Str) : Option Str :=
  match s with
  | some (c :: cs) => some (c :: cs)
  | _ => none

def stripOcrJunk (name : Str) : Str := if name = [] then name else beforeSpaceRun (strip name)

def fieldsFromParsed (p : ParsedMRZ) : Fields where
  document_type := some p.document_type
  issuing_country := some p.issuing_country
  surname := some (stripOcrJunk p.surname)
  given_names := some (stripOcrJunk p.given_names)
  document_number := some p.document_number
  nationality := some p.nationality
  date_of_birth := p.date_of_birth.map Date.isoformat
  sex := p.sex.map Sex.value
  date_of_expiry := p.date_of_expiry.map Date.isoformat
  personal_number := orNone (some p.personal_number)

def confidenceChecksumPass : ℚ := 99 / 100
def confidenceChecksumFail : ℚ := 50 / 100
def confidenceNameDefault : ℚ := 85 / 100
def confidenceSexKnown : ℚ := 95 / 100
def confidenceSexUnspecified : ℚ := 50 / 100

/-- The `confidence_per_field` dictionary, in the order of its keys. -/
structure Confidences where
  document_number : ℚ
  date_of_birth : ℚ
  date_of_expiry : ℚ
  personal_number : ℚ
  surname : ℚ
  given_names : ℚ
  issuing_country : ℚ
  nationality : ℚ
  sex : ℚ
  deriving DecidableEq

def Confidences.values (c : Confidences) : List ℚ :=
  [c.document_number, c.date_of_birth, c.date_of_expiry, c.personal_number, c.surname,
    c.given_names, c.issuing_country, c.nationality, c.sex]

def fromChecksum (passed : Bool) : ℚ :=
  if passed then confidenceChecksumPass else confidenceChecksumFail

def confidencesFromParsed (p : ParsedMRZ) : Confidences where
  document_number := fromChecksum p.checksums.doc_number
  date_of_birth := fromChecksum p.checksums.dob
  date_of_expiry := fromChecksum p.checksums.expiry
  personal_number := fromChecksum p.checksums.personal
  surname := confidenceNameDefault
  given_names := confidenceNameDefault
  issuing_country := confidenceNameDefault
  nationality := confidenceNameDefault
  sex := if p.sex = some .male ∨ p.sex = some .female then confidenceSexKnown
    else confidenceSexUnspecified

/-- `sum(confidences.values()) / len(confidences)`. -/
def overallConfidence (c : Confidences) : ℚ := c.values.sum / c.values.length

theorem orNone_of_ne_nil {s : Str} (h : s ≠ []) : orNone (some s) = some s := by
  cases s with
  | nil => exact absurd rfl h
  | cons c cs => rfl

theorem orNone_eq_some_iff {o : Option Str} {s : Str} :
    orNone o = some s ↔ o = some s ∧ s ≠ [] := by
  rcases o with _ | s'
  · simp [orNone]
  · cases s' with
    | nil =>
        simp only [orNone, reduceCtorEq, Option.some.injEq, ne_eq, false_iff, not_and, not_not]
        exact fun h => h.symm
    | cons c cs =>
        simp only [orNone, Option.some.injEq, ne_eq]
        constructor
        · rintro rfl
          exact ⟨rfl, by simp⟩
        · exact fun h => h.1

end Hawiya
