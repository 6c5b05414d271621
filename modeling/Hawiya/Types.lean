import Hawiya.Lib.Calendar

/-!
# Shared types of the extraction and matching pipeline

The enumerations and result records that extractors, matcher, repositories and services exchange,
and the exceptions they raise. Confidences are the decimal constants of the source as rationals.
-/

namespace Hawiya
open PyString Calendar

abbrev UUID := ℕ
abbrev Bytes := List UInt8

inductive DocumentType where
  | passport
  | emiratesId
  | gccId
  | residencePermit
  | other
  deriving DecidableEq

inductive ChecksumStatus where
  | allPass
  | partialPass
  | allFail
  | notApplicable
  deriving DecidableEq

def ChecksumStatus.value : ChecksumStatus → String
  | .allPass => "all_pass"
  | .partialPass => "partial"
  | .allFail => "all_fail"
  | .notApplicable => "n/a"

inductive ProcessingPath where
  | mrzOnly
  | mrzPlusVisual
  | visualOnly
  | visionFallback
  deriving DecidableEq

def ProcessingPath.value : ProcessingPath → String
  | .mrzOnly => "mrz_only"
  | .mrzPlusVisual => "mrz_plus_visual"
  | .visualOnly => "visual_only"
  | .visionFallback => "vision_fallback"

inductive Sex where
  | male
  | female
  | unspecified
  deriving DecidableEq

def Sex.value : Sex → Str
  | .male => ['M']
  | .female => ['F']
  | .unspecified => ['X']

structure ChecksumReport where
  doc_number : Bool
  dob : Bool
  expiry : Bool
  personal : Bool
  composite : Bool
  deriving DecidableEq

def ChecksumReport.status (r : ChecksumReport) : ChecksumStatus :=
  let results := [r.doc_number, r.dob, r.expiry, r.personal, r.composite]
  if results.all id then .allPass
  else if !results.any id then .allFail
  else .partialPass

structure ParsedMRZ where
  document_type : Str
  issuing_country : Str
  surname : Str
  given_names : Str
  document_number : Str
  nationality : Str
  date_of_birth : Option Date
  sex : Option Sex
  date_of_expiry : Option Date
  personal_number : Str
  checksums : ChecksumReport
  raw_line_1 : Str
  raw_line_2 : Str
  deriving DecidableEq

inductive MatchAction where
  | autoMatched
  | suggestedMatch
  | newRecord
  | manualReview
  | noMatchNoCreate
  deriving DecidableEq

def MatchAction.value : MatchAction → String
  | .autoMatched => "auto_matched"
  | .suggestedMatch => "suggested_match"
  | .newRecord => "new_record"
  | .manualReview => "manual_review"
  | .noMatchNoCreate => "no_match_no_create"

/-- A value of the matcher's `features` dictionary. -/
inductive Feature where
  | text (s : String)
  | flag (b : Bool)
  deriving DecidableEq

structure MatchResult where
  action : MatchAction
  person_uuid : Option UUID
  confidence : ℚ
  method : String
  features : List (String × Feature)
  deriving DecidableEq

/-- The exceptions the modelled code raises, by class. -/
inductive PyError where
  | valueError (message : String)
  | assertionError (message : String)
  | mrzFormatError (message : String)
  | unsupportedDocumentError (message : String)
  | noMRZFoundError (message : String)
  | ocrUnavailableError (message : String)
  | possibleDuplicateError (found : MatchResult)
  | runtimeError (message : String)
  | missingTenantError
  | crossTenantError
  | indexError
  | multipleResultsFound
  | integrityError (constraint : String)
  | operationalError
  | dbapiError
  | overflowError
  deriving DecidableEq

/-- The exceptions of the server. -/
def PyError.ofServer : PyError → Bool
  | .operationalError => true
  | .integrityError _ => true
  | .dbapiError => true
  | _ => false

@[simp] theorem except_ok_bind {ε α β : Type} (a : α) (f : α → Except ε β) :
    (Except.ok a >>= f) = f a := rfl

@[simp] theorem except_error_bind {ε α β : Type} (e : ε) (f : α → Except ε β) :
    ((Except.error e : Except ε α) >>= f) = .error e := rfl

@[simp] theorem except_pure {ε α : Type} (a : α) : (pure a : Except ε α) = .ok a := rfl

theorem except_bind_eq_ok {ε α β : Type} {x : Except ε α} {f : α → Except ε β} {b : β} :
    (x >>= f) = .ok b ↔ ∃ a, x = .ok a ∧ f a = .ok b := by
  cases x with
  | error e => simp
  | ok a => simp

end Hawiya
