import Hawiya.Repositories
import Hawiya.Mrz
import Hawiya.Lib.Sha256

/-!
# Extraction, identity and person services

The three services over one session. What a call takes from outside besides its arguments (the
answer of the OCR adapter, the clock, the UUIDs it draws) is in `Draws`. Metrics and log lines
are left out.
-/

namespace Hawiya
open PyString Calendar Interaction

def octetStream : Str :=
  ['a', 'p', 'p', 'l', 'i', 'c', 'a', 't', 'i', 'o', 'n', '/', 'o', 'c', 't', 'e', 't', '-',
    's', 't', 'r', 'e', 'a', 'm']

structure Draws where
  /-- What `read_mrz` returns or raises for this call. -/
  read_mrz : Except PyError (Str × Str)
  today : Date
  elapsed_ms : ℕ
  extraction_id : UUID
  person_uuid : UUID

/-- `type(e).__name__` of the exceptions the extraction handles. -/
def PyError.name : PyError → String
  | .noMRZFoundError _ => "NoMRZFoundError"
  | .ocrUnavailableError _ => "OCRUnavailableError"
  | .mrzFormatError _ => "MRZFormatError"
  | _ => "Exception"

/-- `str(e)` of the exceptions the services and endpoints handle. -/
def PyError.message : PyError → String
  | .valueError m | .assertionError m | .mrzFormatError m | .unsupportedDocumentError m
  | .noMRZFoundError m | .ocrUnavailableError m | .runtimeError m => m
  | _ => ""

def requireTenantId (ctx : RequestContext) : Except PyError UUID :=
  match ctx.tenant_id with
  | some tenant_id => .ok tenant_id
  | none => .error .missingTenantError

/-- The decorator of every service method. -/
def requiresTenant {α : Type} (ctx : RequestContext) (tenant_id : UUID) (method : Tx α) : Tx α := do
  let ctx_tenant ← requireTenantId ctx
  if tenant_id ≠ ctx_tenant then throw .crossTenantError
  method

section Calls
variable (lib : Libraries) (ctx : RequestContext) (draws : Draws)

namespace ExtractionService

structure ExtractionResult where
  extraction_id : UUID
  document_type : DocumentType
  fields : Fields
  confidence_per_field : Confidences
  checksum_status : ChecksumStatus
  processing_path : ProcessingPath
  processing_time_ms : ℕ
  deriving DecidableEq

def endpoint : String := "/v1/documents/extract"

def failedAudit (payload : Bytes) (e : PyError) : AuditWriter.Args where
  endpoint := endpoint
  input_hash := some (lib.sha256 payload)
  processing_path := some ProcessingPath.mrzOnly.value
  decision := some "failed"
  output_summary := some [("error", .text e.name), ("message", .text e.message)]

/-- The `try` block around the OCR adapter. -/
def readMrz (tenant_id : UUID) (payload : Bytes) : Tx (Str × Str) :=
  match draws.read_mrz with
  | .ok lines => pure lines
  | .error e =>
      match e with
      | .noMRZFoundError _ | .ocrUnavailableError _ | .mrzFormatError _ => do
          AuditWriter.write ctx tenant_id (failedAudit lib payload e)
          throw e
      | _ => throw e

def record (tenant_id : UUID) (payload : Bytes) (consumer_request_id : Option Str)
    (document_type : DocumentType) (parsed : ParsedMRZ) : DocumentExtraction where
  extraction_id := draws.extraction_id
  tenant_id := tenant_id
  consumer_request_id := consumer_request_id
  input_hash := lib.sha256 payload
  document_type := document_type
  extracted_data := fieldsFromParsed parsed
  confidence_per_field := confidencesFromParsed parsed
  checksum_status := parsed.checksums.status
  processing_path := .mrzOnly
  processing_time_ms := draws.elapsed_ms
  person_uuid := none
  match_action := none

def extractedAudit (payload : Bytes) (parsed : ParsedMRZ) : AuditWriter.Args where
  endpoint := endpoint
  input_hash := some (lib.sha256 payload)
  output_summary := some [("extraction_id", .uuid draws.extraction_id),
    ("checksum_status", .text parsed.checksums.status.value)]
  model_versions := some [("mrz", "icao-9303-td3")]
  confidence := some (overallConfidence (confidencesFromParsed parsed))
  processing_path := some ProcessingPath.mrzOnly.value
  decision := some parsed.checksums.status.value

def result (document_type : DocumentType) (parsed : ParsedMRZ) : ExtractionResult where
  extraction_id := draws.extraction_id
  document_type := document_type
  fields := fieldsFromParsed parsed
  confidence_per_field := confidencesFromParsed parsed
  checksum_status := parsed.checksums.status
  processing_path := .mrzOnly
  processing_time_ms := draws.elapsed_ms

def extract (tenant_id : UUID) (payload : Bytes) (content_type : Str)
    (consumer_request_id : Option Str) : Tx ExtractionResult :=
  requiresTenant ctx tenant_id do
    let document_type ←
      DocumentClassifier.classify lib.unicode.isprintable payload content_type
    let lines ← readMrz lib ctx draws tenant_id payload
    let parsed ← Mrz.parseTd3 draws.today lines.1 lines.2
    Session.add (.extraction
      (record lib draws tenant_id payload consumer_request_id document_type parsed))
    AuditWriter.write ctx tenant_id (extractedAudit lib draws payload parsed)
    return result draws document_type parsed

end ExtractionService

/-- `_parse_iso_date`. -/
def parseIsoDate (value : Option Str) : Option Date := (orNone value).bind Date.fromIsoformat

/-- `_parse_sex`. -/
def parseSexValue (value : Option Str) : Option Sex :=
  match value with
  | some ['M'] => some .male
  | some ['F'] => some .female
  | some ['X'] => some .unspecified
  | _ => none

namespace IdentityService

structure ResolveResult where
  extraction_id : UUID
  action : MatchAction
  person_uuid : Option UUID
  confidence : ℚ
  method : String
  fields : Fields
  deriving DecidableEq

def endpoint : String := "/v1/identity/resolve"

def confNewRecord : ℚ := 1

def actionToDecision : MatchAction → Option MatchDecisionValue
  | .autoMatched => some .autoMerge
  | .suggestedMatch => some .suggestMerge
  | .manualReview => some .manualReview
  | .noMatchNoCreate => some .noMatch
  | .newRecord => some .noMatch

/-- `" ".join(p for p in (given, surname) if p) or None`. -/
def canonicalEn (fields : Fields) : Option Str :=
  let surname := strip (fields.surname.getD [])
  let given := strip (fields.given_names.getD [])
  orNone (some (joinWith ' ' ([given, surname].filter (fun p => !p.isEmpty))))

def passportNumber (fields : Fields) : Option Str := orNone fields.document_number

def query (fields : Fields) : DeterministicMatcher.Query where
  passport_number := passportNumber fields
  nationality := orNone fields.nationality
  date_of_birth := parseIsoDate fields.date_of_birth

def personArgs (fields : Fields) : PersonRepository.Args where
  canonical_name_en := canonicalEn fields
  date_of_birth := parseIsoDate fields.date_of_birth
  nationality := orNone fields.nationality
  sex := parseSexValue fields.sex
  name_variants := (canonicalEn fields).toList.map (fun n => { name_value := n })

def identifierArgs (person_uuid : UUID) (fields : Fields) (passport_number : Str)
    (doc_number_confidence : ℚ) : PersonIdentifierRepository.Args where
  person_uuid := person_uuid
  identifier_type := .passport
  identifier_value := passport_number
  issuing_country := orNone fields.issuing_country
  expiry_date := parseIsoDate fields.date_of_expiry
  is_primary := true
  source := some "extraction"
  confidence := some doc_number_confidence

def createPersonFromExtraction (tenant_id : UUID) (fields : Fields) (doc_number_confidence : ℚ) :
    Tx UUID := do
  let person ← PersonRepository.create lib tenant_id draws.person_uuid (personArgs fields)
  match passportNumber fields with
  | some passport_number =>
      let _ ← PersonIdentifierRepository.create tenant_id
        (identifierArgs person.person_uuid fields passport_number doc_number_confidence)
  | none => pure ()
  return person.person_uuid

def updateExtractionLink (tenant_id extraction_id : UUID) (person_uuid : Option UUID)
    (action : MatchAction) : Tx Unit :=
  execute (.updateExtraction extraction_id tenant_id person_uuid action.value)

def decisionRow (tenant_id : UUID) (person_uuid : Option UUID) (confidence : ℚ)
    (features : List (String × Feature)) (decision : MatchDecisionValue) : MatchDecision where
  tenant_id := tenant_id
  candidate_a := person_uuid
  candidate_b := none
  match_type := .deterministic
  confidence := confidence
  features := features
  decision := decision

def resolvedAudit (payload : Bytes) (extraction : ExtractionService.ExtractionResult)
    (person_uuid : Option UUID) (action : MatchAction) (confidence : ℚ) : AuditWriter.Args where
  endpoint := endpoint
  input_hash := some (lib.sha256 payload)
  output_summary := some [("extraction_id", .uuid extraction.extraction_id),
    ("person_uuid", person_uuid.elim .null .uuid), ("action", .text action.value)]
  model_versions := some [("matcher", "deterministic-v1")]
  confidence := some confidence
  processing_path := some extraction.processing_path.value
  decision := some action.value

/-- Person, action and confidence, after creating a person on a miss if the caller wants it. -/
def settle (tenant_id : UUID) (extraction : ExtractionService.ExtractionResult)
    (match_result : MatchResult) (create_if_missing : Bool) :
    Tx (Option UUID × MatchAction × ℚ) :=
  if match_result.action = .noMatchNoCreate ∧ create_if_missing = true then do
    let person_uuid ← createPersonFromExtraction lib draws tenant_id extraction.fields
      extraction.confidence_per_field.document_number
    return (some person_uuid, .newRecord, confNewRecord)
  else
    return (match_result.person_uuid, match_result.action, match_result.confidence)

/-- Link the extraction, then record the decision and the audit row. -/
def recordDecision (tenant_id : UUID) (payload : Bytes)
    (extraction : ExtractionService.ExtractionResult) (match_result : MatchResult)
    (person_uuid : Option UUID) (action : MatchAction) (confidence : ℚ) : Tx Unit := do
  updateExtractionLink tenant_id extraction.extraction_id person_uuid action
  match actionToDecision action with
  | some decision => Session.add (.matchDecision
      (decisionRow tenant_id person_uuid confidence match_result.features decision))
  | none => pure ()
  AuditWriter.write ctx tenant_id (resolvedAudit lib payload extraction person_uuid action confidence)

def resolve (tenant_id : UUID) (payload : Bytes) (content_type : Str)
    (consumer_request_id : Option Str) (create_if_missing : Bool) : Tx ResolveResult :=
  requiresTenant ctx tenant_id do
    let extraction ← ExtractionService.extract lib ctx draws tenant_id payload content_type
      consumer_request_id
    let match_result ←
      DeterministicMatcher.deterministicMatch tenant_id (query extraction.fields)
    let (person_uuid, action, confidence) ←
      settle lib draws tenant_id extraction match_result create_if_missing
    recordDecision lib ctx tenant_id payload extraction match_result person_uuid action confidence
    return {
      extraction_id := extraction.extraction_id
      action := action
      person_uuid := person_uuid
      confidence := confidence
      method := match_result.method
      fields := extraction.fields }

end IdentityService

namespace PersonService

/-- A `Person` with its loaded relationships. -/
structure LoadedPerson where
  person : Person
  identifiers : List PersonIdentifier
  name_variants : List PersonNameVariant
  deriving DecidableEq

structure Args where
  canonical_name_ar : Option Str := none
  canonical_name_en : Option Str := none
  date_of_birth : Option Date := none
  nationality : Option Str := none
  sex : Option Sex := none
  passport_number : Option Str := none
  emirates_id : Option Str := none
  issuing_country : Option Str := none
  expiry_date : Option Date := none

def endpoint : String := "/v1/persons"

def get (tenant_id person_uuid : UUID) : Tx (Option Person) :=
  requiresTenant ctx tenant_id (PersonRepository.get tenant_id person_uuid)

/-- `_seed_variants`. -/
def seedVariants (canonical_name_ar canonical_name_en : Option Str) :
    List PersonRepository.VariantSpec :=
  ((orNone canonical_name_ar).toList ++ (orNone canonical_name_en).toList).map
    (fun n => { name_value := n })

def Args.query (args : Args) : DeterministicMatcher.Query where
  emirates_id := args.emirates_id
  passport_number := args.passport_number
  nationality := args.nationality
  date_of_birth := args.date_of_birth

def Args.person (args : Args) : PersonRepository.Args where
  canonical_name_ar := args.canonical_name_ar
  canonical_name_en := args.canonical_name_en
  date_of_birth := args.date_of_birth
  nationality := args.nationality
  sex := args.sex
  name_variants := seedVariants args.canonical_name_ar args.canonical_name_en

def Args.passport (args : Args) (person_uuid : UUID) (passport_number : Str) :
    PersonIdentifierRepository.Args where
  person_uuid := person_uuid
  identifier_type := .passport
  identifier_value := passport_number
  issuing_country := args.issuing_country
  expiry_date := args.expiry_date
  is_primary := true
  source := some "api_create"

def emiratesIdArgs (person_uuid : UUID) (emirates_id : Str) : PersonIdentifierRepository.Args where
  person_uuid := person_uuid
  identifier_type := .emiratesId
  identifier_value := emirates_id
  source := some "api_create"

def createdAudit (person_uuid : UUID) : AuditWriter.Args where
  endpoint := endpoint
  output_summary := some [("person_uuid", .uuid person_uuid), ("action", .text "created")]
  decision := some "created"

def isDuplicate (match_result : MatchResult) : Bool :=
  match_result.action = .autoMatched || match_result.action = .suggestedMatch

def addIdentifier (tenant_id : UUID) : Option PersonIdentifierRepository.Args → Tx Unit
  | some args => do
      let _ ← PersonIdentifierRepository.create tenant_id args
  | none => pure ()

def selectIdentifiers (person_uuid : UUID) : Tx (List PersonIdentifier) :=
  execute (.selectPersonIdentifiers person_uuid)

def selectNameVariants (person_uuid : UUID) : Tx (List PersonNameVariant) :=
  execute (.selectPersonNameVariants person_uuid)

/-- `session.refresh(person, ["identifiers", "name_variants"])`. -/
def refresh (person : Person) : Tx LoadedPerson := do
  let identifiers ← selectIdentifiers person.person_uuid
  let name_variants ← selectNameVariants person.person_uuid
  return { person, identifiers, name_variants }

def create (tenant_id : UUID) (args : Args) : Tx LoadedPerson :=
  requiresTenant ctx tenant_id do
    let match_result ← DeterministicMatcher.deterministicMatch tenant_id args.query
    if isDuplicate match_result then throw (.possibleDuplicateError match_result)
    let person ← PersonRepository.create lib tenant_id draws.person_uuid args.person
    addIdentifier tenant_id ((orNone args.passport_number).map (args.passport person.person_uuid))
    addIdentifier tenant_id ((orNone args.emirates_id).map (emiratesIdArgs person.person_uuid))
    AuditWriter.write ctx tenant_id (createdAudit person.person_uuid)
    Session.flush
    refresh person

end PersonService
end Calls

/-! Arguments of a call on one passport, for closed instances of the general results. -/

namespace Specimen

def lib : Libraries where
  sha256 := Sha256.hexdigest
  unicode := {
    nfc := id
    casefold := List.map Char.toLower
    upper := List.map Char.toUpper
    isalpha := Char.isAlpha
    isprintable := fun _ => true }

def tenant : UUID := 1

def ctx : RequestContext where
  tenant_id := some tenant
  request_id := some ['r']

def photo : Bytes := [0xff, 0xd8, 0xff]

def lines : Str × Str :=
  ("P<AREALMANSOORI<<MOHAMED<<<<<<<<<<<<<<<<<<<<".toList,
    "P1234567<1ARE9001125M3001019<<<<<<<<<<<<<<04".toList)

def draws (extraction_id person_uuid : UUID) : Draws where
  read_mrz := .ok lines
  today := ⟨2026, 5, 4, by decide⟩
  elapsed_ms := 0
  extraction_id := extraction_id
  person_uuid := person_uuid

def birth : Date := ⟨1990, 1, 12, by decide⟩

def parsed : ParsedMRZ where
  document_type := ['P']
  issuing_country := ['A', 'R', 'E']
  surname := "ALMANSOORI".toList
  given_names := "MOHAMED".toList
  document_number := "P1234567".toList
  nationality := ['A', 'R', 'E']
  date_of_birth := some birth
  sex := some .male
  date_of_expiry := some ⟨2030, 1, 1, by decide⟩
  personal_number := []
  checksums := {
    doc_number := true
    dob := true
    expiry := true
    personal := true
    composite := true }
  raw_line_1 := lines.1
  raw_line_2 := lines.2

theorem parseTd3_lines (extraction_id person_uuid : UUID) :
    Mrz.parseTd3 (draws extraction_id person_uuid).today lines.1 lines.2 = .ok parsed := by
  change Mrz.parseTd3 ⟨2026, 5, 4, _⟩ lines.1 lines.2 = .ok parsed
  decide +kernel

/-- A resolve call for the passport. -/
def resolve (extraction_id person_uuid : UUID) (create_if_missing : Bool) :
    Tx IdentityService.ResolveResult :=
  IdentityService.resolve lib ctx (draws extraction_id person_uuid) tenant photo octetStream none
    create_if_missing

end Specimen
end Hawiya
