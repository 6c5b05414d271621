import Hawiya.Services

/-!
# The endpoints

Each POST endpoint runs a service call and turns the exceptions it knows into an error response; an
error response is a normal return, so its transaction commits. Other exceptions leave the
endpoint. Server timestamps are left out of `PersonResponse`.
-/

namespace Hawiya
open PyString Calendar Interaction

/-- The message of an error envelope; `possibleDuplicate` is the text of that exception. -/
inductive ErrorMessage where
  | text (s : String)
  | possibleDuplicate (found : MatchResult)
  deriving DecidableEq

inductive DetailValue where
  | number (n : ℕ)
  | uuid (u : Option UUID)
  | text (s : String)
  | confidence (c : ℚ)
  deriving DecidableEq

structure ErrorEnvelope where
  status_code : ℕ
  code : String
  message : ErrorMessage
  details : List (String × DetailValue)
  trace_id : Str
  deriving DecidableEq

structure IdentifierResponse where
  identifier_type : String
  identifier_value : Str
  issuing_country : Option Str
  expiry_date : Option Str
  is_primary : Bool
  deriving DecidableEq

structure NameVariantResponse where
  name_value : Str
  script : String
  variant_type : String
  deriving DecidableEq

structure PersonResponse where
  person_uuid : UUID
  canonical_name_ar : Option Str
  canonical_name_en : Option Str
  date_of_birth : Option Str
  nationality : Option Str
  sex : Option Str
  status : String
  identifiers : List IdentifierResponse
  name_variants : List NameVariantResponse
  deriving DecidableEq

inductive ApiResponse where
  | extracted (r : ExtractionService.ExtractionResult)
  | resolved (r : IdentityService.ResolveResult)
  | created (r : PersonResponse)
  | error (e : ErrorEnvelope)
  deriving DecidableEq

def ApiResponse.status : ApiResponse → ℕ
  | .extracted _ => 200
  | .resolved _ => 200
  | .created _ => 201
  | .error e => e.status_code

def maxPayloadBytes : ℕ := 10 * 1024 * 1024

variable (lib : Libraries) (ctx : RequestContext) (draws : Draws)

def errorResponse (status_code : ℕ) (code : String) (message : ErrorMessage)
    (details : List (String × DetailValue)) : ApiResponse :=
  .error { status_code, code, message, details, trace_id := ctx.request_id.getD [] }

/-- The `except` clauses of the two upload endpoints. -/
def extractionErrorResponse : PyError → Option ApiResponse
  | .unsupportedDocumentError m => some (errorResponse ctx 415 "UNSUPPORTED_DOCUMENT" (.text m) [])
  | .noMRZFoundError m => some (errorResponse ctx 422 "DOCUMENT_UNREADABLE" (.text m) [])
  | .mrzFormatError m => some (errorResponse ctx 422 "DOCUMENT_UNREADABLE" (.text m) [])
  | .ocrUnavailableError m => some (errorResponse ctx 503 "OCR_UNAVAILABLE" (.text m) [])
  | _ => none

def answerExtractionError (e : PyError) : Tx ApiResponse :=
  match extractionErrorResponse ctx e with
  | some response => pure response
  | none => throw e

/-- The body of an upload endpoint around its service call. -/
def uploadEndpoint (payload : Bytes) (call : UUID → Tx ApiResponse) : Tx ApiResponse := do
  let tenant_id ← requireTenantId ctx
  if payload = [] then
    return errorResponse ctx 400 "EMPTY_UPLOAD" (.text "The uploaded file was empty.") []
  else if payload.length > maxPayloadBytes then
    return errorResponse ctx 413 "PAYLOAD_TOO_LARGE" (.text "Maximum upload size is 10 MB.")
      [("size_bytes", .number payload.length)]
  else
    tryCatch (call tenant_id) (answerExtractionError ctx)

/-- The multipart form of the upload endpoints. -/
structure Upload where
  payload : Bytes
  content_type : Option Str
  consumer_request_id : Option Str

/-- `file.content_type or "application/octet-stream"`. -/
def Upload.contentType (upload : Upload) : Str := (orNone upload.content_type).getD octetStream

def extractDocument (upload : Upload) : Tx ApiResponse :=
  uploadEndpoint ctx upload.payload (fun tenant_id => do
    let result ← ExtractionService.extract lib ctx draws tenant_id upload.payload
      upload.contentType upload.consumer_request_id
    return .extracted result)

def resolveIdentity (upload : Upload) (create_if_missing : Bool) : Tx ApiResponse :=
  uploadEndpoint ctx upload.payload (fun tenant_id => do
    let result ← IdentityService.resolve lib ctx draws tenant_id upload.payload
      upload.contentType upload.consumer_request_id create_if_missing
    return .resolved result)

/-- `_to_response`. -/
def toResponse (p : PersonService.LoadedPerson) : PersonResponse where
  person_uuid := p.person.person_uuid
  canonical_name_ar := p.person.canonical_name_ar
  canonical_name_en := p.person.canonical_name_en
  date_of_birth := p.person.date_of_birth.map Date.isoformat
  nationality := p.person.nationality
  sex := p.person.sex.map Sex.value
  status := p.person.status.value
  identifiers := p.identifiers.map (fun r => {
    identifier_type := r.identifier_type.value
    identifier_value := r.identifier_value
    issuing_country := r.issuing_country
    expiry_date := r.expiry_date.map Date.isoformat
    is_primary := r.is_primary })
  name_variants := p.name_variants.map (fun v => {
    name_value := v.name_value
    script := v.script.value
    variant_type := v.variant_type.value })

def duplicateResponse (found : MatchResult) : ApiResponse :=
  errorResponse ctx 409 "POSSIBLE_DUPLICATE" (.possibleDuplicate found)
    [("candidate_person_uuid", .uuid found.person_uuid), ("method", .text found.method),
      ("confidence", .confidence found.confidence)]

def answerDuplicate (e : PyError) : Tx ApiResponse :=
  match e with
  | .possibleDuplicateError found => pure (duplicateResponse ctx found)
  | e => throw e

/-- `body` is the request body; a field left out is `none`. -/
def createPerson (body : PersonService.Args) : Tx ApiResponse := do
  let tenant_id ← requireTenantId ctx
  tryCatch
    (do
      let person ← PersonService.create lib ctx draws tenant_id body
      return .created (toResponse person))
    (answerDuplicate ctx)

/-- The answers of `GET /v1/persons/{person_uuid}`; `notFound` is the 404 that names the UUID. -/
inductive PersonLookup where
  | found (r : PersonResponse)
  | notFound (person_uuid : UUID) (trace_id : Str)
  deriving DecidableEq

/-- The relationships load with the person (`lazy="selectin"`). -/
def getPerson (person_uuid : UUID) : Tx PersonLookup := do
  let tenant_id ← requireTenantId ctx
  let person ← PersonService.get ctx tenant_id person_uuid
  match person with
  | none => return .notFound person_uuid (ctx.request_id.getD [])
  | some person => do
      let loaded ← PersonService.refresh person
      return .found (toResponse loaded)

end Hawiya
