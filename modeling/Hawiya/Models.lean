import Hawiya.Fields

/-!
# Rows of the registry

The ORM models, as far as the services read or write their columns. Surrogate keys nothing refers
to, review columns and server timestamps are left out.
-/

namespace Hawiya
open PyString Calendar

inductive PersonStatus where
  | active
  | merged
  | archived
  deriving DecidableEq

def PersonStatus.value : PersonStatus → String
  | .active => "active"
  | .merged => "merged"
  | .archived => "archived"

inductive IdentifierType where
  | passport
  | emiratesId
  | gccId
  | priorPassport
  deriving DecidableEq

def IdentifierType.value : IdentifierType → String
  | .passport => "passport"
  | .emiratesId => "emirates_id"
  | .gccId => "gcc_id"
  | .priorPassport => "prior_passport"

inductive IdentifierStatus where
  | active
  | archived
  deriving DecidableEq

inductive NameScript where
  | arabic
  | latin
  | other
  deriving DecidableEq

def NameScript.value : NameScript → String
  | .arabic => "arabic"
  | .latin => "latin"
  | .other => "other"

inductive NameVariantType where
  | canonical
  | transliteration
  | alias
  | mrz
  deriving DecidableEq

def NameVariantType.value : NameVariantType → String
  | .canonical => "canonical"
  | .transliteration => "transliteration"
  | .alias => "alias"
  | .mrz => "mrz"

inductive MatchType where
  | deterministic
  | probabilistic
  | llmAssisted
  deriving DecidableEq

inductive MatchDecisionValue where
  | autoMerge
  | suggestMerge
  | noMatch
  | manualReview
  deriving DecidableEq

structure Person where
  tenant_id : UUID
  person_uuid : UUID
  canonical_name_ar : Option Str
  canonical_name_en : Option Str
  date_of_birth : Option Date
  nationality : Option Str
  sex : Option Sex
  status : PersonStatus
  deriving DecidableEq

structure PersonIdentifier where
  tenant_id : UUID
  person_uuid : UUID
  identifier_type : IdentifierType
  identifier_value : Str
  issuing_country : Option Str
  issue_date : Option Date
  expiry_date : Option Date
  is_primary : Bool
  source : Option String
  confidence : Option ℚ
  status : IdentifierStatus
  deriving DecidableEq

structure PersonNameVariant where
  tenant_id : UUID
  person_uuid : UUID
  name_value : Str
  script : NameScript
  variant_type : NameVariantType
  phonetic_key : Option Str
  deriving DecidableEq

structure DocumentExtraction where
  extraction_id : UUID
  tenant_id : UUID
  consumer_request_id : Option Str
  input_hash : Str
  document_type : DocumentType
  extracted_data : Fields
  confidence_per_field : Confidences
  checksum_status : ChecksumStatus
  processing_path : ProcessingPath
  processing_time_ms : ℕ
  person_uuid : Option UUID
  match_action : Option String
  deriving DecidableEq

structure MatchDecision where
  tenant_id : UUID
  candidate_a : Option UUID
  candidate_b : Option UUID
  match_type : MatchType
  confidence : ℚ
  features : List (String × Feature)
  decision : MatchDecisionValue
  deriving DecidableEq

/-- A value of an audit row's `output_summary`; `uuid u` is the string `str(u)`. -/
inductive SummaryValue where
  | null
  | text (s : String)
  | uuid (u : UUID)
  deriving DecidableEq

structure AuditLog where
  tenant_id : UUID
  request_id : Str
  user_id : Option Str
  endpoint : String
  input_hash : Option Str
  output_summary : Option (List (String × SummaryValue))
  model_versions : Option (List (String × String))
  confidence : Option ℚ
  processing_path : Option String
  decision : Option String
  deriving DecidableEq

inductive Row where
  | person (r : Person)
  | identifier (r : PersonIdentifier)
  | nameVariant (r : PersonNameVariant)
  | extraction (r : DocumentExtraction)
  | matchDecision (r : MatchDecision)
  | auditLog (r : AuditLog)
  deriving DecidableEq

namespace Row

def person? : Row → Option Person
  | .person r => some r
  | _ => none

def identifier? : Row → Option PersonIdentifier
  | .identifier r => some r
  | _ => none

def nameVariant? : Row → Option PersonNameVariant
  | .nameVariant r => some r
  | _ => none

def extraction? : Row → Option DocumentExtraction
  | .extraction r => some r
  | _ => none

def matchDecision? : Row → Option MatchDecision
  | .matchDecision r => some r
  | _ => none

def auditLog? : Row → Option AuditLog
  | .auditLog r => some r
  | _ => none

end Row

/-- An entry of a unique index: the primary keys that are read back, and the partial index
`(tenant_id, identifier_type, identifier_value) WHERE status = 'active'`. -/
inductive IndexKey where
  | person (u : UUID)
  | extraction (u : UUID)
  | activeIdentifier (tenant_id : UUID) (identifier_type : IdentifierType) (value : Str)
  deriving DecidableEq

def IndexKey.constraint : IndexKey → String
  | .person _ => "persons_pkey"
  | .extraction _ => "document_extractions_pkey"
  | .activeIdentifier .. => "uq_pid_active_identifier"

def PersonIdentifier.keys (r : PersonIdentifier) : List IndexKey :=
  if r.status = .active then
    [.activeIdentifier r.tenant_id r.identifier_type r.identifier_value]
  else []

def Row.keys : Row → List IndexKey
  | .person r => [.person r.person_uuid]
  | .identifier r => r.keys
  | .extraction r => [.extraction r.extraction_id]
  | _ => []

/-- The person a row refers to by foreign key. -/
def Row.reference? : Row → Option UUID
  | .identifier r => some r.person_uuid
  | .nameVariant r => some r.person_uuid
  | _ => none

/-- The tenant a row refers to by foreign key. -/
def Row.tenantReference? : Row → Option UUID
  | .person r => some r.tenant_id
  | .extraction r => some r.tenant_id
  | .auditLog r => some r.tenant_id
  | _ => none

/-- The foreign key of a row's table to a table of the model. A match decision has none. -/
def Row.foreignKey : Row → String
  | .person _ => "persons_tenant_id_fkey"
  | .identifier _ => "person_identifiers_person_uuid_fkey"
  | .nameVariant _ => "person_name_variants_person_uuid_fkey"
  | .extraction _ => "document_extractions_tenant_id_fkey"
  | .matchDecision _ => ""
  | .auditLog _ => "audit_log_tenant_id_fkey"

end Hawiya
