import Hawiya.ArabicNames
import Hawiya.Database
import Hawiya.DocumentClassifier

/-!
# Repositories, audit writer and matcher

The data access of the services, over one session. Keyword arguments with defaults are the
fields of a structure.
-/

namespace Hawiya
open PyString Calendar Interaction ArabicNames

/-- What the code takes from libraries: `hashlib.sha256(·).hexdigest()` and the character
database. -/
structure Libraries where
  sha256 : Bytes → Str
  unicode : Unicode

/-- `Result.scalar_one_or_none()`. -/
def scalarOneOrNone {α : Type} : List α → Tx (Option α)
  | [] => pure none
  | [a] => pure (some a)
  | _ => throw .multipleResultsFound

namespace PersonIdentifierRepository

def selectActive (tenant_id : UUID) (identifier_type : IdentifierType) (identifier_value : Str) :
    Tx (List PersonIdentifier) :=
  execute (.selectIdentifiers tenant_id identifier_type identifier_value)

def findActive (tenant_id : UUID) (identifier_type : IdentifierType) (identifier_value : Str) :
    Tx (Option PersonIdentifier) := do
  let rows ← selectActive tenant_id identifier_type identifier_value
  scalarOneOrNone rows

structure Args where
  person_uuid : UUID
  identifier_type : IdentifierType
  identifier_value : Str
  issuing_country : Option Str := none
  issue_date : Option Date := none
  expiry_date : Option Date := none
  is_primary : Bool := false
  source : Option String := none
  confidence : Option ℚ := none

def Args.row (tenant_id : UUID) (args : Args) : PersonIdentifier where
  tenant_id := tenant_id
  person_uuid := args.person_uuid
  identifier_type := args.identifier_type
  identifier_value := args.identifier_value
  issuing_country := args.issuing_country
  issue_date := args.issue_date
  expiry_date := args.expiry_date
  is_primary := args.is_primary
  source := args.source
  confidence := args.confidence
  status := .active

def create (tenant_id : UUID) (args : Args) : Tx PersonIdentifier := do
  let identifier := args.row tenant_id
  Session.add (.identifier identifier)
  return identifier

end PersonIdentifierRepository

namespace PersonRepository

def select (tenant_id person_uuid : UUID) : Tx (List Person) :=
  execute (.selectPersons tenant_id person_uuid)

def get (tenant_id person_uuid : UUID) : Tx (Option Person) := do
  let rows ← select tenant_id person_uuid
  scalarOneOrNone rows

/-- One entry of `name_variants`. -/
structure VariantSpec where
  name_value : Str
  variant_type : NameVariantType := .canonical
  script : Option NameScript := none

structure Args where
  canonical_name_ar : Option Str := none
  canonical_name_en : Option Str := none
  date_of_birth : Option Date := none
  nationality : Option Str := none
  sex : Option Sex := none
  name_variants : List VariantSpec := []

variable (lib : Libraries)

def VariantSpec.row (tenant_id person_uuid : UUID) (spec : VariantSpec) : PersonNameVariant where
  tenant_id := tenant_id
  person_uuid := person_uuid
  name_value := strip spec.name_value
  script := spec.script.getD (if isArabicScript spec.name_value then .arabic else .latin)
  variant_type := spec.variant_type
  phonetic_key := orNone (some (phoneticKey lib.unicode spec.name_value))

def addNameVariant (tenant_id person_uuid : UUID) (spec : VariantSpec) : Tx PersonNameVariant := do
  let variant := spec.row lib tenant_id person_uuid
  Session.add (.nameVariant variant)
  return variant

/-- `person_uuid` is the value the column's default draws at the flush. -/
def Args.row (tenant_id person_uuid : UUID) (args : Args) : Person where
  tenant_id := tenant_id
  person_uuid := person_uuid
  canonical_name_ar := (orNone args.canonical_name_ar).map (toCanonical lib.unicode)
  canonical_name_en := (orNone args.canonical_name_en).map strip
  date_of_birth := args.date_of_birth
  nationality := args.nationality
  sex := args.sex
  status := .active

def create (tenant_id person_uuid : UUID) (args : Args) : Tx Person := do
  let person := args.row lib tenant_id person_uuid
  Session.add (.person person)
  Session.flush
  forM args.name_variants (fun spec => do
    let _ ← addNameVariant lib tenant_id person.person_uuid spec)
  return person

end PersonRepository

namespace AuditWriter

structure Args where
  endpoint : String
  input_hash : Option Str := none
  output_summary : Option (List (String × SummaryValue)) := none
  model_versions : Option (List (String × String)) := none
  confidence : Option ℚ := none
  processing_path : Option String := none
  decision : Option String := none
  user_id : Option Str := none

def noRequestId : Str := ['n', 'o', '-', 'r', 'e', 'q', 'u', 'e', 's', 't', '-', 'i', 'd']

def Args.row (ctx : RequestContext) (tenant_id : UUID) (args : Args) : AuditLog where
  tenant_id := tenant_id
  request_id := (orNone ctx.request_id).getD noRequestId
  user_id := args.user_id
  endpoint := args.endpoint
  input_hash := args.input_hash
  output_summary := args.output_summary
  model_versions := args.model_versions
  confidence := args.confidence
  processing_path := args.processing_path
  decision := args.decision

def write (ctx : RequestContext) (tenant_id : UUID) (args : Args) : Tx Unit :=
  Session.add (.auditLog (args.row ctx tenant_id))

end AuditWriter

namespace DeterministicMatcher

def confEmiratesIdExact : ℚ := 1
def confPassportFull : ℚ := 99 / 100
def confPassportNumberOnly : ℚ := 90 / 100

structure Query where
  emirates_id : Option Str := none
  passport_number : Option Str := none
  nationality : Option Str := none
  date_of_birth : Option Date := none

/-- `bool(a and b and a == b)` for values that are truthy when present. -/
def bothEqual {α : Type} [BEq α] : Option α → Option α → Bool
  | some a, some b => a == b
  | _, _ => false

def nationalityMatch (person : Option Person) (nationality : Option Str) : Bool :=
  bothEqual (person.bind (fun p => orNone p.nationality)) (orNone nationality)

def dobMatch (person : Option Person) (date_of_birth : Option Date) : Bool :=
  bothEqual (person.bind (fun p => p.date_of_birth)) date_of_birth

def emiratesIdResult (ident : PersonIdentifier) : MatchResult where
  action := .autoMatched
  person_uuid := some ident.person_uuid
  confidence := confEmiratesIdExact
  method := "emirates_id_exact"
  features := [("identifier_type", .text "emirates_id")]

def passportResult (ident : PersonIdentifier) (nationality_match dob_match : Bool) : MatchResult :=
  if nationality_match && dob_match then
    { action := .autoMatched
      person_uuid := some ident.person_uuid
      confidence := confPassportFull
      method := "passport_plus_demographics"
      features := [("identifier_type", .text "passport"), ("nationality_match", .flag true),
        ("dob_match", .flag true)] }
  else
    { action := .suggestedMatch
      person_uuid := some ident.person_uuid
      confidence := confPassportNumberOnly
      method := "passport_number_only"
      features := [("identifier_type", .text "passport"),
        ("nationality_match", .flag nationality_match), ("dob_match", .flag dob_match)] }

def noMatchResult (q : Query) : MatchResult where
  action := .noMatchNoCreate
  person_uuid := none
  confidence := 0
  method := "no_deterministic_match"
  features := [("had_emirates_id", .flag q.emirates_id.isSome),
    ("had_passport_number", .flag q.passport_number.isSome)]

/-- Step 1: Emirates ID exact. -/
def matchEmiratesId (tenant_id : UUID) (q : Query) : Tx (Option MatchResult) :=
  match orNone q.emirates_id with
  | none => pure none
  | some emirates_id => do
      let ident ← PersonIdentifierRepository.findActive tenant_id .emiratesId emirates_id
      return ident.map emiratesIdResult

/-- Steps 2 and 3: passport with or without the demographics. -/
def matchPassport (tenant_id : UUID) (q : Query) : Tx (Option MatchResult) :=
  match orNone q.passport_number with
  | none => pure none
  | some passport_number => do
      let ident ← PersonIdentifierRepository.findActive tenant_id .passport passport_number
      match ident with
      | none => return none
      | some ident => do
          let person ← PersonRepository.get tenant_id ident.person_uuid
          return some (passportResult ident (nationalityMatch person q.nationality)
            (dobMatch person q.date_of_birth))

def deterministicMatch (tenant_id : UUID) (q : Query) : Tx MatchResult := do
  let byEmiratesId ← matchEmiratesId tenant_id q
  match byEmiratesId with
  | some result => return result
  | none => do
      let byPassport ← matchPassport tenant_id q
      return byPassport.getD (noMatchResult q)

end DeterministicMatcher
end Hawiya
