import Hawiya.RowSecurity

/-!
# The calls of the API

The endpoints that use the database, each in its session. The bounds of a search request (a query
of 1 to 255 characters, at most 50 candidates) are checked before the endpoint is called.
-/

namespace Hawiya
open PyString Interaction

structure PersonSummary where
  person_uuid : UUID
  canonical_name_ar : Option Str
  canonical_name_en : Option Str
  date_of_birth : Option Str
  nationality : Option Str
  deriving DecidableEq

/-- `_to_summary`. -/
def toSummary (person : Person) : PersonSummary where
  person_uuid := person.person_uuid
  canonical_name_ar := person.canonical_name_ar
  canonical_name_en := person.canonical_name_en
  date_of_birth := person.date_of_birth.map Calendar.Date.isoformat
  nationality := person.nationality

def searchPersons (ctx : RequestContext) (query : Str) (limit : ℕ) :
    SessionTx (List PersonSummary) := do
  let tenant_id ← SessionTx.statements (liftM (requireTenantId ctx))
  let candidates ← PersonService.search ctx tenant_id query limit
  return candidates.map toSummary

inductive ApiCall where
  | extract (draws : Draws) (upload : Upload)
  | resolve (draws : Draws) (upload : Upload) (create_if_missing : Bool)
  | create (draws : Draws) (body : PersonService.Args)
  | get (person_uuid : UUID)
  | search (query : Str) (limit : ℕ)

inductive ApiAnswer where
  | response (r : ApiResponse)
  | lookup (r : PersonLookup)
  | candidates (rs : List PersonSummary)
  deriving DecidableEq

namespace ApiCall

/-- The UUIDs a call draws. -/
def drawn : ApiCall → List UUID
  | .extract draws _ => [draws.extraction_id]
  | .resolve draws _ _ => [draws.extraction_id, draws.person_uuid]
  | .create draws _ => [draws.person_uuid]
  | .get _ => []
  | .search .. => []

variable (lib : Libraries) (ctx : RequestContext)

def statements (r : Tx ApiResponse) : SessionTx ApiAnswer := do
  let r ← SessionTx.statements r
  return .response r

def endpoint : ApiCall → SessionTx ApiAnswer
  | .extract draws upload => statements (extractDocument lib ctx draws upload)
  | .resolve draws upload create_if_missing =>
      statements (resolveIdentity lib ctx draws upload create_if_missing)
  | .create draws body => statements (createPerson lib ctx draws body)
  | .get person_uuid => do
      let r ← SessionTx.statements (getPerson ctx person_uuid)
      return .lookup r
  | .search query limit => do
      let rs ← searchPersons ctx query limit
      return .candidates rs

def session (call : ApiCall) : SessionTx ApiAnswer :=
  SessionTx.getSession ctx (call.endpoint lib ctx)

end ApiCall
end Hawiya
