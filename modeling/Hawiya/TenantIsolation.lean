import Hawiya.TenantServices

/-!
# Tenants do not interfere

A run is a list of calls, each for one tenant and in its own transaction. What a tenant's calls
answer, and the rows they leave, are those of a run with the calls of the tenant alone on a
database of its own. So two runs with the same calls of a tenant answer them the same, whatever the
other tenants call.
-/

namespace Hawiya
open PyString Calendar Interaction Db

section Renaming
variable (ρ : Equiv.Perm UUID)

def ErrorMessage.rename : ErrorMessage → ErrorMessage
  | .possibleDuplicate found => .possibleDuplicate (found.rename ρ)
  | m => m

def DetailValue.rename : DetailValue → DetailValue
  | .uuid u => .uuid (u.map ρ)
  | v => v

def ErrorEnvelope.rename (e : ErrorEnvelope) : ErrorEnvelope :=
  { e with
    message := e.message.rename ρ
    details := e.details.map (fun d => (d.1, d.2.rename ρ)) }

def PersonResponse.rename (r : PersonResponse) : PersonResponse :=
  { r with person_uuid := ρ r.person_uuid }

def ApiResponse.rename : ApiResponse → ApiResponse
  | .extracted r => .extracted (r.rename ρ)
  | .resolved r => .resolved (r.rename ρ)
  | .created r => .created (r.rename ρ)
  | .error e => .error (e.rename ρ)

def PersonLookup.rename : PersonLookup → PersonLookup
  | .found r => .found (r.rename ρ)
  | .notFound person_uuid trace_id => .notFound (ρ person_uuid) trace_id

end Renaming

/-- What a tenant can ask for; the matcher is asked directly, the rest through the endpoints. -/
inductive Operation where
  | get (person_uuid : UUID)
  | create (draws : Draws) (body : PersonService.Args)
  | matchPerson (query : DeterministicMatcher.Query)
  | resolve (draws : Draws) (upload : Upload) (create_if_missing : Bool)

structure Call where
  tenant_id : UUID
  request_id : Option Str
  operation : Operation

inductive Answer where
  | lookup (r : PersonLookup)
  | response (r : ApiResponse)
  | matched (r : MatchResult)
  deriving DecidableEq

/-- The UUIDs a call draws. -/
def Operation.drawn : Operation → List UUID
  | .get _ => []
  | .create draws _ => [draws.person_uuid]
  | .matchPerson _ => []
  | .resolve draws _ _ => [draws.extraction_id, draws.person_uuid]

def Operation.rename (ρ : Equiv.Perm UUID) : Operation → Operation
  | .get person_uuid => .get (ρ person_uuid)
  | .create draws body => .create (draws.rename ρ) body
  | .matchPerson query => .matchPerson query
  | .resolve draws upload create_if_missing => .resolve (draws.rename ρ) upload create_if_missing

def Operation.body (lib : Libraries) (ctx : RequestContext) (tenant_id : UUID) :
    Operation → Tx Answer
  | .get person_uuid => do
      let r ← getPerson ctx person_uuid
      return .lookup r
  | .create draws body => do
      let r ← createPerson lib ctx draws body
      return .response r
  | .matchPerson query => do
      let r ← DeterministicMatcher.deterministicMatch tenant_id query
      return .matched r
  | .resolve draws upload create_if_missing => do
      let r ← resolveIdentity lib ctx draws upload create_if_missing
      return .response r

def Answer.rename (ρ : Equiv.Perm UUID) : Answer → Answer
  | .lookup r => .lookup (r.rename ρ)
  | .response r => .response (r.rename ρ)
  | .matched r => .matched (r.rename ρ)

/-- An answer or an exception with its UUIDs renamed. -/
def renameOutcome (ρ : Equiv.Perm UUID) : Except PyError Answer → Except PyError Answer
  | .ok a => .ok (a.rename ρ)
  | .error e => .error (e.rename ρ)

namespace Call

def ctx (c : Call) : RequestContext where
  tenant_id := some c.tenant_id
  request_id := c.request_id

def rename (ρ : Equiv.Perm UUID) (c : Call) : Call := { c with operation := c.operation.rename ρ }

def drawn (c : Call) : List UUID := c.operation.drawn

/-- The call in a transaction of its own. -/
def perform (lib : Libraries) (c : Call) (t : Tables) : Except PyError Answer × Tables :=
  transact c.ctx (c.operation.body lib c.ctx c.tenant_id) t

end Call

/-- The tables a run leaves. -/
def tablesAfter (lib : Libraries) (calls : List Call) (t : Tables) : Tables :=
  calls.foldl (fun t c => (c.perform lib t).2) t

/-- What a run answers to the calls of one tenant, in order. -/
def answersTo (lib : Libraries) (tenant : UUID) : List Call → Tables → List (Except PyError Answer)
  | [], _ => []
  | c :: calls, t =>
      if c.tenant_id == tenant then
        (c.perform lib t).1 :: answersTo lib tenant calls (c.perform lib t).2
      else answersTo lib tenant calls (c.perform lib t).2

theorem tablesAfter_cons (lib : Libraries) (c : Call) (calls : List Call) (t : Tables) :
    tablesAfter lib (c :: calls) t = tablesAfter lib calls (c.perform lib t).2 := rfl

theorem tablesAfter_append (lib : Libraries) (calls calls' : List Call) (t : Tables) :
    tablesAfter lib (calls ++ calls') t = tablesAfter lib calls' (tablesAfter lib calls t) :=
  List.foldl_append

theorem answersTo_cons_self (lib : Libraries) {tenant : UUID} {c : Call} (h : c.tenant_id = tenant)
    (calls : List Call) (t : Tables) :
    answersTo lib tenant (c :: calls) t =
      (c.perform lib t).1 :: answersTo lib tenant calls (c.perform lib t).2 :=
  if_pos (beq_iff_eq.mpr h)

theorem answersTo_cons_other (lib : Libraries) {tenant : UUID} {c : Call}
    (h : c.tenant_id ≠ tenant) (calls : List Call) (t : Tables) :
    answersTo lib tenant (c :: calls) t = answersTo lib tenant calls (c.perform lib t).2 :=
  if_neg (fun heq => h (beq_iff_eq.mp heq))

def callsOf (tenant : UUID) (calls : List Call) : List Call :=
  calls.filter (fun c => c.tenant_id == tenant)

/-- No UUID is drawn for two tenants. -/
def Apart (calls : List Call) : Prop :=
  ∀ c ∈ calls, ∀ c' ∈ calls, ∀ u ∈ c.drawn, u ∈ c'.drawn → c.tenant_id = c'.tenant_id

instance (calls : List Call) : Decidable (Apart calls) :=
  inferInstanceAs (Decidable (∀ c ∈ calls, ∀ c' ∈ calls, ∀ u ∈ c.drawn, u ∈ c'.drawn → _))

/-- Only rows of the tenant were written. -/
structure WritesOnly (tenant : UUID) (t t' : Tables) : Prop where
  others : t'.except tenant = t.except tenant
  written : ∀ r ∈ t'.rows, r ∉ t.rows → r.tenant_id = tenant

namespace Standpoint
variable {S : Standpoint} {ctx : RequestContext}

theorem alike_requireTenantId {α β : Type} {Q : α → β → Prop}
    (hctx : ctx.tenant_id = some S.tenant) {f : UUID → Tx α} {f' : UUID → Tx β}
    (h : S.coupling.Alike Q (f S.tenant) (f' S.tenant)) :
    S.coupling.Alike Q ((liftM (requireTenantId ctx) : Tx UUID) >>= f)
      ((liftM (requireTenantId ctx) : Tx UUID) >>= f') := by
  have htenant : requireTenantId ctx = .ok S.tenant := by rw [requireTenantId, hctx]
  rw [htenant]
  exact h

theorem alike_answerExtractionError (ctx : RequestContext) (e : PyError) :
    S.coupling.Alike (fun r r' => r' = r.rename S.ρ) (answerExtractionError ctx e)
      (answerExtractionError ctx (e.rename S.ρ)) := by
  cases e with
  | unsupportedDocumentError m => exact Coupling.Alike.pure rfl
  | noMRZFoundError m => exact Coupling.Alike.pure rfl
  | mrzFormatError m => exact Coupling.Alike.pure rfl
  | ocrUnavailableError m => exact Coupling.Alike.pure rfl
  | _ => exact Coupling.Alike.throw rfl

theorem alike_answerDuplicate (ctx : RequestContext) (e : PyError) :
    S.coupling.Alike (fun r r' => r' = r.rename S.ρ) (answerDuplicate ctx e)
      (answerDuplicate ctx (e.rename S.ρ)) := by
  cases e with
  | possibleDuplicateError found => exact Coupling.Alike.pure rfl
  | _ => exact Coupling.Alike.throw rfl

theorem toResponse_rename (ρ : Equiv.Perm UUID) (p : PersonService.LoadedPerson) :
    toResponse (p.rename ρ) = (toResponse p).rename ρ := by
  simp only [toResponse, PersonService.LoadedPerson.rename, PersonResponse.rename, List.map_map]
  rfl

variable (hctx : ctx.tenant_id = some S.tenant)
include hctx

theorem alike_uploadEndpoint (payload : Bytes) {call call' : UUID → Tx ApiResponse}
    (h : S.coupling.Alike (fun r r' => r' = r.rename S.ρ) (call S.tenant) (call' S.tenant)) :
    S.coupling.Alike (fun r r' => r' = r.rename S.ρ) (uploadEndpoint ctx payload call)
      (uploadEndpoint ctx payload call') := by
  apply alike_requireTenantId hctx
  by_cases hempty : payload = []
  · rw [if_pos hempty, if_pos hempty]
    exact Coupling.Alike.pure rfl
  · rw [if_neg hempty, if_neg hempty]
    by_cases hlarge : payload.length > maxPayloadBytes
    · rw [if_pos hlarge, if_pos hlarge]
      exact Coupling.Alike.pure rfl
    · rw [if_neg hlarge, if_neg hlarge]
      exact alike_tryCatch h (alike_answerExtractionError ctx)

variable (lib : Libraries) {draws : Draws}

theorem alike_resolveIdentity (upload : Upload) (create_if_missing : Bool)
    (hextraction : S.owner draws.extraction_id = some S.tenant)
    (hperson : S.owner draws.person_uuid = some S.tenant) :
    S.coupling.Alike (fun r r' => r' = r.rename S.ρ)
      (resolveIdentity lib ctx draws upload create_if_missing)
      (resolveIdentity lib ctx (draws.rename S.ρ) upload create_if_missing) := by
  apply alike_uploadEndpoint hctx
  apply (alike_resolve lib ctx upload.payload upload.contentType upload.consumer_request_id
    create_if_missing hextraction hperson).bind
  rintro result _ rfl
  exact Coupling.Alike.pure rfl

theorem alike_createPerson (body : PersonService.Args)
    (hperson : S.owner draws.person_uuid = some S.tenant) :
    S.coupling.Alike (fun r r' => r' = r.rename S.ρ) (createPerson lib ctx draws body)
      (createPerson lib ctx (draws.rename S.ρ) body) := by
  apply alike_requireTenantId hctx
  refine alike_tryCatch ?_ (alike_answerDuplicate ctx)
  apply (alike_create lib ctx body hperson).bind
  rintro person _ rfl
  rw [toResponse_rename]
  exact Coupling.Alike.pure rfl

theorem alike_getPerson (person_uuid : UUID) :
    S.coupling.Alike (fun r r' => r' = r.rename S.ρ) (getPerson ctx person_uuid)
      (getPerson ctx (S.ρ person_uuid)) := by
  apply alike_requireTenantId hctx
  apply (alike_get ctx person_uuid).bind
  rintro person _ ⟨rfl, hdrawn⟩
  cases person with
  | none => exact Coupling.Alike.pure rfl
  | some person =>
    apply (alike_refresh (hdrawn person rfl)).bind
    rintro loaded _ rfl
    rw [toResponse_rename]
    exact Coupling.Alike.pure rfl

theorem alike_operation (op : Operation)
    (hdrawn : ∀ u ∈ op.drawn, S.owner u = some S.tenant) :
    S.coupling.Alike (fun a a' => a' = a.rename S.ρ) (op.body lib ctx S.tenant)
      ((op.rename S.ρ).body lib ctx S.tenant) := by
  cases op with
  | get person_uuid =>
    apply (alike_getPerson hctx person_uuid).bind
    rintro r _ rfl
    exact Coupling.Alike.pure rfl
  | create draws body =>
    apply (alike_createPerson hctx lib body (hdrawn _ (List.mem_singleton_self _))).bind
    rintro r _ rfl
    exact Coupling.Alike.pure rfl
  | matchPerson query =>
    apply (alike_deterministicMatch query).bind
    rintro r _ rfl
    exact Coupling.Alike.pure rfl
  | resolve draws upload create_if_missing =>
    have hextraction : S.owner draws.extraction_id = some S.tenant := hdrawn _ List.mem_cons_self
    have hperson : S.owner draws.person_uuid = some S.tenant :=
      hdrawn _ (List.mem_cons_of_mem _ (List.mem_singleton_self _))
    apply (alike_resolveIdentity hctx lib upload create_if_missing hextraction hperson).bind
    rintro r _ rfl
    exact Coupling.Alike.pure rfl

end Standpoint

section Runs
variable {ρ : Equiv.Perm UUID} {owner : UUID → Option UUID} {t : Tables}

theorem renameOutcome_of_ends {r r' : Except PyError Answer}
    (h : EndsAlike (fun a a' => a' = a.rename ρ) (fun e e' => e' = e.rename ρ) r r') :
    r' = renameOutcome ρ r := by
  cases h with
  | ok h => exact congrArg Except.ok h
  | error h => exact congrArg Except.error h

/-- A call of the tenant, on the tables and on the tenant's view of them. -/
theorem Call.perform_project (lib : Libraries) (ρ : Equiv.Perm UUID) (c : Call)
    (howned : t.DrawnFor owner)
    (hdrawn : ∀ u ∈ c.drawn, owner u = some c.tenant_id) :
    (c.rename ρ).perform lib (t.project ρ c.tenant_id) =
        (renameOutcome ρ (c.perform lib t).1, (c.perform lib t).2.project ρ c.tenant_id) ∧
      (c.perform lib t).2.except c.tenant_id = t.except c.tenant_id ∧
      (c.perform lib t).2.DrawnFor owner := by
  let S : Standpoint := { owner := owner, tenant := c.tenant_id, ρ := ρ, before := t }
  have hctx : c.ctx.tenant_id = some S.tenant := rfl
  obtain ⟨hends, hsees⟩ := Standpoint.transact_alike (S := S) c.ctx howned
    (Standpoint.alike_operation hctx lib c.operation hdrawn)
  exact ⟨Prod.ext (renameOutcome_of_ends hends) hsees.view, hsees.others, hsees.owned⟩

/-- Another tenant's call leaves the tenant's view as it is. -/
theorem project_of_except {tenant other : UUID} (hne : other ≠ tenant) {t t' : Tables}
    (h : t'.except other = t.except other) : t'.project ρ tenant = t.project ρ tenant := by
  rw [Tables.project, Tables.project, ← Tables.of_except hne t', h, Tables.of_except hne t]

/-- A run for the tenant's view: its own calls, alone. -/
theorem tablesAfter_project (lib : Libraries) (ρ : Equiv.Perm UUID) (tenant : UUID)
    {calls : List Call} (howned : t.DrawnFor owner)
    (hdrawn : ∀ c ∈ calls, ∀ u ∈ c.drawn, owner u = some c.tenant_id) :
    answersTo lib tenant ((callsOf tenant calls).map (Call.rename ρ)) (t.project ρ tenant) =
        (answersTo lib tenant calls t).map (renameOutcome ρ) ∧
      tablesAfter lib ((callsOf tenant calls).map (Call.rename ρ)) (t.project ρ tenant) =
        (tablesAfter lib calls t).project ρ tenant ∧
      (tablesAfter lib calls t).DrawnFor owner := by
  induction calls generalizing t with
  | nil => exact ⟨rfl, rfl, howned⟩
  | cons c calls ih =>
    obtain ⟨hview, hothers, howned'⟩ :=
      c.perform_project lib ρ howned (hdrawn c List.mem_cons_self)
    have ih := ih howned' (fun c' hc' => hdrawn c' (List.mem_cons_of_mem _ hc'))
    by_cases hc : c.tenant_id = tenant
    · subst hc
      have hkept : callsOf c.tenant_id (c :: calls) = c :: callsOf c.tenant_id calls :=
        List.filter_cons_of_pos (beq_self_eq_true _)
      have hrenamed : (c.rename ρ).tenant_id = c.tenant_id := rfl
      rw [hkept, List.map_cons, answersTo_cons_self lib hrenamed, answersTo_cons_self lib rfl,
        List.map_cons, tablesAfter_cons, tablesAfter_cons, hview]
      exact ⟨congrArg _ ih.1, ih.2⟩
    · have hdropped : callsOf tenant (c :: calls) = callsOf tenant calls :=
        List.filter_cons_of_neg (fun heq => hc (beq_iff_eq.mp heq))
      rw [hdropped, answersTo_cons_other lib hc, tablesAfter_cons, ← project_of_except hc hothers]
      exact ih

end Runs

section One

theorem Draws.rename_one (draws : Draws) : draws.rename 1 = draws := by
  have hread : draws.read_mrz.mapError (PyError.rename 1) = draws.read_mrz := by
    cases draws.read_mrz with
    | ok lines => rfl
    | error e => exact congrArg _ e.rename_one
  rw [rename, hread]
  rfl

theorem Call.rename_one (c : Call) : c.rename 1 = c := by
  obtain ⟨tenant_id, request_id, operation⟩ := c
  cases operation with
  | get person_uuid => rfl
  | create draws body => simp only [Call.rename, Operation.rename, Draws.rename_one]
  | matchPerson query => rfl
  | resolve draws upload create_if_missing =>
    simp only [Call.rename, Operation.rename, Draws.rename_one]

theorem ErrorEnvelope.rename_one (e : ErrorEnvelope) : e.rename 1 = e := by
  have hmessage : e.message.rename 1 = e.message := by
    cases e.message with
    | text m => rfl
    | possibleDuplicate found => exact congrArg _ found.rename_one
  have hdetail : ∀ d : String × DetailValue, (d.1, d.2.rename 1) = d := by
    rintro ⟨name, value⟩
    cases value with
    | uuid u => exact congrArg (fun u => (name, DetailValue.uuid u)) (map_one u)
    | _ => rfl
  rw [rename, hmessage, List.map_id'' hdetail]

theorem ApiResponse.rename_one (r : ApiResponse) : r.rename 1 = r := by
  cases r with
  | extracted r => rfl
  | resolved r =>
    simp only [ApiResponse.rename, IdentityService.ResolveResult.rename, map_one]
    rfl
  | created r => rfl
  | error e => exact congrArg _ e.rename_one

theorem renameOutcome_one (r : Except PyError Answer) : renameOutcome 1 r = r := by
  cases r with
  | error e => exact congrArg _ e.rename_one
  | ok a =>
    cases a with
    | lookup r =>
      cases r with
      | found r => rfl
      | notFound person_uuid trace_id => rfl
    | response r => exact congrArg (fun r => Except.ok (Answer.response r)) r.rename_one
    | matched r => exact congrArg (fun r => Except.ok (Answer.matched r)) r.rename_one

end One

/-- The tenant of the call that draws a UUID. -/
def ownerOf (calls : List Call) (u : UUID) : Option UUID :=
  (calls.find? (fun c => c.drawn.contains u)).map Call.tenant_id

theorem ownerOf_drawn {calls : List Call} (h : Apart calls) {c : Call} (hc : c ∈ calls) {u : UUID}
    (hu : u ∈ c.drawn) : ownerOf calls u = some c.tenant_id := by
  unfold ownerOf
  cases hfind : calls.find? (fun c => c.drawn.contains u) with
  | none => exact absurd (List.contains_iff_mem.mpr hu) (List.find?_eq_none.mp hfind c hc)
  | some c' =>
    have hdraws : c'.drawn.contains u = true :=
      List.find?_some (p := fun c : Call => c.drawn.contains u) hfind
    have hu' : u ∈ c'.drawn := List.contains_iff_mem.mp hdraws
    exact congrArg some (h c' (List.mem_of_find?_eq_some hfind) c hc u hu' hu)

theorem Tables.drawnFor_empty (tenants : List UUID) (owner : UUID → Option UUID) :
    (Tables.empty tenants).DrawnFor owner := fun _ h => absurd h List.not_mem_nil

theorem WritesOnly.of_except {tenant : UUID} {t t' : Tables}
    (h : t'.except tenant = t.except tenant) : WritesOnly tenant t t' where
  others := h
  written := by
    intro r hr hnew
    by_contra hother
    have hkept : r ∈ (t'.except tenant).rows :=
      Tables.mem_rows_restrict.mpr ⟨hr, bne_iff_ne.mpr hother⟩
    rw [h] at hkept
    exact hnew (Tables.mem_rows_restrict.mp hkept).1

/-- Two runs with the same calls of a tenant, up to the UUIDs they draw, answer them the same and
leave the tenant the same rows, and every call of the tenant writes rows of the tenant only. The
other tenants need not be the same. -/
theorem tenants_isolated (lib : Libraries) (ρ : Equiv.Perm UUID) (tenant : UUID)
    {tenants tenants' : List UUID} {calls calls' : List Call} (hapart : Apart calls)
    (hapart' : Apart calls')
    (htenant : tenants'.filter (· == tenant) = tenants.filter (· == tenant))
    (hsame : callsOf tenant calls' = (callsOf tenant calls).map (Call.rename ρ)) :
    answersTo lib tenant calls' (.empty tenants') =
        (answersTo lib tenant calls (.empty tenants)).map (renameOutcome ρ) ∧
      (tablesAfter lib calls' (.empty tenants')).of tenant =
        ((tablesAfter lib calls (.empty tenants)).of tenant).rename ρ ∧
      ∀ before c after, calls = before ++ c :: after → c.tenant_id = tenant →
        WritesOnly tenant (tablesAfter lib before (.empty tenants))
          (tablesAfter lib (before ++ [c]) (.empty tenants)) := by
  obtain ⟨hanswers, htables, -⟩ := tablesAfter_project lib ρ tenant
    (Tables.drawnFor_empty tenants (ownerOf calls)) (fun c hc _ hu => ownerOf_drawn hapart hc hu)
  obtain ⟨hanswers', htables', -⟩ := tablesAfter_project lib 1 tenant
    (Tables.drawnFor_empty tenants' (ownerOf calls')) (fun c hc _ hu => ownerOf_drawn hapart' hc hu)
  rw [List.map_id'' Call.rename_one, hsame] at hanswers' htables'
  rw [List.map_id'' renameOutcome_one] at hanswers'
  have hseen : (Tables.empty tenants').project 1 tenant = (Tables.empty tenants).project ρ tenant :=
    congrArg Tables.empty htenant
  rw [hseen] at hanswers' htables'
  rw [Tables.project, Tables.project, Tables.rename_one] at htables'
  refine ⟨hanswers'.symm.trans hanswers, htables'.symm.trans htables, ?_⟩
  rintro before c after rfl rfl
  have hbefore : ∀ c' ∈ before, ∀ u ∈ c'.drawn,
      ownerOf (before ++ c :: after) u = some c'.tenant_id :=
    fun c' hc' _ hu => ownerOf_drawn hapart (List.mem_append_left _ hc') hu
  obtain ⟨-, -, howned⟩ := tablesAfter_project lib 1 c.tenant_id
    (Tables.drawnFor_empty tenants (ownerOf (before ++ c :: after))) hbefore
  have hc : ∀ u ∈ c.drawn, ownerOf (before ++ c :: after) u = some c.tenant_id :=
    fun _ hu => ownerOf_drawn hapart (List.mem_append_right _ List.mem_cons_self) hu
  rw [tablesAfter_append]
  exact WritesOnly.of_except (c.perform_project lib 1 howned hc).2.1

namespace Specimen

/-- A create call with the specimen's passport. -/
def register (tenant_id person_uuid : UUID) : Call where
  tenant_id := tenant_id
  request_id := none
  operation := .create (draws 0 person_uuid) { passport_number := some "P1234567".toList }

def search (tenant_id : UUID) : Call where
  tenant_id := tenant_id
  request_id := none
  operation := .matchPerson { passport_number := some "P1234567".toList }

def fetch (tenant_id person_uuid : UUID) : Call where
  tenant_id := tenant_id
  request_id := none
  operation := .get person_uuid

/-- The tenant registers a passport, then looks for it. -/
def quiet : List Call := [register tenant 7, search tenant, fetch tenant 7]

/-- The same next to a tenant that registers that passport first and asks for the person. -/
def busy : List Call :=
  [register 2 7, search 2, register tenant 8, fetch 2 8, search tenant, fetch tenant 8]

theorem quiet_busy_isolated :
    answersTo lib tenant busy (.empty [2, tenant]) =
        (answersTo lib tenant quiet (.empty [tenant])).map (renameOutcome (Equiv.swap 7 8)) ∧
      (tablesAfter lib busy (.empty [2, tenant])).of tenant =
        ((tablesAfter lib quiet (.empty [tenant])).of tenant).rename (Equiv.swap 7 8) ∧
      ∀ before c after, quiet = before ++ c :: after → c.tenant_id = tenant →
        WritesOnly tenant (tablesAfter lib before (.empty [tenant]))
          (tablesAfter lib (before ++ [c]) (.empty [tenant])) :=
  tenants_isolated lib (Equiv.swap 7 8) tenant (by decide) (by decide) rfl rfl

end Specimen
end Hawiya
