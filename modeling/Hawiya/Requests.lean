import Hawiya.Api
import Hawiya.CommittedCalls

/-!
# Requests on the registry

A request that writes, as its endpoint runs it, in one transaction. Its effect on the
committed tables is that of the service call, except that an exception the endpoint answers lets
the transaction commit what the session held: audit rows at most.
-/

namespace Hawiya
open PyString Calendar Interaction Db ExtractionService IdentityService

section Endpoint
variable {α β : Type} {ctx : RequestContext} {t : Tables}

theorem run_closeSession_map {ι : Type} [DecidableEq ι] (i : ι) (f : α → β) (a : α) (db : Db ι) :
    runTx i (closeSession (.ok (f a))) db =
      ((runTx i (closeSession (.ok a)) db).1.map f, (runTx i (closeSession (.ok a)) db).2) := by
  simp only [closeSession, runTx_handle]
  cases (runTx i (do Session.flush; Session.commit) db).1 with
  | ok u => rfl
  | error e => rfl

/-- Mapping the value a body returns does not change what its transaction does. -/
theorem transact_map {tx : Tx α} {tx' : Tx β} {a : α} {db : Db Unit} {tenant_id : UUID} (f : α → β)
    (hctx : ctx.tenant_id = some tenant_id) (h : runTx () tx (Db.start t) = (.ok a, db))
    (h' : runTx () tx' (Db.start t) = (.ok (f a), db)) :
    transact ctx tx' t = ((transact ctx tx t).1.map f, (transact ctx tx t).2) := by
  unfold transact getSession
  rw [hctx]
  simp only [runTx_handle, h, h', run_closeSession_map () f a db]

theorem run_tryCatch_ok {tx : Tx α} {handler : PyError → Tx α} {a : α} {db db' : Db Unit}
    (h : runTx () tx db = (.ok a, db')) : runTx () (tryCatch tx handler) db = (.ok a, db') := by
  rw [Program.tryCatch_def, runTx_handle, h]
  rfl

theorem run_tryCatch_error {tx : Tx α} {handler : PyError → Tx α} {e : PyError} {db db' : Db Unit}
    (h : runTx () tx db = (.error e, db')) :
    runTx () (tryCatch tx handler) db = runTx () (handler e) db' := by
  rw [Program.tryCatch_def, runTx_handle, h]

theorem run_requireTenantId {tenant_id : UUID} (hctx : ctx.tenant_id = some tenant_id) (db : Db Unit)
    (f : UUID → Tx α) :
    runTx () ((liftM (requireTenantId ctx) : Tx UUID) >>= f) db = runTx () (f tenant_id) db := by
  simp only [runTx_bind, requireTenantId, hctx, runTx_liftM]

end Endpoint

/-- GET and search are left out: they leave the tables as they are. -/
inductive Request where
  | extract (ctx : RequestContext) (draws : Draws) (upload : Upload)
  | resolve (ctx : RequestContext) (draws : Draws) (upload : Upload) (create_if_missing : Bool)
  | create (ctx : RequestContext) (draws : Draws) (body : PersonService.Args)

namespace Request

def ctx : Request → RequestContext
  | .extract ctx .. => ctx
  | .resolve ctx .. => ctx
  | .create ctx .. => ctx

def endpoint (lib : Libraries) : Request → Tx ApiResponse
  | .extract ctx draws upload => extractDocument lib ctx draws upload
  | .resolve ctx draws upload create_if_missing =>
      resolveIdentity lib ctx draws upload create_if_missing
  | .create ctx draws body => createPerson lib ctx draws body

def perform (lib : Libraries) (req : Request) (t : Tables) : Except PyError ApiResponse × Tables :=
  transact req.ctx (req.endpoint lib) t

end Request

section Effects
variable {lib : Libraries} {ctx : RequestContext} {draws : Draws} {t : Tables} {tenant_id : UUID}

theorem transact_no_tenant {α : Type} {tx : Tx α} (h : ctx.tenant_id = none) :
    ∃ e, transact ctx tx t = (.error e, t) := by
  refine ⟨.runtimeError "set_session_tenant called without a tenant in context.", ?_⟩
  unfold transact getSession
  rw [h]
  rfl

/-- What a resolve request returns and leaves. -/
inductive ResolveEffect (lib : Libraries) (ctx : RequestContext) (draws : Draws) (upload : Upload)
    (create_if_missing : Bool) (t : Tables) : Except PyError ApiResponse × Tables → Prop
  | failed (e : PyError) : ResolveEffect lib ctx draws upload create_if_missing t (.error e, t)
  | refused (envelope : ErrorEnvelope) (audits : List AuditLog) :
      ResolveEffect lib ctx draws upload create_if_missing t
        (.ok (.error envelope), t.insertAll (audits.map .auditLog))
  | resolved (tenant_id : UUID) (document_type : DocumentType) (parsed : ParsedMRZ)
      (r : IdentityService.ResolveResult) (t' : Tables)
      (reads : Reads lib draws ctx tenant_id upload.payload upload.contentType document_type parsed)
      (leaves : IdentityService.Resolved lib ctx draws tenant_id upload.payload
        upload.consumer_request_id create_if_missing t document_type parsed r t') :
      ResolveEffect lib ctx draws upload create_if_missing t (.ok (.resolved r), t')

theorem extractionErrorResponse_is_error {e : PyError} {response : ApiResponse}
    (h : extractionErrorResponse ctx e = some response) :
    ∃ envelope, response = .error envelope := by
  cases e with
  | unsupportedDocumentError m => exact ⟨_, (Option.some.inj h).symm⟩
  | noMRZFoundError m => exact ⟨_, (Option.some.inj h).symm⟩
  | mrzFormatError m => exact ⟨_, (Option.some.inj h).symm⟩
  | ocrUnavailableError m => exact ⟨_, (Option.some.inj h).symm⟩
  | _ => simp [extractionErrorResponse] at h

theorem extractionErrorResponse_of_server {e : PyError} (h : e.ofServer = true) :
    extractionErrorResponse ctx e = none := by
  cases e with
  | operationalError => rfl
  | integrityError constraint => rfl
  | dbapiError => rfl
  | _ => cases h

theorem failedRows_eq (lib : Libraries) (ctx : RequestContext) (tenant_id : UUID) (payload : Bytes)
    (e : PyError) :
    ∃ audits : List AuditLog, failedRows lib ctx tenant_id payload e = audits.map Row.auditLog := by
  cases e with
  | noMRZFoundError m => exact ⟨[_], rfl⟩
  | ocrUnavailableError m => exact ⟨[_], rfl⟩
  | mrzFormatError m => exact ⟨[_], rfl⟩
  | _ => exact ⟨[], rfl⟩

/-- A request that fails and changes nothing, or is refused and leaves audit rows at most. -/
inductive Refused (t : Tables) : Except PyError ApiResponse × Tables → Prop
  | failed (e : PyError) : Refused t (.error e, t)
  | answered (envelope : ErrorEnvelope) (audits : List AuditLog) :
      Refused t (.ok (.error envelope), t.insertAll (audits.map .auditLog))

/-- A body that returns an error envelope with at most audit rows pending commits just those, or
fails where they are refused. -/
theorem transact_refused {tx : Tx ApiResponse} {envelope : ErrorEnvelope} (audits : List AuditLog)
    (hctx : ctx.tenant_id = some tenant_id)
    (h : runTx () tx (during t () [] []) =
      (.ok (.error envelope), during t () [] (audits.map .auditLog))) :
    transact ctx tx t = (.ok (.error envelope), t.insertAll (audits.map .auditLog)) ∨
      ∃ e, transact ctx tx t = (.error e, t) := by
  by_cases hacc : t.AcceptsAll (audits.map .auditLog)
  · refine .inl ?_
    rw [transact_of_accepts hctx h hacc, List.nil_append, Tables.applyAll_inserts]
  · exact .inr (transact_of_not_accepts hctx h hacc)

theorem run_uploadEndpoint_passed {payload : Bytes} {call : UUID → Tx ApiResponse}
    (hctx : ctx.tenant_id = some tenant_id) (hne : payload ≠ [])
    (hsmall : payload.length ≤ maxPayloadBytes) :
    runTx () (uploadEndpoint ctx payload call) (during t () [] []) =
      runTx () (tryCatch (call tenant_id) (answerExtractionError ctx)) (during t () [] []) := by
  unfold uploadEndpoint
  rw [run_requireTenantId hctx, if_neg hne, if_neg (Nat.not_lt.mpr hsmall)]

theorem run_uploadEndpoint {payload : Bytes} {call : UUID → Tx ApiResponse}
    (hctx : ctx.tenant_id = some tenant_id) :
    (∃ envelope, runTx () (uploadEndpoint ctx payload call) (during t () [] []) =
      (.ok (.error envelope), during t () [] [])) ∨
    runTx () (uploadEndpoint ctx payload call) (during t () [] []) =
      runTx () (tryCatch (call tenant_id) (answerExtractionError ctx)) (during t () [] []) := by
  by_cases hempty : payload = []
  · exact .inl ⟨_, by rw [uploadEndpoint, run_requireTenantId hctx, if_pos hempty]; rfl⟩
  · by_cases hlarge : payload.length > maxPayloadBytes
    · exact .inl ⟨_, by
        rw [uploadEndpoint, run_requireTenantId hctx, if_neg hempty, if_pos hlarge]; rfl⟩
    · exact .inr (run_uploadEndpoint_passed hctx hempty (Nat.not_lt.mp hlarge))

/-- An upload is refused unless it comes to the service call. -/
theorem transact_uploadEndpoint (payload : Bytes) (call : UUID → Tx ApiResponse) :
    Refused t (transact ctx (uploadEndpoint ctx payload call) t) ∨
      ∃ tenant_id, ctx.tenant_id = some tenant_id ∧
        runTx () (uploadEndpoint ctx payload call) (during t () [] []) =
          runTx () (tryCatch (call tenant_id) (answerExtractionError ctx)) (during t () [] []) := by
  cases hctx : ctx.tenant_id with
  | none =>
    obtain ⟨e, he⟩ : ∃ e, transact ctx (uploadEndpoint ctx payload call) t = (.error e, t) :=
      transact_no_tenant hctx
    rw [he]
    exact .inl (.failed e)
  | some tenant_id =>
    rcases run_uploadEndpoint hctx with ⟨envelope, hrefused⟩ | hcall
    · refine .inl ?_
      rcases transact_refused [] hctx hrefused with hok | ⟨e, hfail⟩
      · rw [hok]
        exact .answered envelope []
      · rw [hfail]
        exact .failed e
    · exact .inr ⟨tenant_id, rfl, hcall⟩

/-- A service exception is answered, with at most audit rows left behind, or the transaction
fails. -/
theorem transact_handled {tx : Tx ApiResponse} {call : Tx ApiResponse} {e : PyError}
    {audits : List AuditLog} (hctx : ctx.tenant_id = some tenant_id)
    (htx : runTx () tx (during t () [] []) =
      runTx () (tryCatch call (answerExtractionError ctx)) (during t () [] []))
    (hcall : runTx () call (during t () [] []) =
      (.error e, during t () [] (audits.map .auditLog))) :
    (∃ envelope, transact ctx tx t =
      (.ok (.error envelope), t.insertAll (audits.map .auditLog))) ∨
    ∃ e, transact ctx tx t = (.error e, t) := by
  rw [run_tryCatch_error hcall, answerExtractionError] at htx
  cases hresponse : extractionErrorResponse ctx e with
  | none =>
    rw [hresponse] at htx
    exact .inr ⟨e, transact_of_error hctx htx⟩
  | some response =>
    obtain ⟨envelope, rfl⟩ := extractionErrorResponse_is_error hresponse
    rw [hresponse] at htx
    exact (transact_refused audits hctx htx).imp_left (fun h => ⟨envelope, h⟩)

/-- A service call that fails with its extraction is refused where the document is not read. -/
theorem refused_of_not_reads {tx call : Tx ApiResponse} {upload : Upload}
    (hctx : ctx.tenant_id = some tenant_id)
    (htx : runTx () tx (during t () [] []) =
      runTx () (tryCatch call (answerExtractionError ctx)) (during t () [] []))
    (hcall : ∀ e db, runTx () (extract lib ctx draws tenant_id upload.payload upload.contentType
        upload.consumer_request_id) (during t () [] []) = (.error e, db) →
      runTx () call (during t () [] []) = (.error e, db))
    (hreads : ¬ ∃ document_type parsed,
      Reads lib draws ctx tenant_id upload.payload upload.contentType document_type parsed) :
    Refused t (transact ctx tx t) := by
  obtain ⟨e, e', hrun⟩ := run_extract_of_not_reads t () [] [] upload.consumer_request_id hreads
  obtain ⟨audits, haudits⟩ := failedRows_eq lib ctx tenant_id upload.payload e'
  rw [haudits, List.nil_append] at hrun
  rcases transact_handled hctx htx (hcall e _ hrun) with ⟨envelope, hok⟩ | ⟨e', hfail⟩
  · rw [hok]
    exact .answered envelope audits
  · rw [hfail]
    exact .failed e'

def resolveCall (lib : Libraries) (ctx : RequestContext) (draws : Draws) (upload : Upload)
    (create_if_missing : Bool) (tenant_id : UUID) : Tx ApiResponse := do
  let result ← IdentityService.resolve lib ctx draws tenant_id upload.payload
    upload.contentType upload.consumer_request_id create_if_missing
  return .resolved result

theorem resolveEffect_of_reads {tx : Tx ApiResponse} {upload : Upload} {create_if_missing : Bool}
    {document_type : DocumentType} {parsed : ParsedMRZ} (hkeys : t.keys.Nodup)
    (hctx : ctx.tenant_id = some tenant_id)
    (htx : runTx () tx (during t () [] []) =
      runTx () (tryCatch (resolveCall lib ctx draws upload create_if_missing tenant_id)
        (answerExtractionError ctx)) (during t () [] []))
    (hreads : Reads lib draws ctx tenant_id upload.payload upload.contentType document_type parsed) :
    ResolveEffect lib ctx draws upload create_if_missing t (transact ctx tx t) := by
  rcases run_resolve_cases hreads hkeys with ⟨r, db, hrun⟩ | ⟨e, cs', hserver, hrun⟩
  · have hresolve : runTx () (resolveCall lib ctx draws upload create_if_missing tenant_id)
        (during t () [] []) = (.ok (.resolved r), db) := by
      rw [resolveCall, runTx_bind, hrun]
      rfl
    rw [← start_eq_during] at hrun htx hresolve
    rw [run_tryCatch_ok hresolve] at htx
    rw [transact_map ApiResponse.resolved hctx hrun htx]
    rcases transact_resolve_cases hkeys with ⟨e, herror⟩ |
      ⟨document_type', parsed', r', t', hreads', hok, hresolved⟩
    · rw [herror]
      exact .failed e
    · rw [hok]
      exact .resolved tenant_id document_type' parsed' r' t' hreads' hresolved
  · have hresolve : runTx () (resolveCall lib ctx draws upload create_if_missing tenant_id)
        (during t () [] []) = (.error e, during t () cs' []) := by
      rw [resolveCall, runTx_bind, hrun]
    rw [run_tryCatch_error hresolve, answerExtractionError,
      extractionErrorResponse_of_server hserver] at htx
    rw [transact_of_error hctx htx]
    exact .failed _

theorem Refused.resolve {upload : Upload} {create_if_missing : Bool}
    {outcome : Except PyError ApiResponse × Tables} (h : Refused t outcome) :
    ResolveEffect lib ctx draws upload create_if_missing t outcome := by
  cases h with
  | failed e => exact .failed e
  | answered envelope audits => exact .refused envelope audits

/-- A resolve request either fails and changes nothing, or is refused and leaves audit rows at
most, or returns the result of its resolve call. -/
theorem resolve_effect (upload : Upload) (create_if_missing : Bool) (hkeys : t.keys.Nodup) :
    ResolveEffect lib ctx draws upload create_if_missing t
      (transact ctx (resolveIdentity lib ctx draws upload create_if_missing) t) := by
  have hendpoint : resolveIdentity lib ctx draws upload create_if_missing =
      uploadEndpoint ctx upload.payload (resolveCall lib ctx draws upload create_if_missing) := rfl
  rw [hendpoint]
  rcases transact_uploadEndpoint upload.payload
    (resolveCall lib ctx draws upload create_if_missing) with hrefused | ⟨tenant_id, hctx, hcall⟩
  · exact hrefused.resolve
  · by_cases hreads : ∃ document_type parsed, Reads lib draws ctx tenant_id upload.payload
        upload.contentType document_type parsed
    · obtain ⟨document_type, parsed, hreads⟩ := hreads
      exact resolveEffect_of_reads hkeys hctx hcall hreads
    · refine (refused_of_not_reads hctx hcall (fun e db hrun => ?_) hreads).resolve
      unfold resolveCall IdentityService.resolve
      rw [runTx_bind, run_requiresTenant () hctx, runTx_bind, hrun]

/-- What an extract request returns and leaves. -/
inductive ExtractEffect (lib : Libraries) (ctx : RequestContext) (draws : Draws) (upload : Upload)
    (t : Tables) : Except PyError ApiResponse × Tables → Prop
  | failed (e : PyError) : ExtractEffect lib ctx draws upload t (.error e, t)
  | refused (envelope : ErrorEnvelope) (audits : List AuditLog) :
      ExtractEffect lib ctx draws upload t
        (.ok (.error envelope), t.insertAll (audits.map .auditLog))
  | extracted (tenant_id : UUID) (document_type : DocumentType) (parsed : ParsedMRZ)
      (reads : Reads lib draws ctx tenant_id upload.payload upload.contentType document_type
        parsed) :
      ExtractEffect lib ctx draws upload t
        (.ok (.extracted (result draws document_type parsed)),
          t.insertAll (extractionRows lib ctx draws tenant_id upload.payload
            upload.consumer_request_id document_type parsed))

def extractCall (lib : Libraries) (ctx : RequestContext) (draws : Draws) (upload : Upload)
    (tenant_id : UUID) : Tx ApiResponse := do
  let result ← extract lib ctx draws tenant_id upload.payload upload.contentType
    upload.consumer_request_id
  return .extracted result

theorem extractEffect_of_reads {tx : Tx ApiResponse} {upload : Upload}
    {document_type : DocumentType} {parsed : ParsedMRZ} (hctx : ctx.tenant_id = some tenant_id)
    (htx : runTx () tx (during t () [] []) =
      runTx () (tryCatch (extractCall lib ctx draws upload tenant_id) (answerExtractionError ctx))
        (during t () [] []))
    (hreads : Reads lib draws ctx tenant_id upload.payload upload.contentType document_type
      parsed) :
    ExtractEffect lib ctx draws upload t (transact ctx tx t) := by
  have hcall : runTx () (extractCall lib ctx draws upload tenant_id) (during t () [] []) =
      (.ok (.extracted (result draws document_type parsed)),
        during t () [] (extractionRows lib ctx draws tenant_id upload.payload
          upload.consumer_request_id document_type parsed)) := by
    rw [extractCall, runTx_bind, run_extract t () [] [] upload.consumer_request_id hreads]
    rfl
  rw [run_tryCatch_ok hcall] at htx
  by_cases hacc : t.AcceptsAll (extractionRows lib ctx draws tenant_id upload.payload
      upload.consumer_request_id document_type parsed)
  · rw [transact_of_accepts hctx htx hacc, List.nil_append, Tables.applyAll_inserts]
    exact .extracted tenant_id document_type parsed hreads
  · obtain ⟨e, hfail⟩ := transact_of_not_accepts hctx htx hacc
    rw [hfail]
    exact .failed e

theorem Refused.extract {upload : Upload} {outcome : Except PyError ApiResponse × Tables}
    (h : Refused t outcome) : ExtractEffect lib ctx draws upload t outcome := by
  cases h with
  | failed e => exact .failed e
  | answered envelope audits => exact .refused envelope audits

/-- An extract request fails, or is refused and leaves audit rows at most, or adds its rows. -/
theorem extract_effect (lib : Libraries) (ctx : RequestContext) (draws : Draws) (upload : Upload)
    (t : Tables) :
    ExtractEffect lib ctx draws upload t (transact ctx (extractDocument lib ctx draws upload) t) := by
  have hendpoint : extractDocument lib ctx draws upload =
      uploadEndpoint ctx upload.payload (extractCall lib ctx draws upload) := rfl
  rw [hendpoint]
  rcases transact_uploadEndpoint upload.payload (extractCall lib ctx draws upload) with
    hrefused | ⟨tenant_id, hctx, hcall⟩
  · exact hrefused.extract
  · by_cases hreads : ∃ document_type parsed, Reads lib draws ctx tenant_id upload.payload
        upload.contentType document_type parsed
    · obtain ⟨document_type, parsed, hreads⟩ := hreads
      exact extractEffect_of_reads hctx hcall hreads
    · refine (refused_of_not_reads hctx hcall (fun e db hrun => ?_) hreads).extract
      rw [extractCall, runTx_bind, hrun]

/-- What a create request returns and leaves. -/
inductive CreateEffect (lib : Libraries) (ctx : RequestContext) (draws : Draws)
    (body : PersonService.Args) (t : Tables) : Except PyError ApiResponse × Tables → Prop
  | failed (e : PyError) : CreateEffect lib ctx draws body t (.error e, t)
  | duplicate (found : MatchResult) :
      CreateEffect lib ctx draws body t (.ok (duplicateResponse ctx found), t)
  | created (tenant_id : UUID) (tenant : ctx.tenant_id = some tenant_id)
      (unregistered : PersonService.NoneActive t tenant_id body)
      (fresh : .person draws.person_uuid ∉ t.keys) :
      CreateEffect lib ctx draws body t
        (.ok (.created (toResponse (PersonService.loaded
          (t.insertAll (PersonService.allRows lib ctx draws tenant_id body))
          (PersonService.personRow lib draws tenant_id body)))),
          t.insertAll (PersonService.allRows lib ctx draws tenant_id body))

def createCall (lib : Libraries) (ctx : RequestContext) (draws : Draws) (body : PersonService.Args)
    (tenant_id : UUID) : Tx ApiResponse := do
  let person ← PersonService.create lib ctx draws tenant_id body
  return .created (toResponse person)

theorem run_createPerson (lib : Libraries) (draws : Draws)
    (hctx : ctx.tenant_id = some tenant_id) (body : PersonService.Args)
    (db : Db Unit) :
    runTx () (createPerson lib ctx draws body) db =
      runTx () (tryCatch (createCall lib ctx draws body tenant_id) (answerDuplicate ctx)) db := by
  unfold createPerson
  rw [run_requireTenantId hctx]
  rfl

theorem createEffect_of_server {tx : Tx ApiResponse} {body : PersonService.Args} {e : PyError}
    {cs : List Change} (hctx : ctx.tenant_id = some tenant_id)
    (htx : runTx () tx (during t () [] []) =
      runTx () (tryCatch (createCall lib ctx draws body tenant_id) (answerDuplicate ctx))
        (during t () [] []))
    (hserver : e.ofServer = true)
    (hrun : runTx () (PersonService.create lib ctx draws tenant_id body) (during t () [] []) =
      (.error e, during t () cs [])) :
    CreateEffect lib ctx draws body t (transact ctx tx t) := by
  have hcall : runTx () (createCall lib ctx draws body tenant_id) (during t () [] []) =
      (.error e, during t () cs []) := by
    rw [createCall, runTx_bind, hrun]
  have hpass : answerDuplicate ctx e = throw e := by
    cases e with
    | possibleDuplicateError found => cases hserver
    | _ => rfl
  rw [run_tryCatch_error hcall, hpass, runTx_throw] at htx
  rw [transact_of_error hctx htx]
  exact .failed e

/-- A create request fails, or is refused as a duplicate and changes nothing, or adds its rows. -/
theorem create_effect (body : PersonService.Args) (hkeys : t.keys.Nodup) :
    CreateEffect lib ctx draws body t (transact ctx (createPerson lib ctx draws body) t) := by
  cases hctx : ctx.tenant_id with
  | none =>
    obtain ⟨e, he⟩ : ∃ e, transact ctx (createPerson lib ctx draws body) t = (.error e, t) :=
      transact_no_tenant hctx
    rw [he]
    exact .failed e
  | some tenant_id =>
    have hendpoint := run_createPerson lib draws hctx body (during t () [] [])
    by_cases hask : Askable t tenant_id body.query
    · by_cases hnone : PersonService.NoneActive t tenant_id body
      · by_cases hacc : t.AcceptsAll (PersonService.allRows lib ctx draws tenant_id body)
        · have hcall : runTx () (createCall lib ctx draws body tenant_id) (during t () [] []) =
              (.ok (.created (toResponse (PersonService.loaded
                (t.insertAll (PersonService.allRows lib ctx draws tenant_id body))
                (PersonService.personRow lib draws tenant_id body)))),
                during t ()
                  ((PersonService.allRows lib ctx draws tenant_id body).map .insert) []) := by
            rw [createCall, runTx_bind,
              PersonService.run_create_of_accepts hctx hkeys hask hnone hacc]
            rfl
          rw [run_tryCatch_ok hcall] at hendpoint
          rw [transact_of_accepts hctx hendpoint trivial, List.map_nil, List.append_nil,
            Tables.applyAll_inserts]
          exact .created tenant_id hctx hnone (hacc.1.free _ (List.mem_singleton.mpr rfl))
        · obtain ⟨e, cs', hserver, hrun⟩ :=
            PersonService.run_create_of_not_accepts hctx hkeys hask hnone hacc
          exact createEffect_of_server hctx hendpoint hserver hrun
      · have hcall : runTx () (createCall lib ctx draws body tenant_id) (during t () [] []) =
            (.error (.possibleDuplicateError (t.matchIn tenant_id body.query)),
              during t () [] []) := by
          rw [createCall, runTx_bind,
            PersonService.run_create_found lib draws hctx hkeys hask hnone]
        rw [run_tryCatch_error hcall, answerDuplicate, runTx_pure] at hendpoint
        rw [transact_of_accepts hctx hendpoint trivial]
        exact .duplicate _
    · exact createEffect_of_server hctx hendpoint rfl
        (PersonService.run_create_not_askable t () [] [] hctx hkeys hask)

end Effects
end Hawiya
