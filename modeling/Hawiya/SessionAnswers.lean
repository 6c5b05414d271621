import Hawiya.SessionCalls

/-!
# What an answer rests on

The rules of `Keeps` for the services and the endpoints, and the session closed around them: an
answer that reaches the client speaks of persons the account knows, and of rows it has been told.
-/

namespace Hawiya
open PyString Calendar Interaction

namespace Account
variable {α : Type} {tenant : UUID} {drawn : UUID → Prop} {k k' : Account} (lib : Libraries)
variable {ctx : RequestContext}
variable {draws : Draws}

/-- Exceptions that leave the endpoint need no account. -/
def Anything : PyError → Account → Prop := fun _ _ => True

theorem tolerant_anything : Tolerant Anything := fun _ _ _ => trivial

/-- The person of a possible duplicate is known. -/
def Vouches (e : PyError) (k : Account) : Prop :=
  ∀ found, e = .possibleDuplicateError found → ∀ u ∈ found.person_uuid, k.Knows u

theorem tolerant_vouches : Tolerant Vouches := fun _ _ hne found heq => absurd heq (hne found)

section Extraction
open ExtractionService

theorem keeps_readMrz (hk : k.Ready tenant drawn) (payload : Bytes) :
    Keeps tenant drawn (SessionTx.statements (readMrz lib ctx draws tenant payload)) k
      (fun _ _ => True) Anything := by
  unfold readMrz
  cases draws.read_mrz with
  | ok lines => exact Keeps.pure hk trivial
  | error e =>
    have haudited : Keeps tenant drawn (SessionTx.statements (do
        AuditWriter.write ctx tenant (failedAudit lib payload e)
        throw e)) k (fun (_ : Str × Str) _ => True) Anything := by
      rw [SessionTx.statements_bind]
      apply Keeps.bind
      exact (keeps_auditWrite tolerant_anything hk ctx _).mono
        (fun _ _ hready _ _ => Keeps.throw hready trivial) (fun _ _ _ _ he => he)
    cases e with
    | noMRZFoundError m => exact haudited
    | ocrUnavailableError m => exact haudited
    | mrzFormatError m => exact haudited
    | _ => exact Keeps.throw hk trivial

theorem keeps_extract (hctx : ctx.tenant_id = some tenant) (hextraction : drawn draws.extraction_id)
    (hk : k.Ready tenant drawn) (payload : Bytes) (content_type : Str)
    (consumer_request_id : Option Str) :
    Keeps tenant drawn (SessionTx.statements (extract lib ctx draws tenant payload content_type
      consumer_request_id)) k (fun _ _ => True) Anything := by
  rw [extract, requiresTenant_eq hctx, SessionTx.statements_bind]
  apply Keeps.bind
  refine Keeps.liftM hk (fun document_type _ => ?_) (fun _ _ => trivial)
  rw [SessionTx.statements_bind]
  apply Keeps.bind
  refine (keeps_readMrz lib hk payload).mono (fun lines k' hready _ _ => ?_)
    (fun _ _ _ _ he => he)
  rw [SessionTx.statements_bind]
  apply Keeps.bind
  refine Keeps.liftM hready (fun parsed _ => ?_) (fun _ _ => trivial)
  rw [SessionTx.statements_bind]
  apply Keeps.bind
  have hfresh : ∀ u ∈ Row.fresh (.extraction (record lib draws tenant payload consumer_request_id
      document_type parsed)), drawn u := fun u hu => List.mem_singleton.mp hu ▸ hextraction
  refine (keeps_add tolerant_anything hready (supports_of_names rfl hfresh rfl rfl)).mono
    (fun _ _ hready _ _ => ?_) (fun _ _ _ _ he => he)
  rw [SessionTx.statements_bind]
  apply Keeps.bind
  exact (keeps_auditWrite tolerant_anything hready ctx _).mono
    (fun _ _ hready _ _ => Keeps.pure hready trivial) (fun _ _ _ _ he => he)

end Extraction

section Resolving
open IdentityService

theorem keeps_createPersonFromExtraction (hperson : drawn draws.person_uuid)
    (hk : k.Ready tenant drawn) (fields : Fields)
    (doc_number_confidence : ℚ) :
    Keeps tenant drawn (SessionTx.statements (createPersonFromExtraction lib draws tenant fields
      doc_number_confidence)) k (fun u k' => k'.Knows u) Anything := by
  rw [createPersonFromExtraction, SessionTx.statements_bind]
  apply Keeps.bind
  refine (keeps_personCreate tolerant_anything lib hk hperson _).mono
    (fun person k' hready _ hcreated => ?_) (fun _ _ _ _ he => he)
  obtain ⟨-, hwritten, hrow⟩ := hcreated
  cases passportNumber fields with
  | none => exact Keeps.pure hready hrow.knows
  | some passport_number =>
    rw [SessionTx.statements_bind]
    apply Keeps.bind
    exact (keeps_identifierCreate tolerant_anything hready hwritten hrow.knows).mono
      (fun _ _ hready hbefore _ => Keeps.pure hready (hbefore.knows hrow.knows))
      (fun _ _ _ _ he => he)

theorem keeps_settle (hperson : drawn draws.person_uuid) (hk : k.Ready tenant drawn)
    (extraction : ExtractionService.ExtractionResult)
    {match_result : MatchResult} (hknows : ∀ u ∈ match_result.person_uuid, k.Knows u)
    (create_if_missing : Bool) :
    Keeps tenant drawn (SessionTx.statements (settle lib draws tenant extraction match_result
      create_if_missing)) k (fun settled k' => ∀ u ∈ settled.1, k'.Knows u) Anything := by
  unfold settle
  split_ifs
  · rw [SessionTx.statements_bind]
    apply Keeps.bind
    refine (keeps_createPersonFromExtraction lib hperson hk _ _).mono
      (fun u _ hready _ hu => ?_) (fun _ _ _ _ he => he)
    exact Keeps.pure hready (fun v hv => Option.some.inj hv ▸ hu)
  · exact Keeps.pure hk hknows

theorem keeps_recordDecision (hk : k.Ready tenant drawn) (payload : Bytes)
    (extraction : ExtractionService.ExtractionResult) (match_result : MatchResult)
    {person_uuid : Option UUID} (hknows : ∀ u ∈ person_uuid, k.Knows u) (action : MatchAction)
    (confidence : ℚ) :
    Keeps tenant drawn (SessionTx.statements (recordDecision lib ctx tenant payload extraction
      match_result
      person_uuid action confidence)) k (fun _ _ => True) Anything := by
  rw [recordDecision, SessionTx.statements_bind, updateExtractionLink, SessionTx.statements_execute]
  apply Keeps.bind
  refine Keeps.perform ⟨hk.bound, rfl, hknows⟩ (fun r _ _ => ⟨hk, .refl k, ?_⟩)
  cases r with
  | error e => trivial
  | ok a =>
    have haudited : ∀ k' : Account, k'.Ready tenant drawn → Keeps tenant drawn (SessionTx.statements
        (AuditWriter.write ctx tenant
          (resolvedAudit lib payload extraction person_uuid action confidence))) k'
        (fun _ _ => True) Anything :=
      fun _ hready => keeps_auditWrite tolerant_anything hready ctx _
    cases actionToDecision action with
    | none => exact haudited k hk
    | some decision =>
      have hsupports : k.Supports tenant drawn (.matchDecision
          (decisionRow tenant person_uuid confidence match_result.features decision)) := {
        tenant_id := rfl
        fresh := fun _ hu => by cases hu
        reference := fun _ hu => by cases hu
        names := fun u hu => hknows u
          (Option.mem_toList.mp ((List.mem_append.mp hu).resolve_right List.not_mem_nil)) }
      change Keeps tenant drawn (SessionTx.statements (Session.add _ >>= fun _ => _)) k _ _
      rw [SessionTx.statements_bind]
      apply Keeps.bind
      exact (keeps_add tolerant_anything hk hsupports).mono
        (fun _ k' hready _ _ => haudited k' hready) (fun _ _ _ _ he => he)

theorem keeps_resolve (hctx : ctx.tenant_id = some tenant) (hextraction : drawn draws.extraction_id)
    (hperson : drawn draws.person_uuid) (hk : k.Ready tenant drawn) (payload : Bytes)
    (content_type : Str) (consumer_request_id : Option Str) (create_if_missing : Bool) :
    Keeps tenant drawn (SessionTx.statements (resolve lib ctx draws tenant payload content_type
      consumer_request_id create_if_missing)) k
      (fun result k' => ∀ u ∈ result.person_uuid, k'.Knows u) Anything := by
  rw [resolve, requiresTenant_eq hctx, SessionTx.statements_bind]
  apply Keeps.bind
  refine (keeps_extract lib hctx hextraction hk payload content_type consumer_request_id).mono
    (fun extraction _ hready _ _ => ?_) (fun _ _ _ _ he => he)
  rw [SessionTx.statements_bind]
  apply Keeps.bind
  refine (keeps_deterministicMatch tolerant_anything hready _).mono
    (fun match_result _ hready _ hmatch => ?_) (fun _ _ _ _ he => he)
  rw [SessionTx.statements_bind]
  apply Keeps.bind
  refine (keeps_settle lib hperson hready extraction hmatch create_if_missing).mono
    (fun settled _ hready _ hsettled => ?_) (fun _ _ _ _ he => he)
  obtain ⟨person_uuid, action, confidence⟩ := settled
  change Keeps tenant drawn (SessionTx.statements (recordDecision _ _ _ _ _ _ _ _ _ >>= fun _ => _))
    _ _ _
  rw [SessionTx.statements_bind]
  apply Keeps.bind
  exact (keeps_recordDecision lib hready payload extraction match_result hsettled action
    confidence).mono (fun _ _ hready hbefore _ => Keeps.pure hready
      (fun u hu => hbefore.knows (hsettled u hu))) (fun _ _ _ _ he => he)

end Resolving

section Persons
open PersonService

theorem keeps_create (hctx : ctx.tenant_id = some tenant) (hperson : drawn draws.person_uuid)
    (hk : k.Ready tenant drawn) (args : Args) :
    Keeps tenant drawn (SessionTx.statements (create lib ctx draws tenant args)) k
      (fun loaded k' => k'.KnowsAll loaded ∧ k'.pending = []) Vouches := by
  rw [create, requiresTenant_eq hctx, SessionTx.statements_bind]
  apply Keeps.bind
  refine (keeps_deterministicMatch tolerant_vouches hk _).mono
    (fun match_result k₁ hready _ hmatch => ?_) (fun _ _ _ _ he => he)
  by_cases hduplicate : isDuplicate match_result = true
  · rw [if_pos hduplicate]
    exact Keeps.throw hready (fun found hfound => by cases hfound; exact hmatch)
  rw [if_neg hduplicate]
  change Keeps tenant drawn (SessionTx.statements (PersonRepository.create _ _ _ _ >>= fun _ => _))
    _ _ _
  rw [SessionTx.statements_bind]
  apply Keeps.bind
  refine (keeps_personCreate tolerant_vouches lib hready hperson _).mono
    (fun person k₂ hready _ hcreated => ?_) (fun _ _ _ _ he => he)
  obtain ⟨-, hwritten, hrow⟩ := hcreated
  have hpassport : ∀ a ∈ (orNone args.passport_number).map (args.passport person.person_uuid),
      a.person_uuid ∈ k₂.written ∧ k₂.Knows a.person_uuid := by
    intro a ha
    obtain ⟨n, -, rfl⟩ := Option.map_eq_some_iff.mp ha
    exact ⟨hwritten, hrow.knows⟩
  rw [SessionTx.statements_bind]
  apply Keeps.bind
  refine (keeps_addIdentifier tolerant_vouches hready hpassport).mono
    (fun _ k₃ hready hbefore₃ _ => ?_) (fun _ _ _ _ he => he)
  have hemirates : ∀ a ∈ (orNone args.emirates_id).map (emiratesIdArgs person.person_uuid),
      a.person_uuid ∈ k₃.written ∧ k₃.Knows a.person_uuid := by
    intro a ha
    obtain ⟨n, -, rfl⟩ := Option.map_eq_some_iff.mp ha
    exact ⟨hbefore₃.written _ hwritten, hbefore₃.knows hrow.knows⟩
  rw [SessionTx.statements_bind]
  apply Keeps.bind
  refine (keeps_addIdentifier tolerant_vouches hready hemirates).mono
    (fun _ k₄ hready hbefore₄ _ => ?_) (fun _ _ _ _ he => he)
  rw [SessionTx.statements_bind]
  apply Keeps.bind
  refine (keeps_auditWrite tolerant_vouches hready ctx _).mono
    (fun _ k₅ hready hbefore₅ _ => ?_) (fun _ _ _ _ he => he)
  rw [SessionTx.statements_bind]
  apply Keeps.bind
  refine (keeps_flush tolerant_vouches hready).mono
    (fun _ k₆ hready hbefore₆ hflushed => ?_) (fun _ _ _ _ he => he)
  have hknown : k₆.KnowsRow person :=
    (((hbefore₃.trans hbefore₄).trans hbefore₅).trans hbefore₆).knowsRow hrow
  exact (keeps_refresh tolerant_vouches hready hknown).mono
    (fun _ _ _ _ h => ⟨h.2, h.1.trans hflushed.1⟩) (fun _ _ _ _ he => he)

end Persons

end Account

/-- The persons an error names. -/
def ErrorEnvelope.persons (e : ErrorEnvelope) : List UUID :=
  (match e.message with
    | .text _ => []
    | .possibleDuplicate found => found.person_uuid.toList) ++
  e.details.flatMap (fun d => match d.2 with
    | .uuid u => u.toList
    | _ => [])

/-- The answer shows a person with all rows about it. -/
def ApiAnswer.loads : ApiAnswer → Bool
  | .response (.created _) => true
  | .lookup (.found _) => true
  | _ => false

namespace Account
variable {α : Type} {tenant : UUID} {drawn : UUID → Prop} {k k' : Account} (lib : Libraries)
variable {ctx : RequestContext}
variable {draws : Draws}

def Warrants (k : Account) : ApiAnswer → Prop
  | .response (.extracted _) => True
  | .response (.resolved r) => ∀ u ∈ r.person_uuid, k.Knows u
  | .response (.created r) => ∃ loaded, k.KnowsAll loaded ∧ r = toResponse loaded
  | .response (.error e) => ∀ u ∈ e.persons, k.Knows u
  | .lookup (.found r) => ∃ loaded, k.KnowsAll loaded ∧ r = toResponse loaded
  | .lookup (.notFound ..) => True
  | .candidates rs => ∃ ps : List Person, (∀ p ∈ ps, k.KnowsRow p) ∧ rs = ps.map toSummary

/-- The answer is warranted, and what is left to flush does not concern it. -/
def Settles (a : ApiAnswer) (k : Account) : Prop :=
  k.Warrants a ∧ (a.loads = true → k.pending = [])

/-- An error that names nobody. -/
theorem settles_error {e : ErrorEnvelope} (h : e.persons = []) : Settles (.response (.error e)) k :=
  ⟨fun u hu => absurd (h ▸ hu) List.not_mem_nil, fun h => by cases h⟩

theorem persons_extractionError {e : PyError} {r : ApiResponse}
    (h : extractionErrorResponse ctx e = some r) : ∃ envelope, r = .error envelope ∧
      envelope.persons = [] := by
  unfold extractionErrorResponse at h
  split at h
  · exact ⟨_, (Option.some.inj h).symm, rfl⟩
  · exact ⟨_, (Option.some.inj h).symm, rfl⟩
  · exact ⟨_, (Option.some.inj h).symm, rfl⟩
  · exact ⟨_, (Option.some.inj h).symm, rfl⟩
  · cases h

theorem keeps_uploadEndpoint (hctx : ctx.tenant_id = some tenant) (hk : k.Ready tenant drawn)
    {payload : Bytes} {call : UUID → Tx ApiResponse}
    (hcall : Keeps tenant drawn (SessionTx.statements (call tenant)) k
      (fun r => Settles (.response r)) Anything) :
    Keeps tenant drawn (SessionTx.statements (uploadEndpoint ctx payload call)) k
      (fun r => Settles (.response r)) Anything := by
  rw [uploadEndpoint, requireTenantId, hctx]
  change Keeps tenant drawn (SessionTx.statements (if payload = [] then _ else _)) k _ _
  split_ifs
  · exact Keeps.pure hk (settles_error rfl)
  · exact Keeps.pure hk (settles_error rfl)
  · rw [SessionTx.statements_tryCatch]
    apply Keeps.tryCatch
    refine hcall.mono (fun _ _ _ _ hr => hr) (fun e k' hready _ _ => ?_)
    unfold answerExtractionError
    cases hanswer : extractionErrorResponse ctx e with
    | none => exact Keeps.throw hready trivial
    | some r =>
      obtain ⟨envelope, rfl, hpersons⟩ := persons_extractionError hanswer
      exact Keeps.pure hready (settles_error hpersons)

theorem keeps_extractDocument (hctx : ctx.tenant_id = some tenant)
    (hextraction : drawn draws.extraction_id) (hk : k.Ready tenant drawn)
    (upload : Upload) :
    Keeps tenant drawn (SessionTx.statements (extractDocument lib ctx draws upload)) k
      (fun r => Settles (.response r)) Anything := by
  apply keeps_uploadEndpoint hctx hk
  rw [SessionTx.statements_bind]
  apply Keeps.bind
  exact (keeps_extract lib hctx hextraction hk _ _ _).mono
    (fun _ _ hready _ _ => Keeps.pure hready ⟨trivial, fun h => by cases h⟩) (fun _ _ _ _ he => he)

theorem keeps_resolveIdentity (hctx : ctx.tenant_id = some tenant)
    (hextraction : drawn draws.extraction_id) (hperson : drawn draws.person_uuid)
    (hk : k.Ready tenant drawn)
    (upload : Upload) (create_if_missing : Bool) :
    Keeps tenant drawn
      (SessionTx.statements (resolveIdentity lib ctx draws upload create_if_missing)) k
      (fun r => Settles (.response r)) Anything := by
  apply keeps_uploadEndpoint hctx hk
  rw [SessionTx.statements_bind]
  apply Keeps.bind
  exact (keeps_resolve lib hctx hextraction hperson hk _ _ _ _).mono
    (fun _ _ hready _ hr => Keeps.pure hready ⟨hr, fun h => by cases h⟩) (fun _ _ _ _ he => he)

theorem persons_duplicate {found : MatchResult} {u : UUID} {envelope : ErrorEnvelope}
    (h : duplicateResponse ctx found = .error envelope) (hu : u ∈ envelope.persons) :
    u ∈ found.person_uuid := by
  cases h
  rcases List.mem_append.mp hu with hu | hu
  · exact Option.mem_toList.mp hu
  · rw [List.flatMap_cons, List.flatMap_cons, List.flatMap_cons, List.flatMap_nil] at hu
    simpa using hu

theorem keeps_createPerson (hctx : ctx.tenant_id = some tenant) (hperson : drawn draws.person_uuid)
    (hk : k.Ready tenant drawn)
    (body : PersonService.Args) :
    Keeps tenant drawn (SessionTx.statements (createPerson lib ctx draws body)) k
      (fun r => Settles (.response r)) Anything := by
  rw [createPerson, requireTenantId, hctx]
  change Keeps tenant drawn (SessionTx.statements (tryCatch _ (answerDuplicate ctx))) k _ _
  rw [SessionTx.statements_tryCatch]
  apply Keeps.tryCatch
  rw [SessionTx.statements_bind]
  apply Keeps.bind
  refine (keeps_create lib hctx hperson hk body).mono
    (fun loaded _ hready _ h => Keeps.pure hready ⟨⟨loaded, h.1, rfl⟩, fun _ => h.2⟩)
    (fun e k' hready _ hvouches => ?_)
  cases e with
  | possibleDuplicateError found =>
    exact Keeps.pure hready
      ⟨fun u hu => hvouches found rfl u (persons_duplicate rfl hu), fun h => by cases h⟩
  | _ => exact Keeps.throw hready trivial

theorem keeps_getPerson (hctx : ctx.tenant_id = some tenant) (hk : k.Ready tenant drawn)
    (hpending : k.pending = []) (person_uuid : UUID) :
    Keeps tenant drawn (SessionTx.statements (getPerson ctx person_uuid)) k
      (fun r => Settles (.lookup r)) Anything := by
  rw [getPerson, requireTenantId, hctx]
  change Keeps tenant drawn (SessionTx.statements (PersonService.get ctx tenant person_uuid >>= _))
    k _ _
  rw [SessionTx.statements_bind, PersonService.get, requiresTenant_eq hctx]
  apply Keeps.bind
  refine (keeps_personGet tolerant_anything hk person_uuid).mono
    (fun person _ hready _ hperson => ?_) (fun _ _ _ _ he => he)
  cases person with
  | none => exact Keeps.pure hready ⟨trivial, fun h => by cases h⟩
  | some person =>
    rw [SessionTx.statements_bind]
    apply Keeps.bind
    refine (keeps_refresh tolerant_anything hready (hperson.2 person rfl).2).mono
      (fun loaded _ hready _ h => ?_) (fun _ _ _ _ he => he)
    exact Keeps.pure hready ⟨⟨loaded, h.2, rfl⟩, fun _ => h.1.trans (hperson.1.trans hpending)⟩

theorem keeps_search (hctx : ctx.tenant_id = some tenant) (hk : k.Ready tenant drawn) (query : Str)
    (limit : ℕ) :
    Keeps tenant drawn (searchPersons ctx query limit) k (fun rs => Settles (.candidates rs))
      Anything := by
  have hsearch : Keeps tenant drawn (PersonRepository.searchByName tenant query limit) k
      (fun ps k' => ∀ p ∈ ps, k'.KnowsRow p) Anything := by
    unfold PersonRepository.searchByName
    split_ifs
    · exact Keeps.pure hk (fun _ hp => absurd hp List.not_mem_nil)
    · exact keeps_select tolerant_anything (.selectByName tenant (strip query) limit) _ hk
        ⟨hk.bound, rfl⟩ (fun _ => rfl) (fun _ _ _ hp => knowsRow_learn hp)
  rw [searchPersons, requireTenantId, hctx]
  change Keeps tenant drawn (PersonService.search ctx tenant query limit >>= _) k _ _
  rw [PersonService.search, SessionTx.requiresTenant, requiresTenant_eq hctx]
  apply Keeps.bind
  exact hsearch.mono
    (fun ps _ hready _ hps => Keeps.pure hready ⟨⟨ps, hps, rfl⟩, fun h => by cases h⟩)
    (fun _ _ _ _ he => he)

theorem keeps_endpoint (hctx : ctx.tenant_id = some tenant) (hk : k.Ready tenant drawn)
    (hpending : k.pending = []) {call : ApiCall} (hdrawn : ∀ u ∈ call.drawn, drawn u) :
    Keeps tenant drawn (call.endpoint lib ctx) k Settles Anything := by
  have hresponse : ∀ r : Tx ApiResponse, Keeps tenant drawn (SessionTx.statements r) k
      (fun r => Settles (.response r)) Anything →
      Keeps tenant drawn (ApiCall.statements r) k Settles
        Anything := by
    intro r hr
    apply Keeps.bind
    exact hr.mono (fun _ _ hready _ hr => Keeps.pure hready hr) (fun _ _ _ _ he => he)
  cases call with
  | extract draws upload =>
    have hextraction := hdrawn draws.extraction_id List.mem_cons_self
    exact hresponse _ (keeps_extractDocument lib hctx hextraction hk upload)
  | resolve draws upload create_if_missing =>
    have hextraction := hdrawn draws.extraction_id List.mem_cons_self
    have hperson := hdrawn draws.person_uuid (List.mem_cons_of_mem _ List.mem_cons_self)
    exact hresponse _
      (keeps_resolveIdentity lib hctx hextraction hperson hk upload create_if_missing)
  | create draws body =>
    have hperson := hdrawn draws.person_uuid List.mem_cons_self
    exact hresponse _ (keeps_createPerson lib hctx hperson hk body)
  | get person_uuid =>
    apply Keeps.bind
    exact (keeps_getPerson hctx hk hpending person_uuid).mono
      (fun _ _ hready _ hr => Keeps.pure hready hr) (fun _ _ _ _ he => he)
  | search query limit =>
    apply Keeps.bind
    exact (keeps_search hctx hk query limit).mono
      (fun _ _ hready _ hr => Keeps.pure hready hr) (fun _ _ _ _ he => he)

theorem KnowsAll.mono {loaded : PersonService.LoadedPerson} (h : k.KnowsAll loaded)
    (hfacts : ∀ f ∈ k.facts, f ∈ k'.facts) : k'.KnowsAll loaded where
  row f hf := hfacts f (h.row f hf)
  identifiers := hfacts _ h.identifiers
  name_variants := hfacts _ h.name_variants

theorem Warrants.mono {a : ApiAnswer} (h : k.Warrants a)
    (hlasting : ∀ f ∈ k.facts, f.lasting = true → f ∈ k'.facts)
    (hall : a.loads = true → ∀ f ∈ k.facts, f ∈ k'.facts) : k'.Warrants a := by
  cases a with
  | response r =>
    cases r with
    | extracted r => trivial
    | resolved r => exact fun u hu => hlasting _ (h u hu) rfl
    | created r =>
      obtain ⟨loaded, hloaded, hr⟩ := h
      exact ⟨loaded, hloaded.mono (hall rfl), hr⟩
    | error e => exact fun u hu => hlasting _ (h u hu) rfl
  | lookup r =>
    cases r with
    | found r =>
      obtain ⟨loaded, hloaded, hr⟩ := h
      exact ⟨loaded, hloaded.mono (hall rfl), hr⟩
    | notFound => trivial
  | candidates rs =>
    obtain ⟨ps, hps, hrs⟩ := h
    exact ⟨ps, fun p hp f hf => hlasting f (hps p hp f hf) (lasting_ofPerson hf), hrs⟩

theorem follows_rollback {post : Except PyError α → Account → Prop}
    (hpost : ∀ e k', post (.error e) k') (e : PyError) (k : Account) :
    (protocol tenant drawn).Follows
      (SessionTx.statements (do Session.rollback; throw e)) k post := by
  rw [SessionTx.statements_bind, Session.rollback, SessionTx.statements_execute]
  apply Protocol.Follows.bind
  refine Protocol.Follows.perform trivial (fun r k' _ => ?_)
  cases r with
  | ok a => exact hpost e k'
  | error e' => exact hpost e' k'

theorem follows_commit {post : Except PyError Unit → Account → Prop} (hok : post (.ok ()) k.commit)
    (herror : ∀ e k', post (.error e) k') :
    (protocol tenant drawn).Follows (SessionTx.statements Session.commit) k post := by
  rw [Session.commit, SessionTx.statements_execute]
  refine Protocol.Follows.perform trivial (fun r k' hk' => ?_)
  obtain ⟨-, -, rfl⟩ := hk'
  cases r with
  | ok a => exact hok
  | error e => exact herror e _

/-- A session that ends with a value has flushed and committed; it still knows what it knew, except
what its last flush may have outdated. -/
theorem follows_closeSession (hk : k.Ready tenant drawn) (a : α)
    {post : Except PyError α → Account → Prop} (herror : ∀ e k', post (.error e) k')
    (hok : ∀ k', k'.bound = false → (∀ f ∈ k.facts, f.lasting = true → f ∈ k'.facts) →
      (k.pending = [] → ∀ f ∈ k.facts, f ∈ k'.facts) → post (.ok a) k') :
    (protocol tenant drawn).Follows (SessionTx.statements (closeSession (.ok a))) k post := by
  unfold closeSession
  rw [SessionTx.statements_handle, SessionTx.statements_bind]
  apply Protocol.Follows.handle
  apply Protocol.Follows.bind
  refine Protocol.Follows.mono (keeps_flush tolerant_anything hk) (fun r k' hr => ?_)
  obtain ⟨-, hbefore, hr⟩ := hr
  cases r with
  | error e => exact follows_rollback herror e k'
  | ok _ =>
    apply follows_commit
    · apply hok
      · rfl
      · exact hbefore.facts
      · intro hpending f hf
        rw [hr.2.2 hpending]
        exact hf
    · exact fun e k'' => follows_rollback herror e k''

/-- What a session of the tenant ends with. -/
def Answered (ctx : RequestContext) (r : Except PyError ApiAnswer) (k : Account) : Prop :=
  ∀ a, r = .ok a → ctx.tenant_id ≠ none ∧ k.bound = false ∧ k.Warrants a

theorem answered_error (e : PyError) (k : Account) : Answered ctx (.error e) k :=
  fun _ h => by cases h

theorem follows_session (htenant : ∀ t, ctx.tenant_id = some t → t = tenant) {call : ApiCall}
    (hdrawn : ∀ u ∈ call.drawn, drawn u) :
    (protocol tenant drawn).Follows (call.session lib ctx) start (Answered ctx) := by
  have hfailed : ∀ (e : PyError) k, (protocol tenant drawn).Follows
      (SessionTx.statements (closeSession (.error e))) k (Answered ctx) :=
    fun e k => follows_rollback answered_error e k
  apply Protocol.Follows.handle
  apply Protocol.Follows.bind
  unfold SessionTx.setSessionTenant
  cases hctx : ctx.tenant_id with
  | none => exact hfailed _ _
  | some t =>
    obtain rfl := htenant t hctx
    refine Protocol.Follows.perform rfl (fun r k hk => ?_)
    obtain ⟨-, -, rfl⟩ := hk
    cases r with
    | error e => exact hfailed e _
    | ok _ =>
      have hready : Ready t drawn { start with bound := true } :=
        ⟨rfl, fun _ hr => absurd hr List.not_mem_nil⟩
      refine Protocol.Follows.mono (keeps_endpoint lib hctx hready rfl hdrawn) (fun r k' hr => ?_)
      obtain ⟨hready', -, hr⟩ := hr
      cases r with
      | error e => exact hfailed e k'
      | ok a =>
        refine follows_closeSession hready' a answered_error
          (fun k'' hended hlasting hall b hb => ?_)
        cases hb
        have hbound : ctx.tenant_id ≠ none := fun hnone => by cases hctx.symm.trans hnone
        exact ⟨hbound, hended, hr.1.mono hlasting (fun hloads => hall (hr.2 hloads))⟩

end Account
end Hawiya
