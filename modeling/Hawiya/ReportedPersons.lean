import Hawiya.ConcurrentResolve
import Hawiya.Requests

/-!
# The person a response names

Whatever runs next to it, a request that answers with a person has seen an identifier of that
person or has inserted the person. If its transaction commits, the person is there: identifiers
have their persons, and what is committed is what the transactions in the log changed.
-/

namespace Hawiya
open PyString Calendar Interaction Db ExtractionService IdentityService

/-- The person a response names. -/
def ApiResponse.person_uuid? : ApiResponse → Option UUID
  | .resolved r => r.person_uuid
  | .created r => some r.person_uuid
  | _ => none

section Triples
variable {ι : Type} [DecidableEq ι] {i : ι} {allowed : ι → Outcome → DbOp → Db ι → Prop}
variable {α : Type} {I : Db ι → Prop} {Q : α → Db ι → Prop}

/-- The transaction sees an identifier of the person, or has inserted the person. -/
def Known (i : ι) (u : UUID) (db : Db ι) : Prop :=
  (∃ ident : PersonIdentifier, Seen i ident db ∧ ident.person_uuid = u) ∨
    ∃ p : Person, Written i (.person p) db ∧ p.person_uuid = u

theorem carried_known (u : UUID) : Carried allowed i (Known i u) :=
  (Carried.some (fun ident => (carried_seen ident).and (carried_const _))).or
    (Carried.some (fun _ => (carried_written _).and (carried_const _)))

/-- What is named, if anything, is known. -/
def Named (i : ι) (o : Option UUID) (db : Db ι) : Prop := ∀ u, o = some u → Known i u db

theorem carried_named (o : Option UUID) : Carried allowed i (Named i o) :=
  Carried.all (fun u => carried_known u)

theorem named_none (db : Db ι) : Named i none db := fun _ h => absurd h (by simp)

theorem named_of_seen {ident : PersonIdentifier} {db : Db ι} (h : Seen i ident db) :
    Named i (some ident.person_uuid) db :=
  fun _ hu => .inl ⟨ident, h, Option.some.inj hu⟩

theorem TxTriple.tryCatch {tx : Tx α} {answer : PyError → Tx α} (hQ : ∀ a, Carried allowed i (Q a))
    (htx : TxTriple allowed i I tx Q)
    (hanswer : ∀ e, TxTriple allowed i (fun _ => True) (answer e) Q) :
    TxTriple allowed i I (tryCatch tx answer) Q := by
  rw [Program.tryCatch_def]
  refine Triple.handle discipline_closed htx (fun a => ?_) (fun e => ?_)
  · exact Triple.pure (stable_open.and (hQ a).stable) (fun _ => id)
  · exact Triple.conseq (hanswer e) (fun _ hdb => ⟨hdb, trivial⟩) (fun _ _ => id)

variable (lib : Libraries) (ctx : RequestContext) (draws : Draws) (tenant_id : UUID)

/-- A result names only known persons. -/
def Found (i : ι) (o : Option MatchResult) (db : Db ι) : Prop :=
  ∀ m, o = some m → Named i m.person_uuid db

theorem carried_found (o : Option MatchResult) : Carried allowed i (Found i o) :=
  Carried.all (fun m => carried_named m.person_uuid)

theorem found_of_seenAll {identifier_type : IdentifierType} {value : Str} {db : Db ι}
    {ident : PersonIdentifier} {m : MatchResult}
    (h : SeenAll i tenant_id identifier_type value (some ident).toList db)
    (hm : m.person_uuid = some ident.person_uuid) : Found i (some m) db := by
  rintro _ ⟨⟩
  rw [hm]
  exact named_of_seen (h ident (List.mem_singleton_self _)).1

theorem triple_matchEmiratesId (hI : Carried allowed i I) (q : DeterministicMatcher.Query) :
    TxTriple allowed i I (DeterministicMatcher.matchEmiratesId tenant_id q)
      (fun o db => I db ∧ Found i o db) := by
  unfold DeterministicMatcher.matchEmiratesId
  have hfound : ∀ o, Carried allowed i (fun db => I db ∧ Found i o db) :=
    fun o => hI.and (carried_found o)
  cases orNone q.emirates_id with
  | none =>
    exact TxTriple.pure (hfound none).stable (fun _ hdb => ⟨hdb, fun _ h => absurd h (by simp)⟩)
  | some emirates_id =>
    refine TxTriple.bind (triple_findActive tenant_id hI .emiratesId emirates_id) (fun o => ?_)
    cases o with
    | none =>
      refine TxTriple.pure (hfound none).stable (fun _ hdb => ⟨hdb.1, fun _ h => ?_⟩)
      exact absurd h (by simp)
    | some ident =>
      exact TxTriple.pure (hfound _).stable
        (fun _ hdb => ⟨hdb.1, found_of_seenAll tenant_id hdb.2 rfl⟩)

theorem triple_matchPassport (hI : Carried allowed i I) (q : DeterministicMatcher.Query) :
    TxTriple allowed i I (DeterministicMatcher.matchPassport tenant_id q)
      (fun o db => I db ∧ Found i o db) := by
  unfold DeterministicMatcher.matchPassport
  have hfound : ∀ o, Carried allowed i (fun db => I db ∧ Found i o db) :=
    fun o => hI.and (carried_found o)
  cases orNone q.passport_number with
  | none =>
    exact TxTriple.pure (hfound none).stable (fun _ hdb => ⟨hdb, fun _ h => absurd h (by simp)⟩)
  | some passport_number =>
    refine TxTriple.bind (triple_findActive tenant_id hI .passport passport_number) (fun o => ?_)
    cases o with
    | none =>
      refine TxTriple.pure (hfound none).stable (fun _ hdb => ⟨hdb.1, fun _ h => ?_⟩)
      exact absurd h (by simp)
    | some ident =>
      refine TxTriple.bind (triple_getPerson tenant_id
        (hI.and (carried_seenAll tenant_id .passport passport_number _)) ident.person_uuid)
        (fun person => ?_)
      exact TxTriple.pure (hfound _).stable (fun _ hdb =>
        ⟨hdb.1, found_of_seenAll tenant_id hdb.2 (passportResult_person_uuid _ _ _)⟩)

theorem triple_match (hI : Carried allowed i I) (q : DeterministicMatcher.Query) :
    TxTriple allowed i I (DeterministicMatcher.deterministicMatch tenant_id q)
      (fun m db => I db ∧ Named i m.person_uuid db) := by
  have hnamed : ∀ m : MatchResult, Carried allowed i (fun db => I db ∧ Named i m.person_uuid db) :=
    fun m => hI.and (carried_named _)
  refine TxTriple.bind (triple_matchEmiratesId tenant_id hI q) (fun o => ?_)
  cases o with
  | some m => exact TxTriple.pure (hnamed m).stable (fun _ hdb => ⟨hdb.1, hdb.2 m rfl⟩)
  | none =>
    refine TxTriple.bind (TxTriple.conseq (triple_matchPassport tenant_id hI q) (fun _ h => h.1)
      (fun _ _ => id)) (fun o => ?_)
    refine TxTriple.pure (hnamed _).stable (fun db hdb => ⟨hdb.1, ?_⟩)
    cases o with
    | none => exact named_none db
    | some m => exact hdb.2 m rfl

theorem triple_flushPerson (p : Person) :
    TxTriple allowed i (Held i (.person p)) Session.flush (fun _ => Known i p.person_uuid) := by
  refine TxTriple.flush (L := fun rows _ => .person p ∈ rows) (stable_held _)
    (fun _ => carried_const _) (fun _ h => h) ?_
  exact fun rows db hmem hwritten => .inr ⟨p, hwritten _ hmem, rfl⟩

theorem triple_personCreate (person_uuid : UUID) (args : PersonRepository.Args) :
    TxTriple allowed i (fun _ => True) (PersonRepository.create lib tenant_id person_uuid args)
      (fun person db => person.person_uuid = person_uuid ∧ Known i person_uuid db) := by
  have hknown : Carried allowed i (Known i person_uuid) := carried_known person_uuid
  refine TxTriple.bind (triple_hold _) (fun _ => ?_)
  refine TxTriple.bind (triple_flushPerson (args.row lib tenant_id person_uuid)) (fun _ => ?_)
  refine TxTriple.bind (Q := fun _ => Known i person_uuid) ?_ (fun _ => ?_)
  · exact Triple.forM (I := fun _ => OpenWith i (Known i person_uuid)) discipline_closed stable_open
      (fun _ => stable_open.and hknown.stable)
      (fun before spec => TxTriple.bind (Q := fun _ => Known i person_uuid)
        (TxTriple.bind (triple_add hknown _) (fun _ => TxTriple.pure hknown.stable (fun _ => id)))
        (fun _ => TxTriple.pure hknown.stable (fun _ => id)))
      [] args.name_variants
  · exact TxTriple.pure ((carried_const _).and hknown).stable (fun _ hdb => ⟨rfl, hdb⟩)

theorem triple_newPerson (fields : Fields) (doc_number_confidence : ℚ) :
    TxTriple allowed i (fun _ => True)
      (createPersonFromExtraction lib draws tenant_id fields doc_number_confidence)
      (fun person_uuid => Known i person_uuid) := by
  refine TxTriple.bind (triple_personCreate lib tenant_id draws.person_uuid _) (fun person => ?_)
  have hcreated : Carried allowed i (fun db => person.person_uuid = draws.person_uuid ∧
      Known i draws.person_uuid db) := (carried_const _).and (carried_known _)
  have hknown : ∀ db : Db ι, person.person_uuid = draws.person_uuid ∧ Known i draws.person_uuid db →
      Known i person.person_uuid db := fun db h => h.1 ▸ h.2
  cases passportNumber fields with
  | none => exact TxTriple.pure (carried_known _).stable hknown
  | some passport_number =>
    refine TxTriple.bind (Q := fun _ db => person.person_uuid = draws.person_uuid ∧
      Known i draws.person_uuid db) ?_ (fun _ => TxTriple.pure (carried_known _).stable hknown)
    exact TxTriple.bind (triple_add hcreated _)
      (fun _ => TxTriple.pure hcreated.stable (fun _ => id))

theorem triple_settleNamed (extraction : ExtractionResult) (m : MatchResult)
    (create_if_missing : Bool) :
    TxTriple allowed i (Named i m.person_uuid)
      (settle lib draws tenant_id extraction m create_if_missing) (fun r => Named i r.1) := by
  unfold settle
  by_cases hmiss : m.action = .noMatchNoCreate ∧ create_if_missing = true
  · rw [if_pos hmiss]
    refine TxTriple.bind (TxTriple.conseq (triple_newPerson lib draws tenant_id _ _)
      (fun _ _ => trivial) (fun _ _ => id)) (fun person_uuid => ?_)
    refine TxTriple.pure (carried_named _).stable (fun db hdb u hu => ?_)
    exact Option.some.inj hu ▸ hdb
  · rw [if_neg hmiss]
    exact TxTriple.pure (carried_named _).stable (fun _ => id)

theorem triple_extractAny (payload : Bytes) (content_type : Str)
    (consumer_request_id : Option Str) :
    TxTriple allowed i (fun _ => True)
      (extract lib ctx draws tenant_id payload content_type consumer_request_id)
      (fun _ _ => True) := by
  have htrue : Carried allowed i (fun _ => True) := carried_const True
  refine triple_requiresTenant ctx tenant_id (TxTriple.liftM (fun document_type _ => ?_))
  refine TxTriple.bind (TxTriple.conseq (triple_readMrz lib ctx draws tenant_id htrue payload)
    (fun _ => id) (fun _ _ _ => trivial)) (fun lines => TxTriple.liftM (fun parsed _ => ?_))
  exact TxTriple.bind (triple_add htrue _) (fun _ => TxTriple.bind (triple_add htrue _)
    (fun _ => TxTriple.pure htrue.stable (fun _ => id)))

theorem triple_resolveNamed (payload : Bytes) (content_type : Str)
    (consumer_request_id : Option Str) (create_if_missing : Bool) :
    TxTriple allowed i (fun _ => True)
      (resolve lib ctx draws tenant_id payload content_type consumer_request_id create_if_missing)
      (fun r => Named i r.person_uuid) := by
  refine triple_requiresTenant ctx tenant_id ?_
  refine TxTriple.bind (triple_extractAny lib ctx draws tenant_id payload content_type
    consumer_request_id) (fun extraction => ?_)
  refine TxTriple.bind (TxTriple.conseq (triple_match tenant_id (carried_const True) _)
    (fun _ => id) (fun _ _ h => h.2)) (fun m => ?_)
  refine TxTriple.bind (triple_settleNamed lib draws tenant_id extraction m create_if_missing)
    (fun r => ?_)
  have hnamed : Carried allowed i (Named i r.1) := carried_named r.1
  exact TxTriple.bind (triple_recordDecision lib ctx tenant_id hnamed payload extraction m _ _ _)
    (fun _ => TxTriple.pure hnamed.stable (fun _ => id))

theorem triple_addIdentifier (hI : Carried allowed i I)
    (args : Option PersonIdentifierRepository.Args) :
    TxTriple allowed i I (PersonService.addIdentifier tenant_id args) (fun _ => I) := by
  cases args with
  | none => exact TxTriple.pure hI.stable (fun _ => id)
  | some args =>
    exact TxTriple.bind (TxTriple.bind (triple_add hI _)
      (fun _ => TxTriple.pure hI.stable (fun _ => id)))
      (fun _ => TxTriple.pure hI.stable (fun _ => id))

theorem triple_flushKeeping (hI : Carried allowed i I)
    (hpending : ∀ db, I db → I (db.setPending i [])) :
    TxTriple allowed i I Session.flush (fun _ => I) :=
  TxTriple.flush (L := fun _ => I) hI.stable (fun _ => hI) hpending (fun _ _ hdb _ => hdb)

theorem triple_createNamed (args : PersonService.Args) :
    TxTriple allowed i (fun _ => True) (PersonService.create lib ctx draws tenant_id args)
      (fun p => Known i p.person.person_uuid) := by
  refine triple_requiresTenant ctx tenant_id ?_
  refine TxTriple.bind (TxTriple.conseq (triple_match tenant_id (carried_const True) _)
    (fun _ => id) (fun _ _ _ => trivial)) (fun m => ?_)
  by_cases hduplicate : PersonService.isDuplicate m = true
  · rw [if_pos hduplicate]
    exact TxTriple.throw _
  · rw [if_neg hduplicate]
    refine TxTriple.bind (Q := fun person => Known i person.person_uuid)
      (TxTriple.conseq (triple_personCreate lib tenant_id draws.person_uuid _) (fun _ => id)
        (fun person _ h => h.1 ▸ h.2)) (fun person => ?_)
    have hknown : Carried allowed i (Known i person.person_uuid) := carried_known _
    refine TxTriple.bind (triple_addIdentifier tenant_id hknown _) (fun _ => ?_)
    refine TxTriple.bind (triple_addIdentifier tenant_id hknown _) (fun _ => ?_)
    refine TxTriple.bind (triple_add hknown _) (fun _ => ?_)
    refine TxTriple.bind (triple_flushKeeping hknown (fun _ h => h)) (fun _ => ?_)
    refine TxTriple.bind (TxTriple.execute hknown trivial) (fun identifiers => ?_)
    refine TxTriple.bind (TxTriple.execute hknown trivial) (fun name_variants => ?_)
    exact TxTriple.pure hknown.stable (fun _ => id)

theorem named_of_error {e : PyError} {response : ApiResponse}
    (h : extractionErrorResponse ctx e = some response) (db : Db ι) :
    Named i response.person_uuid? db := by
  obtain ⟨envelope, rfl⟩ := extractionErrorResponse_is_error h
  exact named_none db

theorem triple_uploadEndpoint {payload : Bytes} {call : UUID → Tx ApiResponse}
    (hcall : ∀ tenant_id, TxTriple allowed i (fun _ => True) (call tenant_id)
      (fun r => Named i r.person_uuid?)) :
    TxTriple allowed i (fun _ => True) (uploadEndpoint ctx payload call)
      (fun r => Named i r.person_uuid?) := by
  refine TxTriple.liftM (fun tenant_id _ => ?_)
  by_cases hempty : payload = []
  · rw [if_pos hempty]
    exact TxTriple.pure (carried_named _).stable (fun db _ => named_none db)
  · rw [if_neg hempty]
    by_cases hlarge : payload.length > maxPayloadBytes
    · rw [if_pos hlarge]
      exact TxTriple.pure (carried_named _).stable (fun db _ => named_none db)
    · rw [if_neg hlarge]
      refine TxTriple.tryCatch (fun _ => carried_named _) (hcall tenant_id) (fun e => ?_)
      unfold answerExtractionError
      cases hresponse : extractionErrorResponse ctx e with
      | none => exact TxTriple.throw e
      | some response =>
        exact TxTriple.pure (carried_named _).stable (fun db _ => named_of_error ctx hresponse db)

/-- The person an endpoint answers with is known to its transaction. -/
theorem triple_endpoint (req : Request) :
    TxTriple allowed i (fun _ => True) (req.endpoint lib) (fun r => Named i r.person_uuid?) := by
  cases req with
  | extract ctx draws upload =>
    refine triple_uploadEndpoint ctx (fun tenant_id => ?_)
    refine TxTriple.bind (triple_extractAny lib ctx draws tenant_id _ _ _) (fun r => ?_)
    exact TxTriple.pure (carried_named _).stable (fun db _ => named_none db)
  | resolve ctx draws upload create_if_missing =>
    refine triple_uploadEndpoint ctx (fun tenant_id => ?_)
    refine TxTriple.bind (triple_resolveNamed lib ctx draws tenant_id _ _ _ _) (fun r => ?_)
    exact TxTriple.pure (carried_named _).stable (fun _ => id)
  | create ctx draws body =>
    refine TxTriple.liftM (fun tenant_id _ => TxTriple.tryCatch (fun _ => carried_named _) ?_ ?_)
    · refine TxTriple.bind (triple_createNamed lib ctx draws tenant_id body) (fun p => ?_)
      exact TxTriple.pure (carried_named _).stable (fun db hdb u hu => Option.some.inj hu ▸ hdb)
    · intro e
      cases e with
      | possibleDuplicateError found =>
        exact TxTriple.pure (carried_named _).stable (fun db _ => named_none db)
      | _ => exact TxTriple.throw _

end Triples

section Closing
variable {ι : Type} [DecidableEq ι] {i : ι} {α : Type}

/-- The server does not refuse the statement: it executes it, and a row it inserts can be stored, has
its unique keys free and what it refers to there. -/
def Accepts (i : ι) (outcome : Outcome) (op : DbOp) (db : Db ι) : Prop :=
  match op with
  | .insert r => outcome = .accept ∧ (db.view i).Admits r
  | .commit => outcome = .accept
  | _ => True

instance (i : ι) (outcome : Outcome) (op : DbOp) (db : Db ι) :
    Decidable (Accepts i outcome op db) :=
  match op with
  | .insert r => inferInstanceAs (Decidable (outcome = .accept ∧ (db.view i).Admits r))
  | .commit => inferInstanceAs (Decidable (outcome = .accept))
  | .add _ | .takePending | .rollback | .updateExtraction .. | .selectIdentifiers ..
  | .selectPersons .. | .selectPersonIdentifiers .. | .selectPersonNameVariants .. =>
    inferInstanceAs (Decidable True)

/-- The transaction is committed, and the person it names is one it inserted or has a committed
identifier. -/
def Persistent (i : ι) (o : Option UUID) (db : Db ι) : Prop :=
  ∃ cs, (i, cs) ∈ db.log ∧ ∀ u, o = some u →
    (∃ ident ∈ db.committed.identifiers, ident.person_uuid = u) ∨
      ∃ p : Person, .insert (.person p) ∈ cs ∧ p.person_uuid = u

variable {allowed : ι → Outcome → DbOp → Db ι → Prop} {o : Option UUID}

theorem stable_persistent : (discipline allowed).Stable i (Persistent i o) := by
  rintro db db' hrely ⟨cs, hcs, hnamed⟩
  refine ⟨cs, (hrely.log cs).mpr hcs, fun u hu => (hnamed u hu).imp ?_ id⟩
  rintro ⟨ident, hident, hperson⟩
  exact ⟨ident, hrely.identifiers ident hident, hperson⟩

theorem persistent_doCommit {db : Db ι} (h : Named i o db) : Persistent i o (db.doCommit i) := by
  refine ⟨db.changesOf i, List.mem_append_right _ (List.mem_singleton_self _), fun u hu => ?_⟩
  rcases h u hu with ⟨ident, hseen, hperson⟩ | ⟨p, hwritten, hperson⟩
  · exact .inl ⟨ident, (Tables.mem_identifiers_applyAll _).mpr hseen, hperson⟩
  · exact .inr ⟨p, hwritten, hperson⟩

theorem triple_takePendingAccepted :
    Triple (discipline Accepts) i (OpenWith i (Named i o)) Session.takePending
      (fun _ => OpenWith i (Named i o)) (fun _ => False) := by
  have hnamed : (discipline Accepts).Stable i (OpenWith i (Named i o)) :=
    stable_open.and (carried_named o).stable
  refine Triple.perform discipline_guarantees hnamed (fun _ => hnamed) Discipline.stable_false
    (fun db hdb => hdb.1.uncommitted) ?_
  rintro db outcome ⟨hopen, hdb⟩ hw -
  exact ⟨exec_open outcome .takePending (by simp) hw hopen, hdb⟩

theorem triple_insertAccepted (r : Row) :
    Triple (discipline Accepts) i (OpenWith i (Named i o)) (Session.insert r)
      (fun _ => OpenWith i (Named i o)) (fun _ => False) := by
  have hnamed : (discipline Accepts).Stable i (OpenWith i (Named i o)) :=
    stable_open.and (carried_named o).stable
  refine Triple.perform discipline_guarantees hnamed (fun _ => hnamed) Discipline.stable_false
    (fun db hdb => hdb.1.uncommitted) ?_
  rintro db outcome ⟨hopen, hdb⟩ hw ⟨rfl, hstorable, hfree, href⟩
  have hopen' := exec_open .accept (.insert r) (by simp) hw hopen
  have hcarried : Carried Accepts i (Named i o) := carried_named o
  have hdb' : Named i o (exec i .accept (.insert r) db).2 :=
    hcarried.kept .accept (.insert r) db trivial hdb
  have hrun : exec i .accept (.insert r) db = (.ok (), db.record i (.insert r)) :=
    doInsert_of_accepts hstorable hfree href
  rw [hrun] at hopen' hdb'
  change Ends _ _ (exec i .accept (.insert r) db).1 (exec i .accept (.insert r) db).2
  rw [hrun]
  exact ⟨hopen', hdb'⟩

/-- Closing a session none of whose statements the server refuses. -/
theorem triple_closeAccepted (a : α) :
    Triple (discipline Accepts) i (OpenWith i (Named i o)) (closeSession (.ok a))
      (fun _ => Persistent i o) (fun _ => False) := by
  have hnamed : (discipline Accepts).Stable i (OpenWith i (Named i o)) :=
    stable_open.and (carried_named o).stable
  have hflush : Triple (discipline Accepts) i (OpenWith i (Named i o)) Session.flush
      (fun _ => OpenWith i (Named i o)) (fun _ => False) :=
    Triple.bind discipline_closed Discipline.stable_false triple_takePendingAccepted (fun rows =>
      Triple.forM (I := fun _ => OpenWith i (Named i o)) discipline_closed Discipline.stable_false
        (fun _ => hnamed) (fun _ r => triple_insertAccepted r) [] rows)
  have hcommit : Triple (discipline Accepts) i (OpenWith i (Named i o)) Session.commit
      (fun _ => Persistent i o) (fun _ => False) := by
    refine Triple.perform discipline_guarantees hnamed (fun _ => stable_persistent)
      Discipline.stable_false (fun db hdb => hdb.1.uncommitted) ?_
    rintro db outcome ⟨-, hdb⟩ - (rfl : outcome = .accept)
    exact persistent_doCommit hdb
  refine Triple.handle discipline_closed (Q := fun _ => Persistent i o) (E := fun _ => False) ?_
    (fun _ => Triple.pure stable_persistent (fun _ => id)) (fun _ _ h => absurd h id)
  exact Triple.bind discipline_closed Discipline.stable_false hflush (fun _ => hcommit)

/-- Closing a session, whatever the server does. -/
theorem triple_closeAny (r : Except PyError α) :
    Triple (discipline allowed) i (Open i) (closeSession r) (fun _ _ => True) (Nothing i) := by
  have htrue : (discipline allowed).Stable i (fun _ => True) := Discipline.stable_const True
  cases r with
  | error e => exact triple_rollback e _
  | ok a =>
    refine Triple.handle discipline_closed (Q := fun _ _ => True) (E := Open i) ?_
      (fun _ => Triple.pure htrue (fun _ => id)) (fun e => triple_rollback e _)
    refine Triple.bind (Q := fun _ => OpenWith i (fun _ => True)) discipline_closed stable_open ?_
      (fun _ => triple_commit htrue htrue (fun _ _ => id))
    exact Triple.conseq triple_flushAny (fun db hdb => ⟨hdb, trivial⟩) (fun _ _ => id)

/-- Identifiers have their persons, committed or in the transaction that inserted them. -/
structure Rooted (db : Db ι) : Prop where
  committed : db.committed.Referential
  changes : ∀ j r, .insert (.identifier r) ∈ db.changesOf j →
    ∃ p ∈ (db.view j).persons, p.person_uuid = r.person_uuid

theorem mem_persons_view {db : Db ι} {j : ι} {p : Person} :
    p ∈ (db.view j).persons ↔ p ∈ db.committed.persons ∨ .insert (.person p) ∈ db.changesOf j :=
  Tables.mem_persons_applyAll _

theorem Rooted.of_changes {db db' : Db ι} (h : Rooted db)
    (hcommitted : db'.committed = db.committed)
    (hchanges : ∀ j, (∀ c ∈ db.changesOf j, c ∈ db'.changesOf j) ∨ db'.changesOf j = [])
    (hnew : ∀ j r, .insert (.identifier r) ∈ db'.changesOf j →
      .insert (.identifier r) ∈ db.changesOf j ∨ (db.view j).ReferenceHolds (.identifier r)) :
    Rooted db' where
  committed := hcommitted ▸ h.committed
  changes j r hr := by
    have hperson : ∃ p ∈ (db.view j).persons, p.person_uuid = r.person_uuid := by
      rcases hnew j r hr with hold | href
      · exact h.changes j r hold
      · exact href.1 r.person_uuid rfl
    obtain ⟨p, hp, hu⟩ := hperson
    refine ⟨p, mem_persons_view.mpr ?_, hu⟩
    rw [hcommitted]
    rcases hchanges j with hkept | hnone
    · exact (mem_persons_view.mp hp).imp id (hkept _)
    · rw [hnone] at hr
      exact absurd hr List.not_mem_nil

/-- The changes of transaction `i` are dropped. -/
theorem Rooted.endTransaction {db db' : Db ι} (h : Rooted db)
    (hcommitted : db'.committed = db.committed) (hself : db'.changesOf i = [])
    (hothers : ∀ j, j ≠ i → db'.changesOf j = db.changesOf j) : Rooted db' := by
  refine h.of_changes hcommitted (fun j => ?_) (fun j r hr => .inl ?_)
  · by_cases hj : j = i
    · exact .inr (hj ▸ hself)
    · exact .inl (fun c hc => by rwa [hothers j hj])
  · by_cases hj : j = i
    · rw [hj, hself] at hr
      exact absurd hr List.not_mem_nil
    · rwa [hothers j hj] at hr

theorem Rooted.record {db : Db ι} (h : Rooted db) {c : Change}
    (hc : ∀ r, c = .insert (.identifier r) → (db.view i).ReferenceHolds (.identifier r)) :
    Rooted (db.record i c) := by
  refine h.of_changes rfl (fun j => .inl (fun c' hc' => ?_)) (fun j r hr => ?_)
  · by_cases hj : i = j
    · rw [← hj, changesOf_record_self]
      exact List.mem_append_left _ (hj ▸ hc')
    · rwa [changesOf_record_ne _ _ hj]
  · by_cases hj : i = j
    · rw [← hj, changesOf_record_self] at hr
      rcases List.mem_append.mp hr with hr | hr
      · exact .inl (hj ▸ hr)
      · exact .inr (hj ▸ hc r (List.mem_singleton.mp hr).symm)
    · rw [changesOf_record_ne _ _ hj] at hr
      exact .inl hr

theorem Rooted.view {db : Db ι} (h : Rooted db) (j : ι) : (db.view j).Referential := by
  intro r hr
  rcases (Tables.mem_identifiers_applyAll _).mp hr with hr | hr
  · obtain ⟨p, hp, hu⟩ := h.committed r hr
    exact ⟨p, mem_persons_view.mpr (.inl hp), hu⟩
  · exact h.changes j r hr

theorem Rooted.doCommit {db : Db ι} (h : Rooted db) : Rooted (db.doCommit i) := by
  refine ⟨h.view i, fun j r hr => ?_⟩
  have hself : (db.doCommit i).changesOf i = [] := changesOf_endTransaction_self db i
  have hothers : ∀ j, j ≠ i → (db.doCommit i).changesOf j = db.changesOf j :=
    fun j hj => changesOf_endTransaction_ne db j (Ne.symm hj)
  by_cases hj : j = i
  · rw [hj, hself] at hr
    exact absurd hr List.not_mem_nil
  · rw [hothers j hj] at hr
    obtain ⟨p, hp, hu⟩ := h.changes j r hr
    refine ⟨p, mem_persons_view.mpr ?_, hu⟩
    rw [hothers j hj]
    exact (mem_persons_view.mp hp).imp (fun hp => mem_persons_view.mpr (.inl hp)) id

theorem exec_rooted (i : ι) (outcome : Outcome) (op : DbOp) {db : Db ι} (h : Rooted db) :
    Rooted (exec i outcome op db).2 := by
  have heffect := exec_effect i outcome op db
  generalize (exec i outcome op db).2 = db' at heffect ⊢
  have hself := changesOf_endTransaction_self db i
  have hothers : ∀ j, j ≠ i → (db.endTransaction i).changesOf j = db.changesOf j :=
    fun j hj => changesOf_endTransaction_ne db j (Ne.symm hj)
  cases heffect with
  | same => exact h
  | session rows => exact ⟨h.committed, h.changes⟩
  | insert r _ _ _ href =>
    refine h.record (fun r' hr' => ?_)
    rw [← Change.insert.inj hr']
    exact href
  | link => exact h.record (fun _ hr => by cases hr)
  | abort => exact h.endTransaction rfl hself hothers
  | rollback => exact h.endTransaction rfl hself hothers
  | commit => exact h.doCommit

/-- The person a committed transaction names is there. -/
theorem Persistent.exists_person {db : Db ι} {t : Tables} {u : UUID}
    (h : Persistent i (some u) db) (hrooted : Rooted db) (hlogged : Logged t db) :
    ∃ p ∈ db.committed.persons, p.person_uuid = u := by
  obtain ⟨cs, hcs, hnamed⟩ := h
  rcases hnamed u rfl with ⟨ident, hident, hperson⟩ | ⟨p, hp, hperson⟩
  · obtain ⟨p, hp, hu⟩ := hrooted.committed ident hident
    exact ⟨p, hp, hu.trans hperson⟩
  · refine ⟨p, ?_, hperson⟩
    rw [hlogged, Tables.mem_persons_applyAll]
    exact .inr (List.mem_flatMap.mpr ⟨(i, cs), hcs, hp⟩)

end Closing
end Hawiya
