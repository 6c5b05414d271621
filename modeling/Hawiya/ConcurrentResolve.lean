import Hawiya.ConcurrentSessions
import Hawiya.Matching
import Hawiya.Services

/-!
# Concurrent resolve calls for one passport

The lookup and the insert of a resolve call are not atomic, and the identifier stays in the session
until the commit. What makes the calls agree is the index: a call that commits has either seen a
committed identifier or written its own, and only one row can be active for the number.
-/

namespace Hawiya
open PyString Calendar Interaction Db ExtractionService IdentityService

/-- Whatever the call reads from the document, its number is `n`. -/
def Draws.Carries (draws : Draws) (n : Str) : Prop :=
  ∀ line1 line2 parsed, draws.read_mrz = .ok (line1, line2) →
    Mrz.parseTd3 draws.today line1 line2 = .ok parsed → parsed.document_number = n

section Triples
variable {ι : Type} [DecidableEq ι] {i : ι} {allowed : ι → Outcome → DbOp → Db ι → Prop}
variable {α : Type} {I : Db ι → Prop} {Q : α → Db ι → Prop}
variable (lib : Libraries) (ctx : RequestContext) (draws : Draws) (tenant_id : UUID)

theorem triple_requiresTenant {method : Tx α} (h : TxTriple allowed i I method Q) :
    TxTriple allowed i I (requiresTenant ctx tenant_id method) Q := by
  refine TxTriple.liftM (fun ctx_tenant _ => ?_)
  by_cases hne : tenant_id ≠ ctx_tenant
  · rw [if_pos hne]
    exact TxTriple.throw _
  · rw [if_neg hne]
    exact h

theorem triple_add (hI : Carried allowed i I) (r : Row) :
    TxTriple allowed i I (Session.add r) (fun _ => I) := TxTriple.execute hI trivial

theorem triple_readMrz (hI : Carried allowed i I) (payload : Bytes) :
    TxTriple allowed i I (readMrz lib ctx draws tenant_id payload)
      (fun lines db => I db ∧ draws.read_mrz = .ok lines) := by
  unfold readMrz
  cases draws.read_mrz with
  | ok lines =>
    exact TxTriple.pure (hI.stable.and (Discipline.stable_const _)) (fun db hdb => ⟨hdb, rfl⟩)
  | error e =>
    have hraise : ∀ e' : PyError, TxTriple allowed i I (do
        AuditWriter.write ctx tenant_id (failedAudit lib payload e')
        throw e' : Tx (Str × Str)) (fun lines db => I db ∧ Except.error e = .ok lines) :=
      fun e' => TxTriple.bind (triple_add hI _) (fun _ => TxTriple.throw e')
    cases e with
    | noMRZFoundError m => exact hraise _
    | ocrUnavailableError m => exact hraise _
    | mrzFormatError m => exact hraise _
    | _ => exact TxTriple.throw _

theorem triple_extract (hI : Carried allowed i I) {n : Str} (hcarries : draws.Carries n)
    (payload : Bytes) (content_type : Str) (consumer_request_id : Option Str) :
    TxTriple allowed i I
      (extract lib ctx draws tenant_id payload content_type consumer_request_id)
      (fun extraction db => I db ∧ extraction.fields.document_number = some n) := by
  refine triple_requiresTenant ctx tenant_id (TxTriple.liftM (fun document_type _ => ?_))
  refine TxTriple.bind (triple_readMrz lib ctx draws tenant_id hI payload) (fun lines => ?_)
  refine TxTriple.liftM (fun parsed hparse => ?_)
  have hlines := hI.and (carried_const (draws.read_mrz = .ok lines))
  refine TxTriple.bind (triple_add hlines _) (fun _ => TxTriple.bind (triple_add hlines _)
    (fun _ => TxTriple.pure (hI.stable.and (Discipline.stable_const _)) (fun db hdb => ?_)))
  refine ⟨hdb.1, ?_⟩
  change some parsed.document_number = some n
  rw [hcarries lines.1 lines.2 parsed hdb.2 hparse]

/-- The rows a lookup found are active identifiers the transaction sees. -/
def SeenAll (i : ι) (tenant_id : UUID) (identifier_type : IdentifierType) (n : Str)
    (rows : List PersonIdentifier) (db : Db ι) : Prop :=
  ∀ r, r ∈ rows → Seen i r db ∧ r.isActive tenant_id identifier_type n = true

theorem carried_seenAll (identifier_type : IdentifierType) (n : Str)
    (rows : List PersonIdentifier) :
    Carried allowed i (SeenAll i tenant_id identifier_type n rows) :=
  Carried.all (fun r => (carried_seen r).and (carried_const _))

theorem triple_selectActive (hI : Carried allowed i I) (identifier_type : IdentifierType)
    (n : Str) :
    TxTriple allowed i I (PersonIdentifierRepository.selectActive tenant_id identifier_type n)
      (fun rows db => I db ∧ SeenAll i tenant_id identifier_type n rows db) := by
  refine Triple.perform discipline_guarantees (stable_open.and hI.stable)
    (fun rows => stable_open.and (hI.and (carried_seenAll tenant_id identifier_type n rows)).stable)
    stable_open (fun db hdb => hdb.1.uncommitted) ?_
  rintro db outcome ⟨hopen, hdb⟩ hw -
  rcases exec_selectIdentifiers i outcome db tenant_id identifier_type n with h | ⟨e, -, h⟩
  · change Ends _ _ (exec i outcome _ db).1 (exec i outcome _ db).2
    rw [h]
    refine ⟨hopen, hdb, fun r hr => ?_⟩
    obtain ⟨hmem, hactive⟩ := (Tables.mem_activeIdentifiers _).mp hr
    exact ⟨((Tables.mem_identifiers_applyAll _).mp hmem), hactive⟩
  · change Ends _ _ (exec i outcome _ db).1 (exec i outcome _ db).2
    rw [h]
    exact hopen

theorem triple_scalarOneOrNone {l : List α} (hI : Carried allowed i I) :
    TxTriple allowed i I (scalarOneOrNone l) (fun o db => I db ∧ ∀ a, o = some a → a ∈ l) := by
  rcases l with _ | ⟨a, _ | ⟨b, rest⟩⟩
  · exact TxTriple.pure (hI.stable.and (Discipline.stable_const _)) (fun db hdb => ⟨hdb, by simp⟩)
  · exact TxTriple.pure (hI.stable.and (Discipline.stable_const _)) (fun db hdb => ⟨hdb, by simp⟩)
  · exact TxTriple.throw _

theorem triple_findActive (hI : Carried allowed i I) (identifier_type : IdentifierType) (n : Str) :
    TxTriple allowed i I (PersonIdentifierRepository.findActive tenant_id identifier_type n)
      (fun o db => I db ∧ SeenAll i tenant_id identifier_type n o.toList db) := by
  refine TxTriple.bind (triple_selectActive tenant_id hI identifier_type n) (fun rows => ?_)
  refine TxTriple.conseq (triple_scalarOneOrNone
    (hI.and (carried_seenAll tenant_id identifier_type n rows))) (fun _ => id) ?_
  rintro o db ⟨⟨hdb, hseen⟩, hmem⟩
  exact ⟨hdb, fun r hr => hseen r (hmem r (Option.mem_toList.mp hr))⟩

theorem triple_getPerson (hI : Carried allowed i I) (person_uuid : UUID) :
    TxTriple allowed i I (PersonRepository.get tenant_id person_uuid) (fun _ => I) := by
  refine TxTriple.bind (TxTriple.execute hI trivial) (fun rows => ?_)
  exact TxTriple.conseq (triple_scalarOneOrNone hI) (fun _ => id) (fun _ _ h => h.1)

/-- `person_uuid` is the owner of a passport with this number that the transaction sees. -/
def SeenOwner (i : ι) (tenant_id : UUID) (n : Str) (person_uuid : Option UUID) (db : Db ι) : Prop :=
  ∃ ident : PersonIdentifier, Seen i ident db ∧
    ident.isActive tenant_id .passport n = true ∧ person_uuid = some ident.person_uuid

theorem carried_seenOwner (n : Str) (person_uuid : Option UUID) :
    Carried allowed i (SeenOwner i tenant_id n person_uuid) :=
  Carried.some (fun ident => (carried_seen ident).and (carried_const _))

theorem passportResult_person_uuid (ident : PersonIdentifier) (nationality_match dob_match : Bool) :
    (DeterministicMatcher.passportResult ident nationality_match dob_match).person_uuid =
      some ident.person_uuid := by
  unfold DeterministicMatcher.passportResult
  split_ifs <;> rfl

theorem passportResult_action (ident : PersonIdentifier) (nationality_match dob_match : Bool) :
    (DeterministicMatcher.passportResult ident nationality_match dob_match).action ≠ .newRecord ∧
      (DeterministicMatcher.passportResult ident nationality_match dob_match).action ≠
        .noMatchNoCreate := by
  unfold DeterministicMatcher.passportResult
  split_ifs <;> simp

/-- A miss, or a match with the owner of a passport the transaction sees. -/
def Matched (i : ι) (tenant_id : UUID) (n : Str) (m : MatchResult) (db : Db ι) : Prop :=
  m.action = .noMatchNoCreate ∨
    (m.action ≠ .newRecord ∧ m.action ≠ .noMatchNoCreate) ∧ SeenOwner i tenant_id n m.person_uuid db

theorem carried_matched (n : Str) (m : MatchResult) :
    Carried allowed i (Matched i tenant_id n m) :=
  (carried_const _).or ((carried_const _).and (carried_seenOwner tenant_id n _))

/-- The lookup of a passport that is there, without the Emirates ID step. -/
theorem triple_deterministicMatch (hI : Carried allowed i I) {n : Str} (hn : n ≠ [])
    {q : DeterministicMatcher.Query} (hemirates : q.emirates_id = none)
    (hpassport : q.passport_number = some n) :
    TxTriple allowed i I (DeterministicMatcher.deterministicMatch tenant_id q)
      (fun m db => I db ∧ Matched i tenant_id n m db) := by
  have hskip : DeterministicMatcher.deterministicMatch tenant_id q = (do
      let byPassport ← DeterministicMatcher.matchPassport tenant_id q
      return byPassport.getD (DeterministicMatcher.noMatchResult q)) := by
    unfold DeterministicMatcher.deterministicMatch DeterministicMatcher.matchEmiratesId
    rw [hemirates]
    rfl
  rw [hskip, DeterministicMatcher.matchPassport, hpassport, orNone_of_ne_nil hn]
  refine TxTriple.bind (Q := fun o db => I db ∧ ∀ m, o = some m → Matched i tenant_id n m db)
    (TxTriple.bind (triple_findActive tenant_id hI .passport n) (fun o => ?_)) (fun o => ?_)
  · cases o with
    | none =>
      refine TxTriple.pure ?_ ?_
      · exact (hI.and (Carried.all (fun m => carried_matched tenant_id n m))).stable
      · exact fun db hdb => ⟨hdb.1, by simp⟩
    | some ident =>
      refine TxTriple.bind (triple_getPerson tenant_id
        (hI.and (carried_seenAll tenant_id .passport n _)) ident.person_uuid) (fun person => ?_)
      refine TxTriple.pure ?_ ?_
      · exact (hI.and (Carried.all (fun m => carried_matched tenant_id n m))).stable
      · rintro db ⟨hdb, hseen⟩
        obtain ⟨hident, hactive⟩ := hseen ident (by simp)
        refine ⟨hdb, fun m hm => .inr ?_⟩
        cases hm
        exact ⟨passportResult_action _ _ _, ident, hident, hactive, passportResult_person_uuid _ _ _⟩
  · refine TxTriple.pure (hI.and (carried_matched tenant_id n _)).stable ?_
    rintro db ⟨hdb, hmatched⟩
    refine ⟨hdb, ?_⟩
    cases o with
    | none => exact .inl rfl
    | some m => exact hmatched m rfl

theorem triple_hold (r : Row) :
    TxTriple allowed i (fun _ => True) (Session.add r) (fun _ => Held i r) := by
  refine Triple.perform discipline_guarantees (stable_open.and (Discipline.stable_const _))
    (fun _ => stable_open.and (stable_held r)) stable_open (fun db hdb => hdb.1.uncommitted) ?_
  rintro db outcome ⟨hopen, -⟩ hw -
  refine ⟨exec_open outcome (.add r) (by simp) hw hopen, ?_⟩
  change r ∈ Function.update db.pending i (db.pending i ++ [r]) i
  rw [Function.update_self]
  exact List.mem_append_right _ (List.mem_singleton.mpr rfl)

theorem triple_flushAny :
    TxTriple allowed i (fun _ => True) Session.flush (fun _ _ => True) :=
  TxTriple.flush (Discipline.stable_const _) (fun _ => carried_const True) (fun _ _ => trivial)
    (fun _ _ _ _ => trivial)

theorem triple_createPerson (person_uuid : UUID) (args : PersonRepository.Args) :
    TxTriple allowed i (fun _ => True) (PersonRepository.create lib tenant_id person_uuid args)
      (fun person _ => person = args.row lib tenant_id person_uuid) := by
  refine TxTriple.bind (triple_add (carried_const True) _) (fun _ => ?_)
  refine TxTriple.bind triple_flushAny (fun _ => ?_)
  refine TxTriple.bind (Q := fun _ _ => True) ?_ (fun _ => ?_)
  · exact Triple.forM (I := fun _ => OpenWith i (fun _ => True)) discipline_closed stable_open
      (fun _ => stable_open.and (Discipline.stable_const _))
      (fun before spec => TxTriple.bind (Q := fun _ _ => True)
        (TxTriple.bind (triple_add (carried_const True) _)
          (fun _ => TxTriple.pure (Discipline.stable_const _) (fun _ _ => trivial)))
        (fun _ => TxTriple.pure (Discipline.stable_const _) (fun _ _ => trivial)))
      [] args.name_variants
  · exact TxTriple.pure (Discipline.stable_const _) (fun _ _ => rfl)

/-- The identifier waits in the session, or the transaction sees it and the action is no new
record. -/
def Settled (i : ι) (tenant_id : UUID) (n : Str) (person_uuid : Option UUID) (action : MatchAction)
    (db : Db ι) : Prop :=
  ∃ ident : PersonIdentifier, (Held i (.identifier ident) db ∨
      Seen i ident db ∧ action ≠ .newRecord) ∧
    ident.isActive tenant_id .passport n = true ∧ person_uuid = some ident.person_uuid

theorem carried_settled (n : Str) (person_uuid : Option UUID) (action : MatchAction) :
    Carried allowed i (Settled i tenant_id n person_uuid action) :=
  Carried.some (fun ident => ((carried_held _).or ((carried_seen ident).and
    (carried_const _))).and (carried_const _))

theorem triple_createPersonFromExtraction {n : Str} (hn : n ≠ []) {fields : Fields}
    (hfields : fields.document_number = some n) (doc_number_confidence : ℚ) :
    TxTriple allowed i (fun _ => True)
      (createPersonFromExtraction lib draws tenant_id fields doc_number_confidence)
      (fun person_uuid => Settled i tenant_id n (some person_uuid) .newRecord) := by
  have hnumber : passportNumber fields = some n := by
    rw [passportNumber, hfields, orNone_of_ne_nil hn]
  unfold createPersonFromExtraction
  rw [hnumber]
  refine TxTriple.bind (triple_createPerson lib tenant_id draws.person_uuid _) (fun person => ?_)
  refine TxTriple.bind (Q := fun _ => Settled i tenant_id n (some person.person_uuid) .newRecord)
    ?_ (fun _ => TxTriple.pure (carried_settled tenant_id n _ _).stable (fun _ => id))
  refine TxTriple.bind (TxTriple.bind (TxTriple.conseq (triple_hold _) (fun _ _ => trivial)
    (fun _ _ => id)) (fun _ => TxTriple.pure (stable_held _) (fun _ => id))) (fun _ => ?_)
  refine TxTriple.pure (carried_settled tenant_id n _ _).stable (fun db hdb => ?_)
  exact ⟨_, .inl hdb, by rw [Tables.isActive_iff]; exact ⟨rfl, rfl, rfl, rfl⟩, rfl⟩

theorem triple_settle {n : Str} (hn : n ≠ []) {extraction : ExtractionResult}
    (hfields : extraction.fields.document_number = some n) (m : MatchResult) :
    TxTriple allowed i (Matched i tenant_id n m)
      (settle lib draws tenant_id extraction m true)
      (fun r => Settled i tenant_id n r.1 r.2.1) := by
  unfold settle
  by_cases hmiss : m.action = .noMatchNoCreate
  · rw [if_pos ⟨hmiss, rfl⟩]
    refine TxTriple.bind (TxTriple.conseq (triple_createPersonFromExtraction lib draws tenant_id hn
      hfields _) (fun _ _ => trivial) (fun _ _ => id)) (fun person_uuid => ?_)
    exact TxTriple.pure (carried_settled tenant_id n _ _).stable (fun _ => id)
  · rw [if_neg (fun h => hmiss h.1)]
    refine TxTriple.pure (carried_settled tenant_id n _ _).stable (fun db hdb => ?_)
    rcases hdb with hno | ⟨⟨hnew, -⟩, ident, hident, hactive, hperson⟩
    · exact absurd hno hmiss
    · exact ⟨ident, .inr ⟨hident, hnew⟩, hactive, hperson⟩

theorem triple_recordDecision (hI : Carried allowed i I) (payload : Bytes)
    (extraction : ExtractionResult) (m : MatchResult) (person_uuid : Option UUID)
    (action : MatchAction) (confidence : ℚ) :
    TxTriple allowed i I
      (recordDecision lib ctx tenant_id payload extraction m person_uuid action confidence)
      (fun _ => I) := by
  refine TxTriple.bind (TxTriple.execute hI trivial) (fun _ => ?_)
  cases actionToDecision action with
  | some decision => exact TxTriple.bind (triple_add hI _) (fun _ => triple_add hI _)
  | none => exact triple_add hI _

theorem triple_resolve {n : Str} (hn : n ≠ []) (hcarries : draws.Carries n) (payload : Bytes)
    (content_type : Str) (consumer_request_id : Option Str) :
    TxTriple allowed i (fun _ => True)
      (resolve lib ctx draws tenant_id payload content_type consumer_request_id true)
      (fun r => Settled i tenant_id n r.person_uuid r.action) := by
  refine triple_requiresTenant ctx tenant_id ?_
  refine TxTriple.bind (triple_extract lib ctx draws tenant_id (carried_const True) hcarries payload
    content_type consumer_request_id) (fun extraction => ?_)
  by_cases hnumber : extraction.fields.document_number = some n
  · have hquery : (query extraction.fields).passport_number = some n := by
      change orNone extraction.fields.document_number = some n
      rw [hnumber, orNone_of_ne_nil hn]
    refine TxTriple.bind (TxTriple.conseq (triple_deterministicMatch tenant_id (carried_const True)
      hn rfl hquery) (fun _ _ => trivial) (fun _ _ h => h.2)) (fun m => ?_)
    refine TxTriple.bind (triple_settle lib draws tenant_id hn hnumber m) (fun r => ?_)
    have hsettled : Carried allowed i (Settled i tenant_id n r.1 r.2.1) :=
      carried_settled tenant_id n r.1 r.2.1
    refine TxTriple.bind (triple_recordDecision lib ctx tenant_id hsettled payload extraction m _ _ _)
      (fun _ => TxTriple.pure hsettled.stable (fun _ => id))
  · intro db hdb
    exact absurd hdb.2.2 hnumber

/-- The number's identifier is written, or the transaction sees it and the action is no new
record. -/
def Decided (i : ι) (tenant_id : UUID) (n : Str) (person_uuid : Option UUID) (action : MatchAction)
    (db : Db ι) : Prop :=
  ∃ ident : PersonIdentifier, (Written i (.identifier ident) db ∨
      Seen i ident db ∧ action ≠ .newRecord) ∧
    ident.isActive tenant_id .passport n = true ∧ person_uuid = some ident.person_uuid

theorem triple_flushSettled (n : Str) (person_uuid : Option UUID) (action : MatchAction) :
    TxTriple allowed i (Settled i tenant_id n person_uuid action) Session.flush
      (fun _ => Decided i tenant_id n person_uuid action) := by
  refine TxTriple.flush (L := fun rows db => ∃ ident : PersonIdentifier,
    (.identifier ident ∈ rows ∨ Seen i ident db ∧ action ≠ .newRecord) ∧
      ident.isActive tenant_id .passport n = true ∧ person_uuid = some ident.person_uuid)
    (carried_settled tenant_id n person_uuid action).stable ?_ ?_ ?_
  · intro rows
    exact Carried.some (fun ident => ((carried_const _).or ((carried_seen ident).and
      (carried_const _))).and (carried_const _))
  · rintro db ⟨ident, hident, hrest⟩
    exact ⟨ident, hident, hrest⟩
  · rintro rows db ⟨ident, hident, hrest⟩ hwritten
    exact ⟨ident, hident.imp (fun hmem => hwritten _ hmem) id, hrest⟩

/-- The transaction is committed, and its result is the owner of the committed passport; a new
record is one that it wrote. -/
structure Committed (i : ι) (tenant_id : UUID) (n : Str) (person_uuid : Option UUID)
    (action : MatchAction) (db : Db ι) : Prop where
  consistent : db.Consistent
  owner : ∃ ident ∈ db.committed.identifiers, ident.isActive tenant_id .passport n = true ∧
    person_uuid = some ident.person_uuid
  logged : ∃ cs, (i, cs) ∈ db.log ∧
    (action = .newRecord → .activeIdentifier tenant_id .passport n ∈ cs.flatMap Change.keys)

theorem stable_committed (n : Str) (person_uuid : Option UUID) (action : MatchAction) :
    (discipline allowed).Stable i (Committed i tenant_id n person_uuid action) := by
  rintro db db' hrely ⟨hconsistent, ⟨ident, hident, hrest⟩, cs, hcs, hkey⟩
  exact ⟨hrely.consistent hconsistent, ⟨ident, hrely.identifiers ident hident, hrest⟩,
    cs, (hrely.log cs).mpr hcs, hkey⟩

theorem committed_doCommit {n : Str} {person_uuid : Option UUID} {action : MatchAction} {db : Db ι}
    (hopen : Open i db) (h : Decided i tenant_id n person_uuid action db) :
    Committed i tenant_id n person_uuid action (db.doCommit i) := by
  obtain ⟨ident, hident, hactive, hperson⟩ := h
  refine ⟨hopen.consistent.doCommit i, ⟨ident, ?_, hactive, hperson⟩, db.changesOf i,
    List.mem_append_right _ (List.mem_singleton.mpr rfl), fun hnew => ?_⟩
  · change ident ∈ (db.committed.applyAll (db.changesOf i)).identifiers
    rw [Tables.mem_identifiers_applyAll]
    rcases hident with hwritten | ⟨hseen, -⟩
    · exact .inr hwritten
    · exact hseen
  · rcases hident with hwritten | ⟨-, hnot⟩
    · exact List.mem_flatMap.mpr ⟨_, hwritten, Tables.isActive_iff_key.mp hactive⟩
    · exact absurd hnew hnot

/-- A resolve call in its own transaction. -/
structure ResolveCall where
  ctx : RequestContext
  draws : Draws
  payload : Bytes
  content_type : Str
  consumer_request_id : Option Str

def ResolveCall.program (lib : Libraries) (tenant_id : UUID) (call : ResolveCall) :
    Tx ResolveResult :=
  getSession call.ctx (resolve lib call.ctx call.draws tenant_id call.payload call.content_type
    call.consumer_request_id true)

theorem triple_resolveCall {n : Str} (hn : n ≠ []) (call : ResolveCall)
    (hcarries : call.draws.Carries n) :
    Triple (discipline allowed) i (fun db => db.Consistent ∧ Nothing i db)
      (call.program lib tenant_id)
      (fun r => Committed i tenant_id n r.person_uuid r.action) (Nothing i) :=
  triple_getSession call.ctx
    (triple_resolve lib call.ctx call.draws tenant_id hn hcarries call.payload call.content_type
      call.consumer_request_id)
    (fun r => triple_flushSettled tenant_id n r.person_uuid r.action)
    (fun _ => (Carried.some (fun ident => ((carried_written _).or ((carried_seen ident).and
      (carried_const _))).and (carried_const _))).stable)
    (fun r => stable_committed tenant_id n r.person_uuid r.action)
    (fun _ _ => committed_doCommit tenant_id)

end Triples

section Pools
variable {ι : Type} [DecidableEq ι]

/-- What is committed is what was at the start and what the log says. -/
def Logged (t : Tables) (db : Db ι) : Prop :=
  db.committed = t.applyAll (db.log.flatMap Prod.snd)

theorem exec_logged (t : Tables) (i : ι) (outcome : Outcome) (op : DbOp) (db : Db ι)
    (h : Logged t db) : Logged t (exec i outcome op db).2 := by
  have heffect := exec_effect i outcome op db
  generalize (exec i outcome op db).2 = db' at heffect ⊢
  cases heffect with
  | commit =>
    rw [Logged] at h ⊢
    change db.committed.applyAll (db.changesOf i) =
      t.applyAll ((db.log ++ [(i, db.changesOf i)]).flatMap Prod.snd)
    rw [h, List.flatMap_append, Tables.applyAll_append]
    simp
  | _ => exact h

/-- Two transactions of the log cannot both hold a key of a unique index. -/
theorem eq_of_mem_log {t : Tables} {db : Db ι} (hlogged : Logged t db) (hdb : db.Consistent)
    {i j : ι} {cs cs' : List Change} {k : IndexKey} (hi : (i, cs) ∈ db.log) (hj : (j, cs') ∈ db.log)
    (hk : k ∈ cs.flatMap Change.keys) (hk' : k ∈ cs'.flatMap Change.keys) : i = j := by
  by_contra hne
  have hkeys : (db.log.flatMap (fun e => e.2.flatMap Change.keys)).Nodup := by
    have hcommitted := hdb.committed
    rw [hlogged, (t.keys_applyAll _).nodup_iff, List.nodup_append, List.flatMap_assoc] at hcommitted
    exact hcommitted.2.1
  have hpairs := (List.nodup_flatMap.mp hkeys).2
  have hsymm : Std.Symm (Function.onFun List.Disjoint
      (fun e : ι × List Change => e.2.flatMap Change.keys)) := ⟨fun _ _ h => h.symm⟩
  exact hpairs.forall hi hj (fun h => hne (congrArg Prod.fst h)) hk hk'

/-- The calls of a tenant, all started together on committed tables. -/
def resolvePool (lib : Libraries) (tenant_id : UUID) (calls : ι → ResolveCall) (t : Tables) :
    Pool ι (Db ι) DbOp DbOp.Reply PyError ResolveResult where
  shared := Db.start t
  program i := (calls i).program lib tenant_id

/-- However resolve calls on one passport are interleaved, at most one commits as a new record, all
that commit return the same person, and one that fails leaves nothing: what is committed is what the
transactions in the log changed. -/
theorem concurrent_resolves_agree (lib : Libraries) (tenant_id : UUID) (n : Str) (hn : n ≠ [])
    (calls : ι → ResolveCall) (hcarries : ∀ i, (calls i).draws.Carries n) (t : Tables)
    (hkeys : t.keys.Nodup) (q : Pool ι (Db ι) DbOp DbOp.Reply PyError ResolveResult)
    (hrun : Pool.Run environment Pool.Unrestricted (resolvePool lib tenant_id calls t) q) :
    (∀ i, (∃ cs, (i, cs) ∈ q.shared.log) ↔ ∃ r, q.program i = .pure r) ∧
      (∀ i j r r', q.program i = .pure r → q.program j = .pure r' →
        r.person_uuid.isSome ∧ r.person_uuid = r'.person_uuid) ∧
      (∀ i j r r', q.program i = .pure r → q.program j = .pure r' → r.action = .newRecord →
        r'.action = .newRecord → i = j) ∧
      (∀ i e, q.program i = .throw e → Nothing i q.shared) ∧
      q.shared.committed = t.applyAll (q.shared.log.flatMap Prod.snd) := by
  have hlogged : Logged t q.shared :=
    hrun.invariant (fun i outcome op db _ => exec_logged t i outcome op db) rfl
  have hcall : ∀ i, Triple (discipline Pool.Unrestricted) i (fun db => db.Consistent ∧ Nothing i db)
      ((calls i).program lib tenant_id) (fun r => Committed i tenant_id n r.person_uuid r.action)
      (Nothing i) :=
    fun i => triple_resolveCall lib tenant_id hn (calls i) (hcarries i)
  have hstart : ∀ i, (resolvePool lib tenant_id calls t).shared.Consistent ∧
      Nothing i (resolvePool lib tenant_id calls t).shared := by
    intro i
    refine ⟨by simpa [resolvePool, Consistent, start, uncommittedKeys] using hkeys, ?_, rfl, rfl⟩
    exact fun cs hcs => absurd hcs List.not_mem_nil
  have hends := Triple.run discipline_closed hcall hstart hrun
  have hcommitted : ∀ i r, q.program i = .pure r →
      Committed i tenant_id n r.person_uuid r.action q.shared :=
    fun i r hr => Triple.run_pure discipline_closed hcall hstart hrun hr
  have hnothing : ∀ i e, q.program i = .throw e → Nothing i q.shared :=
    fun i e he => Triple.run_throw discipline_closed hcall hstart hrun he
  refine ⟨fun i => ⟨?_, ?_⟩, fun i j r r' hr hr' => ?_, fun i j r r' hr hr' hnew hnew' => ?_,
    hnothing, hlogged⟩
  · rintro ⟨cs, hcs⟩
    rcases hends i with ⟨r, hr, -⟩ | ⟨e, -, hnothing⟩ | ⟨huncommitted, -⟩
    · exact ⟨r, hr⟩
    · exact absurd hcs (hnothing.uncommitted cs)
    · exact absurd hcs (huncommitted cs)
  · rintro ⟨r, hr⟩
    obtain ⟨cs, hcs, -⟩ := (hcommitted i r hr).logged
    exact ⟨cs, hcs⟩
  · obtain ⟨ident, hident, hactive, hperson⟩ := (hcommitted i r hr).owner
    obtain ⟨ident', hident', hactive', hperson'⟩ := (hcommitted j r' hr').owner
    have hone := q.shared.committed.activeIdentifiers_eq_singleton
      (hcommitted i r hr).consistent.committed ((Tables.mem_activeIdentifiers _).mpr ⟨hident, hactive⟩)
    have hmem := (Tables.mem_activeIdentifiers _).mpr ⟨hident', hactive'⟩
    rw [hone, List.mem_singleton] at hmem
    rw [hperson, hperson', hmem]
    exact ⟨rfl, rfl⟩
  · obtain ⟨cs, hcs, hkey⟩ := (hcommitted i r hr).logged
    obtain ⟨cs', hcs', hkey'⟩ := (hcommitted j r' hr').logged
    exact eq_of_mem_log hlogged (hcommitted i r hr).consistent hcs hcs' (hkey hnew) (hkey' hnew')

end Pools
namespace Specimen

/-- Two calls for the passport. -/
def calls (first : Bool) : ResolveCall where
  ctx := ctx
  draws := if first then draws 10 11 else draws 12 13
  payload := photo
  content_type := octetStream
  consumer_request_id := none

theorem calls_carry (first : Bool) : (calls first).draws.Carries "P1234567".toList := by
  intro line1 line2 p hread hparse
  cases first with
  | true =>
    cases hread
    rw [show p = parsed from Except.ok.inj (hparse.symm.trans (parseTd3_lines 10 11))]
    rfl
  | false =>
    cases hread
    rw [show p = parsed from Except.ok.inj (hparse.symm.trans (parseTd3_lines 12 13))]
    rfl

/-- Both look the passport up before either inserts; then the first commits. -/
def overlap : List (Bool × Outcome) :=
  List.replicate 3 (true, .accept) ++ List.replicate 3 (false, .accept) ++
    List.replicate 16 (true, .accept) ++ List.replicate 14 (false, .accept)

theorem overlapping_resolves :
    ∃ q r, Pool.Run environment Pool.Unrestricted (resolvePool lib tenant calls (.empty [tenant])) q ∧
      q.program true = .pure r ∧ r.person_uuid.isSome ∧ ¬ ∃ r', q.program false = .pure r' := by
  have hlog : (Pool.runSchedule environment overlap
      (resolvePool lib tenant calls (.empty [tenant]))).map (fun q => q.shared.log.map Prod.fst) =
        some [true] := by
    decide +kernel
  obtain ⟨q, hq, hids⟩ := Option.map_eq_some_iff.mp hlog
  have hrun := Pool.run_of_runSchedule hq
  obtain ⟨hends, hsame, -⟩ := concurrent_resolves_agree lib tenant "P1234567".toList (by decide) calls
    calls_carry (.empty [tenant]) (by decide) q hrun
  have hlogged : ∀ i : Bool, (∃ cs, (i, cs) ∈ q.shared.log) ↔ i = true := by
    intro i
    rw [← List.mem_singleton, ← hids]
    simp
  obtain ⟨r, hr⟩ := (hends true).mp ((hlogged true).mpr rfl)
  refine ⟨q, r, hrun, hr, (hsame true true r r hr hr).1, ?_⟩
  rw [← hends false, hlogged false]
  decide

end Specimen
end Hawiya
