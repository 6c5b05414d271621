import Hawiya.ServiceSpecs

/-!
# What a committed call leaves in the tables

A transaction run alone keeps the unique indexes and every committed person and identifier. The
tables a resolve or create call leaves when it commits, and the fact that they are unchanged when
it does not.
-/

namespace Hawiya
open PyString Calendar Interaction Db ExtractionService

theorem waits_unit (op : DbOp) (db : Db Unit) : waits () op db = false := by
  cases op with
  | insert r => simp [waits]
  | updateExtraction => simp [waits]
  | _ => rfl

variable {α : Type} {ctx : RequestContext} {t : Tables}

theorem transact_keys_nodup (tx : Tx α) (h : t.keys.Nodup) : (transact ctx tx t).2.keys.Nodup := by
  have hrun := Program.run_invariant (Db.exec () .accept)
    (fun op db => exec_consistent () .accept op db (waits_unit op db)) (getSession ctx tx)
    (s := Db.start t) (by simpa [Consistent, start, uncommittedKeys] using h)
  exact hrun.committed

theorem transact_mono (tx : Tx α) :
    (∀ p ∈ t.persons, p ∈ (transact ctx tx t).2.persons) ∧
      ∀ r ∈ t.identifiers, r ∈ (transact ctx tx t).2.identifiers := by
  apply Program.run_invariant (Db.exec () .accept)
    (I := fun db : Db Unit => (∀ p ∈ t.persons, p ∈ db.committed.persons) ∧
      ∀ r ∈ t.identifiers, r ∈ db.committed.identifiers)
  · rintro op db ⟨hpersons, hidentifiers⟩
    obtain ⟨hp, hr⟩ := exec_committed_mono () .accept op db
    exact ⟨fun p h => hp p (hpersons p h), fun r h => hr r (hidentifiers r h)⟩
  · exact ⟨fun p h => h, fun r h => h⟩

namespace Tables

theorem mem_keys_insert {t : Tables} {r : Row} {k : IndexKey} :
    k ∈ (t.insert r).keys ↔ k ∈ t.keys ∨ k ∈ r.keys := by
  rw [(t.keys_insert r).mem_iff, List.mem_append]

theorem ReferenceHolds.insert {t : Tables} {r : Row} (h : t.ReferenceHolds r) (new : Row) :
    (t.insert new).ReferenceHolds r := by
  obtain ⟨hperson, htenant⟩ := h
  refine ⟨fun u hu => ?_, fun u hu => ?_⟩
  · obtain ⟨p, hp, hpu⟩ := hperson u hu
    exact ⟨p, (t.mem_persons_apply (c := .insert new)).mpr (.inl hp), hpu⟩
  · rw [← Tables.apply, tenants_apply]
    exact htenant u hu

/-- Storable rows whose keys are new and distinct and whose persons and tenants are there can all be
inserted. -/
theorem acceptsAll_of {t : Tables} {rows : List Row} (hstorable : ∀ r ∈ rows, r.Storable)
    (hfree : ∀ r ∈ rows, t.KeysFree r) (hdistinct : (rows.flatMap Row.keys).Nodup)
    (href : ∀ r ∈ rows, t.ReferenceHolds r) : t.AcceptsAll rows := by
  induction rows generalizing t with
  | nil => trivial
  | cons r rows ih =>
    rw [List.flatMap_cons, List.nodup_append] at hdistinct
    refine ⟨⟨hstorable r List.mem_cons_self, hfree r List.mem_cons_self,
      href r List.mem_cons_self⟩, ih ?_ ?_ hdistinct.2.1 ?_⟩
    · exact fun r' hr' => hstorable r' (List.mem_cons_of_mem _ hr')
    · intro r' hr' k hk hmem
      rcases mem_keys_insert.mp hmem with hmem | hmem
      · exact hfree r' (List.mem_cons_of_mem _ hr') k hk hmem
      · exact hdistinct.2.2 k hmem k (List.mem_flatMap.mpr ⟨r', hr', hk⟩) rfl
    · exact fun r' hr' => (href r' (List.mem_cons_of_mem _ hr')).insert r

theorem linkChanges_keys (t : Tables) (tenant_id extraction_id : UUID) (person_uuid : Option UUID)
    (action : MatchAction) (k : IndexKey) :
    k ∈ (t.applyAll (IdentityService.linkChanges t tenant_id extraction_id person_uuid action)).keys ↔
      k ∈ t.keys := by
  rw [(t.keys_applyAll _).mem_iff, IdentityService.linkChanges]
  split_ifs
  · simp [Change.keys]
  · simp

end Tables

namespace IdentityService
variable {lib : Libraries} {draws : Draws} {tenant_id : UUID} {payload : Bytes} {content_type : Str}
variable {document_type : DocumentType} {parsed : ParsedMRZ} {consumer_request_id : Option Str}
variable {create_if_missing : Bool}

theorem matchIn_query_miss_iff (t : Tables) (tenant_id : UUID) (parsed : ParsedMRZ) :
    (t.matchIn tenant_id (query (fieldsFromParsed parsed))).action = .noMatchNoCreate ↔
      t.active? tenant_id .passport (some parsed.document_number) = none := by
  rw [matchIn_miss_iff]
  simp only [query, passportNumber, fieldsFromParsed, active?_orNone]
  simp [Tables.active?, orNone]

theorem linkChanges_eq_nil {r : DocumentExtraction} (h : t.KeysFree (.extraction r))
    (tenant_id : UUID) (person_uuid : Option UUID) (action : MatchAction) :
    linkChanges t tenant_id r.extraction_id person_uuid action = [] := by
  unfold linkChanges
  rw [if_neg]
  simp only [List.any_eq_true, DocumentExtraction.isExtraction, Bool.and_eq_true, beq_iff_eq,
    not_exists, not_and]
  intro row hrow hid
  have hkey : IndexKey.extraction r.extraction_id ∈ t.keys := by
    rw [Tables.keys, List.mem_append]
    exact .inr (List.mem_map.mpr ⟨row, hrow, by rw [hid]⟩)
  exact absurd hkey (h _ (List.mem_singleton.mpr rfl))

theorem linkChanges_eq_link {r : DocumentExtraction} (h : r ∈ t.extractions)
    (person_uuid : Option UUID) (action : MatchAction) :
    linkChanges t r.tenant_id r.extraction_id person_uuid action =
      [.link r.extraction_id r.tenant_id person_uuid action.value] := by
  unfold linkChanges
  rw [if_pos]
  rw [List.any_eq_true]
  exact ⟨r, h, by simp [DocumentExtraction.isExtraction]⟩

theorem transact_resolve_of_not_reads
    (h : ¬ ∃ document_type parsed,
      Reads lib draws ctx tenant_id payload content_type document_type parsed)
    (hctx : ctx.tenant_id = some tenant_id) :
    ∃ e, transact ctx (resolve lib ctx draws tenant_id payload content_type consumer_request_id
      create_if_missing) t = (.error e, t) := by
  obtain ⟨e, e', hrun⟩ := run_extract_of_not_reads t () [] [] consumer_request_id h
  have hresolve : runTx () (resolve lib ctx draws tenant_id payload content_type consumer_request_id
      create_if_missing) (during t () [] []) =
        (.error e, during t () [] ([] ++ failedRows lib ctx tenant_id payload e')) := by
    unfold resolve
    rw [run_requiresTenant () hctx, runTx_bind, hrun]
  exact ⟨e, transact_of_error hctx hresolve⟩

/-- The tables after a resolve call that did not create a person. -/
def resolvedTables (lib : Libraries) (ctx : RequestContext) (draws : Draws) (tenant_id : UUID)
    (payload : Bytes) (consumer_request_id : Option Str) (document_type : DocumentType)
    (parsed : ParsedMRZ) (m : MatchResult) (t : Tables) : Tables :=
  t.insertAll (extractionRows lib ctx draws tenant_id payload consumer_request_id document_type
      parsed ++
    outcomeRows lib ctx tenant_id payload (result draws document_type parsed) m m.person_uuid
      m.action m.confidence)

theorem transact_resolve_existing
    (hreads : Reads lib draws ctx tenant_id payload content_type document_type parsed)
    (hkeys : t.keys.Nodup) {m : MatchResult}
    (hm : t.matchIn tenant_id (query (fieldsFromParsed parsed)) = m)
    (hno : ¬ (m.action = .noMatchNoCreate ∧ create_if_missing = true)) :
    (transact ctx (resolve lib ctx draws tenant_id payload content_type consumer_request_id
        create_if_missing) t =
      (.ok (resolveResult draws parsed m m.person_uuid m.action m.confidence),
        resolvedTables lib ctx draws tenant_id payload consumer_request_id document_type parsed m t) ∧
      t.KeysFree (.extraction (record lib draws tenant_id payload consumer_request_id document_type
        parsed))) ∨
    ∃ e, transact ctx (resolve lib ctx draws tenant_id payload content_type consumer_request_id
      create_if_missing) t = (.error e, t) := by
  have hrun := run_resolve_existing t () [] [] consumer_request_id hreads hkeys hm hno
  by_cases hacc : t.AcceptsAll (extractionRows lib ctx draws tenant_id payload consumer_request_id
      document_type parsed ++ outcomeRows lib ctx tenant_id payload (result draws document_type
        parsed) m m.person_uuid m.action m.confidence)
  · have hfree := hacc.1.free
    have hnil : linkChanges t tenant_id draws.extraction_id m.person_uuid m.action = [] :=
      linkChanges_eq_nil hfree tenant_id m.person_uuid m.action
    simp only [Tables.applyAll_nil, hnil, List.append_nil, List.nil_append] at hrun
    refine .inl ⟨?_, hfree⟩
    rw [transact_of_accepts hreads.tenant hrun hacc, List.nil_append, Tables.applyAll_inserts]
    rfl
  · refine .inr (transact_of_not_accepts hreads.tenant hrun (fun hacc' => hacc ?_))
    have hfree : t.KeysFree (.extraction (record lib draws tenant_id payload consumer_request_id
        document_type parsed)) :=
      fun k hk hmem => hacc'.1.free k hk ((t.linkChanges_keys _ _ _ _ _).mpr hmem)
    have hnil : linkChanges t tenant_id draws.extraction_id m.person_uuid m.action = [] :=
      linkChanges_eq_nil hfree tenant_id m.person_uuid m.action
    simpa only [Tables.applyAll_nil, hnil, List.append_nil, List.nil_append] using hacc'

/-- The rows a person is created with, in the order the session holds them. -/
def createdRows (lib : Libraries) (ctx : RequestContext) (draws : Draws) (tenant_id : UUID)
    (payload : Bytes) (consumer_request_id : Option Str) (document_type : DocumentType)
    (parsed : ParsedMRZ) : List Row :=
  extractionRows lib ctx draws tenant_id payload consumer_request_id document_type parsed ++
    [Row.person (personRow lib draws tenant_id (fieldsFromParsed parsed))]

def newRecordRows (lib : Libraries) (ctx : RequestContext) (draws : Draws) (tenant_id : UUID)
    (payload : Bytes) (document_type : DocumentType) (parsed : ParsedMRZ) (m : MatchResult) :
    List Row :=
  newPersonRows lib draws tenant_id (fieldsFromParsed parsed)
      (confidencesFromParsed parsed).document_number ++
    outcomeRows lib ctx tenant_id payload (result draws document_type parsed) m
      (some draws.person_uuid) .newRecord confNewRecord

def newRecordLink (draws : Draws) (tenant_id : UUID) : Change :=
  .link draws.extraction_id tenant_id (some draws.person_uuid) MatchAction.newRecord.value

/-- What a resolve call sees once its new person is flushed and its extraction linked. -/
def createdTables (lib : Libraries) (ctx : RequestContext) (draws : Draws) (tenant_id : UUID)
    (payload : Bytes) (consumer_request_id : Option Str) (document_type : DocumentType)
    (parsed : ParsedMRZ) (t : Tables) : Tables :=
  (t.insertAll (createdRows lib ctx draws tenant_id payload consumer_request_id document_type
    parsed)).apply (newRecordLink draws tenant_id)

/-- The tables after a resolve call that created a person. -/
def newRecordTables (lib : Libraries) (ctx : RequestContext) (draws : Draws) (tenant_id : UUID)
    (payload : Bytes) (consumer_request_id : Option Str) (document_type : DocumentType)
    (parsed : ParsedMRZ) (m : MatchResult) (t : Tables) : Tables :=
  (createdTables lib ctx draws tenant_id payload consumer_request_id document_type parsed
    t).insertAll (newRecordRows lib ctx draws tenant_id payload document_type parsed m)

/-- Creating a person flushes the session: a refused row fails here. -/
theorem run_resolve_new_of_not_accepts
    (hreads : Reads lib draws ctx tenant_id payload content_type document_type parsed)
    (hkeys : t.keys.Nodup) {m : MatchResult}
    (hm : t.matchIn tenant_id (query (fieldsFromParsed parsed)) = m)
    (hmiss : m.action = .noMatchNoCreate)
    (hacc : ¬ t.AcceptsAll (createdRows lib ctx draws tenant_id payload consumer_request_id
      document_type parsed)) :
    ∃ e cs', e.ofServer = true ∧ runTx () (resolve lib ctx draws tenant_id payload content_type
      consumer_request_id true) (during t () [] []) = (.error e, during t () cs' []) := by
  obtain ⟨e, cs', hserver, hcreate⟩ := run_createPersonFromExtraction_of_not_accepts lib draws t ()
    [] _ tenant_id (fieldsFromParsed parsed) (confidencesFromParsed parsed).document_number hacc
  refine ⟨e, cs', hserver, ?_⟩
  unfold resolve settle
  rw [run_requiresTenant () hreads.tenant, runTx_bind,
    run_extract t () [] [] consumer_request_id hreads]
  simp only [List.nil_append, runTx_bind,
    run_deterministicMatch_during [] hkeys _ tenant_id (askable_of_reads _ hreads),
    Tables.applyAll_nil, result, hm, hmiss, and_self, if_true, hcreate]

theorem createdRows_link :
    linkChanges (t.insertAll (createdRows lib ctx draws tenant_id payload consumer_request_id
        document_type parsed)) tenant_id draws.extraction_id (some draws.person_uuid) .newRecord =
      [newRecordLink draws tenant_id] := by
  have hmem : record lib draws tenant_id payload consumer_request_id document_type parsed ∈
      (t.insertAll (createdRows lib ctx draws tenant_id payload consumer_request_id document_type
        parsed)).extractions := by
    simp [Tables.insertAll, createdRows, extractionRows, Row.extraction?]
  exact linkChanges_eq_link hmem (some draws.person_uuid) .newRecord

/-- Once the person is flushed, the commit of the rows after it decides. -/
theorem transact_resolve_new
    (hreads : Reads lib draws ctx tenant_id payload content_type document_type parsed)
    (hkeys : t.keys.Nodup) {m : MatchResult}
    (hm : t.matchIn tenant_id (query (fieldsFromParsed parsed)) = m)
    (hmiss : m.action = .noMatchNoCreate)
    (hacc : t.AcceptsAll (createdRows lib ctx draws tenant_id payload consumer_request_id
      document_type parsed)) :
    transact ctx (resolve lib ctx draws tenant_id payload content_type consumer_request_id true) t =
      (.ok (resolveResult draws parsed m (some draws.person_uuid) .newRecord confNewRecord),
        newRecordTables lib ctx draws tenant_id payload consumer_request_id document_type parsed m
          t) ∨
    ∃ e, transact ctx (resolve lib ctx draws tenant_id payload content_type consumer_request_id
      true) t = (.error e, t) := by
  have hrun := run_resolve_new t () [] [] consumer_request_id hreads hkeys hm hmiss rfl hacc
  have hview : t.applyAll ([] ++ (createdRows lib ctx draws tenant_id payload consumer_request_id
      document_type parsed).map .insert ++ [newRecordLink draws tenant_id]) =
      createdTables lib ctx draws tenant_id payload consumer_request_id document_type parsed t := by
    rw [List.nil_append, Tables.applyAll_snoc, Tables.applyAll_inserts, createdTables]
  have hlink : linkChanges (t.applyAll ([] ++ (createdRows lib ctx draws tenant_id payload
      consumer_request_id document_type parsed).map .insert)) tenant_id draws.extraction_id
        (some draws.person_uuid) .newRecord = [newRecordLink draws tenant_id] := by
    rw [List.nil_append, Tables.applyAll_inserts, createdRows_link]
  rw [show [] ++ extractionRows lib ctx draws tenant_id payload consumer_request_id document_type
      parsed ++ [Row.person (personRow lib draws tenant_id (fieldsFromParsed parsed))] =
    createdRows lib ctx draws tenant_id payload consumer_request_id document_type parsed from rfl,
    hlink] at hrun
  by_cases hrest : (createdTables lib ctx draws tenant_id payload consumer_request_id document_type
      parsed t).AcceptsAll (newRecordRows lib ctx draws tenant_id payload document_type parsed m)
  · rw [← hview] at hrest
    refine .inl ?_
    rw [transact_of_accepts hreads.tenant hrun hrest, Tables.applyAll_append, hview,
      Tables.applyAll_inserts]
    rfl
  · rw [← hview] at hrest
    exact .inr (transact_of_not_accepts hreads.tenant hrun hrest)

theorem transact_resolve_new_of_not_accepts
    (hreads : Reads lib draws ctx tenant_id payload content_type document_type parsed)
    (hkeys : t.keys.Nodup) {m : MatchResult}
    (hm : t.matchIn tenant_id (query (fieldsFromParsed parsed)) = m)
    (hmiss : m.action = .noMatchNoCreate)
    (hacc : ¬ t.AcceptsAll (createdRows lib ctx draws tenant_id payload consumer_request_id
      document_type parsed)) :
    ∃ e, transact ctx (resolve lib ctx draws tenant_id payload content_type consumer_request_id
      true) t = (.error e, t) := by
  obtain ⟨e, cs', -, hrun⟩ := run_resolve_new_of_not_accepts hreads hkeys hm hmiss hacc
  exact ⟨e, transact_of_error hreads.tenant hrun⟩

theorem run_resolve_cases
    (hreads : Reads lib draws ctx tenant_id payload content_type document_type parsed)
    (hkeys : t.keys.Nodup) :
    (∃ r db, runTx () (resolve lib ctx draws tenant_id payload content_type consumer_request_id
      create_if_missing) (during t () [] []) = (.ok r, db)) ∨
    ∃ e cs', e.ofServer = true ∧ runTx () (resolve lib ctx draws tenant_id payload content_type
      consumer_request_id create_if_missing) (during t () [] []) =
        (.error e, during t () cs' []) := by
  by_cases hnew : (t.matchIn tenant_id (query (fieldsFromParsed parsed))).action =
      .noMatchNoCreate ∧ create_if_missing = true
  · obtain ⟨hmiss, rfl⟩ := hnew
    by_cases hacc : t.AcceptsAll (createdRows lib ctx draws tenant_id payload consumer_request_id
        document_type parsed)
    · exact .inl ⟨_, _, run_resolve_new t () [] [] consumer_request_id hreads hkeys rfl hmiss rfl hacc⟩
    · exact .inr (run_resolve_new_of_not_accepts hreads hkeys rfl hmiss hacc)
  · exact .inl ⟨_, _, run_resolve_existing t () [] [] consumer_request_id hreads hkeys rfl hnew⟩

/-- What a committed resolve call returned and left. -/
inductive Resolved (lib : Libraries) (ctx : RequestContext) (draws : Draws) (tenant_id : UUID)
    (payload : Bytes) (consumer_request_id : Option Str) (create_if_missing : Bool) (t : Tables)
    (document_type : DocumentType) (parsed : ParsedMRZ) : ResolveResult → Tables → Prop
  | existing (m : MatchResult) (matched : t.matchIn tenant_id (query (fieldsFromParsed parsed)) = m)
      (kept : ¬ (m.action = .noMatchNoCreate ∧ create_if_missing = true))
      (fresh : t.KeysFree (.extraction (ExtractionService.record lib draws tenant_id payload
        consumer_request_id document_type parsed))) :
      Resolved lib ctx draws tenant_id payload consumer_request_id create_if_missing t document_type
        parsed
        (resolveResult draws parsed m m.person_uuid m.action m.confidence)
        (resolvedTables lib ctx draws tenant_id payload consumer_request_id document_type parsed m t)
  | created (m : MatchResult) (matched : t.matchIn tenant_id (query (fieldsFromParsed parsed)) = m)
      (miss : t.active? tenant_id .passport (some parsed.document_number) = none)
      (create : create_if_missing = true)
      (fresh : t.AcceptsAll (createdRows lib ctx draws tenant_id payload consumer_request_id
        document_type parsed)) :
      Resolved lib ctx draws tenant_id payload consumer_request_id create_if_missing t document_type
        parsed
        (resolveResult draws parsed m (some draws.person_uuid) .newRecord confNewRecord)
        (newRecordTables lib ctx draws tenant_id payload consumer_request_id document_type parsed m
          t)

/-- A resolve transaction commits as `Resolved` says, or fails and changes nothing. -/
theorem transact_resolve_cases (hkeys : t.keys.Nodup) :
    (∃ e, transact ctx (resolve lib ctx draws tenant_id payload content_type consumer_request_id
      create_if_missing) t = (.error e, t)) ∨
    ∃ document_type parsed r t',
      Reads lib draws ctx tenant_id payload content_type document_type parsed ∧
      transact ctx (resolve lib ctx draws tenant_id payload content_type consumer_request_id
        create_if_missing) t = (.ok r, t') ∧
      Resolved lib ctx draws tenant_id payload consumer_request_id create_if_missing t document_type
        parsed r t' := by
  by_cases hctx : ctx.tenant_id = some tenant_id
  · by_cases hreads : ∃ document_type parsed,
        Reads lib draws ctx tenant_id payload content_type document_type parsed
    · obtain ⟨document_type, parsed, hreads⟩ := hreads
      by_cases hnew : (t.matchIn tenant_id (query (fieldsFromParsed parsed))).action =
          .noMatchNoCreate ∧ create_if_missing = true
      · obtain ⟨hmiss, rfl⟩ := hnew
        have hfirst := (matchIn_query_miss_iff t tenant_id parsed).mp hmiss
        by_cases hacc : t.AcceptsAll (createdRows lib ctx draws tenant_id payload
            consumer_request_id document_type parsed)
        · rcases transact_resolve_new hreads hkeys rfl hmiss hacc with hrun | herror
          · exact .inr ⟨document_type, parsed, _, _, hreads, hrun, .created _ rfl hfirst rfl hacc⟩
          · exact .inl herror
        · exact .inl (transact_resolve_new_of_not_accepts hreads hkeys rfl hmiss hacc)
      · rcases transact_resolve_existing hreads hkeys rfl hnew with ⟨hrun, hfree⟩ | herror
        · exact .inr ⟨document_type, parsed, _, _, hreads, hrun, .existing _ rfl hnew hfree⟩
        · exact .inl herror
    · exact .inl (transact_resolve_of_not_reads hreads hctx)
  · refine .inl ?_
    cases hsome : ctx.tenant_id with
    | none =>
      refine ⟨.runtimeError "set_session_tenant called without a tenant in context.", ?_⟩
      unfold transact getSession
      rw [hsome]
      rfl
    | some tenant =>
      obtain ⟨e, hrun⟩ : ∃ e, runTx () (resolve lib ctx draws tenant_id payload content_type
          consumer_request_id create_if_missing) (during t () [] []) =
            (.error e, during t () [] []) := run_requiresTenant_of_ne () hctx _
      exact ⟨e, transact_of_error hsome hrun⟩

end IdentityService
namespace PersonService
variable {lib : Libraries} {draws : Draws} {tenant_id : UUID} {args : Args}

/-- The rows a create call adds, in the order the session holds them. -/
def allRows (lib : Libraries) (ctx : RequestContext) (draws : Draws) (tenant_id : UUID)
    (args : Args) : List Row :=
  Row.person (personRow lib draws tenant_id args) :: createdRows lib ctx draws tenant_id args

/-- The identifiers a create call registers: one for each supplied, non-empty value. -/
def identifiers (draws : Draws) (tenant_id : UUID) (args : Args) : List PersonIdentifier :=
  (((orNone args.passport_number).map (args.passport draws.person_uuid)).toList ++
    ((orNone args.emirates_id).map (emiratesIdArgs draws.person_uuid)).toList).map
      (fun a => a.row tenant_id)

theorem identifierRows_eq :
    identifierRows draws tenant_id args =
      (identifiers draws tenant_id args).map Row.identifier := by
  simp [identifierRows, identifiers, Function.comp_def]

theorem identifiers_keys :
    (identifiers draws tenant_id args).flatMap PersonIdentifier.keys =
      ((orNone args.passport_number).toList.map
          (fun v => .activeIdentifier tenant_id .passport v)) ++
        (orNone args.emirates_id).toList.map
          (fun v => .activeIdentifier tenant_id .emiratesId v) := by
  unfold identifiers
  cases orNone args.passport_number with
  | none =>
    cases orNone args.emirates_id with
    | none => simp
    | some e => simp [PersonIdentifier.keys, PersonIdentifierRepository.Args.row, emiratesIdArgs]
  | some n =>
    cases orNone args.emirates_id with
    | none => simp [PersonIdentifier.keys, PersonIdentifierRepository.Args.row, Args.passport]
    | some e =>
      simp [PersonIdentifier.keys, PersonIdentifierRepository.Args.row, Args.passport,
        emiratesIdArgs]

theorem createdRows_keys :
    (createdRows lib ctx draws tenant_id args).flatMap Row.keys =
      (identifiers draws tenant_id args).flatMap PersonIdentifier.keys := by
  have hvariants : ∀ specs : List PersonRepository.VariantSpec,
      (PersonRepository.variantRows lib tenant_id draws.person_uuid specs).flatMap Row.keys = [] := by
    intro specs
    simp [PersonRepository.variantRows, Row.keys]
  rw [createdRows, identifierRows_eq, List.flatMap_append, List.flatMap_append, hvariants,
    List.flatMap_map]
  simp [Row.keys]

theorem createdRows_reference {r : Row} (h : r ∈ createdRows lib ctx draws tenant_id args) {u : UUID}
    (hu : u ∈ r.reference?) : u = draws.person_uuid := by
  simp only [createdRows, identifierRows, List.mem_append, PersonRepository.variantRows,
    List.mem_map, List.mem_singleton, Option.mem_toList, Option.map_eq_some_iff] at h
  rcases h with (⟨spec, -, rfl⟩ | ⟨a, ⟨v, -, rfl⟩ | ⟨v, -, rfl⟩, rfl⟩) | rfl
  · exact (Option.some.inj hu).symm
  · exact (Option.some.inj hu).symm
  · exact (Option.some.inj hu).symm
  · exact absurd hu (by simp [Row.reference?])

theorem createdRows_tenantReference {r : Row} (h : r ∈ createdRows lib ctx draws tenant_id args)
    {u : UUID} (hu : u ∈ r.tenantReference?) : u = tenant_id := by
  simp only [createdRows, identifierRows, List.mem_append, PersonRepository.variantRows,
    List.mem_map, List.mem_singleton, Option.mem_toList, Option.map_eq_some_iff] at h
  rcases h with (⟨spec, -, rfl⟩ | ⟨a, ⟨v, -, rfl⟩ | ⟨v, -, rfl⟩, rfl⟩) | rfl
  · exact absurd hu (by simp [Row.tenantReference?])
  · exact absurd hu (by simp [Row.tenantReference?])
  · exact absurd hu (by simp [Row.tenantReference?])
  · exact (Option.some.inj hu).symm

/-- No supplied identifier is active for the tenant. -/
def NoneActive (t : Tables) (tenant_id : UUID) (args : Args) : Prop :=
  t.active? tenant_id .passport args.passport_number = none ∧
    t.active? tenant_id .emiratesId args.emirates_id = none

theorem isDuplicate_matchIn :
    isDuplicate (t.matchIn tenant_id args.query) = false ↔ NoneActive t tenant_id args := by
  unfold NoneActive Tables.matchIn
  cases he : t.active? tenant_id .emiratesId args.query.emirates_id with
  | some ident =>
    simp only [Args.query] at he
    simp [isDuplicate, DeterministicMatcher.emiratesIdResult, he]
  | none =>
    simp only [Args.query] at he
    cases hp : t.active? tenant_id .passport args.query.passport_number with
    | none =>
      simp only [Args.query] at hp
      simp [isDuplicate, DeterministicMatcher.noMatchResult, he, hp]
    | some ident =>
      simp only [Args.query] at hp
      simp only [DeterministicMatcher.passportResult, hp, he]
      split_ifs <;> simp [isDuplicate]

theorem allRows_accepted (hstorable : ∀ r ∈ allRows lib ctx draws tenant_id args, r.Storable)
    (htenant : tenant_id ∈ t.tenants) (hnone : NoneActive t tenant_id args)
    (hfresh : .person draws.person_uuid ∉ t.keys) :
    t.AcceptsAll (allRows lib ctx draws tenant_id args) := by
  refine ⟨⟨hstorable _ List.mem_cons_self, ?_, ?_, ?_⟩, Tables.acceptsAll_of ?_ ?_ ?_ ?_⟩
  · intro k hk
    rw [List.mem_singleton.mp hk]
    exact hfresh
  · exact fun u hu => absurd hu (by simp [Row.reference?])
  · intro u hu
    rw [← Option.some.inj hu]
    exact htenant
  · exact fun r hr => hstorable r (List.mem_cons_of_mem _ hr)
  · intro r hr k hk hmem
    have hk' : k ∈ (createdRows lib ctx draws tenant_id args).flatMap Row.keys :=
      List.mem_flatMap.mpr ⟨r, hr, hk⟩
    rw [createdRows_keys, identifiers_keys, List.mem_append, List.mem_map, List.mem_map] at hk'
    rw [Tables.mem_keys_insert] at hmem
    rcases hk' with ⟨v, hv, rfl⟩ | ⟨v, hv, rfl⟩
    · obtain ⟨hsome, hne⟩ := orNone_eq_some_iff.mp (Option.mem_toList.mp hv)
      have hold := (t.active?_eq_none_iff.mp hnone.1) v hsome hne
      simp [hold, Row.keys] at hmem
    · obtain ⟨hsome, hne⟩ := orNone_eq_some_iff.mp (Option.mem_toList.mp hv)
      have hold := (t.active?_eq_none_iff.mp hnone.2) v hsome hne
      simp [hold, Row.keys] at hmem
  · rw [createdRows_keys, identifiers_keys]
    cases orNone args.passport_number with
    | none => cases orNone args.emirates_id <;> simp
    | some n => cases orNone args.emirates_id <;> simp
  · intro r hr
    refine ⟨fun u hu => ?_, fun u hu => ?_⟩
    · rw [createdRows_reference hr hu]
      exact ⟨personRow lib draws tenant_id args, by simp [Tables.insert], rfl⟩
    · rw [createdRows_tenantReference hr hu]
      exact htenant

theorem run_create_of_accepts (hctx : ctx.tenant_id = some tenant_id) (hkeys : t.keys.Nodup)
    (hask : Askable t tenant_id args.query) (hnone : NoneActive t tenant_id args)
    (hacc : t.AcceptsAll (allRows lib ctx draws tenant_id args)) :
    runTx () (create lib ctx draws tenant_id args) (during t () [] []) =
      (.ok (loaded (t.insertAll (allRows lib ctx draws tenant_id args))
          (personRow lib draws tenant_id args)),
        during t () ((allRows lib ctx draws tenant_id args).map .insert) []) := by
  obtain ⟨hperson, hrows⟩ := hacc
  have hrun := run_create t () [] [] hctx hkeys hask (isDuplicate_matchIn.mpr hnone) rfl
    ⟨hperson, trivial⟩ hrows
  have hall : [] ++ ([] ++ [Row.person (personRow lib draws tenant_id args)]).map Change.insert ++
      (createdRows lib ctx draws tenant_id args).map Change.insert =
        (allRows lib ctx draws tenant_id args).map Change.insert := rfl
  rw [hall, Tables.applyAll_inserts] at hrun
  exact hrun

/-- A refused row fails the call at the flush of the person or at the flush of the rows after it. -/
theorem run_create_of_not_accepts (hctx : ctx.tenant_id = some tenant_id) (hkeys : t.keys.Nodup)
    (hask : Askable t tenant_id args.query) (hnone : NoneActive t tenant_id args)
    (hacc : ¬ t.AcceptsAll (allRows lib ctx draws tenant_id args)) :
    ∃ e cs', e.ofServer = true ∧ runTx () (create lib ctx draws tenant_id args)
      (during t () [] []) = (.error e, during t () cs' []) := by
  have hmatch := run_deterministicMatch_during (i := ()) [] hkeys [] tenant_id hask
  have hdup : isDuplicate ((t.applyAll []).matchIn tenant_id args.query) = false :=
    isDuplicate_matchIn.mpr hnone
  unfold create
  by_cases hperson : t.Admits (.person (personRow lib draws tenant_id args))
  · have hcreate : runTx () (PersonRepository.create lib tenant_id draws.person_uuid args.person)
        (during t () [] []) = (.ok (personRow lib draws tenant_id args),
          during t () ([] ++ ([] ++ [Row.person (personRow lib draws tenant_id args)]).map .insert)
            (PersonRepository.variantRows lib tenant_id draws.person_uuid
              args.person.name_variants)) :=
      PersonRepository.run_create lib t () [] [] tenant_id draws.person_uuid args.person
        ⟨hperson, trivial⟩
    have hrows : ¬ (t.applyAll ([] ++ ([] ++ [Row.person (personRow lib draws tenant_id args)]).map
        .insert)).AcceptsAll (createdRows lib ctx draws tenant_id args) :=
      fun hrows => hacc ⟨hperson, hrows⟩
    obtain ⟨e, cs', hserver, hflush⟩ := run_flush_of_not_accepts t () _ _ hrows
    refine ⟨e, cs', hserver, ?_⟩
    rw [run_requiresTenant () hctx]
    simp only [runTx_bind, hmatch, hdup, Bool.false_eq_true, if_false, hcreate,
      personRow_person_uuid, run_addIdentifier, run_auditWrite, createdRows_eq, hflush]
  · have hfirst : ¬ (t.applyAll []).AcceptsAll
        ([] ++ [Row.person (args.person.row lib tenant_id draws.person_uuid)]) :=
      fun h => hperson h.1
    obtain ⟨e, cs', hserver, hcreate⟩ := PersonRepository.run_create_of_not_accepts lib t () [] []
      tenant_id draws.person_uuid args.person hfirst
    refine ⟨e, cs', hserver, ?_⟩
    rw [run_requiresTenant () hctx]
    simp only [runTx_bind, hmatch, hdup, Bool.false_eq_true, if_false, hcreate]

theorem run_create_found (lib : Libraries) (draws : Draws) (hctx : ctx.tenant_id = some tenant_id)
    (hkeys : t.keys.Nodup) (hask : Askable t tenant_id args.query)
    (hfound : ¬ NoneActive t tenant_id args) :
    runTx () (create lib ctx draws tenant_id args) (during t () [] []) =
      (.error (.possibleDuplicateError (t.matchIn tenant_id args.query)), during t () [] []) := by
  have hdup : isDuplicate (t.matchIn tenant_id args.query) = true := by
    rw [← Bool.not_eq_false, isDuplicate_matchIn]
    exact hfound
  exact run_create_duplicate t () [] [] hctx hkeys hask rfl hdup

theorem transact_create_of_accepts (hctx : ctx.tenant_id = some tenant_id) (hkeys : t.keys.Nodup)
    (hask : Askable t tenant_id args.query) (hnone : NoneActive t tenant_id args)
    (hacc : t.AcceptsAll (allRows lib ctx draws tenant_id args)) :
    transact ctx (create lib ctx draws tenant_id args) t =
      (.ok (loaded (t.insertAll (allRows lib ctx draws tenant_id args))
          (personRow lib draws tenant_id args)),
        t.insertAll (allRows lib ctx draws tenant_id args)) := by
  rw [transact_of_accepts hctx (run_create_of_accepts hctx hkeys hask hnone hacc) trivial,
    List.map_nil, List.append_nil, Tables.applyAll_inserts]

end PersonService
end Hawiya
