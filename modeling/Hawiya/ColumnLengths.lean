import Hawiya.DecisionRecords
import Hawiya.FieldCleaning
import Hawiya.PhoneticKeys
import Hawiya.Requests
import Hawiya.StorableRows
import Hawiya.Tenancy

/-!
# Column lengths

The requests whose rows fit the declared lengths of the string columns. The rows of a
request are the rows its endpoint adds to the session, whatever the OCR adapter reads and the
registry replies. Lengths are counted in characters on both sides.
-/

namespace Hawiya
open PyString Calendar Interaction Db

/-- What an operation puts into a row fits. -/
def DbOp.Fits : DbOp → Prop
  | .add r => r.Fits
  | .updateExtraction _ _ _ match_action => match_action.length ≤ 32
  | _ => True

def personSummaryNameLimit : ℕ := 255

/-- A body that `PersonCreateRequest` accepts. -/
structure PersonCreateRequest where
  body : PersonService.Args
  canonical_name_ar : ∀ s ∈ body.canonical_name_ar, s.length ≤ personSummaryNameLimit
  canonical_name_en : ∀ s ∈ body.canonical_name_en, s.length ≤ personSummaryNameLimit
  nationality : ∀ s ∈ body.nationality, s.length = 3
  passport_number : ∀ s ∈ body.passport_number, s.length ≤ 64
  emirates_id : ∀ s ∈ body.emirates_id, s.length ≤ 64
  issuing_country : ∀ s ∈ body.issuing_country, s.length = 3

/-- The context `TenancyMiddleware` binds. -/
def TenancyMiddleware.context (tenant_id : UUID) (fresh : Str) (headers : Headers) :
    RequestContext where
  tenant_id := some tenant_id
  request_id := some (requestId fresh headers)

/-- What the endpoints that write accept. -/
inductive Admitted where
  | extract (upload : Upload)
  | resolve (upload : Upload) (create_if_missing : Bool)
  | create (request : PersonCreateRequest)

def Admitted.endpoint (lib : Libraries) (ctx : RequestContext) (draws : Draws) :
    Admitted → Tx ApiResponse
  | .extract upload => extractDocument lib ctx draws upload
  | .resolve upload create_if_missing => resolveIdentity lib ctx draws upload create_if_missing
  | .create request => createPerson lib ctx draws request.body

/-- Whatever the OCR adapter reads and the registry replies, every string put into a row fits. -/
def Admitted.FitsColumns (lib : Libraries) (ctx : RequestContext) (s : Admitted) : Prop :=
  ∀ draws, (s.endpoint lib ctx draws).Only DbOp.Fits

/-- The upload is refused before its contents are read. -/
def Upload.Refused (lib : Libraries) (upload : Upload) : Prop :=
  upload.payload = [] ∨ upload.payload.length > maxPayloadBytes ∨
    ∀ document_type, DocumentClassifier.classify lib.unicode.isprintable upload.payload
      upload.contentType ≠ .ok document_type

/-- The length of a name in its NFC form, without diacritics and with its whitespace collapsed. -/
def canonicalLength (lib : Libraries) (name : Str) : ℕ :=
  collapsedLength (ArabicNames.stripDiacritics (lib.unicode.nfc name))

/-- The X-Request-ID header is empty, absent or short. -/
def ShortRequestId (headers : Headers) : Prop :=
  ∀ s ∈ nonEmpty (headersGet headers (bytes "x-request-id")), s.length ≤ 64

def Admitted.Short (lib : Libraries) (headers : Headers) : Admitted → Prop
  | .extract upload => upload.Refused lib ∨
      ShortRequestId headers ∧ ∀ s ∈ upload.consumer_request_id, s.length ≤ 128
  | .resolve upload _ => upload.Refused lib ∨
      ShortRequestId headers ∧ ∀ s ∈ upload.consumer_request_id, s.length ≤ 128
  | .create request => ShortRequestId headers ∧
      ∀ s ∈ orNone request.body.canonical_name_ar, canonicalLength lib s ≤ 255

section Services
variable {lib : Libraries} {ctx : RequestContext} {draws : Draws} {tenant_id : UUID}

theorem fits_add {r : Row} (h : r.Fits) : (Session.add r).Only DbOp.Fits := Program.only_perform h

theorem fits_flush : Session.flush.Only DbOp.Fits :=
  Program.only_bind (Program.only_perform trivial)
    (fun _ => Program.only_forM (fun _ _ => Program.only_perform trivial))

theorem fits_requiresTenant {α : Type} {tx : Tx α} (h : tx.Only DbOp.Fits) :
    (requiresTenant ctx tenant_id tx).Only DbOp.Fits := by
  refine Program.only_bind Program.only_ofExcept (fun tenant => ?_)
  by_cases hne : tenant_id ≠ tenant
  · rw [if_pos hne]
    exact trivial
  · rw [if_neg hne]
    exact h

theorem fits_scalarOneOrNone {α : Type} (l : List α) : (scalarOneOrNone l).Only DbOp.Fits := by
  match l with
  | [] => trivial
  | [a] => trivial
  | _ :: _ :: _ => trivial

theorem fits_deterministicMatch (q : DeterministicMatcher.Query) :
    (DeterministicMatcher.deterministicMatch tenant_id q).Only DbOp.Fits := by
  have hfind : ∀ identifier_type value, (PersonIdentifierRepository.findActive tenant_id
      identifier_type value).Only DbOp.Fits := fun _ _ =>
    Program.only_bind (Program.only_perform trivial) fits_scalarOneOrNone
  have hget : ∀ person_uuid, (PersonRepository.get tenant_id person_uuid).Only DbOp.Fits :=
    fun _ => Program.only_bind (Program.only_perform trivial) fits_scalarOneOrNone
  have hemirates : (DeterministicMatcher.matchEmiratesId tenant_id q).Only DbOp.Fits := by
    unfold DeterministicMatcher.matchEmiratesId
    cases orNone q.emirates_id with
    | none => trivial
    | some value => exact Program.only_bind (hfind _ _) (fun _ => trivial)
  have hpassport : (DeterministicMatcher.matchPassport tenant_id q).Only DbOp.Fits := by
    unfold DeterministicMatcher.matchPassport
    cases orNone q.passport_number with
    | none => trivial
    | some value =>
      refine Program.only_bind (hfind _ _) (fun ident => ?_)
      cases ident with
      | none => trivial
      | some ident => exact Program.only_bind (hget _) (fun _ => trivial)
  refine Program.only_bind hemirates (fun byEmiratesId => ?_)
  cases byEmiratesId with
  | some result => trivial
  | none => exact Program.only_bind hpassport (fun _ => trivial)

theorem fits_audit {args : AuditWriter.Args} (h : args.Fits) {request_id : Str}
    (hctx : ctx.request_id = some request_id) (hrequest : request_id.length ≤ 64) :
    (AuditWriter.write ctx tenant_id args).Only DbOp.Fits := by
  refine fits_add (h.row (fun s hs => ?_))
  rw [hctx] at hs
  rwa [← Option.some.inj (orNone_eq_some_iff.mp hs).1]

theorem isspace_canonicalChar (c : Char) :
    isspace (ArabicNames.canonicalChar c) = isspace c := by
  by_cases hspace : isspace c = true
  · rw [(ArabicNames.canonical_of_isspace hspace).2]
  · by_cases hsame : ArabicNames.canonicalChar c = c
    · rw [hsame]
    · have hletter : ∀ d ∈ ['\u0627', '\u064a', '\u0648'], isspace d = false := forall_of_all rfl
      have hmem : ArabicNames.canonicalChar c ∈ ['\u0627', '\u064a', '\u0648'] := by
        unfold ArabicNames.canonicalChar ArabicNames.hamzaTrans ArabicNames.yaaTrans
          ArabicNames.alefTrans at hsame ⊢
        split_ifs at hsame ⊢ <;> simp_all
      rw [hletter _ hmem, Bool.eq_false_of_not_eq_true hspace]

theorem length_toCanonical (lib : Libraries) {name : Str} (h : name ≠ []) :
    (ArabicNames.toCanonical lib.unicode name).length = canonicalLength lib name := by
  have hletters := ArabicNames.canonicalLetters_eq (lib.unicode.nfc name)
  unfold ArabicNames.canonicalLetters at hletters
  unfold ArabicNames.toCanonical canonicalLength
  rw [if_neg h, length_joinWith_splitWords, hletters, collapsedLength_map isspace_canonicalChar]
  rfl

theorem length_phoneticKey_le (u : ArabicNames.Unicode) (name : Str) :
    (ArabicNames.phoneticKey u name).length ≤ ArabicNames.phoneticKeyLength := by
  unfold ArabicNames.phoneticKey
  split_ifs
  · exact Nat.zero_le _
  · exact List.length_take_le _ _
  · exact List.length_take_le _ _

theorem fits_variant {spec : PersonRepository.VariantSpec} (h : spec.name_value.length ≤ 255)
    (person_uuid : UUID) : (spec.row lib tenant_id person_uuid).Fits where
  name_value := (length_strip_le _).trans h
  phonetic_key := by
    intro s hs
    rw [← Option.some.inj (mem_of_mem_orNone hs)]
    have hkey := length_phoneticKey_le lib.unicode spec.name_value
    exact hkey.trans (by decide)

theorem fits_personCreate {args : PersonRepository.Args} {person_uuid : UUID}
    (h : (args.row lib tenant_id person_uuid).Fits)
    (hvariants : ∀ spec ∈ args.name_variants, spec.name_value.length ≤ 255) :
    (PersonRepository.create lib tenant_id person_uuid args).Only DbOp.Fits := by
  refine Program.only_bind (fits_add h) (fun _ => Program.only_bind fits_flush (fun _ => ?_))
  refine Program.only_bind (Program.only_forM (fun spec hspec => ?_)) (fun _ => trivial)
  exact Program.only_bind
    (Program.only_bind (fits_add (fits_variant (hvariants spec hspec) _)) (fun _ => trivial))
    (fun _ => trivial)

theorem fits_identifier {args : PersonIdentifierRepository.Args}
    (h : (args.row tenant_id).Fits) :
    (PersonIdentifierRepository.create tenant_id args).Only DbOp.Fits :=
  Program.only_bind (fits_add h) (fun _ => trivial)

/-- The lengths of the fields that are cut out of two lines. -/
structure Fields.Fits (fields : Fields) : Prop where
  surname : ∀ s ∈ fields.surname, s.length ≤ 39
  given_names : ∀ s ∈ fields.given_names, s.length ≤ 39
  document_number : ∀ s ∈ fields.document_number, s.length ≤ 9
  nationality : ∀ s ∈ fields.nationality, s.length ≤ 3
  issuing_country : ∀ s ∈ fields.issuing_country, s.length ≤ 3

theorem length_parseName_le (field : Str) :
    (Mrz.parseName field).1.length ≤ field.length ∧
      (Mrz.parseName field).2.length ≤ field.length := by
  obtain ⟨hbefore, hafter⟩ := length_splitOnce_le ['<', '<'] field
  have hreplace : ∀ s : Str, (strip (replaceChar '<' ' ' s)).length ≤ s.length := by
    intro s
    refine (length_strip_le _).trans (le_of_eq ?_)
    exact List.length_map _
  constructor
  · exact (hreplace _).trans hbefore
  · unfold Mrz.parseName
    cases hrest : (splitOnce ['<', '<'] field).2 with
    | none => simp [hrest]
    | some rest =>
      simp only [hrest]
      exact (hreplace rest).trans (hafter rest hrest)

theorem length_stripOcrJunk_le (name : Str) : (stripOcrJunk name).length ≤ name.length := by
  unfold stripOcrJunk
  split_ifs
  · exact le_rfl
  · exact (length_beforeSpaceRun_le _).trans (length_strip_le name)

/-- What the parser accepts has fields of these lengths. -/
theorem fields_fit {today : Date} {line1 line2 : Str} {p : ParsedMRZ}
    (h : Mrz.parseTd3 today line1 line2 = .ok p) : (fieldsFromParsed p).Fits := by
  obtain ⟨h₁, h₂, rfl⟩ := Mrz.result_of_ok h
  have hname : (slice 5 44 line1).length = 39 := length_slice (by omega)
  have hrstrip : ∀ s : Str, (rstripChar '<' s).length ≤ s.length :=
    fun s => (List.rdropWhile_prefix _ s).length_le
  have hsome : ∀ {n : ℕ} {s : Str}, s.length ≤ n → ∀ t ∈ some s, t.length ≤ n := by
    intro n s hs t ht
    rwa [← Option.some.inj ht]
  exact
    { surname := hsome ((length_stripOcrJunk_le _).trans ((length_parseName_le _).1.trans hname.le))
      given_names :=
        hsome ((length_stripOcrJunk_le _).trans ((length_parseName_le _).2.trans hname.le))
      document_number := hsome ((hrstrip _).trans (length_slice (by omega)).le)
      nationality := hsome (length_slice (by omega)).le
      issuing_country := hsome (length_slice (by omega)).le }

theorem length_canonicalEn_le {fields : Fields} (h : fields.Fits) :
    ∀ s ∈ IdentityService.canonicalEn fields, s.length ≤ 79 := by
  intro s hs
  have hjoined := Option.some.inj (mem_of_mem_orNone hs)
  have hpart : ∀ {o : Option Str}, (∀ t ∈ o, t.length ≤ 39) → (strip (o.getD [])).length ≤ 39 := by
    intro o ho
    refine (length_strip_le _).trans ?_
    cases o with
    | none => exact Nat.zero_le _
    | some t => exact ho t rfl
  have hsurname := hpart h.surname
  have hgiven := hpart h.given_names
  rw [← hjoined, length_joinWith]
  have hparts := (List.filter_sublist (p := fun p : Str => !p.isEmpty)
    (l := [strip (fields.given_names.getD []), strip (fields.surname.getD [])]))
  have hsum := (hparts.map List.length).sum_le_sum (fun _ _ => Nat.zero_le _)
  have hcount := hparts.length_le
  simp only [List.map_cons, List.map_nil, List.sum_cons, List.sum_nil, List.length_cons,
    List.length_nil] at hsum hcount
  omega

theorem fits_createPersonFromExtraction {fields : Fields} (h : fields.Fits)
    (doc_number_confidence : ℚ) :
    (IdentityService.createPersonFromExtraction lib draws tenant_id fields
      doc_number_confidence).Only DbOp.Fits := by
  have hname := length_canonicalEn_le h
  have hperson : ((IdentityService.personArgs fields).row lib tenant_id draws.person_uuid).Fits :=
    { canonical_name_ar := fun s hs => nomatch hs
      canonical_name_en := by
        intro s hs
        obtain ⟨t, ht, rfl⟩ := Option.map_eq_some_iff.mp hs
        exact (length_strip_le t).trans ((hname t (mem_of_mem_orNone ht)).trans (by decide))
      nationality := fun s hs => h.nationality s (mem_of_mem_orNone hs) }
  refine Program.only_bind (fits_personCreate hperson (fun spec hspec => ?_)) (fun person => ?_)
  · obtain ⟨t, ht, rfl⟩ := List.mem_map.mp hspec
    exact (hname t (Option.mem_toList.mp ht)).trans (by decide)
  · cases hnumber : IdentityService.passportNumber fields with
    | none => exact trivial
    | some number =>
      have hnumber' := h.document_number number (mem_of_mem_orNone hnumber)
      refine Program.only_bind (fits_identifier ?_) (fun _ => trivial)
      exact
        { identifier_value := hnumber'.trans (by decide)
          issuing_country := fun s hs => h.issuing_country s (mem_of_mem_orNone hs)
          source := forall_mem_some (by decide) }

theorem fits_settle {extraction : ExtractionService.ExtractionResult} (h : extraction.fields.Fits)
    (m : MatchResult) (create_if_missing : Bool) :
    (IdentityService.settle lib draws tenant_id extraction m create_if_missing).Only DbOp.Fits := by
  unfold IdentityService.settle
  split_ifs
  · exact Program.only_bind (fits_createPersonFromExtraction h _) (fun _ => trivial)
  · trivial

/-- The person of an accepted body, if its canonical Arabic name fits. -/
theorem fits_requestedPerson {request : PersonCreateRequest} {person_uuid : UUID}
    (hname : ∀ s ∈ orNone request.body.canonical_name_ar, canonicalLength lib s ≤ 255) :
    (request.body.person.row lib tenant_id person_uuid).Fits where
  canonical_name_ar := by
    intro s hs
    obtain ⟨t, ht, rfl⟩ := Option.map_eq_some_iff.mp hs
    rw [length_toCanonical lib (orNone_eq_some_iff.mp ht).2]
    exact hname t ht
  canonical_name_en := by
    intro s hs
    obtain ⟨t, ht, rfl⟩ := Option.map_eq_some_iff.mp hs
    exact (length_strip_le t).trans (request.canonical_name_en t (mem_of_mem_orNone ht))
  nationality s hs := (request.nationality s hs).le

theorem length_requestedVariant_le (request : PersonCreateRequest) :
    ∀ spec ∈ request.body.person.name_variants, spec.name_value.length ≤ 255 := by
  intro spec hspec
  obtain ⟨t, ht, rfl⟩ := List.mem_map.mp hspec
  rcases List.mem_append.mp ht with ht | ht
  · exact request.canonical_name_ar t (mem_of_mem_orNone (Option.mem_toList.mp ht))
  · exact request.canonical_name_en t (mem_of_mem_orNone (Option.mem_toList.mp ht))

section Audited
variable (hsha : ∀ payload, (lib.sha256 payload).length = 64) {request_id : Str}
variable (hctx : ctx.request_id = some request_id) (hrequest : request_id.length ≤ 64)
include hsha

include hctx hrequest

theorem fits_recordDecision (payload : Bytes) (extraction : ExtractionService.ExtractionResult)
    (m : MatchResult) (person_uuid : Option UUID) (action : MatchAction) (confidence : ℚ) :
    (IdentityService.recordDecision lib ctx tenant_id payload extraction m person_uuid action
      confidence).Only DbOp.Fits := by
  have haction : action.value.length ≤ 32 := by
    cases action with
    | _ => decide
  have haudit : (IdentityService.resolvedAudit lib payload extraction person_uuid action
      confidence).Fits :=
    { endpoint := by
        have hendpoint : IdentityService.endpoint.length ≤ 255 := by decide
        exact hendpoint
      input_hash := ExtractionService.fits_hash hsha payload
      processing_path := by
        refine forall_mem_some ?_
        cases extraction.processing_path with
        | _ => decide
      decision := forall_mem_some (haction.trans (by decide))
      user_id := rfl }
  refine Program.only_bind (Program.only_perform haction) (fun _ => ?_)
  rw [IdentityService.actionToDecision_eq]
  exact Program.only_bind (fits_add trivial) (fun _ => fits_audit haudit hctx hrequest)

theorem fits_readMrz (payload : Bytes) :
    (ExtractionService.readMrz lib ctx draws tenant_id payload).Only DbOp.Fits := by
  unfold ExtractionService.readMrz
  cases draws.read_mrz with
  | ok lines => trivial
  | error e =>
    cases e with
    | noMRZFoundError m | ocrUnavailableError m | mrzFormatError m =>
      exact Program.only_bind (fits_audit (ExtractionService.fits_failedAudit hsha payload _) hctx
        hrequest) (fun _ => trivial)
    | _ => trivial

theorem fits_extract {consumer_request_id : Option Str}
    (hconsumer : ∀ s ∈ consumer_request_id, s.length ≤ 128) (payload : Bytes) (content_type : Str) :
    (ExtractionService.extract lib ctx draws tenant_id payload content_type
      consumer_request_id).Only DbOp.Fits := by
  refine fits_requiresTenant (Program.only_bind Program.only_ofExcept (fun document_type => ?_))
  refine Program.only_bind (fits_readMrz hsha hctx hrequest payload) (fun lines => ?_)
  refine Program.only_bind Program.only_ofExcept (fun parsed => ?_)
  have hrecord : (ExtractionService.record lib draws tenant_id payload consumer_request_id
      document_type parsed).Fits :=
    { consumer_request_id := hconsumer
      input_hash := (hsha payload).le
      match_action := fun s hs => nomatch hs }
  exact Program.only_bind (fits_add hrecord)
    (fun _ => Program.only_bind (fits_audit (ExtractionService.fits_extractedAudit hsha draws
      payload parsed) hctx hrequest) (fun _ => trivial))

theorem fits_resolve {consumer_request_id : Option Str}
    (hconsumer : ∀ s ∈ consumer_request_id, s.length ≤ 128) (payload : Bytes) (content_type : Str)
    (create_if_missing : Bool) :
    (IdentityService.resolve lib ctx draws tenant_id payload content_type consumer_request_id
      create_if_missing).Only DbOp.Fits := by
  refine fits_requiresTenant ?_
  refine (ExtractionService.adds_extract lib ctx draws tenant_id payload content_type
    consumer_request_id).only_bind
      (fits_extract hsha hctx hrequest hconsumer payload content_type)
      (fun extraction _ hextraction => ?_)
  obtain ⟨document_type, parsed, ⟨line1, line2, hparse⟩, rfl, -⟩ := hextraction
  refine Program.only_bind (fits_deterministicMatch _) (fun m => ?_)
  refine Program.only_bind (fits_settle (fields_fit hparse) m create_if_missing) (fun settled => ?_)
  exact Program.only_bind (fits_recordDecision hsha hctx hrequest payload _ m _ _ _)
    (fun _ => trivial)

omit hsha in
theorem fits_create {request : PersonCreateRequest}
    (hname : ∀ s ∈ orNone request.body.canonical_name_ar, canonicalLength lib s ≤ 255) :
    (PersonService.create lib ctx draws tenant_id request.body).Only DbOp.Fits := by
  have hsource : ∀ s ∈ some "api_create", s.length ≤ 64 := forall_mem_some (by decide)
  refine fits_requiresTenant (Program.only_bind (fits_deterministicMatch _) (fun m => ?_))
  by_cases hdup : PersonService.isDuplicate m = true
  · rw [if_pos hdup]
    trivial
  · rw [if_neg hdup]
    refine Program.only_bind (fits_personCreate (fits_requestedPerson hname)
      (length_requestedVariant_le request)) (fun person => ?_)
    refine Program.only_bind ?_ (fun _ => Program.only_bind ?_ (fun _ => ?_))
    · cases hnumber : orNone request.body.passport_number with
      | none => trivial
      | some number =>
        refine Program.only_bind (fits_identifier ?_) (fun _ => trivial)
        exact
          { identifier_value := request.passport_number number (mem_of_mem_orNone hnumber)
            issuing_country := fun s hs => (request.issuing_country s hs).le
            source := hsource }
    · cases hvalue : orNone request.body.emirates_id with
      | none => trivial
      | some value =>
        refine Program.only_bind (fits_identifier ?_) (fun _ => trivial)
        exact
          { identifier_value := request.emirates_id value (mem_of_mem_orNone hvalue)
            issuing_country := fun s hs => nomatch hs
            source := hsource }
    · refine Program.only_bind (fits_audit (PersonService.fits_createdAudit _) hctx hrequest)
        (fun _ => Program.only_bind fits_flush (fun _ => ?_))
      exact Program.only_bind (Program.only_perform trivial)
        (fun _ => Program.only_bind (Program.only_perform trivial) (fun _ => trivial))

end Audited

/-! ### What a fitting service call shows of its arguments -/

theorem length_of_audit {args : AuditWriter.Args} {request_id : Str}
    (hrequest : ctx.request_id = some request_id)
    (h : (AuditWriter.write ctx tenant_id args).Only DbOp.Fits) : request_id.length ≤ 64 := by
  have hrow : (args.row ctx tenant_id).Fits := h.1
  have hlength := hrow.request_id
  unfold AuditWriter.Args.row at hlength
  rw [hrequest] at hlength
  cases request_id with
  | nil => exact Nat.zero_le _
  | cons c cs => exact hlength

/-- A registry that holds nothing and accepts everything. -/
def permissive : (op : DbOp) → Unit → Except PyError op.Reply × Unit
  | .takePending, _ => (.ok [], ())
  | .selectIdentifiers .., _ => (.ok [], ())
  | .selectPersons .., _ => (.ok [], ())
  | .selectPersonIdentifiers .., _ => (.ok [], ())
  | .selectPersonNameVariants .., _ => (.ok [], ())
  | .add _, _ => (.ok (), ())
  | .insert _, _ => (.ok (), ())
  | .updateExtraction .., _ => (.ok (), ())
  | .commit, _ => (.ok (), ())
  | .rollback, _ => (.ok (), ())

theorem permissive_match (q : DeterministicMatcher.Query) :
    (DeterministicMatcher.deterministicMatch tenant_id q).run permissive () =
      (.ok (DeterministicMatcher.noMatchResult q), ()) := by
  unfold DeterministicMatcher.deterministicMatch DeterministicMatcher.matchEmiratesId
    DeterministicMatcher.matchPassport
  cases orNone q.emirates_id with
  | none => cases orNone q.passport_number <;> rfl
  | some _ => cases orNone q.passport_number <;> rfl

theorem permissive_create (args : PersonRepository.Args) (person_uuid : UUID) :
    (PersonRepository.create lib tenant_id person_uuid args).run permissive () =
      (.ok (args.row lib tenant_id person_uuid), ()) := by
  have hvariants : ∀ (u : UUID) (specs : List PersonRepository.VariantSpec),
      Program.run permissive (forM specs (fun spec => do
        let _ ← PersonRepository.addNameVariant lib tenant_id u spec)) () = (.ok (), ()) := by
    intro u specs
    induction specs with
    | nil => rfl
    | cons spec specs ih =>
      rw [List.forM_cons, Program.run_bind]
      exact ih
  refine (Program.run_bind permissive _ _ ()).trans ?_
  refine (Program.run_bind permissive _ _ ()).trans ?_
  refine (Program.run_bind permissive _ _ ()).trans ?_
  rw [hvariants]
  rfl

section Necessary
variable (hctx : ctx.tenant_id = some tenant_id) {request_id : Str}
variable (hrequest : ctx.request_id = some request_id)
include hctx

theorem only_of_requiresTenant {α : Type} {tx : Tx α}
    (h : (requiresTenant ctx tenant_id tx).Only DbOp.Fits) : tx.Only DbOp.Fits := by
  unfold requiresTenant requireTenantId at h
  rw [hctx] at h
  have htenant : ¬ tenant_id ≠ tenant_id := not_not_intro rfl
  have hrest := Program.only_of_bind permissive h (s := ()) rfl
  rwa [if_neg htenant] at hrest

include hrequest

/-- An adapter that finds no MRZ shows the request id, and one that reads a passport the other. -/
theorem short_of_extract {payload : Bytes} {content_type : Str} {consumer_request_id : Option Str}
    {document_type : DocumentType}
    (hclassify : DocumentClassifier.classify lib.unicode.isprintable payload content_type =
      .ok document_type)
    (h : ∀ draws, (ExtractionService.extract lib ctx draws tenant_id payload content_type
      consumer_request_id).Only DbOp.Fits) :
    request_id.length ≤ 64 ∧ ∀ s ∈ consumer_request_id, s.length ≤ 128 := by
  have hclassified : ∀ draws, ((ExtractionService.readMrz lib ctx draws tenant_id payload) >>=
      fun lines => (do
        let parsed ← Mrz.parseTd3 draws.today lines.1 lines.2
        Session.add (.extraction (ExtractionService.record lib draws tenant_id payload
          consumer_request_id document_type parsed))
        AuditWriter.write ctx tenant_id (ExtractionService.extractedAudit lib draws payload parsed)
        return ExtractionService.result draws document_type parsed)).Only DbOp.Fits := by
    intro draws
    have hbody := only_of_requiresTenant hctx (h draws)
    rw [hclassify] at hbody
    exact Program.only_of_bind permissive hbody (s := ()) rfl
  constructor
  · have hread := Program.only_of_handle (hclassified
      { Specimen.draws 0 0 with read_mrz := .error (.noMRZFoundError "") })
    exact length_of_audit hrequest (Program.only_of_handle hread)
  · have hread := Program.only_of_bind permissive (hclassified (Specimen.draws 0 0)) (s := ())
      (a := Specimen.lines) rfl
    rw [Specimen.parseTd3_lines] at hread
    have hadd := Program.only_of_bind permissive hread (s := ()) rfl
    exact (Program.only_of_handle hadd).1.consumer_request_id

/-- Where the registry holds nothing, a create call adds its person and its audit row. -/
theorem short_of_create {args : PersonService.Args}
    (h : ∀ draws, (PersonService.create lib ctx draws tenant_id args).Only DbOp.Fits) :
    request_id.length ≤ 64 ∧ ∀ s ∈ orNone args.canonical_name_ar, canonicalLength lib s ≤ 255 := by
  have hbody := only_of_requiresTenant hctx (h (Specimen.draws 0 0))
  have hnew := Program.only_of_bind _ hbody (permissive_match args.query)
  have hfree : PersonService.isDuplicate (DeterministicMatcher.noMatchResult args.query) = false :=
    rfl
  rw [hfree, if_neg Bool.false_ne_true] at hnew
  have hidentifier : ∀ a, (PersonService.addIdentifier tenant_id a).run permissive () =
      (.ok (), ()) := by
    intro a
    cases a with
    | _ => rfl
  constructor
  · have hidentified := Program.only_of_bind _ hnew (permissive_create args.person _)
    have hpassport := Program.only_of_bind _ hidentified (hidentifier _)
    have hemirates := Program.only_of_bind _ hpassport (hidentifier _)
    exact length_of_audit hrequest (Program.only_of_handle hemirates)
  · intro s hs
    have hperson : (args.person.row lib tenant_id (Specimen.draws 0 0).person_uuid).Fits :=
      (Program.only_of_handle (Program.only_of_handle hnew)).1
    rw [← length_toCanonical lib (orNone_eq_some_iff.mp hs).2]
    exact hperson.canonical_name_ar _ (Option.map_eq_some_iff.mpr ⟨s, hs, rfl⟩)

end Necessary

theorem bind_requireTenantId {α : Type} (hctx : ctx.tenant_id = some tenant_id) (f : UUID → Tx α) :
    (liftM (requireTenantId ctx) : Tx UUID) >>= f = f tenant_id := by
  unfold requireTenantId
  rw [hctx]
  rfl

theorem fits_answerExtractionError (e : PyError) :
    (answerExtractionError ctx e).Only DbOp.Fits := by
  unfold answerExtractionError
  cases extractionErrorResponse ctx e with
  | some response => trivial
  | none => trivial

theorem fits_answerDuplicate (e : PyError) : (answerDuplicate ctx e).Only DbOp.Fits := by
  cases e with
  | possibleDuplicateError found => trivial
  | _ => trivial

theorem fits_tryCatch {α : Type} {tx : Tx α} {handler : PyError → Tx α}
    (h : ∀ e, (handler e).Only DbOp.Fits) :
    (tryCatch tx handler).Only DbOp.Fits ↔ tx.Only DbOp.Fits := by
  rw [Program.tryCatch_def]
  refine ⟨Program.only_of_handle, fun htx => Program.only_handle htx (fun r => ?_)⟩
  cases r with
  | ok a => trivial
  | error e => exact h e

theorem fits_uploadEndpoint (hctx : ctx.tenant_id = some tenant_id) (payload : Bytes)
    (call : UUID → Tx ApiResponse) :
    (uploadEndpoint ctx payload call).Only DbOp.Fits ↔
      payload = [] ∨ payload.length > maxPayloadBytes ∨ (call tenant_id).Only DbOp.Fits := by
  unfold uploadEndpoint
  rw [bind_requireTenantId hctx]
  by_cases hempty : payload = []
  · rw [if_pos hempty]
    exact ⟨fun _ => .inl hempty, fun _ => trivial⟩
  · rw [if_neg hempty]
    by_cases hlarge : payload.length > maxPayloadBytes
    · rw [if_pos hlarge]
      exact ⟨fun _ => .inr (.inl hlarge), fun _ => trivial⟩
    · rw [if_neg hlarge, or_iff_right hempty, or_iff_right hlarge]
      exact fits_tryCatch fits_answerExtractionError

theorem fits_createPerson (hctx : ctx.tenant_id = some tenant_id) (body : PersonService.Args) :
    (createPerson lib ctx draws body).Only DbOp.Fits ↔
      (PersonService.create lib ctx draws tenant_id body).Only DbOp.Fits := by
  unfold createPerson
  rw [bind_requireTenantId hctx, fits_tryCatch fits_answerDuplicate]
  exact ⟨Program.only_of_handle, fun h => Program.only_bind h (fun _ => trivial)⟩

/-- An upload whose type is not recognised adds no row, whatever was to come. -/
theorem fits_unclassified {α : Type} {payload : Bytes} {content_type : Str}
    {consumer_request_id : Option Str}
    (h : ∀ document_type, DocumentClassifier.classify lib.unicode.isprintable payload content_type ≠
      .ok document_type) (k : ExtractionService.ExtractionResult → Tx α) :
    (ExtractionService.extract lib ctx draws tenant_id payload content_type consumer_request_id >>=
      k).Only DbOp.Fits := by
  have hraises : ∃ e, DocumentClassifier.classify lib.unicode.isprintable payload content_type =
      .error e := by
    cases hclassify : DocumentClassifier.classify lib.unicode.isprintable payload content_type with
    | ok document_type => exact absurd hclassify (h document_type)
    | error e => exact ⟨e, rfl⟩
  obtain ⟨e, he⟩ := hraises
  have hnever : AddsRows (ExtractionService.extract lib ctx draws tenant_id payload content_type
      consumer_request_id) (fun _ _ => False) := by
    refine adds_requiresTenant ctx tenant_id ?_
    rw [he]
    trivial
  refine hnever.only_bind (fits_requiresTenant ?_) (fun _ _ => False.elim)
  rw [he]
  trivial

/-- An upload endpoint whose call begins with the extraction. -/
theorem fits_upload_iff (hctx : ctx.tenant_id = some tenant_id) {request_id : Str}
    (hrequest : ctx.request_id = some request_id) (upload : Upload)
    {call : Draws → UUID → Tx ApiResponse}
    (hfits : request_id.length ≤ 64 → (∀ s ∈ upload.consumer_request_id, s.length ≤ 128) →
      ∀ draws, (call draws tenant_id).Only DbOp.Fits)
    (hunclassified : (∀ document_type, DocumentClassifier.classify lib.unicode.isprintable
      upload.payload upload.contentType ≠ .ok document_type) →
      ∀ draws, (call draws tenant_id).Only DbOp.Fits)
    (hextract : ∀ draws, (call draws tenant_id).Only DbOp.Fits →
      (ExtractionService.extract lib ctx draws tenant_id upload.payload upload.contentType
        upload.consumer_request_id).Only DbOp.Fits) :
    (∀ draws, (uploadEndpoint ctx upload.payload (call draws)).Only DbOp.Fits) ↔
      upload.Refused lib ∨
        (request_id.length ≤ 64 ∧ ∀ s ∈ upload.consumer_request_id, s.length ≤ 128) := by
  simp only [fits_uploadEndpoint hctx, Upload.Refused]
  constructor
  · intro h
    by_cases hempty : upload.payload = []
    · exact .inl (.inl hempty)
    by_cases hlarge : upload.payload.length > maxPayloadBytes
    · exact .inl (.inr (.inl hlarge))
    by_cases hclassify : ∀ document_type, DocumentClassifier.classify lib.unicode.isprintable
        upload.payload upload.contentType ≠ .ok document_type
    · exact .inl (.inr (.inr hclassify))
    · obtain ⟨document_type, htype⟩ := not_forall_not.mp hclassify
      refine .inr (short_of_extract hctx hrequest htype (fun draws => hextract draws ?_))
      exact ((h draws).resolve_left hempty).resolve_left hlarge
  · rintro ((hempty | hlarge | hclassify) | ⟨hlength, hconsumer⟩) draws
    · exact .inl hempty
    · exact .inr (.inl hlarge)
    · exact .inr (.inr (hunclassified hclassify draws))
    · exact .inr (.inr (hfits hlength hconsumer draws))

end Services

theorem shortRequestId_iff {fresh : Str} (hfresh : fresh.length = 36) (headers : Headers) :
    (TenancyMiddleware.requestId fresh headers).length ≤ 64 ↔ ShortRequestId headers := by
  unfold TenancyMiddleware.requestId ShortRequestId
  cases nonEmpty (headersGet headers (bytes "x-request-id")) with
  | none => simp [hfresh]
  | some s => simp

/-- Every string of an admitted request fits its column exactly if the request is short: its
X-Request-ID header has at most 64 characters, its consumer_request_id at most 128, and its Arabic
name, once composed, cleared of diacritics and collapsed, at most 255. An upload that is refused
before it is read adds no row. -/
theorem rows_fit_iff (lib : Libraries) (hsha : ∀ payload, (lib.sha256 payload).length = 64)
    {fresh : Str} (hfresh : fresh.length = 36) (tenant_id : UUID) (headers : Headers)
    (s : Admitted) :
    s.FitsColumns lib (TenancyMiddleware.context tenant_id fresh headers) ↔ s.Short lib headers := by
  have hctx : (TenancyMiddleware.context tenant_id fresh headers).tenant_id = some tenant_id := rfl
  have hrequest : (TenancyMiddleware.context tenant_id fresh headers).request_id =
      some (TenancyMiddleware.requestId fresh headers) := rfl
  cases s with
  | extract upload =>
    refine (fits_upload_iff hctx hrequest upload ?_ ?_ ?_).trans
      (or_congr_right (and_congr_left' (shortRequestId_iff hfresh headers)))
    · exact fun hlength hconsumer draws =>
        Program.only_bind (fits_extract hsha hrequest hlength hconsumer _ _) (fun _ => trivial)
    · exact fun hclassify draws => fits_unclassified hclassify _
    · exact fun draws => Program.only_of_handle
  | resolve upload create_if_missing =>
    refine (fits_upload_iff hctx hrequest upload ?_ ?_ ?_).trans
      (or_congr_right (and_congr_left' (shortRequestId_iff hfresh headers)))
    · exact fun hlength hconsumer draws =>
        Program.only_bind (fits_resolve hsha hrequest hlength hconsumer _ _ _) (fun _ => trivial)
    · exact fun hclassify draws => Program.only_bind
        (fits_requiresTenant (fits_unclassified hclassify _)) (fun _ => trivial)
    · exact fun draws h => Program.only_of_handle
        (only_of_requiresTenant hctx (Program.only_of_handle h))
  | create request =>
    have hcreate : Admitted.FitsColumns lib (TenancyMiddleware.context tenant_id fresh headers)
        (.create request) ↔ ∀ draws, (PersonService.create lib
          (TenancyMiddleware.context tenant_id fresh headers) draws tenant_id
          request.body).Only DbOp.Fits := forall_congr' (fun _ => fits_createPerson hctx request.body)
    rw [hcreate]
    constructor
    · intro h
      obtain ⟨hlength, hname⟩ := short_of_create hctx hrequest h
      exact ⟨(shortRequestId_iff hfresh headers).mp hlength, hname⟩
    · rintro ⟨hlength, hname⟩ draws
      exact fits_create hrequest ((shortRequestId_iff hfresh headers).mpr hlength) hname

namespace Specimen

def freshId : Str := "00000000-0000-4000-8000-000000000000".toList

def shortId : Headers := [(bytes "x-request-id", bytes "req-1")]

def longId : Headers := [(bytes "x-request-id", List.replicate 65 97)]

/-- A photo, sent with a form value of this length. -/
def form (n : ℕ) : Upload where
  payload := photo
  content_type := none
  consumer_request_id := some (List.replicate n 'a')

/-- Composition leaves the Devanagari letter qa in two characters. -/
def composing : Libraries where
  sha256 := lib.sha256
  unicode := { lib.unicode with
    nfc := fun s => s.flatMap (fun c => if c = '\u0958' then ['\u0915', '\u093c'] else [c]) }

def longestName : PersonCreateRequest where
  body := { canonical_name_ar := some (List.replicate 255 '\u0958') }
  canonical_name_ar := by
    intro s hs
    rw [← Option.some.inj hs, List.length_replicate]
    exact le_rfl
  canonical_name_en := fun s hs => nomatch hs
  nationality := fun s hs => nomatch hs
  passport_number := fun s hs => nomatch hs
  emirates_id := fun s hs => nomatch hs
  issuing_country := fun s hs => nomatch hs

end Specimen

theorem rows_fit_specimen : Admitted.FitsColumns Specimen.lib
    (TenancyMiddleware.context Specimen.tenant Specimen.freshId Specimen.shortId)
    (.resolve (Specimen.form 128) true) := by
  refine (rows_fit_iff Specimen.lib Sha256.length_hexdigest rfl Specimen.tenant Specimen.shortId
    (.resolve (Specimen.form 128) true)).mpr (.inr ⟨?_, ?_⟩)
  · have hheader : nonEmpty (headersGet Specimen.shortId (bytes "x-request-id")) =
        some "req-1".toList := by decide +kernel
    intro s hs
    rw [hheader] at hs
    rw [← Option.some.inj hs]
    decide
  · intro s hs
    rw [← Option.some.inj hs, List.length_replicate]

/-- A long X-Request-ID, a long form value and a name of the greatest length that grows when it is
composed are admitted, and put strings that are too long into rows. -/
theorem admitted_and_too_long :
    (¬ Admitted.FitsColumns Specimen.lib
      (TenancyMiddleware.context Specimen.tenant Specimen.freshId Specimen.longId)
      (.extract (Specimen.form 1))) ∧
    (¬ Admitted.FitsColumns Specimen.lib
      (TenancyMiddleware.context Specimen.tenant Specimen.freshId Specimen.shortId)
      (.resolve (Specimen.form 129) false)) ∧
    ¬ Admitted.FitsColumns Specimen.composing
      (TenancyMiddleware.context Specimen.tenant Specimen.freshId Specimen.shortId)
      (.create Specimen.longestName) := by
  have htype : DocumentClassifier.classify Specimen.lib.unicode.isprintable Specimen.photo
      octetStream = .ok .passport := by decide +kernel
  have hread : ∀ {ctx : RequestContext} (call : UUID → Tx ApiResponse),
      ctx.tenant_id = some Specimen.tenant →
      (uploadEndpoint ctx Specimen.photo call).Only DbOp.Fits →
      (call Specimen.tenant).Only DbOp.Fits := by
    intro ctx call hctx h
    have hcall := (fits_uploadEndpoint hctx Specimen.photo call).mp h
    exact (hcall.resolve_left (by decide)).resolve_left (by decide)
  refine ⟨fun h => ?_, fun h => ?_, fun h => ?_⟩
  · have hextract := fun draws => Program.only_of_handle (hread _ rfl (h draws))
    have hlength := (short_of_extract rfl rfl htype hextract).1
    exact absurd hlength (by decide +kernel)
  · have hextract := fun draws => Program.only_of_handle
      (only_of_requiresTenant rfl (Program.only_of_handle (hread _ rfl (h draws))))
    have hlength := (short_of_extract rfl rfl htype hextract).2 _ rfl
    rw [List.length_replicate] at hlength
    exact absurd hlength (by decide)
  · have hcreate := fun draws => (fits_createPerson rfl Specimen.longestName.body).mp (h draws)
    have hname := (short_of_create rfl rfl hcreate).2 _ rfl
    exact absurd hname (by decide +kernel)

end Hawiya
