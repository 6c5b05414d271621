import Hawiya.LockOrder

/-!
# The calls keep to the order

One rule for each function that writes; what only looks is shown to. A session closed around any of
the endpoints holds nothing when it ends.
-/

namespace Hawiya
open PyString Calendar Interaction

namespace Locks
variable {α : Type} {x : UUID} {extracting : Prop} {bound : ℕ} {k : Locks}
variable (lib : Libraries) {ctx : RequestContext} {draws : Draws} {tenant_id : UUID}

section Looking

theorem looks_scalarOneOrNone (l : List α) : (scalarOneOrNone l).Only DbOp.Looks := by
  rcases l with _ | ⟨a, _ | ⟨b, l⟩⟩
  · trivial
  · trivial
  · trivial

theorem looks_findActive (identifier_type : IdentifierType) (value : Str) :
    (PersonIdentifierRepository.findActive tenant_id identifier_type value).Only DbOp.Looks :=
  Program.only_bind (Program.only_perform trivial) looks_scalarOneOrNone

theorem looks_personGet (person_uuid : UUID) :
    (PersonRepository.get tenant_id person_uuid).Only DbOp.Looks :=
  Program.only_bind (Program.only_perform trivial) looks_scalarOneOrNone

open DeterministicMatcher in
theorem looks_deterministicMatch (q : Query) :
    (deterministicMatch tenant_id q).Only DbOp.Looks := by
  have hemirates : (matchEmiratesId tenant_id q).Only DbOp.Looks := by
    unfold matchEmiratesId
    cases orNone q.emirates_id with
    | none => trivial
    | some value => exact Program.only_bind (looks_findActive _ _) (fun _ => trivial)
  have hpassport : (matchPassport tenant_id q).Only DbOp.Looks := by
    unfold matchPassport
    cases orNone q.passport_number with
    | none => trivial
    | some value =>
      apply Program.only_bind (looks_findActive _ _)
      intro ident
      cases ident with
      | none => trivial
      | some ident => exact Program.only_bind (looks_personGet _) (fun _ => trivial)
  apply Program.only_bind hemirates
  intro byEmiratesId
  cases byEmiratesId with
  | some result => trivial
  | none => exact Program.only_bind hpassport (fun _ => trivial)

theorem looks_refresh (person : Person) : (PersonService.refresh person).Only DbOp.Looks :=
  Program.only_bind (Program.only_perform trivial)
    (fun _ => Program.only_bind (Program.only_perform trivial) (fun _ => trivial))

end Looking

theorem climbs_requiresTenant {tx : Tx α} {Q : α → Locks → Prop} (hk : k.Steady)
    (h : Climbs x tx k Q) : Climbs x (requiresTenant ctx tenant_id tx) k Q := by
  unfold requiresTenant
  apply Climbs.bind
  refine Climbs.liftM hk (fun ctx_tenant _ => ?_)
  by_cases htenant : tenant_id ≠ ctx_tenant
  · rw [if_pos htenant]
    exact hk
  · rw [if_neg htenant]
    exact h

/-- A row without keys. -/
theorem stands_keyless (h : Standing x extracting bound k) (hbound : bound ≤ 4) {r : Row}
    (hr : r.keys = []) :
    Climbs x (Session.add r) k (fun _ k' => Standing x extracting bound k') := by
  apply stands_add bound h le_rfl hbound
  intro key hkey
  rw [hr] at hkey
  cases hkey

theorem steady_keyless (h : k.Steady) {r : Row} (hr : r.keys = []) :
    Climbs x (Session.add r) k (fun _ k' => k'.Steady) := by
  have hsteady : Steady { k with pending := k.pending ++ [r] } := by
    refine Ascends.add h le_rfl (fun key hkey => ?_)
    rw [hr] at hkey
    cases hkey
  refine (climbs_add hsteady).mono (fun _ k' hk' => ?_)
  subst hk'
  exact hsteady

theorem stands_flush (h : Standing x extracting bound k) (hbound : bound ≤ 4) :
    Climbs x Session.flush k (fun _ k' => Standing x extracting bound k') := by
  have hled : extracting → k.inserted = true ∨ ∃ r ∈ k.pending, .extraction x ∈ r.keys := by
    intro he
    refine (h.led he).imp_right ?_
    rintro ⟨-, row, rest, hpending, hrow⟩
    refine ⟨.extraction row, by rw [hpending]; exact List.mem_cons_self, ?_⟩
    rw [← hrow]
    exact List.mem_singleton_self _
  refine (climbs_flush hbound h.ascends hled).mono (fun _ k' hk' => ⟨?_, ?_, fun he => ?_⟩)
  · rw [hk'.pending]
    exact hk'.ascends
  · exact hk'.linked.trans h.unlinked
  · rcases hk'.led he with hinserted | ⟨r, hr, -⟩
    · exact .inl hinserted
    · cases hr

theorem stands_personCreate (h : Standing x extracting 1 k) (person_uuid : UUID)
    (args : PersonRepository.Args) :
    Climbs x (PersonRepository.create lib tenant_id person_uuid args) k
      (fun _ k' => Standing x extracting 2 k') := by
  have hvariants : ∀ (u : UUID) (specs : List PersonRepository.VariantSpec) (k' : Locks),
      Standing x extracting 2 k' → Climbs x (forM specs (fun spec => do
        let _ ← PersonRepository.addNameVariant lib tenant_id u spec)) k'
        (fun _ k'' => Standing x extracting 2 k'') := by
    intro u specs
    induction specs with
    | nil => exact fun k' hk' => hk'
    | cons spec specs ih =>
      intro k' hk'
      rw [List.forM_cons]
      apply Climbs.bind
      apply Climbs.bind
      apply Climbs.bind
      exact (stands_keyless hk' (by omega) rfl).mono (fun _ k'' hk'' => ih k'' hk'')
  unfold PersonRepository.create
  apply Climbs.bind
  refine (stands_add 2 h (by omega) (by omega) ?_).mono (fun _ k₁ h₁ => ?_)
  · intro key hkey
    rw [List.mem_singleton.mp hkey]
    exact ⟨le_rfl, Nat.lt_succ_self 1⟩
  apply Climbs.bind
  refine (stands_flush h₁ (by omega)).mono (fun _ k₂ h₂ => ?_)
  apply Climbs.bind
  exact (hvariants _ _ k₂ h₂).mono (fun _ _ h₃ => h₃)

/-- The passport comes before the Emirates ID. -/
theorem stands_identifierCreate (h : Standing x extracting bound k)
    {args : PersonIdentifierRepository.Args}
    (hrank : ∀ value, IndexKey.rank (.activeIdentifier tenant_id args.identifier_type value) =
      bound) :
    Climbs x (PersonIdentifierRepository.create tenant_id args) k
      (fun _ k' => Standing x extracting (bound + 1) k') := by
  have hbound : bound ≤ 3 := by
    rw [← hrank []]
    exact IndexKey.rank_le _
  apply Climbs.bind
  refine (stands_add (bound + 1) h (by omega) (by omega) ?_).mono (fun _ _ h' => h')
  intro key hkey
  rw [List.mem_singleton.mp hkey]
  exact ⟨(hrank _).ge, (hrank _).trans_lt (Nat.lt_succ_self _)⟩

section Extraction
open ExtractionService

theorem climbs_readMrz (hk : k.Steady) (payload : Bytes) :
    Climbs x (readMrz lib ctx draws tenant_id payload) k (fun _ k' => k' = k) := by
  unfold readMrz
  cases draws.read_mrz with
  | ok lines => exact rfl
  | error e =>
    have haudited : Climbs x (do
        AuditWriter.write ctx tenant_id (failedAudit lib payload e)
        throw e) k (fun (_ : Str × Str) k' => k' = k) := by
      apply Climbs.bind
      exact (steady_keyless hk rfl).mono (fun _ _ hk' => hk')
    cases e with
    | noMRZFoundError m => exact haudited
    | ocrUnavailableError m => exact haudited
    | mrzFormatError m => exact haudited
    | _ => exact hk

/-- The extraction is the first row of its session. -/
theorem stands_extract (h : Standing draws.extraction_id False 0 k) (hpending : k.pending = [])
    (payload : Bytes) (content_type : Str) (consumer_request_id : Option Str) :
    Climbs draws.extraction_id
      (extract lib ctx draws tenant_id payload content_type consumer_request_id) k
      (fun result k' => result.extraction_id = draws.extraction_id ∧
        Standing draws.extraction_id True 1 k') := by
  have hk : k.Steady := h.steady (by omega)
  have hlevel : k.level = 0 := Nat.le_zero.mp h.ascends.level_le
  apply climbs_requiresTenant hk
  apply Climbs.bind
  refine Climbs.liftM hk (fun document_type _ => ?_)
  apply Climbs.bind
  refine (climbs_readMrz lib hk payload).mono (fun lines k₁ hk₁ => ?_)
  subst hk₁
  apply Climbs.bind
  refine Climbs.liftM hk (fun parsed _ => ?_)
  apply Climbs.bind
  have hascends : Ascends 1 k₁.level (k₁.pending ++ [.extraction
      (record lib draws tenant_id payload consumer_request_id document_type parsed)]) := by
    refine h.ascends.add (by omega) (fun key hkey => ?_)
    rw [List.mem_singleton.mp hkey]
    exact ⟨le_rfl, Nat.lt_succ_self 0⟩
  refine (climbs_add (hascends.mono (by omega))).mono (fun _ k₂ hk₂ => ?_)
  subst hk₂
  have hstanding : Standing draws.extraction_id True 1 { k₁ with
      pending := k₁.pending ++ [.extraction
        (record lib draws tenant_id payload consumer_request_id document_type parsed)] } := by
    have hfirst : k₁.pending ++ [.extraction
        (record lib draws tenant_id payload consumer_request_id document_type parsed)] =
        [.extraction
          (record lib draws tenant_id payload consumer_request_id document_type parsed)] := by
      rw [hpending, List.nil_append]
    exact ⟨hascends, h.unlinked, fun _ => .inr ⟨hlevel, _, [], hfirst, rfl⟩⟩
  apply Climbs.bind
  refine (stands_keyless hstanding (by omega) rfl).mono (fun _ k₃ h₃ => ?_)
  exact Climbs.pure ⟨rfl, h₃⟩

end Extraction

section Resolving
open IdentityService

theorem stands_settle (h : Standing x extracting 1 k)
    (extraction : ExtractionService.ExtractionResult) (match_result : MatchResult)
    (create_if_missing : Bool) :
    Climbs x (settle lib draws tenant_id extraction match_result create_if_missing) k
      (fun _ k' => Standing x extracting 3 k') := by
  unfold settle
  split_ifs
  · apply Climbs.bind
    apply Climbs.bind
    refine (stands_personCreate lib h _ _).mono (fun person k₁ h₁ => ?_)
    cases passportNumber extraction.fields with
    | none => exact h₁.mono (by omega)
    | some passport_number =>
      apply Climbs.bind
      exact (stands_identifierCreate h₁ (fun _ => rfl)).mono (fun _ _ h₂ => h₂)
  · exact h.mono (by omega)

theorem climbs_recordDecision (h : Standing x True 3 k) (payload : Bytes)
    {extraction : ExtractionService.ExtractionResult} (hextraction : extraction.extraction_id = x)
    (match_result : MatchResult) (person_uuid : Option UUID) (action : MatchAction)
    (confidence : ℚ) :
    Climbs x (recordDecision lib ctx tenant_id payload extraction match_result person_uuid action
      confidence) k (fun _ k' => k'.Steady) := by
  have hsteady : Steady { k with linked := true } := h.steady (by omega)
  apply Climbs.bind
  have hmay : k.mayTake x (.updateExtraction extraction.extraction_id tenant_id person_uuid
      action.value) :=
    ⟨hextraction, h.unlinked, (h.led trivial).imp_right And.left⟩
  refine Climbs.execute _ hmay (fun reply _ => ?_)
  cases reply with
  | error e => exact hsteady
  | ok a =>
    have haudited : ∀ k' : Locks, k'.Steady → Climbs x (AuditWriter.write ctx tenant_id
        (resolvedAudit lib payload extraction person_uuid action confidence)) k'
        (fun _ k'' => k''.Steady) :=
      fun _ hk' => steady_keyless hk' rfl
    cases actionToDecision action with
    | none => exact haudited _ hsteady
    | some decision =>
      apply Climbs.bind
      exact (steady_keyless hsteady rfl).mono (fun _ k' hk' => haudited k' hk')

theorem climbs_resolve (h : Standing draws.extraction_id False 0 k) (hpending : k.pending = [])
    (payload : Bytes) (content_type : Str) (consumer_request_id : Option Str)
    (create_if_missing : Bool) :
    Climbs draws.extraction_id (resolve lib ctx draws tenant_id payload content_type
      consumer_request_id create_if_missing) k (fun _ k' => k'.Steady) := by
  apply climbs_requiresTenant (h.steady (by omega))
  apply Climbs.bind
  refine (stands_extract lib h hpending payload content_type consumer_request_id).mono
    (fun extraction k₁ h₁ => ?_)
  obtain ⟨hextraction, h₁⟩ := h₁
  apply Climbs.bind
  refine (Climbs.of_looks (looks_deterministicMatch _) (h₁.steady (by omega))).mono
    (fun match_result k₂ hk₂ => ?_)
  subst hk₂
  apply Climbs.bind
  refine (stands_settle lib h₁ extraction match_result create_if_missing).mono
    (fun settled k₃ h₃ => ?_)
  obtain ⟨person_uuid, action, confidence⟩ := settled
  apply Climbs.bind
  exact (climbs_recordDecision lib h₃ payload hextraction match_result person_uuid action
    confidence).mono (fun _ _ hk₄ => hk₄)

end Resolving

section Persons
open PersonService

theorem stands_addIdentifier (h : Standing x extracting bound k)
    {args : Option PersonIdentifierRepository.Args}
    (hargs : ∀ a ∈ args, ∀ value,
      IndexKey.rank (.activeIdentifier tenant_id a.identifier_type value) = bound) :
    Climbs x (addIdentifier tenant_id args) k
      (fun _ k' => Standing x extracting (bound + 1) k') := by
  cases args with
  | none => exact h.mono (by omega)
  | some args =>
    apply Climbs.bind
    exact (stands_identifierCreate h (hargs args rfl)).mono (fun _ _ h' => h')

theorem climbs_create (h : Standing x extracting 1 k) (args : Args) :
    Climbs x (create lib ctx draws tenant_id args) k (fun _ k' => k'.Steady) := by
  have hk : k.Steady := h.steady (by omega)
  apply climbs_requiresTenant hk
  apply Climbs.bind
  refine (Climbs.of_looks (looks_deterministicMatch _) hk).mono (fun match_result k₁ hk₁ => ?_)
  subst hk₁
  by_cases hduplicate : isDuplicate match_result = true
  · rw [if_pos hduplicate]
    exact hk
  rw [if_neg hduplicate]
  apply Climbs.bind
  refine (stands_personCreate lib h _ _).mono (fun person k₂ h₂ => ?_)
  have hpassport : ∀ a ∈ (orNone args.passport_number).map (args.passport person.person_uuid),
      ∀ value, IndexKey.rank (.activeIdentifier tenant_id a.identifier_type value) = 2 := by
    intro a ha value
    obtain ⟨n, -, rfl⟩ := Option.map_eq_some_iff.mp ha
    rfl
  have hemirates : ∀ a ∈ (orNone args.emirates_id).map (emiratesIdArgs person.person_uuid),
      ∀ value, IndexKey.rank (.activeIdentifier tenant_id a.identifier_type value) = 3 := by
    intro a ha value
    obtain ⟨n, -, rfl⟩ := Option.map_eq_some_iff.mp ha
    rfl
  apply Climbs.bind
  refine (stands_addIdentifier h₂ hpassport).mono (fun _ k₃ h₃ => ?_)
  apply Climbs.bind
  refine (stands_addIdentifier h₃ hemirates).mono (fun _ k₄ h₄ => ?_)
  apply Climbs.bind
  refine (stands_keyless h₄ le_rfl rfl).mono (fun _ k₅ h₅ => ?_)
  apply Climbs.bind
  refine (stands_flush h₅ le_rfl).mono (fun _ k₆ h₆ => ?_)
  refine (Climbs.of_looks (looks_refresh person) (h₆.steady le_rfl)).mono (fun _ k₇ hk₇ => ?_)
  subst hk₇
  exact h₆.steady le_rfl

end Persons

theorem climbs_uploadEndpoint (hk : k.Steady) {payload : Bytes} {call : UUID → Tx ApiResponse}
    (hcall : ∀ tenant_id, Climbs x (call tenant_id) k (fun _ k' => k'.Steady)) :
    Climbs x (uploadEndpoint ctx payload call) k (fun _ k' => k'.Steady) := by
  apply Climbs.bind
  refine Climbs.liftM hk (fun tenant_id _ => ?_)
  split_ifs
  · exact hk
  · exact hk
  · refine Climbs.tryCatch (hcall tenant_id) (fun e k' hk' => ?_)
    unfold answerExtractionError
    cases extractionErrorResponse ctx e with
    | none => exact hk'
    | some response => exact hk'

theorem climbs_createPerson (h : Standing x extracting 1 k) (body : PersonService.Args) :
    Climbs x (createPerson lib ctx draws body) k (fun _ k' => k'.Steady) := by
  apply Climbs.bind
  refine Climbs.liftM (h.steady (by omega)) (fun tenant_id _ => ?_)
  apply Climbs.tryCatch
  · apply Climbs.bind
    exact (climbs_create lib h body).mono (fun _ _ hk' => hk')
  · intro e k' hk'
    cases e with
    | _ => exact hk'

theorem only_requiresTenant {ok : DbOp → Prop} {tx : Tx α} (h : tx.Only ok) :
    (requiresTenant ctx tenant_id tx).Only ok := by
  apply Program.only_bind Program.only_ofExcept
  intro ctx_tenant
  by_cases htenant : tenant_id ≠ ctx_tenant
  · rw [if_pos htenant]
    trivial
  · rw [if_neg htenant]
    exact h

theorem looks_getPerson (person_uuid : UUID) : (getPerson ctx person_uuid).Only DbOp.Looks := by
  apply Program.only_bind Program.only_ofExcept
  intro tenant_id
  apply Program.only_bind (only_requiresTenant (looks_personGet person_uuid))
  intro person
  cases person with
  | none => trivial
  | some person => exact Program.only_bind (looks_refresh person) (fun _ => trivial)

/-- The order for what a session asks of the server. -/
def sessionOrder (x : UUID) : Protocol SessionOp SessionOp.Reply PyError Locks where
  may k
    | .statement op => (order x).may k op
    | _ => True
  learns k
    | .statement op, reply, k' => (order x).learns k op reply k'
    | _, _, k' => k' = k

theorem follows_statements {p : Tx α} {post : Except PyError α → Locks → Prop}
    (h : (order x).Follows p k post) :
    (sessionOrder x).Follows (SessionTx.statements p) k post := by
  induction p generalizing k with
  | pure a => exact h
  | throw e => exact h
  | call op next ih => exact ⟨h.1, fun r k' hk' => ih r (h.2 r k' hk')⟩

theorem follows_closeSession (hk : k.Steady) (r : Except PyError α) :
    (order x).Follows (closeSession r) k (fun _ k' => k'.Free) := by
  have hrollback : ∀ (e : PyError) (k' : Locks), (order x).Follows
      (do Session.rollback; throw e : Tx α) k' (fun _ k' => k'.Free) := by
    intro e k'
    refine .bind (.perform trivial (fun reply k'' hk'' => ?_))
    obtain ⟨-, rfl⟩ := hk''
    cases reply with
    | ok a => exact ⟨rfl, rfl⟩
    | error e => exact ⟨rfl, rfl⟩
  cases r with
  | error e => exact hrollback e k
  | ok a =>
    have hflush : Climbs x Session.flush k (fun _ k' => Flushing x False 4 k.linked [] k') :=
      climbs_flush le_rfl hk nofun
    refine .handle (.bind (Protocol.Follows.mono hflush (fun reply k₁ hk₁ => ?_)))
    cases reply with
    | error e => exact hrollback e k₁
    | ok u =>
      refine .perform trivial (fun reply k₂ hk₂ => ?_)
      obtain ⟨-, rfl⟩ := hk₂
      cases reply with
      | ok u => exact ⟨rfl, rfl⟩
      | error e => exact hrollback e _

theorem follows_getSession {body : SessionTx α} (hk : k.Steady)
    (h : (sessionOrder x).Follows body k (fun _ k' => k'.Steady)) :
    (sessionOrder x).Follows (SessionTx.getSession ctx body) k (fun _ k' => k'.Free) := by
  apply Protocol.Follows.handle
  have hbound : (sessionOrder x).Follows (SessionTx.setSessionTenant ctx) k
      (fun _ k' => k' = k) := by
    unfold SessionTx.setSessionTenant
    cases ctx.tenant_id with
    | none => exact rfl
    | some tenant_id => exact .perform trivial (fun _ _ hk' => hk')
  refine .bind (hbound.mono (fun reply k' hk' => ?_))
  subst hk'
  cases reply with
  | error e => exact follows_statements (follows_closeSession hk _)
  | ok u => exact h.mono (fun r k'' hk'' => follows_statements (follows_closeSession hk'' r))

theorem only_statements {ok : SessionOp → Prop} {p : Tx α}
    (h : p.Only (fun op => ok (.statement op))) : (SessionTx.statements p).Only ok := by
  induction p with
  | pure a => trivial
  | throw e => trivial
  | call op next ih => exact ⟨h.1, fun r => ih r (h.2 r)⟩

/-- A search sends one statement, and that only looks. -/
theorem follows_search (hk : k.Steady) (query : Str) (limit : ℕ) :
    (sessionOrder x).Follows (searchPersons ctx query limit) k (fun _ k' => k'.Steady) := by
  have honly : (searchPersons ctx query limit).Only
      (fun op => ∃ tenant_id q n, op = .selectByName tenant_id q n) := by
    apply Program.only_bind (only_statements Program.only_ofExcept)
    intro tenant_id
    have hsearch : (PersonRepository.searchByName tenant_id query limit).Only
        (fun op => ∃ tenant_id q n, op = .selectByName tenant_id q n) := by
      unfold PersonRepository.searchByName
      split_ifs
      · trivial
      · exact Program.only_perform ⟨_, _, _, rfl⟩
    refine Program.only_bind (Program.only_bind (only_statements ?_) (fun _ => hsearch))
      (fun _ => trivial)
    exact only_requiresTenant trivial
  refine (Protocol.Follows.of_still honly ?_).mono (fun r k' hk' => ?_)
  · rintro op ⟨tenant_id, q, n, rfl⟩
    exact ⟨trivial, fun _ _ hk' => hk'⟩
  · subst hk'
    exact hk

end Locks

/-- The extraction that a call draws; the others link none. -/
def ApiCall.extraction : ApiCall → UUID
  | .extract draws _ => draws.extraction_id
  | .resolve draws _ _ => draws.extraction_id
  | _ => 0

namespace Locks
variable (lib : Libraries) (ctx : RequestContext)

theorem stands_start (x : UUID) : Standing x False 0 {} := ⟨le_rfl, rfl, nofun⟩

theorem steady_start : Steady {} := Nat.zero_le 4

theorem follows_endpoint (call : ApiCall) :
    (sessionOrder call.extraction).Follows (call.endpoint lib ctx) {} (fun _ k' => k'.Steady) := by
  have hresponse : ∀ {β : Type} {x : UUID} {p : Tx β} (f : β → ApiAnswer),
      Climbs x p {} (fun _ k' => k'.Steady) → (sessionOrder x).Follows
        (do let r ← SessionTx.statements p; return f r : SessionTx ApiAnswer) {}
        (fun _ k' => k'.Steady) := by
    intro β x p f h
    refine .bind ((follows_statements h).mono (fun r k' hk' => ?_))
    cases r with
    | ok a => exact hk'
    | error e => exact hk'
  cases call with
  | extract draws upload =>
    apply hresponse
    apply climbs_uploadEndpoint steady_start
    intro tenant_id
    apply Climbs.bind
    exact (stands_extract lib (stands_start _) rfl _ _ _).mono
      (fun _ _ h => Climbs.pure (h.2.steady (by omega)))
  | resolve draws upload create_if_missing =>
    apply hresponse
    apply climbs_uploadEndpoint steady_start
    intro tenant_id
    apply Climbs.bind
    exact (climbs_resolve lib (stands_start _) rfl _ _ _ _).mono (fun _ _ hk' => Climbs.pure hk')
  | create draws body =>
    apply hresponse
    exact climbs_createPerson lib ((stands_start 0).mono (by omega)) body
  | get person_uuid =>
    apply hresponse
    refine (Climbs.of_looks (looks_getPerson person_uuid) steady_start).mono
      (fun _ k' hk' => ?_)
    subst hk'
    exact steady_start
  | search query limit =>
    refine .bind ((follows_search steady_start query limit).mono (fun r k' hk' => ?_))
    cases r with
    | ok rs => exact hk'
    | error e => exact hk'

/-- A session keeps to the order, and holds nothing when it ends. -/
theorem follows_session (call : ApiCall) :
    (sessionOrder call.extraction).Follows (call.session lib ctx) {} (fun _ k' => k'.Free) :=
  follows_getSession steady_start (follows_endpoint lib ctx call)

end Locks
end Hawiya
