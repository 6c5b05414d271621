import Hawiya.PlainSessions

/-!
# A search among other sessions

The list of a search is read by one statement. Persons that were committed when the session began
are still there then, and those it lists are there for good. Whatever the other sessions do, the
list is sorted and no longer than asked for, and a candidate that was there all the time is listed
unless the list is full of persons that score at least as high.
-/

namespace Hawiya
open PyString Interaction

namespace PersonRepository

/-- A list of candidates by descending score which leaves out no better one among `persons`. -/
structure Ranked (similarity : Str → Str → ℚ) (tenant_id : UUID) (q : Str) (limit : ℕ)
    (persons ps : List Person) : Prop where
  candidates : ∀ p ∈ ps, isCandidate similarity tenant_id q p = true
  sorted : ps.Pairwise (fun better p => score similarity q p ≤ score similarity q better)
  length : ps.length ≤ limit
  complete : ∀ p ∈ persons, isCandidate similarity tenant_id q p = true → p ∉ ps →
    ps.length = limit ∧ ∀ p' ∈ ps, score similarity q p ≤ score similarity q p'

theorem ranked_selectByName {similarity : Str → Str → ℚ} {tie : UUID → ℕ} {tenant_id : UUID}
    {q : Str} {limit : ℕ} {persons seen : List Person}
    (hseen : ∀ p ∈ persons, p.tenant_id = tenant_id → p ∈ seen) :
    Ranked similarity tenant_id q limit persons
      (selectByName similarity tie tenant_id q limit seen) where
  candidates _ hp := (mem_selectByName hp).2
  sorted := pairwise_selectByName
  length := length_selectByName_le
  complete p hp hcandidate hout :=
    selectByName_of_not_mem (hseen p hp (isCandidate_iff.mp hcandidate).1) hcandidate hout

end PersonRepository

namespace BoundDb
variable {ι : Type} {similarity : Str → Str → ℚ} {tenant : UUID} {i : ι}
variable {persons : List Person}

/-- What is known of a session that searches: whether it is bound, and whom it found. -/
structure Searcher where
  bound : Bool
  found : List Person

/-- Of session `i` it is asked that it binds itself to the tenant, searches there and closes, and
the others may do anything. -/
def searching (similarity : Str → Str → ℚ) (tenant : UUID) (persons : List Person) (i j : ι) :
    Protocol SessionOp SessionOp.Reply PyError Searcher where
  may k op := j = i → match op with
    | .setConfig tenant_id => tenant_id = tenant
    | .selectByName tenant_id .. => k.bound = true ∧ tenant_id = tenant
    | .statement op => op = .takePending ∨ op = .commit ∨ op = .rollback
  learns k op reply k' := j = i → match op, reply with
    | .setConfig _, .ok _ => k' = { k with bound := true }
    | .setConfig _, .error _ => k' = k
    | .selectByName _ q limit, .ok rows =>
        k' = { k with found := rows } ∧
          PersonRepository.Ranked similarity tenant q limit persons rows
    | .selectByName .., .error _ => k' = k
    | .statement .takePending, reply => k'.found = k.found ∧ reply = .ok []
    | .statement _, _ => k'.found = k.found

variable [DecidableEq ι] {s : BoundDb ι} {forced : Bool} {ks : ι → Searcher}

/-- The persons and those found are there, and session `i` has written nothing and is bound as
known. -/
structure Persisting (tenant : UUID) (persons : List Person) (i : ι) (ks : ι → Searcher)
    (s : BoundDb ι) : Prop where
  persons : ∀ p ∈ persons, p ∈ s.db.committed.persons
  found : ∀ p ∈ (ks i).found, p ∈ s.db.committed.persons
  setting : (ks i).bound = true → s.current_tenant i = some tenant
  idle : s.db.Idle i

theorem persons_exec (forced : Bool) (choice : Choice) (op : SessionOp) {p : Person}
    (hp : p ∈ s.db.committed.persons) :
    p ∈ (exec similarity forced i choice op s).2.db.committed.persons := by
  rcases committed_exec similarity s i forced choice op with hcommitted | hcommitted
  · rw [hcommitted]
    exact hp
  · rw [hcommitted]
    exact (Tables.mem_persons_applyAll _).mpr (.inl hp)

theorem setting_exec {j : ι} (hij : i ≠ j) (forced : Bool) (choice : Choice) (op : SessionOp) :
    (exec similarity forced j choice op s).2.current_tenant i = s.current_tenant i := by
  obtain ⟨outcome, tie⟩ := choice
  cases op with
  | statement op => exact setting_execStatement hij forced outcome op
  | selectByName tenant_id q limit => rw [exec_selectByName_state]
  | setConfig =>
    cases outcome with
    | accept => exact bind_setting_ne hij _
    | refuse => rfl

theorem idle_exec {j : ι} (hij : i ≠ j) (forced : Bool) (choice : Choice) (op : SessionOp)
    (h : s.db.Idle i) : (exec similarity forced j choice op s).2.db.Idle i := by
  obtain ⟨outcome, tie⟩ := choice
  cases op with
  | statement op =>
    rcases db_execStatement s j forced outcome op with hdb | hdb
    · exact (congrArg (fun db : Db ι => db.Idle i) hdb).mpr h
    · exact (congrArg (fun db : Db ι => db.Idle i) hdb).mpr (h.exec hij outcome op)
  | selectByName tenant_id q limit =>
    rw [exec_selectByName_state]
    exact h
  | setConfig =>
    cases outcome with
    | _ => exact h

theorem idle_closing (forced : Bool) (outcome : Outcome) {op : DbOp} (h : s.db.Idle i)
    (hop : op = .takePending ∨ op = .commit ∨ op = .rollback) :
    (execStatement forced i outcome op s).2.db.Idle i := by
  have hchanges : ∀ db : Db ι, (db.endTransaction i).changesOf i = [] := by
    intro db
    rw [Db.changesOf, Db.endTransaction, List.filter_filter]
    simp
  rcases hop with rfl | rfl | rfl
  · exact ⟨h.changes, Function.update_self _ _ _⟩
  · cases outcome with
    | accept => exact ⟨hchanges _, h.pending⟩
    | refuse => exact ⟨hchanges _, h.pending⟩
  · exact ⟨hchanges _, Function.update_self _ _ _⟩

theorem Persisting.ranked (h : Persisting tenant persons i ks s) (hbound : (ks i).bound = true)
    (tie : UUID → ℕ) (q : Str) (limit : ℕ) :
    PersonRepository.Ranked similarity tenant q limit persons
      (PersonRepository.selectByName similarity tie tenant q limit
        ((s.db.view i).persons.filter (fun p => s.admits forced i p.tenant_id))) := by
  apply PersonRepository.ranked_selectByName
  intro p hp htenant
  have hadmits : s.admits forced i p.tenant_id = true := by
    rw [htenant, admits, h.setting hbound, beq_self_eq_true, Bool.or_true]
  exact List.mem_filter.mpr
    ⟨(Tables.mem_persons_applyAll _).mpr (.inl (h.persons p hp)), hadmits⟩

theorem Persisting.committed_of_found (h : Persisting tenant persons i ks s) {tie : UUID → ℕ}
    {q : Str} {limit : ℕ} {visible : Person → Bool} {p : Person}
    (hp : p ∈ PersonRepository.selectByName similarity tie tenant q limit
      ((s.db.view i).persons.filter visible)) : p ∈ s.db.committed.persons := by
  have hview : p ∈ (s.db.view i).persons :=
    List.mem_of_mem_filter (PersonRepository.mem_selectByName hp).1
  rw [Db.view, h.idle.changes] at hview
  exact hview

theorem kept_searching :
    Protocol.Kept (environment similarity forced) (searching similarity tenant persons i)
      (Persisting tenant persons i) := by
  intro ks s j choice op h hmay _
  have hpersons : ∀ p ∈ persons,
      p ∈ (exec similarity forced j choice op s).2.db.committed.persons :=
    fun p hp => persons_exec forced choice op (h.persons p hp)
  have hfound : ∀ p ∈ (ks i).found,
      p ∈ (exec similarity forced j choice op s).2.db.committed.persons :=
    fun p hp => persons_exec forced choice op (h.found p hp)
  by_cases hji : j = i
  · subst hji
    have hsame : Function.update ks j (ks j) = ks := Function.update_eq_self j ks
    obtain ⟨outcome, tie⟩ := choice
    cases op with
    | statement op =>
      refine ⟨⟨false, (ks j).found⟩, fun _ => ?_, hpersons, ?_, ?_, ?_⟩
      · rcases hmay rfl with rfl | rfl | rfl
        · exact ⟨rfl, congrArg Except.ok h.idle.pending⟩
        · rfl
        · rfl
      · rw [Function.update_self]
        exact hfound
      · intro hbound
        rw [Function.update_self] at hbound
        cases hbound
      · exact idle_closing forced outcome h.idle (hmay rfl)
    | setConfig tenant_id =>
      obtain rfl := hmay rfl
      cases outcome with
      | accept =>
        refine ⟨{ ks j with bound := true }, fun _ => rfl, hpersons, ?_, ?_, h.idle⟩
        · rw [Function.update_self]
          exact hfound
        · exact fun _ => Function.update_self _ _ _
      | refuse =>
        refine ⟨ks j, fun _ => rfl, ?_⟩
        rw [hsame]
        exact h
    | selectByName tenant_id q limit =>
      obtain ⟨hbound, rfl⟩ := hmay rfl
      rcases exec_selectByName similarity forced j ⟨outcome, tie⟩ s tenant_id q limit with
        hexec | ⟨e, -, hexec⟩
      · simp only [environment, hexec]
        refine ⟨_, fun _ => ⟨rfl, h.ranked hbound tie q limit⟩, h.persons, ?_, ?_, h.idle⟩
        · rw [Function.update_self]
          exact fun p hp => h.committed_of_found hp
        · exact fun _ => h.setting hbound
      · simp only [environment, hexec]
        refine ⟨ks j, fun _ => rfl, ?_⟩
        rw [hsame]
        exact h
  · have hij : i ≠ j := Ne.symm hji
    refine ⟨ks j, fun heq => absurd heq hji, hpersons, ?_, ?_,
      idle_exec hij forced choice op h.idle⟩
    · rw [Function.update_eq_self]
      exact hfound
    · rw [Function.update_eq_self]
      exact fun hbound => (setting_exec hij forced choice op).trans (h.setting hbound)

/-- What a search of `query` may list. -/
structure Searched (similarity : Str → Str → ℚ) (tenant : UUID) (persons : List Person)
    (query : Str) (limit : ℕ) (ps : List Person) : Prop where
  blank : strip query = [] → ps = []
  ranked : strip query ≠ [] →
    PersonRepository.Ranked similarity tenant (strip query) limit persons ps

section Following
variable {α : Type} {k : Searcher} {ctx : RequestContext} {query : Str} {limit : ℕ}
variable {post : Except PyError α → Searcher → Prop}

omit [DecidableEq ι]

theorem follows_rollback {e : PyError} (herror : ∀ e k, post (.error e) k) :
    (searching similarity tenant persons i i).Follows
      (SessionTx.statements (do Session.rollback; throw e)) k post := by
  rw [SessionTx.statements_bind, Session.rollback, SessionTx.statements_execute]
  apply Protocol.Follows.bind
  refine Protocol.Follows.perform (fun _ => .inr (.inr rfl)) (fun r k' _ => ?_)
  cases r with
  | ok _ => exact herror e k'
  | error e => exact herror e k'

/-- Nothing was added, so there is nothing to flush. -/
theorem follows_flush :
    (searching similarity tenant persons i i).Follows (SessionTx.statements Session.flush) k
      (fun _ k' => k'.found = k.found) := by
  rw [Session.flush, SessionTx.statements_bind, Session.takePending, SessionTx.statements_execute]
  apply Protocol.Follows.bind
  refine Protocol.Follows.perform (fun _ => .inl rfl) (fun r k' hlearns => ?_)
  obtain ⟨hfound, rfl⟩ := hlearns rfl
  exact hfound

theorem follows_closeSession (r : Except PyError α)
    (hvalue : ∀ a k', r = .ok a → k'.found = k.found → post (.ok a) k')
    (herror : ∀ e k', post (.error e) k') :
    (searching similarity tenant persons i i).Follows (SessionTx.statements (closeSession r)) k
      post := by
  cases r with
  | error e => exact follows_rollback herror
  | ok a =>
    rw [closeSession, SessionTx.statements_handle, SessionTx.statements_bind, Session.commit,
      SessionTx.statements_execute]
    apply Protocol.Follows.handle
    apply Protocol.Follows.bind
    refine follows_flush.mono (fun r k' hflushed => ?_)
    cases r with
    | error e => exact follows_rollback herror
    | ok _ =>
      refine Protocol.Follows.perform (fun _ => .inr (.inl rfl)) (fun r k'' hlearns => ?_)
      have hfound : k''.found = k'.found := hlearns rfl
      cases r with
      | ok _ => exact hvalue a k'' rfl (hfound.trans hflushed)
      | error e => exact follows_rollback herror

theorem follows_searchByName (hbound : k.bound = true) :
    (searching similarity tenant persons i i).Follows
      (PersonRepository.searchByName tenant query limit) k
      (fun r k' => ∀ ps, r = .ok ps →
        Searched similarity tenant persons query limit ps ∧ ∀ p ∈ ps, p ∈ k'.found) := by
  unfold PersonRepository.searchByName
  split_ifs with hblank
  · have hstrip : strip query = [] := by
      rcases hblank with rfl | hstrip
      · exact strip_eq_nil_iff.mpr (fun _ hc => absurd hc List.not_mem_nil)
      · exact hstrip
    intro ps hps
    cases hps
    exact ⟨⟨fun _ => rfl, fun hne => absurd hstrip hne⟩, fun _ hp => absurd hp List.not_mem_nil⟩
  · refine Protocol.Follows.perform (fun _ => ⟨hbound, rfl⟩) (fun r k' hlearns ps hps => ?_)
    subst hps
    obtain ⟨rfl, hranked⟩ := hlearns rfl
    have hstrip : strip query ≠ [] := fun heq => hblank (.inr heq)
    exact ⟨⟨fun heq => absurd heq hstrip, fun _ => hranked⟩, fun _ hp => hp⟩

/-- The candidates of the answer were found. -/
def Lists (similarity : Str → Str → ℚ) (tenant : UUID) (persons : List Person) (query : Str)
    (limit : ℕ) (a : ApiAnswer) (k : Searcher) : Prop :=
  ∃ ps : List Person, a = .candidates (ps.map toSummary) ∧
    Searched similarity tenant persons query limit ps ∧ ∀ p ∈ ps, p ∈ k.found

theorem follows_searchPersons (hctx : ctx.tenant_id = some tenant) (hbound : k.bound = true) :
    (searching similarity tenant persons i i).Follows (searchPersons ctx query limit) k
      (fun r k' => ∀ rs, r = .ok rs →
        Lists similarity tenant persons query limit (.candidates rs) k') := by
  rw [searchPersons, requireTenantId, hctx]
  change (searching similarity tenant persons i i).Follows
    (PersonService.search ctx tenant query limit >>= _) k _
  rw [PersonService.search, SessionTx.requiresTenant, Account.requiresTenant_eq hctx]
  apply Protocol.Follows.bind
  refine (follows_searchByName hbound).mono (fun r k' hr => ?_)
  cases r with
  | error e => exact fun _ heq => by cases heq
  | ok ps =>
    intro rs hrs
    cases hrs
    exact ⟨ps, rfl, hr ps rfl⟩

theorem follows_search (lib : Libraries) (hctx : ctx.tenant_id = some tenant) :
    (searching similarity tenant persons i i).Follows
      ((ApiCall.search query limit).session lib ctx) k
      (fun r k' => ∀ a, r = .ok a → Lists similarity tenant persons query limit a k') := by
  have herror : ∀ (e : PyError) (k' : Searcher) (a : ApiAnswer), Except.error e = .ok a →
      Lists similarity tenant persons query limit a k' := fun _ _ _ heq => by cases heq
  rw [ApiCall.session, SessionTx.getSession, SessionTx.setSessionTenant, hctx]
  apply Protocol.Follows.handle
  apply Protocol.Follows.bind
  refine Protocol.Follows.perform (fun _ => rfl) (fun r k' hlearns => ?_)
  cases r with
  | error e => exact follows_rollback herror
  | ok _ =>
    obtain rfl : k' = { k with bound := true } := hlearns rfl
    apply Protocol.Follows.bind
    refine (follows_searchPersons hctx rfl).mono (fun r k' hr => ?_)
    cases r with
    | error e => exact follows_rollback herror
    | ok rs =>
      refine follows_closeSession _ (fun a k'' ha hfound a' ha' => ?_) herror
      cases ha
      cases ha'
      obtain ⟨ps, hps, hsearched, hall⟩ := hr rs rfl
      rw [← hfound] at hall
      exact ⟨ps, hps, hsearched, hall⟩

theorem follows_other {j : ι} (hji : j ≠ i) (p : SessionTx α) (hpost : ∀ r k, post r k) :
    (searching similarity tenant persons i j).Follows p k post := by
  induction p generalizing k with
  | pure a => exact hpost _ _
  | throw e => exact hpost _ _
  | call op next ih => exact ⟨fun heq => absurd heq hji, fun r k' _ => ih r⟩

end Following

variable {lib : Libraries} {ctx : RequestContext} {query : Str} {limit : ℕ}
variable {allowed : ι → Choice → SessionOp → BoundDb ι → Prop}
variable {q q' : Pool ι (BoundDb ι) SessionOp SessionOp.Reply PyError ApiAnswer}

/-- The list of a search among any other sessions, against the persons there at its beginning and at
its end. -/
theorem search_ranked (hctx : ctx.tenant_id = some tenant) (hidle : q.shared.db.Idle i)
    (hsearch : q.program i = (ApiCall.search query limit).session lib ctx)
    (hrun : Pool.Run (environment similarity forced) allowed q q') {a : ApiAnswer}
    (ha : q'.program i = .pure a) :
    ∃ ps : List Person, a = .candidates (ps.map toSummary) ∧
      (∀ p ∈ ps, p ∈ q'.shared.db.committed.persons) ∧ (strip query = [] → ps = []) ∧
      (strip query ≠ [] → PersonRepository.Ranked similarity tenant (strip query) limit
        q.shared.db.committed.persons ps) := by
  have hconforms : Protocol.Conforms
      (searching similarity tenant q.shared.db.committed.persons i)
      (Persisting tenant q.shared.db.committed.persons i)
      (fun j r k => j = i → ∀ a, r = .ok a →
        Lists similarity tenant q.shared.db.committed.persons query limit a k) q := by
    refine ⟨fun _ => ⟨false, []⟩, ⟨fun _ hp => hp, ?_, ?_, hidle⟩, fun j => ?_⟩
    · exact fun _ hp => absurd hp List.not_mem_nil
    · exact fun hbound => by cases hbound
    · by_cases hji : j = i
      · subst hji
        rw [hsearch]
        exact (follows_search lib hctx).mono (fun r k hr _ => hr)
      · exact follows_other hji _ (fun _ _ heq => absurd heq hji)
  obtain ⟨ks, hpersisting, hanswered⟩ := (hconforms.run kept_searching hrun).returned ha
  obtain ⟨ps, rfl, hsearched, hfound⟩ := hanswered rfl a rfl
  exact ⟨ps, rfl, fun p hp => hpersisting.found p (hfound p hp), hsearched.blank, hsearched.ranked⟩

end BoundDb

namespace Specimen
open BoundDb

def fatimaTables : Tables := (transact ctx (createPerson lib ctx (draws 10 11) fatima) (.empty [1])).2

def mariam : PersonService.Args where
  canonical_name_en := some "Mariam".toList
  passport_number := some "P7654321".toList
  nationality := some "ARE".toList

/-- A search next to the creation of another person. -/
def browsing : Pool Bool (BoundDb Bool) SessionOp SessionOp.Reply PyError ApiAnswer :=
  apiPool lib (fun _ => ctx) (fun first =>
    if first then .create (draws 20 21) mariam else .search " Fatima ".toList 5) fatimaTables

def fatimaSummary : PersonSummary where
  person_uuid := 11
  canonical_name_ar := none
  canonical_name_en := some "Fatima".toList
  date_of_birth := none
  nationality := some "ARE".toList

def browsingSchedule : List (Bool × Choice) :=
  (false, accepts) :: List.replicate 16 (true, accepts) ++ List.replicate 3 (false, accepts)

theorem browsing_runs : ∃ q,
    Pool.Run (environment similarity true) Pool.Unrestricted browsing q ∧
      q.program false = .pure (.candidates [fatimaSummary]) := by
  have hends : (Pool.runSchedule (environment similarity true) browsingSchedule browsing).map
      (fun q => answer (q.program false)) = some (some (.candidates [fatimaSummary])) := by
    decide +kernel
  obtain ⟨q, hq, hanswer⟩ := Option.map_eq_some_iff.mp hends
  exact ⟨q, Pool.run_of_runSchedule hq, eq_pure_of_answer hanswer⟩

theorem browsing_ranked :
    ∃ (q : Pool Bool (BoundDb Bool) SessionOp SessionOp.Reply PyError ApiAnswer)
      (ps : List Person), [fatimaSummary] = ps.map toSummary ∧
      (∀ p ∈ ps, p ∈ q.shared.db.committed.persons) ∧
      PersonRepository.Ranked similarity 1 "Fatima".toList 5 fatimaTables.persons ps := by
  obtain ⟨q, hrun, hanswer⟩ := browsing_runs
  have hctx : ctx.tenant_id = some 1 := rfl
  have hidle : browsing.shared.db.Idle false := ⟨rfl, rfl⟩
  obtain ⟨ps, hps, hcommitted, -, hranked⟩ := search_ranked hctx hidle rfl hrun hanswer
  have hstrip : strip " Fatima ".toList = "Fatima".toList := by decide
  rw [hstrip] at hranked
  exact ⟨q, ps, ApiAnswer.candidates.inj hps, hcommitted, hranked (by decide)⟩

end Specimen
end Hawiya
