import Hawiya.TenantErasure

/-!
# What the policies guarantee by themselves

Nothing is assumed of the code of a session but that it binds itself to its own tenant. With the
policies a session changes rows of its tenant only, is shown rows of its tenant only, and without a
binding it changes and sees nothing. The rows of a tenant change by the tenant's sessions alone.
-/

namespace Hawiya
open PyString Interaction

/-- The session binds itself to its own tenant. -/
def SessionOp.Binds (tenant : UUID) : SessionOp → Prop
  | .setConfig tenant_id => tenant_id = tenant
  | _ => True

/-- The rows of tables that a reply shows. -/
def SessionOp.shown : (op : SessionOp) → op.Reply → List Row
  | .statement (.selectIdentifiers ..), rows => List.map Row.identifier rows
  | .statement (.selectPersons ..), rows => List.map Row.person rows
  | .statement (.selectPersonIdentifiers _), rows => List.map Row.identifier rows
  | .statement (.selectPersonNameVariants _), rows => List.map Row.nameVariant rows
  | .selectByName .., rows => List.map Row.person rows
  | _, _ => []

namespace BoundDb
variable {ι : Type} [DecidableEq ι] {tenants : ι → UUID} {s : BoundDb ι} {i j : ι}

/-- A session without a binding has changed nothing, and one with a binding only rows of its
tenant. -/
structure Bounded (tenants : ι → UUID) (s : BoundDb ι) : Prop where
  confined : Db.Confined tenants s.db
  setting : ∀ i, s.current_tenant i = none ∨ s.current_tenant i = some (tenants i)
  released : ∀ i, s.current_tenant i = none → s.db.changesOf i = []

theorem bounded_start (t : Tables) : Bounded tenants (start t) where
  confined _ _ hc := absurd hc List.not_mem_nil
  setting _ := .inl rfl
  released _ _ := rfl

omit [DecidableEq ι] in
theorem current_of_admits {tenant_id : UUID} (h : s.admits true i tenant_id = true) :
    s.current_tenant i = some tenant_id := beq_iff_eq.mp h

theorem Bounded.tenant_of_admits (h : Bounded tenants s) {tenant_id : UUID}
    (hadmits : s.admits true i tenant_id = true) : tenant_id = tenants i := by
  have hcurrent := current_of_admits hadmits
  rcases h.setting i with hnone | hsome
  · cases hnone.symm.trans hcurrent
  · exact Option.some.inj (hcurrent.symm.trans hsome)

/-- A session whose changes and setting are known, next to sessions that have not moved. -/
theorem Bounded.moved (h : Bounded tenants s) {s' : BoundDb ι}
    (hothers : ∀ j, j ≠ i → s'.db.changesOf j = s.db.changesOf j ∧
      s'.current_tenant j = s.current_tenant j)
    (hconfined : ∀ c ∈ s'.db.changesOf i, c.tenant_id = tenants i)
    (hsetting : s'.current_tenant i = none ∨ s'.current_tenant i = some (tenants i))
    (hreleased : s'.current_tenant i = none → s'.db.changesOf i = []) : Bounded tenants s' where
  confined j := by
    by_cases hji : j = i
    · exact hji ▸ hconfined
    · rw [(hothers j hji).1]
      exact h.confined j
  setting j := by
    by_cases hji : j = i
    · exact hji ▸ hsetting
    · rw [(hothers j hji).2]
      exact h.setting j
  released j := by
    by_cases hji : j = i
    · exact hji ▸ hreleased
    · rw [(hothers j hji).1, (hothers j hji).2]
      exact h.released j

theorem others_unmoved (hji : j ≠ i) (forced : Bool) (outcome : Outcome) (op : DbOp) :
    (execStatement forced i outcome op s).2.db.changesOf j = s.db.changesOf j ∧
      (execStatement forced i outcome op s).2.current_tenant j = s.current_tenant j := by
  refine ⟨?_, setting_execStatement hji forced outcome op⟩
  rcases db_execStatement s i forced outcome op with hdb | hdb
  · rw [hdb]
  · rw [hdb]
    exact (Db.exec_frame outcome op s.db hji).1

/-- What an admitted statement records is a change of the tenant that is bound. -/
theorem Bounded.pass (h : Bounded tenants s) {op : DbOp} (outcome : Outcome) {tenant_id : UUID}
    (hadmits : s.admits true i tenant_id = true)
    (hchange : (Db.exec i outcome op s.db).2.changesOf i = s.db.changesOf i ∨
      ∃ c : Change, c.tenant_id = tenant_id ∧
        (Db.exec i outcome op s.db).2.changesOf i = s.db.changesOf i ++ [c]) :
    Bounded tenants (s.pass i outcome op).2 := by
  have hcurrent := current_of_admits hadmits
  refine h.moved (fun j hji => ⟨(Db.exec_frame outcome op s.db hji).1, rfl⟩) ?_ (h.setting i) ?_
  · intro c hc
    change c ∈ (Db.exec i outcome op s.db).2.changesOf i at hc
    rcases hchange with hsame | ⟨c', htenant, hnew⟩
    · exact h.confined i c (hsame ▸ hc)
    · rw [hnew] at hc
      rcases List.mem_append.mp hc with hc | hc
      · exact h.confined i c hc
      · rw [List.mem_singleton.mp hc, htenant]
        exact h.tenant_of_admits hadmits
  · intro hnone
    cases hcurrent.symm.trans hnone

theorem changesOf_insert (db : Db ι) (outcome : Outcome) (r : Row) :
    (Db.exec i outcome (.insert r) db).2.changesOf i = db.changesOf i ∨
      ∃ c : Change, c.tenant_id = r.tenant_id ∧
        (Db.exec i outcome (.insert r) db).2.changesOf i = db.changesOf i ++ [c] := by
  have heffect := Db.exec_effect i outcome (.insert r) db
  generalize (Db.exec i outcome (.insert r) db).2 = db' at heffect ⊢
  cases heffect with
  | same => exact .inl rfl
  | insert r' heq =>
    cases heq
    exact .inr ⟨.insert r, rfl, db.changesOf_record_self i _⟩
  | session rows heq =>
    rcases heq with heq | ⟨_, heq⟩
    · cases heq
    · cases heq
  | link _ _ _ _ heq => cases heq
  | abort heq => cases heq
  | rollback heq => cases heq
  | commit heq => cases heq

theorem changesOf_updateExtraction (db : Db ι) (outcome : Outcome) (extraction_id tenant_id : UUID)
    (person_uuid : Option UUID) (match_action : String) :
    (Db.exec i outcome (.updateExtraction extraction_id tenant_id person_uuid match_action)
        db).2.changesOf i = db.changesOf i ∨
      ∃ c : Change, c.tenant_id = tenant_id ∧
        (Db.exec i outcome (.updateExtraction extraction_id tenant_id person_uuid match_action)
          db).2.changesOf i = db.changesOf i ++ [c] := by
  cases outcome with
  | refuse => exact .inl rfl
  | accept =>
    simp only [Db.exec, Db.doUpdateExtraction]
    split_ifs
    · exact .inr ⟨.link extraction_id tenant_id person_uuid match_action, rfl,
        db.changesOf_record_self i _⟩
    · exact .inl rfl

theorem Bounded.execStatement (h : Bounded tenants s) (op : DbOp) (outcome : Outcome) :
    Bounded tenants (execStatement true i outcome op s).2 := by
  have hended : ∀ s' : BoundDb ι,
      (∀ j, j ≠ i → s'.db.changesOf j = s.db.changesOf j ∧
        s'.current_tenant j = s.current_tenant j) →
      s'.db.changesOf i = [] → s'.current_tenant i = none → Bounded tenants s' := by
    intro s' hothers hchanges hnone
    refine h.moved hothers (fun c hc => ?_) (.inl hnone) (fun _ => hchanges)
    rw [hchanges] at hc
    cases hc
  have hothers := fun j hji => others_unmoved (s := s) (i := i) (j := j) hji true outcome op
  cases op with
  | add => exact ⟨h.confined, h.setting, h.released⟩
  | takePending => exact ⟨h.confined, h.setting, h.released⟩
  | insert r =>
    simp only [BoundDb.execStatement]
    split_ifs with hadmits
    · exact h.pass outcome hadmits (changesOf_insert s.db outcome r)
    · exact h
  | updateExtraction extraction_id tenant_id person_uuid match_action =>
    simp only [BoundDb.execStatement]
    split_ifs with hadmits
    · exact h.pass outcome hadmits (changesOf_updateExtraction s.db outcome _ _ _ _)
    · cases outcome with
      | _ => exact h
  | commit =>
    refine hended _ hothers ?_ (Function.update_self _ _ _)
    cases outcome with
    | accept => exact changesOf_doCommit_self s.db
    | refuse => exact s.db.changesOf_endTransaction_self i
  | rollback =>
    exact hended _ hothers (s.db.changesOf_endTransaction_self i) (Function.update_self _ _ _)
  | selectIdentifiers tenant_id identifier_type identifier_value =>
    change Bounded tenants (s.pass i outcome _).2
    rw [BoundDb.pass, Db.exec_selectIdentifiers_state]
    exact h
  | _ =>
    cases outcome with
    | _ => exact h

variable (similarity : Str → Str → ℚ)

theorem Bounded.exec (h : Bounded tenants s) {op : SessionOp} (hbinds : op.Binds (tenants i))
    (choice : Choice) : Bounded tenants (exec similarity true i choice op s).2 := by
  obtain ⟨outcome, tie⟩ := choice
  cases op with
  | statement op => exact h.execStatement op outcome
  | selectByName tenant_id q limit =>
    rw [exec_selectByName_state]
    exact h
  | setConfig tenant_id =>
    cases outcome with
    | refuse => exact h
    | accept =>
      cases hbinds
      have hset : (s.bind i (some (tenants i))).current_tenant i = some (tenants i) :=
        Function.update_self _ _ _
      refine h.moved (fun j hji => ⟨rfl, bind_setting_ne hji _⟩) (h.confined i) (.inr hset) ?_
      intro hnone
      cases hset.symm.trans hnone

omit [DecidableEq ι] in
theorem mem_of_hide {α : Type} {visible : α → Bool} {r : Except PyError (List α) × BoundDb ι}
    {rows : List α} (hrows : (hide visible r).1 = .ok rows) {a : α} (ha : a ∈ rows) :
    visible a = true := by
  obtain ⟨reply, s'⟩ := r
  cases reply with
  | error e => cases hrows
  | ok l =>
    cases hrows
    exact (List.mem_filter.mp ha).2

theorem current_of_shown {op : SessionOp} {choice : Choice} {reply : op.Reply}
    (hreply : (BoundDb.exec similarity true i choice op s).1 = .ok reply) {r : Row}
    (hr : r ∈ op.shown reply) : s.current_tenant i = some r.tenant_id := by
  obtain ⟨outcome, tie⟩ := choice
  cases op with
  | setConfig => cases hr
  | selectByName tenant_id q limit =>
    obtain ⟨p, hp, rfl⟩ := List.mem_map.mp hr
    rcases exec_selectByName similarity true i ⟨outcome, tie⟩ s tenant_id q limit with
      hexec | ⟨e, -, hexec⟩
    · rw [hexec] at hreply
      cases hreply
      exact current_of_admits (List.mem_filter.mp (PersonRepository.mem_selectByName hp).1).2
    · rw [hexec] at hreply
      cases hreply
  | statement op =>
    cases op with
    | selectIdentifiers =>
      obtain ⟨p, hp, rfl⟩ := List.mem_map.mp hr
      exact current_of_admits (mem_of_hide hreply hp)
    | selectPersons =>
      obtain ⟨p, hp, rfl⟩ := List.mem_map.mp hr
      exact current_of_admits (mem_of_hide hreply hp)
    | selectPersonIdentifiers =>
      obtain ⟨p, hp, rfl⟩ := List.mem_map.mp hr
      exact current_of_admits (mem_of_hide hreply hp)
    | selectPersonNameVariants =>
      obtain ⟨p, hp, rfl⟩ := List.mem_map.mp hr
      exact current_of_admits (mem_of_hide hreply hp)
    | _ => cases hr

/-- A session commits rows of its tenant. -/
theorem Bounded.committed_of (h : Bounded tenants s) {tenant : UUID} (hi : tenants i ≠ tenant)
    (choice : Choice) (op : SessionOp) :
    (BoundDb.exec similarity true i choice op s).2.db.committed.of tenant =
      s.db.committed.of tenant := by
  rcases committed_exec similarity s i true choice op with hcommitted | hcommitted
  · rw [hcommitted]
  · rw [hcommitted, Db.view]
    exact Tables.of_applyAll_other (fun c hc heq => hi ((h.confined i c hc).symm.trans heq))

/-- What holds of the sessions in a state. -/
structure Isolated (similarity : Str → Str → ℚ) (tenants : ι → UUID) (s : BoundDb ι) : Prop where
  written : ∀ i, ∀ c ∈ s.db.changesOf i, s.current_tenant i = some c.tenant_id
  shown : ∀ i choice op reply, (exec similarity true i choice op s).1 = .ok reply →
    ∀ r ∈ op.shown reply, s.current_tenant i = some r.tenant_id
  bound : ∀ i tenant_id, s.current_tenant i = some tenant_id → tenant_id = tenants i

theorem Bounded.isolated (h : Bounded tenants s) : Isolated similarity tenants s where
  written i c hc := by
    rcases h.setting i with hnone | hsome
    · rw [h.released i hnone] at hc
      cases hc
    · rw [hsome, h.confined i c hc]
  shown _ _ _ _ hreply _ hr := current_of_shown similarity hreply hr
  bound i tenant_id hcurrent := h.tenant_of_admits (beq_iff_eq.mpr hcurrent)

/-- A program of which nothing is known but whom it binds. -/
def binding (tenant : UUID) : Protocol SessionOp SessionOp.Reply PyError Unit where
  may _ op := op.Binds tenant
  learns _ _ _ _ := True

theorem kept_bounded :
    Protocol.Kept (environment similarity true) (fun i => binding (tenants i))
      (fun _ s => Bounded tenants s) :=
  fun _ _ _ choice _ h hbinds _ => ⟨(), trivial, h.exec similarity hbinds choice⟩

section Runs
variable {α : Type} {programs : ι → SessionTx α} {t : Tables}
variable {allowed : ι → Choice → SessionOp → BoundDb ι → Prop}
variable {q q' : Pool ι (BoundDb ι) SessionOp SessionOp.Reply PyError α}

def Binding (tenants : ι → UUID) (q : Pool ι (BoundDb ι) SessionOp SessionOp.Reply PyError α) :
    Prop :=
  Protocol.Conforms (fun i => binding (tenants i)) (fun _ s => Bounded tenants s)
    (fun _ _ _ => True) q

theorem Binding.bounded (h : Binding tenants q) : Bounded tenants q.shared := by
  obtain ⟨ks, hbounded, -⟩ := h
  exact hbounded

theorem Binding.run (h : Binding tenants q)
    (hrun : Pool.Run (environment similarity true) allowed q q') : Binding tenants q' :=
  Protocol.Conforms.run (kept_bounded similarity) h hrun

theorem binding_start (hbinds : ∀ i, (programs i).Only (SessionOp.Binds (tenants i))) :
    Binding tenants ⟨start t, programs⟩ :=
  ⟨fun _ => (), bounded_start t, fun i => Protocol.Follows.of_only (hbinds i) (fun _ _ h => h)⟩

theorem Binding.committed_of (h : Binding tenants q) {tenant : UUID}
    (hrun : Pool.Run (environment similarity true) (fun i _ _ _ => tenants i ≠ tenant) q q') :
    q'.shared.db.committed.of tenant = q.shared.db.committed.of tenant := by
  induction hrun with
  | start => rfl
  | next hrun hstep hok ih =>
    have hbounded := (h.run similarity hrun).bounded
    obtain ⟨op, next, hp, -, rfl⟩ := Pool.step_cases hstep
    unfold Pool.Allows at hok
    rw [hp] at hok
    exact (hbounded.committed_of similarity hok _ op).trans ih

/-- Whatever the sessions run, as long as each binds itself to its own tenant only. -/
theorem policies_isolate (hbinds : ∀ i, (programs i).Only (SessionOp.Binds (tenants i)))
    (hrun : Pool.Run (environment similarity true) allowed ⟨start t, programs⟩ q) :
    Isolated similarity tenants q.shared ∧
      ∀ tenant q', Pool.Run (environment similarity true) (fun i _ _ _ => tenants i ≠ tenant) q q' →
        q'.shared.db.committed.of tenant = q.shared.db.committed.of tenant := by
  have hbinding := (binding_start hbinds).run similarity hrun
  exact ⟨hbinding.bounded.isolated similarity,
    fun _ _ hlater => hbinding.committed_of similarity hlater⟩

end Runs

end BoundDb

namespace Specimen
open BoundDb

def registered : List Row :=
  [.person (fatima.person.row lib 1 11), .identifier ((fatima.passport 11 ['P']).row 1)]

/-- One session writes a person of tenant 1; the other is bound to tenant 2 and asks for all
identifiers of that person. -/
def nosy (first : Bool) : SessionTx (List PersonIdentifier) :=
  if first then do
    SessionTx.setConfig 1
    SessionTx.statements (forM registered Session.insert)
    SessionTx.statements Session.commit
    return []
  else do
    SessionTx.setConfig 2
    SessionTx.statements (PersonService.selectIdentifiers 11)

theorem nosy_binds : ∀ i, (nosy i).Only (SessionOp.Binds (if i then 1 else 2)) := by
  have hstatements : ∀ {α : Type} (p : Tx α) (tenant : UUID),
      (SessionTx.statements p).Only (SessionOp.Binds tenant) := by
    intro α p tenant
    induction p with
    | pure a => trivial
    | throw e => trivial
    | call op next ih => exact ⟨trivial, ih⟩
  intro i
  cases i with
  | true =>
    refine Program.only_bind (Program.only_perform rfl) (fun _ => ?_)
    refine Program.only_bind (hstatements _ _) (fun _ => ?_)
    exact Program.only_bind (hstatements _ _) (fun _ => trivial)
  | false => exact Program.only_bind (Program.only_perform rfl) (fun _ => hstatements _ _)

theorem nosy_isolated : ∃ q,
    Pool.Run (environment similarity true) Pool.Unrestricted ⟨start (.empty [1, 2]), nosy⟩ q ∧
      q.shared.db.committed.identifiers.length = 1 ∧ q.program false = .pure [] ∧
      Isolated similarity (fun i => if i then 1 else 2) q.shared := by
  have hends : (Pool.runSchedule (environment similarity true)
      (List.replicate 4 (true, accepts) ++ List.replicate 2 (false, accepts))
      ⟨start (.empty [1, 2]), nosy⟩).map (fun q =>
        (q.shared.db.committed.identifiers.length, answer (q.program false))) =
      some (1, some []) := by
    decide +kernel
  obtain ⟨q, hq, hends⟩ := Option.map_eq_some_iff.mp hends
  obtain ⟨hlength, hrows⟩ := Prod.mk.inj hends
  have hrun := Pool.run_of_runSchedule hq
  obtain ⟨hisolated, -⟩ := policies_isolate similarity nosy_binds hrun
  exact ⟨q, hrun, hlength, eq_pure_of_answer hrows, hisolated⟩

end Specimen
end Hawiya
