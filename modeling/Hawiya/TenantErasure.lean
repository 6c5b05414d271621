import Hawiya.ApiRuns
import Hawiya.Lib.Simulation

/-!
# The other tenants can be erased from a run

A database that only the sessions of one tenant have worked on holds the tenant's part of the shared
one. The statements of those sessions answer the same on both, since their rows and keys are the
tenant's, and the statements of the others do not touch the tenant's part. So every interleaving
contains one in which the tenant is alone, with the same answers.
-/

namespace Hawiya
open PyString Calendar Interaction

theorem Row.rename_one (r : Row) : r.rename 1 = r := by
  cases r with
  | person r => rfl
  | identifier r => rfl
  | nameVariant r => rfl
  | extraction r => exact congrArg Row.extraction r.rename_one
  | matchDecision r => exact congrArg Row.matchDecision r.rename_one
  | auditLog r => exact congrArg Row.auditLog r.rename_one

theorem IndexKey.rename_one (k : IndexKey) : k.rename 1 = k := by
  cases k with
  | _ => rfl

namespace Tables
variable {t : Tables} {tenant : UUID} {owner : UUID → Option UUID} {r : Row} {cs : List Change}

theorem project_one (t : Tables) (tenant : UUID) : t.project 1 tenant = t.of tenant :=
  (t.of tenant).rename_one

theorem of_apply {c : Change} (h : c.tenant_id = tenant) :
    (t.apply c).of tenant = (t.of tenant).apply c := by
  cases c with
  | insert r =>
    have hkept : (fun u => u == tenant) r.tenant_id = true := beq_iff_eq.mpr h
    exact restrict_insert_of_kept hkept t
  | link extraction_id tenant_id person_uuid match_action =>
    exact restrict_link _ t extraction_id tenant_id person_uuid match_action

theorem of_apply_other {c : Change} (h : c.tenant_id ≠ tenant) :
    (t.apply c).of tenant = t.of tenant := by
  cases c with
  | insert r =>
    have hdropped : ¬ (fun u => u == tenant) r.tenant_id = true := fun heq => h (beq_iff_eq.mp heq)
    exact restrict_insert_of_not_kept hdropped t
  | link extraction_id tenant_id person_uuid match_action =>
    change (t.apply (.link extraction_id tenant_id person_uuid match_action)).restrict _ =
      t.restrict _
    rw [restrict_link]
    apply apply_link_of_not_mem
    intro r hr heq
    exact h (heq.symm.trans (beq_iff_eq.mp (List.mem_filter.mp hr).2))

theorem of_applyAll (h : ∀ c ∈ cs, c.tenant_id = tenant) :
    (t.applyAll cs).of tenant = (t.of tenant).applyAll cs := by
  induction cs generalizing t with
  | nil => rfl
  | cons c cs ih =>
    rw [applyAll_cons, applyAll_cons, ih (fun c' hc' => h c' (List.mem_cons_of_mem c hc')),
      of_apply (h c List.mem_cons_self)]

theorem of_applyAll_other (h : ∀ c ∈ cs, c.tenant_id ≠ tenant) :
    (t.applyAll cs).of tenant = t.of tenant := by
  induction cs generalizing t with
  | nil => rfl
  | cons c cs ih =>
    rw [applyAll_cons, ih (fun c' hc' => h c' (List.mem_cons_of_mem c hc')),
      of_apply_other (h c List.mem_cons_self)]

theorem DrawnFor.applyAll (h : t.DrawnFor owner)
    (hcs : ∀ r, .insert r ∈ cs → ∀ u ∈ r.uuids, owner u = some r.tenant_id) :
    (t.applyAll cs).DrawnFor owner := by
  induction cs generalizing t with
  | nil => exact h
  | cons c cs ih =>
    refine ih ?_ (fun r hr => hcs r (List.mem_cons_of_mem c hr))
    cases c with
    | insert r => exact h.insert (hcs r List.mem_cons_self)
    | link => exact h.link _ _ _ _

variable (howned : t.DrawnFor owner)
include howned

theorem find_key_of (hr : r.Own owner tenant) :
    r.keys.find? (fun k => k ∈ (t.of tenant).keys) = r.keys.find? (fun k => k ∈ t.keys) := by
  have hfind := find_key_project 1 howned hr
  rw [Row.rename_one, project_one] at hfind
  rw [hfind, funext IndexKey.rename_one]
  exact congrFun Option.map_id _

theorem referenceHolds_of (hr : r.Own owner tenant) :
    (t.of tenant).ReferenceHolds r ↔ t.ReferenceHolds r := by
  have hiff := referenceHolds_project 1 howned hr
  rwa [Row.rename_one, project_one] at hiff

theorem identifiersOf_of {u : UUID} (hu : owner u = some tenant) :
    (t.of tenant).identifiersOf u = t.identifiersOf u := by
  have hrows := identifiersOf_project (ρ := 1) howned hu
  rw [project_one, List.map_id'' PersonIdentifier.rename_one] at hrows
  exact hrows

theorem nameVariantsOf_of {u : UUID} (hu : owner u = some tenant) :
    (t.of tenant).nameVariantsOf u = t.nameVariantsOf u := by
  have hrows := nameVariantsOf_project (ρ := 1) howned hu
  rw [project_one, List.map_id'' PersonNameVariant.rename_one] at hrows
  exact hrows

omit howned in
theorem activeIdentifiers_of (identifier_type : IdentifierType) (identifier_value : Str) :
    (t.of tenant).activeIdentifiers tenant identifier_type identifier_value =
      t.activeIdentifiers tenant identifier_type identifier_value := by
  have hrows : (t.project 1 tenant).activeIdentifiers tenant identifier_type identifier_value = _ :=
    activeIdentifiers_project identifier_type identifier_value
  rwa [project_one, List.map_id'' PersonIdentifier.rename_one] at hrows

omit howned in
theorem personsWith_of (person_uuid : UUID) :
    (t.of tenant).personsWith tenant person_uuid = t.personsWith tenant person_uuid := by
  have hrows : (t.project 1 tenant).persons.filter (fun p =>
      p.tenant_id == tenant && p.person_uuid == (1 : Equiv.Perm UUID) person_uuid) = _ :=
    persons_project person_uuid
  rw [project_one, List.map_id'' Person.rename_one] at hrows
  exact hrows

omit howned in
theorem any_extraction_of (extraction_id : UUID) :
    (t.of tenant).extractions.any (fun r => r.isExtraction extraction_id tenant) =
      t.extractions.any (fun r => r.isExtraction extraction_id tenant) := by
  have hany : (t.project 1 tenant).extractions.any (fun r => r.isExtraction extraction_id tenant) =
      _ := any_extraction_project extraction_id
  rwa [project_one] at hany

end Tables

namespace Db
variable {ι : Type} [DecidableEq ι] {tenants : ι → UUID} {tenant : UUID}
variable {owner : UUID → Option UUID} {db db' : Db ι} {i : ι}

structure Part (tenants : ι → UUID) (tenant : UUID) (db db' : Db ι) : Prop where
  committed : db'.committed = db.committed.of tenant
  uncommitted : db'.uncommitted = db.uncommitted.filter (fun e => tenants e.1 == tenant)
  pending : ∀ i, tenants i = tenant → db'.pending i = db.pending i

/-- Every session changes rows of its tenant. -/
def Confined (tenants : ι → UUID) (db : Db ι) : Prop :=
  ∀ i, ∀ c ∈ db.changesOf i, c.tenant_id = tenants i

theorem Part.changesOf (h : Part tenants tenant db db') (hi : tenants i = tenant) :
    db'.changesOf i = db.changesOf i := by
  unfold Db.changesOf
  rw [h.uncommitted, List.filter_filter]
  congr 1
  apply List.filter_congr
  intro e _
  by_cases he : e.1 = i
  · simp [he, hi]
  · simp [he]

theorem Part.view (h : Part tenants tenant db db') (hconfined : Confined tenants db)
    (hi : tenants i = tenant) : db'.view i = (db.view i).of tenant := by
  rw [Db.view, Db.view, h.changesOf hi, h.committed, Tables.of_applyAll]
  exact fun c hc => (hconfined i c hc).trans hi

theorem Part.setPending (h : Part tenants tenant db db') (i : ι) (rows : List Row) :
    Part tenants tenant (db.setPending i rows) (db'.setPending i rows) where
  committed := h.committed
  uncommitted := h.uncommitted
  pending j hj := by
    change Function.update db'.pending i rows j = Function.update db.pending i rows j
    by_cases hji : j = i
    · subst hji
      rw [Function.update_self, Function.update_self]
    · rw [Function.update_of_ne hji, Function.update_of_ne hji, h.pending j hj]

omit [DecidableEq ι] in
theorem Part.record (h : Part tenants tenant db db') (hi : tenants i = tenant) (c : Change) :
    Part tenants tenant (db.record i c) (db'.record i c) where
  committed := h.committed
  uncommitted := by
    have hkept : [(i, c)].filter (fun e => tenants e.1 == tenant) = [(i, c)] :=
      List.filter_cons_of_pos (beq_iff_eq.mpr hi)
    rw [Db.record, Db.record, List.filter_append, hkept, h.uncommitted]
  pending := h.pending

theorem Part.endTransaction (h : Part tenants tenant db db') (i : ι) :
    Part tenants tenant (db.endTransaction i) (db'.endTransaction i) where
  committed := h.committed
  uncommitted := by
    rw [Db.endTransaction, Db.endTransaction, h.uncommitted, List.filter_filter, List.filter_filter]
    exact List.filter_congr (fun e _ => Bool.and_comm _ _)
  pending := h.pending

theorem Part.doCommit (h : Part tenants tenant db db') (hconfined : Confined tenants db)
    (hi : tenants i = tenant) : Part tenants tenant (db.doCommit i) (db'.doCommit i) :=
  { h.endTransaction i with committed := h.view hconfined hi }

/-! The sessions of the others. -/

theorem Part.setPending_other (h : Part tenants tenant db db') (hi : tenants i ≠ tenant)
    (rows : List Row) : Part tenants tenant (db.setPending i rows) db' where
  committed := h.committed
  uncommitted := h.uncommitted
  pending j hj := by
    have hji : j ≠ i := fun hji => hi (hji ▸ hj)
    exact (h.pending j hj).trans (Function.update_of_ne hji _ _).symm

omit [DecidableEq ι] in
theorem Part.record_other (h : Part tenants tenant db db') (hi : tenants i ≠ tenant) (c : Change) :
    Part tenants tenant (db.record i c) db' where
  committed := h.committed
  uncommitted := by
    have hdropped : [(i, c)].filter (fun e => tenants e.1 == tenant) = [] :=
      List.filter_cons_of_neg (fun heq => hi (beq_iff_eq.mp heq))
    rw [Db.record, List.filter_append, hdropped, List.append_nil, h.uncommitted]
  pending := h.pending

theorem Part.endTransaction_other (h : Part tenants tenant db db') (hi : tenants i ≠ tenant) :
    Part tenants tenant (db.endTransaction i) db' where
  committed := h.committed
  uncommitted := by
    rw [Db.endTransaction, h.uncommitted, List.filter_filter]
    apply List.filter_congr
    intro e _
    by_cases he : e.1 = i
    · simp [he, hi]
    · simp [he]
  pending := h.pending

theorem Part.doCommit_other (h : Part tenants tenant db db') (hconfined : Confined tenants db)
    (hi : tenants i ≠ tenant) : Part tenants tenant (db.doCommit i) db' := by
  have hview : (db.view i).of tenant = db.committed.of tenant :=
    Tables.of_applyAll_other (fun c hc heq => hi ((hconfined i c hc).symm.trans heq))
  exact { h.endTransaction_other hi with committed := h.committed.trans hview.symm }

theorem Part.exec_other (h : Part tenants tenant db db') (hconfined : Confined tenants db)
    (hi : tenants i ≠ tenant) (outcome : Outcome) (op : DbOp) :
    Part tenants tenant (Db.exec i outcome op db).2 db' := by
  have heffect := Db.exec_effect i outcome op db
  generalize (Db.exec i outcome op db).2 = db₂ at heffect ⊢
  cases heffect with
  | same => exact h
  | session rows => exact h.setPending_other hi rows
  | insert r => exact h.record_other hi _
  | link => exact h.record_other hi _
  | abort => exact h.endTransaction_other hi
  | rollback => exact (h.endTransaction_other hi).setPending_other hi []
  | commit => exact h.doCommit_other hconfined hi

theorem Part.waits (h : Part tenants tenant db db') {op : DbOp} (hw : Db.waits i op db = false) :
    Db.waits i op db' = false := by
  have hsub : ∀ e ∈ db'.uncommitted, e ∈ db.uncommitted := by
    rw [h.uncommitted]
    exact fun e he => (List.mem_filter.mp he).1
  cases op with
  | insert r =>
    rcases Bool.and_eq_false_iff.mp hw with hrefused | hfree
    · exact Bool.and_eq_false_iff.mpr (.inl hrefused)
    · exact Bool.and_eq_false_iff.mpr (.inr
        (List.any_eq_false.mpr (fun e he => List.any_eq_false.mp hfree e (hsub e he))))
  | updateExtraction =>
    exact List.any_eq_false.mpr (fun e he => List.any_eq_false.mp hw e (hsub e he))
  | _ => rfl

/-- A statement about rows and persons of the tenant. -/
def Own (owner : UUID → Option UUID) (tenant : UUID) : DbOp → Prop
  | .insert r => r.Own owner tenant
  | .updateExtraction _ tenant_id .. => tenant_id = tenant
  | .selectIdentifiers tenant_id .. => tenant_id = tenant
  | .selectPersons tenant_id _ => tenant_id = tenant
  | .selectPersonIdentifiers person_uuid => owner person_uuid = some tenant
  | .selectPersonNameVariants person_uuid => owner person_uuid = some tenant
  | _ => True

/-- Both databases do the same for a session of the tenant. -/
structure Same (tenants : ι → UUID) (tenant : UUID) {α : Type} (r r' : Except PyError α × Db ι) :
    Prop where
  reply : r'.1 = r.1
  part : Part tenants tenant r.2 r'.2

section Own
variable (h : Part tenants tenant db db') (hconfined : Confined tenants db)
variable (hi : tenants i = tenant)
include h hconfined hi

theorem Part.doInsert (howned : (db.view i).DrawnFor owner) {r : Row} (hr : r.Own owner tenant) :
    Same tenants tenant (db.doInsert i r) (db'.doInsert i r) := by
  have hview := h.view hconfined hi
  unfold Db.doInsert
  rw [hview, Tables.find_key_of howned hr]
  by_cases hstorable : r.Storable
  · rw [if_pos hstorable, if_pos hstorable]
    cases r.keys.find? (fun k => k ∈ (db.view i).keys) with
    | some k => exact ⟨rfl, h⟩
    | none =>
      simp only [Tables.referenceHolds_of howned hr]
      split_ifs
      · exact ⟨rfl, h.record hi _⟩
      · exact ⟨rfl, h⟩
  · rw [if_neg hstorable, if_neg hstorable]
    exact ⟨rfl, h⟩

theorem Part.doUpdateExtraction (extraction_id : UUID) (person_uuid : Option UUID)
    (match_action : String) :
    Part tenants tenant (db.doUpdateExtraction i extraction_id tenant person_uuid match_action)
      (db'.doUpdateExtraction i extraction_id tenant person_uuid match_action) := by
  unfold Db.doUpdateExtraction
  rw [h.view hconfined hi, Tables.any_extraction_of]
  split_ifs
  · exact h.record hi _
  · exact h

theorem Part.exec (howned : (db.view i).DrawnFor owner) {op : DbOp} (hop : Own owner tenant op)
    (outcome : Outcome) :
    Same tenants tenant (Db.exec i outcome op db) (Db.exec i outcome op db') := by
  have hview := h.view hconfined hi
  have hpending := h.pending i hi
  cases op with
  | add r =>
    refine ⟨rfl, ?_⟩
    simp only [Db.exec, hpending]
    exact h.setPending i _
  | takePending => exact ⟨congrArg Except.ok hpending, h.setPending i []⟩
  | rollback => exact ⟨rfl, (h.endTransaction i).setPending i []⟩
  | commit =>
    cases outcome with
    | accept => exact ⟨rfl, h.doCommit hconfined hi⟩
    | refuse => exact ⟨rfl, h.endTransaction i⟩
  | insert r =>
    cases outcome with
    | accept => exact h.doInsert hconfined hi howned hop
    | refuse => exact ⟨rfl, h⟩
  | updateExtraction extraction_id tenant_id person_uuid match_action =>
    cases hop
    cases outcome with
    | accept => exact ⟨rfl, h.doUpdateExtraction hconfined hi _ _ _⟩
    | refuse => exact ⟨rfl, h⟩
  | selectIdentifiers tenant_id identifier_type identifier_value =>
    cases hop
    cases outcome with
    | refuse => exact ⟨rfl, h⟩
    | accept =>
      simp only [Db.exec]
      split_ifs
      · exact ⟨rfl, h⟩
      · refine ⟨congrArg Except.ok ?_, h⟩
        rw [hview, Tables.activeIdentifiers_of]
  | selectPersons tenant_id person_uuid =>
    cases hop
    cases outcome with
    | refuse => exact ⟨rfl, h⟩
    | accept =>
      refine ⟨congrArg Except.ok ?_, h⟩
      rw [hview]
      exact Tables.personsWith_of person_uuid
  | selectPersonIdentifiers person_uuid =>
    cases outcome with
    | refuse => exact ⟨rfl, h⟩
    | accept =>
      refine ⟨congrArg Except.ok ?_, h⟩
      rw [hview]
      exact Tables.identifiersOf_of howned hop
  | selectPersonNameVariants person_uuid =>
    cases outcome with
    | refuse => exact ⟨rfl, h⟩
    | accept =>
      refine ⟨congrArg Except.ok ?_, h⟩
      rw [hview]
      exact Tables.nameVariantsOf_of howned hop

end Own

end Db

namespace BoundDb
variable {ι : Type} [DecidableEq ι] {tenants : ι → UUID} {tenant : UUID} {drawn : UUID → Prop}
variable {owner : UUID → Option UUID} {k : Account} {s s' : BoundDb ι} {i : ι}

structure Part (tenants : ι → UUID) (tenant : UUID) (s s' : BoundDb ι) : Prop where
  db : Db.Part tenants tenant s.db s'.db
  setting : ∀ i, tenants i = tenant → s'.current_tenant i = s.current_tenant i

structure Same (tenants : ι → UUID) (tenant : UUID) {α : Type}
    (r r' : Except PyError α × BoundDb ι) : Prop where
  reply : r'.1 = r.1
  part : Part tenants tenant r.2 r'.2

theorem Part.bind (h : Part tenants tenant s s') (i : ι) (tenant_id : Option UUID) :
    Part tenants tenant (s.bind i tenant_id) (s'.bind i tenant_id) where
  db := h.db
  setting j hj := by
    change Function.update s'.current_tenant i tenant_id j =
      Function.update s.current_tenant i tenant_id j
    by_cases hji : j = i
    · subst hji
      rw [Function.update_self, Function.update_self]
    · rw [Function.update_of_ne hji, Function.update_of_ne hji, h.setting j hj]

omit [DecidableEq ι] in
theorem Part.admits (h : Part tenants tenant s s') (hi : tenants i = tenant) (forced : Bool)
    (tenant_id : UUID) : s'.admits forced i tenant_id = s.admits forced i tenant_id := by
  rw [BoundDb.admits, BoundDb.admits, h.setting i hi]

omit [DecidableEq ι] in
theorem Same.hide {α : Type} {r r' : Except PyError (List α) × BoundDb ι}
    (h : Same tenants tenant r r') {visible visible' : α → Bool}
    (hvisible : ∀ a, visible' a = visible a) :
    Same tenants tenant (BoundDb.hide visible r) (BoundDb.hide visible' r') where
  reply := by
    rw [BoundDb.hide, BoundDb.hide, h.reply, funext hvisible]
  part := h.part

section Own
variable (h : Part tenants tenant s s') (hconfined : Db.Confined tenants s.db)
variable (hi : tenants i = tenant) (howned : (s.db.view i).DrawnFor owner)
include h hconfined hi howned

theorem Part.pass {op : DbOp} (hop : Db.Own owner tenant op) (outcome : Outcome) :
    Same tenants tenant (s.pass i outcome op) (s'.pass i outcome op) := by
  obtain ⟨hreply, hpart⟩ := h.db.exec hconfined hi howned hop outcome
  exact ⟨hreply, ⟨hpart, h.setting⟩⟩

theorem Part.execStatement (forced : Bool) {op : DbOp} (hop : Db.Own owner tenant op)
    (outcome : Outcome) :
    Same tenants tenant (execStatement forced i outcome op s)
      (execStatement forced i outcome op s') := by
  have hpass := h.pass hconfined hi howned hop outcome
  have hadmits := h.admits hi forced
  cases op with
  | add => exact hpass
  | takePending => exact hpass
  | insert r =>
    simp only [BoundDb.execStatement, hadmits]
    split_ifs
    · exact hpass
    · exact ⟨rfl, h⟩
  | updateExtraction =>
    simp only [BoundDb.execStatement, hadmits]
    split_ifs
    · exact hpass
    · cases outcome with
      | _ => exact ⟨rfl, h⟩
  | selectIdentifiers => exact hpass.hide (fun r => hadmits r.tenant_id)
  | selectPersons => exact hpass.hide (fun r => hadmits r.tenant_id)
  | selectPersonIdentifiers => exact hpass.hide (fun r => hadmits r.tenant_id)
  | selectPersonNameVariants => exact hpass.hide (fun r => hadmits r.tenant_id)
  | commit => exact ⟨hpass.reply, hpass.part.bind i none⟩
  | rollback => exact ⟨hpass.reply, hpass.part.bind i none⟩

end Own

theorem selectByName_of (similarity : Str → Str → ℚ) (tie : UUID → ℕ) (q : Str) (limit : ℕ)
    (visible : Person → Bool) (t : Tables) :
    PersonRepository.selectByName similarity tie tenant q limit
      ((t.of tenant).persons.filter visible) =
      PersonRepository.selectByName similarity tie tenant q limit (t.persons.filter visible) := by
  unfold PersonRepository.selectByName
  change Ranking.best _ _
    (((t.persons.filter (fun r => r.tenant_id == tenant)).filter _).filter _) = _
  rw [List.filter_filter, List.filter_filter, List.filter_filter]
  congr 1
  apply List.filter_congr
  intro p _
  by_cases hcandidate : PersonRepository.isCandidate similarity tenant q p = true
  · rw [hcandidate, (PersonRepository.isCandidate_iff.mp hcandidate).1, beq_self_eq_true,
      Bool.and_true]
  · rw [Bool.eq_false_iff.mpr hcandidate, Bool.false_and, Bool.false_and]

variable (similarity : Str → Str → ℚ)

/-- What a session may do is about rows and persons of its tenant. -/
theorem Fits.own (h : s.Fits tenant drawn k i) (hdrawn : ∀ u, drawn u → owner u = some tenant)
    (howned : (s.db.view i).DrawnFor owner) {op : DbOp} (hmay : k.mayExecute tenant drawn op) :
    Db.Own owner tenant op := by
  have hknown : ∀ u, k.Knows u → owner u = some tenant := by
    intro u hu
    obtain ⟨p, hp, rfl, htenant⟩ := h.facts _ hu
    exact htenant ▸ howned.person hp
  cases op with
  | insert r =>
    obtain ⟨-, hsupports⟩ := hmay
    refine ⟨hsupports.tenant_id, fun u hu => ?_⟩
    cases r with
    | person r => exact hdrawn u (hsupports.fresh u hu)
    | extraction r => exact hdrawn u (hsupports.fresh u hu)
    | identifier r => exact hknown u (hsupports.names u hu)
    | nameVariant r => exact hknown u (hsupports.names u hu)
    | _ => cases hu
  | updateExtraction => exact hmay.2.1
  | selectIdentifiers => exact hmay.2
  | selectPersons => exact hmay.2
  | selectPersonIdentifiers person_uuid => exact hknown person_uuid hmay.2
  | selectPersonNameVariants person_uuid => exact hknown person_uuid hmay.2
  | _ => trivial

theorem Part.exec (h : Part tenants tenant s s') (hconfined : Db.Confined tenants s.db)
    (hi : tenants i = tenant) (howned : (s.db.view i).DrawnFor owner)
    (hfits : s.Fits tenant drawn k i) (hdrawn : ∀ u, drawn u → owner u = some tenant)
    (forced : Bool) {op : SessionOp} (hmay : k.may tenant drawn op) (choice : Choice) :
    Same tenants tenant (exec similarity forced i choice op s)
      (exec similarity forced i choice op s') := by
  obtain ⟨outcome, tie⟩ := choice
  cases op with
  | statement op =>
    exact h.execStatement hconfined hi howned forced (hfits.own hdrawn howned hmay) outcome
  | setConfig tenant_id =>
    cases outcome with
    | accept => exact ⟨rfl, h.bind i _⟩
    | refuse => exact ⟨rfl, h⟩
  | selectByName tenant_id q limit =>
    obtain ⟨-, rfl⟩ := hmay
    cases outcome with
    | refuse => exact ⟨rfl, h⟩
    | accept =>
      simp only [BoundDb.exec]
      split_ifs
      · exact ⟨rfl, h⟩
      · refine ⟨congrArg Except.ok ?_, h⟩
        rw [h.db.view hconfined hi, selectByName_of]
        simp only [h.admits hi]

theorem Part.pass_other (h : Part tenants tenant s s') (hconfined : Db.Confined tenants s.db)
    (hi : tenants i ≠ tenant) (op : DbOp) (outcome : Outcome) :
    Part tenants tenant (s.pass i outcome op).2 s' :=
  ⟨h.db.exec_other hconfined hi outcome op, h.setting⟩

theorem Part.bind_other (h : Part tenants tenant s s') (hi : tenants i ≠ tenant)
    (tenant_id : Option UUID) : Part tenants tenant (s.bind i tenant_id) s' where
  db := h.db
  setting j hj := by
    have hji : j ≠ i := fun hji => hi (hji ▸ hj)
    exact (h.setting j hj).trans (bind_setting_ne hji tenant_id).symm

theorem Part.exec_other (h : Part tenants tenant s s') (hconfined : Db.Confined tenants s.db)
    (hi : tenants i ≠ tenant) (forced : Bool) (op : SessionOp) (choice : Choice) :
    Part tenants tenant (BoundDb.exec similarity forced i choice op s).2 s' := by
  obtain ⟨outcome, tie⟩ := choice
  have hpass := fun op => h.pass_other hconfined hi op outcome
  cases op with
  | setConfig tenant_id =>
    cases outcome with
    | accept => exact h.bind_other hi _
    | refuse => exact h
  | selectByName tenant_id q limit =>
    rw [exec_selectByName_state]
    exact h
  | statement op =>
    change Part tenants tenant (BoundDb.execStatement forced i outcome op s).2 s'
    cases op with
    | insert r =>
      simp only [BoundDb.execStatement]
      split_ifs
      · exact hpass _
      · exact h
    | updateExtraction =>
      simp only [BoundDb.execStatement]
      split_ifs
      · exact hpass _
      · cases outcome with
        | _ => exact h
    | commit => exact (hpass .commit).bind_other hi none
    | rollback => exact (hpass .rollback).bind_other hi none
    | _ => exact hpass _

theorem Part.waits (h : Part tenants tenant s s') (hi : tenants i = tenant) (forced : Bool)
    {op : SessionOp} (hw : waits forced i op s = false) : waits forced i op s' = false := by
  cases op with
  | setConfig => rfl
  | selectByName => rfl
  | statement op =>
    cases op with
    | insert r =>
      simp only [BoundDb.waits, h.admits hi, Bool.and_eq_false_iff] at hw ⊢
      exact hw.imp id h.db.waits
    | updateExtraction =>
      simp only [BoundDb.waits, h.admits hi, Bool.and_eq_false_iff] at hw ⊢
      exact hw.imp id h.db.waits
    | _ => rfl

theorem Fits.drawnFor_view (h : s.Fits tenant drawn k i)
    (hdrawn : ∀ u, drawn u → owner u = some tenant)
    (howned : s.db.committed.DrawnFor owner) : (s.db.view i).DrawnFor owner := by
  have hpersons : ∀ p ∈ (s.db.view i).persons, owner p.person_uuid = some p.tenant_id := by
    intro p hp
    rcases (Tables.mem_persons_applyAll _).mp hp with hp | hp
    · exact howned.person hp
    · obtain ⟨htenant, hfresh, -⟩ := h.changes _ hp
      have howner := hdrawn _ (hfresh _ (List.mem_singleton_self _))
      exact howner.trans (congrArg some htenant.symm)
  apply howned.applyAll
  intro r hr u hu
  obtain ⟨htenant, hfresh, hnames⟩ := h.changes _ hr
  have hnamed : ∀ v ∈ r.names, owner v = some r.tenant_id := by
    intro v hv
    obtain ⟨p, hp, rfl, hsame⟩ := hnames v hv
    rw [hpersons p hp, hsame]
    exact congrArg some htenant.symm
  have hdrew : ∀ v ∈ r.fresh, owner v = some r.tenant_id :=
    fun v hv => (hdrawn v (hfresh v hv)).trans (congrArg some htenant.symm)
  cases r with
  | person r => exact hdrew u hu
  | extraction r => exact hdrew u hu
  | identifier r => exact hnamed u hu
  | nameVariant r => exact hnamed u hu
  | _ => cases hu

variable {draws : ι → UUID → Prop} {ks : ι → Account}

/-- Every account fits, and every UUID was drawn for the tenant of its row. -/
structure AllOwned (owner : UUID → Option UUID) (tenants : ι → UUID) (draws : ι → UUID → Prop)
    (ks : ι → Account) (s : BoundDb ι) : Prop where
  fits : AllFit tenants draws ks s
  owned : s.db.committed.DrawnFor owner

theorem AllOwned.confined (h : AllOwned owner tenants draws ks s) : Db.Confined tenants s.db :=
  fun i c hc => ((h.fits.each i).changes c hc).1

variable (hdrawn : ∀ i u, draws i u → owner u = some (tenants i))
include hdrawn

theorem kept_owned (forced : Bool) :
    Protocol.Kept (environment similarity forced)
      (fun i => Account.protocol (tenants i) (draws i)) (AllOwned owner tenants draws) := by
  intro ks s i choice op h hmay hw
  obtain ⟨k', hlearns, hfits⟩ := kept similarity forced ks s i choice op h.fits hmay hw
  refine ⟨k', hlearns, hfits, ?_⟩
  change (exec similarity forced i choice op s).2.db.committed.DrawnFor owner
  rcases committed_exec similarity s i forced choice op with hcommitted | hcommitted
  · rw [hcommitted]
    exact h.owned
  · rw [hcommitted]
    exact (h.fits.each i).drawnFor_view (hdrawn i) h.owned

/-- The part of a tenant answers its sessions as the whole does. -/
theorem erases_others (forced : Bool) (tenant : UUID) :
    Erases (environment similarity forced) (environment similarity forced)
      (fun i => Account.protocol (tenants i) (draws i)) (AllOwned owner tenants draws)
      (fun i => tenants i = tenant) (Part tenants tenant) where
  kept ks s s' i choice op h hpart hi hmay hw := by
    subst hi
    have howned := (h.fits.each i).drawnFor_view (hdrawn i) h.owned
    obtain ⟨hreply, hpart'⟩ := hpart.exec similarity h.confined rfl howned (h.fits.each i)
      (hdrawn i) forced hmay choice
    exact ⟨hpart.waits rfl forced hw, hreply, hpart'⟩
  erased ks s s' i choice op h hpart hi _ :=
    hpart.exec_other similarity h.confined hi forced op choice

omit hdrawn

omit [DecidableEq ι] in
theorem part_start (t : Tables) (tenant : UUID) :
    Part tenants tenant (start t) (start (t.of tenant)) where
  db := ⟨rfl, rfl, fun _ _ => rfl⟩
  setting _ _ := rfl

variable {lib : Libraries} {ctxs : ι → RequestContext} {calls : ι → ApiCall} {t : Tables}
variable {allowed : ι → Choice → SessionOp → BoundDb ι → Prop} {forced : Bool}
variable {q : Pool ι (BoundDb ι) SessionOp SessionOp.Reply PyError ApiAnswer}

/-- However the calls of several tenants interleave, the calls of one tenant can be run without the
others, on the rows of the tenant, to the same answers and the same committed rows. -/
theorem others_erased (hkeys : t.keys.Nodup) (hcohesive : t.Cohesive) (howned : t.DrawnFor owner)
    (hcalls : ∀ i, ∀ u ∈ (calls i).drawn, owner u = some (ctxs i).tenant) (tenant : UUID)
    (hrun : Pool.Run (environment similarity forced) allowed (apiPool lib ctxs calls t) q) :
    ∃ q', Pool.Run (environment similarity forced) (fun i _ _ _ => (ctxs i).tenant = tenant)
        (apiPool lib ctxs calls (t.of tenant)) q' ∧
      q'.shared.db.committed = q.shared.db.committed.of tenant ∧
      ∀ i, (ctxs i).tenant = tenant → q'.program i = q.program i := by
  have herases := erases_others similarity hcalls forced tenant
  obtain ⟨ks, hfits, hfollows⟩ : Keeping ctxs calls (apiPool lib ctxs calls t) :=
    keeping_apiPool hkeys hcohesive
  have hstart : Erased _ (AllOwned owner _ _) (fun i => (ctxs i).tenant = tenant)
      (Part (fun i => (ctxs i).tenant) tenant) (fun i => Account.Answered (ctxs i))
      (apiPool lib ctxs calls t) (apiPool lib ctxs calls (t.of tenant)) :=
    ⟨⟨ks, ⟨hfits, howned⟩, hfollows⟩, part_start t tenant, fun _ _ => rfl⟩
  obtain ⟨q', hrun', hpart, hprograms⟩ :=
    herases.run (kept_owned similarity hcalls forced) hstart hrun
  exact ⟨q', hrun', hpart.db.committed, hprograms⟩

end BoundDb

namespace Specimen
open BoundDb

/-- The passport is registered in two tenants at once. -/
def ctxOf (first : Bool) : RequestContext := ⟨some (if first then 1 else 2), none⟩

def twice (first : Bool) : ApiCall := .create (if first then draws 10 11 else draws 20 21) fatima

def twicePool : Pool Bool (BoundDb Bool) SessionOp SessionOp.Reply PyError ApiAnswer :=
  apiPool lib ctxOf twice (Tables.empty [1, 2])

/-- The second session runs while the first one's transaction is open. -/
def overlapping : List (Bool × Choice) :=
  List.replicate 14 (true, accepts) ++ List.replicate 16 (false, accepts) ++
    List.replicate 2 (true, accepts)

theorem twice_erased : ∃ q q',
    Pool.Run (environment similarity true) Pool.Unrestricted twicePool q ∧
      Pool.Run (environment similarity true) (fun i _ _ _ => (ctxOf i).tenant = 1)
        (apiPool lib ctxOf twice (.empty [1])) q' ∧
      q'.shared.db.committed = q.shared.db.committed.of 1 ∧
      q'.program true = .pure (.response (.created fatimaResponse)) := by
  have hends : (Pool.runSchedule (environment similarity true) overlapping twicePool).map
      (fun q => answer (q.program true)) = some (some (.response (.created fatimaResponse))) := by
    decide +kernel
  obtain ⟨q, hq, hanswer⟩ := Option.map_eq_some_iff.mp hends
  have hrun := Pool.run_of_runSchedule hq
  have hcalls : ∀ i, ∀ u ∈ (twice i).drawn,
      (fun u : UUID => some (if u < 20 then 1 else 2)) u = some (ctxOf i).tenant := by decide
  obtain ⟨q', hrun', hcommitted, hprograms⟩ := others_erased similarity (Tables.nodup_keys_empty _)
    (Tables.cohesive_empty _) (fun _ hr => absurd hr List.not_mem_nil) hcalls 1 hrun
  exact ⟨q, q', hrun, hrun', hcommitted, (hprograms true rfl).trans (eq_pure_of_answer hanswer)⟩

end Specimen
end Hawiya
