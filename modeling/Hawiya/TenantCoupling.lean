import Hawiya.Lib.TwoRuns
import Hawiya.Requests
import Hawiya.MrzContract
import Hawiya.TenantView

/-!
# A transaction of one tenant on its own database

A transaction of a tenant runs on the shared tables and, with its UUIDs renamed, on the tenant's
view of them. Both sessions stay coupled from one statement to the next: the second database is the
view of the first, and whatever the transaction adds is the tenant's own. So the services answer
the same on both.
-/

namespace Hawiya
open PyString Calendar Interaction Db

/-- Where a tenant's transaction starts: the tenant every UUID was drawn for, the renaming, and the
tables the transaction finds. -/
structure Standpoint where
  owner : UUID → Option UUID
  tenant : UUID
  ρ : Equiv.Perm UUID
  before : Tables

namespace Standpoint
variable (S : Standpoint)

abbrev Own (r : Row) : Prop := r.Own S.owner S.tenant

/-- `t'` is the tenant's view of `t`, where the rows of the others are as before. -/
structure Sees (t t' : Tables) : Prop where
  view : t' = t.project S.ρ S.tenant
  others : t.except S.tenant = S.before.except S.tenant
  owned : t.DrawnFor S.owner

structure Coupled (db db' : Db Unit) : Prop where
  committed : S.Sees db.committed db'.committed
  view : S.Sees (db.view ()) (db'.view ())
  pending : db'.pending () = (db.pending ()).map (Row.rename S.ρ)
  own : ∀ r ∈ db.pending (), S.Own r

def coupling : Coupling DbOp DbOp.Reply PyError (Db Unit) where
  exec := Db.exec () .accept
  states := S.Coupled
  errors := fun e e' => e' = e.rename S.ρ

variable {S} {t t' : Tables} {db db' : Db Unit} {r : Row}

theorem Sees.insert (h : S.Sees t t') (hr : S.Own r) :
    S.Sees (t.insert r) (t'.insert (r.rename S.ρ)) where
  view := by rw [h.view, Tables.project_insert hr.tenant_id]
  others := by rw [Tables.except_insert hr.tenant_id, h.others]
  owned := h.owned.insert (by rw [hr.tenant_id]; exact hr.uuids)

theorem Sees.link (h : S.Sees t t') (extraction_id : UUID) (person_uuid : Option UUID)
    (match_action : String) :
    S.Sees (t.apply (.link extraction_id S.tenant person_uuid match_action))
      (t'.apply (.link (S.ρ extraction_id) S.tenant (person_uuid.map S.ρ) match_action)) where
  view := by rw [h.view, Tables.project_link]
  others := by rw [Tables.except_link, h.others]
  owned := h.owned.link extraction_id S.tenant person_uuid match_action

theorem Coupled.setPending (h : S.Coupled db db') (rows : List Row) (hrows : ∀ r ∈ rows, S.Own r) :
    S.Coupled (db.setPending () rows) (db'.setPending () (rows.map (Row.rename S.ρ))) where
  committed := h.committed
  view := h.view
  pending := by simp [Db.setPending]
  own := by simpa [Db.setPending] using hrows

theorem Coupled.record (h : S.Coupled db db') {c c' : Change}
    (hc : S.Sees ((db.view ()).apply c) ((db'.view ()).apply c')) :
    S.Coupled (db.record () c) (db'.record () c') where
  committed := h.committed
  view := by
    rw [view_record_self, view_record_self]
    exact hc
  pending := h.pending
  own := h.own

theorem view_doCommit (db : Db Unit) : (db.doCommit ()).view () = db.view () := by
  have hclosed : (db.doCommit ()).changesOf () = [] := changesOf_endTransaction_self db ()
  rw [Db.view, hclosed]
  rfl

theorem Coupled.commit (h : S.Coupled db db') : S.Coupled (db.doCommit ()) (db'.doCommit ()) where
  committed := h.view
  view := by
    rw [view_doCommit, view_doCommit]
    exact h.view
  pending := h.pending
  own := h.own

theorem view_endTransaction (db : Db Unit) : (db.endTransaction ()).view () = db.committed := by
  rw [Db.view, changesOf_endTransaction_self]
  rfl

theorem Coupled.endTransaction (h : S.Coupled db db') :
    S.Coupled (db.endTransaction ()) (db'.endTransaction ()) where
  committed := h.committed
  view := by
    rw [view_endTransaction, view_endTransaction]
    exact h.committed
  pending := h.pending
  own := h.own

theorem Coupled.start (howned : S.before.DrawnFor S.owner) :
    S.Coupled (Db.start S.before) (Db.start (S.before.project S.ρ S.tenant)) where
  committed := ⟨rfl, rfl, howned⟩
  view := ⟨rfl, rfl, howned⟩
  pending := rfl
  own := fun _ h => absurd h List.not_mem_nil

theorem alike_execute (op op' : DbOp) {Q : op.Reply → op'.Reply → Prop}
    (h : ∀ db db', S.Coupled db db' →
      EndsAlike Q (fun e e' => e' = e.rename S.ρ) (Db.exec () .accept op db).1
        (Db.exec () .accept op' db').1 ∧
      S.Coupled (Db.exec () .accept op db).2 (Db.exec () .accept op' db').2) :
    S.coupling.Alike Q (execute op) (execute op') :=
  Coupling.Alike.perform h

theorem alike_add (hr : S.Own r) :
    S.coupling.Alike (fun _ _ => True) (Session.add r) (Session.add (r.rename S.ρ)) := by
  refine alike_execute (.add r) (.add (r.rename S.ρ)) ?_
  intro db db' h
  refine ⟨.ok trivial, ?_⟩
  have hpending := h.setPending (db.pending () ++ [r]) (by
    intro r' hr'
    rcases List.mem_append.mp hr' with hr' | hr'
    · exact h.own r' hr'
    · exact List.mem_singleton.mp hr' ▸ hr)
  rw [List.map_append, ← h.pending] at hpending
  exact hpending

theorem alike_takePending :
    S.coupling.Alike (fun rows rows' => rows' = rows.map (Row.rename S.ρ) ∧ ∀ r ∈ rows, S.Own r)
      Session.takePending Session.takePending := by
  refine alike_execute .takePending .takePending ?_
  intro db db' h
  refine ⟨.ok ⟨h.pending, h.own⟩, ?_⟩
  exact h.setPending [] (fun _ hr => absurd hr List.not_mem_nil)

theorem alike_insert (hr : S.Own r) :
    S.coupling.Alike (fun _ _ => True) (Session.insert r) (Session.insert (r.rename S.ρ)) := by
  refine alike_execute (.insert r) (.insert (r.rename S.ρ)) ?_
  intro db db' h
  have hkey := Tables.find_key_project S.ρ h.view.owned hr
  have href := Tables.referenceHolds_project S.ρ h.view.owned hr
  rw [← h.view.view] at hkey href
  simp only [Db.exec, Db.doInsert, r.storable_rename, hkey, href, r.foreignKey_rename]
  by_cases hstorable : r.Storable
  · rw [if_pos hstorable, if_pos hstorable]
    cases (r.keys.find? (fun k => k ∈ (db.view ()).keys)) with
    | some k =>
      refine ⟨.error ?_, h⟩
      change PyError.integrityError _ = PyError.integrityError _
      rw [IndexKey.constraint_rename]
    | none =>
      simp only [Option.map_none]
      split_ifs with hholds
      · exact ⟨.ok trivial, h.record (h.view.insert hr)⟩
      · exact ⟨.error rfl, h⟩
  · rw [if_neg hstorable, if_neg hstorable]
    exact ⟨.error rfl, h⟩

theorem alike_updateExtraction (extraction_id : UUID) (person_uuid : Option UUID)
    (match_action : String) :
    S.coupling.Alike (fun _ _ => True)
      (execute (.updateExtraction extraction_id S.tenant person_uuid match_action))
      (execute (.updateExtraction (S.ρ extraction_id) S.tenant (person_uuid.map S.ρ)
        match_action)) := by
  apply alike_execute
  intro db db' h
  refine ⟨.ok trivial, ?_⟩
  have hany : (db'.view ()).extractions.any (fun r => r.isExtraction (S.ρ extraction_id) S.tenant) =
      (db.view ()).extractions.any (fun r => r.isExtraction extraction_id S.tenant) := by
    rw [h.view.view, Tables.any_extraction_project]
  simp only [Db.exec, Db.doUpdateExtraction, hany]
  split_ifs with hfound
  · exact h.record (h.view.link ..)
  · exact h

theorem alike_selectIdentifiers (identifier_type : IdentifierType) (identifier_value : Str) :
    S.coupling.Alike (fun l l' => l' = l.map (PersonIdentifier.rename S.ρ))
      (execute (.selectIdentifiers S.tenant identifier_type identifier_value))
      (execute (.selectIdentifiers S.tenant identifier_type identifier_value)) := by
  apply alike_execute
  intro db db' h
  simp only [Db.exec]
  split_ifs with hnul
  · exact ⟨.error rfl, h⟩
  · refine ⟨.ok ?_, h⟩
    rw [h.view.view, Tables.activeIdentifiers_project]

/-- A person the tenant is shown was drawn for the tenant. -/
theorem alike_selectPersons (person_uuid : UUID) :
    S.coupling.Alike (fun l l' => l' = l.map (Person.rename S.ρ) ∧
        ∀ p ∈ l, S.owner p.person_uuid = some S.tenant)
      (execute (.selectPersons S.tenant person_uuid))
      (execute (.selectPersons S.tenant (S.ρ person_uuid))) := by
  refine alike_execute (.selectPersons S.tenant person_uuid)
    (.selectPersons S.tenant (S.ρ person_uuid)) ?_
  intro db db' h
  refine ⟨.ok ⟨?_, ?_⟩, h⟩
  · rw [h.view.view, Tables.persons_project]
  · intro p hp
    obtain ⟨hmem, hselected⟩ := List.mem_filter.mp hp
    rw [Bool.and_eq_true, beq_iff_eq] at hselected
    rw [← hselected.1]
    exact h.view.owned.person hmem

theorem alike_selectPersonIdentifiers {person_uuid : UUID}
    (hu : S.owner person_uuid = some S.tenant) :
    S.coupling.Alike (fun l l' => l' = l.map (PersonIdentifier.rename S.ρ))
      (execute (.selectPersonIdentifiers person_uuid))
      (execute (.selectPersonIdentifiers (S.ρ person_uuid))) := by
  refine alike_execute (.selectPersonIdentifiers person_uuid)
    (.selectPersonIdentifiers (S.ρ person_uuid)) ?_
  intro db db' h
  refine ⟨.ok ?_, h⟩
  rw [h.view.view, Tables.identifiersOf_project h.view.owned hu]

theorem alike_selectPersonNameVariants {person_uuid : UUID}
    (hu : S.owner person_uuid = some S.tenant) :
    S.coupling.Alike (fun l l' => l' = l.map (PersonNameVariant.rename S.ρ))
      (execute (.selectPersonNameVariants person_uuid))
      (execute (.selectPersonNameVariants (S.ρ person_uuid))) := by
  refine alike_execute (.selectPersonNameVariants person_uuid)
    (.selectPersonNameVariants (S.ρ person_uuid)) ?_
  intro db db' h
  refine ⟨.ok ?_, h⟩
  rw [h.view.view, Tables.nameVariantsOf_project h.view.owned hu]

theorem alike_commit :
    S.coupling.Alike (fun _ _ => True) Session.commit Session.commit := by
  refine alike_execute .commit .commit ?_
  intro db db' h
  exact ⟨.ok trivial, h.commit⟩

theorem alike_rollback :
    S.coupling.Alike (fun _ _ => True) Session.rollback Session.rollback := by
  refine alike_execute .rollback .rollback ?_
  intro db db' h
  exact ⟨.ok trivial, h.endTransaction.setPending [] (fun _ hr => absurd hr List.not_mem_nil)⟩

theorem alike_flush : S.coupling.Alike (fun _ _ => True) Session.flush Session.flush := by
  apply alike_takePending.bind
  rintro rows _ ⟨rfl, hown⟩
  have hrows : List.Forall₂ (fun r r' => S.Own r ∧ r' = r.rename S.ρ) rows
      (rows.map (Row.rename S.ρ)) :=
    List.forall₂_map_right_iff.mpr (List.forall₂_same.mpr (fun r hr => ⟨hown r hr, rfl⟩))
  apply Coupling.Alike.forM hrows
  rintro r _ ⟨hr, rfl⟩
  exact alike_insert hr

section
variable {α β : Type} {Q : α → β → Prop}

theorem alike_closeSession {r : Except PyError α} {r' : Except PyError β}
    (h : EndsAlike Q S.coupling.errors r r') :
    S.coupling.Alike Q (closeSession r) (closeSession r') := by
  cases h with
  | error he =>
    apply alike_rollback.bind
    intro _ _ _
    exact Coupling.Alike.throw he
  | ok hQ =>
    have hcommit : S.coupling.Alike (fun _ _ => True) (do Session.flush; Session.commit)
        (do Session.flush; Session.commit) := alike_flush.bind (fun _ _ _ => alike_commit)
    apply hcommit.handle
    intro r r' hends
    cases hends with
    | ok _ => exact Coupling.Alike.pure hQ
    | error he =>
      apply alike_rollback.bind
      intro _ _ _
      exact Coupling.Alike.throw he

theorem alike_getSession (ctx : RequestContext) {tx : Tx α} {tx' : Tx β}
    (h : S.coupling.Alike Q tx tx') :
    S.coupling.Alike Q (getSession ctx tx) (getSession ctx tx') := by
  unfold getSession
  cases ctx.tenant_id with
  | none => exact Coupling.Alike.throw rfl
  | some tenant_id =>
    apply h.handle
    intro r r' hends
    exact alike_closeSession hends

/-- A whole transaction: related results, and the other tenants' rows as they were. -/
theorem transact_alike (ctx : RequestContext) {tx : Tx α} {tx' : Tx β}
    (howned : S.before.DrawnFor S.owner) (h : S.coupling.Alike Q tx tx') :
    EndsAlike Q S.coupling.errors (transact ctx tx S.before).1
        (transact ctx tx' (S.before.project S.ρ S.tenant)).1 ∧
      S.Sees (transact ctx tx S.before).2 (transact ctx tx' (S.before.project S.ρ S.tenant)).2 := by
  obtain ⟨hends, hcoupled⟩ := alike_getSession ctx h _ _ (Coupled.start howned)
  exact ⟨hends, hcoupled.committed⟩

theorem alike_tryCatch {tx : Tx α} {tx' : Tx β} {answer : PyError → Tx α}
    {answer' : PyError → Tx β} (h : S.coupling.Alike Q tx tx')
    (hanswer : ∀ e, S.coupling.Alike Q (answer e) (answer' (e.rename S.ρ))) :
    S.coupling.Alike Q (tryCatch tx answer) (tryCatch tx' answer') := by
  rw [Program.tryCatch_def, Program.tryCatch_def]
  apply h.handle
  intro r r' hends
  cases hends with
  | ok hQ => exact Coupling.Alike.pure hQ
  | error he =>
    rw [show _ = PyError.rename S.ρ _ from he]
    exact hanswer _

theorem alike_requiresTenant (ctx : RequestContext) (tenant_id : UUID) {tx : Tx α} {tx' : Tx β}
    (h : S.coupling.Alike Q tx tx') :
    S.coupling.Alike Q (requiresTenant ctx tenant_id tx) (requiresTenant ctx tenant_id tx') := by
  have hid : S.coupling.Alike (fun u u' => u' = u) (liftM (requireTenantId ctx) : Tx UUID)
      (liftM (requireTenantId ctx) : Tx UUID) := by
    apply Coupling.Alike.liftM
    unfold requireTenantId
    cases ctx.tenant_id with
    | none => exact .error rfl
    | some tenant_id => exact .ok rfl
  apply hid.bind
  rintro _ ctx_tenant rfl
  by_cases hcross : tenant_id ≠ ctx_tenant
  · rw [if_pos hcross, if_pos hcross]
    exact Coupling.Alike.throw rfl
  · rw [if_neg hcross, if_neg hcross]
    exact h

end

end Standpoint
end Hawiya
