import Hawiya.Database

/-!
# What statements preserve

Whatever the transactions do, no two rows, committed or not, share a key of a unique index; every
identifier a transaction sees has its person; committed persons and identifiers stay; and a
statement of one transaction leaves the session, the open changes and the log entries of the
others alone.
-/

namespace Hawiya
open PyString Calendar Interaction

theorem Row.keys_nodup (r : Row) : r.keys.Nodup := by
  cases r with
  | person r => exact List.nodup_singleton _
  | extraction r => exact List.nodup_singleton _
  | identifier r =>
    change r.keys.Nodup
    unfold PersonIdentifier.keys
    by_cases h : r.status = .active
    · rw [if_pos h]
      exact List.nodup_singleton _
    · rw [if_neg h]
      exact List.nodup_nil
  | _ => exact List.nodup_nil

/-- Every identifier has its person. -/
def Tables.Referential (t : Tables) : Prop :=
  ∀ r ∈ t.identifiers, ∃ p ∈ t.persons, p.person_uuid = r.person_uuid

namespace Db
variable {ι : Type}

def uncommittedKeys (db : Db ι) : List IndexKey := db.uncommitted.flatMap (fun e => e.2.keys)

/-- No two rows, committed or not, share a key of a unique index. -/
def Consistent (db : Db ι) : Prop := (db.committed.keys ++ db.uncommittedKeys).Nodup

theorem Consistent.committed {db : Db ι} (h : db.Consistent) : db.committed.keys.Nodup :=
  (List.nodup_append.mp h).1

theorem mem_uncommittedKeys {db : Db ι} {k : IndexKey} :
    k ∈ db.uncommittedKeys ↔ ∃ e ∈ db.uncommitted, k ∈ e.2.keys := by
  simp only [uncommittedKeys, List.mem_flatMap]

theorem Consistent.record_link {db : Db ι} {i : ι} (h : db.Consistent) (extraction_id tenant_id : UUID)
    (person_uuid : Option UUID) (match_action : String) :
    (db.record i (.link extraction_id tenant_id person_uuid match_action)).Consistent := by
  simpa [Consistent, uncommittedKeys, record, Change.keys] using h

variable [DecidableEq ι] {db : Db ι} {i j : ι}

theorem mem_changesOf {c : Change} : c ∈ db.changesOf i ↔ (i, c) ∈ db.uncommitted := by
  simp only [changesOf, List.mem_map, List.mem_filter, decide_eq_true_eq, Prod.exists]
  constructor
  · rintro ⟨j, d, ⟨h, rfl⟩, rfl⟩
    exact h
  · exact fun h => ⟨i, c, ⟨h, rfl⟩, rfl⟩

theorem keys_changesOf_perm (db : Db ι) (i : ι) :
    db.uncommittedKeys.Perm ((db.changesOf i).flatMap Change.keys ++
      (db.uncommitted.filter (fun e => e.1 ≠ i)).flatMap (fun e => e.2.keys)) := by
  have hsplit := (List.filter_append_perm (fun e : ι × Change => e.1 = i) db.uncommitted).symm
  refine (List.Perm.flatMap_right _ hsplit).trans ?_
  rw [List.flatMap_append, changesOf, List.flatMap_map]
  simp

theorem mem_keys_view {k : IndexKey} :
    k ∈ (db.view i).keys ↔ k ∈ db.committed.keys ∨ k ∈ (db.changesOf i).flatMap Change.keys := by
  rw [view, (db.committed.keys_applyAll _).mem_iff, List.mem_append]

theorem not_mem_others_of_waits {r : Row} (h : waits i (.insert r) db = false)
    (hstorable : r.Storable) {k : IndexKey} (hk : k ∈ r.keys) {e : ι × Change}
    (he : e ∈ db.uncommitted) (hei : e.1 ≠ i) : k ∉ e.2.keys := by
  simp only [waits, decide_eq_true hstorable, Bool.true_and, List.any_eq_false, Bool.and_eq_true,
    decide_eq_true_eq, List.any_eq_true, not_and, not_exists] at h
  exact h e he hei k hk

theorem Consistent.record_insert (h : db.Consistent) {r : Row}
    (hw : waits i (.insert r) db = false) (hstorable : r.Storable)
    (hfree : (db.view i).KeysFree r) : (db.record i (.insert r)).Consistent := by
  have hkeys : (db.record i (.insert r)).uncommittedKeys = db.uncommittedKeys ++ r.keys := by
    simp [uncommittedKeys, record, Change.keys]
  rw [Consistent, hkeys, committed_record, ← List.append_assoc]
  refine List.nodup_append.mpr ⟨h, r.keys_nodup, ?_⟩
  rintro k hk _ hk' rfl
  have hview := hfree k hk'
  rw [mem_keys_view, not_or] at hview
  rcases List.mem_append.mp hk with hk | hk
  · exact hview.1 hk
  · obtain ⟨e, he, hke⟩ := mem_uncommittedKeys.mp hk
    by_cases hei : e.1 = i
    · subst hei
      exact hview.2 (List.mem_flatMap.mpr ⟨e.2, mem_changesOf.mpr he, hke⟩)
    · exact not_mem_others_of_waits hw hstorable hk' he hei hke

theorem Consistent.endTransaction (h : db.Consistent) (i : ι) :
    (db.endTransaction i).Consistent := by
  have hsub : List.Sublist (db.endTransaction i).uncommittedKeys db.uncommittedKeys :=
    List.filter_sublist.flatMap _
  exact h.sublist (hsub.append_left _)

theorem Consistent.doCommit (h : db.Consistent) (i : ι) : (db.doCommit i).Consistent := by
  have hperm : ((db.doCommit i).committed.keys ++ (db.doCommit i).uncommittedKeys).Perm
      (db.committed.keys ++ db.uncommittedKeys) := by
    refine ((db.committed.keys_applyAll (db.changesOf i)).append_right _).trans ?_
    rw [List.append_assoc]
    exact (db.keys_changesOf_perm i).symm.append_left _
  exact hperm.nodup_iff.mpr h

theorem doInsert_cases (db : Db ι) (i : ι) (r : Row) :
    (db.doInsert i r = (.ok (), db.record i (.insert r)) ∧ r.Storable ∧ (db.view i).KeysFree r ∧
      (db.view i).ReferenceHolds r) ∨
    ∃ e, e.ofServer = true ∧ db.doInsert i r = (.error e, db) := by
  unfold doInsert
  by_cases hstorable : r.Storable
  · rw [if_pos hstorable]
    cases hfind : r.keys.find? (fun k => k ∈ (db.view i).keys) with
    | some k => exact .inr ⟨_, rfl, rfl⟩
    | none =>
      by_cases href : (db.view i).ReferenceHolds r
      · refine .inl ⟨by rw [if_pos href], hstorable, ?_, href⟩
        intro k hk
        simpa using List.find?_eq_none.mp hfind k hk
      · exact .inr ⟨_, rfl, by rw [if_neg href]⟩
  · exact .inr ⟨_, rfl, by rw [if_neg hstorable]⟩

theorem doInsert_of_accepts {r : Row} (hstorable : r.Storable) (hfree : (db.view i).KeysFree r)
    (href : (db.view i).ReferenceHolds r) :
    db.doInsert i r = (.ok (), db.record i (.insert r)) := by
  have hnone : r.keys.find? (fun k => k ∈ (db.view i).keys) = none :=
    List.find?_eq_none.mpr (fun k hk => by simpa using hfree k hk)
  simp only [doInsert, hnone, if_pos hstorable, if_pos href]

/-- A lookup of identifiers shows the active ones or raises. -/
theorem exec_selectIdentifiers (i : ι) (outcome : Outcome) (db : Db ι) (tenant_id : UUID)
    (identifier_type : IdentifierType) (identifier_value : Str) :
    exec i outcome (.selectIdentifiers tenant_id identifier_type identifier_value) db =
        (.ok ((db.view i).activeIdentifiers tenant_id identifier_type identifier_value), db) ∨
      ∃ e, e.ofServer = true ∧
        exec i outcome (.selectIdentifiers tenant_id identifier_type identifier_value) db =
          (.error e, db) := by
  cases outcome with
  | refuse => exact .inr ⟨_, rfl, rfl⟩
  | accept =>
    by_cases hnul : nul ∈ identifier_value
    · exact .inr ⟨.dbapiError, rfl, by simp only [exec, if_pos hnul]⟩
    · exact .inl (by simp only [exec, if_neg hnul])

theorem exec_selectIdentifiers_state (i : ι) (outcome : Outcome) (db : Db ι) (tenant_id : UUID)
    (identifier_type : IdentifierType) (identifier_value : Str) :
    (exec i outcome (.selectIdentifiers tenant_id identifier_type identifier_value) db).2 = db := by
  rcases exec_selectIdentifiers i outcome db tenant_id identifier_type identifier_value with
    h | ⟨e, -, h⟩
  · rw [h]
  · rw [h]

/-- What a statement does to the database. -/
inductive Effect (i : ι) (op : DbOp) (db : Db ι) : Db ι → Prop
  | same : Effect i op db db
  | session (rows : List Row) (h : op = .takePending ∨ ∃ r, op = .add r) :
      Effect i op db (db.setPending i rows)
  | insert (r : Row) (h : op = .insert r) (storable : r.Storable)
      (free : (db.view i).KeysFree r) (reference : (db.view i).ReferenceHolds r) : Effect i op db (db.record i (.insert r))
  | link (extraction_id tenant_id : UUID) (person_uuid : Option UUID) (match_action : String)
      (h : op = .updateExtraction extraction_id tenant_id person_uuid match_action) :
      Effect i op db (db.record i (.link extraction_id tenant_id person_uuid match_action))
  | abort (h : op = .commit) : Effect i op db (db.endTransaction i)
  | rollback (h : op = .rollback) : Effect i op db ((db.endTransaction i).setPending i [])
  | commit (h : op = .commit) : Effect i op db (db.doCommit i)

theorem exec_effect (i : ι) (outcome : Outcome) (op : DbOp) (db : Db ι) :
    Effect i op db (exec i outcome op db).2 := by
  cases op with
  | add r => exact .session _ (.inr ⟨r, rfl⟩)
  | takePending => exact .session _ (.inl rfl)
  | rollback => exact .rollback rfl
  | commit =>
    cases outcome with
    | accept => exact .commit rfl
    | refuse => exact .abort rfl
  | insert r =>
    cases outcome with
    | refuse => exact .same
    | accept =>
      rcases db.doInsert_cases i r with ⟨h, hstorable, hfree, href⟩ | ⟨e, -, h⟩
      · simp only [exec, h]
        exact .insert r rfl hstorable hfree href
      · simp only [exec, h]
        exact .same
  | updateExtraction extraction_id tenant_id person_uuid match_action =>
    cases outcome with
    | refuse => exact .same
    | accept =>
      simp only [exec, doUpdateExtraction]
      split_ifs
      · exact .link _ _ _ _ rfl
      · exact .same
  | selectIdentifiers tenant_id identifier_type identifier_value =>
    rw [exec_selectIdentifiers_state]
    exact .same
  | selectPersons => cases outcome <;> exact .same
  | selectPersonIdentifiers => cases outcome <;> exact .same
  | selectPersonNameVariants => cases outcome <;> exact .same

theorem exec_consistent (i : ι) (outcome : Outcome) (op : DbOp) (db : Db ι)
    (hw : waits i op db = false) (h : db.Consistent) : (exec i outcome op db).2.Consistent := by
  have heffect := exec_effect i outcome op db
  generalize (exec i outcome op db).2 = db' at heffect ⊢
  cases heffect with
  | same => exact h
  | session rows => exact h
  | insert r hop hstorable hfree =>
    subst hop
    exact h.record_insert hw hstorable hfree
  | link => exact h.record_link _ _ _ _
  | abort => exact h.endTransaction i
  | rollback => exact h.endTransaction i
  | commit => exact h.doCommit i

/-- Committed persons and identifiers stay. -/
theorem exec_committed_mono (i : ι) (outcome : Outcome) (op : DbOp) (db : Db ι) :
    (∀ p ∈ db.committed.persons, p ∈ (exec i outcome op db).2.committed.persons) ∧
    ∀ r ∈ db.committed.identifiers, r ∈ (exec i outcome op db).2.committed.identifiers := by
  have heffect := exec_effect i outcome op db
  generalize (exec i outcome op db).2 = db' at heffect ⊢
  cases heffect with
  | commit =>
    exact ⟨fun p hp => (db.committed.mem_persons_applyAll).mpr (.inl hp),
      fun r hr => (db.committed.mem_identifiers_applyAll).mpr (.inl hr)⟩
  | _ => exact ⟨fun p hp => hp, fun r hr => hr⟩

/-- A statement of one transaction does not touch the others. -/
theorem exec_frame (outcome : Outcome) (op : DbOp) (db : Db ι) (h : j ≠ i) :
    (exec i outcome op db).2.changesOf j = db.changesOf j ∧
    (exec i outcome op db).2.pending j = db.pending j ∧
    ∀ cs, (j, cs) ∈ (exec i outcome op db).2.log ↔ (j, cs) ∈ db.log := by
  have heffect := exec_effect i outcome op db
  generalize (exec i outcome op db).2 = db' at heffect ⊢
  cases heffect with
  | same => exact ⟨rfl, rfl, fun _ => .rfl⟩
  | session rows => exact ⟨rfl, Function.update_of_ne h _ _, fun _ => .rfl⟩
  | insert r => exact ⟨changesOf_record_ne _ _ h.symm _, rfl, fun _ => .rfl⟩
  | link => exact ⟨changesOf_record_ne _ _ h.symm _, rfl, fun _ => .rfl⟩
  | abort => exact ⟨changesOf_endTransaction_ne _ _ h.symm, rfl, fun _ => .rfl⟩
  | rollback =>
    exact ⟨changesOf_endTransaction_ne _ _ h.symm, Function.update_of_ne h _ _, fun _ => .rfl⟩
  | commit =>
    refine ⟨changesOf_endTransaction_ne _ _ h.symm, rfl, fun cs => ?_⟩
    simp [doCommit, h]

end Db
end Hawiya
