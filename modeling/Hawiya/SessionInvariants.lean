import Hawiya.SessionAccounts

/-!
# Every account fits the database

Whatever the sessions of a pool do, each within its protocol, the tables stay cohesive and the
account of every session stays true: a commit of one session adds to what the others see, and the
rows about a person that another session knows are not among them, since a transaction writes such
rows only for persons it writes itself. Policies change nothing for these sessions.
-/

namespace Hawiya
open PyString Interaction

namespace BoundDb
variable {ι : Type} [DecidableEq ι] {tenant : UUID} {drawn : UUID → Prop} {k : Account}
variable {s s' : BoundDb ι} {i j : ι}

/-- What a statement of one session is to another session. -/
structure LeavesAlone (j : ι) (s s' : BoundDb ι) : Prop where
  setting : s'.current_tenant j = s.current_tenant j
  pending : s'.db.pending j = s.db.pending j
  changes : s'.db.changesOf j = s.db.changesOf j
  persons : ∀ p ∈ s.db.committed.persons, p ∈ s'.db.committed.persons
  aggregates : ∀ p ∈ (s.db.view j).persons,
    s'.db.committed.identifiersOf p.person_uuid = s.db.committed.identifiersOf p.person_uuid ∧
      s'.db.committed.nameVariantsOf p.person_uuid = s.db.committed.nameVariantsOf p.person_uuid

theorem LeavesAlone.persons_view (h : LeavesAlone j s s') :
    ∀ p ∈ (s.db.view j).persons, p ∈ (s'.db.view j).persons := by
  intro p hp
  rw [Db.view, h.changes, Tables.mem_persons_applyAll]
  exact (Tables.mem_persons_applyAll _).mp hp |>.imp (h.persons p) id

theorem LeavesAlone.aggregate_view (h : LeavesAlone j s s') {u : UUID}
    (hu : (s.db.view j).HasPerson u tenant) :
    (s'.db.view j).identifiersOf u = (s.db.view j).identifiersOf u ∧
      (s'.db.view j).nameVariantsOf u = (s.db.view j).nameVariantsOf u := by
  obtain ⟨p, hp, rfl, -⟩ := hu
  rw [Db.view, Db.view, h.changes]
  exact Tables.aggregate_applyAll_congr (h.aggregates p hp) _

theorem LeavesAlone.facts (h : LeavesAlone j s s') {f : Fact} (hf : f.Holds tenant (s.db.view j)) :
    f.Holds tenant (s'.db.view j) := by
  cases f with
  | person u => exact Tables.HasPerson.mono h.persons_view u tenant hf
  | row p => exact ⟨h.persons_view p hf.1, hf.2⟩
  | identifiers u rows =>
    exact ⟨Tables.HasPerson.mono h.persons_view u tenant hf.1, (h.aggregate_view hf.1).1.trans hf.2⟩
  | nameVariants u rows =>
    exact ⟨Tables.HasPerson.mono h.persons_view u tenant hf.1, (h.aggregate_view hf.1).2.trans hf.2⟩

theorem LeavesAlone.fits (hs : LeavesAlone j s s') (h : s.Fits tenant drawn k j) :
    s'.Fits tenant drawn k j where
  setting := hs.setting.trans h.setting
  pending := hs.pending.trans h.pending
  idle hbound := hs.changes.trans (h.idle hbound)
  changes c hc := by
    rw [hs.changes] at hc
    obtain ⟨htenant, hfresh, hnames⟩ := h.changes c hc
    exact ⟨htenant, hfresh, fun u hu => (hnames u hu).mono hs.persons_view⟩
  owned r hr u hu := by
    rw [hs.changes] at hr ⊢
    exact h.owned r hr u hu
  written u hu := by
    rw [hs.changes]
    exact h.written u hu
  facts f hf := hs.facts (h.facts f hf)

theorem key_of_written {db : Db ι} {p : Person} (hp : .insert (.person p) ∈ db.changesOf i) :
    IndexKey.person p.person_uuid ∈ (db.changesOf i).flatMap Change.keys :=
  List.mem_flatMap.mpr ⟨_, hp, List.mem_singleton_self _⟩

/-- A person that one session has written is not one that another sees. -/
theorem not_seen_of_written {db : Db ι} (hdb : db.Consistent) (hji : j ≠ i) {p p' : Person}
    (hp : p ∈ (db.view j).persons) (hp' : .insert (.person p') ∈ db.changesOf i) :
    p'.person_uuid ≠ p.person_uuid := by
  intro huuid
  have hkey := key_of_written hp'
  obtain ⟨-, huncommitted, hdisjoint⟩ := List.nodup_append.mp hdb
  have hmem : IndexKey.person p'.person_uuid ∈ db.uncommittedKeys :=
    (db.keys_changesOf_perm i).mem_iff.mpr (List.mem_append_left _ hkey)
  rcases (Tables.mem_persons_applyAll _).mp hp with hp | hp
  · have hcommitted : IndexKey.person p'.person_uuid ∈ db.committed.keys := by
      rw [huuid]
      exact Tables.mem_keys.mpr ⟨.person p, Tables.mem_rows.mpr (.inl ⟨p, hp, rfl⟩),
        List.mem_singleton_self _⟩
    exact hdisjoint _ hcommitted _ hmem rfl
  · have hothers :=
      (List.nodup_append.mp ((db.keys_changesOf_perm i).nodup_iff.mp huncommitted)).2.2
    refine hothers _ hkey (.person p.person_uuid) ?_ (congrArg _ huuid)
    refine List.mem_flatMap.mpr ⟨(j, .insert (.person p)), ?_, List.mem_singleton_self _⟩
    exact List.mem_filter.mpr ⟨Db.mem_changesOf.mp hp, decide_eq_true hji⟩

theorem keys_view_nodup {db : Db ι} (hdb : db.Consistent) (i : ι) : (db.view i).keys.Nodup := by
  have hsub : (db.committed.keys ++ (db.changesOf i).flatMap Change.keys).Nodup := by
    have hperm := (db.keys_changesOf_perm i).append_left db.committed.keys
    have hall := hperm.nodup_iff.mp hdb
    rw [← List.append_assoc] at hall
    exact (List.nodup_append.mp hall).1
  exact (db.committed.keys_applyAll _).nodup_iff.mpr hsub

omit [DecidableEq ι] in
theorem hide_of_forall {α : Type} {visible : α → Bool} {r : Except PyError (List α) × BoundDb ι}
    (h : ∀ rows, r.1 = .ok rows → ∀ a ∈ rows, visible a = true) : hide visible r = r := by
  obtain ⟨reply, s⟩ := r
  cases reply with
  | error e => rfl
  | ok rows => exact congrArg (fun l => (Except.ok l, s)) (List.filter_eq_self.mpr (h rows rfl))

omit [DecidableEq ι] in
theorem hide_unforced {α : Type} {tenantOf : α → UUID} (r : Except PyError (List α) × BoundDb ι) :
    hide (fun a => s.admits false i (tenantOf a)) r = r :=
  hide_of_forall (fun _ _ _ _ => rfl)

theorem execStatement_unforced (outcome : Outcome) (op : DbOp) :
    (execStatement false i outcome op s).1 = (Db.exec i outcome op s.db).1 ∧
      (execStatement false i outcome op s).2.db = (Db.exec i outcome op s.db).2 := by
  cases op with
  | updateExtraction => exact ⟨rfl, rfl⟩
  | selectIdentifiers => exact ⟨congrArg Prod.fst (hide_unforced _), rfl⟩
  | selectPersons => exact ⟨congrArg Prod.fst (hide_unforced _), rfl⟩
  | selectPersonIdentifiers => exact ⟨congrArg Prod.fst (hide_unforced _), rfl⟩
  | selectPersonNameVariants => exact ⟨congrArg Prod.fst (hide_unforced _), rfl⟩
  | _ => exact ⟨rfl, rfl⟩

theorem bind_setting_ne (hji : j ≠ i) (tenant_id : Option UUID) :
    (s.bind i tenant_id).current_tenant j = s.current_tenant j := Function.update_of_ne hji _ _

theorem setting_execStatement (hji : j ≠ i) (forced : Bool) (outcome : Outcome) (op : DbOp) :
    (execStatement forced i outcome op s).2.current_tenant j = s.current_tenant j := by
  cases op with
  | commit => exact bind_setting_ne hji none
  | rollback => exact bind_setting_ne hji none
  | insert r =>
    simp only [execStatement]
    split_ifs
    · rfl
    · rfl
  | updateExtraction =>
    simp only [execStatement]
    split_ifs
    · rfl
    · cases outcome with
      | _ => rfl
  | _ => rfl

/-- A policy can only keep a statement from the database. -/
theorem db_execStatement (s : BoundDb ι) (i : ι) (forced : Bool) (outcome : Outcome) (op : DbOp) :
    (execStatement forced i outcome op s).2.db = s.db ∨
      (execStatement forced i outcome op s).2.db = (Db.exec i outcome op s.db).2 := by
  cases op with
  | insert r =>
    simp only [execStatement]
    split_ifs
    · exact .inr rfl
    · exact .inl rfl
  | updateExtraction =>
    simp only [execStatement]
    split_ifs
    · exact .inr rfl
    · cases outcome with
      | _ => exact .inl rfl
  | _ => exact .inr rfl

/-- Which rows a commit adds about persons: only about those the transaction has written. -/
theorem aggregates_committed {db : Db ι} (hdb : db.Consistent) (hji : j ≠ i)
    (howned : ∀ r, .insert r ∈ db.changesOf i → ∀ u ∈ r.reference?,
      ∃ p, .insert (.person p) ∈ db.changesOf i ∧ p.person_uuid = u)
    {p : Person} (hp : p ∈ (db.view j).persons) (outcome : Outcome) (op : DbOp) :
    (Db.exec i outcome op db).2.committed.identifiersOf p.person_uuid =
        db.committed.identifiersOf p.person_uuid ∧
      (Db.exec i outcome op db).2.committed.nameVariantsOf p.person_uuid =
        db.committed.nameVariantsOf p.person_uuid := by
  have heffect := Db.exec_effect i outcome op db
  generalize (Db.exec i outcome op db).2 = db' at heffect ⊢
  cases heffect with
  | commit =>
    apply Tables.aggregate_applyAll
    intro r hr hu
    obtain ⟨p', hp', huuid⟩ := howned r hr _ hu
    exact not_seen_of_written hdb hji hp hp' huuid
  | _ => exact ⟨rfl, rfl⟩

variable (similarity : Str → Str → ℚ)

theorem leavesAlone_statement (hdb : s.db.Consistent) (h : s.Fits tenant drawn k i) (hji : j ≠ i)
    (outcome : Outcome) (op : DbOp) :
    LeavesAlone j s (execStatement false i outcome op s).2 := by
  obtain ⟨-, hexec⟩ := execStatement_unforced (i := i) (s := s) outcome op
  obtain ⟨hchanges, hpending, -⟩ := Db.exec_frame outcome op s.db hji
  constructor
  · exact setting_execStatement hji false outcome op
  · rw [hexec, hpending]
  · rw [hexec, hchanges]
  · rw [hexec]
    exact (Db.exec_committed_mono i outcome op s.db).1
  · rw [hexec]
    exact fun p hp => aggregates_committed hdb hji h.owned hp outcome op

theorem leavesAlone_exec (hdb : s.db.Consistent) (h : s.Fits tenant drawn k i) (hji : j ≠ i)
    (choice : Choice) (op : SessionOp) :
    LeavesAlone j s (exec similarity false i choice op s).2 := by
  have hsame : LeavesAlone j s s :=
    ⟨rfl, rfl, rfl, fun _ hp => hp, fun _ _ => ⟨rfl, rfl⟩⟩
  obtain ⟨outcome, tie⟩ := choice
  cases op with
  | statement op => exact leavesAlone_statement hdb h hji outcome op
  | setConfig tenant_id =>
    cases outcome with
    | accept => exact { hsame with setting := bind_setting_ne hji _ }
    | refuse => exact hsame
  | selectByName tenant_id q limit =>
    rw [exec_selectByName_state]
    exact hsame

theorem fits_start (t : Tables) (i : ι) :
    (start t : BoundDb ι).Fits tenant drawn Account.start i where
  setting := rfl
  pending := rfl
  idle _ := rfl
  changes _ hc := absurd hc List.not_mem_nil
  owned _ hr := absurd hr List.not_mem_nil
  written _ hu := absurd hu List.not_mem_nil
  facts _ hf := absurd hf List.not_mem_nil

theorem Fits.learn (h : s.Fits tenant drawn k i) {facts : List Fact}
    (hfacts : ∀ f ∈ facts, f.Holds tenant (s.db.view i)) : s.Fits tenant drawn (k.learn facts) i :=
  { h with facts := fun f hf => (List.mem_append.mp hf).elim (h.facts f) (hfacts f) }

/-- A transaction that ended, with the account that is left of it. -/
theorem fits_ended {k' : Account} {db : Db ι} (hbound : k'.bound = false)
    (hwritten : k'.written = [])
    (hchanges : db.changesOf i = []) (hpending : db.pending i = k'.pending)
    (hfacts : ∀ f ∈ k'.facts, f.Holds tenant (db.view i)) :
    (bind { s with db := db } i none).Fits tenant drawn k' i where
  setting := by
    rw [hbound]
    exact Function.update_self _ _ _
  pending := hpending
  idle _ := hchanges
  changes c hc := by
    change c ∈ db.changesOf i at hc
    exact absurd (hchanges ▸ hc) List.not_mem_nil
  owned r hr := by
    change .insert r ∈ db.changesOf i at hr
    exact absurd (hchanges ▸ hr) List.not_mem_nil
  written u hu := absurd (hwritten ▸ hu) List.not_mem_nil
  facts := hfacts

theorem changesOf_doCommit_self (db : Db ι) : (db.doCommit i).changesOf i = [] :=
  db.changesOf_endTransaction_self i

theorem view_doCommit_self (db : Db ι) : (db.doCommit i).view i = db.view i := by
  rw [Db.view, changesOf_doCommit_self]
  rfl

theorem Fits.commit (h : s.Fits tenant drawn k i) :
    (bind { s with db := s.db.doCommit i } i none).Fits tenant drawn k.commit i := by
  apply fits_ended
  · rfl
  · rfl
  · exact changesOf_doCommit_self s.db
  · exact h.pending
  · intro f hf
    rw [view_doCommit_self]
    exact h.facts f hf

theorem Fits.abort (h : s.Fits tenant drawn k i) :
    (bind { s with db := s.db.endTransaction i } i none).Fits tenant drawn k.abort i := by
  apply fits_ended
  · rfl
  · rfl
  · exact s.db.changesOf_endTransaction_self i
  · exact h.pending
  · exact fun f hf => absurd hf List.not_mem_nil

theorem fits_rollback (k : Account) :
    (bind { s with db := (s.db.endTransaction i).setPending i [] } i none).Fits tenant drawn
      { k.abort with pending := [] } i := by
  apply fits_ended
  · rfl
  · rfl
  · exact s.db.changesOf_endTransaction_self i
  · exact Function.update_self _ _ _
  · exact fun f hf => absurd hf List.not_mem_nil

theorem Fits.setPending (h : s.Fits tenant drawn k i) (rows : List Row) :
    Fits tenant drawn { k with pending := rows } { s with db := s.db.setPending i rows } i :=
  { h with pending := Function.update_self _ _ _ }

/-- A change of the tenant that names persons the session knows, and rows about a person only where
the transaction has written the person. -/
theorem Fits.record {k' : Account} {c : Change} (h : s.Fits tenant drawn k i)
    (hbound : k.bound = true)
    (hsame : k'.bound = k.bound ∧ k'.pending = k.pending) (htenant : c.tenant_id = tenant)
    (hfresh : ∀ u ∈ c.fresh, drawn u) (hnames : ∀ u ∈ c.names, k.Knows u)
    (howned : ∀ r, c = .insert r → ∀ u ∈ r.reference?, u ∈ k.written)
    (hwritten : ∀ u ∈ k'.written, u ∈ k.written ∨ ∃ p, c = .insert (.person p) ∧ p.person_uuid = u)
    (hfacts : ∀ f ∈ k'.facts, f.Holds tenant ((s.db.view i).apply c)) :
    Fits tenant drawn k' { s with db := s.db.record i c } i := by
  have hchanges : (s.db.record i c).changesOf i = s.db.changesOf i ++ [c] :=
    s.db.changesOf_record_self i c
  have hview : (s.db.record i c).view i = (s.db.view i).apply c := s.db.view_record_self i c
  have hold : ∀ {c'}, c' ∈ s.db.changesOf i → c' ∈ (s.db.record i c).changesOf i := by
    intro c' hc'
    rw [hchanges]
    exact List.mem_append_left _ hc'
  have hnew : c ∈ (s.db.record i c).changesOf i := by
    rw [hchanges]
    exact List.mem_append_right _ (List.mem_singleton_self c)
  have hwrote : ∀ u ∈ k.written,
      ∃ p, .insert (.person p) ∈ (s.db.record i c).changesOf i ∧ p.person_uuid = u := by
    intro u hu
    obtain ⟨p, hp, huuid⟩ := h.written u hu
    exact ⟨p, hold hp, huuid⟩
  have hgrows : ∀ u, (s.db.view i).HasPerson u tenant →
      ((s.db.record i c).view i).HasPerson u tenant := by
    rw [hview]
    exact fun u => Tables.HasPerson.applyAll [c] u tenant
  constructor
  · rw [hsame.1]
    exact h.setting
  · rw [hsame.2]
    exact h.pending
  · intro hidle
    rw [hsame.1, hbound] at hidle
    cases hidle
  · intro c' hc'
    rw [hchanges] at hc'
    rcases List.mem_append.mp hc' with hc' | hc'
    · obtain ⟨htenant', hfresh', hnames'⟩ := h.changes c' hc'
      exact ⟨htenant', hfresh', fun u hu => hgrows u (hnames' u hu)⟩
    · rw [List.mem_singleton.mp hc']
      exact ⟨htenant, hfresh, fun u hu => hgrows u (h.facts _ (hnames u hu))⟩
  · intro r hr u hu
    rw [hchanges] at hr
    rcases List.mem_append.mp hr with hr | hr
    · obtain ⟨p, hp, huuid⟩ := h.owned r hr u hu
      exact ⟨p, hold hp, huuid⟩
    · exact hwrote u (howned r (List.mem_singleton.mp hr).symm u hu)
  · intro u hu
    rcases hwritten u hu with hu | ⟨p, rfl, huuid⟩
    · exact hwrote u hu
    · exact ⟨p, hnew, huuid⟩
  · intro f hf
    rw [hview]
    exact hfacts f hf

theorem Fits.insert (h : s.Fits tenant drawn k i) {r : Row}
    (hmay : k.mayExecute tenant drawn (.insert r)) :
    Fits tenant drawn (k.insert r) { s with db := s.db.record i (.insert r) } i := by
  obtain ⟨hbound, htenant, hfresh, hwritten, hnames⟩ := hmay
  refine h.record hbound ⟨Account.bound_insert, Account.pending_insert⟩ htenant hfresh hnames
    ?_ ?_ ?_
  · intro r' hr'
    cases hr'
    exact hwritten
  · intro u hu
    refine (Account.mem_written_insert.mp hu).imp id (fun hp => ?_)
    obtain ⟨p, rfl, huuid⟩ := hp
    exact ⟨p, rfl, huuid⟩
  · intro f hf
    rcases Account.mem_facts_insert.mp hf with ⟨hknown, hlasting⟩ | ⟨p, rfl, hown⟩
    · exact (h.facts f hknown).mono hlasting
        (fun p hp => Tables.mem_persons_apply _ |>.mpr (.inl hp))
    · exact Fact.holds_ofPerson (Tables.mem_persons_apply _ |>.mpr (.inr rfl)) htenant hown

theorem Fits.link (h : s.Fits tenant drawn k i) {extraction_id tenant_id : UUID}
    {person_uuid : Option UUID} {match_action : String}
    (hmay : k.mayExecute tenant drawn
      (.updateExtraction extraction_id tenant_id person_uuid match_action)) :
    Fits tenant drawn k { s with
      db := s.db.record i (.link extraction_id tenant_id person_uuid match_action) } i := by
  obtain ⟨hbound, htenant, hnames⟩ := hmay
  have hknown : ∀ u ∈ Change.names (.link extraction_id tenant_id person_uuid match_action),
      k.Knows u := fun u hu => hnames u (Option.mem_toList.mp hu)
  refine h.record hbound ⟨rfl, rfl⟩ htenant (fun _ hu => by cases hu) hknown ?_ (fun _ => .inl) ?_
  · intro r hr
    cases hr
  · intro f hf
    have hrows : (s.db.view i).persons =
        ((s.db.view i).apply (.link extraction_id tenant_id person_uuid match_action)).persons :=
          rfl
    have hholds := h.facts f hf
    cases f with
    | identifiers u rows => exact hholds
    | nameVariants u rows => exact hholds
    | person u => exact hholds
    | row p => exact hholds

/-- What is certain of a reply holds of it, and the account after it fits. -/
structure Reports (tenant : UUID) (drawn : UUID → Prop) (k : Account) (i : ι) (op : SessionOp)
    (r : Except PyError op.Reply × BoundDb ι) : Prop where
  expected : k.Expects op r.1
  fits : r.2.Fits tenant drawn (k.after op r.1) i

section Statements
variable {outcome : Outcome}

theorem reports_selectIdentifiers (h : s.Fits tenant drawn k i) (hcohesive : (s.db.view i).Cohesive)
    (identifier_type : IdentifierType) (identifier_value : Str) :
    Reports tenant drawn k i
      (.statement (.selectIdentifiers tenant identifier_type identifier_value))
      (s.pass i outcome (.selectIdentifiers tenant identifier_type identifier_value)) := by
  refine ⟨trivial, ?_⟩
  rcases Db.exec_selectIdentifiers i outcome s.db tenant identifier_type identifier_value with
    hexec | ⟨e, -, hexec⟩
  · rw [pass, hexec]
    apply h.learn
    intro f hf
    obtain ⟨r, hr, rfl⟩ := List.mem_map.mp hf
    obtain ⟨hmem, hactive⟩ := List.mem_filter.mp hr
    have hrow : Row.identifier r ∈ (s.db.view i).rows :=
      Tables.mem_rows.mpr (.inr (.inl ⟨r, hmem, rfl⟩))
    have hperson := hcohesive _ hrow r.person_uuid (List.mem_singleton_self _)
    obtain ⟨htenant, -⟩ := Tables.isActive_iff.mp hactive
    exact htenant ▸ hperson
  · rw [pass, hexec]
    exact h

theorem Fits.learnPersons (h : s.Fits tenant drawn k i) {rows : List Person}
    (hrows : ∀ p ∈ rows, p ∈ (s.db.view i).persons ∧ p.tenant_id = tenant) :
    s.Fits tenant drawn (k.learn (rows.flatMap Fact.ofPerson)) i := by
  apply h.learn
  intro f hf
  obtain ⟨p, hp, hf⟩ := List.mem_flatMap.mp hf
  exact Fact.holds_ofPerson (hrows p hp).1 (hrows p hp).2 hf

theorem reports_selectPersons (h : s.Fits tenant drawn k i) (person_uuid : UUID) :
    Reports tenant drawn k i (.statement (.selectPersons tenant person_uuid))
      (s.pass i outcome (.selectPersons tenant person_uuid)) := by
  cases outcome with
  | refuse => exact ⟨fun _ hrows => (by cases hrows), h⟩
  | accept =>
    have hrows : ∀ p ∈ (s.db.view i).personsWith tenant person_uuid,
        p ∈ (s.db.view i).persons ∧ p.tenant_id = tenant ∧ p.person_uuid = person_uuid := by
      intro p hp
      obtain ⟨hmem, hboth⟩ := List.mem_filter.mp hp
      rw [Bool.and_eq_true, beq_iff_eq, beq_iff_eq] at hboth
      exact ⟨hmem, hboth⟩
    constructor
    · intro rows heq p hp
      cases heq
      exact (hrows p hp).2.2
    · exact h.learnPersons (fun p hp => ⟨(hrows p hp).1, (hrows p hp).2.1⟩)

theorem reports_selectPersonIdentifiers (h : s.Fits tenant drawn k i) {u : UUID} (hu : k.Knows u) :
    Reports tenant drawn k i (.statement (.selectPersonIdentifiers u))
      (s.pass i outcome (.selectPersonIdentifiers u)) := by
  refine ⟨trivial, ?_⟩
  cases outcome with
  | refuse => exact h
  | accept =>
    apply h.learn
    intro f hf
    rw [List.mem_singleton.mp hf]
    exact ⟨h.facts _ hu, rfl⟩

theorem reports_selectPersonNameVariants (h : s.Fits tenant drawn k i) {u : UUID} (hu : k.Knows u) :
    Reports tenant drawn k i (.statement (.selectPersonNameVariants u))
      (s.pass i outcome (.selectPersonNameVariants u)) := by
  refine ⟨trivial, ?_⟩
  cases outcome with
  | refuse => exact h
  | accept =>
    apply h.learn
    intro f hf
    rw [List.mem_singleton.mp hf]
    exact ⟨h.facts _ hu, rfl⟩

theorem reports_insert (h : s.Fits tenant drawn k i) {r : Row}
    (hmay : k.mayExecute tenant drawn (.insert r)) :
    Reports tenant drawn k i (.statement (.insert r)) (s.pass i outcome (.insert r)) := by
  refine ⟨trivial, ?_⟩
  cases outcome with
  | refuse => exact h
  | accept =>
    rcases s.db.doInsert_cases i r with ⟨hok, -, -⟩ | ⟨constraint, herror⟩
    · simp only [pass, Db.exec, hok]
      exact h.insert hmay
    · simp only [pass, Db.exec, herror]
      exact h

theorem reports_updateExtraction (h : s.Fits tenant drawn k i) {extraction_id tenant_id : UUID}
    {person_uuid : Option UUID} {match_action : String}
    (hmay : k.mayExecute tenant drawn
      (.updateExtraction extraction_id tenant_id person_uuid match_action)) :
    Reports tenant drawn k i
      (.statement (.updateExtraction extraction_id tenant_id person_uuid match_action))
      (s.pass i outcome (.updateExtraction extraction_id tenant_id person_uuid match_action)) := by
  refine ⟨trivial, ?_⟩
  cases outcome with
  | refuse => exact h
  | accept =>
    simp only [pass, Db.exec, Db.doUpdateExtraction]
    split_ifs
    · exact h.link hmay
    · exact h

end Statements

theorem Fits.cohesive_view (h : s.Fits tenant drawn k i) (hcohesive : s.db.committed.Cohesive) :
    (s.db.view i).Cohesive := by
  apply hcohesive.applyAll
  intro c hc u hu
  obtain ⟨htenant, -, hnames⟩ := h.changes c hc
  exact htenant ▸ hnames u hu

theorem reports_statement (h : s.Fits tenant drawn k i) (hcohesive : (s.db.view i).Cohesive)
    {op : DbOp}
    (hmay : k.mayExecute tenant drawn op) (outcome : Outcome) :
    Reports tenant drawn k i (.statement op) (execStatement false i outcome op s) := by
  cases op with
  | add r =>
    refine ⟨trivial, ?_⟩
    change Fits tenant drawn _ { s with db := s.db.setPending i (s.db.pending i ++ [r]) } i
    rw [h.pending]
    exact h.setPending _
  | takePending => exact ⟨congrArg Except.ok h.pending, h.setPending []⟩
  | insert r => exact reports_insert h hmay
  | updateExtraction => exact reports_updateExtraction h hmay
  | selectIdentifiers tenant_id identifier_type identifier_value =>
    obtain ⟨-, rfl⟩ := hmay
    rw [execStatement, hide_unforced]
    exact reports_selectIdentifiers h hcohesive identifier_type identifier_value
  | selectPersons tenant_id person_uuid =>
    obtain ⟨-, rfl⟩ := hmay
    rw [execStatement, hide_unforced]
    exact reports_selectPersons h person_uuid
  | selectPersonIdentifiers person_uuid =>
    rw [execStatement, hide_unforced]
    exact reports_selectPersonIdentifiers h hmay.2
  | selectPersonNameVariants person_uuid =>
    rw [execStatement, hide_unforced]
    exact reports_selectPersonNameVariants h hmay.2
  | commit =>
    cases outcome with
    | accept => exact ⟨trivial, h.commit⟩
    | refuse => exact ⟨trivial, h.abort⟩
  | rollback => exact ⟨trivial, fits_rollback k⟩

theorem reports_exec (h : s.Fits tenant drawn k i) (hcohesive : (s.db.view i).Cohesive)
    {op : SessionOp}
    (hmay : k.may tenant drawn op) (choice : Choice) :
    Reports tenant drawn k i op (exec similarity false i choice op s) := by
  obtain ⟨outcome, tie⟩ := choice
  cases op with
  | statement op => exact reports_statement h hcohesive hmay outcome
  | setConfig tenant_id =>
    refine ⟨trivial, ?_⟩
    cases outcome with
    | refuse => exact h
    | accept =>
      cases hmay
      exact { h with
        setting := Function.update_self _ _ _
        idle := fun hidle => by cases hidle }
  | selectByName tenant_id q limit =>
    refine ⟨trivial, ?_⟩
    obtain ⟨-, rfl⟩ := hmay
    rcases exec_selectByName similarity false i ⟨outcome, tie⟩ s tenant_id q limit with
      hexec | ⟨e, -, hexec⟩
    · rw [hexec]
      apply h.learnPersons
      intro p hp
      obtain ⟨hmem, hcandidate⟩ := PersonRepository.mem_selectByName hp
      exact ⟨(List.mem_filter.mp hmem).1, (PersonRepository.isCandidate_iff.mp hcandidate).1⟩
    · rw [hexec]
      exact h

theorem error_pass {outcome : Outcome} {op : DbOp} {e : PyError}
    (he : (s.pass i outcome op).1 = .error e) : e.ofServer = true := by
  cases op with
  | insert r =>
    cases outcome with
    | refuse =>
      cases he
      rfl
    | accept =>
      rcases s.db.doInsert_cases i r with ⟨hok, -⟩ | ⟨e, hserver, herror⟩
      · simp only [pass, Db.exec, hok] at he
        cases he
      · simp only [pass, Db.exec, herror] at he
        cases he
        exact hserver
  | selectIdentifiers tenant_id identifier_type identifier_value =>
    rcases Db.exec_selectIdentifiers i outcome s.db tenant_id identifier_type identifier_value with
      hexec | ⟨e, hserver, hexec⟩
    · rw [pass, hexec] at he
      cases he
    · rw [pass, hexec] at he
      cases he
      exact hserver
  | add => cases he
  | takePending => cases he
  | rollback => cases he
  | _ =>
    cases outcome with
    | accept => cases he
    | refuse =>
      cases he
      rfl

theorem error_exec {choice : Choice} {op : SessionOp} {e : PyError}
    (he : (exec similarity false i choice op s).1 = .error e) : e.ofServer = true := by
  obtain ⟨outcome, tie⟩ := choice
  cases op with
  | statement op =>
    change (execStatement false i outcome op s).1 = .error e at he
    rw [(execStatement_unforced outcome op).1] at he
    exact error_pass he
  | setConfig =>
    cases outcome with
    | accept => cases he
    | refuse =>
      cases he
      rfl
  | selectByName tenant_id q limit =>
    rcases exec_selectByName similarity false i ⟨outcome, tie⟩ s tenant_id q limit with
      hexec | ⟨e, hserver, hexec⟩
    · rw [hexec] at he
      cases he
    · rw [hexec] at he
      cases he
      exact hserver

theorem waits_unforced {op : DbOp} (hw : waits false i (.statement op) s = false) :
    Db.waits i op s.db = false := by
  cases op with
  | insert r => exact hw
  | updateExtraction => exact hw
  | _ => rfl

theorem consistent_exec (hdb : s.db.Consistent) (choice : Choice) {op : SessionOp}
    (hw : waits false i op s = false) : (exec similarity false i choice op s).2.db.Consistent := by
  obtain ⟨outcome, tie⟩ := choice
  cases op with
  | statement op =>
    change (execStatement false i outcome op s).2.db.Consistent
    rw [(execStatement_unforced outcome op).2]
    exact Db.exec_consistent i outcome op s.db (waits_unforced hw) hdb
  | setConfig =>
    cases outcome with
    | _ => exact hdb
  | selectByName tenant_id q limit =>
    rw [exec_selectByName_state]
    exact hdb

theorem committed_exec (s : BoundDb ι) (i : ι) (forced : Bool) (choice : Choice) (op : SessionOp) :
    (exec similarity forced i choice op s).2.db.committed = s.db.committed ∨
      (exec similarity forced i choice op s).2.db.committed = s.db.view i := by
  obtain ⟨outcome, tie⟩ := choice
  cases op with
  | setConfig =>
    cases outcome with
    | _ => exact .inl rfl
  | selectByName tenant_id q limit => exact .inl (by rw [exec_selectByName_state])
  | statement op =>
    change (execStatement forced i outcome op s).2.db.committed = _ ∨
      (execStatement forced i outcome op s).2.db.committed = _
    rcases db_execStatement s i forced outcome op with hdb | hdb
    · exact .inl (congrArg Db.committed hdb)
    · rw [hdb]
      have heffect := Db.exec_effect i outcome op s.db
      generalize (Db.exec i outcome op s.db).2 = db at heffect ⊢
      cases heffect with
      | commit => exact .inr rfl
      | _ => exact .inl rfl

variable {tenants : ι → UUID} {draws : ι → UUID → Prop} {ks : ι → Account}

theorem AllFit.cohesive_view (h : AllFit tenants draws ks s) (i : ι) : (s.db.view i).Cohesive :=
  (h.each i).cohesive_view h.cohesive

/-- Without policies every account stays true. -/
theorem kept_unforced :
    Protocol.Kept (environment similarity false) (fun i => Account.protocol (tenants i) (draws i))
      (AllFit tenants draws) := by
  intro ks s i choice op h hmay hw
  obtain ⟨hexpected, hfits⟩ := reports_exec similarity (h.each i) (h.cohesive_view i) hmay choice
  refine ⟨_, ⟨fun e he => error_exec similarity he, hexpected, rfl⟩, ?_, ?_, fun j => ?_⟩
  · exact consistent_exec similarity h.consistent choice hw
  · change (exec similarity false i choice op s).2.db.committed.Cohesive
    rcases committed_exec similarity s i false choice op with hcommitted | hcommitted
    · rw [hcommitted]
      exact h.cohesive
    · rw [hcommitted]
      exact h.cohesive_view i
  · by_cases hji : j = i
    · subst hji
      rw [Function.update_self]
      exact hfits
    · rw [Function.update_of_ne hji]
      exact (leavesAlone_exec similarity h.consistent (h.each i) hji choice op).fits (h.each j)

theorem allFit_start {t : Tables} (hkeys : t.keys.Nodup) (hcohesive : t.Cohesive) :
    AllFit tenants draws (fun _ => Account.start) (start t) where
  consistent := by
    change (t.keys ++ []).Nodup
    rwa [List.append_nil]
  cohesive := hcohesive
  each i := fits_start t i

/-! ### Policies change nothing -/

theorem Fits.admits (h : s.Fits tenant drawn k i) (hbound : k.bound = true) (forced : Bool) :
    s.admits forced i tenant = true := by
  have hsetting := h.setting
  rw [hbound] at hsetting
  cases forced with
  | false => rfl
  | true => exact beq_iff_eq.mpr hsetting

/-- Who knows a person sees all rows about it. -/
theorem Fits.tenant_of_row (h : s.Fits tenant drawn k i) (hdb : s.db.Consistent)
    (hcohesive : (s.db.view i).Cohesive) {r : Row} (hr : r ∈ (s.db.view i).rows) {u : UUID}
    (hu : k.Knows u) (hnames : u ∈ r.names) : r.tenant_id = tenant := by
  obtain ⟨p, hp, huuid, htenant⟩ := hcohesive r hr u hnames
  obtain ⟨p', hp', huuid', htenant'⟩ := h.facts _ hu
  have heq := (s.db.view i).eq_of_person_uuid (keys_view_nodup hdb i) hp hp'
    (huuid.trans huuid'.symm)
  rw [← htenant, heq, htenant']

theorem Fits.hide_eq (h : s.Fits tenant drawn k i) (hbound : k.bound = true) (forced : Bool)
    {α : Type}
    {tenantOf : α → UUID} {r : Except PyError (List α) × BoundDb ι}
    (hrows : ∀ rows, r.1 = .ok rows → ∀ a ∈ rows, tenantOf a = tenant) :
    hide (fun a => s.admits forced i (tenantOf a)) r = r := by
  apply hide_of_forall
  intro rows heq a ha
  rw [hrows rows heq a ha]
  exact h.admits hbound forced

theorem execStatement_forced (h : s.Fits tenant drawn k i) (hdb : s.db.Consistent)
    (hcohesive : (s.db.view i).Cohesive) {op : DbOp} (hmay : k.mayExecute tenant drawn op)
    (outcome : Outcome) :
    execStatement true i outcome op s = execStatement false i outcome op s := by
  cases op with
  | insert r =>
    obtain ⟨hbound, hsupports⟩ := hmay
    simp only [execStatement, hsupports.tenant_id, h.admits hbound]
  | updateExtraction extraction_id tenant_id person_uuid match_action =>
    obtain ⟨hbound, rfl, -⟩ := hmay
    simp only [execStatement, h.admits hbound]
  | selectIdentifiers tenant_id identifier_type identifier_value =>
    obtain ⟨hbound, rfl⟩ := hmay
    simp only [execStatement, hide_unforced]
    apply h.hide_eq hbound
    intro rows heq r hr
    rcases Db.exec_selectIdentifiers i outcome s.db tenant_id identifier_type identifier_value with
      hexec | ⟨e, -, hexec⟩
    · rw [pass, hexec] at heq
      cases heq
      exact (Tables.isActive_iff.mp (List.mem_filter.mp hr).2).1
    · rw [pass, hexec] at heq
      cases heq
  | selectPersons tenant_id person_uuid =>
    obtain ⟨hbound, rfl⟩ := hmay
    simp only [execStatement, hide_unforced]
    apply h.hide_eq hbound
    intro rows heq p hp
    cases outcome with
    | refuse => cases heq
    | accept =>
      cases heq
      exact beq_iff_eq.mp (Bool.and_eq_true _ _ |>.mp (List.mem_filter.mp hp).2).1
  | selectPersonIdentifiers person_uuid =>
    obtain ⟨hbound, hknows⟩ := hmay
    simp only [execStatement, hide_unforced]
    apply h.hide_eq hbound
    intro rows heq r hr
    cases outcome with
    | refuse => cases heq
    | accept =>
      cases heq
      obtain ⟨hmem, huuid⟩ := List.mem_filter.mp hr
      rw [← beq_iff_eq.mp huuid] at hknows
      exact h.tenant_of_row hdb hcohesive (Tables.mem_rows.mpr (.inr (.inl ⟨r, hmem, rfl⟩))) hknows
        (List.mem_singleton_self _)
  | selectPersonNameVariants person_uuid =>
    obtain ⟨hbound, hknows⟩ := hmay
    simp only [execStatement, hide_unforced]
    apply h.hide_eq hbound
    intro rows heq r hr
    cases outcome with
    | refuse => cases heq
    | accept =>
      cases heq
      obtain ⟨hmem, huuid⟩ := List.mem_filter.mp hr
      rw [← beq_iff_eq.mp huuid] at hknows
      exact h.tenant_of_row hdb hcohesive (Tables.mem_rows.mpr (.inr (.inr (.inl ⟨r, hmem, rfl⟩))))
        hknows (List.mem_singleton_self _)
  | _ => rfl

theorem selectByName_forced (h : s.Fits tenant drawn k i) (hbound : k.bound = true) (forced : Bool)
    (tie : UUID → ℕ) (q : Str) (limit : ℕ) (persons : List Person) :
    PersonRepository.selectByName similarity tie tenant q limit
        (persons.filter (fun p => s.admits forced i p.tenant_id)) =
      PersonRepository.selectByName similarity tie tenant q limit persons := by
  unfold PersonRepository.selectByName
  rw [List.filter_filter]
  congr 1
  apply List.filter_congr
  intro p _
  by_cases hcandidate : PersonRepository.isCandidate similarity tenant q p = true
  · rw [hcandidate, (PersonRepository.isCandidate_iff.mp hcandidate).1, h.admits hbound,
      Bool.and_self]
  · rw [Bool.eq_false_iff.mpr hcandidate, Bool.false_and]

theorem exec_forced (h : s.Fits tenant drawn k i) (hdb : s.db.Consistent)
    (hcohesive : (s.db.view i).Cohesive) {op : SessionOp} (hmay : k.may tenant drawn op)
    (choice : Choice) :
    exec similarity true i choice op s = exec similarity false i choice op s := by
  obtain ⟨outcome, tie⟩ := choice
  cases op with
  | setConfig => rfl
  | statement op => exact execStatement_forced h hdb hcohesive hmay outcome
  | selectByName tenant_id q limit =>
    obtain ⟨hbound, rfl⟩ := hmay
    simp only [exec, selectByName_forced similarity h hbound]

theorem waits_forced (h : s.Fits tenant drawn k i) {op : SessionOp} (hmay : k.may tenant drawn op) :
    waits true i op s = waits false i op s := by
  cases op with
  | setConfig => rfl
  | selectByName => rfl
  | statement op =>
    cases op with
    | insert r =>
      obtain ⟨hbound, hsupports⟩ := hmay
      simp only [waits, hsupports.tenant_id, h.admits hbound]
    | updateExtraction =>
      obtain ⟨hbound, rfl, -⟩ := hmay
      simp only [waits, h.admits hbound]
    | _ => rfl

theorem agree_forced :
    Protocol.Agree (environment similarity false) (environment similarity true)
      (fun i => Account.protocol (tenants i) (draws i)) (AllFit tenants draws) :=
  fun _ _ i _ h hmay => ⟨waits_forced (h.each i) hmay, fun choice =>
    exec_forced similarity (h.each i) h.consistent (h.cohesive_view i) hmay choice⟩

theorem kept (forced : Bool) :
    Protocol.Kept (environment similarity forced) (fun i => Account.protocol (tenants i) (draws i))
      (AllFit tenants draws) := by
  cases forced with
  | false => exact kept_unforced similarity
  | true => exact (kept_unforced similarity).of_agree (agree_forced similarity)

end BoundDb
end Hawiya
