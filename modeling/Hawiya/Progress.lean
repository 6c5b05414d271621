import Hawiya.ApiRuns
import Hawiya.Lib.Progress
import Hawiya.OrderedCalls

/-!
# No deadlock

Whoever waits for a key waits for a session that is further in the order, and whoever waits for an
extraction to be linked holds no key. So among the sessions that are left there is always one that
does not wait, with or without policies, and whatever the server refuses: all requests end.
-/

namespace Hawiya
open PyString Calendar Interaction

namespace Db
variable {ι : Type} [DecidableEq ι]

/-- What the account says of the transaction. A link is to a row the transaction sees. -/
structure Holds (x : UUID) (k : Locks) (db : Db ι) (i : ι) : Prop where
  pending : db.pending i = k.pending
  keys : ∀ c ∈ db.changesOf i, ∀ key ∈ c.keys, key.rank < k.level
  inserted : k.inserted = true → ∃ c ∈ db.changesOf i, .extraction x ∈ c.keys
  links : ∀ c ∈ db.changesOf i, ∀ u, c.updates u = true →
    k.linked = true ∧ u = x ∧ .extraction x ∈ (db.view i).keys

variable {x : UUID} {k : Locks} {db db' : Db ι} {i j : ι}

theorem holds_of_no_changes {pending : List Row} (hpending : db.pending i = pending)
    (hchanges : db.changesOf i = []) : Holds x { pending := pending } db i where
  pending := hpending
  keys c hc := by
    rw [hchanges] at hc
    cases hc
  inserted h := by cases h
  links c hc := by
    rw [hchanges] at hc
    cases hc

/-- What another session does leaves the account true. -/
theorem Holds.frame (h : Holds x k db i) (hpending : db'.pending i = db.pending i)
    (hchanges : db'.changesOf i = db.changesOf i)
    (hcommitted : ∀ key ∈ db.committed.keys, key ∈ db'.committed.keys) : Holds x k db' i where
  pending := hpending.trans h.pending
  keys := by
    rw [hchanges]
    exact h.keys
  inserted := by
    rw [hchanges]
    exact h.inserted
  links := by
    rw [hchanges]
    intro c hc u hu
    obtain ⟨hlinked, hx, hkey⟩ := h.links c hc u hu
    refine ⟨hlinked, hx, mem_keys_view.mpr ?_⟩
    rw [hchanges]
    exact (mem_keys_view.mp hkey).imp_left (hcommitted _)

theorem committed_keys_mono (i : ι) (outcome : Outcome) (op : DbOp) (db : Db ι) :
    ∀ key ∈ db.committed.keys, key ∈ (exec i outcome op db).2.committed.keys := by
  intro key hkey
  have heffect := exec_effect i outcome op db
  generalize (exec i outcome op db).2 = db' at heffect ⊢
  cases heffect with
  | commit => exact mem_keys_view.mpr (.inl hkey)
  | _ => exact hkey

theorem Holds.exec_other (h : Holds x k db j) (hji : j ≠ i) (outcome : Outcome) (op : DbOp) :
    Holds x k (exec i outcome op db).2 j := by
  obtain ⟨hchanges, hpending, -⟩ := exec_frame outcome op db hji
  exact h.frame hpending hchanges (committed_keys_mono i outcome op db)

theorem Holds.linked (h : Holds x k db i) : Holds x { k with linked := true } db i :=
  { h with links := fun c hc u hu => ⟨rfl, (h.links c hc u hu).2⟩ }

/-- One more change, by which the account grows. -/
theorem Holds.record (h : Holds x k db i) {k' : Locks} {c : Change}
    (hpending : k'.pending = k.pending) (hlevel : k.level ≤ k'.level)
    (hlinked : k.linked = true → k'.linked = true) (hkeys : ∀ key ∈ c.keys, key.rank < k'.level)
    (hinserted : k'.inserted = true → k.inserted = true ∨ .extraction x ∈ c.keys)
    (hlinks : ∀ u, c.updates u = true →
      k'.linked = true ∧ u = x ∧ .extraction x ∈ (db.view i).keys) :
    Holds x k' (db.record i c) i where
  pending := h.pending.trans hpending.symm
  keys c' hc' key hkey := by
    rw [changesOf_record_self] at hc'
    rcases List.mem_append.mp hc' with hc' | hc'
    · exact (h.keys c' hc' key hkey).trans_le hlevel
    · rw [List.mem_singleton.mp hc'] at hkey
      exact hkeys key hkey
  inserted hk' := by
    rw [changesOf_record_self]
    rcases hinserted hk' with hk | hkey
    · obtain ⟨c', hc', hkey⟩ := h.inserted hk
      exact ⟨c', List.mem_append_left _ hc', hkey⟩
    · exact ⟨c, List.mem_append_right _ (List.mem_singleton_self c), hkey⟩
  links c' hc' u hu := by
    have hview : ∀ key ∈ (db.view i).keys, key ∈ ((db.record i c).view i).keys := by
      intro key hkey
      refine mem_keys_view.mpr ((mem_keys_view.mp hkey).imp_right (fun hkey => ?_))
      rw [changesOf_record_self, List.flatMap_append]
      exact List.mem_append_left _ hkey
    rw [changesOf_record_self] at hc'
    rcases List.mem_append.mp hc' with hc' | hc'
    · obtain ⟨hk, hx, hkey⟩ := h.links c' hc' u hu
      exact ⟨hlinked hk, hx, hview _ hkey⟩
    · rw [List.mem_singleton.mp hc'] at hu
      obtain ⟨hk, hx, hkey⟩ := hlinks u hu
      exact ⟨hk, hx, hview _ hkey⟩

theorem Holds.insert (h : Holds x k db i) (r : Row) :
    Holds x (k.insert x r) (db.record i (.insert r)) i := by
  refine h.record rfl le_climb id (fun key hkey => rank_lt_climb hkey) (fun hk' => ?_)
    (fun u hu => by cases hu)
  exact (Bool.or_eq_true_iff.mp hk').imp_right of_decide_eq_true

theorem Holds.updateExtraction (h : Holds x k db i) {extraction_id tenant_id : UUID}
    (hx : extraction_id = x) (person_uuid : Option UUID) (match_action : String) :
    Holds x { k with linked := true }
      (db.doUpdateExtraction i extraction_id tenant_id person_uuid match_action) i := by
  unfold doUpdateExtraction
  split_ifs with hany
  · obtain ⟨row, hrow, his⟩ := List.any_eq_true.mp hany
    have hid : row.extraction_id = x := by
      rw [← hx]
      exact eq_of_beq (Bool.and_eq_true_iff.mp his).1
    have hkey : IndexKey.extraction x ∈ (db.view i).keys := by
      rw [← hid]
      exact List.mem_append_right _ (List.mem_map_of_mem hrow)
    refine h.record rfl le_rfl (fun _ => rfl) (fun key hkey => by cases hkey) .inl (fun u hu => ?_)
    exact ⟨rfl, (eq_of_beq hu).symm.trans hx, hkey⟩
  · exact h.linked

/-- What a session does by the order, its account follows. -/
theorem Holds.exec (h : Holds x k db i) (outcome : Outcome) {op : DbOp} (hmay : k.mayTake x op) :
    k.Certain op (exec i outcome op db).1 ∧
      Holds x (k.afterwards x op (exec i outcome op db).1) (exec i outcome op db).2 i := by
  cases op with
  | add r =>
    refine ⟨trivial, { h with pending := ?_ }⟩
    exact (Function.update_self ..).trans (congrArg (· ++ [r]) h.pending)
  | takePending =>
    exact ⟨congrArg Except.ok h.pending, { h with pending := Function.update_self .. }⟩
  | rollback =>
    exact ⟨trivial, holds_of_no_changes (Function.update_self ..)
      (changesOf_endTransaction_self db i)⟩
  | commit =>
    cases outcome with
    | _ => exact ⟨trivial, holds_of_no_changes h.pending (changesOf_endTransaction_self db i)⟩
  | insert r =>
    cases outcome with
    | refuse => exact ⟨trivial, h⟩
    | accept =>
      rcases db.doInsert_cases i r with ⟨hinsert, -⟩ | ⟨e, -, hinsert⟩
      · simp only [Db.exec, hinsert]
        exact ⟨trivial, h.insert r⟩
      · simp only [Db.exec, hinsert]
        exact ⟨trivial, h⟩
  | updateExtraction extraction_id tenant_id person_uuid match_action =>
    cases outcome with
    | refuse => exact ⟨trivial, h.linked⟩
    | accept => exact ⟨trivial, h.updateExtraction hmay.1 person_uuid match_action⟩
  | selectIdentifiers tenant_id identifier_type identifier_value =>
    refine ⟨trivial, ?_⟩
    rcases exec_selectIdentifiers i outcome db tenant_id identifier_type identifier_value with
      hexec | ⟨e, -, hexec⟩
    · rw [hexec]
      exact h
    · rw [hexec]
      exact h
  | selectPersons | selectPersonIdentifiers | selectPersonNameVariants =>
    cases outcome with
    | _ => exact ⟨trivial, h⟩

end Db

namespace BoundDb
variable {ι : Type} [DecidableEq ι] {xs : ι → UUID} {ks : ι → Locks} {s : BoundDb ι} {i j : ι}
variable {similarity : Str → Str → ℚ} {forced : Bool}

structure AllHold (xs : ι → UUID) (ks : ι → Locks) (s : BoundDb ι) : Prop where
  consistent : s.db.Consistent
  each : ∀ i, s.db.Holds (xs i) (ks i) i

theorem waits_of_admits {op : DbOp} {tenant_id : UUID}
    (hwaits : waits forced i (.statement op) s =
      (s.admits forced i tenant_id && Db.waits i op s.db))
    (hw : waits forced i (.statement op) s = false) (hadmits : s.admits forced i tenant_id = true) :
    Db.waits i op s.db = false := by
  rw [hwaits, hadmits, Bool.true_and] at hw
  exact hw

theorem consistent_statement (h : s.db.Consistent) {op : DbOp}
    (hw : waits forced i (.statement op) s = false) (outcome : Outcome) :
    (execStatement forced i outcome op s).2.db.Consistent := by
  cases op with
  | insert r =>
    by_cases hadmits : s.admits forced i r.tenant_id = true
    · simp only [execStatement, if_pos hadmits]
      exact Db.exec_consistent i outcome _ s.db (waits_of_admits rfl hw hadmits) h
    · simp only [execStatement, if_neg hadmits]
      exact h
  | updateExtraction extraction_id tenant_id person_uuid match_action =>
    by_cases hadmits : s.admits forced i tenant_id = true
    · simp only [execStatement, if_pos hadmits]
      exact Db.exec_consistent i outcome _ s.db (waits_of_admits rfl hw hadmits) h
    · simp only [execStatement, if_neg hadmits]
      cases outcome with
      | _ => exact h
  | _ => exact Db.exec_consistent i outcome _ s.db rfl h

theorem holds_statement (forced : Bool) {x : UUID} {k : Locks} (h : s.db.Holds x k i) {op : DbOp}
    (hmay : k.mayTake x op) (outcome : Outcome) :
    k.Certain op (execStatement forced i outcome op s).1 ∧
      (execStatement forced i outcome op s).2.db.Holds x
        (k.afterwards x op (execStatement forced i outcome op s).1) i := by
  have hexec := h.exec outcome hmay
  cases op with
  | add | takePending | commit | rollback => exact hexec
  | insert r =>
    by_cases hadmits : s.admits forced i r.tenant_id = true
    · simp only [execStatement, if_pos hadmits]
      exact hexec
    · simp only [execStatement, if_neg hadmits]
      exact ⟨trivial, h⟩
  | updateExtraction extraction_id tenant_id person_uuid match_action =>
    by_cases hadmits : s.admits forced i tenant_id = true
    · simp only [execStatement, if_pos hadmits]
      exact hexec
    · simp only [execStatement, if_neg hadmits]
      cases outcome with
      | _ => exact ⟨trivial, h.linked⟩
  | selectIdentifiers | selectPersons | selectPersonIdentifiers | selectPersonNameVariants =>
    exact ⟨trivial, hexec.2⟩

theorem holds_exec (similarity : Str → Str → ℚ) (forced : Bool) {x : UUID} {k : Locks}
    (h : s.db.Holds x k i) {op : SessionOp}
    (hmay : (Locks.sessionOrder x).may k op) (choice : Choice) :
    ∃ k', (Locks.sessionOrder x).learns k op (exec similarity forced i choice op s).1 k' ∧
      (exec similarity forced i choice op s).2.db.Holds x k' i := by
  obtain ⟨outcome, tie⟩ := choice
  cases op with
  | statement op =>
    obtain ⟨hcertain, hholds⟩ := holds_statement forced h hmay outcome
    exact ⟨_, ⟨hcertain, rfl⟩, hholds⟩
  | setConfig tenant_id =>
    cases outcome with
    | _ => exact ⟨k, rfl, h⟩
  | selectByName tenant_id q limit =>
    rw [exec_selectByName_state]
    exact ⟨k, rfl, h⟩

theorem holds_other {x : UUID} {k : Locks} (h : s.db.Holds x k j) (hji : j ≠ i) (op : SessionOp)
    (choice : Choice) : (exec similarity forced i choice op s).2.db.Holds x k j := by
  obtain ⟨outcome, tie⟩ := choice
  cases op with
  | statement op =>
    rcases db_execStatement s i forced outcome op with hdb | hdb
    · exact hdb ▸ h
    · exact hdb ▸ h.exec_other hji outcome op
  | setConfig tenant_id =>
    cases outcome with
    | _ => exact h
  | selectByName tenant_id q limit =>
    rw [exec_selectByName_state]
    exact h

theorem consistent_op (h : s.db.Consistent) {op : SessionOp} (hw : waits forced i op s = false)
    (choice : Choice) : (exec similarity forced i choice op s).2.db.Consistent := by
  obtain ⟨outcome, tie⟩ := choice
  cases op with
  | statement op => exact consistent_statement h hw outcome
  | setConfig tenant_id =>
    cases outcome with
    | _ => exact h
  | selectByName tenant_id q limit =>
    rw [exec_selectByName_state]
    exact h

/-- Every session that keeps to the order keeps all accounts true. -/
theorem kept_order :
    Protocol.Kept (environment similarity forced) (fun i => Locks.sessionOrder (xs i))
      (AllHold xs) := by
  intro ks s i choice op h hmay hw
  obtain ⟨k', hlearns, hholds⟩ := holds_exec similarity forced (h.each i) hmay choice
  refine ⟨k', hlearns, consistent_op h.consistent hw choice, fun j => ?_⟩
  by_cases hji : j = i
  · subst hji
    rw [Function.update_self]
    exact hholds
  · rw [Function.update_of_ne hji]
    exact holds_other (h.each j) hji op choice

/-- A session that waits wants a key of another, or to link what another has linked. -/
theorem waits_cases {op : SessionOp} (h : waits forced i op s = true) :
    (∃ r key j c, op = .statement (.insert r) ∧ key ∈ r.keys ∧ c ∈ s.db.changesOf j ∧
      key ∈ c.keys) ∨
    ∃ extraction_id tenant_id person_uuid match_action j c,
      op = .statement (.updateExtraction extraction_id tenant_id person_uuid match_action) ∧
        j ≠ i ∧ c ∈ s.db.changesOf j ∧ c.updates extraction_id = true := by
  cases op with
  | setConfig tenant_id => cases h
  | selectByName tenant_id q limit => cases h
  | statement op =>
    cases op with
    | insert r =>
      have hothers := (Bool.and_eq_true_iff.mp (Bool.and_eq_true_iff.mp h).2).2
      obtain ⟨e, he, hkeys⟩ := List.any_eq_true.mp hothers
      obtain ⟨key, hkey, hheld⟩ := List.any_eq_true.mp (Bool.and_eq_true_iff.mp hkeys).2
      exact .inl ⟨r, key, e.1, e.2, rfl, hkey, Db.mem_changesOf.mpr he, of_decide_eq_true hheld⟩
    | updateExtraction extraction_id tenant_id person_uuid match_action =>
      obtain ⟨e, he, hlinks⟩ := List.any_eq_true.mp (Bool.and_eq_true_iff.mp h).2
      obtain ⟨hother, hlinks⟩ := Bool.and_eq_true_iff.mp hlinks
      exact .inr ⟨_, _, _, _, e.1, e.2, rfl, of_decide_eq_true hother, Db.mem_changesOf.mpr he,
        hlinks⟩
    | _ => cases h

/-- A key that a transaction holds is not there for the others. -/
theorem not_seen_of_held (h : s.db.Consistent) {key : IndexKey} {c : Change}
    (hc : c ∈ s.db.changesOf i) (hkey : key ∈ c.keys) (hji : j ≠ i) :
    key ∉ (s.db.view j).keys := by
  intro hseen
  have hheld : key ∈ (s.db.changesOf i).flatMap Change.keys := List.mem_flatMap.mpr ⟨c, hc, hkey⟩
  rcases Db.mem_keys_view.mp hseen with hcommitted | hother
  · have huncommitted : key ∈ s.db.uncommittedKeys :=
      (s.db.keys_changesOf_perm i).mem_iff.mpr (List.mem_append_left _ hheld)
    exact (List.nodup_append.mp h).2.2 key hcommitted key huncommitted rfl
  · obtain ⟨c', hc', hkey'⟩ := List.mem_flatMap.mp hother
    have hothers : key ∈ (s.db.uncommitted.filter (fun e => e.1 ≠ i)).flatMap (fun e => e.2.keys) :=
      List.mem_flatMap.mpr ⟨(j, c'), List.mem_filter.mpr
        ⟨Db.mem_changesOf.mp hc', decide_eq_true hji⟩, hkey'⟩
    have hnodup := (s.db.keys_changesOf_perm i).nodup_iff.mp (List.nodup_append.mp h).2.1
    exact (List.nodup_append.mp hnodup).2.2 key hheld key hothers rfl

section Progress
variable {q : Pool ι (BoundDb ι) SessionOp SessionOp.Reply PyError ApiAnswer}

/-- The session has come to a statement that has to wait. -/
def Waiting (forced : Bool) (q : Pool ι (BoundDb ι) SessionOp SessionOp.Reply PyError ApiAnswer)
    (i : ι) : Prop :=
  ∃ op next, q.program i = .call op next ∧ waits forced i op q.shared = true

/-- The session has not ended, and does not wait to link its extraction. -/
structure Left (forced : Bool) (ks : ι → Locks)
    (q : Pool ι (BoundDb ι) SessionOp SessionOp.Reply PyError ApiAnswer) (i : ι) : Prop where
  left : ∃ op next, q.program i = .call op next
  inserts : ∀ op next, q.program i = .call op next → waits forced i op q.shared = true →
    ∃ r, op = .statement (.insert r)

variable (hall : AllHold xs ks q.shared)
variable (hfollows : ∀ i, (Locks.sessionOrder (xs i)).Follows (q.program i) (ks i)
  (fun _ k => k.Free))
include hfollows

omit [DecidableEq ι] in
theorem call_of_not_free (h : ¬ (ks i).Free) : ∃ op next, q.program i = .call op next := by
  have hi := hfollows i
  cases hp : q.program i with
  | pure a =>
    rw [hp] at hi
    exact absurd hi h
  | throw e =>
    rw [hp] at hi
    exact absurd hi h
  | call op next => exact ⟨op, next, rfl⟩

omit [DecidableEq ι] in
theorem may_of_call {op : SessionOp} {next} (hp : q.program i = .call op next) :
    (Locks.sessionOrder (xs i)).may (ks i) op := by
  have hi := hfollows i
  rw [hp] at hi
  exact hi.1

include hall

/-- Whoever waits to link its extraction holds no key; what it waits for has been linked. -/
theorem link_waits {op : SessionOp} {next} (hp : q.program i = .call op next)
    (hw : waits forced i op q.shared = true) (hop : ∀ r, op ≠ .statement (.insert r)) :
    (ks i).level = 0 ∧ (ks i).linked = false ∧ ∃ j, (ks j).linked = true := by
  rcases waits_cases hw with ⟨r, key, j, c, rfl, -⟩ | ⟨u, t, p, m, j, c, rfl, hji, hc, hlinks⟩
  · exact absurd rfl (hop r)
  · obtain ⟨hx, hlinked, hheld⟩ := may_of_call hfollows hp
    obtain ⟨hlinked', hx', hkey⟩ := (hall.each j).links c hc u hlinks
    refine ⟨?_, hlinked, j, hlinked'⟩
    rcases hheld with hinserted | hlevel
    · obtain ⟨c', hc', hkey'⟩ := (hall.each i).inserted hinserted
      rw [← hx', hx] at hkey
      exact absurd hkey (not_seen_of_held hall.consistent hc' hkey' hji)
    · exact hlevel

/-- Whoever waits to insert a row waits for a session that is further. -/
theorem insert_waits {r : Row} {next} (hp : q.program i = .call (.statement (.insert r)) next)
    (hw : waits forced i (.statement (.insert r)) q.shared = true) :
    (ks i).level ≤ 3 ∧ ∃ j, (ks i).level < (ks j).level := by
  rcases waits_cases hw with ⟨r', key, j, c, hop, hkey, hc, hheld⟩ | ⟨u, t, p, m, j, c, hop, -⟩
  · cases hop
    have hle : (ks i).level ≤ key.rank := may_of_call hfollows hp key hkey
    exact ⟨hle.trans key.rank_le, j, hle.trans_lt ((hall.each j).keys c hc key hheld)⟩
  · cases hop

theorem left_of_level (h : 0 < (ks i).level) : Left forced ks q i := by
  refine ⟨call_of_not_free hfollows (fun hfree => ?_), fun op next hp hw => ?_⟩
  · rw [hfree.1] at h
    exact absurd h (lt_irrefl 0)
  · by_contra hop
    obtain ⟨hlevel, -⟩ := link_waits hall hfollows hp hw (fun r hr => hop ⟨r, hr⟩)
    rw [hlevel] at h
    exact absurd h (lt_irrefl 0)

theorem left_of_linked (h : (ks i).linked = true) : Left forced ks q i := by
  refine ⟨call_of_not_free hfollows (fun hfree => ?_), fun op next hp hw => ?_⟩
  · rw [hfree.2] at h
    cases h
  · by_contra hop
    obtain ⟨-, hlinked, -⟩ := link_waits hall hfollows hp hw (fun r hr => hop ⟨r, hr⟩)
    rw [hlinked] at h
    cases h

theorem exists_left (forced : Bool) {op : SessionOp} {next} (hp : q.program i = .call op next) :
    ∃ j, Left forced ks q j := by
  by_cases hinserts : waits forced i op q.shared = true → ∃ r, op = .statement (.insert r)
  · refine ⟨i, ⟨op, next, hp⟩, fun op' next' hp' => ?_⟩
    rw [hp] at hp'
    cases hp'
    exact hinserts
  · obtain ⟨hw, hop⟩ := Classical.not_imp.mp hinserts
    obtain ⟨-, -, j, hlinked⟩ := link_waits hall hfollows hp hw (fun r hr => hop ⟨r, hr⟩)
    exact ⟨j, left_of_linked hall hfollows hlinked⟩

/-- If a session is left, one of those that are left does not wait. -/
theorem exists_canStep {op : SessionOp} {next} (hp : q.program i = .call op next) :
    ∃ j, q.CanStep (environment similarity forced) j := by
  obtain ⟨i', hi'⟩ := exists_left hall hfollows forced hp
  have hwaiting : ∀ i, Left forced ks q i → Waiting forced q i →
      (ks i).level ≤ 3 ∧ ∃ j, Left forced ks q j ∧ (ks i).level < (ks j).level := by
    rintro i hleft ⟨op, next, hp, hw⟩
    obtain ⟨r, rfl⟩ := hleft.inserts op next hp hw
    obtain ⟨hle, j, hlt⟩ := insert_waits hall hfollows hp hw
    exact ⟨hle, j, left_of_level hall hfollows (Nat.zero_lt_of_lt hlt), hlt⟩
  obtain ⟨j, hleft, hnot⟩ := exists_not_waiting (fun i h hw => (hwaiting i h hw).1)
    (fun i h hw => (hwaiting i h hw).2) hi'
  obtain ⟨op', next', hp'⟩ := hleft.left
  exact ⟨j, Pool.canStep_of_call hp' (fun hw => hnot ⟨op', next', hp', hw⟩)⟩

end Progress

variable {lib : Libraries} {ctxs : ι → RequestContext} {calls : ι → ApiCall} {t : Tables}
variable {q : Pool ι (BoundDb ι) SessionOp SessionOp.Reply PyError ApiAnswer}

theorem holds_start (hkeys : t.keys.Nodup) : AllHold xs (fun _ => {}) (start t : BoundDb ι) where
  consistent := by
    change (t.keys ++ []).Nodup
    rwa [List.append_nil]
  each i := Db.holds_of_no_changes rfl rfl

theorem not_stuck (hkeys : t.keys.Nodup)
    (hrun : Pool.Run (environment similarity forced) Pool.Unrestricted
      (apiPool lib ctxs calls t) q) :
    q.Ended ∨ ∃ i, q.CanStep (environment similarity forced) i := by
  have hstart : Protocol.Conforms (fun i => Locks.sessionOrder (calls i).extraction)
      (AllHold fun i => (calls i).extraction) (fun _ _ k => k.Free)
      (apiPool lib ctxs calls t) :=
    ⟨_, holds_start hkeys, fun i => Locks.follows_session lib (ctxs i) (calls i)⟩
  obtain ⟨ks, hall, hfollows⟩ := hstart.run kept_order hrun
  by_cases hended : q.Ended
  · exact .inl hended
  · obtain ⟨i, hi⟩ := not_forall.mp hended
    obtain ⟨op, next, hp⟩ := Program.exists_call_of_not_ended hi
    exact .inr (exists_canStep hall hfollows hp)

/-- Requests never wait for each other in a circle: in every state of every run either all have
ended or one can take its next step, whatever the server decides. Finitely many requests take
finitely many steps, and from every state they can all come to their end. -/
theorem requests_end (hkeys : t.keys.Nodup)
    (hrun : Pool.Run (environment similarity forced) Pool.Unrestricted
      (apiPool lib ctxs calls t) q) :
    (q.Ended ∨ ∃ i, q.CanStep (environment similarity forced) i) ∧
    (Finite ι →
      (∀ f : ℕ → Pool ι (BoundDb ι) SessionOp SessionOp.Reply PyError ApiAnswer,
        ∃ n, ¬ (f (n + 1)).Steps (environment similarity forced) (f n)) ∧
      ∃ r, Pool.Run (environment similarity forced) Pool.Unrestricted q r ∧ r.Ended) := by
  refine ⟨not_stuck hkeys hrun, fun _ => ⟨Pool.run_stops, ?_⟩⟩
  have : Inhabited Choice := ⟨⟨.accept, id⟩⟩
  exact Pool.Run.completes (fun _ => not_stuck hkeys) hrun

end BoundDb

/-! Two requests that would create one passport. -/

namespace Specimen
open BoundDb

def rivals (first : Bool) : ApiCall :=
  .create (if first then draws 10 11 else draws 20 21) fatima

def rivalPool : Pool Bool (BoundDb Bool) SessionOp SessionOp.Reply PyError ApiAnswer :=
  apiPool lib (fun _ => ctx) rivals (Tables.empty [1])

/-- Both have seen no match, and the first has inserted the passport. -/
def contention : List (Bool × Choice) :=
  List.replicate 2 (false, accepts) ++ List.replicate 13 (true, accepts) ++
    List.replicate 8 (false, accepts)

/-- The second waits for the first, and both can come to their end. -/
theorem rivals_end : ∃ q,
    Pool.Run (environment similarity true) Pool.Unrestricted rivalPool q ∧
      (q.program false).ended = false ∧ q.step (environment similarity true) false accepts = none ∧
      ∃ r, Pool.Run (environment similarity true) Pool.Unrestricted q r ∧ r.Ended := by
  have hends : (Pool.runSchedule (environment similarity true) contention rivalPool).map
      (fun q => ((q.program false).ended,
        (q.step (environment similarity true) false accepts).isNone)) = some (false, true) := by
    decide +kernel
  obtain ⟨q, hq, hends⟩ := Option.map_eq_some_iff.mp hends
  obtain ⟨hleft, hwaits⟩ := Prod.mk.inj hends
  have hrun := Pool.run_of_runSchedule hq
  obtain ⟨-, hfinite⟩ := requests_end (Tables.nodup_keys_empty _) hrun
  exact ⟨q, hrun, hleft, Option.isNone_iff_eq_none.mp hwaits, (hfinite inferInstance).2⟩

end Specimen
end Hawiya
