import Hawiya.DatabaseInvariants
import Hawiya.Lib.RelyGuarantee

/-!
# Transactions next to each other

What a transaction may rely on while others take steps: its own session, its own changes and its
log entries stay as they are, committed identifiers stay, and no key is taken twice. A program in
`getSession` has committed if it returned a value, and has left nothing if it raised.
-/

namespace Hawiya
open PyString Calendar Interaction

/-- The statement neither empties the session nor ends the transaction. -/
def DbOp.Keeps : DbOp → Prop
  | .takePending | .commit | .rollback => False
  | _ => True

namespace Db
variable {ι : Type} [DecidableEq ι]

/-- What the others may do while transaction `i` is open. -/
structure Interference (i : ι) (db db' : Db ι) : Prop where
  identifiers : ∀ r ∈ db.committed.identifiers, r ∈ db'.committed.identifiers
  changes : db'.changesOf i = db.changesOf i
  pending : db'.pending i = db.pending i
  log : ∀ cs, (i, cs) ∈ db'.log ↔ (i, cs) ∈ db.log
  consistent : db.Consistent → db'.Consistent

theorem Interference.refl (i : ι) (db : Db ι) : Interference i db db :=
  ⟨fun _ h => h, rfl, rfl, fun _ => .rfl, fun h => h⟩

theorem Interference.trans {i : ι} {db db' db'' : Db ι} (h : Interference i db db')
    (h' : Interference i db' db'') : Interference i db db'' :=
  ⟨fun r hr => h'.identifiers r (h.identifiers r hr), h'.changes.trans h.changes,
    h'.pending.trans h.pending, fun cs => (h'.log cs).trans (h.log cs),
    fun hc => h'.consistent (h.consistent hc)⟩

/-- A statement of one transaction, as the others see it. -/
theorem exec_interference {i j : ι} (hji : j ≠ i) (outcome : Outcome) (op : DbOp) (db : Db ι)
    (hw : waits i op db = false) : Interference j db (exec i outcome op db).2 := by
  obtain ⟨hchanges, hpending, hlog⟩ := exec_frame outcome op db hji
  exact ⟨(exec_committed_mono i outcome op db).2, hchanges, hpending, hlog,
    exec_consistent i outcome op db hw⟩

def Uncommitted (i : ι) (db : Db ι) : Prop := ∀ cs, (i, cs) ∉ db.log

/-- Transactions that follow `allowed`; a transaction commits with its last statement. -/
def discipline (allowed : ι → Outcome → DbOp → Db ι → Prop) :
    Discipline ι Outcome DbOp DbOp.Reply PyError (Db ι) where
  env := environment
  allowed := allowed
  rely := Interference
  running := Uncommitted

variable {allowed : ι → Outcome → DbOp → Db ι → Prop} {i : ι}

theorem discipline_closed : (discipline allowed).Closed where
  refl := Interference.refl
  trans _ _ _ _ h h' := h.trans h'

theorem discipline_guarantees : (discipline allowed).Guarantees :=
  fun _ _ outcome op db hji hw _ => exec_interference hji outcome op db hw

/-- The row waits in the session to be flushed. -/
def Held (i : ι) (r : Row) (db : Db ι) : Prop := r ∈ db.pending i

/-- The transaction has inserted the row. -/
def Written (i : ι) (r : Row) (db : Db ι) : Prop := .insert r ∈ db.changesOf i

/-- The transaction sees the identifier, and will when it commits. -/
def Seen (i : ι) (r : PersonIdentifier) (db : Db ι) : Prop :=
  r ∈ db.committed.identifiers ∨ Written i (.identifier r) db

structure Open (i : ι) (db : Db ι) : Prop where
  consistent : db.Consistent
  uncommitted : Uncommitted i db

/-- Nothing of the transaction is there. -/
structure Nothing (i : ι) (db : Db ι) : Prop where
  uncommitted : Uncommitted i db
  changes : db.changesOf i = []
  pending : db.pending i = []

theorem stable_uncommitted : (discipline allowed).Stable i (Uncommitted i) :=
  fun _ _ h hno cs hcs => hno cs ((h.log cs).mp hcs)

theorem stable_open : (discipline allowed).Stable i (Open i) :=
  fun db db' h ho => ⟨h.consistent ho.consistent, stable_uncommitted db db' h ho.uncommitted⟩

theorem stable_nothing : (discipline allowed).Stable i (Nothing i) :=
  fun db db' h hn => ⟨stable_uncommitted db db' h hn.uncommitted, h.changes.trans hn.changes,
    h.pending.trans hn.pending⟩

theorem stable_held (r : Row) : (discipline allowed).Stable i (Held i r) :=
  fun _ _ h hr => by rw [Held, h.pending]; exact hr

theorem stable_written (r : Row) : (discipline allowed).Stable i (Written i r) :=
  fun _ _ h hr => by rw [Written, h.changes]; exact hr

theorem stable_allWritten (rows : List Row) :
    (discipline allowed).Stable i (fun db => ∀ r ∈ rows, Written i r db) :=
  fun db db' h hr r hmem => stable_written r db db' h (hr r hmem)

theorem stable_seen (r : PersonIdentifier) : (discipline allowed).Stable i (Seen i r) :=
  fun db db' h hr => hr.imp (h.identifiers r) (stable_written _ db db' h)

/-- The statement does not end the transaction, and what it sends to the server stays open. -/
theorem exec_open (outcome : Outcome) (op : DbOp) {db : Db ι} (hop : op ≠ .commit)
    (hw : waits i op db = false) (h : Open i db) : Open i (exec i outcome op db).2 := by
  refine ⟨exec_consistent i outcome op db hw h.consistent, ?_⟩
  have heffect := exec_effect i outcome op db
  generalize (exec i outcome op db).2 = db' at heffect ⊢
  cases heffect with
  | commit hc => exact absurd hc hop
  | _ => exact h.uncommitted

/-- An assertion that the others, and the transaction's own statements before its last flush, keep. -/
structure Carried (allowed : ι → Outcome → DbOp → Db ι → Prop) (i : ι) (I : Db ι → Prop) : Prop where
  stable : (discipline allowed).Stable i I
  kept : ∀ outcome op db, DbOp.Keeps op → I db → I (exec i outcome op db).2

theorem exec_keeps (outcome : Outcome) {op : DbOp} (db : Db ι) (hop : op.Keeps) :
    (exec i outcome op db).2.committed = db.committed ∧
      (∀ c ∈ db.changesOf i, c ∈ (exec i outcome op db).2.changesOf i) ∧
      ∀ r ∈ db.pending i, r ∈ (exec i outcome op db).2.pending i := by
  by_cases hadd : ∃ r, op = .add r
  · obtain ⟨r, rfl⟩ := hadd
    exact ⟨rfl, fun _ hc => hc, fun r' hr' => by simp [exec, setPending, hr']⟩
  · have heffect := exec_effect i outcome op db
    generalize (exec i outcome op db).2 = db' at heffect ⊢
    cases heffect with
    | same => exact ⟨rfl, fun _ hc => hc, fun _ hr => hr⟩
    | session rows h =>
      rcases h with rfl | h
      · exact absurd hop id
      · exact absurd h hadd
    | insert r =>
      exact ⟨rfl, fun c hc => by rw [changesOf_record_self]; exact List.mem_append_left _ hc,
        fun _ hr => hr⟩
    | link =>
      exact ⟨rfl, fun c hc => by rw [changesOf_record_self]; exact List.mem_append_left _ hc,
        fun _ hr => hr⟩
    | abort h =>
      subst h
      exact absurd hop id
    | rollback h =>
      subst h
      exact absurd hop id
    | commit h =>
      subst h
      exact absurd hop id

theorem carried_held (r : Row) : Carried allowed i (Held i r) where
  stable := stable_held r
  kept outcome _ db hop hr := (exec_keeps outcome db hop).2.2 r hr

theorem carried_written (r : Row) : Carried allowed i (Written i r) where
  stable := stable_written r
  kept outcome _ db hop hr := (exec_keeps outcome db hop).2.1 _ hr

theorem carried_seen (r : PersonIdentifier) : Carried allowed i (Seen i r) where
  stable := stable_seen r
  kept outcome _ db hop hr := by
    obtain ⟨hcommitted, hchanges, -⟩ := exec_keeps outcome db hop
    exact hr.imp (fun h => by rwa [hcommitted]) (fun h => hchanges _ h)

theorem carried_const (p : Prop) : Carried allowed i (fun _ => p) where
  stable := Discipline.stable_const p
  kept _ _ _ _ hp := hp

namespace Carried
variable {I J : Db ι → Prop}

theorem and (h : Carried allowed i I) (h' : Carried allowed i J) :
    Carried allowed i (fun db => I db ∧ J db) where
  stable := h.stable.and h'.stable
  kept outcome op db hop hIJ := ⟨h.kept outcome op db hop hIJ.1, h'.kept outcome op db hop hIJ.2⟩

theorem or (h : Carried allowed i I) (h' : Carried allowed i J) :
    Carried allowed i (fun db => I db ∨ J db) where
  stable := h.stable.or h'.stable
  kept outcome op db hop hIJ := hIJ.imp (h.kept outcome op db hop) (h'.kept outcome op db hop)

theorem some {β : Type} {K : β → Db ι → Prop} (h : ∀ b, Carried allowed i (K b)) :
    Carried allowed i (fun db => ∃ b, K b db) where
  stable := Discipline.Stable.exists (fun b => (h b).stable)
  kept outcome op db hop := fun ⟨b, hb⟩ => ⟨b, (h b).kept outcome op db hop hb⟩

theorem all {β : Type} {K : β → Db ι → Prop} {p : β → Prop} (h : ∀ b, Carried allowed i (K b)) :
    Carried allowed i (fun db => ∀ b, p b → K b db) where
  stable db db' hrely hK b hb := (h b).stable db db' hrely (hK b hb)
  kept outcome op db hop hK b hb := (h b).kept outcome op db hop (hK b hb)

end Carried

/-- The transaction is open and the assertion holds. -/
def OpenWith (i : ι) (I : Db ι → Prop) (db : Db ι) : Prop := Open i db ∧ I db

/-- A piece of an open transaction; if it raises, the transaction is still open. -/
def TxTriple (allowed : ι → Outcome → DbOp → Db ι → Prop) (i : ι) {α : Type} (I : Db ι → Prop)
    (tx : Tx α) (Q : α → Db ι → Prop) : Prop :=
  Triple (discipline allowed) i (OpenWith i I) tx (fun a => OpenWith i (Q a)) (Open i)

namespace TxTriple
variable {α β : Type} {I J : Db ι → Prop} {Q Q' : α → Db ι → Prop} {R : β → Db ι → Prop}

theorem conseq {tx : Tx α} (h : TxTriple allowed i I tx Q) (hI : ∀ db, J db → I db)
    (hQ : ∀ a db, Q a db → Q' a db) : TxTriple allowed i J tx Q' :=
  Triple.conseq h (fun db hdb => ⟨hdb.1, hI db hdb.2⟩) (fun a db hdb => ⟨hdb.1, hQ a db hdb.2⟩)

theorem pure {a : α} (hQ : (discipline allowed).Stable i (Q a)) (h : ∀ db, I db → Q a db) :
    TxTriple allowed i I (pure a) Q :=
  Triple.pure (stable_open.and hQ) (fun db hdb => ⟨hdb.1, h db hdb.2⟩)

theorem throw (e : PyError) : TxTriple allowed i I (throw e : Tx α) Q :=
  Triple.throw stable_open (fun _ hdb => hdb.1)

theorem bind {tx : Tx α} {f : α → Tx β} (h : TxTriple allowed i I tx Q)
    (hf : ∀ a, TxTriple allowed i (Q a) (f a) R) : TxTriple allowed i I (tx >>= f) R :=
  Triple.bind discipline_closed stable_open h hf

/-- A value of `Except`, about which the rest may use that it was returned. -/
theorem liftM {r : Except PyError α} {f : α → Tx β}
    (h : ∀ a, r = .ok a → TxTriple allowed i I (f a) R) :
    TxTriple allowed i I ((liftM r : Tx α) >>= f) R := by
  cases r with
  | ok a => exact h a rfl
  | error e => exact throw e

theorem execute {op : DbOp} (hI : Carried allowed i I) (hop : op.Keeps) :
    TxTriple allowed i I (execute op) (fun _ => I) := by
  have hne : op ≠ .commit := by
    rintro rfl
    exact hop
  refine Triple.perform discipline_guarantees (stable_open.and hI.stable)
    (fun _ => stable_open.and hI.stable) stable_open (fun db hdb => hdb.1.uncommitted) ?_
  rintro db outcome ⟨hopen, hdb⟩ hw -
  have hopen' := exec_open outcome op hne hw hopen
  have hdb' := hI.kept outcome op db hop hdb
  change Ends _ _ (exec i outcome op db).1 (exec i outcome op db).2
  cases (exec i outcome op db).1 with
  | ok a => exact ⟨hopen', hdb'⟩
  | error e => exact hopen'

theorem takePending {L : List Row → Db ι → Prop} (hI : (discipline allowed).Stable i I)
    (hL : ∀ rows, Carried allowed i (L rows))
    (htake : ∀ db, I db → L (db.pending i) (db.setPending i [])) :
    TxTriple allowed i I Session.takePending L := by
  refine Triple.perform discipline_guarantees (stable_open.and hI)
    (fun rows => stable_open.and (hL rows).stable) stable_open (fun db hdb => hdb.1.uncommitted) ?_
  rintro db outcome ⟨hopen, hdb⟩ hw -
  exact ⟨exec_open outcome .takePending (by simp) hw hopen, htake db hdb⟩

/-- One row of a flush: the rows inserted so far stay, and this one is added. -/
theorem insert {L : Db ι → Prop} (hL : Carried allowed i L) (before : List Row) (r : Row) :
    TxTriple allowed i (fun db => L db ∧ ∀ r' ∈ before, Written i r' db) (Session.insert r)
      (fun _ db => L db ∧ ∀ r' ∈ before ++ [r], Written i r' db) := by
  refine Triple.perform discipline_guarantees
    (stable_open.and (hL.stable.and (stable_allWritten before)))
    (fun _ => stable_open.and (hL.stable.and (stable_allWritten _))) stable_open
    (fun db hdb => hdb.1.uncommitted) ?_
  rintro db outcome ⟨hopen, hdb, hbefore⟩ hw -
  have hopen' := exec_open outcome (.insert r) (by simp) hw hopen
  have hdb' := hL.kept outcome (.insert r) db trivial hdb
  cases outcome with
  | refuse => exact hopen'
  | accept =>
    rcases db.doInsert_cases i r with ⟨hrun, -⟩ | ⟨e, -, hrun⟩
    · simp only [exec, hrun] at hopen' hdb'
      change Ends _ _ (db.doInsert i r).1 (db.doInsert i r).2
      rw [hrun]
      refine ⟨hopen', hdb', fun r' hr' => ?_⟩
      rw [Written, changesOf_record_self]
      rcases List.mem_append.mp hr' with hr' | hr'
      · exact List.mem_append_left _ (hbefore r' hr')
      · rw [List.mem_singleton.mp hr']
        exact List.mem_append_right _ (List.mem_singleton.mpr rfl)
    · change Ends _ _ (db.doInsert i r).1 (db.doInsert i r).2
      rw [hrun]
      exact hopen

/-- A flush that does not raise has written every row of the session. -/
theorem flush {L : List Row → Db ι → Prop} {K : Db ι → Prop}
    (hI : (discipline allowed).Stable i I) (hL : ∀ rows, Carried allowed i (L rows))
    (htake : ∀ db, I db → L (db.pending i) (db.setPending i []))
    (hK : ∀ rows db, L rows db → (∀ r ∈ rows, Written i r db) → K db) :
    TxTriple allowed i I Session.flush (fun _ => K) := by
  refine bind (takePending hI hL htake) (fun rows => ?_)
  have hloop := Triple.forM (I := fun before => OpenWith i
      (fun db => L rows db ∧ ∀ r ∈ before, Written i r db)) discipline_closed stable_open
    (fun l => stable_open.and ((hL rows).stable.and (stable_allWritten l)))
    (fun before r => insert (hL rows) before r) [] rows
  rw [List.nil_append] at hloop
  refine conseq hloop (fun db hdb => ⟨hdb, fun r hr => absurd hr List.not_mem_nil⟩) ?_
  exact fun _ db hdb => hK rows db hdb.1 hdb.2

end TxTriple

variable {α : Type}

theorem triple_rollback (e : PyError) (Q : α → Db ι → Prop) :
    Triple (discipline allowed) i (Open i) (do Session.rollback; throw e : Tx α) Q
      (Nothing i) := by
  refine Triple.bind discipline_closed stable_nothing ?_
    (fun _ => Triple.throw stable_nothing (fun _ => id))
  refine Triple.perform discipline_guarantees stable_open (fun _ => stable_nothing) stable_nothing
    (fun db hdb => hdb.uncommitted) ?_
  intro db outcome hopen hw _
  exact ⟨hopen.uncommitted, changesOf_endTransaction_self db i, Function.update_self ..⟩

theorem triple_commit {K F : Db ι → Prop} (hK : (discipline allowed).Stable i K)
    (hF : (discipline allowed).Stable i F)
    (hcommit : ∀ db, Open i db → K db → F (db.doCommit i)) :
    Triple (discipline allowed) i (OpenWith i K) Session.commit (fun _ => F) (Open i) := by
  refine Triple.perform discipline_guarantees (stable_open.and hK) (fun _ => hF) stable_open
    (fun db hdb => hdb.1.uncommitted) ?_
  rintro db outcome ⟨hopen, hdb⟩ hw -
  cases outcome with
  | accept => exact hcommit db hopen hdb
  | refuse => exact ⟨hopen.consistent.endTransaction i, hopen.uncommitted⟩

/-- A transaction that returns has committed what its body and its last flush established; one that
raises has left nothing. -/
theorem triple_getSession (ctx : RequestContext) {body : Tx α} {Q K F : α → Db ι → Prop}
    (hbody : TxTriple allowed i (fun _ => True) body Q)
    (hflush : ∀ a, TxTriple allowed i (Q a) Session.flush (fun _ => K a))
    (hK : ∀ a, (discipline allowed).Stable i (K a))
    (hF : ∀ a, (discipline allowed).Stable i (F a))
    (hcommit : ∀ a db, Open i db → K a db → F a (db.doCommit i)) :
    Triple (discipline allowed) i (fun db => db.Consistent ∧ Nothing i db) (getSession ctx body) F
      (Nothing i) := by
  unfold getSession
  cases ctx.tenant_id with
  | none => exact Triple.throw stable_nothing (fun _ hdb => hdb.2)
  | some tenant_id =>
    have hopened : Triple (discipline allowed) i (fun db => db.Consistent ∧ Nothing i db) body
        (fun a => OpenWith i (Q a)) (Open i) :=
      Triple.conseq hbody (fun db hdb => ⟨⟨hdb.1, hdb.2.uncommitted⟩, trivial⟩) (fun _ _ => id)
    refine Triple.handle discipline_closed hopened (fun a => ?_) (fun e => triple_rollback e F)
    refine Triple.handle discipline_closed (Q := fun _ => F a) (E := Open i) ?_
      (fun _ => Triple.pure (hF a) (fun _ => id)) (fun e => triple_rollback e F)
    exact Triple.bind discipline_closed stable_open (hflush a)
      (fun _ => triple_commit (hK a) (hF a) (hcommit a))

end Db
end Hawiya
