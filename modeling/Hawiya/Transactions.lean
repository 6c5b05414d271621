import Hawiya.DatabaseInvariants

/-!
# One transaction at a time

`transact` runs a transaction on committed tables while nothing else is open. Inside it the
database always has the form `during t i cs rows`: `t` is committed, the transaction has made the
changes `cs` and its session holds `rows` unflushed. The lemmas say what each session operation
does to that form.
-/

namespace Hawiya
open PyString Calendar Interaction

variable {ι : Type} [DecidableEq ι] {α : Type}

def runTx (i : ι) (tx : Tx α) (db : Db ι) : Except PyError α × Db ι :=
  tx.run (Db.exec i .accept) db

/-- A whole transaction on committed tables, alone. -/
def transact (ctx : RequestContext) (tx : Tx α) (t : Tables) : Except PyError α × Tables :=
  let r := runTx () (getSession ctx tx) (Db.start t)
  (r.1, r.2.committed)

section
variable {β : Type} (i : ι) (db : Db ι)

theorem runTx_bind (tx : Tx α) (f : α → Tx β) :
    runTx i (tx >>= f) db = match runTx i tx db with
      | (.ok a, db') => runTx i (f a) db'
      | (.error e, db') => (.error e, db') := by
  unfold runTx
  rw [Program.run_bind]
  rcases tx.run (Db.exec i .accept) db with ⟨r, db'⟩
  cases r with
  | ok a => rfl
  | error e => rfl

theorem runTx_handle (tx : Tx α) (k : Except PyError α → Tx β) :
    runTx i (tx.handle k) db = runTx i (k (runTx i tx db).1) (runTx i tx db).2 :=
  Program.run_handle _ tx k db

@[simp] theorem runTx_pure (a : α) : runTx i (pure a) db = (.ok a, db) := rfl

@[simp] theorem runTx_throw (e : PyError) : runTx i (throw e : Tx α) db = (.error e, db) := rfl

@[simp] theorem runTx_liftM (r : Except PyError α) : runTx i (liftM r : Tx α) db = (r, db) :=
  Program.run_ofExcept _ r db

theorem runTx_execute (op : DbOp) : runTx i (execute op) db = Db.exec i .accept op db :=
  Program.run_perform _ op db

end

namespace Db

def during (t : Tables) (i : ι) (cs : List Change) (rows : List Row) : Db ι where
  committed := t
  uncommitted := cs.map (fun c => (i, c))
  pending := Function.update (fun _ => []) i rows
  log := []

variable (t : Tables) (i : ι) (cs : List Change) (rows : List Row)

theorem start_eq_during : start t = during t i [] [] := by
  simp [start, during]

@[simp] theorem pending_during : (during t i cs rows).pending i = rows := by simp [during]

@[simp] theorem changesOf_during : (during t i cs rows).changesOf i = cs := by
  simp [changesOf, during, List.filter_map, Function.comp_def]

@[simp] theorem view_during : (during t i cs rows).view i = t.applyAll cs := by
  rw [view, changesOf_during]
  rfl

@[simp] theorem record_during (c : Change) :
    (during t i cs rows).record i c = during t i (cs ++ [c]) rows := by
  simp [record, during]

@[simp] theorem setPending_during (rows' : List Row) :
    (during t i cs rows).setPending i rows' = during t i cs rows' := by
  simp [setPending, during]

theorem endTransaction_during : (during t i cs rows).endTransaction i = during t i [] rows := by
  simp [endTransaction, during, List.filter_map, Function.comp_def]

end Db

open Db

/-- An INSERT of the row goes through. -/
structure Tables.Admits (t : Tables) (r : Row) : Prop where
  storable : r.Storable
  free : t.KeysFree r
  reference : t.ReferenceHolds r

instance (t : Tables) (r : Row) : Decidable (t.Admits r) :=
  decidable_of_iff (r.Storable ∧ t.KeysFree r ∧ t.ReferenceHolds r)
    ⟨fun ⟨h₁, h₂, h₃⟩ => ⟨h₁, h₂, h₃⟩, fun ⟨h₁, h₂, h₃⟩ => ⟨h₁, h₂, h₃⟩⟩

/-- Rows a flush can insert one after the other. -/
def Tables.AcceptsAll (t : Tables) : List Row → Prop
  | [] => True
  | r :: rows => t.Admits r ∧ (t.insert r).AcceptsAll rows

theorem Tables.AcceptsAll.storable {t : Tables} {rows : List Row} (h : t.AcceptsAll rows) {r : Row}
    (hr : r ∈ rows) : r.Storable := by
  induction rows generalizing t with
  | nil => cases hr
  | cons r' rows ih =>
    obtain ⟨hr', hrest⟩ := h
    rcases List.mem_cons.mp hr with rfl | hr
    · exact hr'.storable
    · exact ih hrest hr

instance Tables.decidableAcceptsAll (t : Tables) : (rows : List Row) → Decidable (t.AcceptsAll rows)
  | [] => .isTrue trivial
  | r :: rows =>
      have := Tables.decidableAcceptsAll (t.insert r) rows
      inferInstanceAs (Decidable (_ ∧ _))

variable (t : Tables) (i : ι) (cs : List Change) (rows : List Row)

@[simp] theorem run_add (r : Row) :
    runTx i (Session.add r) (during t i cs rows) = (.ok (), during t i cs (rows ++ [r])) := by
  refine (runTx_execute i _ _).trans ?_
  simp [exec]

theorem run_takePending :
    runTx i Session.takePending (during t i cs rows) = (.ok rows, during t i cs []) := by
  refine (runTx_execute i _ _).trans ?_
  simp [exec]

theorem run_insert_of_accepts {r : Row} (h : (t.applyAll cs).Admits r) :
    runTx i (Session.insert r) (during t i cs rows) =
      (.ok (), during t i (cs ++ [.insert r]) rows) := by
  obtain ⟨hstorable, hfree, href⟩ := h
  rw [Session.insert, runTx_execute, exec, doInsert_of_accepts hstorable (by simpa using hfree)
    (by simpa using href), record_during]

theorem run_insert_of_not_accepts {r : Row} (h : ¬ (t.applyAll cs).Admits r) :
    ∃ e, e.ofServer = true ∧
      runTx i (Session.insert r) (during t i cs rows) = (.error e, during t i cs rows) := by
  rw [Session.insert, runTx_execute, exec]
  rcases doInsert_cases (during t i cs rows) i r with ⟨-, hstorable, hfree, href⟩ | ⟨e, hserver, h'⟩
  · rw [view_during] at hfree href
    exact absurd ⟨hstorable, hfree, href⟩ h
  · exact ⟨e, hserver, h'⟩

theorem Tables.applyAll_snoc (c : Change) : t.applyAll (cs ++ [c]) = (t.applyAll cs).apply c := by
  rw [Tables.applyAll_append]
  rfl

theorem run_inserts_of_accepts (new : List Row) (h : (t.applyAll cs).AcceptsAll new) :
    runTx i (forM new Session.insert) (during t i cs rows) =
      (.ok (), during t i (cs ++ new.map .insert) rows) := by
  induction new generalizing cs with
  | nil => simp
  | cons r new ih =>
    obtain ⟨hr, hrest⟩ := h
    rw [List.forM_cons, runTx_bind, run_insert_of_accepts t i cs rows hr]
    have hview : (t.applyAll (cs ++ [.insert r])).AcceptsAll new := by
      rw [Tables.applyAll_snoc]
      exact hrest
    simpa using ih _ hview

theorem run_inserts_of_not_accepts (new : List Row) (h : ¬ (t.applyAll cs).AcceptsAll new) :
    ∃ e cs', e.ofServer = true ∧ runTx i (forM new Session.insert) (during t i cs rows) =
      (.error e, during t i cs' rows) := by
  induction new generalizing cs with
  | nil => exact absurd trivial h
  | cons r new ih =>
    rw [List.forM_cons, runTx_bind]
    by_cases hr : (t.applyAll cs).Admits r
    · rw [run_insert_of_accepts t i cs rows hr]
      apply ih
      rw [Tables.applyAll_snoc]
      exact fun hrest => h ⟨hr, hrest⟩
    · obtain ⟨e, hserver, he⟩ := run_insert_of_not_accepts t i cs rows hr
      exact ⟨e, cs, hserver, by rw [he]⟩

theorem run_flush_of_accepts (h : (t.applyAll cs).AcceptsAll rows) :
    runTx i Session.flush (during t i cs rows) = (.ok (), during t i (cs ++ rows.map .insert) []) := by
  rw [Session.flush, runTx_bind, run_takePending]
  exact run_inserts_of_accepts t i cs [] rows h

theorem run_flush_of_not_accepts (h : ¬ (t.applyAll cs).AcceptsAll rows) :
    ∃ e cs', e.ofServer = true ∧
      runTx i Session.flush (during t i cs rows) = (.error e, during t i cs' []) := by
  rw [Session.flush, runTx_bind, run_takePending]
  exact run_inserts_of_not_accepts t i cs [] rows h

theorem run_rollback : runTx i Session.rollback (during t i cs rows) = (.ok (), start t) := by
  refine (runTx_execute i _ _).trans ?_
  simp [exec, endTransaction_during, start_eq_during t i]

theorem run_closeSession_error (e : PyError) :
    runTx i (closeSession (.error e : Except PyError α)) (during t i cs rows) =
      (.error e, start t) := by
  rw [closeSession, runTx_bind, run_rollback]
  rfl

theorem run_commit :
    (runTx i Session.commit (during t i cs rows)).1 = .ok () ∧
      (runTx i Session.commit (during t i cs rows)).2.committed = t.applyAll cs := by
  constructor
  · rw [Session.commit, runTx_execute, exec]
  · rw [Session.commit, runTx_execute, exec]
    exact view_during t i cs rows

variable {t i cs rows} {ctx : RequestContext} {tenant_id : UUID} {tx : Tx α} {a : α}

theorem transact_of_accepts (hctx : ctx.tenant_id = some tenant_id)
    (h : runTx () tx (during t () [] []) = (.ok a, during t () cs rows))
    (hacc : (t.applyAll cs).AcceptsAll rows) :
    transact ctx tx t = (.ok a, t.applyAll (cs ++ rows.map .insert)) := by
  unfold transact getSession
  rw [hctx, start_eq_during t ()]
  simp only [runTx_handle, h, closeSession, runTx_bind, run_flush_of_accepts t () cs rows hacc]
  obtain ⟨hok, hcommitted⟩ := run_commit t () (cs ++ rows.map .insert) []
  rw [hok]
  exact Prod.ext rfl hcommitted

theorem transact_of_not_accepts (hctx : ctx.tenant_id = some tenant_id)
    (h : runTx () tx (during t () [] []) = (.ok a, during t () cs rows))
    (hacc : ¬ (t.applyAll cs).AcceptsAll rows) : ∃ e, transact ctx tx t = (.error e, t) := by
  obtain ⟨e, cs', -, hflush⟩ := run_flush_of_not_accepts t () cs rows hacc
  refine ⟨e, ?_⟩
  unfold transact getSession
  rw [hctx, start_eq_during t ()]
  simp only [runTx_handle, h, closeSession, runTx_bind, hflush, runTx_throw]
  rfl

theorem transact_of_error (hctx : ctx.tenant_id = some tenant_id) {e : PyError}
    (h : runTx () tx (during t () [] []) = (.error e, during t () cs rows)) :
    transact ctx tx t = (.error e, t) := by
  unfold transact getSession
  rw [hctx, start_eq_during t ()]
  simp only [runTx_handle, h, run_closeSession_error]
  rfl

end Hawiya
