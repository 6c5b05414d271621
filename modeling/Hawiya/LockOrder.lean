import Hawiya.ApiCalls
import Hawiya.DatabaseInvariants
import Hawiya.Lib.Knowledge

/-!
# The order of locks

Until its transaction ends, a session holds the unique keys it has inserted and the extraction it
has linked, and whoever wants one of them waits. Every session takes keys in one order: its
extraction, its person, the passport, the Emirates ID. It links its own extraction, once, and if it
holds a key by then it holds the key of that extraction.
-/

namespace Hawiya
open PyString Calendar Interaction

/-- The place of a key in the order. -/
def IndexKey.rank : IndexKey → ℕ
  | .extraction _ => 0
  | .person _ => 1
  | .activeIdentifier _ .passport _ => 2
  | .activeIdentifier .. => 3

theorem IndexKey.rank_le (key : IndexKey) : key.rank ≤ 3 := by
  cases key with
  | extraction u => exact Nat.zero_le _
  | person u => exact Nat.one_le_ofNat
  | activeIdentifier tenant_id identifier_type value =>
    cases identifier_type with
    | passport => exact Nat.AtLeastTwo.prop
    | emiratesId | gccId | priorPassport => exact le_rfl

/-- Above the level and above the keys. -/
def climb (level : ℕ) : List IndexKey → ℕ
  | [] => level
  | key :: keys => max (key.rank + 1) (climb level keys)

section Climb
variable {level bound : ℕ} {keys : List IndexKey} {key : IndexKey}

theorem le_climb : level ≤ climb level keys := by
  induction keys with
  | nil => exact le_refl level
  | cons key keys ih => exact le_max_of_le_right ih

theorem rank_lt_climb (hkey : key ∈ keys) : key.rank < climb level keys := by
  induction keys with
  | nil => cases hkey
  | cons key' keys ih =>
    rcases List.mem_cons.mp hkey with rfl | hkey
    · exact lt_max_of_lt_left (Nat.lt_succ_self _)
    · exact lt_max_of_lt_right (ih hkey)

theorem climb_le (hlevel : level ≤ bound) (hkeys : ∀ key ∈ keys, key.rank < bound) :
    climb level keys ≤ bound := by
  induction keys with
  | nil => exact hlevel
  | cons key keys ih =>
    exact max_le (hkeys key List.mem_cons_self)
      (ih (fun key' hkey' => hkeys key' (List.mem_cons_of_mem _ hkey')))

end Climb

/-- The rows can be inserted one after the other from the level on, and stay below the bound. -/
def Ascends (bound : ℕ) : ℕ → List Row → Prop
  | level, [] => level ≤ bound
  | level, r :: rows =>
      (∀ key ∈ r.keys, level ≤ key.rank) ∧ Ascends bound (climb level r.keys) rows

section Ascends
variable {level bound bound' : ℕ} {rows : List Row} {r : Row}

theorem Ascends.level_le (h : Ascends bound level rows) : level ≤ bound := by
  induction rows generalizing level with
  | nil => exact h
  | cons r rows ih => exact le_climb.trans (ih h.2)

/-- A row is added whose keys come after those of the others. -/
theorem Ascends.add (h : Ascends bound level rows) (hbound : bound ≤ bound')
    (hkeys : ∀ key ∈ r.keys, bound ≤ key.rank ∧ key.rank < bound') :
    Ascends bound' level (rows ++ [r]) := by
  induction rows generalizing level with
  | nil =>
    exact ⟨fun key hkey => le_trans h (hkeys key hkey).1,
      climb_le (le_trans h hbound) (fun key hkey => (hkeys key hkey).2)⟩
  | cons r' rows ih => exact ⟨h.1, ih h.2⟩

theorem Ascends.mono (h : Ascends bound level rows) (hbound : bound ≤ bound') :
    Ascends bound' level rows := by
  induction rows generalizing level with
  | nil => exact le_trans h hbound
  | cons r rows ih => exact ⟨h.1, ih h.2⟩

end Ascends

/-- What a session is to flush, the level above all keys it holds, and whether it holds the key of
its extraction and has linked it. -/
structure Locks where
  pending : List Row := []
  level : ℕ := 0
  inserted : Bool := false
  linked : Bool := false

/-- A statement that only looks. -/
def DbOp.Looks : DbOp → Prop
  | .selectIdentifiers .. => True
  | .selectPersons .. => True
  | .selectPersonIdentifiers _ => True
  | .selectPersonNameVariants _ => True
  | _ => False

namespace Locks

def insert (x : UUID) (k : Locks) (r : Row) : Locks :=
  { k with
    level := climb k.level r.keys
    inserted := k.inserted || decide (.extraction x ∈ r.keys) }

/-- Nothing is held. -/
def Free (k : Locks) : Prop := k.level = 0 ∧ k.linked = false

def mayTake (x : UUID) (k : Locks) : DbOp → Prop
  | .insert r => ∀ key ∈ r.keys, k.level ≤ key.rank
  | .updateExtraction extraction_id .. =>
      extraction_id = x ∧ k.linked = false ∧ (k.inserted = true ∨ k.level = 0)
  | _ => True

/-- What the session holds and is to flush after a reply. -/
def afterwards (x : UUID) (k : Locks) : (op : DbOp) → Except PyError op.Reply → Locks
  | .add r, _ => { k with pending := k.pending ++ [r] }
  | .takePending, _ => { k with pending := [] }
  | .insert r, .ok _ => k.insert x r
  | .updateExtraction .., _ => { k with linked := true }
  | .commit, _ => { pending := k.pending }
  | .rollback, _ => {}
  | _, _ => k

/-- What is certain of a reply. -/
def Certain (k : Locks) : (op : DbOp) → Except PyError op.Reply → Prop
  | .takePending, reply => reply = .ok k.pending
  | _, _ => True

/-- The order for a session whose extraction is `x`. -/
def order (x : UUID) : Protocol DbOp DbOp.Reply PyError Locks where
  may k op := k.mayTake x op
  learns k op reply k' := k.Certain op reply ∧ k' = k.afterwards x op reply

/-- Whatever is to be flushed can be. -/
def Steady (k : Locks) : Prop := Ascends 4 k.level k.pending

/-- What holds after a value, or after an exception that a handler may still catch. -/
def Ends {α : Type} (Q : α → Locks → Prop) : Except PyError α → Locks → Prop
  | .ok a, k => Q a k
  | .error _, k => k.Steady

def Climbs {α : Type} (x : UUID) (p : Tx α) (k : Locks) (Q : α → Locks → Prop) : Prop :=
  (order x).Follows p k (Ends Q)

variable {α β : Type} {x : UUID} {k k' : Locks} {p : Tx α} {Q Q' : α → Locks → Prop} {r : Row}

namespace Climbs

theorem mono (h : Climbs x p k Q) (hQ : ∀ a k', Q a k' → Q' a k') : Climbs x p k Q' := by
  refine Protocol.Follows.mono h (fun r k' hr => ?_)
  cases r with
  | ok a => exact hQ a k' hr
  | error e => exact hr

theorem pure {a : α} (h : Q a k) : Climbs x (pure a) k Q := h

theorem bind {f : α → Tx β} {Q : β → Locks → Prop}
    (h : Climbs x p k (fun a k' => Climbs x (f a) k' Q)) : Climbs x (p >>= f) k Q := by
  refine Protocol.Follows.bind (Protocol.Follows.mono h (fun r k' hr => ?_))
  cases r with
  | ok a => exact hr
  | error e => exact hr

theorem tryCatch {f : PyError → Tx α} (h : Climbs x p k Q)
    (hf : ∀ e k', k'.Steady → Climbs x (f e) k' Q) : Climbs x (tryCatch p f) k Q := by
  refine Protocol.Follows.handle (Protocol.Follows.mono h (fun r k' hr => ?_))
  cases r with
  | ok a => exact hr
  | error e => exact hf e k' hr

theorem liftM {r : Except PyError α} (hk : k.Steady) (hok : ∀ a, r = .ok a → Q a k) :
    Climbs x (liftM r : Tx α) k Q := by
  cases r with
  | ok a => exact hok a rfl
  | error e => exact hk

theorem execute (op : DbOp) {Q : op.Reply → Locks → Prop} (hmay : k.mayTake x op)
    (h : ∀ r, k.Certain op r → Ends Q r (k.afterwards x op r)) :
    Climbs x (Hawiya.execute op) k Q := by
  refine Protocol.Follows.perform hmay (fun r k' hk' => ?_)
  obtain ⟨hcertain, rfl⟩ := hk'
  exact h r hcertain

/-- A program that only looks takes nothing. -/
theorem of_looks (h : p.Only DbOp.Looks) (hk : k.Steady) : Climbs x p k (fun _ k' => k' = k) := by
  have hstill : ∀ op, op.Looks → (order x).may k op ∧
      ∀ r k', (order x).learns k op r k' → k' = k := by
    intro op hop
    cases op with
    | selectIdentifiers | selectPersons | selectPersonIdentifiers | selectPersonNameVariants =>
      exact ⟨trivial, fun _ _ hk' => hk'.2⟩
    | _ => cases hop
  refine (Protocol.Follows.of_still h hstill).mono (fun r k' hk' => ?_)
  subst hk'
  cases r with
  | ok a => rfl
  | error e => exact hk

end Climbs

/-- The session can go on to keys from the bound on, and has not linked. If it is `extracting`, it
holds the key of its extraction, or no key yet and the extraction is the first to be flushed. -/
structure Standing (x : UUID) (extracting : Prop) (bound : ℕ) (k : Locks) : Prop where
  ascends : Ascends bound k.level k.pending
  unlinked : k.linked = false
  led : extracting → k.inserted = true ∨ k.level = 0 ∧ ∃ row rest,
    k.pending = .extraction row :: rest ∧ row.extraction_id = x

/-- A flush with these rows left to insert. -/
structure Flushing (x : UUID) (extracting : Prop) (bound : ℕ) (linked : Bool) (rows : List Row)
    (k : Locks) : Prop where
  ascends : Ascends bound k.level rows
  pending : k.pending = []
  linked : k.linked = linked
  led : extracting → k.inserted = true ∨ ∃ r ∈ rows, .extraction x ∈ r.keys

variable {extracting : Prop} {bound bound' : ℕ} {linked : Bool} {rows : List Row}

theorem Standing.steady (h : Standing x extracting bound k) (hbound : bound ≤ 4) : k.Steady :=
  h.ascends.mono hbound

theorem Standing.mono (h : Standing x extracting bound k) (hbound : bound ≤ bound') :
    Standing x extracting bound' k :=
  { h with ascends := h.ascends.mono hbound }

theorem Flushing.steady (h : Flushing x extracting bound linked rows k) (hbound : bound ≤ 4) :
    k.Steady := by
  rw [Steady, h.pending]
  exact h.ascends.level_le.trans hbound

theorem climbs_add (hsteady : Steady { k with pending := k.pending ++ [r] }) :
    Climbs x (Session.add r) k (fun _ k' => k' = { k with pending := k.pending ++ [r] }) := by
  refine Climbs.execute (.add r) trivial (fun reply _ => ?_)
  cases reply with
  | ok a => rfl
  | error e => exact hsteady

/-- A row of the next keys. -/
theorem stands_add (bound' : ℕ) (h : Standing x extracting bound k) (hbound : bound ≤ bound')
    (hbound' : bound' ≤ 4) (hkeys : ∀ key ∈ r.keys, bound ≤ key.rank ∧ key.rank < bound') :
    Climbs x (Session.add r) k (fun _ k' => Standing x extracting bound' k') := by
  have hascends : Ascends bound' k.level (k.pending ++ [r]) := h.ascends.add hbound hkeys
  refine (climbs_add (hascends.mono hbound')).mono (fun _ k' hk' => ?_)
  subst hk'
  refine ⟨hascends, h.unlinked, fun he => (h.led he).imp_right ?_⟩
  rintro ⟨hlevel, row, rest, hpending, hrow⟩
  refine ⟨hlevel, row, rest ++ [r], ?_, hrow⟩
  rw [hpending]
  rfl

theorem climbs_insert (hbound : bound ≤ 4)
    (h : Flushing x extracting bound linked (r :: rows) k) :
    Climbs x (Session.insert r) k (fun _ k' => Flushing x extracting bound linked rows k') := by
  refine Climbs.execute (.insert r) h.ascends.1 (fun reply _ => ?_)
  cases reply with
  | error e => exact h.steady hbound
  | ok a =>
    refine ⟨h.ascends.2, h.pending, h.linked, fun he => ?_⟩
    change (k.inserted || decide (.extraction x ∈ r.keys)) = true ∨ _
    rcases h.led he with hinserted | ⟨r', hr', hkey⟩
    · exact .inl (by rw [hinserted, Bool.true_or])
    · rcases List.mem_cons.mp hr' with rfl | hr'
      · exact .inl (by rw [decide_eq_true hkey, Bool.or_true])
      · exact .inr ⟨r', hr', hkey⟩

theorem climbs_flush (hbound : bound ≤ 4) (hascends : Ascends bound k.level k.pending)
    (hled : extracting → k.inserted = true ∨ ∃ r ∈ k.pending, .extraction x ∈ r.keys) :
    Climbs x Session.flush k (fun _ k' => Flushing x extracting bound k.linked [] k') := by
  apply Climbs.bind
  refine Climbs.execute .takePending trivial (fun reply hreply => ?_)
  rw [show reply = .ok k.pending from hreply]
  refine Protocol.Follows.forM (I := fun rows k' => Flushing x extracting bound k.linked rows k')
    (fun r rest k' hk' => ?_) (fun _ hk' => hk') k.pending ⟨hascends, rfl, rfl, hled⟩
  refine Protocol.Follows.mono (climbs_insert hbound hk') (fun reply k'' hk'' => ?_)
  cases reply with
  | ok a => exact hk''
  | error e => exact hk''

end Locks
end Hawiya
