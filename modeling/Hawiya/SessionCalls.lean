import Hawiya.SessionAccounts

/-!
# The calls keep to their protocol

`Keeps` is the judgement about code that runs inside a bound session: it does what the protocol of
the tenant permits, ends with a flush list that may be written, and loses no person it knew. One
rule for each function; callers use these and never unfold a callee.
-/

namespace Hawiya
open PyString Calendar Interaction

namespace SessionTx
variable {α β : Type}

theorem statements_handle (p : Tx α) (f : Except PyError α → Tx β) :
    statements (p.handle f) = (statements p).handle (fun r => statements (f r)) := by
  induction p with
  | pure a => rfl
  | throw e => rfl
  | call op next ih => exact congrArg (Program.call _) (funext (fun r => ih r))

theorem statements_bind (p : Tx α) (f : α → Tx β) :
    statements (p >>= f) = statements p >>= fun a => statements (f a) := by
  rw [Program.bind_def, Program.bind, statements_handle]
  congr 1
  funext r
  cases r with
  | ok a => rfl
  | error e => rfl

theorem statements_tryCatch (p : Tx α) (h : PyError → Tx α) :
    statements (tryCatch p h) = tryCatch (statements p) (fun e => statements (h e)) := by
  rw [Program.tryCatch_def, Program.tryCatch_def, statements_handle]
  congr 1
  funext r
  cases r with
  | ok a => rfl
  | error e => rfl

theorem statements_execute (op : DbOp) :
    statements (execute op) = Program.perform (SessionOp.statement op) := by
  refine congrArg (Program.call _) (funext (fun r => ?_))
  cases r with
  | ok a => rfl
  | error e => rfl

end SessionTx

namespace Account
variable {tenant : UUID} {drawn : UUID → Prop} {k k' k'' : Account} {r : Row} {u : UUID} {f : Fact}

/-- What the session is to flush, the transaction may write. -/
structure Ready (tenant : UUID) (drawn : UUID → Prop) (k : Account) : Prop where
  bound : k.bound = true
  pending : ∀ r ∈ k.pending, k.Supports tenant drawn r

structure Before (k k' : Account) : Prop where
  written : ∀ u ∈ k.written, u ∈ k'.written
  facts : ∀ f ∈ k.facts, f.lasting = true → f ∈ k'.facts

theorem Before.refl (k : Account) : k.Before k := ⟨fun _ hu => hu, fun _ hf _ => hf⟩

theorem Before.trans (h : k.Before k') (h' : k'.Before k'') : k.Before k'' where
  written u hu := h'.written u (h.written u hu)
  facts f hf hlasting := h'.facts f (h.facts f hf hlasting) hlasting

theorem Before.knows (h : k.Before k') (hu : k.Knows u) : k'.Knows u := h.facts _ hu rfl

theorem Before.supports (h : k.Before k') (hr : k.Supports tenant drawn r) :
    k'.Supports tenant drawn r :=
  { hr with
    reference := fun u hu => h.written u (hr.reference u hu)
    names := fun u hu => h.knows (hr.names u hu) }

theorem before_learn (k : Account) (facts : List Fact) : k.Before (k.learn facts) :=
  ⟨fun _ hu => hu, fun _ hf _ => List.mem_append_left _ hf⟩

theorem before_insert (k : Account) (r : Row) : k.Before (k.insert r) where
  written _ hu := mem_written_insert.mpr (.inl hu)
  facts _ hf hlasting := mem_facts_insert.mpr (.inl ⟨hf, hlasting⟩)

theorem before_pending (k : Account) (rows : List Row) : k.Before { k with pending := rows } :=
  ⟨fun _ hu => hu, fun _ hf _ => hf⟩

theorem Ready.learn (h : k.Ready tenant drawn) (facts : List Fact) :
    (k.learn facts).Ready tenant drawn where
  bound := h.bound
  pending r hr := (before_learn k facts).supports (h.pending r hr)

theorem Ready.setPending (h : k.Ready tenant drawn) {rows : List Row}
    (hrows : ∀ r ∈ rows, k.Supports tenant drawn r) :
    Ready tenant drawn { k with pending := rows } where
  bound := h.bound
  pending r hr := (before_pending k rows).supports (hrows r hr)

variable {α β : Type} {p : SessionTx α} {Q Q' : α → Account → Prop}
variable {E E' : PyError → Account → Prop}

def Ends (tenant : UUID) (drawn : UUID → Prop) (k : Account) (Q : α → Account → Prop)
    (E : PyError → Account → Prop) (r : Except PyError α) (k' : Account) : Prop :=
  k'.Ready tenant drawn ∧ k.Before k' ∧
    match r with
    | .ok a => Q a k'
    | .error e => E e k'

def Keeps (tenant : UUID) (drawn : UUID → Prop) (p : SessionTx α) (k : Account)
    (Q : α → Account → Prop) (E : PyError → Account → Prop) : Prop :=
  (protocol tenant drawn).Follows p k (k.Ends tenant drawn Q E)

namespace Keeps

theorem mono (h : Keeps tenant drawn p k Q E)
    (hQ : ∀ a k', k'.Ready tenant drawn → k.Before k' → Q a k' → Q' a k')
    (hE : ∀ e k', k'.Ready tenant drawn → k.Before k' → E e k' → E' e k') :
    Keeps tenant drawn p k Q' E' := by
  refine Protocol.Follows.mono h (fun r k' hr => ?_)
  obtain ⟨hready, hbefore, hr⟩ := hr
  refine ⟨hready, hbefore, ?_⟩
  cases r with
  | ok a => exact hQ a k' hready hbefore hr
  | error e => exact hE e k' hready hbefore hr

theorem pure {a : α} (hk : k.Ready tenant drawn) (h : Q a k) : Keeps tenant drawn (pure a) k Q E :=
  ⟨hk, .refl k, h⟩

theorem throw {e : PyError} (hk : k.Ready tenant drawn) (h : E e k) :
    Keeps tenant drawn (throw e : SessionTx α) k Q E := ⟨hk, .refl k, h⟩

theorem handle {f : Except PyError α → SessionTx β} {Q : β → Account → Prop}
    (h : Keeps tenant drawn p k (fun a k' => Keeps tenant drawn (f (.ok a)) k' Q E)
      (fun e k' => Keeps tenant drawn (f (.error e)) k' Q E)) :
    Keeps tenant drawn (p.handle f) k Q E := by
  refine Protocol.Follows.handle (Protocol.Follows.mono h (fun r k' hr => ?_))
  obtain ⟨-, hbefore, hr⟩ := hr
  have hf : Keeps tenant drawn (f r) k' Q E := by
    cases r with
    | ok a => exact hr
    | error e => exact hr
  refine Protocol.Follows.mono hf (fun r' k'' hr' => ?_)
  obtain ⟨hready, hbefore', hr'⟩ := hr'
  exact ⟨hready, hbefore.trans hbefore', hr'⟩

theorem bind {f : α → SessionTx β} {Q : β → Account → Prop}
    (h : Keeps tenant drawn p k (fun a k' => Keeps tenant drawn (f a) k' Q E) E) :
    Keeps tenant drawn (p >>= f) k Q E :=
  handle (h.mono (fun _ _ _ _ ha => ha) (fun _ _ hready _ he => throw hready he))

theorem tryCatch {f : PyError → SessionTx α}
    (h : Keeps tenant drawn p k Q (fun e k' => Keeps tenant drawn (f e) k' Q E)) :
    Keeps tenant drawn (tryCatch p f) k Q E :=
  handle (h.mono (fun _ _ hready _ ha => pure hready ha) (fun _ _ _ _ he => he))

theorem liftM {r : Except PyError α} (hk : k.Ready tenant drawn) (hok : ∀ a, r = .ok a → Q a k)
    (herror : ∀ e, r = .error e → E e k) :
    Keeps tenant drawn (SessionTx.statements (liftM r : Tx α)) k Q E := by
  cases r with
  | ok a => exact pure hk (hok a rfl)
  | error e => exact throw hk (herror e rfl)

theorem perform {op : SessionOp} {Q : op.Reply → Account → Prop} (hmay : k.may tenant drawn op)
    (h : ∀ r, (∀ e, r = .error e → e.ofServer = true) → k.Expects op r →
      k.Ends tenant drawn Q E r (k.after op r)) :
    Keeps tenant drawn (Program.perform op) k Q E := by
  refine Protocol.Follows.perform hmay (fun r k' hk' => ?_)
  obtain ⟨hserver, hexpected, rfl⟩ := hk'
  exact h r hserver hexpected

end Keeps

/-- Exceptions that name no person need no account. -/
def Tolerant (E : PyError → Account → Prop) : Prop :=
  ∀ e k, (∀ found, e ≠ .possibleDuplicateError found) → E e k

theorem Tolerant.server (hE : Tolerant E) {e : PyError} (h : e.ofServer = true) (k : Account) :
    E e k :=
  hE e k (fun _ he => by
    rw [he] at h
    cases h)

variable (hE : Tolerant E)
include hE

theorem keeps_select (op : SessionOp) {teaches : op.Reply → List Fact}
    (Q : op.Reply → Account → Prop) (hk : k.Ready tenant drawn) (hmay : k.may tenant drawn op)
    (hafter : ∀ r, k.after op r = k.told (fun a => k.learn (teaches a)) r)
    (hQ : ∀ a, k.Expects op (.ok a) → Q a (k.learn (teaches a))) :
    Keeps tenant drawn (Program.perform op) k Q E := by
  refine Keeps.perform hmay (fun r hserver hexpected => ?_)
  rw [hafter]
  cases r with
  | ok a => exact ⟨hk.learn _, before_learn k _, hQ a hexpected⟩
  | error e => exact ⟨hk, .refl k, hE.server (hserver e rfl) k⟩

theorem keeps_add (hk : k.Ready tenant drawn) (hr : k.Supports tenant drawn r) :
    Keeps tenant drawn (SessionTx.statements (Session.add r)) k
      (fun _ k' => k' = { k with pending := k.pending ++ [r] }) E := by
  rw [Session.add, SessionTx.statements_execute]
  refine Keeps.perform trivial (fun reply hserver _ => ?_)
  have hready : Ready tenant drawn { k with pending := k.pending ++ [r] } := by
    apply hk.setPending
    intro r' hr'
    rcases List.mem_append.mp hr' with hr' | hr'
    · exact hk.pending r' hr'
    · exact List.mem_singleton.mp hr' ▸ hr
  cases reply with
  | ok a => exact ⟨hready, before_pending k _, rfl⟩
  | error e => exact ⟨hready, before_pending k _, hE.server (hserver e rfl) _⟩

theorem keeps_insert (hk : k.Ready tenant drawn) (hr : k.Supports tenant drawn r) :
    Keeps tenant drawn (SessionTx.statements (Session.insert r)) k
      (fun _ k' => k' = k.insert r) E := by
  rw [Session.insert, SessionTx.statements_execute]
  refine Keeps.perform ⟨hk.bound, hr⟩ (fun reply hserver _ => ?_)
  cases reply with
  | error e => exact ⟨hk, .refl k, hE.server (hserver e rfl) k⟩
  | ok a =>
    have hready : (k.insert r).Ready tenant drawn := by
      refine ⟨bound_insert.trans hk.bound, fun r' hr' => ?_⟩
      rw [pending_insert] at hr'
      exact (before_insert k r).supports (hk.pending r' hr')
    exact ⟨hready, before_insert k r, rfl⟩

/-- The persons among rows that were written. -/
def Wrote (rows : List Row) (k : Account) : Prop :=
  ∀ p, Row.person p ∈ rows → p.person_uuid ∈ k.written ∧ ∀ f ∈ Fact.ofPerson p, f ∈ k.facts

theorem keeps_insertAll (rows : List Row) (hk : k.Ready tenant drawn) (hpending : k.pending = [])
    (hrows : ∀ r ∈ rows, k.Supports tenant drawn r) :
    Keeps tenant drawn (SessionTx.statements (forM rows Session.insert)) k
      (fun _ k' => k'.pending = [] ∧ Wrote rows k' ∧ (rows = [] → k' = k)) E := by
  induction rows generalizing k with
  | nil => exact Keeps.pure hk ⟨hpending, fun p hp => absurd hp List.not_mem_nil, fun _ => rfl⟩
  | cons r rows ih =>
    rw [List.forM_cons, SessionTx.statements_bind]
    apply Keeps.bind
    refine (keeps_insert hE hk (hrows r List.mem_cons_self)).mono
      (fun _ k' hready hbefore heq => ?_)
      (fun _ _ _ _ he => he)
    subst heq
    have hrest : ∀ r' ∈ rows, (k.insert r).Supports tenant drawn r' :=
      fun r' hr' => hbefore.supports (hrows r' (List.mem_cons_of_mem r hr'))
    refine (ih hready (pending_insert.trans hpending) hrest).mono
      (fun _ k'' _ hbefore' hk'' => ?_) (fun _ _ _ _ he => he)
    obtain ⟨hempty, hwrote, -⟩ := hk''
    refine ⟨hempty, fun p hp => ?_, fun hnil => by cases hnil⟩
    rcases List.mem_cons.mp hp with rfl | hp
    · refine ⟨hbefore'.written _ (mem_written_insert.mpr (.inr ⟨p, rfl, rfl⟩)), fun f hf => ?_⟩
      have hlasting : f.lasting = true := by
        rcases List.mem_cons.mp hf with rfl | hf
        · rfl
        · rw [List.mem_singleton.mp hf]
          rfl
      exact hbefore'.facts f (mem_facts_insert.mpr (.inr ⟨p, rfl, hf⟩)) hlasting
    · exact hwrote p hp

omit hE in
theorem keeps_takePending (hk : k.Ready tenant drawn) :
    Keeps tenant drawn (SessionTx.statements Session.takePending) k
      (fun rows k' => rows = k.pending ∧ k' = { k with pending := [] }) E := by
  rw [Session.takePending, SessionTx.statements_execute]
  refine Keeps.perform trivial (fun r _ hexpected => ?_)
  have hready : Ready tenant drawn { k with pending := [] } :=
    hk.setPending (fun _ hr => absurd hr List.not_mem_nil)
  have hr : r = .ok k.pending := hexpected
  rw [hr]
  exact ⟨hready, before_pending k [], rfl, rfl⟩

theorem keeps_flush (hk : k.Ready tenant drawn) :
    Keeps tenant drawn (SessionTx.statements Session.flush) k
      (fun _ k' => k'.pending = [] ∧ Wrote k.pending k' ∧
        (k.pending = [] → k' = { k with pending := [] })) E := by
  rw [Session.flush, SessionTx.statements_bind]
  apply Keeps.bind
  refine (keeps_takePending hk).mono (fun rows k' hready hbefore h => ?_) (fun _ _ _ _ he => he)
  obtain ⟨rfl, rfl⟩ := h
  exact keeps_insertAll hE k.pending hready rfl
    (fun r hr => (before_pending k []).supports (hk.pending r hr))

theorem keeps_scalarOneOrNone {l : List α} {Q : Option α → Account → Prop}
    (hk : k.Ready tenant drawn) (hQ : ∀ o : Option α, (∀ a ∈ o, a ∈ l) → Q o k) :
    Keeps tenant drawn (SessionTx.statements (scalarOneOrNone l)) k Q E := by
  rcases l with _ | ⟨a, _ | ⟨b, l⟩⟩
  · exact Keeps.pure hk (hQ none (fun _ h => by cases h))
  · exact Keeps.pure hk (hQ (some a) (fun _ h => by cases h; exact List.mem_singleton_self a))
  · exact Keeps.throw hk (hE _ _ (fun _ he => by cases he))

theorem keeps_findActive (hk : k.Ready tenant drawn) (identifier_type : IdentifierType)
    (identifier_value : Str) :
    Keeps tenant drawn (SessionTx.statements
        (PersonIdentifierRepository.findActive tenant identifier_type identifier_value)) k
      (fun ident k' => k'.pending = k.pending ∧ ∀ r ∈ ident, k'.Knows r.person_uuid) E := by
  rw [PersonIdentifierRepository.findActive, SessionTx.statements_bind,
    PersonIdentifierRepository.selectActive, SessionTx.statements_execute]
  apply Keeps.bind
  refine (keeps_select hE (.statement (.selectIdentifiers tenant identifier_type identifier_value))
    (fun rows : List PersonIdentifier => fun k' => k'.pending = k.pending ∧
      ∀ r ∈ rows, k'.Knows r.person_uuid) hk ⟨hk.bound, rfl⟩ (fun _ => rfl) ?_).mono ?_
    (fun _ _ _ _ he => he)
  · exact fun rows _ => ⟨rfl, fun r hr => List.mem_append_right _ (List.mem_map_of_mem hr)⟩
  · intro rows k' hready _ hrows
    exact keeps_scalarOneOrNone hE hready (fun o ho => ⟨hrows.1, fun r hr => hrows.2 r (ho r hr)⟩)

/-- The session has read or written the row of a person. -/
def KnowsRow (k : Account) (p : Person) : Prop := ∀ f ∈ Fact.ofPerson p, f ∈ k.facts

omit hE in
theorem KnowsRow.knows {p : Person} (h : k.KnowsRow p) : k.Knows p.person_uuid :=
  h _ (List.mem_cons_of_mem _ (List.mem_singleton_self _))

omit hE in
theorem lasting_ofPerson {p : Person} (hf : f ∈ Fact.ofPerson p) : f.lasting = true := by
  rcases List.mem_cons.mp hf with rfl | hf
  · rfl
  · rw [List.mem_singleton.mp hf]
    rfl

omit hE in
theorem Before.knowsRow (h : k.Before k') {p : Person} (hp : k.KnowsRow p) : k'.KnowsRow p :=
  fun f hf => h.facts f (hp f hf) (lasting_ofPerson hf)

omit hE in
theorem knowsRow_learn {rows : List Person} {p : Person} (hp : p ∈ rows) :
    (k.learn (rows.flatMap Fact.ofPerson)).KnowsRow p :=
  fun _ hf => List.mem_append_right _ (List.mem_flatMap.mpr ⟨p, hp, hf⟩)

theorem keeps_personGet (hk : k.Ready tenant drawn) (person_uuid : UUID) :
    Keeps tenant drawn (SessionTx.statements (PersonRepository.get tenant person_uuid)) k
      (fun person k' => k'.pending = k.pending ∧
        ∀ p ∈ person, p.person_uuid = person_uuid ∧ k'.KnowsRow p) E := by
  rw [PersonRepository.get, SessionTx.statements_bind, PersonRepository.select,
    SessionTx.statements_execute]
  apply Keeps.bind
  refine (keeps_select hE (.statement (.selectPersons tenant person_uuid))
    (fun rows : List Person => fun k' => k'.pending = k.pending ∧
      ∀ p ∈ rows, p.person_uuid = person_uuid ∧ k'.KnowsRow p) hk ⟨hk.bound, rfl⟩
    (fun _ => rfl) ?_).mono ?_ (fun _ _ _ _ he => he)
  · exact fun rows hexpected => ⟨rfl, fun p hp => ⟨hexpected rows rfl p hp, knowsRow_learn hp⟩⟩
  · intro rows k' hready _ hrows
    exact keeps_scalarOneOrNone hE hready (fun o ho => ⟨hrows.1, fun p hp => hrows.2 p (ho p hp)⟩)

omit hE in
theorem supports_of_names (htenant : r.tenant_id = tenant) (hfresh : ∀ u ∈ r.fresh, drawn u)
    (href : r.reference? = none) (hnames : r.names = []) : k.Supports tenant drawn r where
  tenant_id := htenant
  fresh := hfresh
  reference u hu := by
    rw [href] at hu
    cases hu
  names u hu := by
    rw [hnames] at hu
    cases hu

theorem keeps_auditWrite (hk : k.Ready tenant drawn) (ctx : RequestContext)
    (args : AuditWriter.Args) :
    Keeps tenant drawn (SessionTx.statements (AuditWriter.write ctx tenant args)) k
      (fun _ _ => True) E :=
  (keeps_add hE hk (supports_of_names rfl (fun _ hu => by cases hu) rfl rfl)).mono
    (fun _ _ _ _ _ => trivial) (fun _ _ _ _ he => he)

omit hE in
/-- A row with a foreign key, about a person the transaction has written. -/
theorem supports_of_written (htenant : r.tenant_id = tenant) (hfresh : r.fresh = [])
    (hu : u ∈ k.written) (hknows : k.Knows u) (href : r.reference? = some u)
    (hnames : r.names = [u]) : k.Supports tenant drawn r where
  tenant_id := htenant
  fresh v hv := by
    rw [hfresh] at hv
    cases hv
  reference v hv := by
    rw [href] at hv
    exact Option.some.inj hv ▸ hu
  names v hv := by
    rw [hnames] at hv
    exact List.mem_singleton.mp hv ▸ hknows

theorem keeps_identifierCreate (hk : k.Ready tenant drawn) {args : PersonIdentifierRepository.Args}
    (hwritten : args.person_uuid ∈ k.written) (hknows : k.Knows args.person_uuid) :
    Keeps tenant drawn (SessionTx.statements (PersonIdentifierRepository.create tenant args)) k
      (fun _ _ => True) E := by
  rw [PersonIdentifierRepository.create, SessionTx.statements_bind]
  apply Keeps.bind
  exact (keeps_add hE hk (supports_of_written rfl rfl hwritten hknows rfl rfl)).mono
    (fun _ _ hready _ _ => Keeps.pure hready trivial) (fun _ _ _ _ he => he)

theorem keeps_addNameVariants (lib : Libraries) (hk : k.Ready tenant drawn)
    (hwritten : u ∈ k.written) (hknows : k.Knows u) (specs : List PersonRepository.VariantSpec) :
    Keeps tenant drawn (SessionTx.statements (forM specs (fun spec => do
      let _ ← PersonRepository.addNameVariant lib tenant u spec))) k (fun _ _ => True) E := by
  induction specs generalizing k with
  | nil => exact Keeps.pure hk trivial
  | cons spec specs ih =>
    rw [List.forM_cons, SessionTx.statements_bind]
    apply Keeps.bind
    rw [SessionTx.statements_bind, PersonRepository.addNameVariant, SessionTx.statements_bind]
    apply Keeps.bind
    apply Keeps.bind
    refine (keeps_add hE hk (supports_of_written rfl rfl hwritten hknows rfl rfl)).mono
      (fun _ k' hready hbefore _ => ?_) (fun _ _ _ _ he => he)
    apply Keeps.pure hready
    apply Keeps.pure hready
    exact ih hready (hbefore.written _ hwritten) (hbefore.knows hknows)

theorem keeps_personCreate (lib : Libraries) (hk : k.Ready tenant drawn) {person_uuid : UUID}
    (hdrawn : drawn person_uuid) (args : PersonRepository.Args) :
    Keeps tenant drawn
      (SessionTx.statements (PersonRepository.create lib tenant person_uuid args)) k
      (fun person k' => person = args.row lib tenant person_uuid ∧
        person.person_uuid ∈ k'.written ∧ k'.KnowsRow person) E := by
  rw [PersonRepository.create, SessionTx.statements_bind]
  apply Keeps.bind
  have hsupports : k.Supports tenant drawn (.person (args.row lib tenant person_uuid)) :=
    supports_of_names rfl (fun _ hu => List.mem_singleton.mp hu ▸ hdrawn) rfl rfl
  refine (keeps_add hE hk hsupports).mono (fun _ k' hready _ hadded => ?_) (fun _ _ _ _ he => he)
  rw [SessionTx.statements_bind]
  apply Keeps.bind
  refine (keeps_flush hE hready).mono (fun _ k'' hready hbefore hflushed => ?_)
    (fun _ _ _ _ he => he)
  have hmem : Row.person (args.row lib tenant person_uuid) ∈ k'.pending := by
    rw [hadded]
    exact List.mem_append_right _ (List.mem_singleton_self _)
  obtain ⟨hwritten, hrow⟩ := hflushed.2.1 _ hmem
  rw [SessionTx.statements_bind]
  apply Keeps.bind
  refine (keeps_addNameVariants hE lib hready hwritten (KnowsRow.knows hrow) _).mono
    (fun _ _ hready hbefore _ => ?_) (fun _ _ _ _ he => he)
  exact Keeps.pure hready ⟨rfl, hbefore.written _ hwritten, hbefore.knowsRow hrow⟩

open DeterministicMatcher

theorem keeps_matchEmiratesId (hk : k.Ready tenant drawn) (q : Query) :
    Keeps tenant drawn (SessionTx.statements (matchEmiratesId tenant q)) k
      (fun result k' => k'.pending = k.pending ∧
        ∀ m ∈ result, ∀ u ∈ m.person_uuid, k'.Knows u) E := by
  unfold matchEmiratesId
  cases orNone q.emirates_id with
  | none => exact Keeps.pure hk ⟨rfl, fun _ hm => by cases hm⟩
  | some emirates_id =>
    rw [SessionTx.statements_bind]
    apply Keeps.bind
    refine (keeps_findActive hE hk _ emirates_id).mono (fun ident k' hready _ hident => ?_)
      (fun _ _ _ _ he => he)
    refine Keeps.pure hready ⟨hident.1, fun m hm u hu => ?_⟩
    obtain ⟨r, hr, rfl⟩ := Option.map_eq_some_iff.mp hm
    exact Option.some.inj hu ▸ hident.2 r hr

omit hE in
theorem person_passportResult (ident : PersonIdentifier) (nationality_match dob_match : Bool) :
    (passportResult ident nationality_match dob_match).person_uuid = some ident.person_uuid := by
  unfold passportResult
  split_ifs
  · rfl
  · rfl

theorem keeps_matchPassport (hk : k.Ready tenant drawn) (q : Query) :
    Keeps tenant drawn (SessionTx.statements (matchPassport tenant q)) k
      (fun result k' => k'.pending = k.pending ∧
        ∀ m ∈ result, ∀ u ∈ m.person_uuid, k'.Knows u) E := by
  unfold matchPassport
  cases orNone q.passport_number with
  | none => exact Keeps.pure hk ⟨rfl, fun _ hm => by cases hm⟩
  | some passport_number =>
    rw [SessionTx.statements_bind]
    apply Keeps.bind
    refine (keeps_findActive hE hk _ passport_number).mono (fun ident k' hready _ hident => ?_)
      (fun _ _ _ _ he => he)
    cases ident with
    | none => exact Keeps.pure hready ⟨hident.1, fun _ hm => by cases hm⟩
    | some ident =>
      rw [SessionTx.statements_bind]
      apply Keeps.bind
      refine (keeps_personGet hE hready ident.person_uuid).mono
        (fun person k'' hready hbefore hperson => ?_) (fun _ _ _ _ he => he)
      refine Keeps.pure hready ⟨hperson.1.trans hident.1, fun m hm u hu => ?_⟩
      rw [← Option.some.inj hm, person_passportResult] at hu
      exact Option.some.inj hu ▸ hbefore.knows (hident.2 ident rfl)

theorem keeps_deterministicMatch (hk : k.Ready tenant drawn) (q : Query) :
    Keeps tenant drawn (SessionTx.statements (deterministicMatch tenant q)) k
      (fun m k' => ∀ u ∈ m.person_uuid, k'.Knows u) E := by
  rw [deterministicMatch, SessionTx.statements_bind]
  apply Keeps.bind
  refine (keeps_matchEmiratesId hE hk q).mono (fun result k' hready _ hresult => ?_)
    (fun _ _ _ _ he => he)
  cases result with
  | some m => exact Keeps.pure hready (hresult.2 m rfl)
  | none =>
    rw [SessionTx.statements_bind]
    apply Keeps.bind
    refine (keeps_matchPassport hE hready q).mono (fun result k' hready _ hresult => ?_)
      (fun _ _ _ _ he => he)
    apply Keeps.pure hready
    cases result with
    | some m => exact hresult.2 m rfl
    | none => exact fun _ hu => by cases hu

omit hE in
theorem requiresTenant_eq {ctx : RequestContext} (hctx : ctx.tenant_id = some tenant) (tx : Tx α) :
    requiresTenant ctx tenant tx = tx := by
  rw [requiresTenant, requireTenantId, hctx]
  change (if tenant ≠ tenant then throw PyError.crossTenantError >>= fun _ => tx else tx) = tx
  exact if_neg (not_not_intro rfl)

open PersonService

/-- Everything that is told about a person. -/
structure KnowsAll (k : Account) (loaded : LoadedPerson) : Prop where
  row : k.KnowsRow loaded.person
  identifiers : .identifiers loaded.person.person_uuid loaded.identifiers ∈ k.facts
  name_variants : .nameVariants loaded.person.person_uuid loaded.name_variants ∈ k.facts

theorem keeps_refresh (hk : k.Ready tenant drawn) {person : Person} (hperson : k.KnowsRow person) :
    Keeps tenant drawn (SessionTx.statements (refresh person)) k
      (fun loaded k' => k'.pending = k.pending ∧ k'.KnowsAll loaded) E := by
  rw [refresh, SessionTx.statements_bind, selectIdentifiers, SessionTx.statements_execute]
  apply Keeps.bind
  refine (keeps_select hE (.statement (.selectPersonIdentifiers person.person_uuid))
    (fun rows k' => k' = k.learn [.identifiers person.person_uuid rows]) hk
    ⟨hk.bound, hperson.knows⟩ (fun _ => rfl) (fun _ _ => rfl)).mono ?_ (fun _ _ _ _ he => he)
  rintro identifiers _ hready hbefore rfl
  rw [SessionTx.statements_bind, selectNameVariants, SessionTx.statements_execute]
  apply Keeps.bind
  refine (keeps_select hE (.statement (.selectPersonNameVariants person.person_uuid))
    (fun rows k' => k' = (k.learn [.identifiers person.person_uuid identifiers]).learn
      [.nameVariants person.person_uuid rows]) hready
    ⟨hready.bound, hbefore.knows hperson.knows⟩ (fun _ => rfl) (fun _ _ => rfl)).mono ?_
    (fun _ _ _ _ he => he)
  rintro name_variants _ hready hbefore' rfl
  refine Keeps.pure hready ⟨rfl, ?_, ?_, ?_⟩
  · exact (hbefore.trans hbefore').knowsRow hperson
  · exact List.mem_append_left _ (List.mem_append_right _ (List.mem_singleton_self _))
  · exact List.mem_append_right _ (List.mem_singleton_self _)

theorem keeps_addIdentifier (hk : k.Ready tenant drawn)
    {args : Option PersonIdentifierRepository.Args}
    (hargs : ∀ a ∈ args, a.person_uuid ∈ k.written ∧ k.Knows a.person_uuid) :
    Keeps tenant drawn (SessionTx.statements (addIdentifier tenant args)) k
      (fun _ _ => True) E := by
  cases args with
  | none => exact Keeps.pure hk trivial
  | some args =>
    rw [addIdentifier, SessionTx.statements_bind]
    apply Keeps.bind
    exact (keeps_identifierCreate hE hk (hargs args rfl).1 (hargs args rfl).2).mono
      (fun _ _ hready _ _ => Keeps.pure hready trivial) (fun _ _ _ _ he => he)

end Account
end Hawiya
