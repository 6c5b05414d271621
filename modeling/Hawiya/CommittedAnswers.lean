import Hawiya.Acknowledgement

/-!
# Acknowledged and committed

If the server refuses no insert and no commit of a request that was answered with a 2xx status, then
such a request has committed once it is through, and the person it named is there. When two first
uploads of a passport overlap, it does refuse one: the second request has been answered by then.
-/

namespace Hawiya
open PyString Interaction IdempotencyMiddleware Db

variable {ι : Type} [DecidableEq ι]

section Requests
variable {clock : ℕ → ℚ} {draws : ι → Draws} {i : ι} {ms out : List Message} {I : Db ι → Prop}
variable {E : ServerState ι (Db ι) → Prop} {api : FastAPI}

section Hosted
variable {S : Type} {Inv : S → List Message → Prop}
variable {h : (op : AsgiOp AppOp) → S → ServerProgram AppOp AppOp.Reply (op.Reply AppOp.Reply × S)}

/-- Once it is over, an acknowledged request has committed, and its person is there. -/
def Kept (api : FastAPI) (i : ι) (s : ServerState ι (Db ι)) : Prop :=
  s.Acknowledged i → ∃ r, s.sentBy i = api.messages r ∧ Persistent i r.person_uuid? s.app

/-- The request is through. -/
structure Finished (api : FastAPI) (i : ι) (s : ServerState ι (Db ι)) : Prop where
  traced : s.Traced
  kept : Kept api i s

theorem stable_finished : (acknowledging clock draws).Stable i (Finished api i) := by
  rintro s s' hrely ⟨htraced, hkept⟩
  refine ⟨hrely.traced htraced, ?_⟩
  rintro ⟨status, headers, hmem, hstatus⟩
  rw [hrely.sent] at hmem ⊢
  obtain ⟨r, hsent, hr⟩ := hkept ⟨status, headers, hmem, hstatus⟩
  have hpersistent : Undisturbed i (Persistent i r.person_uuid?) := stable_persistent
  exact ⟨r, hsent, hpersistent _ _ hrely.db hr⟩

theorem finished_unanswered {s : ServerState ι (Db ι)} (hs : Progress i out [] I s) :
    Finished api i s := by
  refine ⟨hs.traced, ?_⟩
  rintro ⟨status, headers, hmem, -⟩
  rw [hs.sent] at hmem
  exact absurd hmem List.not_mem_nil

theorem cacheable_of_acknowledged {s : ServerState ι (Db ι)} {r : ApiResponse}
    (hsent : s.sentBy i = api.messages r) (h : s.Acknowledged i) : cacheable r.status = true := by
  obtain ⟨status, headers, hmem, hstatus⟩ := h
  rw [hsent, FastAPI.messages, answerMessages] at hmem
  simp only [List.mem_cons, Message.responseStart.injEq, reduceCtorEq, List.not_mem_nil,
    or_false] at hmem
  rw [← hmem.1]
  exact hstatus

theorem acknowledged_of_cacheable {s : ServerState ι (Db ι)} {r : ApiResponse}
    (hsent : s.sentBy i = api.messages r) (h : cacheable r.status = true) : s.Acknowledged i :=
  ⟨r.status, api.headers r, hsent ▸ List.mem_cons_self, h⟩

theorem through_close (hosts : Hosts clock draws h Inv) (r : ApiResponse) :
    TripleThrough (acknowledging clock draws) h (Fits Inv i) i
      (At i (api.messages r) (OpenWith i (Named i r.person_uuid?)))
      (AppProgram.statements (closeSession (.ok ()))) (fun _ => Finished api i)
      (Finished api i) := by
  by_cases hstatus : cacheable r.status = true
  · have hclose : Triple (discipline Accepts) i (OpenWith i (Named i r.person_uuid?))
        (closeSession (.ok ())) (fun _ => Persistent i r.person_uuid?) (fun _ => False) :=
      triple_closeAccepted ()
    refine (through_statements hosts ?_ hclose).conseq (fun _ => id) ?_ ?_
    · intro outcome op s hsent hok
      exact hok (acknowledged_of_cacheable hsent hstatus) op rfl
    · exact fun _ s hs => ⟨hs.traced, fun _ => ⟨r, hs.sent, hs.db⟩⟩
    · exact fun s hs => hs.db.elim
  · have hrefused : ∀ {J : Db ι → Prop} {s : ServerState ι (Db ι)},
        At i (api.messages r) J s → Finished api i s :=
      fun hs => ⟨hs.traced, fun hack => absurd (cacheable_of_acknowledged hs.sent hack) hstatus⟩
    have hclose : Triple (discipline Pool.Unrestricted) i (Open i) (closeSession (.ok ()))
        (fun _ _ => True) (Nothing i) := triple_closeAny (.ok ())
    refine (through_statements hosts (fun _ _ _ _ _ => trivial) hclose).conseq ?_
      (fun _ _ hs => hrefused hs) (fun _ hs => hrefused hs)
    exact fun s hs => hs.of_db hs.db.1

theorem through_fail (hosts : Hosts clock draws h Inv) (e : PyError) :
    TripleThrough (acknowledging clock draws) h (Fits Inv i) i (At i [] (Open i))
      (AppProgram.statements (closeSession (.error e : Except PyError Unit)))
      (fun _ => Finished api i) (Finished api i) := by
  have hclose : Triple (discipline Pool.Unrestricted) i (Open i)
      (closeSession (.error e : Except PyError Unit)) (fun _ _ => True) (Nothing i) :=
    triple_closeAny (.error e)
  exact (through_statements hosts (fun _ _ _ _ _ => trivial) hclose).conseq (fun _ => id)
    (fun _ _ => finished_unanswered) (fun _ => finished_unanswered)

theorem through_answer (hosts : Hosts clock draws h Inv) (hI : Undisturbed i I)
    (hE : (acknowledging clock draws).Stable i E) (r : ApiResponse) :
    TripleThrough (acknowledging clock draws) h (Fits Inv i) i (At i [] I) (api.send r)
      (fun _ => At i (api.messages r) I) E :=
  TripleThrough.bind acknowledging_closed hE
    (through_send hosts hI hE _ ⟨_, _, List.mem_singleton_self _⟩) (fun _ =>
      through_send hosts hI hE _ ⟨_, _, List.mem_cons_self⟩)

/-- Nothing of the request has been read or answered. -/
abbrev Fresh (i : ι) : ServerState ι (Db ι) → Prop := At i [] (OpenWith i (fun _ => True))

theorem through_respond (hosts : Hosts clock draws h Inv) (lib : Libraries) (req : Request) :
    TripleThrough (acknowledging clock draws) h (Fits Inv i) i (Fresh i) (api.respond lib req)
      (fun _ => Finished api i) (Finished api i) := by
  unfold FastAPI.respond
  cases req.ctx.tenant_id with
  | none => exact TripleThrough.throw stable_finished (fun _ => finished_unanswered)
  | some tenant_id =>
    have hopen : Undisturbed i (Open i) := stable_open
    have hnamed : ∀ r : ApiResponse, Undisturbed i (OpenWith i (Named i r.person_uuid?)) :=
      fun r => stable_open.and (carried_named _).stable
    have hendpoint : Triple (discipline Pool.Unrestricted) i (OpenWith i (fun _ => True))
        (req.endpoint lib) (fun r => OpenWith i (Named i r.person_uuid?)) (Open i) :=
      triple_endpoint lib req
    refine TripleThrough.handle acknowledging_closed (Q := fun _ s => ∃ r : ApiResponse,
      At i (api.messages r) (OpenWith i (Named i r.person_uuid?)) s) (E := At i [] (Open i))
      ?_ ?_ ?_
    · refine TripleThrough.bind acknowledging_closed (stable_progress hopen)
        (through_statements hosts (fun _ _ _ _ _ => trivial) hendpoint) (fun r => ?_)
      exact (through_answer hosts (hnamed r) (stable_progress hopen) r).conseq (fun _ => id)
        (fun _ s hs => ⟨r, hs⟩) (fun _ => id)
    · rintro ⟨⟩ s ⟨r, hs⟩
      exact through_close hosts r s hs
    · exact fun e => through_fail hosts e

theorem through_app (hosts : Hosts clock draws h Inv) (lib : Libraries) (hreads : api.Reads)
    (scope : Scope) :
    TripleThrough (acknowledging clock draws) h (Fits Inv i) i (Fresh i) (api.app lib scope)
      (fun _ => Finished api i) (Finished api i) := by
  have hopen : Undisturbed i (OpenWith i (fun _ : Db ι => True)) :=
    stable_open.and (Discipline.stable_const True)
  refine TripleThrough.bind acknowledging_closed stable_finished
    ((through_read hosts hopen hreads scope).conseq (fun _ => id) (fun _ _ => id)
      (fun _ => finished_unanswered)) (fun submission => ?_)
  refine TripleThrough.bind acknowledging_closed stable_finished
    (through_draw hosts hopen stable_finished) (fun drawn => ?_)
  exact through_respond hosts lib (submission.request drawn)

end Hosted

variable (api : FastAPI) (lib : Libraries)

theorem fresh_event (e : AppEvent) (he : e.message? = none) :
    Triple (acknowledging clock draws) i (Fresh i) (Server.event e) (fun _ => Fresh i)
      (Finished api i) := by
  have hevent : Triple (acknowledging clock draws) i (Fresh i) (Server.event e)
      (fun _ => Fresh i) (fun _ => False) := by
    refine (triple_event (stable_open.and (Discipline.stable_const True)) e).conseq
      (fun _ => id) ?_
    rw [he]
    exact fun _ _ => id
  exact hevent.weaken_raise (fun _ hfalse => hfalse.elim)

theorem triple_passedThrough (hreads : api.Reads) (scope : Scope) :
    Triple (acknowledging clock draws) i (Fresh i) (passThrough (api.app lib) scope)
      (fun _ => Finished api i) (Finished api i) := by
  refine Triple.bind acknowledging_closed stable_finished (fresh_event api _ rfl) (fun _ => ?_)
  intro s hs
  exact (through_app hosts_passOn lib hreads scope s hs).interpret acknowledging_closed trivial

theorem triple_forwarded (hreads : api.Reads) (scope : Scope) (body : Bytes) (f : Fingerprint)
    (ttl : ℕ) :
    Triple (acknowledging clock draws) i (Fresh i) (forward ttl (api.app lib) scope body f)
      (fun _ => Finished api i) (Finished api i) := by
  refine Triple.bind acknowledging_closed stable_finished (fresh_event api _ rfl) (fun _ => ?_)
  intro s hs
  refine (through_app (hosts_replayAndCapture body f ttl) lib hreads scope s hs).interpret
    acknowledging_closed ?_
  rw [Fits, hs.sent]
  rfl

theorem triple_answered {status : ℕ} {headers : Headers} {body : Bytes}
    {J : ServerState ι (Db ι) → Prop} (hJ : ∀ s s', s.events <+: s'.events → J s → J s')
    (hjustified : ∀ s, s.outbox i <+: answerMessages status headers body → J s → s.Justified i) :
    Triple (acknowledging clock draws) i (fun s => Fresh i s ∧ J s) (answer status headers body)
      (fun _ => Finished api i) (Finished api i) := by
  have hopen : Undisturbed i (OpenWith i (fun _ : Db ι => True)) :=
    stable_open.and (Discipline.stable_const True)
  have hstart : Triple (acknowledging clock draws) i (fun s => Fresh i s ∧ J s)
      (Server.send (.responseStart status headers)) (fun _ s =>
        Progress i [.responseStart status headers] [] (OpenWith i (fun _ => True)) s ∧ J s)
      (fun _ => False) := by
    refine triple_send hopen _ hJ (fun s hout _ => hjustified s ?_)
    rw [hout]
    exact ⟨[.responseBody body false], rfl⟩
  have hbody : Triple (acknowledging clock draws) i (fun s =>
        Progress i [.responseStart status headers] [] (OpenWith i (fun _ => True)) s ∧ J s)
      (Server.send (.responseBody body false)) (fun _ => Finished api i) (fun _ => False) := by
    refine (triple_send hopen _ hJ (fun s hout _ => hjustified s ?_)).conseq (fun _ => id)
      (fun _ _ hs => finished_unanswered hs.1)
    rw [hout]
    exact List.prefix_rfl
  refine Triple.bind acknowledging_closed stable_finished
    (hstart.weaken_raise (fun _ hfalse => hfalse.elim)) (fun _ => ?_)
  exact hbody.weaken_raise (fun _ hfalse => hfalse.elim)

theorem triple_replayed (c : CachedResponse) :
    Triple (acknowledging clock draws) i (fun s => Fresh i s ∧ s.SentWhole c)
      (answer c.status c.headers c.body) (fun _ => Finished api i) (Finished api i) :=
  triple_answered api (fun _ _ hevents hc => hc.mono hevents)
    (fun _ hout hc => .inr (.inl ⟨c, hc, hout⟩))

theorem triple_conflict (key : Str) :
    Triple (acknowledging clock draws) i (Fresh i) (answerConflict key)
      (fun _ => Finished api i) (Finished api i) := by
  refine (triple_answered api (J := fun _ => True) (fun _ _ _ => id) ?_).conseq
    (fun _ hs => ⟨hs, trivial⟩) (fun _ _ => id)
  intro s hout _
  refine .inr (.inr (fun status headers hmem => ?_))
  have hstart : Message.responseStart status headers ∈ conflictMessages key := hout.subset hmem
  simp only [conflictMessages, answerMessages, List.mem_cons, Message.responseStart.injEq,
    reduceCtorEq, List.not_mem_nil, or_false] at hstart
  rw [hstart.1]
  rfl

theorem triple_settled (hreads : api.Reads) (scope : Scope) (body : Bytes) (f : Fingerprint)
    (ttl : ℕ) (cached : Option CachedResponse) :
    Triple (acknowledging clock draws) i (fun s => Fresh i s ∧ ∀ c ∈ cached, s.SentWhole c)
      (settle ttl (api.app lib) scope body f cached) (fun _ => Finished api i)
      (Finished api i) := by
  cases cached with
  | none =>
    exact (triple_forwarded api lib hreads scope body f ttl).conseq (fun _ hs => hs.1)
      (fun _ _ => id)
  | some c =>
    by_cases hhash : c.body_hash = f.body_hash
    · rw [settle_replay ttl (api.app lib) hhash]
      exact (triple_replayed api c).conseq (fun _ hs => ⟨hs.1, hs.2 c rfl⟩) (fun _ _ => id)
    · rw [settle_conflict ttl (api.app lib) hhash]
      exact (triple_conflict api f.key).conseq (fun _ hs => hs.1) (fun _ _ => id)

theorem triple_keyed (sha256 : Bytes → Str) (hreads : api.Reads) (scope : Scope) (tenant_id : UUID)
    (key : Str) (ttl : ℕ) :
    Triple (acknowledging clock draws) i (Fresh i)
      (keyed sha256 ttl (api.app lib) scope tenant_id key) (fun _ => Finished api i)
      (Finished api i) := by
  have hopen : Undisturbed i (OpenWith i (fun _ : Db ι => True)) :=
    stable_open.and (Discipline.stable_const True)
  refine Triple.bind acknowledging_closed stable_finished
    ((triple_collectBody hopen).weaken_raise (fun _ hfalse => hfalse.elim)) (fun body => ?_)
  refine Triple.bind acknowledging_closed stable_finished
    ((triple_get hopen tenant_id key).weaken_raise (fun _ hfalse => hfalse.elim)) (fun cached => ?_)
  exact triple_settled api lib hreads scope body ⟨tenant_id, key, sha256 body⟩ ttl cached

/-- A request, from its first message to the end of its session. -/
theorem triple_request (sha256 : Bytes → Str) (hreads : api.Reads) (scope : Scope) (ttl : ℕ) :
    Triple (acknowledging clock draws) i (Fresh i) (call sha256 ttl (api.app lib) scope)
      (fun _ => Finished api i) (Finished api i) := by
  unfold call
  cases keyOf scope with
  | none => exact triple_passedThrough api lib hreads scope
  | some k => exact triple_keyed api lib sha256 hreads scope k.1 k.2 ttl

end Requests

theorem whole_cacheable {ms : List Message} (h : Whole ms) :
    cacheable (captured ms).status = true := by
  obtain ⟨m, -, hcompletes⟩ := h
  cases m with
  | responseBody body more_body =>
    rw [Closure.completes, Bool.and_eq_true] at hcompletes
    exact hcompletes.2
  | _ => exact absurd hcompletes Bool.false_ne_true

/-- A whole response is all that the application sends. -/
theorem eq_messages_of_whole {api : FastAPI} {r : ApiResponse} {ms : List Message}
    (hpre : ms <+: api.messages r) (h : Whole ms) : ms = api.messages r := by
  obtain ⟨m, hlast, hcompletes⟩ := h
  obtain ⟨rest, hrest⟩ := hpre
  rcases ms with _ | ⟨start, _ | ⟨last, more⟩⟩
  · cases hlast
  · obtain rfl : start = m := Option.some.inj hlast
    obtain rfl : start = _ := (List.cons.inj hrest).1
    cases hcompletes
  · have hmore : more ++ rest = [] := (List.cons.inj (List.cons.inj hrest).2).2
    rw [← hrest, (List.append_eq_nil_iff.mp hmore).2, List.append_nil]

namespace ServerState

theorem SentWhole.cacheable {τ : Type} {s : ServerState ι τ} {c : CachedResponse}
    (h : s.SentWhole c) : Hawiya.cacheable c.status = true := by
  obtain ⟨i, ms, -, hwhole, -, hc⟩ := h
  rw [hc]
  exact whole_cacheable hwhole

theorem traced_start (inbox : ι → List Message) {τ : Type} (t : τ) : (start inbox t).Traced :=
  ⟨fun _ c hc => (Option.some_ne_none c hc.symm).elim, fun _ => .inl List.prefix_rfl⟩

end ServerState

/-- Request `i` was answered `r`, its transaction is committed, and the person that `r` names is
there. -/
structure Backed (api : FastAPI) (i : ι) (r : ApiResponse) (s : ServerState ι (Db ι)) : Prop where
  sent : s.sentBy i = api.messages r
  committed : ∃ cs, (i, cs) ∈ s.app.log
  person : ∀ u, r.person_uuid? = some u → ∃ p ∈ s.app.committed.persons, p.person_uuid = u

theorem Kept.backed {api : FastAPI} {i : ι} {s : ServerState ι (Db ι)} {t : Tables}
    (h : Kept api i s) (hack : s.Acknowledged i) (hrooted : Rooted s.app)
    (hlogged : Logged t s.app) : ∃ r, Backed api i r s := by
  obtain ⟨r, hsent, hpersistent⟩ := h hack
  refine ⟨r, hsent, ?_, fun u hu => ?_⟩
  · obtain ⟨cs, hcs, -⟩ := hpersistent
    exact ⟨cs, hcs⟩
  · rw [hu] at hpersistent
    exact hpersistent.exists_person hrooted hlogged

/-- What the application has sent whole is the response of a request that acknowledged it. -/
theorem backed_of_sentWhole {api : FastAPI} {s : ServerState ι (Db ι)} {c : CachedResponse}
    {ended : ι → Prop} (h : s.SentWhole c)
    (hbacked : ∀ i, s.Acknowledged i → ended i → ∃ r, Backed api i r s) :
    ∃ i, s.Acknowledged i ∧ (ended i → ∃ r, Backed api i r s ∧
      answerMessages c.status c.headers c.body = api.messages r) := by
  obtain ⟨i, ms, hpre, hwhole, hstart, hc⟩ := id h
  have hack : s.Acknowledged i := ⟨c.status, c.headers, hpre.subset hstart, h.cacheable⟩
  refine ⟨i, hack, fun hended => ?_⟩
  obtain ⟨r, hr⟩ := hbacked i hack hended
  obtain rfl := eq_messages_of_whole (hr.sent ▸ hpre) hwhole
  refine ⟨r, hr, ?_⟩
  rw [hc]
  rfl

/-- What every statement keeps of the database, every operation of the server keeps. -/
theorem run_app {clock : ℕ → ℚ} {draws : ι → Draws} {K : Db ι → Prop}
    (hK : ∀ i outcome op db, K db → K (exec i outcome op db).2)
    {p q : Pool ι (ServerState ι (Db ι)) (ServerOp AppOp) (ServerOp.Reply AppOp.Reply) PyError Unit}
    {allowed : ι → Outcome → ServerOp AppOp → ServerState ι (Db ι) → Prop}
    (hrun : Pool.Run (ServerState.environment clock (backend draws)) allowed p q)
    (hp : K p.shared.app) : K q.shared.app := by
  refine hrun.invariant (I := fun s => K s.app) (fun i outcome op s _ hs => ?_) hp
  cases op with
  | own op =>
    cases op with
    | draw => exact hs
    | statement op => exact hK i outcome op s.app hs
  | receive | collectBody | send | get | put | event => exact hs

/-- However requests are interleaved, if the server refuses no insert and no commit of a request
that was answered with a 2xx status, then such a request has committed once it is through, and the
person it named is there; what is stored, and what a client was sent with a 2xx status, is the
answer to such a request. -/
theorem acknowledged_committed (clock : ℕ → ℚ) (draws : ι → Draws) (sha256 : Bytes → Str) (ttl : ℕ)
    (lib : Libraries) (api : FastAPI) (hreads : api.Reads) (x : Traffic ι) (t : Tables)
    (hkeys : t.keys.Nodup) (hreferential : t.Referential)
    (q : Pool ι (ServerState ι (Db ι)) (ServerOp AppOp) (ServerOp.Reply AppOp.Reply) PyError Unit)
    (hrun : Pool.Run (ServerState.environment clock (backend draws)) TeardownAccepted
      (x.pool sha256 ttl (api.app lib) (Db.start t)) q) :
    (∀ i, q.shared.Acknowledged i → (q.program i).ended = true → ∃ r, Backed api i r q.shared) ∧
      (∀ k c, q.shared.entries k = some c → ∃ i, q.shared.Acknowledged i ∧
        ((q.program i).ended = true → ∃ r, Backed api i r q.shared ∧
          answerMessages c.status c.headers c.body = api.messages r)) ∧
      ∀ i status headers, .responseStart status headers ∈ q.shared.outbox i →
        cacheable status = true → ∃ j, q.shared.Acknowledged j ∧
          ((q.program j).ended = true → ∃ r, Backed api j r q.shared ∧
            q.shared.outbox i <+: api.messages r) := by
  have hrooted : Rooted q.shared.app := by
    refine run_app (fun i outcome op db hdb => exec_rooted i outcome op hdb) hrun ?_
    exact ⟨hreferential, fun j r hr => absurd hr List.not_mem_nil⟩
  have hlogged : Logged t q.shared.app := run_app (exec_logged t) hrun rfl
  have hfresh : ∀ i, Fresh i (ServerState.start x.inbox (Db.start t)) := by
    refine fun i => ⟨ServerState.traced_start x.inbox _, rfl, rfl, ⟨?_, ?_⟩, trivial⟩
    · simpa [ServerState.start, Consistent, Db.start, uncommittedKeys] using hkeys
    · exact fun cs hcs => absurd hcs List.not_mem_nil
  have htriple : ∀ i, Triple (acknowledging clock draws) i (Fresh i)
      (call sha256 ttl (api.app lib) (x.scope i)) (fun _ => Finished api i) (Finished api i) :=
    fun i => triple_request api lib sha256 hreads (x.scope i) ttl
  have hbacked : ∀ i, q.shared.Acknowledged i → (q.program i).ended = true →
      ∃ r, Backed api i r q.shared := by
    intro i hack hended
    have hfinished := Triple.run_ended acknowledging_closed htriple hfresh hrun i hended
    exact hfinished.kept.backed hack hrooted hlogged
  have htraced : q.shared.Traced :=
    Triple.run_always acknowledging_closed htriple hfresh (fun _ _ hs => hs.traced)
      (fun _ _ hs => hs) (ServerState.traced_start x.inbox _) hrun
  refine ⟨hbacked, fun k c hc => ?_, fun i status headers hmem hstatus => ?_⟩
  · exact backed_of_sentWhole (htraced.stored k c hc) hbacked
  · rcases htraced.answered i with hsent | ⟨c, hc, hout⟩ | hnone
    · refine ⟨i, ⟨status, headers, hsent.subset hmem, hstatus⟩, fun hended => ?_⟩
      obtain ⟨r, hr⟩ := hbacked i ⟨status, headers, hsent.subset hmem, hstatus⟩ hended
      exact ⟨r, hr, hr.sent ▸ hsent⟩
    · obtain ⟨j, hack, hj⟩ := backed_of_sentWhole hc hbacked
      refine ⟨j, hack, fun hended => ?_⟩
      obtain ⟨r, hr, hmessages⟩ := hj hended
      exact ⟨r, hr, hmessages ▸ hout⟩
    · exact absurd (hnone status headers hmem) (by simp [hstatus])

namespace Specimen

def uploads : FastAPI where
  read _ := do
    let message ← AppProgram.await .receive
    return .resolve ctx ⟨message.body, none, none⟩ true
  headers _ := []
  body r := (r.person_uuid?.map (fun u => utf8Encode (natStr u))).getD []

/-- The passport uploaded twice, under two keys. -/
def passports : Traffic Bool where
  scope first := { post "/v1/identity/resolve" with
    headers := [(tenantHeader, bytes "00000000-0000-0000-0000-000000000001"),
      (idempotencyHeader, bytes (if first then "a" else "b"))] }
  inbox _ := [.request photo false]

def drawn (first : Bool) : Draws := if first then draws 10 11 else draws 12 13

def passportPool : Pool Bool (ServerState Bool (Db Bool)) (ServerOp AppOp)
    (ServerOp.Reply AppOp.Reply) PyError Unit :=
  passports.pool Sha256.hexdigest 7200 (uploads.app lib) (Db.start (.empty [1]))

def passportEnvironment : Environment Bool Outcome (ServerOp AppOp) (ServerOp.Reply AppOp.Reply)
    PyError (ServerState Bool (Db Bool)) :=
  ServerState.environment clock (backend drawn)

theorem uploads_reads : uploads.Reads := fun _ => ⟨rfl, fun r => by
  cases r with
  | ok message => trivial
  | error e => trivial⟩

def accepted (i : Bool) (outcome : Outcome) (op : ServerOp AppOp)
    (s : ServerState Bool (Db Bool)) : Bool :=
  match op with
  | .own (.statement op) => Accepts i outcome op s.app
  | _ => true

/-- One request after the other: both have committed. -/
theorem passports_committed : ∃ q,
    Pool.Run passportEnvironment TeardownAccepted passportPool q ∧
      ∀ i, ∃ r, Backed uploads i r q.shared := by
  have hok : ∀ (i : Bool) (outcome : Outcome) (op : ServerOp AppOp)
      (s : ServerState Bool (Db Bool)), accepted i outcome op s = true →
        TeardownAccepted i outcome op s := by
    rintro i outcome op s h - statement rfl
    exact of_decide_eq_true h
  have hends : (Pool.runChecked passportEnvironment accepted
      (List.replicate 28 (true, .accept) ++ List.replicate 22 (false, .accept)) passportPool).map
        (fun q => ((q.program true).ended, (q.program false).ended,
          decide (.responseStart 200 [] ∈ q.shared.sentBy true),
          decide (.responseStart 200 [] ∈ q.shared.sentBy false))) =
      some (true, true, true, true) := by
    decide +kernel
  obtain ⟨q, hq, hends⟩ := Option.map_eq_some_iff.mp hends
  simp only [Prod.mk.injEq, decide_eq_true_eq] at hends
  obtain ⟨hfirst, hsecond, hsent, hsent'⟩ := hends
  have hrun := Pool.run_of_runChecked hok hq
  obtain ⟨hbacked, -, -⟩ := acknowledged_committed clock drawn Sha256.hexdigest 7200 lib uploads
    uploads_reads passports (.empty [1]) (by decide) (fun _ hr => absurd hr List.not_mem_nil) q hrun
  refine ⟨q, hrun, fun i => ?_⟩
  cases i with
  | true => exact hbacked true ⟨200, [], hsent, rfl⟩ hfirst
  | false => exact hbacked false ⟨200, [], hsent', rfl⟩ hsecond

/-- The second request looks the passport up before the first has committed. Its 200 is sent and
stored, and then its identifier is refused: nothing of it is committed, and the person it named is
not there. -/
theorem overlapping_not_committed : ∃ q,
    Pool.Run passportEnvironment Pool.Unrestricted passportPool q ∧
      (q.program false).ended = true ∧
      q.shared.outbox false = [.responseStart 200 [], .responseBody (bytes "13") false] ∧
      (∃ c, q.shared.entries (1, ['b']) = some c ∧ c.status = 200 ∧ c.body = bytes "13") ∧
      (∀ cs, (false, cs) ∉ q.shared.app.log) ∧
      ∀ p ∈ q.shared.app.committed.persons, p.person_uuid ≠ 13 := by
  have hends : (Pool.runSchedule passportEnvironment
      (List.replicate 8 (true, .accept) ++ List.replicate 8 (false, .accept) ++
        List.replicate 20 (true, .accept) ++ List.replicate 18 (false, .accept)) passportPool).map
        (fun q => ((q.program false).ended,
          decide (q.shared.outbox false =
            [.responseStart 200 [], .responseBody (bytes "13") false]),
          decide ((q.shared.entries (1, ['b'])).map (fun c => (c.status, c.body)) =
            some (200, bytes "13")),
          decide (q.shared.app.log.map Prod.fst = [true]),
          decide (q.shared.app.committed.persons.map Person.person_uuid = [11]))) =
      some (true, true, true, true, true) := by
    decide +kernel
  obtain ⟨q, hq, hends⟩ := Option.map_eq_some_iff.mp hends
  simp only [Prod.mk.injEq, decide_eq_true_eq] at hends
  obtain ⟨hended, hout, hentry, hlog, hpersons⟩ := hends
  refine ⟨q, Pool.run_of_runSchedule hq, hended, hout, ?_, fun cs hcs => ?_, fun p hp => ?_⟩
  · obtain ⟨c, hc, hvalue⟩ := Option.map_eq_some_iff.mp hentry
    exact ⟨c, hc, (Prod.mk.inj hvalue).1, (Prod.mk.inj hvalue).2⟩
  · have hmem := List.mem_map_of_mem (f := Prod.fst) hcs
    rw [hlog] at hmem
    simp at hmem
  · have hmem := List.mem_map_of_mem (f := Person.person_uuid) hp
    rw [hpersons, List.mem_singleton] at hmem
    rw [hmem]
    decide

end Specimen
end Hawiya
