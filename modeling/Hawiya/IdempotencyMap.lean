import Hawiya.IdempotencyRuns
import Hawiya.Lib.Sha256
import Hawiya.Lib.ExpiringMap

/-!
# The middleware as an expiring map

What the middleware is for: a map from tenant and key to the first 2xx response that is still
alive, together with the body it answered. Served one after another, requests get the same answers
from the middleware as from that map, whatever the application.
-/

namespace Hawiya
open PyString Interaction IdempotencyMiddleware

/-- A response and the request body it answered. -/
structure Remembered where
  status : ℕ
  headers : Headers
  body : Bytes
  request_body : Bytes

/-- The service the middleware implements, over an application given by what it replies. -/
structure IdempotentService (τ : Type) where
  responses : ExpiringMap (UUID × Str) Remembered ℚ
  ticks : ℕ
  app : τ

namespace IdempotentService
variable {τ : Type} (clock : ℕ → ℚ) (ttl : ℕ) (respond : Scope → Bytes → τ → Reply × τ)

/-- A live response answers the request; otherwise the application is called once, and its
response is remembered if it is 2xx. -/
def serve (req : KeyedRequest) (st : IdempotentService τ) : List Message × IdempotentService τ :=
  match st.responses.lookup (clock st.ticks) req.slot with
  | some r =>
      if r.request_body = req.body then
        (answerMessages r.status r.headers r.body, { st with ticks := st.ticks + 1 })
      else (conflictMessages req.key, { st with ticks := st.ticks + 1 })
  | none =>
      let reply := (respond req.scope req.body st.app).1
      (reply.messages,
        { responses :=
            if cacheable reply.status then
              st.responses.store req.slot ⟨reply.status, reply.headers, reply.body, req.body⟩
                (clock (st.ticks + 1) + ttl)
            else st.responses
          ticks := if cacheable reply.status then st.ticks + 2 else st.ticks + 1
          app := (respond req.scope req.body st.app).2 })

def start (t : τ) : IdempotentService τ := ⟨ExpiringMap.empty, 0, t⟩

variable {clock ttl respond} {req : KeyedRequest} {st : IdempotentService τ} {r : Remembered}

theorem serve_replay (h : st.responses.lookup (clock st.ticks) req.slot = some r)
    (hbody : r.request_body = req.body) :
    serve clock ttl respond req st =
      (answerMessages r.status r.headers r.body, { st with ticks := st.ticks + 1 }) := by
  simp only [serve, h, if_pos hbody]

theorem serve_conflict (h : st.responses.lookup (clock st.ticks) req.slot = some r)
    (hbody : r.request_body ≠ req.body) :
    serve clock ttl respond req st =
      (conflictMessages req.key, { st with ticks := st.ticks + 1 }) := by
  simp only [serve, h, if_neg hbody]

theorem serve_store {reply : Reply} {t : τ}
    (h : st.responses.lookup (clock st.ticks) req.slot = none)
    (hrespond : respond req.scope req.body st.app = (reply, t))
    (hstatus : cacheable reply.status = true) :
    serve clock ttl respond req st = (reply.messages,
      { responses := st.responses.store req.slot
          ⟨reply.status, reply.headers, reply.body, req.body⟩ (clock (st.ticks + 1) + ttl)
        ticks := st.ticks + 2
        app := t }) := by
  simp only [serve, h, hrespond, hstatus, if_true]

theorem serve_pass {reply : Reply} {t : τ}
    (h : st.responses.lookup (clock st.ticks) req.slot = none)
    (hrespond : respond req.scope req.body st.app = (reply, t))
    (hstatus : ¬ cacheable reply.status = true) :
    serve clock ttl respond req st = (reply.messages,
      { responses := st.responses, ticks := st.ticks + 1, app := t }) := by
  simp only [serve, h, hrespond, if_neg hstatus]

end IdempotentService

def answersOf {S : Type} (serve : KeyedRequest → S → List Message × S) :
    List KeyedRequest → S → List (List Message) × S
  | [], s => ([], s)
  | req :: rest, s =>
      ((serve req s).1 :: (answersOf serve rest (serve req s).2).1,
        (answersOf serve rest (serve req s).2).2)

/-- The store as an expiring map. -/
def Entries.expiring (entries : Entries) : ExpiringMap (UUID × Str) CachedResponse ℚ :=
  fun k => (entries k).map (fun c => (c, c.expires_at))

theorem expiring_put (entries : Entries) (tenant_id : UUID) (key : Str) (value : CachedResponse) :
    (InMemoryIdempotencyStore.put entries tenant_id key value).expiring =
      entries.expiring.store (tenant_id, key) value value.expires_at := by
  funext k
  by_cases h : k = (tenant_id, key)
  · subst h
    simp [Entries.expiring, InMemoryIdempotencyStore.put, ExpiringMap.store]
  · simp [Entries.expiring, InMemoryIdempotencyStore.put, ExpiringMap.store, h]

theorem get_eq_lookup (entries : Entries) (now : ℚ) (tenant_id : UUID) (key : Str) :
    (InMemoryIdempotencyStore.get entries now tenant_id key).1 =
      entries.expiring.lookup now (tenant_id, key) := by
  cases hentry : entries (tenant_id, key) with
  | none => simp [InMemoryIdempotencyStore.get, Entries.expiring, ExpiringMap.lookup, hentry]
  | some entry =>
    by_cases hdead : entry.expires_at < now
    · simp [InMemoryIdempotencyStore.get, Entries.expiring, ExpiringMap.lookup, hentry, hdead]
    · simp [InMemoryIdempotencyStore.get, Entries.expiring, ExpiringMap.lookup, hentry, hdead]

theorem lookup_get {entries : Entries} {now now' : ℚ} (hle : now ≤ now') (tenant_id : UUID)
    (key : Str) (k : UUID × Str) :
    (InMemoryIdempotencyStore.get entries now tenant_id key).2.expiring.lookup now' k =
      entries.expiring.lookup now' k := by
  cases hentry : entries (tenant_id, key) with
  | none => simp only [InMemoryIdempotencyStore.get, hentry]
  | some entry =>
    by_cases hdead : entry.expires_at < now
    · have hmiss : entries.expiring.lookup now (tenant_id, key) = none := by
        simp [Entries.expiring, ExpiringMap.lookup, hentry, hdead]
      have hdrop : (InMemoryIdempotencyStore.get entries now tenant_id key).2.expiring =
          entries.expiring.drop (tenant_id, key) := by
        funext k'
        by_cases h : k' = (tenant_id, key)
        · subst h
          simp [InMemoryIdempotencyStore.get, hentry, hdead, Entries.expiring, ExpiringMap.drop]
        · simp [InMemoryIdempotencyStore.get, hentry, hdead, Entries.expiring, ExpiringMap.drop, h]
      rw [hdrop, ExpiringMap.lookup_drop hmiss hle]
    · simp only [InMemoryIdempotencyStore.get, hentry, if_neg hdead]

section Refinement
variable {τ ω : Type} {Rep : ω → Type}
variable (clock : ℕ → ℚ) (backend : Environment Unit Unit ω Rep PyError τ)
variable (sha256 : Bytes → Str) (ttl : ℕ) (app : App ω Rep)

/-- A stored response and a remembered one agree, the bodies up to their hash. -/
structure Agree (cached : CachedResponse) (r : Remembered) : Prop where
  status : cached.status = r.status
  headers : cached.headers = r.headers
  body : cached.body = r.body
  body_hash : cached.body_hash = sha256 r.request_body

/-- From now on a lookup finds in the store what it finds in the map, and what the map remembers
answered one of `bodies`. -/
structure Refines (bodies : List Bytes) (s : ServerState Unit τ) (st : IdempotentService τ) :
    Prop where
  ticks : st.ticks = s.ticks
  app : st.app = s.app
  lookup : ∀ now, clock s.ticks ≤ now → ∀ k,
    Option.Rel (Agree sha256) (s.entries.expiring.lookup now k) (st.responses.lookup now k)
  remembered : ∀ now k r, st.responses.lookup now k = some r → r.request_body ∈ bodies

variable {clock sha256}

theorem Refines.answered {bodies : List Bytes} {s s' : ServerState Unit τ}
    {st st' : IdempotentService τ} (h : Refines clock sha256 bodies s st)
    (hclock : Monotone clock) {req : KeyedRequest}
    (hentries : s'.entries = (lookedUp clock req s).entries) (hticks : s'.ticks = s.ticks + 1)
    (hst : st' = { responses := st.responses, ticks := st.ticks + 1, app := s'.app }) :
    Refines clock sha256 bodies s' st' := by
  subst hst
  refine ⟨by rw [hticks, ← h.ticks], rfl, fun now hnow k => ?_, h.remembered⟩
  rw [hticks] at hnow
  have hle : clock s.ticks ≤ now := (hclock (Nat.le_succ _)).trans hnow
  have hget : (lookedUp clock req s).entries.expiring.lookup now k =
      s.entries.expiring.lookup now k := lookup_get hle req.tenant_id req.key k
  rw [hentries, hget]
  exact h.lookup now hle k

theorem Refines.stored {bodies : List Bytes} {s s' : ServerState Unit τ}
    {st st' : IdempotentService τ} (h : Refines clock sha256 bodies s st) (hclock : Monotone clock)
    {req : KeyedRequest} (hreq : req.body ∈ bodies) (r : Reply)
    (hentries : s'.entries = InMemoryIdempotencyStore.put (lookedUp clock req s).entries
      req.tenant_id req.key
      ⟨r.status, r.headers, r.body, sha256 req.body, clock (s.ticks + 1) + ttl⟩)
    (hticks : s'.ticks = s.ticks + 2)
    (hst : st' = {
      responses := st.responses.store req.slot ⟨r.status, r.headers, r.body, req.body⟩
        (clock (st.ticks + 1) + ttl)
      ticks := st.ticks + 2
      app := s'.app }) : Refines clock sha256 bodies s' st' := by
  subst hst
  refine ⟨by rw [hticks, ← h.ticks], rfl, fun now hnow k => ?_, fun now k r' hr' => ?_⟩
  · have hle : clock s.ticks ≤ now := by
      rw [hticks] at hnow
      exact (hclock (by omega)).trans hnow
    have hslot : (req.tenant_id, req.key) = req.slot := rfl
    rw [hentries, expiring_put, hslot, h.ticks]
    by_cases hk : k = req.slot
    · subst hk
      rw [ExpiringMap.lookup_store_self, ExpiringMap.lookup_store_self]
      by_cases hdead : clock (s.ticks + 1) + ttl < now
      · simp only [if_pos hdead]
        exact .none
      · simp only [if_neg hdead]
        exact .some ⟨rfl, rfl, rfl, rfl⟩
    · have hget : (lookedUp clock req s).entries.expiring.lookup now k =
          s.entries.expiring.lookup now k := lookup_get hle req.tenant_id req.key k
      rw [ExpiringMap.lookup_store_ne _ hk, ExpiringMap.lookup_store_ne _ hk, hget]
      exact h.lookup now hle k
  · by_cases hk : k = req.slot
    · subst hk
      rw [ExpiringMap.lookup_store_self] at hr'
      split_ifs at hr'
      cases hr'
      exact hreq
    · rw [ExpiringMap.lookup_store_ne _ hk] at hr'
      exact h.remembered now k r' hr'

/-- Alone on a complete body, the application sends the reply `respond` gives and ends. -/
def Responds (respond : Scope → Bytes → τ → Reply × τ) : Prop :=
  ∀ scope body t, play backend body (app scope) false t =
    ((respond scope body t).1.messages, .ok (), (respond scope body t).2)

variable {respond : Scope → Bytes → τ → Reply × τ}

/-- One request gets the same answer from the middleware as from the map, and they still agree. -/
theorem Refines.serve {bodies : List Bytes} {s : ServerState Unit τ} {st : IdempotentService τ}
    (h : Refines clock sha256 bodies s st) (hclock : Monotone clock)
    (hresponds : Responds backend app respond)
    (hbodies : ∀ b ∈ bodies, ∀ b' ∈ bodies, sha256 b = sha256 b' → b = b') {req : KeyedRequest}
    (hreq : req.body ∈ bodies) :
    (Hawiya.serve clock backend sha256 ttl app req s).2.outbox () =
        (st.serve clock ttl respond req).1 ∧
      Refines clock sha256 bodies (Hawiya.serve clock backend sha256 ttl app req s).2
        (st.serve clock ttl respond req).2 := by
  have hfind := h.lookup (clock s.ticks) le_rfl req.slot
  have hlookup : s.lookup clock req.tenant_id req.key =
      s.entries.expiring.lookup (clock s.ticks) req.slot :=
    get_eq_lookup s.entries (clock s.ticks) req.tenant_id req.key
  rw [← hlookup, ← h.ticks] at hfind
  generalize hcached : s.lookup clock req.tenant_id req.key = cached at hfind
  generalize hfound : st.responses.lookup (clock st.ticks) req.slot = found at hfind
  cases hfind with
  | none =>
    have hplay := hresponds req.scope req.body s.app
    rw [← h.app] at hplay
    rcases hrespond : respond req.scope req.body st.app with ⟨reply, t⟩
    rw [hrespond, h.app] at hplay
    have hleaves := serve_forward clock backend sha256 ttl app hcached hplay
    by_cases hstatus : cacheable reply.status = true
    · rw [IdempotentService.serve_store hfound hrespond hstatus]
      simp only [if_pos hstatus] at hleaves
      exact ⟨hleaves.answer, h.stored ttl hclock hreq reply hleaves.entries hleaves.ticks
        (by rw [hleaves.app])⟩
    · rw [IdempotentService.serve_pass hfound hrespond hstatus]
      simp only [if_neg hstatus] at hleaves
      exact ⟨hleaves.answer, h.answered hclock hleaves.entries hleaves.ticks
        (by rw [hleaves.app])⟩
  | @some cached r hagree =>
    by_cases hsame : r.request_body = req.body
    · have hleaves := Hawiya.serve_replay clock backend sha256 ttl app hcached
        (hagree.body_hash.trans (congrArg sha256 hsame))
      rw [IdempotentService.serve_replay hfound hsame]
      refine ⟨?_, h.answered hclock hleaves.entries hleaves.ticks (by rw [hleaves.app, h.app])⟩
      rw [hleaves.answer, hagree.status, hagree.headers, hagree.body]
    · have hne : cached.body_hash ≠ sha256 req.body := by
        rw [hagree.body_hash]
        exact fun hhash => hsame (hbodies _ (h.remembered _ _ r hfound) _ hreq hhash)
      have hleaves := Hawiya.serve_conflict clock backend sha256 ttl app hcached hne
      rw [IdempotentService.serve_conflict hfound hsame]
      exact ⟨hleaves.answer,
        h.answered hclock hleaves.entries hleaves.ticks (by rw [hleaves.app, h.app])⟩

theorem refines_start (bodies : List Bytes) (t : τ) :
    Refines clock sha256 bodies (ServerState.start (fun _ => []) t) (IdempotentService.start t) where
  ticks := rfl
  app := rfl
  lookup _ _ _ := .none
  remembered _ _ _ h := absurd h (by simp [IdempotentService.start, ExpiringMap.lookup_empty])

def serveStep (clock : ℕ → ℚ) (sha256 : Bytes → Str) (req : KeyedRequest) (s : ServerState Unit τ) :
    List Message × ServerState Unit τ :=
  ((serve clock backend sha256 ttl app req s).2.outbox (),
    (serve clock backend sha256 ttl app req s).2)

theorem Refines.answersOf {bodies : List Bytes} (hclock : Monotone clock)
    (hresponds : Responds backend app respond)
    (hbodies : ∀ b ∈ bodies, ∀ b' ∈ bodies, sha256 b = sha256 b' → b = b')
    {reqs : List KeyedRequest} (hreqs : ∀ req ∈ reqs, req.body ∈ bodies) {s : ServerState Unit τ}
    {st : IdempotentService τ} (h : Refines clock sha256 bodies s st) :
    (Hawiya.answersOf (serveStep backend ttl app clock sha256) reqs s).1 =
        (Hawiya.answersOf (IdempotentService.serve clock ttl respond) reqs st).1 ∧
      Refines clock sha256 bodies
        (Hawiya.answersOf (serveStep backend ttl app clock sha256) reqs s).2
        (Hawiya.answersOf (IdempotentService.serve clock ttl respond) reqs st).2 := by
  induction reqs generalizing s st with
  | nil => exact ⟨rfl, h⟩
  | cons req rest ih =>
    obtain ⟨hanswer, hrefines⟩ := h.serve backend ttl app hclock hresponds hbodies
      (hreqs req List.mem_cons_self)
    obtain ⟨hrest, hlast⟩ := ih (fun r hr => hreqs r (List.mem_cons_of_mem _ hr)) hrefines
    exact ⟨congrArg₂ List.cons hanswer hrest, hlast⟩

theorem entries_serve_ne (hresponds : Responds backend app respond) (req : KeyedRequest)
    (s : ServerState Unit τ) {k : UUID × Str} (hk : k ≠ req.slot) :
    (serve clock backend sha256 ttl app req s).2.entries k = s.entries k := by
  have hlooked := lookedUp_entries_ne clock hk (s := s)
  cases hcached : s.lookup clock req.tenant_id req.key with
  | some cached =>
    by_cases hbody : cached.body_hash = sha256 req.body
    · rw [(serve_replay clock backend sha256 ttl app hcached hbody).entries, hlooked]
    · rw [(serve_conflict clock backend sha256 ttl app hcached hbody).entries, hlooked]
  | none =>
    rw [(serve_forward clock backend sha256 ttl app hcached
      (hresponds req.scope req.body s.app)).entries]
    split_ifs
    · rw [← hlooked]
      exact Function.update_of_ne hk _ _
    · exact hlooked

/-- Two states that agree at the request's tenant and key, on the clock and on the application. -/
structure SameAt (k : UUID × Str) (s s' : ServerState Unit τ) : Prop where
  entry : s.entries k = s'.entries k
  ticks : s.ticks = s'.ticks
  app : s.app = s'.app

theorem Leaves.sameAt {r r' : Except PyError Unit × ServerState Unit τ} {answer : List Message}
    {entries entries' : Entries} {ticks : ℕ} {t : τ} {k : UUID × Str}
    (h : Leaves r answer entries ticks t) (h' : Leaves r' answer entries' ticks t)
    (hentries : entries k = entries' k) :
    r.2.outbox () = r'.2.outbox () ∧ SameAt k r.2 r'.2 := by
  refine ⟨h.answer.trans h'.answer.symm, ?_, h.ticks.trans h'.ticks.symm, h.app.trans h'.app.symm⟩
  rw [h.entries, h'.entries, hentries]

/-- Entries at other tenants and keys are not read: they change neither the answer nor what is left
at this one. -/
theorem serve_sameAt (hresponds : Responds backend app respond) {req : KeyedRequest}
    {s s' : ServerState Unit τ} (h : SameAt req.slot s s') :
    (serve clock backend sha256 ttl app req s).2.outbox () =
        (serve clock backend sha256 ttl app req s').2.outbox () ∧
      SameAt req.slot (serve clock backend sha256 ttl app req s).2
        (serve clock backend sha256 ttl app req s').2 := by
  have hlookup : s'.lookup clock req.tenant_id req.key =
      s.lookup clock req.tenant_id req.key := by
    have hentry : s.entries (req.tenant_id, req.key) = s'.entries (req.tenant_id, req.key) := h.entry
    rw [lookup_eq_filter, lookup_eq_filter, hentry, h.ticks]
  have hlooked : (lookedUp clock req s).entries req.slot =
      (lookedUp clock req s').entries req.slot := by
    rw [lookedUp_entry, lookedUp_entry, hlookup]
  cases hcached : s.lookup clock req.tenant_id req.key with
  | some cached =>
    have hcached' := hlookup.trans hcached
    by_cases hbody : cached.body_hash = sha256 req.body
    · have hleaves := serve_replay clock backend sha256 ttl app hcached' hbody
      rw [← h.ticks, ← h.app] at hleaves
      exact (serve_replay clock backend sha256 ttl app hcached hbody).sameAt hleaves hlooked
    · have hleaves := serve_conflict clock backend sha256 ttl app hcached' hbody
      rw [← h.ticks, ← h.app] at hleaves
      exact (serve_conflict clock backend sha256 ttl app hcached hbody).sameAt hleaves hlooked
  | none =>
    have hcached' := hlookup.trans hcached
    have hleaves := serve_forward clock backend sha256 ttl app hcached'
      (hresponds req.scope req.body s'.app)
    rw [← h.ticks, ← h.app] at hleaves
    refine (serve_forward clock backend sha256 ttl app hcached
      (hresponds req.scope req.body s.app)).sameAt hleaves ?_
    split_ifs
    · simp [InMemoryIdempotencyStore.put, KeyedRequest.slot]
    · exact hlooked

/-- Requests served one after another get from the middleware the answers of the expiring map, and
leave the application as it leaves it; a request neither reads nor changes what is stored at another
tenant and key. -/
theorem middleware_is_expiring_map (clock : ℕ → ℚ) (hclock : Monotone clock)
    (backend : Environment Unit Unit ω Rep PyError τ) (sha256 : Bytes → Str) (ttl : ℕ)
    (app : App ω Rep) (respond : Scope → Bytes → τ → Reply × τ)
    (hresponds : Responds backend app respond) (reqs : List KeyedRequest)
    (hbodies : ∀ req ∈ reqs, ∀ req' ∈ reqs, sha256 req.body = sha256 req'.body →
      req.body = req'.body) (t : τ) :
    let run := answersOf (serveStep backend ttl app clock sha256) reqs
      (ServerState.start (fun _ => []) t)
    let service := answersOf (IdempotentService.serve clock ttl respond) reqs
      (IdempotentService.start t)
    (run.1 = service.1 ∧ run.2.app = service.2.app) ∧
      (∀ req s k, k ≠ req.slot →
        (serve clock backend sha256 ttl app req s).2.entries k = s.entries k) ∧
      ∀ req s s', SameAt req.slot s s' →
        (serve clock backend sha256 ttl app req s).2.outbox () =
            (serve clock backend sha256 ttl app req s').2.outbox () ∧
          SameAt req.slot (serve clock backend sha256 ttl app req s).2
            (serve clock backend sha256 ttl app req s').2 := by
  intro run service
  have hcollide : ∀ b ∈ reqs.map KeyedRequest.body, ∀ b' ∈ reqs.map KeyedRequest.body,
      sha256 b = sha256 b' → b = b' := by
    intro b hb b' hb'
    obtain ⟨req, hreq, rfl⟩ := List.mem_map.mp hb
    obtain ⟨req', hreq', rfl⟩ := List.mem_map.mp hb'
    exact hbodies req hreq req' hreq'
  obtain ⟨hanswers, hlast⟩ := Refines.answersOf backend ttl app hclock hresponds hcollide
    (fun req hreq => List.mem_map_of_mem hreq) (refines_start (reqs.map KeyedRequest.body) t)
  exact ⟨⟨hanswers, hlast.app.symm⟩,
    fun req s k hk => entries_serve_ne backend ttl app hresponds req s hk,
    fun req s s' h => serve_sameAt backend ttl app hresponds h⟩

end Refinement

namespace Specimen

def request (body : Bytes) : KeyedRequest where
  scope := post "/v1/persons"
  tenant_id := 1
  key := ['k']
  delivery := ⟨[], body⟩
  keyed := keyOf_post _

def respond (_ : Scope) (body : Bytes) (n : ℕ) : Reply × ℕ :=
  (⟨200, [], [body], utf8Encode (natStr n)⟩, n + 1)

theorem hexdigest_ne : Sha256.hexdigest [1] ≠ Sha256.hexdigest [2] := by
  decide +kernel

theorem middleware_replays :
    (answersOf (serveStep counter 7200 echo clock Sha256.hexdigest)
        [request [1], request [1], request [2], request [2]]
        (ServerState.start (fun _ => []) 0)).1 =
      [(Reply.messages ⟨200, [], [[1]], [48]⟩), answerMessages 200 [] [1, 48],
        conflictMessages ['k'], (Reply.messages ⟨200, [], [[2]], [49]⟩)] := by
  have hclock : Monotone clock := fun m n h => by
    have hle : (m : ℚ) ≤ n := Nat.cast_le.mpr h
    unfold clock
    linarith
  have hbodies : ∀ req ∈ [request [1], request [1], request [2], request [2]],
      ∀ req' ∈ [request [1], request [1], request [2], request [2]],
        Sha256.hexdigest req.body = Sha256.hexdigest req'.body → req.body = req'.body := by
    intro req hreq req' hreq' hhash
    have hbody : ∀ r ∈ [request [1], request [1], request [2], request [2]],
        r.body = [1] ∨ r.body = [2] := by
      decide
    rcases hbody req hreq with h | h <;> rcases hbody req' hreq' with h' | h' <;>
      rw [h, h'] at hhash ⊢
    · exact absurd hhash hexdigest_ne
    · exact absurd hhash hexdigest_ne.symm
  have hrefines := (middleware_is_expiring_map clock hclock counter Sha256.hexdigest 7200 echo
    respond (fun _ _ _ => rfl) [request [1], request [1], request [2], request [2]] hbodies 0).1.1
  rw [hrefines]
  decide +kernel

end Specimen
end Hawiya
