import Hawiya.Server

/-!
# Requests one after another through the middleware

What serving one keyed request does, with nothing else going on. A live entry answers the request
and the application is not called. On a miss the application runs on the whole body, its messages
pass through as they are, and its response is stored if its last chunk passes with a 2xx status.
-/

namespace Hawiya
open PyString Interaction IdempotencyMiddleware

/-- What an application that is called once sends: one response, in any number of chunks. -/
structure Reply where
  status : ℕ
  headers : Headers
  chunks : List Bytes
  last : Bytes
  deriving DecidableEq

namespace Reply

def body (r : Reply) : Bytes := r.chunks.flatten ++ r.last

def unfinished (r : Reply) : List Message :=
  .responseStart r.status r.headers :: r.chunks.map (fun c => .responseBody c true)

def messages (r : Reply) : List Message := r.unfinished ++ [.responseBody r.last false]

theorem capture_chunks (chunks : List Bytes) (c : Closure) :
    (chunks.map (fun b => Message.responseBody b true)).foldl Closure.capture c =
      { c with body := c.body ++ chunks.flatten } := by
  induction chunks generalizing c with
  | nil => simp
  | cons b chunks ih =>
    rw [List.map_cons, List.foldl_cons, ih]
    simp [Closure.capture]

/-- The reply as `captured` holds it. -/
def closure (r : Reply) : Closure := { status := r.status, headers := r.headers, body := r.body }

theorem captured_unfinished (r : Reply) :
    captured r.unfinished =
      { status := r.status, headers := r.headers, body := r.chunks.flatten } := by
  rw [captured, unfinished, List.foldl_cons, capture_chunks]
  rfl

theorem captured_messages (r : Reply) : captured r.messages = r.closure := by
  rw [messages, captured_append, captured_unfinished]
  rfl

theorem whole_messages {r : Reply} (h : cacheable r.status) : Whole r.messages :=
  ⟨.responseBody r.last false, List.getLast?_concat, by
    simp [Closure.completes, captured_messages, closure, h]⟩

/-- A replayed response: the same with its chunks joined. -/
def joined (r : Reply) : Reply := { r with chunks := [], last := r.body }

theorem joined_messages (r : Reply) :
    r.joined.messages = answerMessages r.status r.headers r.body := rfl

end Reply

section Sequential
variable {τ ω : Type} {Rep : ω → Type}
variable (clock : ℕ → ℚ) (backend : Environment Unit Unit ω Rep PyError τ)

/-- The application on a complete body: what it sends, how it ends and its state after. -/
def play (body : Bytes) :
    Program (AsgiOp ω) (AsgiOp.Reply Rep) PyError Unit → Bool → τ →
      List Message × Except PyError Unit × τ
  | .pure a, _, t => ([], .ok a, t)
  | .throw e, _, t => ([], .error e, t)
  | .call .receive next, sent, t =>
      play body (next (.ok (if sent then .disconnect else .request body false))) true t
  | .call (.send message) next, sent, t =>
      (message :: (play body (next (.ok ())) sent t).1, (play body (next (.ok ())) sent t).2)
  | .call (.own op) next, sent, t =>
      play body (next (backend.exec () () op t).1) sent (backend.exec () () op t).2

section Capture
variable (f : Fingerprint) (ttl : ℕ)

/-- The server after the capturing `send` of one message. -/
def afterSend (c : Closure) (message : Message) (s : ServerState Unit τ) : ServerState Unit τ :=
  let s := s.record () (.sent message)
  let s := if (c.capture message).completes message then
      s.afterPut clock f.tenant_id f.key
        (fun now => (c.capture message).toCached f.body_hash (now + ttl))
    else s
  s.deliver () message

def afterSends : Closure → List Message → ServerState Unit τ → ServerState Unit τ
  | _, [], s => s
  | c, m :: ms, s => afterSends (c.capture m) ms (afterSend clock f ttl c m s)

theorem run_capturingSend (body : Bytes) (c : Closure) (message : Message)
    (s : ServerState Unit τ) :
    (replayAndCapture body f ttl (.send message) c : ServerProgram ω Rep _).run
        (ServerState.exec clock backend () ()) s =
      (.ok ((), c.capture message), afterSend clock f ttl c message s) := by
  unfold replayAndCapture afterSend
  by_cases h : (c.capture message).completes message
  · simp only [h, if_true]
    rfl
  · simp only [h, Bool.false_eq_true, if_false]
    rfl

theorem run_ownOp (body : Bytes) (c : Closure) (op : ω) (s : ServerState Unit τ) :
    (replayAndCapture body f ttl (.own op) c : ServerProgram ω Rep _).run
        (ServerState.exec clock backend () ()) s =
      ((backend.exec () () op s.app).1.map (fun reply => (reply, c)),
        { s with app := (backend.exec () () op s.app).2 }) := by
  unfold replayAndCapture Server.own Server.await
  rw [Program.run_bind, Program.run_perform]
  simp only [ServerState.exec]
  cases (backend.exec () () op s.app).1 with
  | ok reply => rfl
  | error e => rfl

theorem afterSend_app (c : Closure) (m : Message) (s : ServerState Unit τ) (t : τ) :
    afterSend clock f ttl c m { s with app := t } =
      { afterSend clock f ttl c m s with app := t } := by
  unfold afterSend
  split_ifs <;> rfl

theorem afterSends_app (c : Closure) (ms : List Message) (s : ServerState Unit τ) (t : τ) :
    afterSends clock f ttl c ms { s with app := t } =
      { afterSends clock f ttl c ms s with app := t } := by
  induction ms generalizing c s with
  | nil => rfl
  | cons m ms ih => rw [afterSends, afterSend_app, ih, afterSends]

theorem afterSend_sent (c : Closure) (b : Bool) (m : Message) (s : ServerState Unit τ) :
    afterSend clock f ttl { c with sent := b } m s = afterSend clock f ttl c m s := by
  unfold afterSend
  rw [capture_sent, completes_sent]
  rfl

theorem afterSends_sent (c : Closure) (b : Bool) (ms : List Message) (s : ServerState Unit τ) :
    afterSends clock f ttl { c with sent := b } ms s = afterSends clock f ttl c ms s := by
  induction ms generalizing c s with
  | nil => rfl
  | cons m ms ih => rw [afterSends, afterSend_sent, capture_sent, ih, afterSends]

/-- Operation by operation, the application does what it does alone, and the server what the
messages it sends say. -/
theorem run_throughCapture (body : Bytes)
    (p : Program (AsgiOp ω) (AsgiOp.Reply Rep) PyError Unit) (c : Closure)
    (s : ServerState Unit τ) :
    ∃ c', p.run (Program.execThrough (ServerState.exec clock backend () ())
        (replayAndCapture body f ttl)) (c, s) =
      ((play backend body p c.sent s.app).2.1, c',
        { afterSends clock f ttl c (play backend body p c.sent s.app).1 s with
          app := (play backend body p c.sent s.app).2.2 }) := by
  induction p generalizing c s with
  | pure a => exact ⟨c, rfl⟩
  | throw e => exact ⟨c, rfl⟩
  | call op next ih =>
    rw [Program.run, Program.execThrough]
    cases op with
    | receive =>
      obtain ⟨c', hnext⟩ := ih (.ok (if c.sent then .disconnect else .request body false))
        { c with sent := true } s
      rw [afterSends_sent] at hnext
      exact ⟨c', hnext⟩
    | send message =>
      obtain ⟨c', hnext⟩ := ih (.ok ()) (c.capture message) (afterSend clock f ttl c message s)
      have happ : (afterSend clock f ttl c message s).app = s.app := by
        unfold afterSend
        split_ifs <;> rfl
      rw [happ, sent_capture] at hnext
      rw [run_capturingSend]
      exact ⟨c', hnext⟩
    | own op =>
      rw [run_ownOp]
      rcases hreply : backend.exec () () op s.app with ⟨r, t⟩
      cases r with
      | ok a =>
        obtain ⟨c', hnext⟩ := ih (.ok a) c { s with app := t }
        refine ⟨c', hnext.trans ?_⟩
        simp only [play, hreply, afterSends_app]
      | error e =>
        obtain ⟨c', hnext⟩ := ih (.error e) c { s with app := t }
        refine ⟨c', hnext.trans ?_⟩
        simp only [play, hreply, afterSends_app]

/-- Under the two closures the application does what it does alone. -/
theorem run_replayAndCapture (body : Bytes)
    (p : Program (AsgiOp ω) (AsgiOp.Reply Rep) PyError Unit) (c : Closure)
    (s : ServerState Unit τ) :
    (p.interpret (replayAndCapture body f ttl) c).run (ServerState.exec clock backend () ()) s =
      ((play backend body p c.sent s.app).2.1,
        { afterSends clock f ttl c (play backend body p c.sent s.app).1 s with
          app := (play backend body p c.sent s.app).2.2 }) := by
  obtain ⟨c', hrun⟩ := run_throughCapture clock backend f ttl body p c s
  rw [Program.run_interpret, hrun]

theorem afterSends_append (c : Closure) (ms ms' : List Message) (s : ServerState Unit τ) :
    afterSends clock f ttl c (ms ++ ms') s =
      afterSends clock f ttl (ms.foldl Closure.capture c) ms' (afterSends clock f ttl c ms s) := by
  induction ms generalizing c s with
  | nil => rfl
  | cons m ms ih => exact ih _ _

theorem outbox_afterSends (c : Closure) (ms : List Message) (s : ServerState Unit τ) :
    (afterSends clock f ttl c ms s).outbox () = s.outbox () ++ ms := by
  induction ms generalizing c s with
  | nil => exact (List.append_nil _).symm
  | cons m ms ih =>
    have hsend : (afterSend clock f ttl c m s).outbox () = s.outbox () ++ [m] := by
      unfold afterSend
      split_ifs
      · simp [ServerState.deliver, ServerState.afterPut, ServerState.record]
      · simp [ServerState.deliver, ServerState.record]
    rw [afterSends, ih, hsend, List.append_assoc]
    rfl

/-- Before the last chunk nothing is stored. -/
theorem store_afterSends_chunks (chunks : List Bytes) (c : Closure) (s : ServerState Unit τ) :
    (afterSends clock f ttl c (chunks.map (fun b => .responseBody b true)) s).entries = s.entries ∧
      (afterSends clock f ttl c (chunks.map (fun b => .responseBody b true)) s).ticks = s.ticks := by
  induction chunks generalizing c s with
  | nil => exact ⟨rfl, rfl⟩
  | cons b chunks ih => exact ih _ _

/-- A whole response is stored, with its chunks joined, if its status is 2xx. -/
theorem store_afterSends_reply (r : Reply) (s : ServerState Unit τ) :
    (afterSends clock f ttl {} r.messages s).entries =
        (if cacheable r.status then
          InMemoryIdempotencyStore.put s.entries f.tenant_id f.key
            ⟨r.status, r.headers, r.body, f.body_hash, clock s.ticks + ttl⟩
        else s.entries) ∧
      (afterSends clock f ttl {} r.messages s).ticks =
        if cacheable r.status then s.ticks + 1 else s.ticks := by
  have hstore : (afterSends clock f ttl {} r.unfinished s).entries = s.entries ∧
      (afterSends clock f ttl {} r.unfinished s).ticks = s.ticks :=
    store_afterSends_chunks clock f ttl r.chunks _
      (afterSend clock f ttl {} (.responseStart r.status r.headers) s)
  rw [Reply.messages, afterSends_append, ← captured, r.captured_unfinished]
  generalize afterSends clock f ttl {} r.unfinished s = s' at hstore ⊢
  simp only [afterSends, afterSend, Closure.capture, Closure.completes, Bool.not_false,
    Bool.true_and]
  rw [← hstore.1, ← hstore.2]
  by_cases h : cacheable r.status
  · simp only [h, if_true]
    exact ⟨rfl, rfl⟩
  · simp only [h, Bool.false_eq_true, if_false]
    exact ⟨rfl, rfl⟩

end Capture

/-- A request that takes part, with the tenant and key its headers give. -/
structure KeyedRequest where
  scope : Scope
  tenant_id : UUID
  key : Str
  delivery : Delivery
  keyed : keyOf scope = some (tenant_id, key)

namespace KeyedRequest

def body (req : KeyedRequest) : Bytes := req.delivery.body

def slot (req : KeyedRequest) : UUID × Str := (req.tenant_id, req.key)

end KeyedRequest

variable (sha256 : Bytes → Str) (ttl : ℕ) (app : App ω Rep)

def fingerprint (req : KeyedRequest) : Fingerprint := ⟨req.tenant_id, req.key, sha256 req.body⟩

/-- The server when the request has been read and its key looked up. -/
def lookedUp (req : KeyedRequest) (s : ServerState Unit τ) : ServerState Unit τ :=
  { s with inbox := fun _ => [], outbox := fun _ => [] }.afterGet clock req.tenant_id req.key

def serve (req : KeyedRequest) (s : ServerState Unit τ) :
    Except PyError Unit × ServerState Unit τ :=
  (call sha256 ttl app req.scope).run (ServerState.exec clock backend () ())
    { s with inbox := fun _ => req.delivery.messages, outbox := fun _ => [] }

/-- A keyed request, once its body has been read. -/
theorem run_call {scope : Scope} {tenant_id : UUID} {key : Str}
    (hkeyed : keyOf scope = some (tenant_id, key)) {s : ServerState Unit τ} {body : Bytes}
    {rest : List Message} (hbody : collectBody (s.inbox ()) = (body, rest)) :
    (call sha256 ttl app scope).run (ServerState.exec clock backend () ()) s =
      (settle ttl app scope body ⟨tenant_id, key, sha256 body⟩ (s.lookup clock tenant_id key)).run
        (ServerState.exec clock backend () ())
        ((s.setInbox () rest).afterGet clock tenant_id key) := by
  unfold call
  rw [hkeyed]
  unfold keyed Server.collectBody Server.get Server.await
  simp only [Program.run_bind, Program.run_perform, ServerState.exec, hbody]
  rfl

theorem serve_eq (req : KeyedRequest) (s : ServerState Unit τ) :
    serve clock backend sha256 ttl app req s =
      (settle ttl app req.scope req.body (fingerprint sha256 req)
        (s.lookup clock req.tenant_id req.key)).run (ServerState.exec clock backend () ())
        (lookedUp clock req s) := by
  have hinbox : ({ s with inbox := fun _ => req.delivery.messages, outbox := fun _ => [] } :
      ServerState Unit τ).setInbox () [] =
        { s with inbox := fun _ => [], outbox := fun _ => [] } := by
    unfold ServerState.setInbox
    congr 1
  rw [serve, run_call clock backend sha256 ttl app req.keyed req.delivery.collectBody_messages,
    hinbox]
  rfl

theorem run_answer (status : ℕ) (headers : Headers) (body : Bytes) (s : ServerState Unit τ) :
    (answer status headers body : ServerProgram ω Rep Unit).run
        (ServerState.exec clock backend () ()) s =
      (.ok (), (s.deliver () (.responseStart status headers)).deliver ()
        (.responseBody body false)) := rfl

/-- What serving a request leaves: its answer, the store, the clock and the application. -/
structure Leaves (r : Except PyError Unit × ServerState Unit τ) (answer : List Message)
    (entries : Entries) (ticks : ℕ) (t : τ) : Prop where
  ok : r.1 = .ok ()
  answer : r.2.outbox () = answer
  entries : r.2.entries = entries
  ticks : r.2.ticks = ticks
  app : r.2.app = t

theorem leaves_answer (req : KeyedRequest) (s : ServerState Unit τ) (status : ℕ)
    (headers : Headers) (body : Bytes) :
    Leaves ((answer status headers body : ServerProgram ω Rep Unit).run
        (ServerState.exec clock backend () ()) (lookedUp clock req s))
      (answerMessages status headers body) (lookedUp clock req s).entries (s.ticks + 1) s.app where
  ok := rfl
  answer := by
    rw [run_answer]
    simp [ServerState.deliver, lookedUp, ServerState.afterGet, answerMessages]
  entries := rfl
  ticks := rfl
  app := rfl

theorem serve_replay {req : KeyedRequest} {s : ServerState Unit τ} {cached : CachedResponse}
    (h : s.lookup clock req.tenant_id req.key = some cached)
    (hbody : cached.body_hash = sha256 req.body) :
    Leaves (serve clock backend sha256 ttl app req s)
      (answerMessages cached.status cached.headers cached.body) (lookedUp clock req s).entries
      (s.ticks + 1) s.app := by
  have hsame : cached.body_hash = (fingerprint sha256 req).body_hash := hbody
  rw [serve_eq, h, settle_replay ttl app hsame]
  exact leaves_answer clock backend req s _ _ _

theorem serve_conflict {req : KeyedRequest} {s : ServerState Unit τ} {cached : CachedResponse}
    (h : s.lookup clock req.tenant_id req.key = some cached)
    (hbody : cached.body_hash ≠ sha256 req.body) :
    Leaves (serve clock backend sha256 ttl app req s) (conflictMessages req.key)
      (lookedUp clock req s).entries (s.ticks + 1) s.app := by
  have hdiffers : cached.body_hash ≠ (fingerprint sha256 req).body_hash := hbody
  rw [serve_eq, h, settle_conflict ttl app hdiffers]
  exact leaves_answer clock backend req s _ _ _

theorem serve_forward {req : KeyedRequest} {s : ServerState Unit τ} {reply : Reply} {t : τ}
    (h : s.lookup clock req.tenant_id req.key = none)
    (hplay : play backend req.body (app req.scope) false s.app = (reply.messages, .ok (), t)) :
    Leaves (serve clock backend sha256 ttl app req s) reply.messages
      (if cacheable reply.status then
        InMemoryIdempotencyStore.put (lookedUp clock req s).entries req.tenant_id req.key
          ⟨reply.status, reply.headers, reply.body, sha256 req.body, clock (s.ticks + 1) + ttl⟩
      else (lookedUp clock req s).entries)
      (if cacheable reply.status then s.ticks + 2 else s.ticks + 1) t := by
  have hrun : serve clock backend sha256 ttl app req s =
      ((app req.scope).interpret (replayAndCapture req.body (fingerprint sha256 req) ttl) {}).run
        (ServerState.exec clock backend () ())
        ((lookedUp clock req s).record () (.called req.scope)) := by
    rw [serve_eq, h]
    rfl
  have hplay' : play backend req.body (app req.scope) ({} : Closure).sent
      ((lookedUp clock req s).record () (.called req.scope)).app = (reply.messages, .ok (), t) :=
    hplay
  rw [hrun, run_replayAndCapture, hplay']
  obtain ⟨hentries, hticks⟩ := store_afterSends_reply clock (fingerprint sha256 req) ttl reply
    ((lookedUp clock req s).record () (.called req.scope))
  exact {
    ok := rfl
    answer := outbox_afterSends clock (fingerprint sha256 req) ttl {} reply.messages _
    entries := hentries
    ticks := hticks
    app := rfl }

theorem lookup_eq_filter (s : ServerState Unit τ) (tenant_id : UUID) (key : Str) :
    s.lookup clock tenant_id key =
      (s.entries (tenant_id, key)).filter (fun c => ¬ c.expires_at < clock s.ticks) := by
  unfold ServerState.lookup InMemoryIdempotencyStore.get
  cases s.entries (tenant_id, key) with
  | none => rfl
  | some entry =>
    by_cases hdead : entry.expires_at < clock s.ticks
    · simp [hdead, Option.filter]
    · simp [hdead, Option.filter]

/-- A lookup leaves at its tenant and key what it found there. -/
theorem lookedUp_entry (req : KeyedRequest) (s : ServerState Unit τ) :
    (lookedUp clock req s).entries req.slot = s.lookup clock req.tenant_id req.key := by
  change (InMemoryIdempotencyStore.get s.entries (clock s.ticks) req.tenant_id req.key).2
    (req.tenant_id, req.key) = _
  unfold ServerState.lookup
  cases hentry : s.entries (req.tenant_id, req.key) with
  | none => simp only [InMemoryIdempotencyStore.get, hentry]
  | some entry =>
    by_cases hdead : entry.expires_at < clock s.ticks
    · simp [InMemoryIdempotencyStore.get, hentry, hdead]
    · simp [InMemoryIdempotencyStore.get, hentry, hdead]

/-- Nothing is ever read or written at another tenant and key. -/
theorem lookedUp_entries_ne {req : KeyedRequest} {s : ServerState Unit τ} {k : UUID × Str}
    (h : k ≠ req.slot) : (lookedUp clock req s).entries k = s.entries k := by
  change (InMemoryIdempotencyStore.get s.entries (clock s.ticks) req.tenant_id req.key).2 k = _
  unfold InMemoryIdempotencyStore.get
  cases s.entries (req.tenant_id, req.key) with
  | none => rfl
  | some entry =>
    by_cases hdead : entry.expires_at < clock s.ticks
    · simp only [if_pos hdead]
      exact Function.update_of_ne h _ _
    · simp only [if_neg hdead]

end Sequential
end Hawiya
