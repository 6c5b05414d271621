import Hawiya.Traffic
import Hawiya.IdempotencyMap

/-!
# Buffering of the request body

What the application behind the middleware is handed for one keyed request, read off a tap at its
`receive`. A body that arrives whole is handed on as one message. The loop that collects it does not
look at a message's type: a client that goes away ends the body, and the application is handed what
had arrived of it as if it were the whole.
-/

namespace Hawiya
open PyString Interaction IdempotencyMiddleware

/-- A keyed request as it arrives: chunks with more to come, the message that ends them, a last
chunk or a disconnect, and what the server has to say after it. -/
structure Reception where
  scope : Scope
  tenant_id : UUID
  key : Str
  chunks : List Bytes
  last : Option Bytes
  rest : List Message
  keyed : keyOf scope = some (tenant_id, key)

namespace Reception
variable (r : Reception)

def ending : Message :=
  match r.last with
  | some last => .request last false
  | none => .disconnect

def messages : List Message := r.chunks.map (fun c => .request c true) ++ r.ending :: r.rest

def body : Bytes := r.chunks.flatten ++ r.ending.body

theorem ending_more_body : r.ending.more_body = false := by
  unfold ending
  cases r.last with
  | some last => rfl
  | none => rfl

theorem collectBody_messages : collectBody r.messages = (r.body, r.rest) :=
  Delivery.collectBody_until r.chunks r.ending_more_body r.rest

theorem body_final {last : Bytes} (h : r.last = some last) :
    r.body = r.chunks.flatten ++ last := by
  rw [body, ending, h]
  rfl

theorem body_disconnect (h : r.last = none) : r.body = r.chunks.flatten := by
  rw [body, ending, h]
  exact List.append_nil _

end Reception

section Tap
variable {τ ω : Type} {Rep : ω → Type}

abbrev Tapped (Rep : ω → Type) : ω ⊕ Message → Type := Sum.elim Rep (fun _ => Unit)

abbrev TappedProgram (Rep : ω → Type) : Type → Type :=
  Program (AsgiOp (ω ⊕ Message)) (AsgiOp.Reply (Tapped Rep)) PyError

/-- Every message received is noted. -/
def tapOp : (op : AsgiOp ω) → Unit → TappedProgram Rep (op.Reply Rep × Unit)
  | .receive, _ =>
      Program.perform (.receive : AsgiOp (ω ⊕ Message)) >>= fun (message : Message) =>
        Program.perform (.own (.inr message)) >>= fun _ => pure (message, ())
  | .send message, _ => Program.perform (.send message) >>= fun _ => pure ((), ())
  | .own op, _ => Program.perform (.own (.inl op)) >>= fun reply => pure (reply, ())

def tap (app : App ω Rep) : App (ω ⊕ Message) (Tapped Rep) :=
  fun scope => (app scope).interpret tapOp ()

def tapped (backend : Environment Unit Unit ω Rep PyError τ) :
    Environment Unit Unit (ω ⊕ Message) (Tapped Rep) PyError (τ × List Message) where
  waits i op s :=
    match op with
    | .inl op => backend.waits i op s.1
    | .inr _ => false
  exec i choice op s :=
    match op with
    | .inl op => ((backend.exec i choice op s.1).1, (backend.exec i choice op s.1).2, s.2)
    | .inr message => (.ok (), s.1, s.2 ++ [message])

variable (backend : Environment Unit Unit ω Rep PyError τ)

/-- The messages an application is handed on a complete body. -/
def handedOn (body : Bytes) :
    Program (AsgiOp ω) (AsgiOp.Reply Rep) PyError Unit → Bool → τ → List Message
  | .pure _, _, _ => []
  | .throw _, _, _ => []
  | .call .receive next, sent, t =>
      (if sent then .disconnect else .request body false) ::
        handedOn body (next (.ok (if sent then .disconnect else .request body false))) true t
  | .call (.send _) next, sent, t => handedOn body (next (.ok ())) sent t
  | .call (.own op) next, sent, t =>
      handedOn body (next (backend.exec () () op t).1) sent (backend.exec () () op t).2

theorem play_tap (body : Bytes) (p : Program (AsgiOp ω) (AsgiOp.Reply Rep) PyError Unit)
    (sent : Bool) (t : τ) (noted : List Message) :
    play (tapped backend) body (p.interpret tapOp ()) sent (t, noted) =
      ((play backend body p sent t).1, (play backend body p sent t).2.1,
        (play backend body p sent t).2.2, noted ++ handedOn backend body p sent t) := by
  induction p generalizing sent t noted with
  | pure a =>
    rw [handedOn, List.append_nil]
    rfl
  | throw e =>
    rw [handedOn, List.append_nil]
    rfl
  | call op next ih =>
    cases op with
    | receive =>
      have hnext := ih (.ok (if sent then .disconnect else .request body false)) true t
        (noted ++ [if sent then .disconnect else .request body false])
      rw [List.append_assoc] at hnext
      rw [Program.interpret]
      simp only [tapOp, Program.bind_def, Program.bind, Program.perform, Program.handle, play,
        Program.ofExcept, tapped]
      exact hnext
    | send message =>
      rw [Program.interpret]
      simp only [tapOp, Program.bind_def, Program.bind, Program.perform, Program.handle, play,
        Program.ofExcept]
      exact congrArg (fun r => (message :: r.1, r.2)) (ih (.ok ()) sent t noted)
    | own op =>
      rw [Program.interpret]
      simp only [tapOp, Program.bind_def, Program.bind, Program.perform, Program.handle, play]
      rcases hreply : backend.exec () () op t with ⟨reply, t'⟩
      have hexec : (tapped backend).exec () () (.inl op) (t, noted) = (reply, t', noted) := by
        simp only [tapped, hreply]
        rfl
      have hhanded : handedOn backend body (.call (.own op) next) sent t =
          handedOn backend body (next reply) sent t' := by
        simp only [handedOn, hreply]
      have hnext := ih reply sent t' noted
      rw [hexec, hhanded]
      cases reply with
      | ok a => exact hnext
      | error e => exact hnext

theorem handedOn_sent (body : Bytes) (p : Program (AsgiOp ω) (AsgiOp.Reply Rep) PyError Unit)
    (t : τ) : ∀ m ∈ handedOn backend body p true t, m = .disconnect := by
  induction p generalizing t with
  | pure a => simp [handedOn]
  | throw e => simp [handedOn]
  | call op next ih =>
    cases op with
    | receive =>
      intro m hm
      rcases List.mem_cons.mp hm with rfl | hm
      · rfl
      · exact ih _ t m hm
    | send message => exact ih _ t
    | own op => exact ih _ _

theorem handedOn_first {body : Bytes} {p : Program (AsgiOp ω) (AsgiOp.Reply Rep) PyError Unit}
    {t : τ} {m : Message} {ms : List Message} (h : handedOn backend body p false t = m :: ms) :
    m = .request body false ∧ ∀ m' ∈ ms, m' = .disconnect := by
  induction p generalizing t with
  | pure a => cases h
  | throw e => cases h
  | call op next ih =>
    cases op with
    | receive =>
      obtain ⟨rfl, rfl⟩ := List.cons.inj h
      exact ⟨rfl, handedOn_sent backend body _ t⟩
    | send message => exact ih _ h
    | own op => exact ih _ h

end Tap

/-! ### One request through the middleware -/

section Buffering
variable {τ ω : Type} {Rep : ω → Type}
variable (clock : ℕ → ℚ) (backend : Environment Unit Unit ω Rep PyError τ)
variable (sha256 : Bytes → Str) (ttl : ℕ)

def arrived {τ' : Type} (r : Reception) (s : ServerState Unit τ) (t : τ') : ServerState Unit τ' where
  entries := s.entries
  ticks := s.ticks
  inbox := fun _ => r.messages
  outbox := s.outbox
  events := s.events
  app := t

def after (r : Reception) (app : App ω Rep) (s : ServerState Unit τ) : ServerState Unit τ :=
  ((call sha256 ttl app r.scope).run (ServerState.exec clock backend () ()) (arrived r s s.app)).2

def handed (r : Reception) (app : App ω Rep) (s : ServerState Unit τ) : List Message :=
  ((call sha256 ttl (tap app) r.scope).run (ServerState.exec clock (tapped backend) () ())
    (arrived r s (s.app, []))).2.app.2

/-- A body that ends is handed over whole, in the first message. One that does not is not handed
over as if it did, and nothing is stored for it. -/
def Transparent (r : Reception) (app : App ω Rep) (s : ServerState Unit τ) : Prop :=
  (∀ last m ms, r.last = some last → handed clock backend sha256 ttl r app s = m :: ms →
    m = .request (r.chunks.flatten ++ last) false ∧ ∀ m' ∈ ms, m' = .disconnect) ∧
  (r.last = none →
    .request r.chunks.flatten false ∉ handed clock backend sha256 ttl r app s ∧
    ∀ slot c, (after clock backend sha256 ttl r app s).entries slot = some c →
      c.body_hash = sha256 r.chunks.flatten → s.entries slot = some c)

theorem run_answered {app : App ω Rep} {scope : Scope} {body : Bytes} {f : Fingerprint}
    (cached : CachedResponse) (s : ServerState Unit τ) :
    ((settle ttl app scope body f (some cached)).run (ServerState.exec clock backend () ()) s).2.app =
        s.app ∧
      ((settle ttl app scope body f (some cached)).run
        (ServerState.exec clock backend () ()) s).2.entries = s.entries := by
  by_cases h : cached.body_hash = f.body_hash
  · rw [settle_replay ttl app h]
    exact ⟨rfl, rfl⟩
  · rw [settle_conflict ttl app h]
    exact ⟨rfl, rfl⟩

theorem handed_of_lookup {r : Reception} {s : ServerState Unit τ} {cached : CachedResponse}
    (h : s.lookup clock r.tenant_id r.key = some cached) (app : App ω Rep) :
    handed clock backend sha256 ttl r app s = [] := by
  have hlookup : (arrived r s (s.app, ([] : List Message))).lookup clock r.tenant_id r.key =
      some cached := h
  rw [handed, run_call clock (tapped backend) sha256 ttl (tap app) r.keyed
    (s := arrived r s (s.app, [])) r.collectBody_messages, hlookup,
    (run_answered clock (tapped backend) ttl cached _).1]
  rfl

theorem after_of_lookup {r : Reception} {s : ServerState Unit τ} {cached : CachedResponse}
    (h : s.lookup clock r.tenant_id r.key = some cached) (app : App ω Rep) {slot : UUID × Str}
    {c : CachedResponse} (hc : (after clock backend sha256 ttl r app s).entries slot = some c) :
    s.entries slot = some c := by
  have hlookup : (arrived r s s.app).lookup clock r.tenant_id r.key = some cached := h
  rw [after, run_call clock backend sha256 ttl app r.keyed
    (s := arrived r s s.app) r.collectBody_messages, hlookup,
    (run_answered clock backend ttl cached _).2] at hc
  exact InMemoryIdempotencyStore.entries_get hc

theorem handed_of_miss {r : Reception} {s : ServerState Unit τ}
    (h : s.lookup clock r.tenant_id r.key = none) (app : App ω Rep) :
    handed clock backend sha256 ttl r app s =
      handedOn backend r.body (app r.scope) false s.app := by
  have hlookup : (arrived r s (s.app, ([] : List Message))).lookup clock r.tenant_id r.key = none := h
  rw [handed, run_call clock (tapped backend) sha256 ttl (tap app) r.keyed
    (s := arrived r s (s.app, [])) r.collectBody_messages, hlookup]
  have hrun : (settle ttl (tap app) r.scope r.body ⟨r.tenant_id, r.key, sha256 r.body⟩ none).run
      (ServerState.exec clock (tapped backend) () ())
        (((arrived r s (s.app, ([] : List Message))).setInbox () r.rest).afterGet clock r.tenant_id
          r.key) =
      (((tap app) r.scope).interpret
        (replayAndCapture r.body ⟨r.tenant_id, r.key, sha256 r.body⟩ ttl) {}).run
        (ServerState.exec clock (tapped backend) () ())
        ((((arrived r s (s.app, ([] : List Message))).setInbox () r.rest).afterGet clock r.tenant_id
          r.key).record () (.called r.scope)) := rfl
  rw [hrun, run_replayAndCapture]
  change (play (tapped backend) r.body ((app r.scope).interpret tapOp ()) false (s.app, [])).2.2.2 = _
  rw [play_tap]
  rfl

def reader : App ω Rep := fun _ => Program.perform (.receive : AsgiOp ω) >>= fun _ => pure ()

/-- Buffering is transparent to every application exactly when the body ends, or a live entry
answers the request before the application is called. -/
theorem transparent_iff (r : Reception) (s : ServerState Unit τ) :
    (∀ app : App ω Rep, Transparent clock backend sha256 ttl r app s) ↔
      (r.last ≠ none ∨ (s.lookup clock r.tenant_id r.key).isSome = true) := by
  cases hlookup : s.lookup clock r.tenant_id r.key with
  | some cached =>
    refine iff_of_true (fun app => ?_) (.inr rfl)
    have hnone := handed_of_lookup clock backend sha256 ttl hlookup app
    refine ⟨fun last m ms _ h => ?_, fun _ => ⟨?_, fun slot c hc _ => ?_⟩⟩
    · rw [hnone] at h
      cases h
    · rw [hnone]
      exact List.not_mem_nil
    · exact after_of_lookup clock backend sha256 ttl hlookup app hc
  | none =>
    have hhanded := handed_of_miss clock backend sha256 ttl hlookup
    cases hlast : r.last with
    | some last =>
      refine iff_of_true (fun app => ⟨fun last' m ms hlast' h => ?_, fun h => ?_⟩) (.inl (by simp))
      · rw [hhanded, r.body_final hlast'] at h
        exact handedOn_first backend h
      · rw [hlast] at h
        cases h
    | none =>
      refine iff_of_false (fun h => ?_) (by simp)
      have htruncated := ((h reader).2 hlast).1
      rw [hhanded, r.body_disconnect hlast] at htruncated
      exact htruncated (List.mem_cons_self ..)

end Buffering

namespace Specimen

def cutOff : Reception where
  scope := post "/v1/persons"
  tenant_id := 1
  key := ['k']
  chunks := [[1]]
  last := none
  rest := []
  keyed := keyOf_post _

def idle : ServerState Unit ℕ := ServerState.start (fun _ => []) 0

/-- The application is handed the chunk as a whole body, and its response is stored for it. -/
theorem cut_off_body_stored :
    handed clock counter Sha256.hexdigest 86400 cutOff echo idle = [.request [1] false] ∧
      ((after clock counter Sha256.hexdigest 86400 cutOff echo idle).entries (1, ['k'])).map
        (fun c => (c.status, c.body_hash)) = some (200, Sha256.hexdigest [1]) ∧
      ¬ Transparent clock counter Sha256.hexdigest 86400 cutOff echo idle := by
  have hhanded : handed clock counter Sha256.hexdigest 86400 cutOff echo idle =
      [.request [1] false] := by
    decide +kernel
  refine ⟨hhanded, by decide +kernel, fun h => ?_⟩
  have htruncated := (h.2 rfl).1
  rw [hhanded] at htruncated
  exact htruncated (List.mem_cons_self ..)

end Specimen
end Hawiya
