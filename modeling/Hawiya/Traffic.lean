import Hawiya.Server

/-!
# Requests next to each other through the middleware

The requests of a run, one process each, and what a request can count on while others take steps:
what has arrived for it, what it was sent and what the application sent for it stay as they are, and
the record of the application only grows.
-/

namespace Hawiya
open PyString Interaction IdempotencyMiddleware

/-- The requests of a run, and the messages that arrive for each. -/
structure Traffic (ι : Type) where
  scope : ι → Scope
  inbox : ι → List Message

namespace Traffic
variable {ι τ ω : Type} {Rep : ω → Type}

def body (x : Traffic ι) (i : ι) : Bytes := (collectBody (x.inbox i)).1

def pool (x : Traffic ι) (sha256 : Bytes → Str) (ttl : ℕ) (app : App ω Rep) (t : τ) :
    Pool ι (ServerState ι τ) (ServerOp ω) (ServerOp.Reply Rep) PyError Unit where
  shared := ServerState.start x.inbox t
  program i := call sha256 ttl app (x.scope i)

end Traffic

/-- A lookup makes no entry. -/
theorem InMemoryIdempotencyStore.entries_get {entries : Entries} {now : ℚ} {tenant_id : UUID}
    {key : Str} {k : UUID × Str} {c : CachedResponse}
    (h : (get entries now tenant_id key).2 k = some c) : entries k = some c := by
  unfold get at h
  cases hentry : entries (tenant_id, key) with
  | none => simpa [hentry] using h
  | some entry =>
    by_cases hdead : entry.expires_at < now
    · simp only [hentry, if_pos hdead] at h
      by_cases hk : k = (tenant_id, key)
      · simp [hk] at h
      · rwa [Function.update_of_ne hk] at h
    · simpa [hentry, hdead] using h

namespace ServerState
variable {ι τ χ ω : Type} {Rep : ω → Type}

/-- What a lookup finds is there. -/
theorem lookup_entry {clock : ℕ → ℚ} {s : ServerState ι τ} {tenant_id : UUID} {key : Str}
    {c : CachedResponse} (h : s.lookup clock tenant_id key = some c) :
    s.entries (tenant_id, key) = some c := by
  unfold lookup InMemoryIdempotencyStore.get at h
  cases hentry : s.entries (tenant_id, key) with
  | none => simp [hentry] at h
  | some entry =>
    by_cases hdead : entry.expires_at < clock s.ticks
    · simp [hentry, hdead] at h
    · simpa [hentry, hdead] using h

variable [DecidableEq ι]

theorem sentBy_record_self (s : ServerState ι τ) (i : ι) (e : AppEvent) :
    (s.record i e).sentBy i = s.sentBy i ++ e.message?.toList := by
  unfold sentBy record
  rw [List.filterMap_append]
  congr 1
  cases h : e.message? with
  | none => simp [h]
  | some m => simp [h]

theorem sentBy_record_ne (s : ServerState ι τ) {i j : ι} (h : j ≠ i) (e : AppEvent) :
    (s.record i e).sentBy j = s.sentBy j := by
  unfold sentBy record
  rw [List.filterMap_append]
  simp [h.symm]

theorem sentBy_mono {s s' : ServerState ι τ} (h : s.events <+: s'.events) (i : ι) :
    s.sentBy i <+: s'.sentBy i :=
  h.filterMap _

theorem outbox_deliver_self (s : ServerState ι τ) (i : ι) (m : Message) :
    (s.deliver i m).outbox i = s.outbox i ++ [m] :=
  Function.update_self ..

/-- What others leave of request `i` as it is. -/
structure Elsewhere (i : ι) (s s' : ServerState ι τ) : Prop where
  inbox : s'.inbox i = s.inbox i
  outbox : s'.outbox i = s.outbox i
  sent : s'.sentBy i = s.sentBy i
  events : s.events <+: s'.events

theorem Elsewhere.refl (i : ι) (s : ServerState ι τ) : Elsewhere i s s :=
  ⟨rfl, rfl, rfl, List.prefix_rfl⟩

theorem Elsewhere.trans {i : ι} {s s' s'' : ServerState ι τ} (h : Elsewhere i s s')
    (h' : Elsewhere i s' s'') : Elsewhere i s s'' :=
  ⟨h'.inbox.trans h.inbox, h'.outbox.trans h.outbox, h'.sent.trans h.sent,
    h.events.trans h'.events⟩

variable (clock : ℕ → ℚ) (backend : Environment ι χ ω Rep PyError τ)

theorem events_exec (i : ι) (choice : χ) (op : ServerOp ω) (s : ServerState ι τ) :
    s.events <+: (exec clock backend i choice op s).2.events := by
  cases op with
  | event e => exact List.prefix_append _ _
  | receive | collectBody | send | get | put | own => exact List.prefix_rfl

theorem exec_elsewhere {i j : ι} (h : j ≠ i) (choice : χ) (op : ServerOp ω)
    (s : ServerState ι τ) : Elsewhere j s (exec clock backend i choice op s).2 := by
  have hevents := events_exec clock backend i choice op s
  cases op with
  | receive => exact ⟨Function.update_of_ne h _ _, rfl, rfl, hevents⟩
  | collectBody => exact ⟨Function.update_of_ne h _ _, rfl, rfl, hevents⟩
  | send m => exact ⟨rfl, Function.update_of_ne h _ _, rfl, hevents⟩
  | event e => exact ⟨rfl, rfl, sentBy_record_ne s h e, hevents⟩
  | get | put | own => exact ⟨rfl, rfl, rfl, hevents⟩

/-- Only `put` makes an entry. -/
theorem entries_exec {op : ServerOp ω} (hop : ∀ tenant_id key value, op ≠ .put tenant_id key value)
    (i : ι) (choice : χ) (s : ServerState ι τ) {k : UUID × Str} {c : CachedResponse}
    (h : (exec clock backend i choice op s).2.entries k = some c) : s.entries k = some c := by
  cases op with
  | get tenant_id key => exact InMemoryIdempotencyStore.entries_get h
  | put tenant_id key value => exact absurd rfl (hop tenant_id key value)
  | receive | collectBody | send | event | own => exact h

end ServerState
end Hawiya
