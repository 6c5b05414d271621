import Hawiya.Lib.Handlers
import Hawiya.Lib.Sha256
import Hawiya.Traffic

/-!
# Where a stored response comes from

Every stored response is what the application sent for some request with the entry's tenant, key and
body hash. So whatever a request is sent, the application sent it for that request, or it is such a
response, or the conflict with one; nothing else of the two requests need agree.
-/

namespace Hawiya
open PyString Interaction IdempotencyMiddleware

variable {ι τ χ ω : Type} {Rep : ω → Type} [DecidableEq ι]

namespace ServerState

/-- The application was called for request `i`, and first sent these messages for it, which make up
a 2xx response. -/
structure Produced (s : ServerState ι τ) (i : ι) (scope : Scope) (ms : List Message) : Prop where
  called : (i, .called scope) ∈ s.events
  sent : ms <+: s.sentBy i
  whole : Whole ms

theorem Produced.mono {s s' : ServerState ι τ} {i : ι} {scope : Scope} {ms : List Message}
    (h : s.Produced i scope ms) (hevents : s.events <+: s'.events) : s'.Produced i scope ms where
  called := hevents.subset h.called
  sent := h.sent.trans (sentBy_mono hevents i)
  whole := h.whole

end ServerState

def replayMessages (ms : List Message) : List Message :=
  answerMessages (captured ms).status (captured ms).headers (captured ms).body

namespace Traffic
variable (x : Traffic ι) (sha256 : Bytes → Str)

/-- The entry at `k` is what the application answered a request with that tenant and key. -/
def Origin (s : ServerState ι τ) (k : UUID × Str) (c : CachedResponse) : Prop :=
  ∃ j ms, keyOf (x.scope j) = some k ∧ s.Produced j (x.scope j) ms ∧
    c = (captured ms).toCached (sha256 (x.body j)) c.expires_at

def Stored (s : ServerState ι τ) : Prop :=
  ∀ k c, s.entries k = some c → x.Origin sha256 s k c

/-- Request `i` is answered with what the application sent for request `j`, or with the conflict
between them. -/
structure AnsweredFrom (s : ServerState ι τ) (i j : ι) (k : UUID × Str) (ms : List Message) :
    Prop where
  keyed : keyOf (x.scope i) = some k
  origin : keyOf (x.scope j) = some k
  produced : s.Produced j (x.scope j) ms
  answer : x.body j = x.body i ∧ s.outbox i <+: replayMessages ms ∨
    x.body j ≠ x.body i ∧ s.outbox i <+: conflictMessages k.2

/-- All that request `i` is sent was sent for it, or comes from a request with the same tenant, key
and body that `R` relates to it, or is the conflict with such a request of another body. -/
def Explained (R : Scope → Scope → Prop) (s : ServerState ι τ) (i : ι) : Prop :=
  s.outbox i <+: s.sentBy i ∨
    ∃ j k ms, x.AnsweredFrom s i j k ms ∧ R (x.scope i) (x.scope j)

variable {x sha256}

theorem Origin.mono {s s' : ServerState ι τ} {k : UUID × Str} {c : CachedResponse}
    (h : x.Origin sha256 s k c) (hevents : s.events <+: s'.events) : x.Origin sha256 s' k c := by
  obtain ⟨j, ms, hkey, hproduced, hc⟩ := h
  exact ⟨j, ms, hkey, hproduced.mono hevents, hc⟩

theorem Explained.mono {R : Scope → Scope → Prop} {s s' : ServerState ι τ} {i : ι}
    (h : x.Explained R s i) (hs : ServerState.Elsewhere i s s') : x.Explained R s' i := by
  rcases h with hsent | ⟨j, k, ms, hfrom, hR⟩
  · left
    rw [hs.outbox, hs.sent]
    exact hsent
  · refine .inr ⟨j, k, ms, ⟨hfrom.keyed, hfrom.origin, hfrom.produced.mono hs.events, ?_⟩, hR⟩
    rw [hs.outbox]
    exact hfrom.answer

/-- What the others keep of request `i`: they store only what the application answered. -/
structure Interference (x : Traffic ι) (sha256 : Bytes → Str) (i : ι) (s s' : ServerState ι τ) :
    Prop extends ServerState.Elsewhere i s s' where
  stored : x.Stored sha256 s → x.Stored sha256 s'

theorem stored_of_entries {s s' : ServerState ι τ} (h : x.Stored sha256 s)
    (hentries : ∀ k c, s'.entries k = some c → s.entries k = some c)
    (hevents : s.events <+: s'.events) : x.Stored sha256 s' :=
  fun k c hc => (h k c (hentries k c hc)).mono hevents

variable (x sha256) in
def provenance (clock : ℕ → ℚ) (backend : Environment ι χ ω Rep PyError τ) :
    Discipline ι χ (ServerOp ω) (ServerOp.Reply Rep) PyError (ServerState ι τ) where
  env := ServerState.environment clock backend
  allowed := Pool.Unrestricted
  rely := x.Interference sha256
  running i s := x.Explained (fun _ _ => True) s i

section Rules
variable {clock : ℕ → ℚ} {backend : Environment ι χ ω Rep PyError τ} {i : ι}

theorem provenance_closed : (x.provenance sha256 clock backend).Closed where
  refl i s := ⟨.refl i s, id⟩
  trans _ _ _ _ h h' := ⟨h.toElsewhere.trans h'.toElsewhere, fun hs => h'.stored (h.stored hs)⟩

theorem stable_explained : (x.provenance sha256 clock backend).Stable i
    (fun s => x.Explained (fun _ _ => True) s i) :=
  fun _ _ hrely h => h.mono hrely.toElsewhere

/-- A fact about the past stays. -/
def Past (K : ServerState ι τ → Prop) : Prop :=
  ∀ s s', s.events <+: s'.events → K s → K s'

/-- Request `i` has been sent `out`, the application has sent `sent` for it, what is stored has an
origin, and `K` holds of the past. -/
structure Sofar (x : Traffic ι) (sha256 : Bytes → Str) (i : ι) (out sent : List Message)
    (K : ServerState ι τ → Prop) (s : ServerState ι τ) : Prop where
  outbox : s.outbox i = out
  sent : s.sentBy i = sent
  stored : x.Stored sha256 s
  past : K s

variable {out sent : List Message} {K : ServerState ι τ → Prop}

theorem stable_sofar (hK : Past K) :
    (x.provenance sha256 clock backend).Stable i (x.Sofar sha256 i out sent K) :=
  fun s s' hrely h => ⟨hrely.outbox.trans h.outbox, hrely.sent.trans h.sent,
    hrely.stored h.stored, hK s s' hrely.events h.past⟩

theorem Sofar.explained_of_sent {s : ServerState ι τ} (h : x.Sofar sha256 i out sent K s)
    (hout : out <+: sent) : x.Explained (fun _ _ => True) s i := by
  left
  rw [h.outbox, h.sent]
  exact hout

/-- An operation other than `put`. -/
theorem triple_await {op : ServerOp ω}
    (hop : ∀ tenant_id key value, op ≠ .put tenant_id key value) (hK : Past K)
    (hrunning : ∀ s, x.Sofar sha256 i out sent K s → x.Explained (fun _ _ => True) s i)
    {Q : op.Reply Rep → ServerState ι τ → Prop} {E : ServerState ι τ → Prop}
    (hQ : ∀ a, (x.provenance sha256 clock backend).Stable i (Q a))
    (hE : (x.provenance sha256 clock backend).Stable i E)
    (h : ∀ s choice, x.Sofar sha256 i out sent K s →
      x.Stored sha256 (ServerState.exec clock backend i choice op s).2 →
        Ends Q E (ServerState.exec clock backend i choice op s).1
          (ServerState.exec clock backend i choice op s).2) :
    Triple (x.provenance sha256 clock backend) i (x.Sofar sha256 i out sent K)
      (Server.await op) Q E := by
  refine Triple.perform_guaranteed (stable_sofar hK) hQ hE hrunning ?_
  intro s choice hs _ _
  have hstored : x.Stored sha256 s →
      x.Stored sha256 (ServerState.exec clock backend i choice op s).2 := fun hstored =>
    stored_of_entries hstored
      (fun _ _ hc => ServerState.entries_exec clock backend hop i choice s hc)
      (ServerState.events_exec clock backend i choice op s)
  exact ⟨fun j hj => ⟨ServerState.exec_elsewhere clock backend hj choice op s, hstored⟩,
    h s choice hs (hstored hs.stored)⟩

variable {E : ServerState ι τ → Prop}

theorem triple_send (hE : (x.provenance sha256 clock backend).Stable i E) (hK : Past K)
    (hrunning : ∀ s, x.Sofar sha256 i out sent K s → x.Explained (fun _ _ => True) s i)
    (m : Message) :
    Triple (x.provenance sha256 clock backend) i (x.Sofar sha256 i out sent K) (Server.send m)
      (fun _ => x.Sofar sha256 i (out ++ [m]) sent K) E := by
  refine triple_await (by simp) hK hrunning (fun _ => stable_sofar hK) hE ?_
  intro s choice hs hstored
  refine ⟨?_, hs.sent, hstored, hK s _ List.prefix_rfl hs.past⟩
  exact (ServerState.outbox_deliver_self s i m).trans (congrArg (· ++ [m]) hs.outbox)

theorem triple_event (hE : (x.provenance sha256 clock backend).Stable i E) (hK : Past K)
    (hrunning : ∀ s, x.Sofar sha256 i out sent K s → x.Explained (fun _ _ => True) s i)
    (e : AppEvent) {K' : ServerState ι τ → Prop} (hK' : Past K')
    (hevent : ∀ s, K s → (i, e) ∈ s.events → K' s) :
    Triple (x.provenance sha256 clock backend) i (x.Sofar sha256 i out sent K) (Server.event e)
      (fun _ => x.Sofar sha256 i out (sent ++ e.message?.toList) K') E := by
  refine triple_await (by simp) hK hrunning (fun _ => stable_sofar hK') hE ?_
  intro s choice hs hstored
  refine ⟨hs.outbox, ?_, hstored, hevent _ (hK s _ (List.prefix_append _ _) hs.past) ?_⟩
  · exact (ServerState.sentBy_record_self s i e).trans (congrArg (· ++ _) hs.sent)
  · exact List.mem_append_right _ (List.mem_singleton.mpr rfl)

theorem triple_own (hE : (x.provenance sha256 clock backend).Stable i E) (hK : Past K)
    (hrunning : ∀ s, x.Sofar sha256 i out sent K s → x.Explained (fun _ _ => True) s i) (op : ω)
    (herror : ∀ s, x.Sofar sha256 i out sent K s → E s) :
    Triple (x.provenance sha256 clock backend) i (x.Sofar sha256 i out sent K) (Server.own op)
      (fun _ => x.Sofar sha256 i out sent K) E := by
  refine triple_await (by simp) hK hrunning (fun _ => stable_sofar hK) hE ?_
  intro s choice hs hstored
  have hsofar : x.Sofar sha256 i out sent K
      (ServerState.exec clock backend i choice (.own op) s).2 :=
    ⟨hs.outbox, hs.sent, hstored, hK s _ List.prefix_rfl hs.past⟩
  cases (ServerState.exec clock backend i choice (.own op) s).1 with
  | ok a => exact hsofar
  | error e => exact herror _ hsofar

theorem triple_receive (hE : (x.provenance sha256 clock backend).Stable i E) (hK : Past K)
    (hrunning : ∀ s, x.Sofar sha256 i out sent K s → x.Explained (fun _ _ => True) s i) :
    Triple (x.provenance sha256 clock backend) i (x.Sofar sha256 i out sent K) Server.receive
      (fun _ => x.Sofar sha256 i out sent K) E := by
  refine triple_await (by simp) hK hrunning (fun _ => stable_sofar hK) hE ?_
  intro s choice hs hstored
  exact ⟨hs.outbox, hs.sent, hstored, hK s _ List.prefix_rfl hs.past⟩

theorem triple_get (hE : (x.provenance sha256 clock backend).Stable i E) (hK : Past K)
    (hrunning : ∀ s, x.Sofar sha256 i out sent K s → x.Explained (fun _ _ => True) s i)
    (tenant_id : UUID) (key : Str) :
    Triple (x.provenance sha256 clock backend) i (x.Sofar sha256 i out sent K)
      (Server.get tenant_id key)
      (fun cached => x.Sofar sha256 i out sent (fun s => K s ∧
        ∀ c, cached = some c → x.Origin sha256 s (tenant_id, key) c)) E := by
  have horigin : ∀ cached : Option CachedResponse, Past (fun s : ServerState ι τ => K s ∧
      ∀ c, cached = some c → x.Origin sha256 s (tenant_id, key) c) :=
    fun _ s s' hevents h => ⟨hK s s' hevents h.1, fun c hc => (h.2 c hc).mono hevents⟩
  refine triple_await (by simp) hK hrunning (fun cached => stable_sofar (horigin cached)) hE ?_
  intro s choice hs hstored
  refine ⟨hs.outbox, hs.sent, hstored, hK s _ List.prefix_rfl hs.past, fun c hc => ?_⟩
  exact (hs.stored _ c (ServerState.lookup_entry hc)).mono List.prefix_rfl

/-- What is put is what the application has sent for the request. -/
theorem triple_put (hE : (x.provenance sha256 clock backend).Stable i E) (hK : Past K)
    {tenant_id : UUID} {key : Str} (hkey : keyOf (x.scope i) = some (tenant_id, key))
    (hcalled : ∀ s, K s → (i, .called (x.scope i)) ∈ s.events)
    (hwhole : Whole sent)
    (hrunning : ∀ s, x.Sofar sha256 i out sent K s → x.Explained (fun _ _ => True) s i) (ttl : ℕ) :
    Triple (x.provenance sha256 clock backend) i (x.Sofar sha256 i out sent K)
      (Server.put tenant_id key
        (fun now => (captured sent).toCached (sha256 (x.body i)) (now + ttl)))
      (fun _ => x.Sofar sha256 i out sent K) E := by
  refine Triple.perform_guaranteed (stable_sofar hK) (fun _ => stable_sofar hK) hE hrunning ?_
  intro s choice hs _ _
  have hput : x.Stored sha256 s → x.Stored sha256 (s.afterPut clock tenant_id key
      (fun now => (captured sent).toCached (sha256 (x.body i)) (now + ttl))) := by
    intro hstored k c hc
    by_cases hk : k = (tenant_id, key)
    · subst hk
      have hvalue := (Function.update_self (β := fun _ => Option CachedResponse) ..).symm.trans hc
      refine ⟨i, sent, hkey, ⟨hcalled s hs.past, ?_, hwhole⟩, ?_⟩
      · exact hs.sent ▸ List.prefix_rfl
      · rw [← Option.some.inj hvalue]
        rfl
    · exact (hstored k c ((Function.update_of_ne hk _ _).symm.trans hc)).mono List.prefix_rfl
  exact ⟨fun j hj => ⟨ServerState.exec_elsewhere clock backend hj choice _ s, hput⟩,
    ⟨hs.outbox, hs.sent, hput hs.stored, hK s _ List.prefix_rfl hs.past⟩⟩

variable (x i) in
/-- The application has been called for the request. -/
def Called (s : ServerState ι τ) : Prop := (i, .called (x.scope i)) ∈ s.events

omit [DecidableEq ι] in
theorem past_called : Past (x.Called i : ServerState ι τ → Prop) :=
  fun _ _ hevents h => hevents.subset h

/-- Between two operations of the application: all that it sent has been passed on. -/
def Forwarding (x : Traffic ι) (sha256 : Bytes → Str) (i : ι) (c : Closure)
    (s : ServerState ι τ) : Prop :=
  ∃ ms, x.Sofar sha256 i ms ms (x.Called i) s ∧ c = { captured ms with sent := c.sent }

theorem Forwarding.explained {c : Closure} {s : ServerState ι τ}
    (h : x.Forwarding sha256 i c s) : x.Explained (fun _ _ => True) s i := by
  obtain ⟨ms, hs, -⟩ := h
  exact hs.explained_of_sent List.prefix_rfl

theorem stable_forwarding (c : Closure) :
    (x.provenance sha256 clock backend).Stable i (x.Forwarding sha256 i c) :=
  Discipline.Stable.exists
    (fun _ => (stable_sofar past_called).and (Discipline.stable_const _))

theorem explained_of_sent (hout : out <+: sent) (s : ServerState ι τ)
    (hs : x.Sofar sha256 i out sent K s) : x.Explained (fun _ _ => True) s i :=
  hs.explained_of_sent hout

/-- The capturing `send`: the message is recorded, put if it completes a 2xx response, and passed
on. -/
theorem triple_capturingSend {tenant_id : UUID} {key : Str}
    (hkey : keyOf (x.scope i) = some (tenant_id, key)) (ttl : ℕ) (m : Message) (c : Closure) :
    Triple (x.provenance sha256 clock backend) i (x.Forwarding sha256 i c)
      (replayAndCapture (x.body i) ⟨tenant_id, key, sha256 (x.body i)⟩ ttl (.send m) c)
      (fun r => x.Forwarding sha256 i r.2) (x.Forwarding sha256 i c) := by
  rintro s ⟨ms, hs, hc⟩
  have hE : (x.provenance sha256 clock backend).Stable i (x.Forwarding sha256 i c) :=
    stable_forwarding c
  have hcapture : c.capture m = { captured (ms ++ [m]) with sent := c.sent } := by
    rw [hc, capture_sent, captured_append]
  have hout : ms <+: ms ++ [m] := List.prefix_append _ _
  have hevent : Triple (x.provenance sha256 clock backend) i (x.Sofar sha256 i ms ms (x.Called i))
      (Server.event (.sent m)) (fun _ => x.Sofar sha256 i ms (ms ++ [m]) (x.Called i))
      (x.Forwarding sha256 i c) :=
    triple_event hE past_called (explained_of_sent List.prefix_rfl) (.sent m) past_called
      (fun _ h _ => h)
  have hsend : Triple (x.provenance sha256 clock backend) i
      (x.Sofar sha256 i ms (ms ++ [m]) (x.Called i))
      (do Server.send m; return ((), c.capture m)) (fun r => x.Forwarding sha256 i r.2)
      (x.Forwarding sha256 i c) := by
    refine Triple.bind provenance_closed hE
      (triple_send hE past_called (explained_of_sent hout) m) (fun _ => ?_)
    refine Triple.pure (stable_forwarding _) (fun s hs => ⟨ms ++ [m], hs, ?_⟩)
    rw [hcapture]
  refine Triple.bind provenance_closed hE hevent (fun _ => ?_) s hs
  by_cases hwhole : (c.capture m).completes m
  · have hcompletes : (captured (ms ++ [m])).completes m := by
      rwa [hcapture, completes_sent] at hwhole
    have hvalue : ∀ now, (c.capture m).toCached (sha256 (x.body i)) now =
        (captured (ms ++ [m])).toCached (sha256 (x.body i)) now := by
      intro now
      rw [hcapture]
      rfl
    simp only [hwhole, if_true, hvalue]
    exact Triple.bind provenance_closed hE (triple_put hE past_called hkey (fun _ h => h)
      ⟨m, List.getLast?_concat, hcompletes⟩ (explained_of_sent hout) ttl) (fun _ => hsend)
  · rw [if_neg hwhole]
    exact hsend

theorem triple_replayAndCapture {tenant_id : UUID} {key : Str}
    (hkey : keyOf (x.scope i) = some (tenant_id, key)) (ttl : ℕ) (op : AsgiOp ω) (c : Closure) :
    Triple (x.provenance sha256 clock backend) i (x.Forwarding sha256 i c)
      (replayAndCapture (x.body i) ⟨tenant_id, key, sha256 (x.body i)⟩ ttl op c)
      (fun r => x.Forwarding sha256 i r.2) (x.Forwarding sha256 i c) := by
  cases op with
  | receive =>
    refine Triple.pure (stable_forwarding _) ?_
    rintro s ⟨ms, hs, hc⟩
    exact ⟨ms, hs, by rw [hc]⟩
  | send m => exact triple_capturingSend hkey ttl m c
  | own op =>
    rintro s ⟨ms, hs, hc⟩
    have hown : Triple (x.provenance sha256 clock backend) i (x.Sofar sha256 i ms ms (x.Called i))
        (do let reply ← Server.own op; return (reply, c)) (fun r => x.Forwarding sha256 i r.2)
        (x.Forwarding sha256 i c) :=
      Triple.bind provenance_closed (stable_forwarding c)
        (triple_own (stable_forwarding c) past_called (explained_of_sent List.prefix_rfl) op
          (fun _ hs => ⟨ms, hs, hc⟩))
        (fun _ => Triple.pure (stable_forwarding c) (fun _ hs => ⟨ms, hs, hc⟩))
    exact hown s hs

/-- After the lookup nothing has been sent yet. -/
theorem triple_forward {tenant_id : UUID} {key : Str}
    (hkey : keyOf (x.scope i) = some (tenant_id, key)) (ttl : ℕ) (app : App ω Rep) (hK : Past K) :
    Triple (x.provenance sha256 clock backend) i (x.Sofar sha256 i [] [] K)
      (forward ttl app (x.scope i) (x.body i) ⟨tenant_id, key, sha256 (x.body i)⟩)
      (fun _ s => x.Explained (fun _ _ => True) s i)
      (fun s => x.Explained (fun _ _ => True) s i) := by
  have hcalled : Triple (x.provenance sha256 clock backend) i (x.Sofar sha256 i [] [] K)
      (Server.event (.called (x.scope i))) (fun _ => x.Forwarding sha256 i {})
      (fun s => x.Explained (fun _ _ => True) s i) :=
    (triple_event stable_explained hK (explained_of_sent List.prefix_rfl) _ past_called
      (fun _ _ h => h)).conseq (fun _ => id) (fun _ _ hs => ⟨[], hs, rfl⟩)
  exact Triple.bind provenance_closed stable_explained hcalled (fun _ =>
    Triple.interpret provenance_closed (fun _ => stable_explained) stable_explained
      (triple_replayAndCapture hkey ttl) (fun _ _ _ => Forwarding.explained)
      (fun _ _ => Forwarding.explained) (app (x.scope i)) {})

omit [DecidableEq ι] in
theorem past_true : Past (fun _ : ServerState ι τ => True) := fun _ _ _ h => h

/-- The application on the server's own `receive` and `send`, between two operations. -/
def PassedOn (x : Traffic ι) (sha256 : Bytes → Str) (i : ι) (s : ServerState ι τ) : Prop :=
  ∃ ms, x.Sofar sha256 i ms ms (fun _ => True) s

theorem PassedOn.explained {s : ServerState ι τ} (h : x.PassedOn sha256 i s) :
    x.Explained (fun _ _ => True) s i := by
  obtain ⟨ms, hs⟩ := h
  exact hs.explained_of_sent List.prefix_rfl

theorem stable_passedOn :
    (x.provenance sha256 clock backend).Stable i (x.PassedOn sha256 i) :=
  Discipline.Stable.exists (fun _ => stable_sofar past_true)

theorem triple_passOn (op : AsgiOp ω) :
    Triple (x.provenance sha256 clock backend) i (x.PassedOn sha256 i)
      (passOn op () : ServerProgram ω Rep _) (fun _ => x.PassedOn sha256 i)
      (x.PassedOn sha256 i) := by
  rintro s ⟨ms, hs⟩
  have hE : (x.provenance sha256 clock backend).Stable i (x.PassedOn sha256 i) := stable_passedOn
  have hwithin : ∀ s : ServerState ι τ, x.Sofar sha256 i ms ms (fun _ => True) s →
      x.Explained (fun _ _ => True) s i :=
    explained_of_sent List.prefix_rfl
  cases op with
  | receive =>
    have hreceive : Triple (x.provenance sha256 clock backend) i
        (x.Sofar sha256 i ms ms (fun _ => True)) (do let m ← Server.receive; return (m, ()))
        (fun _ => x.PassedOn sha256 i) (x.PassedOn sha256 i) :=
      Triple.bind provenance_closed hE (triple_receive hE past_true hwithin)
        (fun _ => Triple.pure hE (fun _ hs => ⟨ms, hs⟩))
    exact hreceive s hs
  | send m =>
    have hsend : Triple (x.provenance sha256 clock backend) i
        (x.Sofar sha256 i ms ms (fun _ => True))
        (do Server.event (.sent m); Server.send m; return ((), ())) (fun _ => x.PassedOn sha256 i)
        (x.PassedOn sha256 i) := by
      refine Triple.bind provenance_closed hE
        (triple_event hE past_true hwithin (.sent m) past_true (fun _ h _ => h)) (fun _ => ?_)
      refine Triple.bind provenance_closed hE
        (triple_send hE past_true (explained_of_sent (List.prefix_append _ _)) m) (fun _ => ?_)
      exact Triple.pure hE (fun _ hs => ⟨ms ++ [m], hs⟩)
    exact hsend s hs
  | own op =>
    have hown : Triple (x.provenance sha256 clock backend) i
        (x.Sofar sha256 i ms ms (fun _ => True))
        (do let reply ← Server.own op; return (reply, ())) (fun _ => x.PassedOn sha256 i)
        (x.PassedOn sha256 i) :=
      Triple.bind provenance_closed hE
        (triple_own hE past_true hwithin op (fun _ hs => ⟨ms, hs⟩))
        (fun _ => Triple.pure hE (fun _ hs => ⟨ms, hs⟩))
    exact hown s hs

theorem triple_passThrough (app : App ω Rep) :
    Triple (x.provenance sha256 clock backend) i (x.Sofar sha256 i [] [] (fun _ => True))
      (passThrough app (x.scope i)) (fun _ s => x.Explained (fun _ _ => True) s i)
      (fun s => x.Explained (fun _ _ => True) s i) := by
  have hcalled : Triple (x.provenance sha256 clock backend) i
      (x.Sofar sha256 i [] [] (fun _ => True)) (Server.event (.called (x.scope i)))
      (fun _ => x.PassedOn sha256 i) (fun s => x.Explained (fun _ _ => True) s i) :=
    (triple_event stable_explained past_true (explained_of_sent List.prefix_rfl) _ past_true
      (fun _ h _ => h)).conseq (fun _ => id) (fun _ _ hs => ⟨[], hs⟩)
  exact Triple.bind provenance_closed stable_explained hcalled (fun _ =>
    Triple.interpret (I := fun _ => x.PassedOn sha256 i) provenance_closed
      (fun _ => stable_explained) stable_explained (fun op _ => triple_passOn op)
      (fun _ _ _ => PassedOn.explained) (fun _ _ => PassedOn.explained) (app (x.scope i)) ())

/-- An answer all parts of which the past explains. -/
theorem triple_answer (hK : Past K) (status : ℕ) (headers : Headers) (body : Bytes)
    (hexplained : ∀ s, K s → s.outbox i <+: answerMessages status headers body →
      x.Explained (fun _ _ => True) s i) :
    Triple (x.provenance sha256 clock backend) i (x.Sofar sha256 i [] [] K)
      (answer status headers body) (fun _ s => x.Explained (fun _ _ => True) s i)
      (fun s => x.Explained (fun _ _ => True) s i) := by
  have hpart : ∀ {out : List Message}, out <+: answerMessages status headers body →
      ∀ s, x.Sofar sha256 i out [] K s → x.Explained (fun _ _ => True) s i :=
    fun hout s hs => hexplained s hs.past (by rw [hs.outbox]; exact hout)
  refine Triple.bind provenance_closed stable_explained
    (triple_send stable_explained hK (hpart List.nil_prefix) (.responseStart status headers))
    (fun _ => ?_)
  have hbody : Triple (x.provenance sha256 clock backend) i
      (x.Sofar sha256 i [.responseStart status headers] [] K)
      (Server.send (.responseBody body false))
      (fun _ => x.Sofar sha256 i (answerMessages status headers body) [] K)
      (fun s => x.Explained (fun _ _ => True) s i) :=
    triple_send stable_explained hK (hpart (List.prefix_append [_] [_])) (.responseBody body false)
  exact hbody.conseq (fun _ => id) (fun _ => hpart List.prefix_rfl)

/-- The bodies of the run do not collide. -/
def Distinguishes (x : Traffic ι) (sha256 : Bytes → Str) : Prop :=
  ∀ i j, sha256 (x.body i) = sha256 (x.body j) → x.body i = x.body j

theorem triple_settle (hsha : x.Distinguishes sha256) {tenant_id : UUID} {key : Str}
    (hkey : keyOf (x.scope i) = some (tenant_id, key)) (ttl : ℕ) (app : App ω Rep)
    (cached : Option CachedResponse) :
    Triple (x.provenance sha256 clock backend) i
      (x.Sofar sha256 i [] [] (fun s => ∀ c, cached = some c →
        x.Origin sha256 s (tenant_id, key) c))
      (settle ttl app (x.scope i) (x.body i) ⟨tenant_id, key, sha256 (x.body i)⟩ cached)
      (fun _ s => x.Explained (fun _ _ => True) s i)
      (fun s => x.Explained (fun _ _ => True) s i) := by
  cases cached with
  | none =>
    exact triple_forward hkey ttl app (fun s s' hevents h c hc => (h c hc).mono hevents)
  | some c =>
    rintro s ⟨hout, hsent, hstored, horigin⟩
    obtain ⟨j, ms, horiginKey, hproduced, hc⟩ := horigin c rfl
    have hsofar : x.Sofar sha256 i [] [] (fun s => s.Produced j (x.scope j) ms) s :=
      ⟨hout, hsent, hstored, hproduced⟩
    have hpast : Past (fun s : ServerState ι τ => s.Produced j (x.scope j) ms) :=
      fun _ _ hevents h => h.mono hevents
    have hhash : c.body_hash = sha256 (x.body j) := by
      rw [hc]
      rfl
    by_cases hbody : sha256 (x.body j) = sha256 (x.body i)
    · have hreplay : Triple (x.provenance sha256 clock backend) i
          (x.Sofar sha256 i [] [] (fun s => s.Produced j (x.scope j) ms))
          (answer c.status c.headers c.body) (fun _ s => x.Explained (fun _ _ => True) s i)
          (fun s => x.Explained (fun _ _ => True) s i) := by
        refine triple_answer hpast _ _ _
          (fun s hs hanswer => .inr ⟨j, (tenant_id, key), ms, ?_, trivial⟩)
        refine ⟨hkey, horiginKey, hs, .inl ⟨hsha j i hbody, ?_⟩⟩
        rw [hc] at hanswer
        exact hanswer
      rw [settle_replay ttl app (hhash.trans hbody)]
      exact hreplay s hsofar
    · have hconflict : Triple (x.provenance sha256 clock backend) i
          (x.Sofar sha256 i [] [] (fun s => s.Produced j (x.scope j) ms))
          (answerConflict key) (fun _ s => x.Explained (fun _ _ => True) s i)
          (fun s => x.Explained (fun _ _ => True) s i) := by
        refine triple_answer hpast _ _ _
          (fun s hs hanswer => .inr ⟨j, (tenant_id, key), ms, ?_, trivial⟩)
        exact ⟨hkey, horiginKey, hs, .inr ⟨fun h => hbody (congrArg sha256 h), hanswer⟩⟩
      have hne : c.body_hash ≠ sha256 (x.body i) := by
        rw [hhash]
        exact hbody
      rw [settle_conflict ttl app hne]
      exact hconflict s hsofar

/-- The request has not been read yet. -/
def Unread (x : Traffic ι) (sha256 : Bytes → Str) (i : ι) (s : ServerState ι τ) : Prop :=
  x.Sofar sha256 i [] [] (fun _ => True) s ∧ s.inbox i = x.inbox i

theorem stable_unread : (x.provenance sha256 clock backend).Stable i (x.Unread sha256 i) :=
  fun s s' hrely h => ⟨stable_sofar past_true s s' hrely h.1, hrely.inbox.trans h.2⟩

theorem triple_collectBody (hE : (x.provenance sha256 clock backend).Stable i E) :
    Triple (x.provenance sha256 clock backend) i (x.Unread sha256 i) Server.collectBody
      (fun body => x.Sofar sha256 i [] [] (fun _ => body = x.body i)) E := by
  refine Triple.perform_guaranteed stable_unread
    (fun _ => stable_sofar (fun _ _ _ h => h)) hE
    (fun s hs => hs.1.explained_of_sent List.prefix_rfl) ?_
  rintro s choice ⟨hs, hinbox⟩ _ _
  have hkept : x.Stored sha256 s → x.Stored sha256
      (ServerState.exec clock backend i choice .collectBody s).2 :=
    fun h => stored_of_entries h (fun _ _ hc => hc) List.prefix_rfl
  refine ⟨fun j hj => ⟨ServerState.exec_elsewhere clock backend hj choice _ s, hkept⟩, ?_⟩
  exact ⟨hs.outbox, hs.sent, hkept hs.stored, congrArg (fun ms => (collectBody ms).1) hinbox⟩

theorem triple_call (hsha : x.Distinguishes sha256) (ttl : ℕ) (app : App ω Rep) :
    Triple (x.provenance sha256 clock backend) i (x.Unread sha256 i)
      (call sha256 ttl app (x.scope i)) (fun _ s => x.Explained (fun _ _ => True) s i)
      (fun s => x.Explained (fun _ _ => True) s i) := by
  unfold call
  cases hkey : keyOf (x.scope i) with
  | none => exact (triple_passThrough app).conseq (fun _ hs => hs.1) (fun _ _ => id)
  | some k =>
    obtain ⟨tenant_id, key⟩ := k
    refine Triple.bind provenance_closed stable_explained (triple_collectBody stable_explained)
      (fun body => ?_)
    rintro s hs
    obtain rfl := hs.past
    refine Triple.bind provenance_closed stable_explained (triple_get stable_explained past_true
      (explained_of_sent List.prefix_rfl) tenant_id key) (fun cached => ?_) s
      ⟨hs.outbox, hs.sent, hs.stored, trivial⟩
    exact (triple_settle hsha hkey ttl app cached).conseq
      (fun _ hs => ⟨hs.outbox, hs.sent, hs.stored, hs.past.2⟩) (fun _ _ => id)

end Rules

/-- However requests are interleaved, all that one is sent was sent for it by the application, or is
what the application answered, with a 2xx status, to a request with the same tenant, key and body,
or is the conflict with such a request of another body. -/
theorem answers_have_an_origin (clock : ℕ → ℚ) (backend : Environment ι χ ω Rep PyError τ)
    (sha256 : Bytes → Str) (ttl : ℕ) (app : App ω Rep) (x : Traffic ι)
    (hsha : x.Distinguishes sha256) (t : τ)
    (q : Pool ι (ServerState ι τ) (ServerOp ω) (ServerOp.Reply Rep) PyError Unit)
    (hrun : Pool.Run (ServerState.environment clock backend) Pool.Unrestricted
      (x.pool sha256 ttl app t) q) (i : ι) :
    x.Explained (fun _ _ => True) q.shared i := by
  have hstart : ∀ i, x.Unread sha256 i (ServerState.start x.inbox t) := fun i =>
    ⟨⟨rfl, rfl, fun k c h => (Option.some_ne_none c h.symm).elim, trivial⟩, rfl⟩
  rcases Triple.run (D := x.provenance sha256 clock backend) provenance_closed
    (fun i => triple_call hsha ttl app) hstart hrun i with ⟨_, _, h⟩ | ⟨_, _, h⟩ | ⟨h, _⟩
  · exact h
  · exact h
  · exact h

end Traffic

namespace Specimen

/-- One key on two endpoints, with one body. -/
def crossed : Traffic Bool where
  scope first := post (if first then "/v1/documents/extract" else "/v1/identity/resolve")
  inbox _ := [.request [1] false]

def crossedPool : Pool Bool (ServerState Bool ℕ) (ServerOp Unit) (ServerOp.Reply fun _ => ℕ) PyError
    Unit :=
  crossed.pool Sha256.hexdigest 7200 echo 0

/-- The resolve request comes when the extract request has been answered, and gets its answer. -/
theorem crossed_run : ∃ q, Pool.Run (ServerState.environment clock counter) Pool.Unrestricted
    crossedPool q ∧ ¬ q.shared.outbox false <+: q.shared.sentBy false ∧
      ∀ e, (false, e) ∉ q.shared.events := by
  have hends : (Pool.runSchedule (ServerState.environment clock counter)
      (List.replicate 11 (true, ()) ++ List.replicate 4 (false, ())) crossedPool).map
        (fun q => (q.shared.outbox false, q.shared.sentBy false, q.shared.events.map Prod.fst)) =
      some (answerMessages 200 [] [1, 48], [], List.replicate 4 true) := by
    decide +kernel
  obtain ⟨q, hq, hends⟩ := Option.map_eq_some_iff.mp hends
  simp only [Prod.mk.injEq] at hends
  obtain ⟨houtbox, hsent, hevents⟩ := hends
  refine ⟨q, Pool.run_of_runSchedule hq, ?_, fun e he => ?_⟩
  · rw [houtbox, hsent, List.prefix_nil]
    exact List.cons_ne_nil _ _
  · have hmem := List.mem_map_of_mem (f := Prod.fst) he
    rw [hevents] at hmem
    cases List.eq_of_mem_replicate hmem

end Specimen

namespace Traffic
open Specimen

theorem resolve_answered_from_extract : ∃ q,
    Pool.Run (ServerState.environment clock counter) Pool.Unrestricted crossedPool q ∧
      ∃ j k ms, crossed.AnsweredFrom q.shared false j k ms := by
  obtain ⟨q, hrun, hsent, -⟩ := crossed_run
  obtain ⟨j, k, ms, hfrom, -⟩ := (answers_have_an_origin clock counter Sha256.hexdigest 7200 echo
    crossed (fun _ _ _ => rfl) 0 q hrun false).resolve_left hsent
  exact ⟨q, hrun, j, k, ms, hfrom⟩

/-- The answer is one that the application gave on another path. -/
theorem answer_from_another_path : ∃ q,
    Pool.Run (ServerState.environment clock counter) Pool.Unrestricted crossedPool q ∧
      ¬ crossed.Explained (fun scope origin => scope.path = origin.path) q.shared false := by
  obtain ⟨q, hrun, hsent, hevents⟩ := crossed_run
  refine ⟨q, hrun, fun hexplained => ?_⟩
  obtain ⟨j, k, ms, hfrom, hpath⟩ := hexplained.resolve_left hsent
  cases j with
  | true => exact absurd hpath (by decide)
  | false => exact hevents _ hfrom.produced.called

end Traffic
end Hawiya
