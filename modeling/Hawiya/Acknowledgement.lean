import Hawiya.Application
import Hawiya.ReportedPersons
import Hawiya.Traffic

/-!
# Acknowledged requests

An application that has started a 2xx response has acknowledged the request. What a request can
count on while others take steps, what it does to the server, and what its transaction meets behind
a handler of the middleware if the server refuses nothing once the request is acknowledged.
-/

namespace Hawiya
open PyString Interaction IdempotencyMiddleware Db

variable {ι : Type} [DecidableEq ι]

namespace ServerState
variable {τ : Type}

/-- The application has answered the request with a 2xx status. -/
def Acknowledged (s : ServerState ι τ) (i : ι) : Prop :=
  ∃ status headers, .responseStart status headers ∈ s.sentBy i ∧ cacheable status = true

/-- The application has sent all of this response. -/
def SentWhole (s : ServerState ι τ) (c : CachedResponse) : Prop :=
  ∃ i ms, ms <+: s.sentBy i ∧ Whole ms ∧ .responseStart c.status c.headers ∈ ms ∧
    c = (captured ms).toCached c.body_hash c.expires_at

/-- What the client of request `i` got, the application has sent for that request or for the one
that stored it, or it has no 2xx status. -/
def Justified (s : ServerState ι τ) (i : ι) : Prop :=
  s.outbox i <+: s.sentBy i ∨
    (∃ c, s.SentWhole c ∧ s.outbox i <+: answerMessages c.status c.headers c.body) ∨
      ∀ status headers, .responseStart status headers ∈ s.outbox i → cacheable status = false

/-- Whatever is stored, or was sent with a 2xx status, the application has sent. -/
structure Traced (s : ServerState ι τ) : Prop where
  stored : ∀ k c, s.entries k = some c → s.SentWhole c
  answered : ∀ i, s.Justified i

theorem SentWhole.mono {s s' : ServerState ι τ} {c : CachedResponse} (h : s.SentWhole c)
    (hevents : s.events <+: s'.events) : s'.SentWhole c := by
  obtain ⟨i, ms, hpre, hrest⟩ := h
  exact ⟨i, ms, hpre.trans (sentBy_mono hevents i), hrest⟩

theorem Justified.mono {s s' : ServerState ι τ} {i : ι} (h : s.Justified i)
    (hout : s'.outbox i = s.outbox i) (hevents : s.events <+: s'.events) : s'.Justified i := by
  rw [Justified, hout]
  rcases h with hsent | ⟨c, hc, hpre⟩ | hnone
  · exact .inl (hsent.trans (sentBy_mono hevents i))
  · exact .inr (.inl ⟨c, hc.mono hevents, hpre⟩)
  · exact .inr (.inr hnone)

end ServerState

/-- What the server is asked by a request that was answered with a 2xx status it does not refuse. -/
def TeardownAccepted (i : ι) (outcome : Outcome) (op : ServerOp AppOp)
    (s : ServerState ι (Db ι)) : Prop :=
  s.Acknowledged i → ∀ statement, op = .own (.statement statement) →
    Accepts i outcome statement s.app

/-- What the others do next to request `i`. -/
structure Beside (i : ι) (s s' : ServerState ι (Db ι)) : Prop
    extends ServerState.Elsewhere i s s' where
  db : Interference i s.app s'.app
  traced : s.Traced → s'.Traced

def acknowledging (clock : ℕ → ℚ) (draws : ι → Draws) :
    Discipline ι Outcome (ServerOp AppOp) (ServerOp.Reply AppOp.Reply) PyError
      (ServerState ι (Db ι)) where
  env := ServerState.environment clock (backend draws)
  allowed := TeardownAccepted
  rely := Beside
  running _ := ServerState.Traced

section Requests
variable {clock : ℕ → ℚ} {draws : ι → Draws} {i : ι} {ms : List Message} {α : Type}
variable {I : Db ι → Prop} {E : ServerState ι (Db ι) → Prop}

theorem acknowledging_closed : (acknowledging clock draws).Closed where
  refl i s := ⟨.refl i s, .refl i s.app, id⟩
  trans _ _ _ _ h h' := ⟨h.toElsewhere.trans h'.toElsewhere, h.db.trans h'.db,
    fun hs => h'.traced (h.traced hs)⟩

theorem beside_exec {j : ι} (hji : j ≠ i) (outcome : Outcome) (op : ServerOp AppOp)
    {s : ServerState ι (Db ι)} (hw : ServerState.waits (backend draws) i op s = false)
    (htraced : (ServerState.exec clock (backend draws) i outcome op s).2.Traced) :
    Beside j s (ServerState.exec clock (backend draws) i outcome op s).2 where
  toElsewhere := ServerState.exec_elsewhere clock (backend draws) hji outcome op s
  db := by
    cases op with
    | own op =>
      cases op with
      | draw => exact .refl j s.app
      | statement op => exact exec_interference hji outcome op s.app hw
    | receive | collectBody | send | get | put | event => exact .refl j s.app
  traced _ := htraced

theorem traced_exec {op : ServerOp AppOp} (outcome : Outcome) {s : ServerState ι (Db ι)}
    (hput : ∀ tenant_id key value, op ≠ .put tenant_id key value) (h : s.Traced)
    (hself : (ServerState.exec clock (backend draws) i outcome op s).2.Justified i) :
    (ServerState.exec clock (backend draws) i outcome op s).2.Traced := by
  have hevents := ServerState.events_exec clock (backend draws) i outcome op s
  refine ⟨fun k c hc => ?_, fun j => ?_⟩
  · have hentry := ServerState.entries_exec clock (backend draws) hput i outcome s hc
    exact (h.stored k c hentry).mono hevents
  · by_cases hj : j = i
    · rw [hj]
      exact hself
    · have helsewhere := ServerState.exec_elsewhere clock (backend draws) hj outcome op s
      exact (h.answered j).mono helsewhere.outbox helsewhere.events

/-- One operation of the server, by what it does for the request itself. -/
theorem triple_serverOp {op : ServerOp AppOp} {P : ServerState ι (Db ι) → Prop}
    {Q : op.Reply AppOp.Reply → ServerState ι (Db ι) → Prop}
    (hP : (acknowledging clock draws).Stable i P)
    (hQ : ∀ a, (acknowledging clock draws).Stable i (Q a)) (htraced : ∀ s, P s → s.Traced)
    (h : ∀ s outcome, P s →
      (ServerState.exec clock (backend draws) i outcome op s).2.Traced ∧
        Ends Q (fun _ => False) (ServerState.exec clock (backend draws) i outcome op s).1
          (ServerState.exec clock (backend draws) i outcome op s).2) :
    Triple (acknowledging clock draws) i P (Server.await op) Q (fun _ => False) := by
  refine Triple.perform_guaranteed hP hQ (Discipline.stable_const _) htraced ?_
  intro s outcome hs hw _
  obtain ⟨htraced', hends⟩ := h s outcome hs
  exact ⟨fun j hj => beside_exec hj outcome op hw htraced', hends⟩

/-- The client of the request got `out`, the application has sent `ms` for it, and the database
satisfies `I`. -/
structure Progress (i : ι) (out ms : List Message) (I : Db ι → Prop) (s : ServerState ι (Db ι)) :
    Prop where
  traced : s.Traced
  outbox : s.outbox i = out
  sent : s.sentBy i = ms
  db : I s.app

abbrev At (i : ι) (ms : List Message) : (Db ι → Prop) → ServerState ι (Db ι) → Prop :=
  Progress i ms ms

/-- What the others do to the database leaves `I` as it is. -/
abbrev Undisturbed (i : ι) (I : Db ι → Prop) : Prop := (discipline Pool.Unrestricted).Stable i I

variable {out : List Message}

theorem Progress.of_db {s : ServerState ι (Db ι)} {J : Db ι → Prop} (hs : Progress i out ms I s)
    (hJ : J s.app) : Progress i out ms J s :=
  ⟨hs.traced, hs.outbox, hs.sent, hJ⟩

theorem Progress.statement {s : ServerState ι (Db ι)} (hs : Progress i out ms I s)
    (outcome : Outcome) (op : DbOp) :
    Progress i out ms (fun _ => True)
      (ServerState.exec clock (backend draws) i outcome (.own (.statement op)) s).2 :=
  ⟨traced_exec outcome (by simp) hs.traced ((hs.traced.answered i).mono rfl List.prefix_rfl),
    hs.outbox, hs.sent, trivial⟩

theorem Progress.beside {s s' : ServerState ι (Db ι)} (hI : Undisturbed i I)
    (hs : Progress i out ms I s) (hrely : Beside i s s') : Progress i out ms I s' :=
  ⟨hrely.traced hs.traced, hrely.outbox.trans hs.outbox, hrely.sent.trans hs.sent,
    hI _ _ hrely.db hs.db⟩

theorem stable_progress (hI : Undisturbed i I) :
    (acknowledging clock draws).Stable i (Progress i out ms I) :=
  fun _ _ hrely hs => hs.beside hI hrely

theorem triple_traced {op : ServerOp AppOp} {Q : op.Reply AppOp.Reply → ServerState ι (Db ι) → Prop}
    (hput : ∀ tenant_id key value, op ≠ .put tenant_id key value)
    (hout : ∀ outcome s, (ServerState.exec clock (backend draws) i outcome op s).2.outbox i =
      s.outbox i)
    (hI : Undisturbed i I) (hQ : ∀ a, (acknowledging clock draws).Stable i (Q a))
    (h : ∀ s outcome, Progress i out ms I s →
      (ServerState.exec clock (backend draws) i outcome op s).2.Traced →
        Ends Q (fun _ => False) (ServerState.exec clock (backend draws) i outcome op s).1
          (ServerState.exec clock (backend draws) i outcome op s).2) :
    Triple (acknowledging clock draws) i (Progress i out ms I) (Server.await op) Q
      (fun _ => False) := by
  refine triple_serverOp (stable_progress hI) hQ (fun _ hs => hs.traced) (fun s outcome hs => ?_)
  have htraced : (ServerState.exec clock (backend draws) i outcome op s).2.Traced :=
    traced_exec outcome hput hs.traced ((hs.traced.answered i).mono (hout outcome s)
      (ServerState.events_exec clock (backend draws) i outcome op s))
  exact ⟨htraced, h s outcome hs htraced⟩

theorem triple_receive (hI : Undisturbed i I) :
    Triple (acknowledging clock draws) i (Progress i out ms I) Server.receive
      (fun _ => Progress i out ms I) (fun _ => False) := by
  refine triple_traced (by simp) (fun _ _ => rfl) hI (fun _ => stable_progress hI) ?_
  exact fun s outcome hs htraced => ⟨htraced, hs.outbox, hs.sent, hs.db⟩

theorem triple_collectBody (hI : Undisturbed i I) :
    Triple (acknowledging clock draws) i (Progress i out ms I) Server.collectBody
      (fun _ => Progress i out ms I) (fun _ => False) := by
  refine triple_traced (by simp) (fun _ _ => rfl) hI (fun _ => stable_progress hI) ?_
  exact fun s outcome hs htraced => ⟨htraced, hs.outbox, hs.sent, hs.db⟩

theorem triple_get (hI : Undisturbed i I) (tenant_id : UUID) (key : Str) :
    Triple (acknowledging clock draws) i (Progress i out ms I) (Server.get tenant_id key)
      (fun cached s => Progress i out ms I s ∧ ∀ c ∈ cached, s.SentWhole c) (fun _ => False) := by
  refine triple_traced (by simp) (fun _ _ => rfl) hI (fun cached => ?_) ?_
  · exact (stable_progress hI).and (fun s s' hrely h c hc => (h c hc).mono hrely.events)
  · intro s outcome hs htraced
    exact ⟨⟨htraced, hs.outbox, hs.sent, hs.db⟩,
      fun c hc => hs.traced.stored _ c (ServerState.lookup_entry hc)⟩

theorem triple_event (hI : Undisturbed i I) (e : AppEvent) :
    Triple (acknowledging clock draws) i (Progress i out ms I) (Server.event e)
      (fun _ => Progress i out (ms ++ e.message?.toList) I) (fun _ => False) := by
  refine triple_traced (by simp) (fun _ _ => rfl) hI (fun _ => stable_progress hI) ?_
  intro s outcome hs htraced
  exact ⟨htraced, hs.outbox, (s.sentBy_record_self i e).trans (congrArg (· ++ _) hs.sent), hs.db⟩

theorem triple_send (hI : Undisturbed i I) (m : Message) {J : ServerState ι (Db ι) → Prop}
    (hJ : ∀ s s', s.events <+: s'.events → J s → J s')
    (hm : ∀ s, s.outbox i = out ++ [m] → s.sentBy i = ms → J s → s.Justified i) :
    Triple (acknowledging clock draws) i (fun s => Progress i out ms I s ∧ J s) (Server.send m)
      (fun _ s => Progress i (out ++ [m]) ms I s ∧ J s) (fun _ => False) := by
  have hstable : ∀ out, (acknowledging clock draws).Stable i
      (fun s => Progress i out ms I s ∧ J s) :=
    fun _ => (stable_progress hI).and (fun s s' hrely => hJ s s' hrely.events)
  refine triple_serverOp (hstable _) (fun _ => hstable _) (fun _ hs => hs.1.traced) ?_
  rintro s outcome ⟨hs, hpast⟩
  have hout : (s.deliver i m).outbox i = out ++ [m] :=
    (s.outbox_deliver_self i m).trans (congrArg (· ++ _) hs.outbox)
  have hpast' : J (s.deliver i m) := hJ s _ List.prefix_rfl hpast
  have htraced : (ServerState.exec clock (backend draws) i outcome (.send m) s).2.Traced :=
    traced_exec outcome (by simp) hs.traced (hm _ hout hs.sent hpast')
  exact ⟨htraced, ⟨htraced, hout, hs.sent, hs.db⟩, hpast'⟩

theorem triple_put (hI : Undisturbed i I) (hwhole : Whole ms)
    (hstart : .responseStart (captured ms).status (captured ms).headers ∈ ms) (tenant_id : UUID)
    (key body_hash : Str) (ttl : ℕ) :
    Triple (acknowledging clock draws) i (Progress i out ms I)
      (Server.put tenant_id key (fun now => (captured ms).toCached body_hash (now + ttl)))
      (fun _ => Progress i out ms I) (fun _ => False) := by
  refine triple_serverOp (stable_progress hI) (fun _ => stable_progress hI)
    (fun _ hs => hs.traced) ?_
  intro s outcome hs
  have htraced : (s.afterPut clock tenant_id key
      (fun now => (captured ms).toCached body_hash (now + ttl))).Traced := by
    refine ⟨fun k c hc => ?_, hs.traced.answered⟩
    by_cases hk : k = (tenant_id, key)
    · subst hk
      have hvalue := (Function.update_self (β := fun _ => Option CachedResponse) ..).symm.trans hc
      rw [← Option.some.inj hvalue]
      exact ⟨i, ms, hs.sent ▸ List.prefix_rfl, hwhole, hstart, rfl⟩
    · exact hs.traced.stored k c ((Function.update_of_ne hk _ _).symm.trans hc)
  exact ⟨htraced, htraced, hs.outbox, hs.sent, hs.db⟩

/-- A handler of the application's operations that keeps `Inv` of its state and what was sent. -/
structure Hosts (clock : ℕ → ℚ) (draws : ι → Draws) {S : Type}
    (h : (op : AsgiOp AppOp) → S →
      ServerProgram AppOp AppOp.Reply (op.Reply AppOp.Reply × S))
    (Inv : S → List Message → Prop) : Prop where
  receive : ∀ {i ms} {I : Db ι → Prop} {st}, Undisturbed i I → Inv st ms →
    Triple (acknowledging clock draws) i (At i ms I) (h .receive st)
      (fun r s => Inv r.2 ms ∧ At i ms I s) (fun _ => False)
  send : ∀ {i ms} {I : Db ι → Prop} {st} m, Undisturbed i I → Inv st ms →
    (∃ status headers, .responseStart status headers ∈ ms ++ [m]) →
    Triple (acknowledging clock draws) i (At i ms I) (h (.send m) st)
      (fun r s => Inv r.2 (ms ++ [m]) ∧ At i (ms ++ [m]) I s) (fun _ => False)
  own : ∀ op st, h (.own op) st = (do
    let reply ← Server.own op
    return (reply, st))

theorem triple_sendOn (hI : Undisturbed i I) (m : Message) :
    Triple (acknowledging clock draws) i (Progress i ms (ms ++ [m]) I) (Server.send m)
      (fun _ => At i (ms ++ [m]) I) (fun _ => False) := by
  refine (triple_send hI m (J := fun _ => True) (fun _ _ _ => id) ?_).conseq
    (fun _ hs => ⟨hs, trivial⟩) (fun _ _ hs => hs.1)
  intro s hout hsent _
  left
  rw [hout, hsent]

theorem hosts_passOn : Hosts clock draws (@passOn AppOp AppOp.Reply)
    (fun _ _ => True) where
  receive := by
    intro i ms I st hI _
    refine Triple.bind acknowledging_closed Discipline.stable_false (triple_receive hI)
      (fun _ => ?_)
    exact Triple.pure ((Discipline.stable_const _).and (stable_progress hI))
      (fun _ hs => ⟨trivial, hs⟩)
  send := by
    intro i ms I st m hI _ _
    refine Triple.bind acknowledging_closed Discipline.stable_false (triple_event hI (.sent m))
      (fun _ => ?_)
    refine Triple.bind acknowledging_closed Discipline.stable_false (triple_sendOn hI m)
      (fun _ => ?_)
    exact Triple.pure ((Discipline.stable_const _).and (stable_progress hI))
      (fun _ hs => ⟨trivial, hs⟩)
  own _ _ := rfl

theorem start_mem_captured {ms : List Message}
    (h : ∃ status headers, .responseStart status headers ∈ ms) :
    .responseStart (captured ms).status (captured ms).headers ∈ ms := by
  induction ms using List.reverseRecOn with
  | nil =>
    obtain ⟨status, headers, hmem⟩ := h
    exact absurd hmem List.not_mem_nil
  | append_singleton ms m ih =>
    rw [captured_append]
    obtain ⟨status, headers, hmem⟩ := h
    cases m with
    | responseStart status headers =>
      exact List.mem_append_right _ (List.mem_singleton_self _)
    | _ =>
      have hbefore : .responseStart status headers ∈ ms := by simpa using hmem
      exact List.mem_append_left _ (ih ⟨status, headers, hbefore⟩)

theorem hosts_replayAndCapture (body : Bytes) (f : Fingerprint) (ttl : ℕ) :
    Hosts clock draws (@replayAndCapture AppOp AppOp.Reply body f ttl)
      (fun c ms => c = { captured ms with sent := c.sent }) where
  receive hI hc := Triple.pure ((Discipline.stable_const _).and (stable_progress hI))
    (fun _ hs => ⟨by rw [hc], hs⟩)
  send := by
    intro i ms I c m hI hc hstart
    have hcapture : c.capture m = { captured (ms ++ [m]) with sent := c.sent } := by
      rw [hc, capture_sent, captured_append]
    have hsend : Triple (acknowledging clock draws) i (Progress i ms (ms ++ [m]) I)
        (do Server.send m; return ((), c.capture m))
        (fun r s => r.2 = { captured (ms ++ [m]) with sent := r.2.sent } ∧ At i (ms ++ [m]) I s)
        (fun _ => False) := by
      refine Triple.bind acknowledging_closed Discipline.stable_false (triple_sendOn hI m)
        (fun _ => ?_)
      exact Triple.pure ((Discipline.stable_const _).and (stable_progress hI))
        (fun _ hs => ⟨by rw [hcapture], hs⟩)
    refine Triple.bind acknowledging_closed Discipline.stable_false (triple_event hI (.sent m))
      (fun _ => ?_)
    by_cases hwhole : (c.capture m).completes m
    · have hcompletes : (captured (ms ++ [m])).completes m := by
        rwa [hcapture, completes_sent] at hwhole
      have hvalue : ∀ now, (c.capture m).toCached f.body_hash now =
          (captured (ms ++ [m])).toCached f.body_hash now := by
        intro now
        rw [hcapture]
        rfl
      simp only [hwhole, if_true, hvalue]
      exact Triple.bind acknowledging_closed Discipline.stable_false (triple_put hI
        ⟨m, List.getLast?_concat, hcompletes⟩ (start_mem_captured hstart) f.tenant_id f.key
        f.body_hash ttl) (fun _ => hsend)
    · rw [if_neg hwhole]
      exact hsend
  own _ _ := rfl

section Hosted
variable {S : Type} {Inv : S → List Message → Prop} {allowed : ι → Outcome → DbOp → Db ι → Prop}
variable {h : (op : AsgiOp AppOp) → S → ServerProgram AppOp AppOp.Reply (op.Reply AppOp.Reply × S)}

/-- The handler's state fits what was sent. -/
def Fits (Inv : S → List Message → Prop) (i : ι) (st : S) (s : ServerState ι (Db ι)) : Prop :=
  Inv st (s.sentBy i)

/-- What a transaction meets on its own it meets behind the server, if what the server may do to it
there is allowed. -/
theorem meets_statements (hosts : Hosts clock draws h Inv)
    (hallowed : ∀ outcome op s, s.sentBy i = ms →
      TeardownAccepted i outcome (.own (.statement op)) s → allowed i outcome op s.app)
    {tx : Tx α} {post : Except PyError α → Db ι → Prop} {s : ServerState ι (Db ι)}
    (hs : At i ms (fun _ => True) s) (hmeets : Meets (discipline allowed) i tx post s.app) :
    MeetsThrough (acknowledging clock draws) h (Fits Inv i) i (AppProgram.statements tx)
      (fun r => At i ms (post r)) s := by
  have hany : Undisturbed i (fun _ : Db ι => True) := fun _ _ _ => id
  induction tx generalizing s with
  | pure a =>
    exact fun s' hrely => (hs.beside hany hrely).of_db (hmeets _ hrely.db)
  | throw e =>
    exact fun s' hrely => (hs.beside hany hrely).of_db (hmeets _ hrely.db)
  | call op next ih =>
    intro s₁ hrely st hst
    have hs₁ := hs.beside hany hrely
    rw [hosts.own]
    refine Meets.handle acknowledging_closed (Meets.perform (fun s₂ hrely₂ => ?_))
    have hs₂ := hs₁.beside hany hrely₂
    refine ⟨hs₂.traced, fun hw outcome hok => ?_⟩
    obtain ⟨-, hstep⟩ := hmeets s₂.app (hrely.db.trans hrely₂.db)
    obtain ⟨-, hnext⟩ := hstep hw outcome (hallowed outcome op s₂ hs₂.sent hok)
    have hprogress : At i ms (fun _ => True) (ServerState.exec clock (backend draws) i outcome
        (.own (.statement op)) s₂).2 := hs₂.statement outcome op
    refine ⟨fun j hj => beside_exec hj outcome _ hw hprogress.traced, fun s₃ hrely₃ => ?_⟩
    have hreply : ∀ s₄, Beside i s₃ s₄ → Fits Inv i st s₄ ∧
        MeetsThrough (acknowledging clock draws) h (Fits Inv i) i
          (AppProgram.statements (next (Db.exec i outcome op s₂.app).1)) (fun r => At i ms (post r))
          s₄ := by
      intro s₄ hrely₄
      have hafter : Beside i (ServerState.exec clock (backend draws) i outcome
          (.own (.statement op)) s₂).2 s₄ := acknowledging_closed.trans i _ s₃ s₄ hrely₃ hrely₄
      have hs₄ := hprogress.beside hany hafter
      refine ⟨?_, ih _ hs₄ (hnext.of_rely discipline_closed hafter.db)⟩
      rw [Fits, hs₄.sent, ← hs₁.sent]
      exact hst
    have hexec : ((acknowledging clock draws).env.exec i outcome (.own (.statement op)) s₂).1 =
        (Db.exec i outcome op s₂.app).1 := rfl
    rw [hexec]
    cases hresult : (Db.exec i outcome op s₂.app).1 with
    | ok a =>
      rw [hresult] at hreply
      exact hreply
    | error e =>
      rw [hresult] at hreply
      exact hreply

theorem through_statements (hosts : Hosts clock draws h Inv)
    (hallowed : ∀ outcome op s, s.sentBy i = ms →
      TeardownAccepted i outcome (.own (.statement op)) s → allowed i outcome op s.app)
    {tx : Tx α} {P F : Db ι → Prop} {Q : α → Db ι → Prop}
    (htx : Triple (discipline allowed) i P tx Q F) :
    TripleThrough (acknowledging clock draws) h (Fits Inv i) i (At i ms P)
      (AppProgram.statements tx) (fun a => At i ms (Q a)) (At i ms F) := by
  intro s hs
  refine (meets_statements hosts hallowed (hs.of_db trivial) (htx _ hs.db)).mono
    (fun r s' hs' => ?_)
  cases r with
  | ok a => exact hs'
  | error e => exact hs'

theorem triple_hosted {op : AsgiOp AppOp} {st : S} {ms' : List Message}
    (hop : Inv st ms → Triple (acknowledging clock draws) i (At i ms I) (h op st)
      (fun r s => Inv r.2 ms' ∧ At i ms' I s) (fun _ => False)) :
    Triple (acknowledging clock draws) i (fun s => At i ms I s ∧ Fits Inv i st s) (h op st)
      (fun r s => At i ms' I s ∧ Fits Inv i r.2 s) E := by
  rintro s ⟨hs, hst⟩
  refine (((hop (hs.sent ▸ hst)).conseq (fun _ => id) ?_).weaken_raise
    (fun _ hfalse => hfalse.elim)) s hs
  rintro r s' ⟨hinv, hs'⟩
  refine ⟨hs', ?_⟩
  rw [Fits, hs'.sent]
  exact hinv

theorem through_perform {op : AsgiOp AppOp} {ms' : List Message} (hI : Undisturbed i I)
    (hE : (acknowledging clock draws).Stable i E)
    (hop : ∀ st, Inv st ms → Triple (acknowledging clock draws) i (At i ms I) (h op st)
      (fun r s => Inv r.2 ms' ∧ At i ms' I s) (fun _ => False)) :
    TripleThrough (acknowledging clock draws) h (Fits Inv i) i (At i ms I)
      (AppProgram.await op) (fun _ => At i ms' I) E :=
  TripleThrough.perform (stable_progress hI) (fun _ => stable_progress hI) hE
    (fun st => triple_hosted (hop st))

theorem through_send (hosts : Hosts clock draws h Inv) (hI : Undisturbed i I)
    (hE : (acknowledging clock draws).Stable i E) (m : Message)
    (hstart : ∃ status headers, .responseStart status headers ∈ ms ++ [m]) :
    TripleThrough (acknowledging clock draws) h (Fits Inv i) i (At i ms I) (AppProgram.send m)
      (fun _ => At i (ms ++ [m]) I) E :=
  through_perform hI hE (fun _ hst => hosts.send m hI hst hstart)

theorem through_draw (hosts : Hosts clock draws h Inv) (hI : Undisturbed i I)
    (hE : (acknowledging clock draws).Stable i E) :
    TripleThrough (acknowledging clock draws) h (Fits Inv i) i (At i ms I) AppProgram.draw
      (fun _ => At i ms I) E := by
  refine through_perform hI hE (fun st hst => ?_)
  have hdraw : Triple (acknowledging clock draws) i (At i ms I) (Server.own .draw)
      (fun _ => At i ms I) (fun _ => False) := by
    refine triple_traced (by simp) (fun _ _ => rfl) hI (fun _ => stable_progress hI) ?_
    exact fun s outcome hs htraced => ⟨htraced, hs.outbox, hs.sent, hs.db⟩
  rw [hosts.own]
  exact Triple.bind acknowledging_closed Discipline.stable_false hdraw (fun _ =>
    Triple.pure ((Discipline.stable_const _).and (stable_progress hI)) (fun _ hs => ⟨hst, hs⟩))

theorem through_read (hosts : Hosts clock draws h Inv) (hI : Undisturbed i I) {api : FastAPI}
    (hreads : api.Reads) (scope : Scope) :
    TripleThrough (acknowledging clock draws) h (Fits Inv i) i (At i ms I) (api.read scope)
      (fun _ => At i ms I) (At i ms I) := by
  refine TripleThrough.only (stable_progress hI) ?_ (hreads scope)
  rintro op st rfl
  exact triple_hosted (hosts.receive hI)

end Hosted
end Requests
end Hawiya
