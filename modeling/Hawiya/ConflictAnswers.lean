import Hawiya.IdempotencyMap
import Hawiya.Lib.Json
import Hawiya.Tenancy

/-!
# Answers to reused keys

The refusal of a key that came with another body is put together from bytes, with the key where the
trace id stands. It is the error envelope of the request exactly if the key, between quotes, is a
JSON string for the request id.
-/

namespace Hawiya
open PyString Interaction Json IdempotencyMiddleware

theorem utf8Encode_append (s t : Str) : utf8Encode (s ++ t) = utf8Encode s ++ utf8Encode t :=
  List.flatMap_append

theorem utf8Encode_injective : Function.Injective utf8Encode := by
  intro s t h
  have hdecode : ∀ s : Str, (utf8Encode s).toByteArray.utf8Decode? = some s.toArray :=
    fun s => List.utf8Decode?_utf8Encode
  have hs := hdecode s
  rw [h, hdecode t] at hs
  simpa using hs.symm

/-- The error envelope of the API. -/
def envelope (code message : List ℕ) (details : Value) (trace_id : List ℕ) : Value :=
  .object [(codes "error".toList, .object [
    (codes "code".toList, .string code),
    (codes "message".toList, .string message),
    (codes "details".toList, details),
    (codes "trace_id".toList, .string trace_id)])]

/-- The messages are one response whose length is declared and whose body is the envelope of an
error of this request. -/
def IsErrorOf (request_id : Str) (messages : List Message) : Prop :=
  ∃ status headers body, messages = answerMessages status headers body ∧
    headerLookup headers (bytes "content-length") = some (utf8Encode (natStr body.length)) ∧
    ∃ text code message details, utf8Encode text = body ∧
      Denotes text (envelope code message details (codes request_id))

def conflictCode : Str := "IDEMPOTENCY_KEY_CONFLICT".toList

def conflictMessage : Str :=
  "Idempotency-Key was previously used with a different request body.".toList

/-- The text of the refusal, up to the key. -/
def conflictText (rest : Str) : Str :=
  '\x7b' :: '"' :: ("error".toList ++ '"' :: ':' ::
    '\x7b' :: '"' :: ("code".toList ++ '"' :: ':' :: '"' :: (conflictCode ++ '"' :: ',' ::
      '"' :: ("message".toList ++ '"' :: ':' :: '"' :: (conflictMessage ++ '"' :: ',' ::
        '"' :: ("details".toList ++ '"' :: ':' :: '\x7b' :: '\x7d' :: ',' ::
          '"' :: ("trace_id".toList ++ '"' :: ':' :: '"' :: rest)))))))

theorem conflictResponse_body (key : Str) :
    (conflictResponse key).2.2 = utf8Encode (conflictText (key ++ ['"', '\x7d', '\x7d'])) := by
  have hclosed : ∀ rest, conflictText rest = conflictText [] ++ rest := by
    intro rest
    simp [conflictText]
  rw [hclosed, utf8Encode_append, utf8Encode_append, ← List.append_assoc]
  unfold conflictResponse
  refine congrArg₂ (· ++ ·) (congrArg (· ++ utf8Encode key) ?_) ?_
  · decide +kernel
  · decide +kernel

/-- A string that ends at the quote after the key, and nothing but the two braces after it: the rest
of a string that ends earlier holds that quote. -/
theorem closes_iff {key : Str} {us : List ℕ} :
    (∃ s s' r, string (key ++ ['"', '\x7d', '\x7d']) = some (us, s) ∧ skip s = '\x7d' :: s' ∧
      skip s' = '\x7d' :: r ∧ skip r = []) ↔ Spells key us := by
  have hclose : ∀ t, skip ('\x7d' :: t) = '\x7d' :: t := skip_of_not_space (by decide)
  constructor
  · rintro ⟨s, s', r, hstring, hinner, houter, hend⟩
    rcases string_cases (t := ['\x7d', '\x7d']) (by decide) hstring with ⟨-, hspells⟩ | hquote
    · exact hspells
    · have hstep : ∀ {a b : Str}, '"' ∈ a → skip a = '\x7d' :: b → '"' ∈ b := by
        intro a b ha hab
        have hmem := mem_skip (c := '"') (by decide) ha
        rw [hab] at hmem
        exact (List.mem_cons.mp hmem).resolve_left (by decide)
      have hrest := mem_skip (c := '"') (by decide) (hstep (hstep hquote hinner) houter)
      rw [hend] at hrest
      exact absurd hrest List.not_mem_nil
  · intro h
    exact ⟨_, _, _, h.string_append ['\x7d', '\x7d'], hclose _, hclose _, rfl⟩

/-- The refusal is an envelope exactly if the key spells its trace id. -/
theorem denotes_conflict_iff {key : Str} {code message us : List ℕ} {details : Value} :
    Denotes (conflictText (key ++ ['"', '\x7d', '\x7d'])) (envelope code message details us) ↔
      code = codes conflictCode ∧ message = codes conflictMessage ∧ details = .object [] ∧
        Spells key us := by
  have hbrace : ∀ t, skip ('\x7b' :: t) = '\x7b' :: t := skip_of_not_space (by decide)
  have hquote : ∀ t, skip ('"' :: t) = '"' :: t := skip_of_not_space (by decide)
  have herror : ∀ c ∈ "error".toList, IsPlain c := forall_of_all rfl
  have hcode : ∀ c ∈ "code".toList, IsPlain c := forall_of_all rfl
  have hconflict : ∀ c ∈ conflictCode, IsPlain c := forall_of_all rfl
  have hmessage : ∀ c ∈ "message".toList, IsPlain c := forall_of_all rfl
  have htext : ∀ c ∈ conflictMessage, IsPlain c := forall_of_all rfl
  have hdetails : ∀ c ∈ "details".toList, IsPlain c := forall_of_all rfl
  have htrace : ∀ c ∈ "trace_id".toList, IsPlain c := forall_of_all rfl
  rw [← closes_iff]
  unfold Denotes conflictText envelope
  simp only [hbrace, reads_members_iff, readsMembers_last_iff herror,
    readsMembers_string_iff hcode hconflict, readsMembers_string_iff hmessage htext,
    readsMembers_emptyObject_iff hdetails, readsMembers_last_iff htrace, hquote, reads_string_iff,
    Value.string.injEq, true_and]
  constructor
  · rintro ⟨r, ⟨s', ⟨rfl, rfl, rfl, s, ⟨us', hstring, rfl⟩, hinner⟩, houter⟩, hend⟩
    exact ⟨rfl, rfl, rfl, s, s', r, hstring, hinner, houter, hend⟩
  · rintro ⟨rfl, rfl, rfl, s, s', r, hstring, hinner, houter, hend⟩
    exact ⟨r, ⟨s', ⟨rfl, rfl, rfl, s, ⟨us, hstring, rfl⟩, hinner⟩, houter⟩, hend⟩

theorem isErrorOf_conflictMessages_iff {request_id key : Str} :
    IsErrorOf request_id (conflictMessages key) ↔ Spells key (codes request_id) := by
  unfold IsErrorOf conflictMessages
  constructor
  · rintro ⟨status, headers, body, hmessages, -, text, code, message, details, htext, hdenotes⟩
    have hbody : (conflictResponse key).2.2 = body := by
      have hlast := congrArg List.getLast? hmessages
      simpa [answerMessages] using hlast
    rw [← hbody, conflictResponse_body] at htext
    rw [utf8Encode_injective htext] at hdenotes
    exact (denotes_conflict_iff.mp hdenotes).2.2.2
  · intro h
    refine ⟨_, _, _, rfl, ?_, _, codes conflictCode, codes conflictMessage, .object [],
      (conflictResponse_body key).symm, denotes_conflict_iff.mpr ⟨rfl, rfl, rfl, h⟩⟩
    have hname : lowerBytes (bytes "content-type") ≠ bytes "content-length" := by decide +kernel
    have hsame : lowerBytes (bytes "content-length") = bytes "content-length" := by decide +kernel
    unfold headerLookup conflictResponse
    rw [List.find?_cons_of_neg (by simpa using hname), List.find?_cons_of_pos (by simpa using hsame)]
    rfl

/-- A POST refused for its key is answered with the error envelope of its request exactly if the key
spells the request id between quotes. -/
theorem conflict_names_request_iff {τ ω : Type} {Rep : ω → Type} (clock : ℕ → ℚ)
    (backend : Environment Unit Unit ω Rep PyError τ) (sha256 : Bytes → Str) (ttl : ℕ)
    (app : App ω Rep) {req : KeyedRequest} {s : ServerState Unit τ} {cached : CachedResponse}
    (h : s.lookup clock req.tenant_id req.key = some cached)
    (hbody : cached.body_hash ≠ sha256 req.body) (fresh : Str) :
    IsErrorOf (TenancyMiddleware.requestId fresh req.scope.headers)
        ((serve clock backend sha256 ttl app req s).2.outbox ()) ↔
      Spells req.key (codes (TenancyMiddleware.requestId fresh req.scope.headers)) := by
  rw [(serve_conflict clock backend sha256 ttl app h hbody).answer]
  exact isErrorOf_conflictMessages_iff

namespace Specimen

/-- A keyed POST that names its request. -/
def traced (key request_id : String) : Scope where
  type := .http
  method := ['P', 'O', 'S', 'T']
  path := "/v1/persons".toList
  url_path := "/v1/persons".toList
  headers := [(bytes "x-tenant-id", bytes "00000000-0000-0000-0000-000000000001"),
    (bytes "idempotency-key", bytes key), (bytes "x-request-id", bytes request_id)]

def sameId : KeyedRequest where
  scope := traced "r-1" "r-1"
  tenant_id := 1
  key := "r-1".toList
  delivery := ⟨[], [1]⟩
  keyed := by decide +kernel

def otherId : KeyedRequest where
  scope := traced "k" "r-1"
  tenant_id := 1
  key := "k".toList
  delivery := ⟨[], [1]⟩
  keyed := by decide +kernel

def quoted : KeyedRequest where
  scope := traced "a\"b" "a\"b"
  tenant_id := 1
  key := "a\"b".toList
  delivery := ⟨[], [1]⟩
  keyed := by decide +kernel

def earlier : CachedResponse where
  status := 201
  headers := []
  body := []
  body_hash := Sha256.hexdigest [2]
  expires_at := 7200

/-- The key has been used with another body. -/
def usedKeys : ServerState Unit ℕ :=
  { ServerState.start (fun _ => []) 0 with entries := fun _ => some earlier }

theorem lookup_usedKeys (tenant_id : UUID) (key : Str) :
    usedKeys.lookup clock tenant_id key = some earlier := by
  have hlive : ¬ earlier.expires_at < clock usedKeys.ticks := by decide +kernel
  rw [lookup_eq_filter]
  exact Option.filter_some_pos (by simpa using hlive)

end Specimen

open Specimen

theorem conflict_names_request_specimen :
    IsErrorOf "r-1".toList ((serve clock counter Sha256.hexdigest 7200 echo sameId
      usedKeys).2.outbox ()) := by
  have hid : TenancyMiddleware.requestId [] sameId.scope.headers = "r-1".toList := by
    decide +kernel
  have hspells : Spells sameId.key (codes "r-1".toList) := spells_plain (forall_of_all rfl)
  have h := conflict_names_request_iff clock counter Sha256.hexdigest 7200 echo
    (lookup_usedKeys sameId.tenant_id sameId.key) hexdigest_ne.symm []
  rw [hid] at h
  exact h.mpr hspells

/-- Refusals that do not name their request: the trace id is the key `k` of request `r-1`, and with
a quote in the key, even one that is the request id, the body is not the envelope. -/
theorem key_is_not_request_id :
    (¬ IsErrorOf (TenancyMiddleware.requestId [] otherId.scope.headers)
      ((serve clock counter Sha256.hexdigest 7200 echo otherId usedKeys).2.outbox ())) ∧
    ¬ IsErrorOf (TenancyMiddleware.requestId [] quoted.scope.headers)
      ((serve clock counter Sha256.hexdigest 7200 echo quoted usedKeys).2.outbox ()) := by
  have hother := serve_conflict clock counter Sha256.hexdigest 7200 echo
    (lookup_usedKeys otherId.tenant_id otherId.key) hexdigest_ne.symm
  have hquoted := serve_conflict clock counter Sha256.hexdigest 7200 echo
    (lookup_usedKeys quoted.tenant_id quoted.key) hexdigest_ne.symm
  rw [hother.answer, hquoted.answer, isErrorOf_conflictMessages_iff, isErrorOf_conflictMessages_iff]
  constructor
  · decide +kernel
  · decide +kernel

end Hawiya
