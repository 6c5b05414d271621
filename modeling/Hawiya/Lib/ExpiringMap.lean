import Mathlib.Order.Lattice
import Mathlib.Logic.Function.Basic

/-!
# Maps whose entries expire

An entry is stored with the last time at which it is alive. Dropping an entry that is no longer
alive changes nothing that a later lookup can see, which is what justifies expiring lazily.
-/

abbrev ExpiringMap (κ V T : Type) : Type := κ → Option (V × T)

namespace ExpiringMap
variable {κ V T : Type} [LinearOrder T]

def empty : ExpiringMap κ V T := fun _ => none

def lookup (m : ExpiringMap κ V T) (now : T) (k : κ) : Option V :=
  (m k).bind (fun e => if e.2 < now then none else some e.1)

theorem lookup_empty (now : T) (k : κ) : (empty : ExpiringMap κ V T).lookup now k = none := rfl

theorem lookup_eq_some_iff {m : ExpiringMap κ V T} {now : T} {k : κ} {v : V} :
    m.lookup now k = some v ↔ ∃ expires, m k = some (v, expires) ∧ now ≤ expires := by
  unfold lookup
  cases h : m k with
  | none => simp
  | some e =>
    obtain ⟨w, expires⟩ := e
    by_cases hdead : expires < now
    · simp [hdead]
    · have hlive := not_lt.mp hdead
      simp only [Option.bind_some, if_neg hdead, Option.some.injEq, Prod.mk.injEq]
      exact ⟨fun hw => ⟨expires, ⟨hw, rfl⟩, hlive⟩, fun ⟨_, hw, _⟩ => hw.1⟩

/-- An entry that is alive was alive before. -/
theorem lookup_of_le {m : ExpiringMap κ V T} {now now' : T} {k : κ} {v : V} (hle : now ≤ now')
    (h : m.lookup now' k = some v) : m.lookup now k = some v := by
  obtain ⟨expires, hk, hlive⟩ := lookup_eq_some_iff.mp h
  exact lookup_eq_some_iff.mpr ⟨expires, hk, hle.trans hlive⟩

variable [DecidableEq κ]

def store (m : ExpiringMap κ V T) (k : κ) (v : V) (expires : T) : ExpiringMap κ V T :=
  Function.update m k (some (v, expires))

def drop (m : ExpiringMap κ V T) (k : κ) : ExpiringMap κ V T := Function.update m k none

theorem lookup_store_self (m : ExpiringMap κ V T) (k : κ) (v : V) (expires now : T) :
    (m.store k v expires).lookup now k = if expires < now then none else some v := by
  simp [store, lookup]

theorem lookup_store_ne (m : ExpiringMap κ V T) {k k' : κ} (h : k' ≠ k) (v : V) (expires now : T) :
    (m.store k v expires).lookup now k' = m.lookup now k' := by
  simp [store, lookup, h]

/-- Dropping an entry that a lookup misses is not seen by any later lookup. -/
theorem lookup_drop {m : ExpiringMap κ V T} {k : κ} {now now' : T} (hdead : m.lookup now k = none)
    (hle : now ≤ now') (k' : κ) : (m.drop k).lookup now' k' = m.lookup now' k' := by
  by_cases h : k' = k
  · subst h
    have hlater : m.lookup now' k' = none := by
      rw [Option.eq_none_iff_forall_ne_some]
      intro v hv
      rw [lookup_of_le hle hv] at hdead
      cases hdead
    rw [hlater]
    simp [drop, lookup]
  · simp [drop, lookup, h]

end ExpiringMap
