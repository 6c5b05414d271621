import Hawiya.Lib.PyBytes

/-!
# JSON texts

Which text stands for which value. A string is read by a machine over its characters, since an
escape reaches from one character to the next; values are read by a grammar in which every rule
leaves the rest of the text. A string is the list of its code points. Members of an object keep
their order and are not merged, so an object with a repeated name differs from one without.
-/

namespace Json
open PyString

inductive Value where
  | null
  | bool (b : Bool)
  | number (literal : Str)
  | string (codes : List ℕ)
  | array (items : List Value)
  | object (members : List (List ℕ × Value))

def codes (s : Str) : List ℕ := s.map Char.toNat

/-- What has been read of an escape; `hex n` waits for `n + 1` digits. -/
inductive Escape where
  | none
  | backslash
  | hex (n acc : ℕ)
  deriving DecidableEq

def simpleEscapes : List (Char × ℕ) :=
  [('"', 0x22), ('\\', 0x5c), ('/', 0x2f), ('b', 8), ('f', 12), ('n', 10), ('r', 13), ('t', 9)]

def hexDigit? (c : Char) : Option ℕ :=
  if '0' ≤ c ∧ c ≤ '9' then some (c.toNat - 48)
  else if 'a' ≤ c ∧ c ≤ 'f' then some (c.toNat - 87)
  else if 'A' ≤ c ∧ c ≤ 'F' then some (c.toNat - 55)
  else none

def IsPlain (c : Char) : Prop := c ≠ '"' ∧ c ≠ '\\' ∧ 0x20 ≤ c.toNat

instance (c : Char) : Decidable (IsPlain c) := inferInstanceAs (Decidable (_ ∧ _ ∧ _))

/-- One character inside a string: where the machine is then, and the code unit it has read. -/
def advance : Escape → Char → Option (Escape × Option ℕ)
  | .none, c =>
      if c = '\\' then some (.backslash, none)
      else if IsPlain c then some (.none, some c.toNat) else none
  | .backslash, c =>
      if c = 'u' then some (.hex 3 0, none)
      else (simpleEscapes.lookup c).map (fun u => (.none, some u))
  | .hex n acc, c => (hexDigit? c).map (fun d =>
      match n with
      | 0 => (.none, some (acc * 16 + d))
      | n + 1 => (.hex n (acc * 16 + d), none))

/-- The code units of a string, and what follows its closing quote. -/
@[grind =] def scan : Escape → Str → Option (List ℕ × Str)
  | _, [] => none
  | e, c :: s =>
      if e = .none ∧ c = '"' then some ([], s)
      else (advance e c).bind (fun next =>
        (scan next.1 s).map (fun read => (next.2.toList ++ read.1, read.2)))

def IsHigh (u : ℕ) : Prop := 0xd800 ≤ u ∧ u ≤ 0xdbff

def IsLow (u : ℕ) : Prop := 0xdc00 ≤ u ∧ u ≤ 0xdfff

instance (u : ℕ) : Decidable (IsHigh u) := inferInstanceAs (Decidable (_ ∧ _))

instance (u : ℕ) : Decidable (IsLow u) := inferInstanceAs (Decidable (_ ∧ _))

/-- A high surrogate and a low one are one code point. -/
def joinSurrogates : List ℕ → List ℕ
  | hi :: lo :: us =>
      if IsHigh hi ∧ IsLow lo then
        (0x10000 + (hi - 0xd800) * 0x400 + (lo - 0xdc00)) :: joinSurrogates us
      else hi :: joinSurrogates (lo :: us)
  | us => us

def string (s : Str) : Option (List ℕ × Str) :=
  (scan .none s).map (fun read => (joinSurrogates read.1, read.2))

/-- The text between the quotes of a string that stands for these code points. -/
def Spells (inner : Str) (us : List ℕ) : Prop := string (inner ++ ['"']) = some (us, [])

instance (inner : Str) (us : List ℕ) : Decidable (Spells inner us) :=
  inferInstanceAs (Decidable (_ = _))

example : Spells "caf\\u00e9 \\ud83d\\ude00".toList [99, 97, 102, 0xe9, 32, 0x1f600] := by
  decide +kernel

theorem scan_of_no_quote {s : Str} (h : '"' ∉ s) (e : Escape) : scan e s = none := by
  induction s generalizing e with
  | nil => rfl
  | cons c s ih =>
    rw [scan]
    have hc : ¬ (e = .none ∧ c = '"') := fun hquote => h (hquote.2 ▸ List.mem_cons_self)
    rw [if_neg hc]
    cases advance e c with
    | none => rfl
    | some next => rw [Option.bind_some, ih (fun hmem => h (List.mem_cons_of_mem c hmem))]; rfl

theorem scan_append {inner : Str} {e : Escape} {us : List ℕ}
    (h : scan e (inner ++ ['"']) = some (us, [])) (t : Str) :
    scan e (inner ++ '"' :: t) = some (us, t) := by
  induction inner generalizing e us with
  | nil =>
    rw [List.nil_append, scan] at h ⊢
    split_ifs at h ⊢
    · cases h
      rfl
    · obtain ⟨next, -, hrest⟩ := Option.bind_eq_some_iff.mp h
      cases hrest
  | cons c inner ih =>
    rw [List.cons_append, scan] at h ⊢
    split_ifs at h ⊢
    · exact absurd (congrArg Prod.snd (Option.some.inj h)) (by simp)
    · obtain ⟨next, hnext, hrest⟩ := Option.bind_eq_some_iff.mp h
      obtain ⟨read, hread, heq⟩ := Option.map_eq_some_iff.mp hrest
      obtain ⟨rfl, hnil⟩ := Prod.mk.inj heq
      obtain ⟨us', r⟩ := read
      subst hnil
      rw [hnext, Option.bind_some, ih hread]
      rfl

theorem scan_cases {t : Str} (ht : '"' ∉ t) {inner : Str} {e : Escape} {us : List ℕ} {r : Str}
    (h : scan e (inner ++ '"' :: t) = some (us, r)) :
    (r = t ∧ scan e (inner ++ ['"']) = some (us, [])) ∨ '"' ∈ r := by
  induction inner generalizing e us with
  | nil =>
    rw [List.nil_append, scan] at h ⊢
    split_ifs at h ⊢ with hquote
    · cases h
      exact .inl ⟨rfl, rfl⟩
    · obtain ⟨next, -, hrest⟩ := Option.bind_eq_some_iff.mp h
      rw [scan_of_no_quote ht] at hrest
      cases hrest
  | cons c inner ih =>
    rw [List.cons_append, scan] at h ⊢
    split_ifs at h ⊢ with hquote
    · cases h
      exact .inr (by simp)
    · obtain ⟨next, hnext, hrest⟩ := Option.bind_eq_some_iff.mp h
      obtain ⟨read, hread, heq⟩ := Option.map_eq_some_iff.mp hrest
      obtain ⟨rfl, rfl⟩ := Prod.mk.inj heq
      rcases ih hread with ⟨hr, hscan⟩ | hmem
      · refine .inl ⟨hr, ?_⟩
        rw [hnext, Option.bind_some, hscan]
        rfl
      · exact .inr hmem

theorem scan_plain {inner : Str} (h : ∀ c ∈ inner, IsPlain c) (t : Str) :
    scan .none (inner ++ '"' :: t) = some (codes inner, t) := by
  induction inner with
  | nil => rfl
  | cons c inner ih =>
    have hc := h c List.mem_cons_self
    rw [List.cons_append, scan, if_neg (fun hquote => hc.1 hquote.2), advance, if_neg hc.2.1,
      if_pos hc, Option.bind_some, ih (fun d hd => h d (List.mem_cons_of_mem c hd))]
    rfl

theorem joinSurrogates_codes (s : Str) : joinSurrogates (codes s) = codes s := by
  induction s with
  | nil => rfl
  | cons c s ih =>
    cases s with
    | nil => rfl
    | cons d s =>
      have hc : ¬ IsHigh c.toNat := by
        rintro ⟨hlow, hhigh⟩
        rcases c.valid with h | h
        · exact absurd (show c.toNat < 0xd800 from h) (by omega)
        · exact absurd (show 0xdfff < c.toNat from h.1) (by omega)
      have hpair : ¬ (IsHigh c.toNat ∧ IsLow d.toNat) := fun h => hc h.1
      have hjoin : joinSurrogates (codes (c :: d :: s)) =
          c.toNat :: joinSurrogates (codes (d :: s)) := if_neg hpair
      rw [hjoin, ih]
      rfl

theorem string_plain {inner : Str} (h : ∀ c ∈ inner, IsPlain c) (t : Str) :
    string (inner ++ '"' :: t) = some (codes inner, t) := by
  rw [string, scan_plain h, Option.map_some, joinSurrogates_codes]

/-- A text without quotes, backslashes and control characters spells itself. -/
theorem spells_plain {inner : Str} (h : ∀ c ∈ inner, IsPlain c) : Spells inner (codes inner) :=
  string_plain h []

theorem Spells.string_append {inner : Str} {us : List ℕ} (h : Spells inner us) (t : Str) :
    string (inner ++ '"' :: t) = some (us, t) := by
  obtain ⟨read, hread, heq⟩ := Option.map_eq_some_iff.mp h
  obtain ⟨units, r⟩ := read
  obtain ⟨rfl, rfl⟩ := Prod.mk.inj heq
  rw [string, scan_append hread]
  rfl

theorem string_cases {t : Str} (ht : '"' ∉ t) {inner : Str} {us : List ℕ} {r : Str}
    (h : string (inner ++ '"' :: t) = some (us, r)) : (r = t ∧ Spells inner us) ∨ '"' ∈ r := by
  obtain ⟨read, hread, heq⟩ := Option.map_eq_some_iff.mp h
  obtain ⟨units, r'⟩ := read
  obtain ⟨rfl, rfl⟩ := Prod.mk.inj heq
  rcases scan_cases ht hread with ⟨hr, hscan⟩ | hmem
  · refine .inl ⟨hr, ?_⟩
    rw [Spells, string, hscan]
    rfl
  · exact .inr hmem

def IsDigit (c : Char) : Prop := '0' ≤ c ∧ c ≤ '9'

instance (c : Char) : Decidable (IsDigit c) := inferInstanceAs (Decidable (_ ∧ _))

def digits (s : Str) : Option (Str × Str) :=
  let run := s.takeWhile (fun c => IsDigit c)
  if run = [] then none else some (run, s.drop run.length)

/-- An integer part has no leading zero. -/
def integer : Str → Option (Str × Str)
  | '0' :: s => some (['0'], s)
  | s => digits s

def signed (part : Str → Option (Str × Str)) : Str → Option (Str × Str)
  | '-' :: s => (part s).map (fun read => ('-' :: read.1, read.2))
  | s => part s

/-- `part`, if `s` begins with one of `marks`. -/
def marked (marks : Str) (part : Str → Option (Str × Str)) (s : Str) : Option (Str × Str) :=
  match s with
  | [] => some ([], [])
  | c :: s =>
      if c ∈ marks then (part s).map (fun read => (c :: read.1, read.2)) else some ([], c :: s)

def exponent : Str → Option (Str × Str)
  | '+' :: s => (digits s).map (fun read => ('+' :: read.1, read.2))
  | s => signed digits s

def number (s : Str) : Option (Str × Str) :=
  (signed integer s).bind (fun whole =>
    (marked ['.'] digits whole.2).bind (fun fraction =>
      (marked ['e', 'E'] exponent fraction.2).map (fun power =>
        (whole.1 ++ fraction.1 ++ power.1, power.2))))

example : number "-12.50e+3,".toList = some ("-12.50e+3".toList, [',']) := by decide +kernel

def skip (s : Str) : Str := s.dropWhile (fun c => c ∈ [' ', '\t', '\n', '\r'])

mutual

/-- A value at the beginning of a text, and the rest of it. -/
inductive Reads : Value → Str → Str → Prop
  | null (r : Str) : Reads .null ('n' :: 'u' :: 'l' :: 'l' :: r) r
  | true (r : Str) : Reads (.bool true) ('t' :: 'r' :: 'u' :: 'e' :: r) r
  | false (r : Str) : Reads (.bool false) ('f' :: 'a' :: 'l' :: 's' :: 'e' :: r) r
  | number {s literal r : Str} (h : number s = some (literal, r)) : Reads (.number literal) s r
  | string {s : Str} {us : List ℕ} {r : Str} (h : string s = some (us, r)) :
      Reads (.string us) ('"' :: s) r
  | emptyArray {s r : Str} (h : skip s = ']' :: r) : Reads (.array []) ('[' :: s) r
  | array {items : List Value} {s r : Str} (h : ReadsItems items s r) :
      Reads (.array items) ('[' :: s) r
  | emptyObject {s r : Str} (h : skip s = '\x7d' :: r) : Reads (.object []) ('\x7b' :: s) r
  | object {members : List (List ℕ × Value)} {s r : Str} (h : ReadsMembers members s r) :
      Reads (.object members) ('\x7b' :: s) r

/-- Items to the closing bracket. -/
inductive ReadsItems : List Value → Str → Str → Prop
  | last {v : Value} {s s' r : Str} (h : Reads v (skip s) s') (hend : skip s' = ']' :: r) :
      ReadsItems [v] s r
  | more {v : Value} {items : List Value} {s s' s'' r : Str} (h : Reads v (skip s) s')
      (hcomma : skip s' = ',' :: s'') (hitems : ReadsItems items s'' r) :
      ReadsItems (v :: items) s r

/-- Members to the closing brace. -/
inductive ReadsMembers : List (List ℕ × Value) → Str → Str → Prop
  | last {name : List ℕ} {v : Value} {s s₁ s₂ s₃ s₄ r : Str} (hquote : skip s = '"' :: s₁)
      (hname : string s₁ = some (name, s₂)) (hcolon : skip s₂ = ':' :: s₃)
      (h : Reads v (skip s₃) s₄) (hend : skip s₄ = '\x7d' :: r) : ReadsMembers [(name, v)] s r
  | more {name : List ℕ} {v : Value} {members : List (List ℕ × Value)} {s s₁ s₂ s₃ s₄ s₅ r : Str}
      (hquote : skip s = '"' :: s₁) (hname : string s₁ = some (name, s₂))
      (hcolon : skip s₂ = ':' :: s₃) (h : Reads v (skip s₃) s₄) (hcomma : skip s₄ = ',' :: s₅)
      (hmembers : ReadsMembers members s₅ r) : ReadsMembers ((name, v) :: members) s r

end

/-- The whole text is a value, with whitespace around it. -/
def Denotes (s : Str) (v : Value) : Prop := ∃ r, Reads v (skip s) r ∧ skip r = []

theorem reads_string_iff {v : Value} {s r : Str} :
    Reads v ('"' :: s) r ↔ ∃ us, string s = some (us, r) ∧ v = .string us := by
  constructor
  · intro h
    generalize htext : '"' :: s = text at h
    cases h with
    | number hnumber =>
      subst htext
      cases hnumber
    | string hstring =>
      obtain ⟨-, rfl⟩ := List.cons.inj htext
      exact ⟨_, hstring, rfl⟩
    | _ => cases htext
  · rintro ⟨us, hstring, rfl⟩
    exact .string hstring

theorem reads_object_iff {v : Value} {s r : Str} : Reads v ('\x7b' :: s) r ↔
    (skip s = '\x7d' :: r ∧ v = .object []) ∨ ∃ members, ReadsMembers members s r ∧
      v = .object members := by
  constructor
  · intro h
    generalize htext : '\x7b' :: s = text at h
    cases h with
    | number hnumber =>
      subst htext
      cases hnumber
    | emptyObject hend =>
      obtain ⟨-, rfl⟩ := List.cons.inj htext
      exact .inl ⟨hend, rfl⟩
    | object hmembers =>
      obtain ⟨-, rfl⟩ := List.cons.inj htext
      exact .inr ⟨_, hmembers, rfl⟩
    | _ => cases htext
  · rintro (⟨hend, rfl⟩ | ⟨members, hmembers, rfl⟩)
    · exact .emptyObject hend
    · exact .object hmembers

theorem skip_of_not_space {c : Char} (h : c ∉ [' ', '\t', '\n', '\r']) (s : Str) :
    skip (c :: s) = c :: s := by
  rw [skip, List.dropWhile_cons_of_neg (by simpa using h)]

theorem readsMembers_iff {name : Str} (hname : ∀ c ∈ name, IsPlain c) {s r : Str}
    {members : List (List ℕ × Value)} :
    ReadsMembers members ('"' :: (name ++ '"' :: ':' :: s)) r ↔ ∃ v s', Reads v (skip s) s' ∧
      ((skip s' = '\x7d' :: r ∧ members = [(codes name, v)]) ∨ ∃ s'' rest, skip s' = ',' :: s'' ∧
        ReadsMembers rest s'' r ∧ members = (codes name, v) :: rest) := by
  have hopen : ∀ t, skip ('"' :: t) = '"' :: t := skip_of_not_space (by decide)
  have hcolon : ∀ t, skip (':' :: t) = ':' :: t := skip_of_not_space (by decide)
  have hread := string_plain hname (':' :: s)
  constructor
  · intro h
    generalize htext : '"' :: (name ++ '"' :: ':' :: s) = text at h
    cases h with
    | last hquote hstring hcolon' h hend =>
      subst htext
      rw [hopen] at hquote
      obtain ⟨-, rfl⟩ := List.cons.inj hquote
      obtain ⟨rfl, rfl⟩ := Prod.mk.inj (Option.some.inj (hread.symm.trans hstring))
      rw [hcolon] at hcolon'
      obtain ⟨-, rfl⟩ := List.cons.inj hcolon'
      exact ⟨_, _, h, .inl ⟨hend, rfl⟩⟩
    | more hquote hstring hcolon' h hcomma hmembers =>
      subst htext
      rw [hopen] at hquote
      obtain ⟨-, rfl⟩ := List.cons.inj hquote
      obtain ⟨rfl, rfl⟩ := Prod.mk.inj (Option.some.inj (hread.symm.trans hstring))
      rw [hcolon] at hcolon'
      obtain ⟨-, rfl⟩ := List.cons.inj hcolon'
      exact ⟨_, _, h, .inr ⟨_, _, hcomma, hmembers, rfl⟩⟩
  · rintro ⟨v, s', h, ⟨hend, rfl⟩ | ⟨s'', rest, hcomma, hmembers, rfl⟩⟩
    · exact .last (hopen _) hread (hcolon _) h hend
    · exact .more (hopen _) hread (hcolon _) h hcomma hmembers

theorem ReadsMembers.ne_nil {members : List (List ℕ × Value)} {s r : Str}
    (h : ReadsMembers members s r) : members ≠ [] := by
  cases h with
  | last => exact List.cons_ne_nil _ _
  | more => exact List.cons_ne_nil _ _

section Members
variable {name : Str} (hname : ∀ c ∈ name, IsPlain c) {n : List ℕ} {v : Value} {s t r : Str}
variable {m : List ℕ × Value} {ms : List (List ℕ × Value)}
include hname

theorem readsMembers_last_iff : ReadsMembers [(n, v)] ('"' :: (name ++ '"' :: ':' :: s)) r ↔
    n = codes name ∧ ∃ s', Reads v (skip s) s' ∧ skip s' = '\x7d' :: r := by
  rw [readsMembers_iff hname]
  constructor
  · rintro ⟨v', s', h, ⟨hend, heq⟩ | ⟨s'', rest, -, hmembers, heq⟩⟩
    · cases heq
      exact ⟨rfl, s', h, hend⟩
    · exact absurd (List.cons.inj heq).2.symm hmembers.ne_nil
  · rintro ⟨rfl, s', h, hend⟩
    exact ⟨v, s', h, .inl ⟨hend, rfl⟩⟩

theorem readsMembers_more_iff :
    ReadsMembers ((n, v) :: m :: ms) ('"' :: (name ++ '"' :: ':' :: s)) r ↔ n = codes name ∧
      ∃ s' s'', Reads v (skip s) s' ∧ skip s' = ',' :: s'' ∧ ReadsMembers (m :: ms) s'' r := by
  rw [readsMembers_iff hname]
  constructor
  · rintro ⟨v', s', h, ⟨-, heq⟩ | ⟨s'', rest, hcomma, hmembers, heq⟩⟩
    · cases heq
    · cases heq
      exact ⟨rfl, s', s'', h, hcomma, hmembers⟩
  · rintro ⟨rfl, s', s'', h, hcomma, hmembers⟩
    exact ⟨v, s', h, .inr ⟨s'', m :: ms, hcomma, hmembers, rfl⟩⟩

/-- A member whose value is a string that spells itself. -/
theorem readsMembers_string_iff {literal : Str} (hliteral : ∀ c ∈ literal, IsPlain c) :
    ReadsMembers ((n, v) :: m :: ms)
        ('"' :: (name ++ '"' :: ':' :: '"' :: (literal ++ '"' :: ',' :: t))) r ↔
      n = codes name ∧ v = .string (codes literal) ∧ ReadsMembers (m :: ms) t r := by
  have hopen : ∀ t, skip ('"' :: t) = '"' :: t := skip_of_not_space (by decide)
  have hcomma : ∀ t, skip (',' :: t) = ',' :: t := skip_of_not_space (by decide)
  rw [readsMembers_more_iff hname, hopen]
  refine and_congr_right (fun _ => ?_)
  constructor
  · rintro ⟨s', s'', h, hsep, hmembers⟩
    obtain ⟨us, hstring, rfl⟩ := reads_string_iff.mp h
    rw [string_plain hliteral] at hstring
    cases hstring
    rw [hcomma] at hsep
    cases hsep
    exact ⟨rfl, hmembers⟩
  · rintro ⟨rfl, hmembers⟩
    exact ⟨_, t, reads_string_iff.mpr ⟨_, string_plain hliteral _, rfl⟩, hcomma t, hmembers⟩

theorem readsMembers_emptyObject_iff :
    ReadsMembers ((n, v) :: m :: ms)
        ('"' :: (name ++ '"' :: ':' :: '\x7b' :: '\x7d' :: ',' :: t)) r ↔
      n = codes name ∧ v = .object [] ∧ ReadsMembers (m :: ms) t r := by
  have hopen : ∀ t, skip ('\x7b' :: t) = '\x7b' :: t := skip_of_not_space (by decide)
  have hclose : ∀ t, skip ('\x7d' :: t) = '\x7d' :: t := skip_of_not_space (by decide)
  have hcomma : ∀ t, skip (',' :: t) = ',' :: t := skip_of_not_space (by decide)
  rw [readsMembers_more_iff hname, hopen]
  refine and_congr_right (fun _ => ?_)
  constructor
  · rintro ⟨s', s'', h, hsep, hmembers⟩
    rcases reads_object_iff.mp h with ⟨hend, rfl⟩ | ⟨members, hinner, -⟩
    · rw [hclose] at hend
      cases hend
      rw [hcomma] at hsep
      cases hsep
      exact ⟨rfl, hmembers⟩
    · have hquote : ∃ t', skip ('\x7d' :: ',' :: t) = '"' :: t' := by
        cases hinner with
        | last hquote => exact ⟨_, hquote⟩
        | more hquote => exact ⟨_, hquote⟩
      obtain ⟨t', ht'⟩ := hquote
      rw [hclose] at ht'
      cases ht'
  · rintro ⟨rfl, hmembers⟩
    exact ⟨_, t, .emptyObject (hclose _), hcomma t, hmembers⟩

end Members

theorem reads_members_iff {m : List ℕ × Value} {ms : List (List ℕ × Value)} {s r : Str} :
    Reads (.object (m :: ms)) ('\x7b' :: s) r ↔ ReadsMembers (m :: ms) s r := by
  rw [reads_object_iff]
  constructor
  · rintro (⟨-, heq⟩ | ⟨members, hmembers, heq⟩)
    · cases heq
    · cases heq
      exact hmembers
  · exact fun h => .inr ⟨_, h, rfl⟩

theorem mem_skip {c : Char} (hc : c ∉ [' ', '\t', '\n', '\r']) {s : Str} (h : c ∈ s) :
    c ∈ skip s := by
  rw [← List.takeWhile_append_dropWhile (p := fun c => decide (c ∈ [' ', '\t', '\n', '\r']))
    (l := s), List.mem_append] at h
  refine h.resolve_left (fun hspace => hc ?_)
  exact of_decide_eq_true (List.mem_takeWhile_imp (p := fun c => decide (c ∈ _)) hspace)

end Json
