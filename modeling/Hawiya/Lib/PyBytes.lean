import Hawiya.Lib.PyString

/-!
# Byte strings and UUID texts

Python's `bytes.lower`, the ASCII, Latin-1 and UTF-8 codecs, and the text form `uuid.UUID` accepts.
Decoding UTF-8 with `errors="replace"` puts U+FFFD for each maximal ill-formed part.
-/

namespace PyString

def lowerByte (b : UInt8) : UInt8 := if 65 ≤ b ∧ b ≤ 90 then b + 32 else b

def lowerBytes (bs : List UInt8) : List UInt8 := bs.map lowerByte

def latin1 (bs : List UInt8) : Str := bs.map (fun b => Char.ofNat b.toNat)

/-- `s.encode("latin-1")`, for a text of that character set. -/
def latin1Encode (s : Str) : List UInt8 := s.map (fun c => UInt8.ofNat c.toNat)

def ascii? (bs : List UInt8) : Option Str :=
  if bs.all (fun b => b < 128) then some (latin1 bs) else none

/-- How many continuation bytes a lead byte asks for, and the bounds of the first. -/
def utf8Lead (b : ℕ) : Option (ℕ × ℕ × ℕ) :=
  if 0xC2 ≤ b ∧ b ≤ 0xDF then some (1, 0x80, 0xBF)
  else if b = 0xE0 then some (2, 0xA0, 0xBF)
  else if b = 0xED then some (2, 0x80, 0x9F)
  else if 0xE1 ≤ b ∧ b ≤ 0xEF then some (2, 0x80, 0xBF)
  else if b = 0xF0 then some (3, 0x90, 0xBF)
  else if 0xF1 ≤ b ∧ b ≤ 0xF3 then some (3, 0x80, 0xBF)
  else if b = 0xF4 then some (3, 0x80, 0x8F)
  else none

/-- The continuation bytes that are there, `n` at most. -/
def utf8Continuations : ℕ → ℕ → ℕ → List UInt8 → List ℕ
  | n + 1, lo, hi, b :: bs =>
      if lo ≤ b.toNat ∧ b.toNat ≤ hi then b.toNat :: utf8Continuations n 0x80 0xBF bs else []
  | _, _, _, _ => []

def replacementChar : Char := Char.ofNat 0xFFFD

def utf8DecodeFrom : ℕ → List UInt8 → Str
  | fuel + 1, b :: bs =>
      if b.toNat < 0x80 then Char.ofNat b.toNat :: utf8DecodeFrom fuel bs
      else
        match utf8Lead b.toNat with
        | none => replacementChar :: utf8DecodeFrom fuel bs
        | some (n, lo, hi) =>
            let cs := utf8Continuations n lo hi bs
            if cs.length = n then
              Char.ofNat (cs.foldl (fun acc c => acc * 64 + c % 64) (b.toNat % 2 ^ (6 - n))) ::
                utf8DecodeFrom fuel (bs.drop n)
            else replacementChar :: utf8DecodeFrom fuel (bs.drop cs.length)
  | _, _ => []

/-- `bs.decode("utf-8", errors="replace")`; every character takes at least one byte. -/
def utf8Decode (bs : List UInt8) : Str := utf8DecodeFrom bs.length bs

def utf8Encode (s : Str) : List UInt8 := s.flatMap String.utf8EncodeChar

example : utf8Decode [0x6B, 0xC3, 0xA9, 0xFF, 0xE2, 0x82, 0x41] = "ké��A".toList := by decide

/-- `s.replace(sub, "")`, where `skip` characters of an occurrence remain. -/
def removeSub (sub : Str) : ℕ → Str → Str
  | _, [] => []
  | skip + 1, _ :: s => removeSub sub skip s
  | 0, c :: s =>
      if sub.isPrefixOf (c :: s) then removeSub sub (sub.length - 1) s
      else c :: removeSub sub 0 s

def hexValue? (c : Char) : Option ℕ :=
  if 'a' ≤ c ∧ c ≤ 'f' then some (c.toNat - 87)
  else if 'A' ≤ c ∧ c ≤ 'F' then some (c.toNat - 55)
  else decimalValue? c

def hexFold (acc : ℕ) : Str → Option ℕ
  | [] => some acc
  | '_' :: c :: s => (hexValue? c).bind (fun v => hexFold (acc * 16 + v) s)
  | c :: s => (hexValue? c).bind (fun v => hexFold (acc * 16 + v) s)

/-- Hexadecimal digits, with single underscores between them. -/
def hexDigits? : Str → Option ℕ
  | [] => none
  | c :: s => (hexValue? c).bind (fun v => hexFold v s)

def dropHexPrefix : Str → Str
  | '0' :: 'x' :: '_' :: s => s
  | '0' :: 'X' :: '_' :: s => s
  | '0' :: 'x' :: s => s
  | '0' :: 'X' :: s => s
  | s => s

def dropPlus : Str → Str
  | '+' :: s => s
  | s => s

/-- `int(s, 16)` of a text without a minus sign. -/
def hexInt? (s : Str) : Option ℕ := hexDigits? (dropHexPrefix (dropPlus (strip s)))

/-- `uuid.UUID(s).int`. -/
def uuid? (s : Str) : Option ℕ :=
  let hex := removeSub ['u', 'u', 'i', 'd', ':'] 0 (removeSub ['u', 'r', 'n', ':'] 0 s)
  let hex := (hex.dropWhile (fun c => c = '\x7b' ∨ c = '\x7d')).rdropWhile
    (fun c => c = '\x7b' ∨ c = '\x7d')
  let hex := hex.filter (fun c => c ≠ '-')
  if hex.length = 32 then hexInt? hex else none

example : uuid? "00000000-0000-0000-0000-0000000000ff".toList = some 255 := by decide

end PyString
