import Hawiya.Lib.PyBytes

/-!
# SHA-256

`hashlib.sha256(bs).hexdigest()`, on lists of bytes. Words are natural numbers below `2 ^ 32`. The
message schedule is kept as its last sixteen words, of which a round uses the first.
-/

namespace Sha256
open PyString

def wrap (n : ℕ) : ℕ := n % 2 ^ 32

def rotr (n x : ℕ) : ℕ := x >>> n ||| wrap (x <<< (32 - n))

def roundConstants : List ℕ := [
  0x428a2f98, 0x71374491, 0xb5c0fbcf, 0xe9b5dba5, 0x3956c25b, 0x59f111f1, 0x923f82a4, 0xab1c5ed5,
  0xd807aa98, 0x12835b01, 0x243185be, 0x550c7dc3, 0x72be5d74, 0x80deb1fe, 0x9bdc06a7, 0xc19bf174,
  0xe49b69c1, 0xefbe4786, 0x0fc19dc6, 0x240ca1cc, 0x2de92c6f, 0x4a7484aa, 0x5cb0a9dc, 0x76f988da,
  0x983e5152, 0xa831c66d, 0xb00327c8, 0xbf597fc7, 0xc6e00bf3, 0xd5a79147, 0x06ca6351, 0x14292967,
  0x27b70a85, 0x2e1b2138, 0x4d2c6dfc, 0x53380d13, 0x650a7354, 0x766a0abb, 0x81c2c92e, 0x92722c85,
  0xa2bfe8a1, 0xa81a664b, 0xc24b8b70, 0xc76c51a3, 0xd192e819, 0xd6990624, 0xf40e3585, 0x106aa070,
  0x19a4c116, 0x1e376c08, 0x2748774c, 0x34b0bcb5, 0x391c0cb3, 0x4ed8aa4a, 0x5b9cca4f, 0x682e6ff3,
  0x748f82ee, 0x78a5636f, 0x84c87814, 0x8cc70208, 0x90befffa, 0xa4506ceb, 0xbef9a3f7, 0xc67178f2]

structure Digest where
  a : ℕ
  b : ℕ
  c : ℕ
  d : ℕ
  e : ℕ
  f : ℕ
  g : ℕ
  h : ℕ

namespace Digest

def initial : Digest where
  a := 0x6a09e667
  b := 0xbb67ae85
  c := 0x3c6ef372
  d := 0xa54ff53a
  e := 0x510e527f
  f := 0x9b05688c
  g := 0x1f83d9ab
  h := 0x5be0cd19

def add (s t : Digest) : Digest where
  a := wrap (s.a + t.a)
  b := wrap (s.b + t.b)
  c := wrap (s.c + t.c)
  d := wrap (s.d + t.d)
  e := wrap (s.e + t.e)
  f := wrap (s.f + t.f)
  g := wrap (s.g + t.g)
  h := wrap (s.h + t.h)

/-- One round with constant `k` and word `w`. -/
def round (s : Digest) (k w : ℕ) : Digest :=
  let choice := (s.e &&& s.f) ^^^ (wrap (2 ^ 32 - 1 - s.e) &&& s.g)
  let majority := (s.a &&& s.b) ^^^ (s.a &&& s.c) ^^^ (s.b &&& s.c)
  let t₁ := s.h + (rotr 6 s.e ^^^ rotr 11 s.e ^^^ rotr 25 s.e) + choice + k + w
  let t₂ := (rotr 2 s.a ^^^ rotr 13 s.a ^^^ rotr 22 s.a) + majority
  { a := wrap (t₁ + t₂), b := s.a, c := s.b, d := s.c
    e := wrap (s.d + t₁), f := s.e, g := s.f, h := s.g }

def words (s : Digest) : List ℕ := [s.a, s.b, s.c, s.d, s.e, s.f, s.g, s.h]

end Digest

/-- The schedule's next window. -/
def slide (window : List ℕ) : List ℕ :=
  let w₁ := window.getD 1 0
  let w₁₄ := window.getD 14 0
  window.tail ++ [wrap (window.headD 0 + (rotr 7 w₁ ^^^ rotr 18 w₁ ^^^ w₁ >>> 3) +
    window.getD 9 0 + (rotr 17 w₁₄ ^^^ rotr 19 w₁₄ ^^^ w₁₄ >>> 10))]

def rounds : List ℕ → List ℕ → Digest → Digest
  | [], _, s => s
  | k :: ks, window, s => rounds ks (slide window) (s.round k (window.headD 0))

def compress (s : Digest) (block : List ℕ) : Digest := s.add (rounds roundConstants block s)

/-- The message in whole blocks of 64 bytes. -/
def padded (bs : List UInt8) : List UInt8 :=
  bs ++ 0x80 :: List.replicate ((119 - bs.length % 64) % 64) 0 ++
    (List.range 8).map (fun i => UInt8.ofNat (8 * bs.length / 256 ^ (7 - i)))

def toWords : List UInt8 → List ℕ
  | b₀ :: b₁ :: b₂ :: b₃ :: bs =>
      (b₀.toNat * 2 ^ 24 + b₁.toNat * 2 ^ 16 + b₂.toNat * 2 ^ 8 + b₃.toNat) :: toWords bs
  | _ => []

def compressBlocks : ℕ → List ℕ → Digest → Digest
  | 0, _, s => s
  | n + 1, ws, s => compressBlocks n (ws.drop 16) (compress s (ws.take 16))

def digest (bs : List UInt8) : Digest :=
  compressBlocks ((padded bs).length / 64) (toWords (padded bs)) .initial

def hexChar (n : ℕ) : Char := if n < 10 then Char.ofNat (48 + n) else Char.ofNat (87 + n)

def hexWord (w : ℕ) : Str := (List.range 8).map (fun i => hexChar (w / 16 ^ (7 - i) % 16))

def hexdigest (bs : List UInt8) : Str := (digest bs).words.flatMap hexWord

theorem length_hexdigest (bs : List UInt8) : (hexdigest bs).length = 64 := by
  simp [hexdigest, Digest.words, hexWord]

theorem hexChar_mem : ∀ n < 16, hexChar n ∈ "0123456789abcdef".toList := by
  decide

theorem mem_hexdigest {bs : List UInt8} {c : Char} (h : c ∈ hexdigest bs) :
    c ∈ "0123456789abcdef".toList := by
  obtain ⟨w, -, hw⟩ := List.mem_flatMap.mp h
  obtain ⟨i, -, rfl⟩ := List.mem_map.mp hw
  exact hexChar_mem _ (Nat.mod_lt _ (by decide))

example : hexdigest [97, 98, 99] =
    "ba7816bf8f01cfea414140de5dae2223b00361a396177a9cb410ff61f20015ad".toList := by
  decide +kernel

end Sha256
