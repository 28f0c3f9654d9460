import CodeSurvey.Text.Quoted

/-!
# Content digests

A content digest is the SHA-256 value of some bytes, written as 64 lower-case
hexadecimal digits.  The message is closed by a one bit, filled up with zeros and its
length in bits to whole blocks of 64 bytes, and the blocks are mixed one after the
other into a state of eight words.
-/

namespace CodeSurvey
namespace Digest

structure State where
  a : UInt32
  b : UInt32
  c : UInt32
  d : UInt32
  e : UInt32
  f : UInt32
  g : UInt32
  h : UInt32
deriving DecidableEq, Repr

namespace State

def initial : State :=
  { a := 0x6a09e667, b := 0xbb67ae85, c := 0x3c6ef372, d := 0xa54ff53a
    e := 0x510e527f, f := 0x9b05688c, g := 0x1f83d9ab, h := 0x5be0cd19 }

def add (s t : State) : State :=
  { a := s.a + t.a, b := s.b + t.b, c := s.c + t.c, d := s.d + t.d
    e := s.e + t.e, f := s.f + t.f, g := s.g + t.g, h := s.h + t.h }

def words (s : State) : List UInt32 :=
  [s.a, s.b, s.c, s.d, s.e, s.f, s.g, s.h]

end State

def rotate (x : UInt32) (n : UInt32) : UInt32 :=
  (x >>> n) ||| (x <<< (32 - n))

def roundConstants : List UInt32 :=
  [0x428a2f98, 0x71374491, 0xb5c0fbcf, 0xe9b5dba5, 0x3956c25b, 0x59f111f1, 0x923f82a4, 0xab1c5ed5,
   0xd807aa98, 0x12835b01, 0x243185be, 0x550c7dc3, 0x72be5d74, 0x80deb1fe, 0x9bdc06a7, 0xc19bf174,
   0xe49b69c1, 0xefbe4786, 0x0fc19dc6, 0x240ca1cc, 0x2de92c6f, 0x4a7484aa, 0x5cb0a9dc, 0x76f988da,
   0x983e5152, 0xa831c66d, 0xb00327c8, 0xbf597fc7, 0xc6e00bf3, 0xd5a79147, 0x06ca6351, 0x14292967,
   0x27b70a85, 0x2e1b2138, 0x4d2c6dfc, 0x53380d13, 0x650a7354, 0x766a0abb, 0x81c2c92e, 0x92722c85,
   0xa2bfe8a1, 0xa81a664b, 0xc24b8b70, 0xc76c51a3, 0xd192e819, 0xd6990624, 0xf40e3585, 0x106aa070,
   0x19a4c116, 0x1e376c08, 0x2748774c, 0x34b0bcb5, 0x391c0cb3, 0x4ed8aa4a, 0x5b9cca4f, 0x682e6ff3,
   0x748f82ee, 0x78a5636f, 0x84c87814, 0x8cc70208, 0x90befffa, 0xa4506ceb, 0xbef9a3f7, 0xc67178f2]

def nextWord (w : Array UInt32) : UInt32 :=
  let back := fun n => w.getD (w.size - n) 0
  let low := back 15
  let high := back 2
  let s0 := rotate low 7 ^^^ rotate low 18 ^^^ (low >>> 3)
  let s1 := rotate high 17 ^^^ rotate high 19 ^^^ (high >>> 10)
  back 16 + s0 + back 7 + s1

/-- The 64 words of a block of sixteen. -/
def schedule (block : Array UInt32) : Array UInt32 :=
  (List.range 48).foldl (fun w _ => w.push (nextWord w)) block

def round (s : State) (constant word : UInt32) : State :=
  let s1 := rotate s.e 6 ^^^ rotate s.e 11 ^^^ rotate s.e 25
  let choice := (s.e &&& s.f) ^^^ ((~~~ s.e) &&& s.g)
  let t1 := s.h + s1 + choice + constant + word
  let s0 := rotate s.a 2 ^^^ rotate s.a 13 ^^^ rotate s.a 22
  let majority := (s.a &&& s.b) ^^^ (s.a &&& s.c) ^^^ (s.b &&& s.c)
  { a := t1 + (s0 + majority), b := s.a, c := s.b, d := s.c
    e := s.d + t1, f := s.e, g := s.f, h := s.g }

def compress (s : State) (block : Array UInt32) : State :=
  let mixed := (roundConstants.zip (schedule block).toList).foldl
    (fun s kw => round s kw.1 kw.2) s
  s.add mixed

/-- The length of the closed message in bytes, a multiple of 64. -/
def paddedSize (size : Nat) : Nat :=
  (size + 9 + 63) / 64 * 64

/-- A byte of the closed message. -/
def paddedByte (message : ByteArray) (i : Nat) : UInt8 :=
  if h : i < message.size then message[i]
  else if i = message.size then 0x80
  else
    let total := paddedSize message.size
    if i + 8 < total then 0
    else ((8 * message.size) >>> (8 * (total - 1 - i))).toUInt8

/-- Four bytes of the closed message as a word, the first byte most significant. -/
def word (message : ByteArray) (i : Nat) : UInt32 :=
  let byte := fun j => (paddedByte message (i + j)).toUInt32
  (byte 0 <<< 24) ||| (byte 1 <<< 16) ||| (byte 2 <<< 8) ||| byte 3

def block (message : ByteArray) (n : Nat) : Array UInt32 :=
  (Array.range 16).map fun i => word message (64 * n + 4 * i)

def final (message : ByteArray) : State :=
  (List.range (paddedSize message.size / 64)).foldl
    (fun s n => compress s (block message n)) State.initial

def wordChars (x : UInt32) : List Char :=
  (List.range 8).map fun i => Text.Quoted.hexDigit ((x.toNat >>> (28 - 4 * i)) % 16)

def ofBytes (message : ByteArray) : String :=
  String.ofList ((final message).words.flatMap wordChars)

def ofText (s : String) : String :=
  ofBytes s.toUTF8

end Digest
end CodeSurvey
