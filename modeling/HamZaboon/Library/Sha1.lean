import Mathlib.Data.List.Basic
import Mathlib.Tactic.Common

/-! # SHA-1

The digest of a text's UTF-8 bytes in lower-case hexadecimal digits, of which
there are forty.
-/

namespace HamZaboon.Library

/-- The five words of the chaining state. -/
structure Sha1 where
  a : BitVec 32
  b : BitVec 32
  c : BitVec 32
  d : BitVec 32
  e : BitVec 32

namespace Sha1

def initial : Sha1 := ⟨0x67452301, 0xEFCDAB89, 0x98BADCFE, 0x10325476, 0xC3D2E1F0⟩

/-- The `n` lowest bytes of a number, the highest of them first. -/
def bigEndian (n value : Nat) : List UInt8 :=
  (List.range n).map fun i => UInt8.ofNat (value >>> (8 * (n - 1 - i)))

/-- The message with a delimiter, zeros, and its length in bits. -/
def pad (message : List UInt8) : List UInt8 :=
  message ++ 0x80 :: List.replicate ((119 - message.length % 64) % 64) 0 ++
    bigEndian 8 (8 * message.length)

/-- Four bytes make a word. -/
def words : List UInt8 → List (BitVec 32)
  | a :: b :: c :: d :: rest =>
    BitVec.ofNat 32 (((a.toNat * 256 + b.toNat) * 256 + c.toNat) * 256 + d.toNat) :: words rest
  | _ => []

/-- The schedule, its last word first. -/
def extend : Nat → List (BitVec 32) → List (BitVec 32)
  | 0, w => w
  | n + 1, w =>
    extend n ((w.getD 2 0 ^^^ w.getD 7 0 ^^^ w.getD 13 0 ^^^ w.getD 15 0).rotateLeft 1 :: w)

/-- The function and the constant of a round. -/
def mix (s : Sha1) (t : Nat) : BitVec 32 :=
  if t < 20 then (s.b &&& s.c ||| ~~~s.b &&& s.d) + 0x5A827999
  else if t < 40 then (s.b ^^^ s.c ^^^ s.d) + 0x6ED9EBA1
  else if t < 60 then (s.b &&& s.c ||| s.b &&& s.d ||| s.c &&& s.d) + 0x8F1BBCDC
  else (s.b ^^^ s.c ^^^ s.d) + 0xCA62C1D6

def round (s : Sha1) (step : BitVec 32 × Nat) : Sha1 :=
  ⟨s.a.rotateLeft 5 + s.mix step.2 + s.e + step.1, s.a, s.b.rotateLeft 30, s.c, s.d⟩

/-- A block of sixteen words is taken in. -/
def compress (s : Sha1) (block : List (BitVec 32)) : Sha1 :=
  let s' := ((extend 64 block.reverse).reverse.zipIdx).foldl round s
  ⟨s.a + s'.a, s.b + s'.b, s.c + s'.c, s.d + s'.d, s.e + s'.e⟩

def digest (message : List UInt8) : Sha1 :=
  let ws := words (pad message)
  (List.range (ws.length / 16)).foldl (fun s i => s.compress ((ws.drop (16 * i)).take 16)) initial

/-- The eight hexadecimal digits of a word. -/
def hexWord (w : BitVec 32) : List Char :=
  (List.range 8).map fun i => Nat.digitChar (w.toNat >>> (4 * (7 - i)) % 16)

def hex (s : Sha1) : List Char := [s.a, s.b, s.c, s.d, s.e].flatMap hexWord

@[simp] theorem length_hexWord (w : BitVec 32) : (hexWord w).length = 8 := by
  rw [hexWord, List.length_map, List.length_range]

@[simp] theorem length_hex (s : Sha1) : s.hex.length = 40 := by
  simp [hex]

end Sha1

/-- `hashlib.sha1(text.encode("utf-8")).hexdigest()`. -/
def sha1Hex (text : String) : String := String.ofList (Sha1.digest text.toUTF8.toList).hex

@[simp] theorem length_sha1Hex (text : String) : (sha1Hex text).toList.length = 40 := by
  rw [sha1Hex, String.toList_ofList, Sha1.length_hex]

example : sha1Hex "abc" = "a9993e364706816aba3e25717850c26c9cd0d89d" := by decide +kernel

end HamZaboon.Library
