/-!
# Bytes as text

A run of bytes is text when it is well-formed UTF-8.  For runs that are not, `faultAt?` says where
and how the first fault arises, and `decodeLossy` puts a replacement character in the place of every
faulty piece.  A faulty piece is as long as possible: it is the longest start of a well-formed
sequence, or a single byte where no sequence can start.
-/

set_option autoImplicit false

namespace ScriptPool
namespace Text

/-- The first piece of a run of bytes. -/
inductive Piece where
  /-- A well-formed sequence of `length` bytes. -/
  | scalar (c : Char) (length : Nat)
  /-- `length` bytes that no well-formed sequence starts with. -/
  | invalid (length : Nat)
  /-- A well-formed start, cut off by the end of the run. -/
  | incomplete (length : Nat)
  deriving Repr

/-- Is the byte the continuation of a sequence, within narrower bounds for the first one? -/
def continues (lo hi : Nat) (b : UInt8) : Bool := lo ≤ b.toNat && b.toNat ≤ hi

/-- The sequences by their first byte: how many bytes follow, the bits of the first byte, and the
bounds of the second byte. -/
def lead? (b : Nat) : Option (Nat × Nat × Nat × Nat) :=
  if 0xc2 ≤ b && b ≤ 0xdf then some (1, b % 0x20, 0x80, 0xbf)
  else if b = 0xe0 then some (2, b % 0x10, 0xa0, 0xbf)
  else if b = 0xed then some (2, b % 0x10, 0x80, 0x9f)
  else if 0xe1 ≤ b && b ≤ 0xef then some (2, b % 0x10, 0x80, 0xbf)
  else if b = 0xf0 then some (3, b % 0x08, 0x90, 0xbf)
  else if b = 0xf4 then some (3, b % 0x08, 0x80, 0x8f)
  else if 0xf1 ≤ b && b ≤ 0xf3 then some (3, b % 0x08, 0x80, 0xbf)
  else none

/-- Reads the continuation bytes of a sequence. `read` bytes have been taken already. -/
def continuation (code read : Nat) : Nat → Nat → Nat → List UInt8 → Piece
  | 0, _, _, _ => .scalar (Char.ofNat code) read
  | _ + 1, _, _, [] => .incomplete read
  | left + 1, lo, hi, b :: rest =>
      if continues lo hi b then continuation (code * 64 + b.toNat % 64) (read + 1) left 0x80 0xbf rest
      else .invalid read

/-- The first piece of a non-empty run. -/
def firstPiece (b : UInt8) (rest : List UInt8) : Piece :=
  if b.toNat < 0x80 then .scalar (Char.ofNat b.toNat) 1
  else
    match lead? b.toNat with
    | none => .invalid 1
    | some (left, bits, lo, hi) => continuation bits 1 left lo hi rest

/-- Where and how a run of bytes ceases to be text: the place of the first fault, and its length
unless the run just ends too early. -/
def faultAt? : Nat → Nat → List UInt8 → Option (Nat × Option Nat)
  | 0, _, _ => none
  | _, _, [] => none
  | fuel + 1, index, b :: rest =>
      match firstPiece b rest with
      | .scalar _ n => faultAt? fuel (index + n) (rest.drop (n - 1))
      | .invalid n => some (index, some n)
      | .incomplete _ => some (index, none)

/-- The wording of a fault. -/
def faultMessage (index : Nat) : Option Nat → String
  | some n => "invalid utf-8 sequence of " ++ toString n ++ " bytes from index " ++ toString index
  | none => "incomplete utf-8 byte sequence from index " ++ toString index

/-- The characters of a run of bytes, with U+FFFD for every faulty piece. -/
def lossyChars : Nat → List UInt8 → List Char
  | 0, _ => []
  | _, [] => []
  | fuel + 1, b :: rest =>
      match firstPiece b rest with
      | .scalar c n => c :: lossyChars fuel (rest.drop (n - 1))
      | .invalid n => Char.ofNat 0xfffd :: lossyChars fuel (rest.drop (n - 1))
      | .incomplete n => Char.ofNat 0xfffd :: lossyChars fuel (rest.drop (n - 1))

/-- The text of a run of bytes: exact if it is UTF-8, and otherwise with replacement characters. -/
def decodeLossy (bytes : ByteArray) : String :=
  match String.fromUTF8? bytes with
  | some s => s
  | none => String.ofList (lossyChars bytes.size bytes.toList)

/-- The wording of the first fault of a run of bytes, if it has one. -/
def utf8Fault? (bytes : ByteArray) : Option String :=
  (faultAt? bytes.size 0 bytes.toList).map fun (index, length) => faultMessage index length

end Text
end ScriptPool
