/-!
# Characters of a byte string

`decodeUtf8` reads bytes as UTF-8. A byte that starts no well-formed sequence stands for one
replacement character, so every byte string has a reading.
-/

namespace EscapeTime.Text

/-- The character that stands for a malformed byte. -/
def replacement : Char := Char.ofNat 0xfffd

/-- The value of a continuation byte that lies between `lo` and `hi`. -/
def continuation? (b : UInt8) (lo hi : Nat) : Option Nat :=
  if lo ≤ b.toNat ∧ b.toNat ≤ hi then some (b.toNat % 64) else none

/-- The character that `b` and the bytes after it spell, and how many of those bytes it takes. -/
def sequence? (b : UInt8) (rest : List UInt8) : Option (Char × Nat) :=
  let n := b.toNat
  if n < 0x80 then some (Char.ofNat n, 0)
  else if 0xc2 ≤ n ∧ n ≤ 0xdf then
    match rest with
    | b₁ :: _ => do
      let x ← continuation? b₁ 0x80 0xbf
      some (Char.ofNat (n % 32 * 64 + x), 1)
    | _ => none
  else if 0xe0 ≤ n ∧ n ≤ 0xef then
    match rest with
    | b₁ :: b₂ :: _ => do
      let x ← continuation? b₁ (if n = 0xe0 then 0xa0 else 0x80) (if n = 0xed then 0x9f else 0xbf)
      let y ← continuation? b₂ 0x80 0xbf
      some (Char.ofNat ((n % 16 * 64 + x) * 64 + y), 2)
    | _ => none
  else if 0xf0 ≤ n ∧ n ≤ 0xf4 then
    match rest with
    | b₁ :: b₂ :: b₃ :: _ => do
      let x ← continuation? b₁ (if n = 0xf0 then 0x90 else 0x80) (if n = 0xf4 then 0x8f else 0xbf)
      let y ← continuation? b₂ 0x80 0xbf
      let z ← continuation? b₃ 0x80 0xbf
      some (Char.ofNat (((n % 8 * 64 + x) * 64 + y) * 64 + z), 3)
    | _ => none
  else none

/-- The characters of the bytes after the first `skip` of them. -/
def decodeFrom : (skip : Nat) → List UInt8 → List Char
  | _, [] => []
  | skip + 1, _ :: rest => decodeFrom skip rest
  | 0, b :: rest =>
    match sequence? b rest with
    | some (c, used) => c :: decodeFrom used rest
    | none => replacement :: decodeFrom 0 rest

/-- The text of a byte string. -/
def decodeUtf8 (bytes : List UInt8) : String :=
  String.ofList (decodeFrom 0 bytes)

/-- The bytes of a text. -/
def encodeUtf8 (text : String) : List UInt8 :=
  text.toList.flatMap String.utf8EncodeChar

end EscapeTime.Text
