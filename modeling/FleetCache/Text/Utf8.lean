set_option autoImplicit false

namespace FleetCache.Text

def continuation (n place : Nat) : Nat :=
  0x80 + n / Nat.pow 64 place % 64

def charBytes (c : Char) : List Nat :=
  let n := c.toNat
  if n < 0x80 then [n]
  else if n < 0x800 then [0xC0 + n / 64, continuation n 0]
  else if n < 0x10000 then [0xE0 + n / Nat.pow 64 2, continuation n 1, continuation n 0]
  else [0xF0 + n / Nat.pow 64 3, continuation n 2, continuation n 1, continuation n 0]

/-- What the first byte of a character says: how many bytes follow, the bits it holds, and between which
bounds the second byte lies. -/
structure LeadByte where
  more : Nat
  bits : Nat
  low : Nat
  high : Nat

def leadByte? (b : Nat) : Option LeadByte :=
  if b < 0x80 then some ⟨0, b, 0x80, 0xBF⟩
  else if b < 0xC2 then none
  else if b < 0xE0 then some ⟨1, b - 0xC0, 0x80, 0xBF⟩
  else if b < 0xF0 then
    some ⟨2, b - 0xE0, if b = 0xE0 then 0xA0 else 0x80, if b = 0xED then 0x9F else 0xBF⟩
  else if b < 0xF5 then
    some ⟨3, b - 0xF0, if b = 0xF0 then 0x90 else 0x80, if b = 0xF4 then 0x8F else 0xBF⟩
  else none

/-- Reads the bytes that complete a character: its code point, or the bytes up to one that does not fit;
and the bytes behind. -/
def completeChar : Nat → Nat → Nat → Nat → List Nat → Except (List Nat) Nat × List Nat
  | 0, bits, _, _, rest => (.ok bits, rest)
  | _ + 1, _, _, _, [] => (.error [], [])
  | more + 1, bits, low, high, b :: rest =>
    if low ≤ b ∧ b ≤ high then
      let (outcome, after) := completeChar more (bits * 64 + (b - 0x80)) 0x80 0xBF rest
      (outcome.mapError (b :: ·), after)
    else (.error [], b :: rest)

def decodeBytes (repair : List Nat → List Char) : Nat → List Nat → List Char
  | 0, _ => []
  | _ + 1, [] => []
  | fuel + 1, b :: rest =>
    match leadByte? b with
    | none => repair [b] ++ decodeBytes repair fuel rest
    | some lead =>
      match completeChar lead.more lead.bits lead.low lead.high rest with
      | (.ok n, after) => Char.ofNat n :: decodeBytes repair fuel after
      | (.error seen, after) => repair (b :: seen) ++ decodeBytes repair fuel after

def textOfBytes (repair : List Nat → List Char) (bytes : List Nat) : List Char :=
  decodeBytes repair bytes.length bytes

def replaceBytes (_ : List Nat) : List Char :=
  [Char.ofNat 0xFFFD]

example : textOfBytes replaceBytes ("aé日😀".toList.flatMap charBytes) = "aé日😀".toList := by
  decide +kernel
example : textOfBytes replaceBytes [0xE6, 0x97, 0x41] = [Char.ofNat 0xFFFD, 'A'] := by decide +kernel
example : textOfBytes replaceBytes [0xED, 0xA0] = [Char.ofNat 0xFFFD, Char.ofNat 0xFFFD] := by
  decide +kernel

end FleetCache.Text
