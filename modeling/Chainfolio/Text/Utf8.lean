/-! Lossy UTF-8: every longest run of bytes that begins a character and cannot complete it becomes
one replacement character. -/
namespace Chainfolio.Text.Utf8

def replacement : Char := '\uFFFD'

/-- How many further bytes a leading byte asks for, and the range of the next one. -/
def lead? (b : UInt8) : Option (Nat × UInt8 × UInt8) :=
  if b < 0x80 then some (0, 0x80, 0xBF)
  else if 0xC2 ≤ b ∧ b ≤ 0xDF then some (1, 0x80, 0xBF)
  else if b = 0xE0 then some (2, 0xA0, 0xBF)
  else if b = 0xED then some (2, 0x80, 0x9F)
  else if 0xE1 ≤ b ∧ b ≤ 0xEF then some (2, 0x80, 0xBF)
  else if b = 0xF0 then some (3, 0x90, 0xBF)
  else if 0xF1 ≤ b ∧ b ≤ 0xF3 then some (3, 0x80, 0xBF)
  else if b = 0xF4 then some (3, 0x80, 0x8F)
  else none

def leadBits (owed : Nat) (b : UInt8) : Nat :=
  match owed with
  | 0 => b.toNat
  | 1 => b.toNat % 32
  | 2 => b.toNat % 16
  | _ => b.toNat % 8

/-- Where the decoder stands: between characters, or inside one with bytes owed. -/
inductive Pending where
  | none
  | char (owed : Nat) (low high : UInt8) (bits : Nat)

/-- The state after a byte that starts a character, and what it writes. -/
def start (b : UInt8) : Pending × List Char :=
  match lead? b with
  | Option.none => (.none, [replacement])
  | some (0, _, _) => (.none, [Char.ofNat b.toNat])
  | some (owed, low, high) => (.char owed low high (leadBits owed b), [])

def step : Pending → UInt8 → Pending × List Char
  | .none, b => start b
  | .char owed low high bits, b =>
    if low ≤ b ∧ b ≤ high then
      let bits := 64 * bits + b.toNat % 64
      if owed ≤ 1 then (.none, [Char.ofNat bits]) else (.char (owed - 1) 0x80 0xBF bits, [])
    else
      let (next, written) := start b
      (next, replacement :: written)

def run : Pending → List UInt8 → List Char
  | .none, [] => []
  | .char .., [] => [replacement]
  | p, b :: rest =>
    let (next, written) := step p b
    written ++ run next rest

/-- The text of bytes, ill-formed runs replaced. -/
def decodeLossy (bytes : List UInt8) : String := String.ofList (run .none bytes)

end Chainfolio.Text.Utf8
