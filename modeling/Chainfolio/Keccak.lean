import Chainfolio.Word

/-! The Keccak-256 digest: a sponge of 25 lanes of 64 bits, 136 bytes absorbed per permutation. -/
namespace Chainfolio.Keccak

/-- Twenty-five lanes, row after row. -/
abbrev State := Array UInt64

def lane (s : State) (x y : Nat) : UInt64 := s.getD (5 * (y % 5) + x % 5) 0

/-- The state whose lanes are given by column and row. -/
def ofLanes (f : Nat → Nat → UInt64) : State := Array.ofFn (n := 25) fun i => f (i % 5) (i / 5)

def rotate (w : UInt64) (n : Nat) : UInt64 :=
  if n = 0 then w else (w <<< UInt64.ofNat n) ||| (w >>> UInt64.ofNat (64 - n))

/-- How far each lane rotates, row after row. -/
def offsets : Array Nat :=
  #[0, 1, 62, 28, 27,
    36, 44, 6, 55, 20,
    3, 10, 43, 25, 39,
    41, 45, 15, 21, 8,
    18, 2, 61, 56, 14]

def roundConstants : List UInt64 :=
  [0x0000000000000001, 0x0000000000008082, 0x800000000000808A, 0x8000000080008000,
   0x000000000000808B, 0x0000000080000001, 0x8000000080008081, 0x8000000000008009,
   0x000000000000008A, 0x0000000000000088, 0x0000000080008009, 0x000000008000000A,
   0x000000008000808B, 0x800000000000008B, 0x8000000000008089, 0x8000000000008003,
   0x8000000000008002, 0x8000000000000080, 0x000000000000800A, 0x800000008000000A,
   0x8000000080008081, 0x8000000000008080, 0x0000000080000001, 0x8000000080008008]

/-- Column parities of the two neighbours, added to every lane. -/
def theta (s : State) : State :=
  let parity x := lane s x 0 ^^^ lane s x 1 ^^^ lane s x 2 ^^^ lane s x 3 ^^^ lane s x 4
  let parities := Array.ofFn (n := 5) fun x => parity x
  let column x := parities.getD (x % 5) 0
  ofLanes fun x y => lane s x y ^^^ column (x + 4) ^^^ rotate (column (x + 1)) 1

/-- Lanes rotated and moved to their new places. -/
def rhoPi (s : State) : State :=
  ofLanes fun x y => rotate (lane s (x + 3 * y) x) (offsets.getD (5 * (x % 5) + (x + 3 * y) % 5) 0)

/-- The nonlinear step along each row, then the round constant. -/
def chiIota (c : UInt64) (s : State) : State :=
  ofLanes fun x y =>
    let mixed := lane s x y ^^^ (~~~ lane s (x + 1) y &&& lane s (x + 2) y)
    if x = 0 ∧ y = 0 then mixed ^^^ c else mixed

def permute (s : State) : State :=
  roundConstants.foldl (fun s c => chiIota c (rhoPi (theta s))) s

/-- Bytes as one number, least significant first. -/
def littleEndian (bytes : List UInt8) : Nat :=
  bytes.foldr (fun b acc => b.toNat + 256 * acc) 0

/-- The message padded to whole blocks of 136 bytes. -/
def pad (message : List UInt8) : List UInt8 :=
  match 136 - message.length % 136 with
  | 1 => message ++ [0x81]
  | n => message ++ [0x01] ++ List.replicate (n - 2) 0 ++ [0x80]

def absorb (s : State) (block : List UInt8) : State :=
  permute (ofLanes fun x y =>
    let i := 5 * y + x
    lane s x y ^^^ UInt64.ofNat (littleEndian ((block.drop (8 * i)).take 8)))

def blocks : Nat → List UInt8 → List (List UInt8)
  | 0, _ => []
  | count + 1, bytes => bytes.take 136 :: blocks count (bytes.drop 136)

def laneBytes (w : UInt64) : List UInt8 :=
  (List.range 8).map fun i => (w >>> UInt64.ofNat (8 * i)).toUInt8

def digest (message : List UInt8) : List UInt8 :=
  let padded := pad message
  let s := (blocks (padded.length / 136) padded).foldl absorb (ofLanes fun _ _ => 0)
  [0, 1, 2, 3].flatMap fun x => laneBytes (lane s x 0)

end Chainfolio.Keccak

namespace Chainfolio

/-- The digest of a message as a hash, first byte most significant. -/
def keccak256 (message : List UInt8) : Hash :=
  ⟨BitVec.ofNat 256 ((Keccak.digest message).foldl (fun acc b => 256 * acc + b.toNat) 0)⟩

end Chainfolio
