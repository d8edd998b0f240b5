import Chainfolio.Radix

/-! Machine words of the ledger. Plain arithmetic on words wraps; the checked operations answer
`none` exactly when the true result does not fit. -/
namespace Chainfolio

abbrev Word := BitVec 256

/-- A market field, 128 bits wide. -/
abbrev HalfWord := BitVec 128

abbrev Block := UInt64

namespace Word

/-- The word of a number below `2 ^ 256`. -/
def ofNat? (n : Nat) : Option Word :=
  if n < twoTo 256 then some (BitVec.ofNat 256 n) else none

def add? (x y : Word) : Option Word := ofNat? (x.toNat + y.toNat)

def mul? (x y : Word) : Option Word := ofNat? (x.toNat * y.toNat)

def toHalf? (x : Word) : Option HalfWord :=
  if x.toNat < twoTo 128 then some (x.setWidth 128) else none

def pow10 (decimals : UInt8) : Word := BitVec.ofNat 256 (tenTo decimals.toNat)

def bytes (w : Word) : List UInt8 :=
  (List.range 32).map fun i => UInt8.ofNat (w.toNat / twoTo (8 * (31 - i)))

def ofBytes (bytes : List UInt8) : Word :=
  BitVec.ofNat 256 (bytes.foldl (fun acc b => 256 * acc + b.toNat) 0)

theorem ofNat?_eq_some {n : Nat} {w : Word} (h : ofNat? n = some w) : w.toNat = n := by
  unfold ofNat? at h
  split at h
  · next hn =>
    cases h
    rw [BitVec.toNat_ofNat]
    exact Nat.mod_eq_of_lt hn
  · cases h

theorem toNat_mul? {x y z : Word} (h : mul? x y = some z) : z.toNat = x.toNat * y.toNat :=
  ofNat?_eq_some h

end Word

def HalfWord.widen (x : HalfWord) : Word := x.setWidth 256

@[simp] theorem HalfWord.toNat_widen (x : HalfWord) : x.widen.toNat = x.toNat := by
  have : x.toNat < 2 ^ 256 := Nat.lt_of_lt_of_le x.isLt (by decide)
  rw [HalfWord.widen, BitVec.toNat_setWidth, Nat.mod_eq_of_lt this]

structure Address where
  bits : BitVec 160
  deriving DecidableEq

/-- A 32-byte hash or market id. -/
structure Hash where
  bits : Word
  deriving DecidableEq

namespace Address

def zero : Address := ⟨0⟩

/-- The address left-padded to a word. -/
def toWord (a : Address) : Word := a.bits.setWidth 256

/-- The address in the low 20 bytes of a word. -/
def ofWord (w : Word) : Address := ⟨w.setWidth 160⟩

end Address

end Chainfolio
