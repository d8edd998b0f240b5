/-! Powers of ten and of two, which decimal places and bits count in. Both are the recursion on the
exponent itself, so that they mean the same under every choice of power notation. -/
namespace Chainfolio

/-- The weight of a digit with `k` decimal places behind it. -/
def tenTo (k : Nat) : Nat := Nat.pow 10 k

/-- The weight of bit `k`, and the first number that needs more than `k` bits. -/
def twoTo (k : Nat) : Nat := Nat.pow 2 k

@[simp] theorem tenTo_zero : tenTo 0 = 1 := rfl

@[simp] theorem twoTo_zero : twoTo 0 = 1 := rfl

theorem tenTo_succ (k : Nat) : tenTo (k + 1) = tenTo k * 10 := rfl

theorem twoTo_succ (k : Nat) : twoTo (k + 1) = twoTo k * 2 := rfl

theorem tenTo_pos (k : Nat) : 0 < tenTo k := Nat.pow_pos (by decide)

theorem twoTo_pos (k : Nat) : 0 < twoTo k := Nat.pow_pos (by decide)

theorem tenTo_add (j k : Nat) : tenTo (j + k) = tenTo j * tenTo k := Nat.pow_add 10 j k

theorem twoTo_add (j k : Nat) : twoTo (j + k) = twoTo j * twoTo k := Nat.pow_add 2 j k

end Chainfolio
