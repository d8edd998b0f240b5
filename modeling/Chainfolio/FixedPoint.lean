import Chainfolio.Fault

/-! Fixed-point arithmetic on words: products are checked, the rest wraps. -/
namespace Chainfolio.FixedPoint

def wad : Word := 1000000000000000000

/-- A checked operation, with the name it fails under. -/
def checked (operation : String) (r : Option Word) : Except Fault Word :=
  match r with
  | some w => .ok w
  | none => .error (.math (.overflow operation))

/-- `x * y / d`, rounded down. -/
def mulDivDown (x y d : Word) : Except Fault Word :=
  if d = 0 then .error (.math .divisionByZero)
  else do return (← checked "mul_div_down" (Word.mul? x y)) / d

/-- `x * y / d`, rounded up. -/
def mulDivUp (x y d : Word) : Except Fault Word :=
  if d = 0 then .error (.math .divisionByZero)
  else do
    let product ← checked "mul_div_up" (Word.mul? x y)
    return (← checked "mul_div_up" (Word.add? product (d - 1))) / d

/-- `x * y` for scaled factors, rounded down. -/
def wMulDown (x y : Word) : Except Fault Word := mulDivDown x y wad

/-- `x / y` as a scaled number, rounded down. -/
def wDivDown (x y : Word) : Except Fault Word := mulDivDown x wad y

/-- The first three terms of the exponential of `x * n`, less one. -/
def wTaylorCompounded (x n : Word) : Except Fault Word := do
  let first ← checked "w_taylor_compounded" (Word.mul? x n)
  let second ← mulDivDown first first (wad * 2)
  let third ← mulDivDown second first (wad * 3)
  return first + second + third

end Chainfolio.FixedPoint
