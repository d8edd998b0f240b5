/-! The protocols that the library has products of. -/
namespace Chainfolio

/-- A protocol, in listing order. -/
inductive Protocol where
  | aaveV3
  | compoundV2
  | morphoBlue
  | metaMorpho
  | lido
  | uniswapV3
  | prices
  deriving DecidableEq

namespace Protocol

def all : List Protocol :=
  [aaveV3, compoundV2, morphoBlue, metaMorpho, lido, uniswapV3, prices]

def rank : Protocol → Nat
  | aaveV3 => 0
  | compoundV2 => 1
  | morphoBlue => 2
  | metaMorpho => 3
  | lido => 4
  | uniswapV3 => 5
  | prices => 6

def name : Protocol → String
  | aaveV3 => "aave-v3"
  | compoundV2 => "compound-v2"
  | morphoBlue => "morpho-blue"
  | metaMorpho => "metamorpho"
  | lido => "lido"
  | uniswapV3 => "uniswap-v3"
  | prices => "prices"

def ofName? (s : String) : Option Protocol := all.find? fun p => p.name = s

theorem mem_all (p : Protocol) : p ∈ all := by cases p <;> decide

theorem rank_inj {p q : Protocol} (h : p.rank = q.rank) : p = q := by
  cases p <;> cases q <;> first | rfl | exact absurd h (by decide)

theorem ofName?_name (p : Protocol) : ofName? p.name = some p := by cases p <;> decide +kernel

end Protocol

end Chainfolio
