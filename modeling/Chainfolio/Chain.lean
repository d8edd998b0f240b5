/-! The chains that products are deployed on. -/
namespace Chainfolio

/-- A chain, in the order of chain ids. -/
inductive Chain where
  | ethereum
  | optimism
  | bsc
  | polygon
  | fantom
  | base
  | arbitrum
  | avalanche
  | linea
  deriving DecidableEq

namespace Chain

def all : List Chain :=
  [ethereum, optimism, bsc, polygon, fantom, base, arbitrum, avalanche, linea]

def rank : Chain → Nat
  | ethereum => 0
  | optimism => 1
  | bsc => 2
  | polygon => 3
  | fantom => 4
  | base => 5
  | arbitrum => 6
  | avalanche => 7
  | linea => 8

def id : Chain → Nat
  | ethereum => 1
  | optimism => 10
  | bsc => 56
  | polygon => 137
  | fantom => 250
  | base => 8453
  | arbitrum => 42161
  | avalanche => 43114
  | linea => 59144

def name : Chain → String
  | ethereum => "ethereum"
  | optimism => "optimism"
  | bsc => "bsc"
  | polygon => "polygon"
  | fantom => "fantom"
  | base => "base"
  | arbitrum => "arbitrum"
  | avalanche => "avalanche"
  | linea => "linea"

/-- About how many blocks a day holds, as contracts on the chain count them. -/
def blocksPerDay : Chain → UInt64
  | ethereum | arbitrum => 7200
  | bsc => 28800
  | fantom => 86400
  | optimism | base | polygon | avalanche | linea => 43200

def nativeSymbol : Chain → String
  | bsc => "BNB"
  | polygon => "POL"
  | fantom => "FTM"
  | avalanche => "AVAX"
  | _ => "ETH"

def nativeName : Chain → String
  | bsc => "BNB"
  | polygon => "Polygon Ecosystem Token"
  | fantom => "Fantom"
  | avalanche => "Avalanche"
  | _ => "Ether"

def ofId? (n : Nat) : Option Chain := all.find? fun c => c.id = n

def ofName? (s : String) : Option Chain := all.find? fun c => c.name = s

theorem mem_all (c : Chain) : c ∈ all := by cases c <;> decide

theorem rank_inj {c d : Chain} (h : c.rank = d.rank) : c = d := by
  cases c <;> cases d <;> first | rfl | exact absurd h (by decide)

theorem ofId?_id (c : Chain) : ofId? c.id = some c := by cases c <;> decide

theorem ofName?_name (c : Chain) : ofName? c.name = some c := by cases c <;> decide +kernel

end Chain

end Chainfolio
