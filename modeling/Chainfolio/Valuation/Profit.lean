import Chainfolio.Product
import Chainfolio.Valuation.Balance

/-! Profit between two snapshots. Supplied value earns what it grew by and what was taken out, less
what was put in; debt counts the other way round. -/
namespace Chainfolio

/-- Fiat movements of a range by kind. -/
structure RangeMovements where
  deposits : Balances := []
  withdrawals : Balances := []
  borrows : Balances := []
  repays : Balances := []

structure Profit where
  token : Token
  tokenId : Option String
  startValue : Decimal
  endValue : Decimal
  profit : Decimal

namespace Profit

/-- Inserts a key into keys in ascending order, unless it is there. -/
def insertKey (key : PositionKey) : List PositionKey → List PositionKey
  | [] => [key]
  | k :: rest =>
    if k = key then k :: rest
    else if key.before k then key :: k :: rest
    else k :: insertKey key rest

/-- The maps that a key may occur in, in the order that describes its token. -/
def sources (start finish : Balances) (m : RangeMovements) : List Balances :=
  [start, finish, m.deposits, m.withdrawals, m.borrows, m.repays]

def keys (maps : List Balances) : List PositionKey :=
  (maps.flatMap fun b => b.map Prod.fst).foldl (fun ks k => insertKey k ks) []

def valueOf (b : Balances) (key : PositionKey) : Decimal :=
  match b.find? key with
  | some held => held.value
  | none => .zero

def ofKey (type : PositionType) (start finish : Balances) (m : RangeMovements)
    (key : PositionKey) (token : Token) : Except Fault Profit := do
  let startValue := valueOf start key
  let endValue := valueOf finish key
  let change ← Valuation.sub endValue startValue
  let profit ← match type with
    | .borrow => do
      let grown ← Valuation.add change.neg (valueOf m.borrows key)
      Valuation.sub grown (valueOf m.repays key)
    | _ => do
      let grown ← Valuation.add change (valueOf m.withdrawals key)
      Valuation.sub grown (valueOf m.deposits key)
  return ⟨token, key.tokenId, startValue, endValue, profit⟩

/-- The profits under some keys; a key that no map holds has none. -/
def ofKeys (type : PositionType) (start finish : Balances) (m : RangeMovements) :
    List PositionKey → Except Fault (List Profit)
  | [] => .ok []
  | key :: rest =>
    match (sources start finish m).findSome? (Balances.find? key) with
    | none => ofKeys type start finish m rest
    | some held => do
      let p ← ofKey type start finish m key held.token
      return p :: (← ofKeys type start finish m rest)

end Profit

/-- The profit of each protocol token between two snapshots, in order of key. -/
def calculateProfits (type : PositionType) (start finish : Balances) (m : RangeMovements) :
    Except Fault (List Profit) :=
  Profit.ofKeys type start finish m (Profit.keys (Profit.sources start finish m))

end Chainfolio
