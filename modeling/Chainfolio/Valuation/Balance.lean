import Chainfolio.Position
import Chainfolio.Wei

/-! Fiat value of position trees. An amount is worth its price leaf if it has one, else the sum of
its children; a branch that ends without a price has no value. -/
namespace Chainfolio

namespace Valuation

def add (a b : Decimal) : Except Fault Decimal :=
  match a.add b with
  | some c => .ok c
  | none => .error (.math (.sum a b))

def sub (a b : Decimal) : Except Fault Decimal :=
  match a.sub b with
  | some c => .ok c
  | none => .error (.math (.difference a b))

/-- An amount of a token as a decimal; a byte of decimals never makes the scale wrap to zero. -/
def amount (balance : Word) (decimals : UInt8) : Except Fault Decimal :=
  (Wei.toDecimal balance decimals.toUInt32).getD (.error (.math .divisionByZero))

def priced (token : Token) (balance : Word) (price : Underlying) : Except Fault Decimal := do
  let amount ← Valuation.amount balance token.decimals
  let price ← Valuation.amount price.balance price.token.decimals
  match amount.mul price with
  | some v => .ok v
  | none => .error (.math (.fiatValue token.address))

end Valuation

mutual

def Underlying.value : Underlying → Except Fault Decimal
  | ⟨token, balance, _, tokens⟩ =>
    match tokens.find? fun t => t.kind = .fiat with
    | some price => Valuation.priced token balance price
    | none =>
      match tokens with
      | [] => .error (.missingFiatLeaf token.address)
      | u :: rest => Underlying.sumValues (u :: rest) .zero

/-- A sum with the values of some amounts added, from left to right. -/
def Underlying.sumValues : List Underlying → Decimal → Except Fault Decimal
  | [], sum => .ok sum
  | u :: rest, sum => do
    let v ← u.value
    Underlying.sumValues rest (← Valuation.add sum v)

end

def Position.value (p : Position) : Except Fault Decimal :=
  Underlying.value ⟨p.token, p.balance, p.kind, p.tokens⟩

def Movement.value (m : Movement) : Except Fault Decimal :=
  match m.tokens with
  | [] => .error (.missingFiatLeaf m.protocolToken.token.address)
  | tokens => Underlying.sumValues tokens .zero

/-- What balances are kept by: a protocol token and, for NFTs, an id. -/
structure PositionKey where
  address : Address
  tokenId : Option String
  deriving DecidableEq

/-- Absent ids come first, then ids in text order. -/
def PositionKey.idBefore : Option String → Option String → Bool
  | none, some _ => true
  | some a, some b => a < b
  | _, none => false

def PositionKey.before (a b : PositionKey) : Bool :=
  a.address.bits < b.address.bits || (a.address = b.address && idBefore a.tokenId b.tokenId)

structure FiatBalance where
  token : Token
  tokenId : Option String
  value : Decimal

def FiatBalance.key (b : FiatBalance) : PositionKey := ⟨b.token.address, b.tokenId⟩

/-- Balances in ascending order of key, one per key. -/
abbrev Balances := List (PositionKey × FiatBalance)

namespace Balances

def find? (key : PositionKey) : Balances → Option FiatBalance
  | [] => none
  | (k, b) :: rest => if k = key then some b else find? key rest

/-- Puts a balance under its key, replacing the one that stood there. -/
def insert (b : FiatBalance) : Balances → Balances
  | [] => [(b.key, b)]
  | (k, c) :: rest =>
    if k = b.key then (b.key, b) :: rest
    else if b.key.before k then (b.key, b) :: (k, c) :: rest
    else (k, c) :: insert b rest

/-- Adds a value to the balance of a token, which keeps its first description. -/
def credit (b : FiatBalance) (balances : Balances) : Except Fault Balances :=
  match balances.find? b.key with
  | none => .ok (balances.insert b)
  | some held => do
    let value ← Valuation.add held.value b.value
    return balances.insert { held with value := value }

/-- The balances of a list; a later one replaces an earlier one of the same key. -/
def ofList (items : List FiatBalance) : Balances :=
  items.foldl (fun balances b => balances.insert b) []

def ofPositions : List Position → Balances → Except Fault Balances
  | [], balances => .ok balances
  | p :: rest, balances => do
    let value ← p.value
    ofPositions rest (← balances.credit ⟨p.token, p.tokenId, value⟩)

def ofMovements : List Movement → Balances → Except Fault Balances
  | [], balances => .ok balances
  | m :: rest, balances => do
    let value ← m.value
    ofMovements rest (← balances.credit ⟨m.protocolToken.token, m.protocolToken.tokenId, value⟩)

end Balances

/-- The fiat value of positions by protocol token. -/
def aggregatePositions (positions : List Position) : Except Fault Balances :=
  Balances.ofPositions positions []

/-- The fiat value that movements moved, by protocol token. -/
def aggregateMovements (movements : List Movement) : Except Fault Balances :=
  Balances.ofMovements movements []

end Chainfolio
