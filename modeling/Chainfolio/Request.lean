import Chainfolio.Word

/-! What callers ask of an adapter. An absent block means the latest one. -/
namespace Chainfolio

/-- Asks for the positions of a user, of some protocol tokens only when they are given. -/
structure PositionsRequest where
  user : Address
  block : Option Block := none
  tokens : Option (List Address) := none
  tokenIds : Option (List String) := none
  deriving DecidableEq

/-- Asks for the movements of a user within a range of blocks, ends included. -/
structure EventsRequest where
  user : Address
  token : Address
  fromBlock : Block
  toBlock : Block
  tokenId : Option String := none
  deriving DecidableEq

structure SupplyRequest where
  tokens : Option (List Address) := none
  block : Option Block := none
  deriving DecidableEq

structure UnwrapRequest where
  token : Address
  block : Option Block := none
  tokenId : Option String := none
  deriving DecidableEq

structure RateRequest where
  token : Address
  block : Option Block := none
  deriving DecidableEq

/-- Asks for the rewards that a position can claim. -/
structure RewardRequest where
  user : Address
  token : Address
  block : Option Block := none
  tokenId : Option String := none
  deriving DecidableEq

end Chainfolio
