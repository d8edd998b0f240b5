import Chainfolio.Abi.Basic

/-! The contract functions that the products call, with their argument and result types. -/
namespace Chainfolio

inductive Method where
  | name
  | symbol
  | decimals
  | totalSupply
  | totalAssets
  | exchangeRateStored
  | supplyRatePerBlock
  | borrowRatePerBlock
  | totalBorrows
  | stEthPerToken
  | supplyQueueLength
  | balanceOf
  | borrowBalanceStored
  | asset
  | underlying
  | morpho
  | convertToAssets
  | getAllReservesTokens
  | getReserveTokensAddresses
  | getReserveData
  | getAllMarkets
  | idToMarketParams
  | market
  | position
  | borrowRateView
  | fee
  | supplyQueue
  | config
  | ownerOf
  | tokenOfOwnerByIndex
  | positions
  | collect
  | getPool
  | slot0
  | latestRoundData
  deriving DecidableEq

namespace Method

def all : List Method :=
  [name, symbol, decimals, totalSupply, totalAssets, exchangeRateStored, supplyRatePerBlock,
    borrowRatePerBlock, totalBorrows, stEthPerToken, supplyQueueLength, balanceOf,
    borrowBalanceStored, asset, underlying, morpho, convertToAssets, getAllReservesTokens,
    getReserveTokensAddresses, getReserveData, getAllMarkets, idToMarketParams, market, position,
    borrowRateView, fee, supplyQueue, config, ownerOf, tokenOfOwnerByIndex, positions, collect,
    getPool, slot0, latestRoundData]

def text : Method → String
  | name => "name"
  | symbol => "symbol"
  | decimals => "decimals"
  | totalSupply => "totalSupply"
  | totalAssets => "totalAssets"
  | exchangeRateStored => "exchangeRateStored"
  | supplyRatePerBlock => "supplyRatePerBlock"
  | borrowRatePerBlock => "borrowRatePerBlock"
  | totalBorrows => "totalBorrows"
  | stEthPerToken => "stEthPerToken"
  | supplyQueueLength => "supplyQueueLength"
  | balanceOf => "balanceOf"
  | borrowBalanceStored => "borrowBalanceStored"
  | asset => "asset"
  | underlying => "underlying"
  | morpho => "MORPHO"
  | convertToAssets => "convertToAssets"
  | getAllReservesTokens => "getAllReservesTokens"
  | getReserveTokensAddresses => "getReserveTokensAddresses"
  | getReserveData => "getReserveData"
  | getAllMarkets => "getAllMarkets"
  | idToMarketParams => "idToMarketParams"
  | market => "market"
  | position => "position"
  | borrowRateView => "borrowRateView"
  | fee => "fee"
  | supplyQueue => "supplyQueue"
  | config => "config"
  | ownerOf => "ownerOf"
  | tokenOfOwnerByIndex => "tokenOfOwnerByIndex"
  | positions => "positions"
  | collect => "collect"
  | getPool => "getPool"
  | slot0 => "slot0"
  | latestRoundData => "latestRoundData"

def ofText? (s : String) : Option Method := all.find? fun m => m.text = s

def paramsType : AbiType := .tuple [.address, .address, .address, .address, .uint 256]

def marketType : AbiType := .tuple (List.replicate 6 (.uint 128))

def inputs : Method → List AbiType
  | balanceOf | borrowBalanceStored | getReserveTokensAddresses | getReserveData => [.address]
  | convertToAssets | supplyQueue | ownerOf | positions => [.uint 256]
  | idToMarketParams | market | config => [.bytes32]
  | position => [.bytes32, .address]
  | borrowRateView => [paramsType, marketType]
  | tokenOfOwnerByIndex => [.address, .uint 256]
  | collect => [.tuple [.uint 256, .address, .uint 128, .uint 128]]
  | getPool => [.address, .address, .uint 24]
  | _ => []

def outputs : Method → List AbiType
  | name | symbol => [.string]
  | decimals => [.uint 8]
  | asset | underlying | morpho | ownerOf | getPool => [.address]
  | getAllReservesTokens => [.array (.tuple [.string, .address])]
  | getReserveTokensAddresses => [.address, .address, .address]
  | getReserveData => List.replicate 11 (.uint 256) ++ [.uint 40]
  | getAllMarkets => [.array .address]
  | idToMarketParams => [paramsType]
  | market => [marketType]
  | position => [.tuple [.uint 256, .uint 128, .uint 128]]
  | fee => [.uint 96]
  | supplyQueue => [.bytes32]
  | config => [.tuple [.uint 184, .bool, .uint 64]]
  | positions => [.uint 96, .address, .address, .address, .uint 24, .int 24, .int 24, .uint 128,
      .uint 256, .uint 256, .uint 128, .uint 128]
  | collect => [.uint 256, .uint 256]
  | slot0 => [.uint 160, .int 24, .uint 16, .uint 16, .uint 16, .uint 8, .bool]
  | latestRoundData => [.uint 80, .int 256, .uint 256, .uint 256, .uint 80]
  | _ => [.uint 256]

end Method

end Chainfolio
