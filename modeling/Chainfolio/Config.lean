import Chainfolio.Chain.Text
import Chainfolio.Codec.Product
import Chainfolio.Json.Reader
import Chainfolio.Url.Basic

/-! Configuration: an endpoint per chain, the directory of the metadata cache, and how deep positions
are resolved. It starts from public endpoints, may be read from a file, and is then overridden by
environment variables in list order. -/
namespace Chainfolio

/-- How deep positions are resolved unless told otherwise. -/
def defaultResolveDepth : Nat := 5

/-- The settings of a run; chains without an endpoint get no adapters. -/
structure Config where
  rpc : Chain → Option Url
  metadataDir : Option String
  resolveDepth : Nat

namespace Config

def publicRpc : Chain → String
  | .ethereum => "https://eth.llamarpc.com"
  | .optimism => "https://mainnet.optimism.io"
  | .bsc => "https://bsc-dataseed.binance.org"
  | .polygon => "https://polygon-rpc.com"
  | .fantom => "https://rpc.ftm.tools"
  | .base => "https://mainnet.base.org"
  | .arbitrum => "https://arb1.arbitrum.io/rpc"
  | .avalanche => "https://api.avax.network/ext/bc/C/rpc"
  | .linea => "https://rpc.linea.build"

/-- Public endpoints, no cache directory. -/
def standard : Config :=
  ⟨fun c => (Url.parse (publicRpc c)).toOption, none, defaultResolveDepth⟩

def setRpc (c : Config) (chain : Chain) (url : Url) : Config :=
  { c with rpc := fun d => if d = chain then some url else c.rpc d }

/-- What an environment variable is about. -/
inductive Setting where
  | rpc (chain : String)
  | metadataDir
  | resolveDepth
  | other
  deriving DecidableEq

/-- The text after a common beginning, if the name has it. -/
def after? : List Char → List Char → Option (List Char)
  | [], rest => some rest
  | _ :: _, [] => none
  | c :: start, d :: rest => if c = d then after? start rest else none

/-- The setting that a variable's name stands for. -/
def Setting.ofName (name : String) : Setting :=
  match after? "DEFI_RPC_".toList name.toList with
  | some chain => .rpc (String.ofList chain)
  | none =>
    if name = "DEFI_METADATA_DIR" then .metadataDir
    else if name = "DEFI_RESOLVE_DEPTH" then .resolveDepth
    else .other

def apply (c : Config) (name value : String) : Except Fault Config :=
  match Setting.ofName name with
  | .rpc chain => do
    let chain ← Chain.parse chain
    match Url.parse value with
    | .ok url => .ok (c.setRpc chain url)
    | .error cause => .error (.config (.invalidUrl name value cause))
  | .metadataDir => .ok { c with metadataDir := some value }
  | .resolveDepth =>
    match Text.parseUInt64 value with
    | .ok depth => .ok { c with resolveDepth := depth }
    | .error cause => .error (.config (.invalidNumber name cause))
  | .other => .ok c

/-- Applies environment variables in list order; the first offending one fails. -/
def mergeEnv (c : Config) : List (String × String) → Except Fault Config
  | [] => .ok c
  | (name, value) :: rest => do (← c.apply name value).mergeEnv rest

def withChains (c : Config) (chains : List Chain) : Config :=
  { c with rpc := fun d => if d ∈ chains then c.rpc d else none }

/-- Reads endpoints by chain name; the last of repeated chains wins. -/
def rpcOfFields? : List (String × Json) → Option (Chain → Option Url)
  | [] => some fun _ => none
  | (name, j) :: rest => do
    let chain ← Chain.ofName? name
    let url ← j.text?.bind fun s => (Url.parse s).toOption
    let later ← rpcOfFields? rest
    return fun c => (later c).orElse fun _ => if c = chain then some url else none

def rpcOfJson? : Json → Option (Chain → Option Url)
  | .obj fields => rpcOfFields? fields
  | _ => none

/-- Reads a configuration; missing fields keep their standard values. -/
def ofJson? (j : Json) : Option Config := do
  let r ← JsonRecord.read? ["rpc", "metadataDir", "resolveDepth"] j
  return {
    rpc := ← r.defaulted "rpc" rpcOfJson? standard.rpc
    metadataDir := ← r.optional "metadataDir" Json.text?
    resolveDepth := ← r.defaulted "resolveDepth" (Json.natBelow? UInt64.size) defaultResolveDepth }

def toJson (c : Config) : Json :=
  .obj [("rpc", .obj (Chain.all.filterMap fun d => (c.rpc d).map fun url => (d.name, .str url.text))),
    ("metadataDir", Json.ofOption .str c.metadataDir), ("resolveDepth", Json.nat c.resolveDepth)]

/-- Reads the contents of a configuration file, which may be missing. -/
def ofFile (contents : Option String) : Except Fault Config :=
  match contents with
  | none => .error .io
  | some text =>
    match (Json.parse? text).bind ofJson? with
    | some c => .ok c
    | none => .error .json

end Config

end Chainfolio
