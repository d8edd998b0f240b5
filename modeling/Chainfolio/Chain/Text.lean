import Chainfolio.Fault

/-! Chains named in text: by chain id, or else by name in any letter case. -/
namespace Chainfolio

def Chain.ofId (id : Nat) : Except Fault Chain :=
  match Chain.ofId? id with
  | some c => .ok c
  | none => .error (.unsupportedChain id)

/-- The chain that a text names. A text that is no 64-bit integer is read as a name. -/
def Chain.parse (s : String) : Except Fault Chain :=
  match Text.parseUInt64 s with
  | .ok id => Chain.ofId id
  | .error _ =>
    match Chain.ofName? (s.map Char.toLower) with
    | some c => .ok c
    | none => .error (.config (.unknownChain s))

def Protocol.parse (s : String) : Except Fault Protocol :=
  match Protocol.ofName? s with
  | some p => .ok p
  | none => .error (.config (.unknownProtocol s))

end Chainfolio
