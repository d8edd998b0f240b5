import Chainfolio.Adapter.Pool

/-! Movements that a protocol announces by events of its own. Each event moves an amount of the first
underlying token; pending logs are left out, and so are events that are not the user's. -/
namespace Chainfolio

variable {σ : Type}

/-- The movement that a log shows; none if it is pending or not the user's. -/
def ProtocolToken.eventMovement (t : ProtocolToken) (underlying : Token) (kind : EventKind)
    (amount : Event → Option Word) (log : Log) : Except Fault (Option Movement) :=
  match log.block, log.transaction with
  | some block, some transaction =>
    if log.event.kind = kind then
      .ok ((amount log.event).map fun a =>
        t.movement [.leaf underlying a .underlying] block transaction)
    else .error .abi
  | _, _ => .ok none

def ProtocolToken.eventMovements (t : ProtocolToken) (underlying : Token) (kind : EventKind)
    (amount : Event → Option Word) : List Log → Except Fault (List Movement)
  | [] => .ok []
  | log :: rest => do
    let movement ← t.eventMovement underlying kind amount log
    let movements ← t.eventMovements underlying kind amount rest
    return movement.toList ++ movements

/-- The movements that the logs of a filter show. Without an underlying token there are none. -/
def Provider.eventMovements (p : Provider σ) (filter : LogFilter) (t : ProtocolToken)
    (amount : Event → Option Word) : Run σ (List Movement) := do
  match t.underlyings with
  | [] => return []
  | underlying :: _ =>
    let logs ← p.logs filter
    Run.ofExcept (t.eventMovements underlying filter.kind amount logs)

/-- The amount of an event, if the party that it names is the user. -/
def amountOf (user : Address) : Address × Word → Option Word
  | (party, amount) => if party = user then some amount else none

end Chainfolio
