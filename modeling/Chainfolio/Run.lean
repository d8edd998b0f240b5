import Chainfolio.Fault

/-! Operations that read and write a state and may fail. What was written before a failure stays. -/
namespace Chainfolio

/-- An operation over a state of type `σ`. -/
abbrev Run (σ : Type) := ExceptT Fault (StateM σ)

namespace Run

variable {σ : Type}

/-- The outcome of a computation that does not touch the state. -/
def ofExcept {α : Type} (r : Except Fault α) : Run σ α :=
  match r with
  | .ok a => pure a
  | .error e => throw e

/-- A value that has to be present. -/
def ofOption {α : Type} (fault : Fault) (a : Option α) : Run σ α :=
  match a with
  | some a => pure a
  | none => throw fault

def read {α : Type} (f : σ → α) : Run σ α := fun s => (.ok (f s), s)

def update (f : σ → σ) : Run σ Unit := fun s => (.ok (), f s)

def outcome {α : Type} (x : Run σ α) : Run σ (Except Fault α) := fun s =>
  let (r, s) := x s
  (.ok r, s)

/-- Runs an operation on the second part of a state. -/
def onSecond {ρ α : Type} (x : Run σ α) : Run (ρ × σ) α := fun (r, s) =>
  let (a, s) := x s
  (a, r, s)

/-- Runs an operation for every item, in order, up to the first failure. -/
def forEach {α β : Type} (f : α → Run σ β) : List α → Run σ (List β)
  | [] => pure []
  | a :: rest => do
    let b ← f a
    return b :: (← forEach f rest)

/-- Like `forEach`, keeping only the results that are present. -/
def filterEach {α β : Type} (f : α → Run σ (Option β)) (items : List α) : Run σ (List β) := do
  return (← forEach f items).filterMap id

/-- Runs an operation for each of the next `count` numbers, in order, up to the first failure. -/
def forRange {β : Type} (f : Nat → Run σ β) : (count first : Nat) → Run σ (List β)
  | 0, _ => pure []
  | count + 1, first => do
    let b ← f first
    return b :: (← forRange f count (first + 1))

end Run

/-- A part of a state that can be read and replaced. -/
structure Slot (σ α : Type) where
  get : σ → α
  set : α → σ → σ

/-- Runs an operation on a part of a state. -/
def Slot.run {σ α β : Type} (slot : Slot σ α) (x : Run α β) : Run σ β := fun s =>
  let (r, a) := x (slot.get s)
  (r, slot.set a s)

end Chainfolio
