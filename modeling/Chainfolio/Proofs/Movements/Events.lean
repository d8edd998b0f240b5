import Mathlib.Data.List.Basic
import Chainfolio.Adapter.Events
import Chainfolio.Proofs.Node.Answers

/-! What is read from a protocol's own events. Each log of the right kind shows at most one movement, and
a node that keeps to its filter returns no other logs, so that the movements can be told log by log. -/
namespace Chainfolio

/-- The movement that a log shows when an amount is read from its event. -/
def Log.read? (log : Log) (t : ProtocolToken) (underlying : Token) (amount : Event → Option Word) :
    Option Movement := do
  let block ← log.block
  let transaction ← log.transaction
  let moved ← amount log.event
  return t.movement [.leaf underlying moved .underlying] block transaction

variable {σ : Type} {t : ProtocolToken} {underlying : Token} {kind : EventKind}
  {amount : Event → Option Word} {logs : List Log}

theorem ProtocolToken.eventMovement_eq {log : Log} (h : log.event.kind = kind) :
    t.eventMovement underlying kind amount log = .ok (log.read? t underlying amount) := by
  unfold eventMovement Log.read?
  cases log.block with
  | none => rfl
  | some block =>
    cases log.transaction with
    | none => rfl
    | some transaction =>
      simp only [h, if_true]
      cases amount log.event <;> rfl

/-- Logs of one kind show what each of them shows, in their order. -/
theorem ProtocolToken.eventMovements_eq (h : ∀ log ∈ logs, log.event.kind = kind) :
    t.eventMovements underlying kind amount logs =
      .ok (logs.filterMap fun log => log.read? t underlying amount) := by
  induction logs with
  | nil => rfl
  | cons log logs ih =>
    rw [eventMovements, eventMovement_eq (h log List.mem_cons_self),
      ih fun l hl => h l (List.mem_cons_of_mem _ hl), List.filterMap_cons]
    cases log.read? t underlying amount <;> rfl

/-- An answer whose logs are all of the kind that was asked for is read log by log. -/
theorem Provider.eventMovements_of_answer {p : Provider σ} {s : σ} {filter : LogFilter}
    {others : List Token} (hanswer : (p s).logs filter = some logs)
    (hkind : ∀ log ∈ logs, log.event.kind = filter.kind)
    (hunderlying : t.underlyings = underlying :: others) (amount : Event → Option Word) :
    p.eventMovements filter t amount s =
      (.ok (logs.filterMap fun log => log.read? t underlying amount), s) := by
  rw [Provider.eventMovements, hunderlying]
  simp only
  rw [Run.bind_ok (Provider.logs_eq_ok_iff.mpr ⟨hanswer, rfl⟩), Run.ofExcept_apply,
    ProtocolToken.eventMovements_eq hkind]

/-- Whether a node answers log queries exactly as they ask, from some logs. -/
def Node.FiltersLogs (n : Node) (logs : List Log) : Prop := ∀ f, n.logs f = some (logs.filter f.admits)

/-- What a filter does not admit shows nothing. -/
theorem Provider.eventMovements_eq {p : Provider σ} {s : σ} {filter : LogFilter}
    {others : List Token} (hnode : (p s).FiltersLogs logs)
    (hunderlying : t.underlyings = underlying :: others) (amount : Event → Option Word) :
    p.eventMovements filter t amount s =
      (.ok (logs.filterMap fun log =>
        if filter.admits log then log.read? t underlying amount else none), s) := by
  have hkind : ∀ log ∈ logs.filter filter.admits, log.event.kind = filter.kind := by
    intro log hlog
    have hadmits := (List.mem_filter.mp hlog).2
    simp only [LogFilter.admits, Bool.and_eq_true, decide_eq_true_eq] at hadmits
    exact hadmits.1.1.2
  rw [Provider.eventMovements_of_answer (hnode filter) hkind hunderlying, List.filterMap_filter]

end Chainfolio
