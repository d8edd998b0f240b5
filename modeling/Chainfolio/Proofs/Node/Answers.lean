import Chainfolio.Node.Basic
import Chainfolio.Proofs.Run

/-! What a node answers, and what operations make of it. Calls only read: the state stays as it is, and
what comes out are the values of the replies. -/
namespace Chainfolio

/-- The values that a node answers a call with, if the call succeeds. -/
def Node.values? (n : Node) (c : Call) : Option (List AbiValue) :=
  (n.call c).bind fun r => r.values? c.method

namespace Provider

variable {σ : Type} {p : Provider σ} {c : Call} {calls : List Call} {s s' : σ}

theorem call_eq (p : Provider σ) (c : Call) (s : σ) :
    p.call c s = Run.ofOption .contract ((p s).values? c) s := by
  rw [call, Run.bind_ok (Run.read_apply p s), Node.values?]
  cases hreply : (p s).call c with
  | none => rfl
  | some r =>
    simp only [Option.bind_some]
    cases r.values? c.method <;> rfl

theorem word_eq_ok_iff {w : Word} :
    p.word c s = (.ok w, s') ↔ (p s).values? c = some [.word w] ∧ s' = s := by
  constructor
  · intro h
    obtain ⟨values, middle, hcall, hword⟩ := Run.bind_eq_ok_iff.mp h
    rw [call_eq, Run.ofOption_eq_ok_iff] at hcall
    obtain ⟨hvalues, rfl⟩ := hcall
    split at hword
    · cases hword
      exact ⟨hvalues, rfl⟩
    · cases hword
  · rintro ⟨hvalues, rfl⟩
    exact Run.bind_ok ((call_eq p c s').trans (Run.ofOption_eq_ok_iff.mpr ⟨hvalues, rfl⟩))

theorem words_eq (p : Provider σ) (c : Call) (s : σ) :
    p.words c s = Run.ofOption .contract (((p s).values? c).bind AbiValue.words?) s := by
  rw [words, Run.bind_apply, call_eq]
  cases (p s).values? c <;> rfl

theorem logs_eq_ok_iff {f : LogFilter} {logs : List Log} :
    p.logs f s = (.ok logs, s') ↔ (p s).logs f = some logs ∧ s' = s := by
  rw [Provider.logs, Run.bind_ok (Run.read_apply p s)]
  cases (p s).logs f with
  | none => exact ⟨nofun, nofun⟩
  | some answered => exact Run.pure_eq_ok_iff.trans (by rw [Option.some.injEq])

/-- Several calls at once are answered when the node replies to each of them. -/
theorem multicall_eq (p : Provider σ) (calls : List Call) (s : σ) :
    p.multicall calls s =
      Run.ofOption .multicall (calls.mapM fun c => (p s).call { c with sender := none }) s := by
  rw [multicall, Run.bind_ok (Run.read_apply p s)]
  cases calls.mapM fun c => (p s).call { c with sender := none } <;> rfl

/-- What comes out of several calls are the values of each of them. -/
theorem values_of_aggregate {results : List (List AbiValue)}
    (h : p.aggregate calls s = (.ok results, s')) :
    List.Forall₂ (fun c values => (p s).values? { c with sender := none } = some values) calls results ∧
      s' = s := by
  obtain ⟨replies, middle, hreplies, hresults⟩ := Run.bind_eq_ok_iff.mp h
  rw [multicall_eq, Run.ofOption_eq_ok_iff, mapM_eq_some_iff] at hreplies
  obtain ⟨hreplies, rfl⟩ := hreplies
  obtain ⟨hvalues, rfl⟩ := Run.ofOption_eq_ok_iff.mp hresults
  rw [mapM_eq_some_iff] at hvalues
  refine ⟨?_, rfl⟩
  clear h hresults
  induction hreplies generalizing results with
  | nil =>
    cases hvalues
    exact .nil
  | cons hreply _ ih =>
    obtain _ | ⟨hfirst, hrest⟩ := hvalues
    refine .cons ?_ (ih hrest)
    rw [Node.values?, hreply]
    exact hfirst

end Provider

end Chainfolio
