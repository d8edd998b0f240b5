import Chainfolio.Node.Metadata
import Chainfolio.Proofs.Run

/-! Questions about one block. Two nodes that agree at a block answer alike whatever is asked about it,
in one call or in several, so that what is read there cannot tell them apart. -/
namespace Chainfolio

/-- Whether two nodes give the same answers to all calls at a block and the same time of the block. -/
structure Node.AgreeAt (block : Option Block) (n n' : Node) : Prop where
  call : ∀ c : Call, c.block = block → n.call c = n'.call c
  timestamp : n.timestamp block = n'.timestamp block

theorem Node.AgreeAt.refl (block : Option Block) (n : Node) : n.AgreeAt block n :=
  ⟨fun _ _ => rfl, rfl⟩

namespace Provider

variable {σ : Type} {p : Provider σ} {block : Option Block} {R : σ → σ → Prop}
  (hnode : ∀ s s', R s s' → (p s).AgreeAt block (p s'))
include hnode

theorem call_agrees {c : Call} (hc : c.block = block) : (p.call c).Agrees R := by
  refine Run.agrees_read_bind (fun s s' h => by rw [(hnode s s' h).call c hc]) fun s _ _ => ?_
  split
  · split
    · exact Run.agrees_pure _
    · exact Run.agrees_throw _
  · exact Run.agrees_throw _

theorem timestamp_agrees : (p.timestamp block).Agrees R := by
  refine Run.agrees_read_bind (fun s s' h => by rw [(hnode s s' h).timestamp]) fun s _ _ => ?_
  split
  · exact Run.agrees_pure _
  · exact Run.agrees_throw _
  · exact Run.agrees_throw _

theorem multicall_agrees {calls : List Call} (hcalls : ∀ c ∈ calls, c.block = block) :
    (p.multicall calls).Agrees R := by
  have hreplies (s s' : σ) (h : R s s') : (calls.mapM fun c => (p s).call { c with sender := none }) =
      calls.mapM fun c => (p s').call { c with sender := none } := by
    have hmap := List.map_congr_left fun c hc =>
      (hnode s s' h).call { c with sender := none } (hcalls c hc)
    simpa only [List.mapM_map, Function.comp_def, id_eq] using congrArg (List.mapM id) hmap
  refine Run.agrees_read_bind (fun s s' h => by rw [hreplies s s' h]) fun s _ _ => ?_
  split
  · exact Run.agrees_pure _
  · exact Run.agrees_throw _

theorem aggregate_agrees {calls : List Call} (hcalls : ∀ c ∈ calls, c.block = block) :
    (p.aggregate calls).Agrees R :=
  (multicall_agrees hnode hcalls).bind fun _ => Run.agrees_ofOption _ _

theorem word_agrees {c : Call} (hc : c.block = block) : (p.word c).Agrees R := by
  refine (call_agrees hnode hc).bind fun values => ?_
  split
  · exact Run.agrees_pure _
  · exact Run.agrees_throw _

theorem words_agrees {c : Call} (hc : c.block = block) : (p.words c).Agrees R :=
  (call_agrees hnode hc).bind fun _ => Run.agrees_ofOption _ _

theorem address_agrees {c : Call} (hc : c.block = block) : (p.address c).Agrees R :=
  (word_agrees hnode hc).bind fun _ => Run.agrees_pure _

end Provider

/-- What tokens say about themselves is read at the latest block. -/
theorem Provider.token_agrees {σ : Type} {p : Provider σ} {R : σ → σ → Prop}
    (hnode : ∀ s s', R s s' → (p s).AgreeAt none (p s')) (chain : Chain) (address : Address) :
    (p.token chain address).Agrees R := by
  unfold token
  split
  · exact Run.agrees_pure _
  · refine (multicall_agrees hnode (by simp)).bind fun replies => ?_
    split
    · exact Run.agrees_ofExcept _
    · exact Run.agrees_throw _

end Chainfolio
