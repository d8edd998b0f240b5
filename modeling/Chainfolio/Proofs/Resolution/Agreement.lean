import Chainfolio.Proofs.Adapter.Agreement
import Chainfolio.Proofs.Registry.History
import Chainfolio.Proofs.Resolution.Derivation
import Chainfolio.Resolution.Registry

/-! Resolution at a block. Each token is unwrapped by the adapter that lists it and priced by the adapter of
prices, both at the block, so that what positions consist of is the same in all worlds whose nodes agree
there. -/
namespace Chainfolio

variable {σ τ : Type}

/-! ### Oracles -/

/-- Whether an oracle answers alike in related states. -/
structure Oracle.Agrees (o : Oracle τ) (R : τ → τ → Prop) : Prop where
  owner : ∀ address, (o.owner address).Agrees R
  unwrap : ∀ {address t t' unwrap}, R t t' → (o.owner address t).1 = .ok (some unwrap) →
    unwrap.Agrees R
  price : ∀ token, (o.price token).Agrees R

namespace Resolution

variable {o : Oracle τ} {R : τ → τ → Prop} {fiat : Bool} {depth : Nat} {us : List Underlying}
  {s s' t : τ} {r : Except Fault (List Underlying)}

theorem priceLeaf_agrees (ho : o.Agrees R) (fiat : Bool) (token : Token) :
    (priceLeaf o fiat token).Agrees R := by
  cases fiat with
  | false => exact Run.agrees_pure _
  | true => exact (ho.price token).bind fun _ => Run.agrees_pure _

theorem finding_agrees (ho : o.Agrees R) (fiat : Bool) (depth : Nat) (token : Token)
    (balance : Word) : (finding o fiat depth token balance).Agrees R := by
  have hprice := (priceLeaf_agrees ho fiat token).bind fun leaf => Run.agrees_pure (Finding.price leaf)
  refine (ho.owner token.address).bind_of fun s s' owner h howner => ?_
  cases owner with
  | none => exact hprice
  | some unwrap =>
    cases depth with
    | zero => exact hprice
    | succ depth =>
      refine (ho.unwrap h howner).bind fun rate => ?_
      exact (Run.agrees_ofExcept _).bind fun _ => Run.agrees_pure _

/-- A derivation from one state is one from every related state. -/
theorem Resolves.agrees (ho : o.Agrees R) (h : Resolves o fiat depth us s r s') (hs : R s t) :
    ∃ t', Resolves o fiat depth us t r t' ∧ R s' t' := by
  induction h generalizing t with
  | nil => exact ⟨t, .nil, hs⟩
  | price _ ih =>
    obtain ⟨t', hrest, hs'⟩ := ih hs
    exact ⟨t', .price hrest, hs'⟩
  | nested hkind hbelow _ _ ihfirst ih =>
    obtain ⟨t₁, hfirst, hs₁⟩ := ihfirst hs
    obtain ⟨t', hrest, hs'⟩ := ih hs₁
    exact ⟨t', .nested hkind hbelow hfirst hrest, hs'⟩
  | nestedFails hkind hbelow _ ihfirst =>
    obtain ⟨t', hfirst, hs'⟩ := ihfirst hs
    exact ⟨t', .nestedFails hkind hbelow hfirst, hs'⟩
  | unwrapped hkind found _ _ ihfirst ih =>
    obtain ⟨t₁, hfound, hs₁⟩ := (finding_agrees ho _ _ _ _).of_apply found hs
    obtain ⟨t₂, hfirst, hs₂⟩ := ihfirst hs₁
    obtain ⟨t', hrest, hs'⟩ := ih hs₂
    exact ⟨t', .unwrapped hkind hfound hfirst hrest, hs'⟩
  | unwrappedFails hkind found _ ihfirst =>
    obtain ⟨t₁, hfound, hs₁⟩ := (finding_agrees ho _ _ _ _).of_apply found hs
    obtain ⟨t', hfirst, hs'⟩ := ihfirst hs₁
    exact ⟨t', .unwrappedFails hkind hfound hfirst, hs'⟩
  | plain hkind found _ ih =>
    obtain ⟨t₁, hfound, hs₁⟩ := (finding_agrees ho _ _ _ _).of_apply found hs
    obtain ⟨t', hrest, hs'⟩ := ih hs₁
    exact ⟨t', .plain hkind hfound hrest, hs'⟩
  | fails hkind found =>
    obtain ⟨t', hfound, hs'⟩ := (finding_agrees ho _ _ _ _).of_apply found hs
    exact ⟨t', .fails hkind hfound, hs'⟩

theorem resolve_agrees (ho : o.Agrees R) (options : Options) (us : List Underlying) :
    (resolve o options us).Agrees R := by
  intro s t hs
  obtain ⟨r, s', h⟩ := exists_resolves o options.fiatPrices options.depth us s
  obtain ⟨t', h', hs'⟩ := h.agrees ho hs
  rw [resolve, h.run, h'.run]
  exact ⟨rfl, hs'⟩

theorem positions_agrees (ho : o.Agrees R) (options : Options) (ps : List Position) :
    (positions o options ps).Agrees R :=
  Run.agrees_forEach fun p _ => (resolve_agrees ho options p.tokens).bind fun _ => Run.agrees_pure _

end Resolution

/-! ### Registries -/

namespace Registry

variable {R : σ → σ → Prop} {chain : Chain} {block : Option Block} {r : Registry σ}

/-- Whether the index that is remembered for a chain, if there is one, was built from the registry's own
adapters in some world. -/
def HasOwnIndex (r : Registry σ) (chain : Chain) : Prop :=
  ∀ index, r.indexes chain = some index → ∃ world, (r.buildIndex chain world).1 = .ok index

/-- Registries remember nothing else, whatever happened to them. -/
theorem Remembers.hasOwnIndex {worlds : List σ} (h : r.Remembers chain worlds) :
    r.HasOwnIndex chain := by
  intro index hindex
  obtain ⟨world, -, hbuilt⟩ := h.built index hindex
  exact ⟨world, hbuilt⟩

/-- A registry answers alike in related states when its adapters are the same there, the owner of a token is
found alike among those of the chain, and these unwrap alike. -/
theorem oracle_agrees_of {R : Registry σ × σ → Registry σ × σ → Prop}
    (hsame : ∀ t t', R t t' → t.1.adapters = t'.1.adapters)
    (howner : ∀ address, (tokenAdapter chain address).Agrees R)
    (hmem : ∀ t t' address a, R t t' → (tokenAdapter chain address t).1 = .ok (some a) →
      a ∈ t.1.adaptersFor chain)
    (hunwrap : ∀ {t t'} a, R t t' → a ∈ t.1.adaptersFor chain → ∀ address,
      (Run.onSecond (a.unwrap { token := address, block := block })).Agrees R) :
    (oracle chain block).Agrees R where
  owner address := (howner address).bind fun _ => Run.agrees_pure _
  unwrap {address t t' unwrap} h hfound := by
    obtain ⟨found, middle, hfound, hanswer⟩ := Run.bind_eq_ok_iff.mp (Prod.ext hfound rfl)
    cases found with
    | none => cases hanswer
    | some a =>
      cases hanswer
      exact hunwrap a h (hmem t t' address a h (congrArg Prod.fst hfound)) address
  price token := by
    refine Run.agrees_read_bind (fun t t' h => by rw [find?, find?, hsame t t' h]) fun t t' h => ?_
    cases hfound : t.1.find? ⟨chain, .prices, Prices.product⟩ with
    | none => exact Run.agrees_pure _
    | some a =>
      have hkey : a.key = ⟨chain, .prices, Prices.product⟩ := by
        simpa using List.find?_some hfound
      have ha : a ∈ t.1.adaptersFor chain :=
        List.mem_filter.mpr ⟨List.mem_of_find?_eq_some hfound, by simp [hkey]⟩
      exact (Run.agrees_outcome (hunwrap a h ha token.address)).bind fun _ => Run.agrees_ofExcept _

/-- The same registry, whose adapters on a chain answer alike at a block, beside related worlds. -/
structure Beside (chain : Chain) (block : Option Block) (R : σ → σ → Prop) (t t' : Registry σ × σ) :
    Prop where
  same : t.1 = t'.1
  own : t.1.HasOwnIndex chain
  agrees : ∀ a ∈ t.1.adaptersFor chain, a.AgreesAt block R
  worlds : R t.2 t'.2

theorem owner_mem_adaptersFor {index : TokenIndex σ} {world : σ}
    (hbuilt : (r.buildIndex chain world).1 = .ok index) {address : Address} {a : Adapter σ}
    (howner : index.owner? address = some a) : a ∈ r.adaptersFor chain := by
  have hanswer : r.answer chain address world = .ok (some a) := by
    rw [answer, hbuilt]
    exact congrArg Except.ok howner
  exact (mem_unwrapping_of_lists (answer_eq_some_iff.mp hanswer).2).1

theorem onSecond_agrees {α : Type} {x : Run σ α} (hx : x.Agrees R) :
    (Run.onSecond x : Run (Registry σ × σ) α).Agrees (Beside chain block R) :=
  fun _ _ h => ⟨(hx _ _ h.worlds).1, h.same, h.own, h.agrees, (hx _ _ h.worlds).2⟩

theorem buildIndex_agrees (hlistings : ∀ a ∈ r.adaptersFor chain, a.protocolTokens.Agrees R) :
    (r.buildIndex chain).Agrees R := by
  refine Run.Agrees.bind (Run.agrees_forEach fun a ha => ?_) fun _ => Run.agrees_ofExcept _
  have hlisting := hlistings a (List.mem_of_mem_filter ha)
  exact (Run.agrees_outcome hlisting).bind fun _ => Run.agrees_pure _

/-- The owner of a token is found alike: in the index that both remember, or in one that is built from the
same listings. -/
theorem tokenAdapter_agrees (chain : Chain) (address : Address) :
    (tokenAdapter chain address).Agrees (Beside (σ := σ) chain block R) := by
  rintro ⟨r, s⟩ ⟨r', s'⟩ ⟨hsame, hown, hagrees, hworlds⟩
  cases hsame
  have hbuilds := buildIndex_agrees fun a ha => (hagrees a ha).protocolTokens
  cases hindex : r.indexes chain with
  | some index =>
    rw [tokenAdapter_of_remembered hindex, tokenAdapter_of_remembered hindex]
    exact ⟨rfl, rfl, hown, hagrees, hworlds⟩
  | none =>
    rcases hbuilt : r.buildIndex chain s with ⟨fault | index, w⟩
    · obtain ⟨w', hbuilt', hafter⟩ := hbuilds.of_apply hbuilt hworlds
      rw [tokenAdapter_of_not_built hindex hbuilt, tokenAdapter_of_not_built hindex hbuilt']
      exact ⟨rfl, rfl, hown, hagrees, hafter⟩
    · obtain ⟨w', hbuilt', hafter⟩ := hbuilds.of_apply hbuilt hworlds
      rw [tokenAdapter_of_built hindex hbuilt, tokenAdapter_of_built hindex hbuilt']
      refine ⟨rfl, rfl, fun index' hindex' => ?_, hagrees, hafter⟩
      obtain rfl := Option.some.inj ((if_pos rfl).symm.trans hindex')
      exact ⟨s, congrArg Prod.fst hbuilt⟩

theorem tokenAdapter_mem (t t' : Registry σ × σ) (address : Address) (a : Adapter σ)
    (h : Beside chain block R t t') (howner : (tokenAdapter chain address t).1 = .ok (some a)) :
    a ∈ t.1.adaptersFor chain := by
  cases hindex : t.1.indexes chain with
  | some index =>
    rw [tokenAdapter_of_remembered hindex] at howner
    obtain ⟨world, hbuilt⟩ := h.own index hindex
    exact owner_mem_adaptersFor hbuilt (Except.ok.inj howner)
  | none =>
    rcases hbuilt : t.1.buildIndex chain t.2 with ⟨fault | index, w⟩
    · rw [tokenAdapter_of_not_built hindex hbuilt] at howner
      cases howner
    · rw [tokenAdapter_of_built hindex hbuilt] at howner
      exact owner_mem_adaptersFor (congrArg Prod.fst hbuilt) (Except.ok.inj howner)

theorem oracle_agrees (chain : Chain) (block : Option Block) :
    (oracle chain block).Agrees (Beside (σ := σ) chain block R) :=
  oracle_agrees_of (fun _ _ h => congrArg Registry.adapters h.same) (tokenAdapter_agrees chain)
    tokenAdapter_mem fun a h ha _ => onSecond_agrees ((h.agrees a ha).unwrap _ rfl)

end Registry

/-! ### Answers about a block -/

/-- Two worlds whose nodes agree at a block and that have the listings of some products at hand cannot be
told apart by what the products say about the block: their positions, rates, supplies and yearly rates
without compounding, those with compounding where they are read at one block, and whatever is resolved by
a registry of the products. Failures are the same too. -/
theorem answers_agree_at_block {c : AdapterContext σ} (hc : c.Separate) {ks : List FungibleProduct}
    {block : Block} {s s' : σ} (halike : c.Alike ks block s s') :
    (∀ k ∈ ks,
      (∀ r : PositionsRequest, r.block = some block →
        ((k.adapter c).positions r s).1 = ((k.adapter c).positions r s').1) ∧
      (∀ r : UnwrapRequest, r.block = some block →
        ((k.adapter c).unwrap r s).1 = ((k.adapter c).unwrap r s').1) ∧
      (∀ r : SupplyRequest, r.block = some block →
        ((k.adapter c).totalValueLocked r s).1 = ((k.adapter c).totalValueLocked r s').1) ∧
      (∀ r : RateRequest, r.block = some block →
        ((k.adapter c).apr r s).1 = ((k.adapter c).apr r s').1) ∧
      (k.hasBlockYield = true → ∀ r : RateRequest, r.block = some block →
        ((k.adapter c).apy r s).1 = ((k.adapter c).apy r s').1)) ∧
    ∀ (r : Registry σ) (options : Resolution.Options) (ps : List Position),
      (∀ a ∈ r.adaptersFor c.chain, ∃ k ∈ ks, a = k.adapter c) → r.HasOwnIndex c.chain →
        (Resolution.positions (Registry.oracle c.chain (some block)) options ps (r, s)).1 =
          (Resolution.positions (Registry.oracle c.chain (some block)) options ps (r, s')).1 := by
  have hnode (t t' : σ) (h : c.Alike ks block t t') := h.node
  have hlisting (k : FungibleProduct) (hk : k ∈ ks) :=
    FungibleProduct.protocolTokens_agrees hc hk block
  refine ⟨fun k hk => ?_, fun r options ps hadapters hown => ?_⟩
  · have ha := k.agreesAt hnode (hlisting k hk)
    refine ⟨fun r hr => (ha.positions r hr s s' halike).1, fun r hr => (ha.unwrap r hr s s' halike).1,
      fun r hr => (ha.totalValueLocked r hr s s' halike).1, fun r hr => (ha.apr r hr s s' halike).1,
      fun hyield r hr => ?_⟩
    exact (FungibleProduct.apy_agrees hnode hyield (hlisting k hk) hr s s' halike).1
  · refine (Resolution.positions_agrees (Registry.oracle_agrees c.chain (some block)) options ps
      (r, s) (r, s') ⟨rfl, hown, fun a ha => ?_, halike⟩).1
    obtain ⟨k, hk, rfl⟩ := hadapters a ha
    exact k.agreesAt hnode (hlisting k hk)

/-- A wrapped token whose listing is stored, on two nodes that differ at the latest block. -/
theorem answers_agree_at_block_wrapped :
    let c : AdapterContext World :=
      ⟨.ethereum, World.provider .ethereum, some (MemoryStore.store (World.memory 0)), World.memo 0⟩
    let staked : Token := ⟨Lido.stEth, "Staked", "S", 0⟩
    let wrapped : ProtocolToken := { token := ⟨Lido.wstEth, "Wrapped", "W", 0⟩, underlyings := [staked] }
    let k : FungibleProduct := .staked .wrapped
    let world (latest : Option Reply) (number : Block) : World :=
      { World.initial with
        nodes := fun _ =>
          { call := fun call => if call.block = some 10 then some ⟨true, Word.bytes 3⟩ else latest
            logs := fun _ => none
            blockNumber := some number
            timestamp := fun _ => none }
        memories := fun _ => ⟨[((k.adapter c).key, [wrapped])]⟩ }
    let s := world none 20
    let s' := world (some ⟨true, Word.bytes 7⟩) 30
    let r := (Registry.after [.register (k.adapter c)] (Registry.empty fun _ => none, s)).1
    let position (below : List Underlying) : Position :=
      { token := wrapped.token, balance := 2, tokens := [⟨wrapped.token, 2, .underlying, below⟩] }
    let resolved (t : World) :=
      (Resolution.positions (Registry.oracle .ethereum (some 10)) {} [position []] (r, t)).1
    c.Separate ∧ c.Alike [k] 10 s s' ∧ (∀ a ∈ r.adaptersFor c.chain, ∃ k' ∈ [k], a = k'.adapter c) ∧
      r.HasOwnIndex c.chain ∧
      resolved s = .ok [position [.leaf staked 6 .underlying]] ∧
      resolved s' = .ok [position [.leaf staked 6 .underlying]] ∧
      ((k.adapter c).unwrap { token := Lido.wstEth } s).1 = .error .contract ∧
      ((k.adapter c).unwrap { token := Lido.wstEth } s').1 = .ok (wrapped.uniformRate 7) := by
  intro c staked wrapped k world s s' r position resolved
  have hc : c.Separate := World.separate .ethereum 0 0
  have halike : c.Alike [k] 10 s s' := by
    refine ⟨⟨fun call hcall => ?_, rfl⟩, fun k' hk' _ => ?_⟩
    · have hreply (latest : Option Reply) (number : Block) :
          (c.provider (world latest number)).call call = some ⟨true, Word.bytes 3⟩ := if_pos hcall
      exact (hreply _ _).trans (hreply _ _).symm
    · obtain rfl := List.mem_singleton.mp hk'
      exact ⟨[wrapped], rfl, rfl⟩
  have hadapters : ∀ a ∈ r.adaptersFor c.chain, ∃ k' ∈ [k], a = k'.adapter c := by
    have hregistered : r.adaptersFor c.chain = [k.adapter c] := rfl
    rw [hregistered]
    exact fun a ha => ⟨k, List.mem_singleton_self k, List.mem_singleton.mp ha⟩
  have hown : r.HasOwnIndex c.chain :=
    (Registry.after_remembers _ (Registry.empty_remembers _ c.chain)).hasOwnIndex
  have hsame := (answers_agree_at_block hc halike).2 r {} [position []] hadapters hown
  have hresolved : resolved s = .ok [position [.leaf staked 6 .underlying]] := by
    dsimp only [resolved, position, r, s, world, k, wrapped, staked, c]
    rfl
  exact ⟨hc, halike, hadapters, hown, hresolved, hsame.symm.trans hresolved, rfl, rfl⟩

end Chainfolio
