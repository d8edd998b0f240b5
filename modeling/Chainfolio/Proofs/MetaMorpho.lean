import Mathlib.Algebra.BigOperators.Ring.Finset
import Mathlib.Algebra.Group.Action.Defs
import Mathlib.Algebra.Order.BigOperators.Group.Finset
import Chainfolio.MetaMorpho
import Chainfolio.Proofs.Node.Answers

/-! Yields of vaults, entry by entry of the supply queue. Each entry is weighed on its own, so that a
market that stands in the queue more than once is weighed as often. -/
namespace Chainfolio.MetaMorpho

/-- Whether a market counts towards the yield of a vault. -/
def MarketView.isActive (m : MarketView) : Bool := m.enabled && !m.params.isIdle

theorem MarketView.isActive_eq (m : MarketView) : m.isActive = !(!m.enabled || m.params.isIdle) := by
  rw [isActive, Bool.not_or, Bool.not_not]

/-- What a vault has supplied to a market. -/
def MarketView.supplied (m : MarketView) : Except Fault Word :=
  MarketSide.supply.toAssets m.shares.supply m.market

/-- A vault that a node reports about at a block, with the contract that holds its markets. -/
structure ReportedVault where
  node : Node
  vault : Address
  contract : Address
  block : Option Block

namespace ReportedVault

/-- A market of the vault. -/
def market? (v : ReportedVault) (id : Hash) : Option MarketView := do
  MarketView.ofReplies?
    [← v.node.values? ⟨v.vault, .config, [.hash id], v.block, none⟩,
      ← v.node.values? ⟨v.contract, .idToMarketParams, [.hash id], v.block, none⟩,
      ← v.node.values? ⟨v.contract, .market, [.hash id], v.block, none⟩,
      ← v.node.values? ⟨v.contract, .position, [.hash id, .address v.vault], v.block, none⟩]

/-- Whether a market is enabled in the vault and lends something out. -/
def isActive (v : ReportedVault) (id : Hash) : Bool := (v.market? id).any MarketView.isActive

/-- The assets that the vault has supplied to a market. -/
def supplied (v : ReportedVault) (id : Hash) : Nat :=
  ((v.market? id).bind fun m => m.supplied.toOption).elim 0 BitVec.toNat

/-- Whether the vault's markets are held by the contract, and its supply queue, as far as it is counted, is
a list of markets. -/
structure HasQueue (v : ReportedVault) (queue : List Hash) : Prop where
  contract : ∃ w, v.node.values? ⟨v.vault, .morpho, [], v.block, none⟩ = some [.word w] ∧
    Address.ofWord w = v.contract
  length : ∃ w, v.node.values? ⟨v.vault, .supplyQueueLength, [], v.block, none⟩ = some [.word w] ∧
    min w.toNat queueLimit = queue.length
  place : ∀ place (h : place < queue.length),
    v.node.values? ⟨v.vault, .supplyQueue, [.word (BitVec.ofNat 256 place)], v.block, none⟩ =
      some [.word queue[place].bits]

/-- A node reports one contract and one queue. -/
theorem HasQueue.unique {node : Node} {vault contract contract' : Address} {block : Option Block}
    {queue queue' : List Hash} (h : HasQueue ⟨node, vault, contract, block⟩ queue)
    (h' : HasQueue ⟨node, vault, contract', block⟩ queue') : contract = contract' ∧ queue = queue' := by
  obtain ⟨⟨w, hw, rfl⟩, ⟨l, hl, hlength⟩, hplace⟩ := h
  obtain ⟨⟨w', hw', rfl⟩, ⟨l', hl', hlength'⟩, hplace'⟩ := h'
  cases hw.symm.trans hw'
  cases hl.symm.trans hl'
  refine ⟨rfl, List.ext_getElem (hlength.symm.trans hlength') fun place hlt hlt' => ?_⟩
  have hsame := (hplace place hlt).symm.trans (hplace' place hlt')
  simp only [Option.some.injEq, List.cons.injEq, AbiValue.word.injEq, and_true] at hsame
  exact congrArg Hash.mk hsame

/-- What comes of a market in the queue: nothing unless it is active, else what the vault has supplied to
it and what it yields. -/
inductive Entry (v : ReportedVault) (id : Hash) : Option VaultSupply → Prop where
  | skipped {m : MarketView} : v.market? id = some m → m.isActive = false → Entry v id none
  | weighed {m : MarketView} {c : VaultSupply} {rate : Word} : v.market? id = some m →
      m.isActive = true → m.supplied = .ok c.suppliedAssets →
      v.node.values? ⟨m.params.irm, .borrowRateView, [m.params.toValue, m.market.toValue], v.block,
        none⟩ = some [.word rate] →
      c.pool = .ofRate m.market rate → Entry v id (some c)

variable {v : ReportedVault} {market : Hash} {queue : List Hash}

theorem Entry.isActive_eq {c : Option VaultSupply} (h : v.Entry market c) :
    v.isActive market = c.isSome := by
  cases h with
  | skipped hmarket hidle => rw [isActive, hmarket, Option.any_some, hidle, Option.isSome_none]
  | weighed hmarket hactive => rw [isActive, hmarket, Option.any_some, hactive, Option.isSome_some]

theorem Entry.suppliedAssets_eq {c : VaultSupply} (h : v.Entry market (some c)) :
    c.suppliedAssets.toNat = v.supplied market := by
  cases h with
  | weighed hmarket _ hsupplied =>
    rw [supplied, hmarket, Option.bind_some, hsupplied]
    rfl

/-- What comes of a queue is what comes of the active markets in it, one by one. -/
theorem Entry.forall₂_filter {results : List (Option VaultSupply)}
    (h : List.Forall₂ v.Entry queue results) :
    List.Forall₂ (fun market c => v.Entry market (some c)) (queue.filter v.isActive)
      (results.filterMap id) := by
  induction h with
  | nil => exact .nil
  | @cons market result _ _ hentry _ ih =>
    have hactive := hentry.isActive_eq
    cases result with
    | none => rwa [List.filter_cons_of_neg (by simp [hactive])]
    | some c =>
      rw [List.filter_cons_of_pos hactive]
      exact .cons hentry ih

theorem Entry.map_suppliedAssets {markets : List Hash} {components : List VaultSupply}
    (h : List.Forall₂ (fun market c => v.Entry market (some c)) markets components) :
    components.map (fun c => c.suppliedAssets.toNat) = markets.map v.supplied := by
  induction h with
  | nil => rfl
  | cons hentry _ ih => rw [List.map_cons, List.map_cons, hentry.suppliedAssets_eq, ih]

/-- The active markets of a queue, each once. -/
def activeMarkets (v : ReportedVault) (queue : List Hash) : Finset Hash :=
  (queue.filter v.isActive).toFinset

theorem count_active (hmarket : market ∈ v.activeMarkets queue) :
    (queue.filter v.isActive).count market = queue.count market :=
  List.count_filter (List.mem_filter.mp (List.mem_toFinset.mp hmarket)).2

/-- A sum over the active entries of a queue is one over the active markets, each taken as often as it is
queued. -/
theorem sum_filter_eq (v : ReportedVault) (queue : List Hash) (f : Hash → Nat) :
    ((queue.filter v.isActive).map f).sum =
      ∑ market ∈ v.activeMarkets queue, queue.count market * f market := by
  rw [Finset.sum_list_map_count]
  exact Finset.sum_congr rfl fun market hmarket => by rw [count_active hmarket, smul_eq_mul]

/-- Entries come to no more than markets exactly when those that are queued again come to nothing. -/
theorem sum_filter_eq_iff (v : ReportedVault) (queue : List Hash) (f : Hash → Nat) :
    ((queue.filter v.isActive).map f).sum = ∑ market ∈ v.activeMarkets queue, f market ↔
      ∀ market ∈ v.activeMarkets queue, 1 < queue.count market → f market = 0 := by
  have hpos : ∀ market ∈ v.activeMarkets queue, 0 < queue.count market := fun market hmarket =>
    List.count_pos_iff.mpr (List.mem_filter.mp (List.mem_toFinset.mp hmarket)).1
  have hle : ∀ market ∈ v.activeMarkets queue, f market ≤ queue.count market * f market :=
    fun market hmarket => Nat.le_mul_of_pos_left _ (hpos market hmarket)
  rw [sum_filter_eq, eq_comm, Finset.sum_eq_sum_iff_of_le hle]
  refine forall₂_congr fun market hmarket => ?_
  constructor
  · intro heq hagain
    by_contra hne
    have hone := Nat.eq_of_mul_eq_mul_right (Nat.pos_of_ne_zero hne) ((Nat.one_mul _).trans heq)
    omega
  · intro hnone
    rcases Nat.lt_or_ge 1 (queue.count market) with hagain | honce
    · rw [hnone hagain, Nat.mul_zero]
    · rw [Nat.le_antisymm honce (hpos market hmarket), Nat.one_mul]

/-- There are no more active entries than active markets exactly when none of these is queued again. -/
theorem length_filter_eq_iff (v : ReportedVault) (queue : List Hash) :
    (queue.filter v.isActive).length = (v.activeMarkets queue).card ↔
      ∀ market ∈ v.activeMarkets queue, queue.count market ≤ 1 := by
  have hones := sum_filter_eq_iff v queue fun _ => 1
  rw [List.map_const', List.sum_replicate, smul_eq_mul, Nat.mul_one, ← Finset.card_eq_sum_ones] at hones
  simpa only [Nat.one_ne_zero, imp_false, not_lt] using hones

end ReportedVault

/-! ### Reading a vault -/

variable {σ : Type} {p : Provider σ} {vault contract : Address} {block : Option Block} {s s' : σ}

theorem marketView_eq_ok {market : Hash} {m : MarketView}
    (h : marketView p vault contract market block s = (.ok m, s')) :
    ReportedVault.market? ⟨p s, vault, contract, block⟩ market = some m ∧ s' = s := by
  obtain ⟨replies, middle, hreplies, hview⟩ := Run.bind_eq_ok_iff.mp h
  obtain ⟨hvalues, rfl⟩ := Provider.values_of_aggregate hreplies
  obtain ⟨hm, rfl⟩ := Run.ofOption_eq_ok_iff.mp hview
  obtain _ | ⟨hconfig, _ | ⟨hparams, _ | ⟨hmarket, _ | ⟨hshares, ⟨⟩⟩⟩⟩⟩ := hvalues
  refine ⟨?_, rfl⟩
  simp only [ReportedVault.market?, hconfig, hparams, hmarket, hshares, Option.bind_eq_bind, Option.bind_some]
  exact hm

/-- An entry of the queue is read where it stands, and comes out as its market is reported. -/
theorem component_eq_ok {place : Nat} {c : Option VaultSupply}
    (h : component p vault contract block place s = (.ok c, s')) :
    s' = s ∧ ∃ market : Hash, (p s).values?
        ⟨vault, .supplyQueue, [.word (BitVec.ofNat 256 place)], block, none⟩ = some [.word market.bits] ∧
      ReportedVault.Entry ⟨p s, vault, contract, block⟩ market c := by
  obtain ⟨w, s₁, hword, hrest⟩ := Run.bind_eq_ok_iff.mp h
  obtain ⟨hplace, rfl⟩ := Provider.word_eq_ok_iff.mp hword
  obtain ⟨m, s₂, hview, hentry⟩ := Run.bind_eq_ok_iff.mp hrest
  obtain ⟨hmarket, rfl⟩ := marketView_eq_ok hview
  split at hentry
  · next hidle =>
    cases hentry
    exact ⟨rfl, ⟨w⟩, hplace, .skipped hmarket (by rw [m.isActive_eq, hidle, Bool.not_true])⟩
  · next hactive =>
    obtain ⟨supplied, s₃, hsupplied, hpool⟩ := Run.bind_eq_ok_iff.mp hentry
    rw [Run.ofExcept_apply, Prod.mk.injEq] at hsupplied
    obtain ⟨hsupplied, rfl⟩ := hsupplied
    obtain ⟨pool, s₄, hyield, hc⟩ := Run.bind_eq_ok_iff.mp hpool
    obtain ⟨rate, s₅, hrate, hrated⟩ := Run.bind_eq_ok_iff.mp hyield
    obtain ⟨hvalue, rfl⟩ := Provider.word_eq_ok_iff.mp hrate
    cases hrated
    cases hc
    exact ⟨rfl, ⟨w⟩, hplace,
      .weighed hmarket (by rw [m.isActive_eq, Bool.eq_false_of_not_eq_true hactive, Bool.not_false])
        hsupplied hvalue rfl⟩

/-- Places of the queue from some place on are read one after the other. -/
theorem entries_of_forRange {count first : Nat} {results : List (Option VaultSupply)}
    (h : Run.forRange (component p vault contract block) count first s = (.ok results, s')) :
    s' = s ∧ ∃ queue : List Hash, queue.length = count ∧
      (∀ place (h : place < queue.length), (p s).values?
        ⟨vault, .supplyQueue, [.word (BitVec.ofNat 256 (first + place))], block, none⟩ =
          some [.word queue[place].bits]) ∧
      List.Forall₂ (ReportedVault.Entry ⟨p s, vault, contract, block⟩) queue results := by
  -- Reads leave the state alone, so that all places are read in the state of the first one.
  induction count generalizing first results s s' with
  | zero =>
    cases h
    exact ⟨rfl, [], rfl, nofun, .nil⟩
  | succ count ih =>
    obtain ⟨c, s₁, hfirst, hlater⟩ := Run.bind_eq_ok_iff.mp h
    obtain ⟨rfl, market, hplace, hentry⟩ := component_eq_ok hfirst
    obtain ⟨rest, s₂, hrest, hresults⟩ := Run.bind_eq_ok_iff.mp hlater
    obtain ⟨rfl, queue, rfl, hplaces, hentries⟩ := ih hrest
    cases hresults
    refine ⟨rfl, market :: queue, rfl, fun place hlt => ?_, .cons hentry hentries⟩
    cases place with
    | zero => exact hplace
    | succ place =>
      have hqueued := hplaces place (Nat.lt_of_succ_lt_succ hlt)
      rwa [Nat.add_right_comm] at hqueued

theorem vaultView_eq_ok {view : VaultView} (h : vaultView p vault block s = (.ok view, s')) :
    s' = s ∧ ∃ length contract : Word,
      (p s).values? ⟨vault, .supplyQueueLength, [], block, none⟩ = some [.word length] ∧
      (p s).values? ⟨vault, .morpho, [], block, none⟩ = some [.word contract] ∧
      view.queueLength = min length.toNat queueLimit ∧ view.contract = Address.ofWord contract := by
  obtain ⟨replies, middle, hreplies, hview⟩ := Run.bind_eq_ok_iff.mp h
  obtain ⟨hvalues, rfl⟩ := Provider.values_of_aggregate hreplies
  split at hview
  · obtain _ | ⟨-, _ | ⟨hlength, _ | ⟨-, _ | ⟨hcontract, -⟩⟩⟩⟩ := hvalues
    cases hview
    exact ⟨rfl, _, _, hlength, hcontract, rfl, rfl⟩
  · cases hview

/-- The yield of a vault has one component for each entry of the supply queue whose market is active, be it
queued before or not. So all components together stand for what the vault has supplied to each active
market, as often as the market is queued. There is one component for each active market exactly when none
is queued twice, and the assets are those of the distinct markets exactly when nothing is supplied to a
market that is queued again. -/
theorem vaultYield_weighs_entries {y : VaultYield} (h : vaultYield p vault block s = (.ok y, s')) :
    ∃ (contract : Address) (queue : List Hash),
      let v : ReportedVault := ⟨p s, vault, contract, block⟩
      let active := v.activeMarkets queue
      let total := (y.components.map fun c => c.suppliedAssets.toNat).sum
      v.HasQueue queue ∧
      List.Forall₂ (fun market c => v.Entry market (some c)) (queue.filter v.isActive) y.components ∧
      total = ∑ market ∈ active, queue.count market * v.supplied market ∧
      (total = ∑ market ∈ active, v.supplied market ↔
        ∀ market ∈ active, 1 < queue.count market → v.supplied market = 0) ∧
      (y.components.length = active.card ↔ ∀ market ∈ active, queue.count market ≤ 1) := by
  obtain ⟨view, s₁, hview, hcomponents⟩ := Run.bind_eq_ok_iff.mp h
  obtain ⟨rfl, length, contract, hlength, hcontract, hcount, hmarkets⟩ := vaultView_eq_ok hview
  obtain ⟨results, s₂, hresults, hy⟩ := Run.bind_eq_ok_iff.mp hcomponents
  obtain ⟨rfl, queue, hqueue, hplaces, hentries⟩ := entries_of_forRange hresults
  cases hy
  have hactive := ReportedVault.Entry.forall₂_filter hentries
  refine ⟨view.contract, queue, ⟨⟨contract, hcontract, hmarkets.symm⟩,
    ⟨length, hlength, hcount.symm.trans hqueue.symm⟩, fun place hlt => ?_⟩, hactive, ?_, ?_, ?_⟩
  · simpa only [Nat.zero_add] using hplaces place hlt
  · rw [ReportedVault.Entry.map_suppliedAssets hactive]
    exact ReportedVault.sum_filter_eq _ _ _
  · rw [ReportedVault.Entry.map_suppliedAssets hactive]
    exact ReportedVault.sum_filter_eq_iff _ _ _
  · rw [← hactive.length_eq]
    exact ReportedVault.length_filter_eq_iff _ _

/-- A node that knows one vault. It has supplied as much to each market as the market's id says; markets
with even ids are disabled. -/
def reporting (queue : List Word) : Provider Unit := fun _ =>
  let answer (c : Call) : List Word :=
    match c.method, c.args with
    | .supplyQueueLength, _ => [BitVec.ofNat 256 queue.length]
    | .supplyQueue, [.word place] => [queue.getD place.toNat 0]
    | .config, [.word market] => [0, market % 2, 0]
    | .idToMarketParams, _ => [1, 2, 3, 4, 5]
    | .market, _ => [600, 600000000, 300, 300000000, 0, 0]
    | .position, [.word market, _] => [market * 1000000, 0, 0]
    | _, _ => [1]
  { call := fun c => some ⟨true, (answer c).flatMap Word.bytes⟩
    logs := fun _ => none
    blockNumber := none
    timestamp := fun _ => none }

theorem reporting_run {queue supplied : List Word}
    (h : ((vaultYield (reporting queue) ⟨0xAA⟩ none ()).1.toOption.map fun y =>
      y.components.map VaultSupply.suppliedAssets) = some supplied) :
    ∃ y, vaultYield (reporting queue) ⟨0xAA⟩ none () = (.ok y, ()) ∧
      y.components.map VaultSupply.suppliedAssets = supplied := by
  rcases hrun : vaultYield (reporting queue) ⟨0xAA⟩ none () with ⟨e | y, s⟩
  · rw [hrun] at h
    cases h
  · rw [hrun] at h
    exact ⟨y, rfl, Option.some.inj h⟩

/-- Two active markets with a disabled one between them: no market is queued again. -/
theorem vaultYield_weighs_entries_once :
    let v : ReportedVault := ⟨reporting [7, 8, 9] (), ⟨0xAA⟩, ⟨1⟩, none⟩
    let queue : List Hash := [⟨7⟩, ⟨8⟩, ⟨9⟩]
    v.HasQueue queue ∧
      ∃ y, vaultYield (reporting [7, 8, 9]) v.vault none () = (.ok y, ()) ∧
        y.components.map VaultSupply.suppliedAssets = [7, 9] ∧
        y.components.length = (v.activeMarkets queue).card ∧
        (y.components.map fun c => c.suppliedAssets.toNat).sum =
          ∑ market ∈ v.activeMarkets queue, v.supplied market := by
  intro v queue
  have hqueue : v.HasQueue queue := by
    refine ⟨⟨1, rfl, rfl⟩, ⟨3, rfl, rfl⟩, fun place h => ?_⟩
    match place, h with
    | 0, _ => rfl
    | 1, _ => rfl
    | 2, _ => rfl
  obtain ⟨y, hy, hsupplied⟩ := @reporting_run [7, 8, 9] [7, 9] (by decide +kernel)
  obtain ⟨contract, queued, hqueued, -, -, hsum, hcount⟩ := vaultYield_weighs_entries hy
  obtain ⟨rfl, rfl⟩ := hqueue.unique hqueued
  have honce (market : Hash) : queue.count market ≤ 1 :=
    List.nodup_iff_count_le_one.mp (by decide) market
  exact ⟨hqueue, y, hy, hsupplied, hcount.mpr fun market _ => honce market,
    hsum.mpr fun market _ hagain => absurd (honce market) (not_le.mpr hagain)⟩

/-- A market that is queued twice is weighed twice, with twice as much as the vault has supplied to it. -/
theorem vaultYield_weighs_again :
    let v : ReportedVault := ⟨reporting [7, 7] (), ⟨0xAA⟩, ⟨1⟩, none⟩
    let queue : List Hash := [⟨7⟩, ⟨7⟩]
    v.HasQueue queue ∧ v.activeMarkets queue = {⟨7⟩} ∧
      (∑ market ∈ v.activeMarkets queue, v.supplied market) = 7 ∧
      ∃ y, vaultYield (reporting [7, 7]) v.vault none () = (.ok y, ()) ∧
        y.components.map VaultSupply.suppliedAssets = [7, 7] ∧
        (y.components.map fun c => c.suppliedAssets.toNat).sum = 14 := by
  intro v queue
  have hqueue : v.HasQueue queue := by
    refine ⟨⟨1, rfl, rfl⟩, ⟨2, rfl, rfl⟩, fun place h => ?_⟩
    match place, h with
    | 0, _ => rfl
    | 1, _ => rfl
  obtain ⟨y, hy, hsupplied⟩ := @reporting_run [7, 7] [7, 7] (by decide +kernel)
  refine ⟨hqueue, by decide +kernel, by decide +kernel, y, hy, hsupplied, ?_⟩
  have hmap := congrArg (fun supplied => (supplied.map BitVec.toNat).sum) hsupplied
  rwa [List.map_map] at hmap

end Chainfolio.MetaMorpho
