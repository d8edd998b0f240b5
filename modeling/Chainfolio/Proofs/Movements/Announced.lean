import Chainfolio.CompoundV2
import Chainfolio.MetaMorpho
import Chainfolio.MorphoBlue.Adapter
import Chainfolio.Proofs.Movements.Events

/-! Movements that are announced by a product's own events. A user's movements are exactly those of the
mined logs that name the user as the beneficiary, whoever else had a part in the transaction. -/
namespace Chainfolio

/-- The beneficiary that an event names and the amount that it moves, in the market that it names if its
contract keeps several. -/
structure Announcement where
  market : Option Hash
  account : Address
  amount : Word

/-- What the events of lending markets, vaults and pools announce. Whoever calls, pays or receives on
behalf of another account is not the beneficiary. -/
def Event.announcement? : Event → Option Announcement
  | .marketSupply id _ onBehalf assets _ => some ⟨id, onBehalf, assets⟩
  | .marketWithdraw id _ onBehalf _ assets _ => some ⟨id, onBehalf, assets⟩
  | .marketBorrow id _ onBehalf _ assets _ => some ⟨id, onBehalf, assets⟩
  | .marketRepay id _ onBehalf assets _ => some ⟨id, onBehalf, assets⟩
  | .vaultDeposit _ owner assets _ => some ⟨none, owner, assets⟩
  | .vaultWithdraw _ _ owner assets _ => some ⟨none, owner, assets⟩
  | .poolMint minter amount _ => some ⟨none, minter, amount⟩
  | .poolRedeem redeemer amount _ => some ⟨none, redeemer, amount⟩
  | .poolBorrow borrower amount _ _ => some ⟨none, borrower, amount⟩
  | .poolRepay _ borrower amount _ _ => some ⟨none, borrower, amount⟩
  | _ => none

/-- Where movements happen: at a contract, and in one of its markets if it keeps several. -/
structure Venue where
  contract : Address
  market : Option Hash

/-- The movement that a log shows to whoever asks for the events of a kind at a venue. The log has to be
mined in the range, to come from the contract and to name the user as the beneficiary in the market. -/
def Log.movement? (log : Log) (kind : EventKind) (venue : Venue) (r : EventsRequest)
    (t : ProtocolToken) (underlying : Token) : Option Movement :=
  match log.block, log.transaction, log.event.announcement? with
  | some block, some transaction, some said =>
    if log.address = venue.contract ∧ log.event.kind = kind ∧ said.market = venue.market ∧
        said.account = r.user ∧ r.fromBlock ≤ block ∧ block ≤ r.toBlock then
      some {
        protocolToken := { token := t.token }
        tokens := [.leaf underlying said.amount .underlying]
        block := block
        transaction := transaction }
    else none
  | _, _, _ => none

/-- The flows of a position. -/
inductive Flow where
  | deposit
  | withdrawal
  | borrow
  | repay

def Adapter.flow {σ : Type} (a : Adapter σ) : Flow → EventsRequest → Run σ (List Movement)
  | .deposit => a.deposits
  | .withdrawal => a.withdrawals
  | .borrow => a.borrows
  | .repay => a.repays

/-- The products whose movements are announced by events of their own. -/
inductive AnnouncedProduct where
  | markets (side : MarketSide) (contract : Address) (ids : List Hash)
  | vaults (protocol : Protocol) (product : String) (listing : Listing) (addresses : List Address)
  | curatedVaults (addresses : List Address)
  | pools (side : MarketSide) (comptroller : Address)

namespace AnnouncedProduct

variable {σ : Type}

def adapter (c : AdapterContext σ) : AnnouncedProduct → Adapter σ
  | markets side contract ids => MorphoBlue.adapter c side contract ids
  | vaults protocol product listing addresses =>
    Erc4626.adapter c protocol product listing addresses
  | curatedVaults addresses => MetaMorpho.adapter c addresses
  | pools side comptroller => CompoundV2.adapter c side comptroller

/-- The kind of event that announces a flow, where the product offers it. -/
def kind? : AnnouncedProduct → Flow → Option EventKind
  | markets .supply .., .deposit => some .marketSupply
  | markets .supply .., .withdrawal => some .marketWithdraw
  | markets .borrow .., .borrow => some .marketBorrow
  | markets .borrow .., .repay => some .marketRepay
  | vaults .., .deposit => some .vaultDeposit
  | vaults .., .withdrawal => some .vaultWithdraw
  | curatedVaults _, .deposit => some .vaultDeposit
  | curatedVaults _, .withdrawal => some .vaultWithdraw
  | pools .supply _, .deposit => some .poolMint
  | pools .supply _, .withdrawal => some .poolRedeem
  | pools .borrow _, .borrow => some .poolBorrow
  | pools .borrow _, .repay => some .poolRepay
  | _, _ => none

/-- Where the movements of a protocol token happen. -/
def venue (t : ProtocolToken) : AnnouncedProduct → Except Fault Venue
  | markets _ contract _ => t.market.map fun (id, _) => ⟨contract, some id⟩
  | _ => .ok ⟨t.token.address, none⟩

end AnnouncedProduct

/-! ### Filters -/

/-- Whether asking for some topics and reading a party and an amount picks from the events of a kind those
that announce something to a user in a market. -/
def Selects (kind : EventKind) (topics : List (Option Word)) (named : Event → Option (Address × Word))
    (market : Option Hash) (user : Address) : Prop :=
  ∀ e : Event, e.kind = kind → ∃ said, e.announcement? = some said ∧
    named e = some (said.account, said.amount) ∧
    (said.account = user → (LogFilter.topicsMatch topics e.topics = true ↔ said.market = market))

section
variable {kind : EventKind} {topics : List (Option Word)} {named : Event → Option (Address × Word)}
  {market : Option Hash} {r : EventsRequest}

/-- The logs of a filter that selects the announcements show the user's movements. -/
theorem Selects.read_eq (h : Selects kind topics named market r.user) (contract : Address)
    (t : ProtocolToken) (underlying : Token) (log : Log) :
    (if (⟨contract, kind, topics, r.fromBlock, r.toBlock⟩ : LogFilter).admits log then
        log.read? t underlying fun e => (named e).bind (amountOf r.user)
      else none) = log.movement? kind ⟨contract, market⟩ r t underlying := by
  unfold Log.read? Log.movement?
  by_cases hkind : log.event.kind = kind
  · obtain ⟨said, hsaid, hnamed, htopics⟩ := h log.event hkind
    cases hblock : log.block with
    | none => simp
    | some block =>
      cases htransaction : log.transaction with
      | none => simp
      | some transaction =>
        by_cases haccount : said.account = r.user
        · simp [LogFilter.admits, LogFilter.inRange, hblock, hkind, hsaid, hnamed, amountOf, haccount,
            htopics haccount, and_assoc, ProtocolToken.movement]
        · simp [hsaid, hnamed, amountOf, haccount]
  · have hnone : (⟨contract, kind, topics, r.fromBlock, r.toBlock⟩ : LogFilter).admits log =
        false := by
      simp [LogFilter.admits, hkind]
    simp only [hnone, Bool.false_eq_true, if_false, hkind, false_and, and_false]
    split <;> rfl

/-- Asking a node for what a filter selects gives the user's movements. -/
theorem Selects.eventMovements_eq {σ : Type} {p : Provider σ} {s : σ} {t : ProtocolToken}
    {underlying : Token} {others : List Token} {logs : List Log}
    (h : Selects kind topics named market r.user) (hnode : (p s).FiltersLogs logs)
    (hunderlying : t.underlyings = underlying :: others) (contract : Address) :
    p.eventMovements ⟨contract, kind, topics, r.fromBlock, r.toBlock⟩ t
        (fun e => (named e).bind (amountOf r.user)) s =
      (.ok (logs.filterMap fun log => log.movement? kind ⟨contract, market⟩ r t underlying), s) := by
  rw [Provider.eventMovements_eq hnode hunderlying]
  simp only [h.read_eq]

end

theorem Hash.bits_inj {id id' : Hash} : id.bits = id'.bits ↔ id = id' := by
  cases id
  cases id'
  simp

section
variable (id : Hash) (user : Address)

/-! Each event of a market indexes the market first and the beneficiary after that, beside one other party
before or behind it. -/

theorem MorphoBlue.selects_supplied :
    Selects .marketSupply [some id.bits, none, some user.toWord] supplied (some id) user := by
  intro e h
  cases e with
  | marketSupply =>
    refine ⟨_, rfl, rfl, ?_⟩
    rintro rfl
    simp [LogFilter.topicsMatch, Event.topics, Hash.bits_inj, eq_comm]
  | _ => cases h

theorem MorphoBlue.selects_withdrawn :
    Selects .marketWithdraw [some id.bits, some user.toWord] withdrawn (some id) user := by
  intro e h
  cases e with
  | marketWithdraw =>
    refine ⟨_, rfl, rfl, ?_⟩
    rintro rfl
    simp [LogFilter.topicsMatch, Event.topics, Hash.bits_inj, eq_comm]
  | _ => cases h

theorem MorphoBlue.selects_borrowed :
    Selects .marketBorrow [some id.bits, some user.toWord] borrowed (some id) user := by
  intro e h
  cases e with
  | marketBorrow =>
    refine ⟨_, rfl, rfl, ?_⟩
    rintro rfl
    simp [LogFilter.topicsMatch, Event.topics, Hash.bits_inj, eq_comm]
  | _ => cases h

theorem MorphoBlue.selects_repaid :
    Selects .marketRepay [some id.bits, none, some user.toWord] repaid (some id) user := by
  intro e h
  cases e with
  | marketRepay =>
    refine ⟨_, rfl, rfl, ?_⟩
    rintro rfl
    simp [LogFilter.topicsMatch, Event.topics, Hash.bits_inj, eq_comm]
  | _ => cases h

theorem Erc4626.selects_deposited :
    Selects .vaultDeposit [none, some user.toWord] deposited none user := by
  intro e h
  cases e with
  | vaultDeposit =>
    refine ⟨_, rfl, rfl, ?_⟩
    rintro rfl
    simp [LogFilter.topicsMatch, Event.topics]
  | _ => cases h

theorem Erc4626.selects_withdrawn :
    Selects .vaultWithdraw [none, none, some user.toWord] withdrawn none user := by
  intro e h
  cases e with
  | vaultWithdraw =>
    refine ⟨_, rfl, rfl, ?_⟩
    rintro rfl
    simp [LogFilter.topicsMatch, Event.topics]
  | _ => cases h

/-! The events of a pool index nothing: all of them are returned, and told apart by the party that they
name. -/

theorem CompoundV2.selects_minted : Selects .poolMint [] minted none user := by
  intro e h
  cases e with
  | poolMint => exact ⟨_, rfl, rfl, fun _ => iff_of_true rfl rfl⟩
  | _ => cases h

theorem CompoundV2.selects_redeemed : Selects .poolRedeem [] redeemed none user := by
  intro e h
  cases e with
  | poolRedeem => exact ⟨_, rfl, rfl, fun _ => iff_of_true rfl rfl⟩
  | _ => cases h

theorem CompoundV2.selects_borrowed : Selects .poolBorrow [] borrowed none user := by
  intro e h
  cases e with
  | poolBorrow => exact ⟨_, rfl, rfl, fun _ => iff_of_true rfl rfl⟩
  | _ => cases h

theorem CompoundV2.selects_repaid : Selects .poolRepay [] repaid none user := by
  intro e h
  cases e with
  | poolRepay => exact ⟨_, rfl, rfl, fun _ => iff_of_true rfl rfl⟩
  | _ => cases h

end

/-! ### Flows -/

section
variable {σ : Type} {s s' : σ} {tokens : List ProtocolToken} {t : ProtocolToken} {underlying : Token}
  {others : List Token} {logs : List Log} {r : EventsRequest} {kind : EventKind}
  {named : Event → Option (Address × Word)}

theorem Pool.token_apply {p : Pool σ} (hlisted : p.protocolTokens s = (.ok tokens, s'))
    {address : Address} (htoken : ProtocolToken.get p.chain tokens address = .ok t) :
    p.token address s = (.ok t, s') := by
  rw [Pool.token, Run.bind_ok hlisted, Run.ofExcept_apply, htoken]

theorem MorphoBlue.movements_eq {p : Pool σ} (hlisted : p.protocolTokens s = (.ok tokens, s'))
    (htoken : ProtocolToken.get p.chain tokens r.token = .ok t)
    (hnode : (p.provider s').FiltersLogs logs) (hunderlying : t.underlyings = underlying :: others)
    {id : Hash} {params : MarketParams} (hmarket : t.market = .ok (id, params)) (contract : Address)
    (userTopic : Option Word → List (Option Word))
    (h : Selects kind (some id.bits :: userTopic (some r.user.toWord)) named (some id) r.user) :
    movements p contract kind userTopic named r s =
      (.ok (logs.filterMap fun log => log.movement? kind ⟨contract, some id⟩ r t underlying), s') := by
  have hid : (Run.ofExcept t.market : Run σ _) s' = (.ok (id, params), s') := by
    rw [Run.ofExcept_apply, hmarket]
  rw [movements, Run.bind_ok (Pool.token_apply hlisted htoken), Run.bind_ok hid]
  exact h.eventMovements_eq hnode hunderlying _

theorem Erc4626.movements_eq {p : Pool σ} (hlisted : p.protocolTokens s = (.ok tokens, s'))
    (htoken : ProtocolToken.get p.chain tokens r.token = .ok t)
    (hnode : (p.provider s').FiltersLogs logs) (hunderlying : t.underlyings = underlying :: others)
    (ownerTopic : Option Word → List (Option Word))
    (h : Selects kind (ownerTopic (some r.user.toWord)) named none r.user) :
    movements p kind ownerTopic named r s =
      (.ok (logs.filterMap fun log => log.movement? kind ⟨t.token.address, none⟩ r t underlying), s') := by
  rw [movements, Run.bind_ok (Pool.token_apply hlisted htoken)]
  exact h.eventMovements_eq hnode hunderlying _

theorem CompoundV2.movements_eq {p : Pool σ} (hlisted : p.protocolTokens s = (.ok tokens, s'))
    (htoken : ProtocolToken.get p.chain tokens r.token = .ok t)
    (hnode : (p.provider s').FiltersLogs logs) (hunderlying : t.underlyings = underlying :: others)
    (h : Selects kind [] named none r.user) :
    movements p kind named r s =
      (.ok (logs.filterMap fun log => log.movement? kind ⟨t.token.address, none⟩ r t underlying), s') := by
  rw [movements, Run.bind_ok (Pool.token_apply hlisted htoken)]
  exact h.eventMovements_eq hnode hunderlying _

namespace AnnouncedProduct
variable {c : AdapterContext σ} {k : AnnouncedProduct} {flow : Flow} {venue : Venue}

def pool (c : AdapterContext σ) : AnnouncedProduct → Pool σ
  | markets side contract ids =>
    Pool.oneToOne c.chain c.provider ((c.tokenCache .morphoBlue (MorphoBlue.product side)).getOrFetch
      (Run.filterEach (MorphoBlue.marketToken c contract) ids))
  | vaults protocol product _ addresses =>
    Erc4626.pool c ((c.tokenCache protocol product).getOrFetch
      (Run.forEach (Erc4626.vaultToken c) addresses))
  | curatedVaults addresses =>
    Erc4626.pool c ((c.tokenCache .metaMorpho MetaMorpho.product).getOrFetch
      (Run.forEach (Erc4626.vaultToken c) addresses))
  | pools side comptroller => CompoundV2.pool c side comptroller

/-- The pool tells what the adapter lists, on the chain and by the node of the context. -/
theorem pool_protocolTokens : (k.pool c).protocolTokens = (k.adapter c).protocolTokens := by
  cases k <;> rfl

theorem pool_chain : (k.pool c).chain = c.chain := by
  cases k <;> rfl

theorem pool_provider : (k.pool c).provider = c.provider := by
  cases k <;> rfl

/-! Each flow that a product offers asks for the events that announce it, by topics that select the
user's. -/

theorem markets_flow {side : MarketSide} {contract : Address} {ids : List Hash}
    (hkind : (markets side contract ids).kind? flow = some kind) (id : Hash) (user : Address) :
    ∃ userTopic named,
      Selects kind (some id.bits :: userTopic (some user.toWord)) named (some id) user ∧
        ((markets side contract ids).adapter c).flow flow =
          MorphoBlue.movements ((markets side contract ids).pool c) contract kind userTopic named := by
  cases side with
  | supply =>
    cases flow with
    | deposit =>
      cases hkind
      exact ⟨fun user => [none, user], _, MorphoBlue.selects_supplied id user, rfl⟩
    | withdrawal =>
      cases hkind
      exact ⟨fun user => [user], _, MorphoBlue.selects_withdrawn id user, rfl⟩
    | _ => cases hkind
  | borrow =>
    cases flow with
    | borrow =>
      cases hkind
      exact ⟨fun user => [user], _, MorphoBlue.selects_borrowed id user, rfl⟩
    | repay =>
      cases hkind
      exact ⟨fun user => [none, user], _, MorphoBlue.selects_repaid id user, rfl⟩
    | _ => cases hkind

theorem vaults_flow {protocol : Protocol} {product : String} {listing : Listing}
    {addresses : List Address}
    (hkind : (vaults protocol product listing addresses).kind? flow = some kind) (user : Address) :
    ∃ ownerTopic named, Selects kind (ownerTopic (some user.toWord)) named none user ∧
      ((vaults protocol product listing addresses).adapter c).flow flow =
        Erc4626.movements ((vaults protocol product listing addresses).pool c) kind ownerTopic named := by
  cases flow with
  | deposit =>
    cases hkind
    exact ⟨fun owner => [none, owner], _, Erc4626.selects_deposited user, rfl⟩
  | withdrawal =>
    cases hkind
    exact ⟨fun owner => [none, none, owner], _, Erc4626.selects_withdrawn user, rfl⟩
  | _ => cases hkind

/-- Curated vaults differ from other ones in their yields only. -/
theorem curatedVaults_flow {addresses : List Address}
    (hkind : (curatedVaults addresses).kind? flow = some kind) (user : Address) :
    ∃ ownerTopic named, Selects kind (ownerTopic (some user.toWord)) named none user ∧
      ((curatedVaults addresses).adapter c).flow flow =
        Erc4626.movements ((curatedVaults addresses).pool c) kind ownerTopic named := by
  have hsame : (vaults .metaMorpho MetaMorpho.product MetaMorpho.listing addresses).kind? flow =
      some kind := by
    rw [← hkind]
    cases flow <;> rfl
  obtain ⟨ownerTopic, named, hselects, hflow⟩ := vaults_flow (c := c) hsame user
  refine ⟨ownerTopic, named, hselects, Eq.trans ?_ hflow⟩
  cases flow <;> rfl

theorem pools_flow {side : MarketSide} {comptroller : Address}
    (hkind : (pools side comptroller).kind? flow = some kind) (user : Address) :
    ∃ named, Selects kind [] named none user ∧
      ((pools side comptroller).adapter c).flow flow =
        CompoundV2.movements ((pools side comptroller).pool c) kind named := by
  cases side with
  | supply =>
    cases flow with
    | deposit =>
      cases hkind
      exact ⟨_, CompoundV2.selects_minted user, rfl⟩
    | withdrawal =>
      cases hkind
      exact ⟨_, CompoundV2.selects_redeemed user, rfl⟩
    | _ => cases hkind
  | borrow =>
    cases flow with
    | borrow =>
      cases hkind
      exact ⟨_, CompoundV2.selects_borrowed user, rfl⟩
    | repay =>
      cases hkind
      exact ⟨_, CompoundV2.selects_repaid user, rfl⟩
    | _ => cases hkind

/-- Every flow that a product offers consists of what the mined logs announce to the user, in their order,
when the product has listed the protocol token and its node keeps to the filters that it is asked. -/
theorem flow_collects_announced (hkind : k.kind? flow = some kind)
    (hlisted : (k.adapter c).protocolTokens s = (.ok tokens, s'))
    (htoken : ProtocolToken.get c.chain tokens r.token = .ok t)
    (hunderlying : t.underlyings = underlying :: others) (hvenue : k.venue t = .ok venue)
    (hnode : (c.provider s').FiltersLogs logs) :
    (k.adapter c).flow flow r s =
      (.ok (logs.filterMap fun log => log.movement? kind venue r t underlying), s') := by
  rw [← pool_protocolTokens] at hlisted
  rw [← pool_chain (k := k)] at htoken
  rw [← pool_provider (k := k)] at hnode
  cases k with
  | markets side contract ids =>
    obtain ⟨⟨id, params⟩, hmarket, rfl⟩ := map_eq_ok_iff.mp hvenue
    obtain ⟨userTopic, named, hselects, hflow⟩ := markets_flow hkind id r.user
    rw [hflow]
    exact MorphoBlue.movements_eq hlisted htoken hnode hunderlying hmarket contract userTopic hselects
  | vaults =>
    cases hvenue
    obtain ⟨ownerTopic, named, hselects, hflow⟩ := vaults_flow hkind r.user
    rw [hflow]
    exact Erc4626.movements_eq hlisted htoken hnode hunderlying ownerTopic hselects
  | curatedVaults =>
    cases hvenue
    obtain ⟨ownerTopic, named, hselects, hflow⟩ := curatedVaults_flow hkind r.user
    rw [hflow]
    exact Erc4626.movements_eq hlisted htoken hnode hunderlying ownerTopic hselects
  | pools =>
    cases hvenue
    obtain ⟨named, hselects, hflow⟩ := pools_flow hkind r.user
    rw [hflow]
    exact CompoundV2.movements_eq hlisted htoken hnode hunderlying hselects

/-- A router redeems shares of a vault for their owner, who also redeems shares for somebody else and has
a redemption pending. -/
theorem flow_collects_announced_router :
    let user : Address := ⟨0xA⟩
    let other : Address := ⟨0xB⟩
    let router : Address := ⟨0xC⟩
    let dollar : Token := ⟨⟨0xD⟩, "Dollar", "D", 6⟩
    let vault : ProtocolToken := { token := ⟨⟨0xE⟩, "Vault", "V", 18⟩, underlyings := [dollar] }
    let redeemed (sender owner : Address) (assets : Word) (block : Option Block) : Log :=
      ⟨vault.token.address, .vaultWithdraw sender sender owner assets 1, block, some ⟨7⟩⟩
    let logs : List Log :=
      [redeemed router user 5 (some 10), redeemed user other 6 (some 11), redeemed user user 7 none,
        redeemed user user 8 (some 12), redeemed user user 9 (some 21)]
    let node : Node := ⟨fun _ => none, fun f => some (logs.filter f.admits), some 30, fun _ => none⟩
    let c : AdapterContext TokenMemo := ⟨.ethereum, fun _ => node, none, fun _ => ⟨id, fun m _ => m⟩⟩
    let k : AnnouncedProduct := .curatedVaults [vault.token.address]
    let moved (assets : Word) (block : Block) : Movement :=
      ⟨{ token := vault.token }, [.leaf dollar assets .underlying], block, ⟨7⟩⟩
    (k.adapter c).flow .withdrawal ⟨user, vault.token.address, 10, 20, none⟩ (some [vault]) =
      (.ok [moved 5 10, moved 8 12], some [vault]) := by
  intro user other router dollar vault redeemed logs node c k moved
  have hlisted : (k.adapter c).protocolTokens (some [vault]) = (.ok [vault], some [vault]) := rfl
  have hkind : k.kind? .withdrawal = some .vaultWithdraw := rfl
  have htoken : ProtocolToken.get c.chain [vault] vault.token.address = .ok vault := rfl
  have hunderlying : vault.underlyings = [dollar] := rfl
  have hvenue : k.venue vault = .ok ⟨vault.token.address, none⟩ := rfl
  have hnode : (c.provider (some [vault])).FiltersLogs logs := fun _ => rfl
  exact flow_collects_announced hkind hlisted htoken hunderlying hvenue hnode

end AnnouncedProduct

end

end Chainfolio
