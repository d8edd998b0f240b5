import Chainfolio.UniswapV3.Adapter
import Chainfolio.Proofs.Codec.Market
import Chainfolio.Proofs.Movements.Announced
import Chainfolio.Proofs.Node.Answers

/-! Movements at contracts that many markets or NFTs share. Of the logs that come back only the account is
read again, not the market or the NFT that the query asks for. A user's movements are therefore the mined
logs of the answer that are for the user, and they are of the market or the NFT that was asked for as far as
the node kept to the query. -/
namespace Chainfolio

/-- The market or the NFT that an event indexes. -/
def Event.subject? : Event → Option Word
  | .increaseLiquidity tokenId .. => some tokenId
  | .collect tokenId .. => some tokenId
  | e => e.announcement?.bind fun said => said.market.map Hash.bits

/-- The account that an event is for; liquidity is added for nobody in particular. -/
def Event.beneficiary? : Event → Option Address
  | .collect _ recipient .. => some recipient
  | e => e.announcement?.map Announcement.account

/-- The amounts that an event moves. -/
def Event.amounts : Event → List Word
  | .increaseLiquidity _ _ amount0 amount1 => [amount0, amount1]
  | .collect _ _ amount0 amount1 => [amount0, amount1]
  | e => (e.announcement?.map Announcement.amount).toList

/-- Whether an event is not for anybody but the user. -/
def Event.IsFor (user : Address) (e : Event) : Prop := ∀ account ∈ e.beneficiary?, account = user

instance (user : Address) (e : Event) : Decidable (e.IsFor user) :=
  inferInstanceAs (Decidable (∀ account ∈ e.beneficiary?, account = user))

/-- Whether a log is mined and its event for the user. -/
def Log.IsFor (user : Address) (log : Log) : Prop :=
  log.block.isSome ∧ log.transaction.isSome ∧ log.event.IsFor user

instance (user : Address) (log : Log) : Decidable (log.IsFor user) :=
  inferInstanceAs (Decidable (_ ∧ _ ∧ _))

/-- Whether a movement of a token says what a log says. -/
structure Log.Shows (log : Log) (token : MovementToken) (m : Movement) : Prop where
  block : log.block = some m.block
  transaction : log.transaction = some m.transaction
  amounts : m.tokens.map Underlying.balance = log.event.amounts
  token : m.protocolToken = token

/-- The products of one contract for many markets or NFTs. -/
inductive SharedProduct where
  | markets (side : MarketSide) (contract : Address) (ids : List Hash)
  | positions (k : UniswapV3.Contracts)

namespace SharedProduct

variable {σ : Type}

def adapter (c : AdapterContext σ) : SharedProduct → Adapter σ
  | markets side contract ids => MorphoBlue.adapter c side contract ids
  | positions k => UniswapV3.adapter c k

def contract : SharedProduct → Address
  | markets _ contract _ => contract
  | positions k => k.manager

/-- The kind of event that shows a flow, where the product offers it. -/
def kind? : SharedProduct → Flow → Option EventKind
  | markets side contract ids, flow => (AnnouncedProduct.markets side contract ids).kind? flow
  | positions _, .deposit => some .increaseLiquidity
  | positions _, .withdrawal => some .collect
  | positions _, _ => none

/-- Whether a request is about a market or an NFT, whose movements are of a token. -/
inductive Asks (c : AdapterContext σ) (tokens : List ProtocolToken) (r : EventsRequest) :
    SharedProduct → Word → MovementToken → Prop
  | market {side : MarketSide} {contract : Address} {ids : List Hash} {t : ProtocolToken} {id : Hash}
      {params : MarketParams} (htoken : ProtocolToken.get c.chain tokens r.token = .ok t)
      (hmarket : t.market = .ok (id, params)) (hunderlying : t.underlyings ≠ []) :
      Asks c tokens r (.markets side contract ids) id.bits { token := t.token }
  | position {k : UniswapV3.Contracts} {id : Word} (hid : UniswapV3.requiredTokenId r.tokenId = .ok id) :
      Asks c tokens r (.positions k) id ⟨UniswapV3.managerToken k, some id.text⟩

end SharedProduct

/-! ### Reading -/

/-- Whether what is picked from the events of a kind is what there is to say about those that are for the
user, and nothing about others. -/
def PicksFor {α : Type} (user : Address) (kind : EventKind) (pick : Event → Option α)
    (P : Event → α → Prop) : Prop :=
  ∀ e : Event, e.kind = kind →
    (e.IsFor user → ∃ a, pick e = some a ∧ P e a) ∧ (¬ e.IsFor user → pick e = none)

/-- What is made of the logs that are mined, with what is picked from their events. -/
def readLog {α β : Type} (kind : EventKind) (pick : Event → Option α) (make : Block → Hash → α → β)
    (log : Log) : Except Fault (Option β) :=
  match log.block, log.transaction with
  | some block, some transaction =>
    if log.event.kind = kind then .ok ((pick log.event).map (make block transaction)) else .error .abi
  | _, _ => .ok none

section
variable {α β : Type} {user : Address} {kind : EventKind} {pick : Event → Option α}
  {make : Block → Hash → α → β} {P : Event → α → Prop} {logs : List Log} {results : List (Option β)}

/-- Whether something was made of a log. -/
def Made (make : Block → Hash → α → β) (P : Event → α → Prop) (log : Log) (b : β) : Prop :=
  ∃ block transaction a, log.block = some block ∧ log.transaction = some transaction ∧ P log.event a ∧
    make block transaction a = b

/-- A log is read if it is for the user, and passed over otherwise. -/
theorem PicksFor.readLog_cases (h : PicksFor user kind pick P) {log : Log} {b? : Option β}
    (hread : readLog kind pick make log = .ok b?) :
    (log.IsFor user ∧ ∃ b, b? = some b ∧ Made make P log b) ∨ (¬ log.IsFor user ∧ b? = none) := by
  rw [readLog] at hread
  cases hblock : log.block with
  | none =>
    right
    simp_all [Log.IsFor]
  | some block =>
    cases htransaction : log.transaction with
    | none =>
      right
      simp_all [Log.IsFor]
    | some transaction =>
      simp only [hblock, htransaction] at hread
      split at hread
      · next hkind =>
        have hmined : log.IsFor user ↔ log.event.IsFor user := by simp [Log.IsFor, hblock, htransaction]
        obtain ⟨hfor, hnot⟩ := h log.event hkind
        cases hread
        rw [hmined]
        by_cases hevent : log.event.IsFor user
        · obtain ⟨a, ha, hP⟩ := hfor hevent
          refine .inl ⟨hevent, make block transaction a, by rw [ha, Option.map_some], ?_⟩
          exact ⟨block, transaction, a, hblock, htransaction, hP, rfl⟩
        · exact .inr ⟨hevent, by rw [hnot hevent, Option.map_none]⟩
      · cases hread

/-- What comes of some logs was made of those that are for the user, in their order. -/
theorem PicksFor.forall₂ (h : PicksFor user kind pick P)
    (hlogs : logs.mapM (readLog kind pick make) = .ok results) :
    List.Forall₂ (Made make P) (logs.filter fun log => log.IsFor user) (results.filterMap fun b? => b?) := by
  have hall := mapM_eq_ok_iff.mp hlogs
  clear hlogs
  induction hall with
  | nil => exact .nil
  | @cons log b? logs results hread _ ih =>
    obtain ⟨hlog, b, rfl, hb⟩ | ⟨hlog, rfl⟩ := h.readLog_cases hread
    · rw [List.filter_cons_of_pos (by simpa using hlog)]
      exact .cons hb ih
    · rwa [List.filter_cons_of_neg (by simpa using hlog)]

end

section
variable {kind : EventKind} {topics : List (Option Word)} {named : Event → Option (Address × Word)}
  {id : Hash} {r : EventsRequest} {t : ProtocolToken} {underlying : Token}

/-- A movement of one amount. -/
def ProtocolToken.moved (t : ProtocolToken) (underlying : Token) (block : Block) (transaction : Hash)
    (amount : Word) : Movement := t.movement [.leaf underlying amount .underlying] block transaction

theorem ProtocolToken.eventMovements_eq_mapM (amount : Event → Option Word) (logs : List Log) :
    t.eventMovements underlying kind amount logs =
      (logs.mapM (readLog kind amount (t.moved underlying))).map fun results =>
        results.filterMap fun m? => m? := by
  induction logs with
  | nil => rfl
  | cons log logs ih =>
    have hread : t.eventMovement underlying kind amount log =
        readLog kind amount (t.moved underlying) log := rfl
    rw [eventMovements, List.mapM_cons, ih, hread]
    cases readLog kind amount (t.moved underlying) log with
    | error fault => rfl
    | ok m? =>
      cases logs.mapM (readLog kind amount (t.moved underlying)) with
      | error fault => rfl
      | ok movements => cases m? <;> rfl

theorem Event.of_announcement? {e : Event} {said : Announcement} (h : e.announcement? = some said) :
    e.subject? = said.market.map Hash.bits ∧ e.beneficiary? = some said.account ∧
      e.amounts = [said.amount] := by
  cases e <;> cases h <;> exact ⟨rfl, rfl, rfl⟩

/-- The logs of a market's events are read for the user in whichever market they are. -/
theorem Selects.picksFor (h : Selects kind topics named (some id) r.user) :
    PicksFor r.user kind (fun e => (named e).bind (amountOf r.user)) fun e amount =>
      e.amounts = [amount] ∧ (LogFilter.topicsMatch topics e.topics = true → e.subject? = some id.bits) := by
  intro e hkind
  obtain ⟨said, hsaid, hnamed, htopics⟩ := h e hkind
  obtain ⟨hsubject, hbeneficiary, hamounts⟩ := Event.of_announcement? hsaid
  have hfor : e.IsFor r.user ↔ said.account = r.user := by simp [Event.IsFor, hbeneficiary]
  simp only [hfor, hnamed, Option.bind_some, amountOf]
  refine ⟨fun haccount => ⟨said.amount, if_pos haccount, hamounts, fun hmatch => ?_⟩, fun h => if_neg h⟩
  rw [hsubject, (htopics haccount).mp hmatch, Option.map_some]

theorem UniswapV3.picksFor_added (user : Address) (id : Word) :
    PicksFor user .increaseLiquidity added fun e moved =>
      e.amounts = [moved.1, moved.2] ∧
        (LogFilter.topicsMatch [some id] e.topics = true → e.subject? = some id) := by
  intro e hkind
  cases e with
  | increaseLiquidity tokenId liquidity amount0 amount1 =>
    refine ⟨fun _ => ⟨_, rfl, rfl, ?_⟩, fun hnot => absurd nofun hnot⟩
    simp [LogFilter.topicsMatch, Event.topics, Event.subject?, eq_comm]
  | _ => cases hkind

theorem UniswapV3.picksFor_collected (user : Address) (id : Word) :
    PicksFor user .collect (collected user) fun e moved =>
      e.amounts = [moved.1, moved.2] ∧
        (LogFilter.topicsMatch [some id] e.topics = true → e.subject? = some id) := by
  intro e hkind
  cases e with
  | collect tokenId recipient amount0 amount1 =>
    have hfor : (Event.collect tokenId recipient amount0 amount1).IsFor user ↔ recipient = user := by
      simp [Event.IsFor, Event.beneficiary?]
    rw [hfor, collected]
    refine ⟨fun hrecipient => ⟨_, if_pos hrecipient, rfl, ?_⟩, fun hnot => if_neg hnot⟩
    simp [LogFilter.topicsMatch, Event.topics, Event.subject?, eq_comm]
  | _ => cases hkind

end

/-! ### Flows -/

section
variable {σ : Type} {c : AdapterContext σ} {p : Provider σ} {s s' : σ} {f : LogFilter} {logs : List Log}

/-- Whether movements of a token show the logs that are for a user, in their order, and a log that the
filter admits is about what the filter asks for. -/
def ShowsLogs (user : Address) (f : LogFilter) (subject : Word) (token : MovementToken) (logs : List Log)
    (movements : List Movement) : Prop :=
  List.Forall₂ (fun log m => log.Shows token m ∧ (f.admits log = true → log.event.subject? = some subject))
    (logs.filter fun log => log.IsFor user) movements

theorem topicsMatch_of_admits {log : Log} (h : f.admits log = true) :
    LogFilter.topicsMatch f.topics log.event.topics = true := by
  simp only [LogFilter.admits, Bool.and_eq_true] at h
  exact h.1.2

variable {kind : EventKind} {topics : List (Option Word)} {r : EventsRequest} {t : ProtocolToken}
  {movements : List Movement}

/-- The movements of a market's events show the answer to the query. -/
theorem Selects.shows {named : Event → Option (Address × Word)} {id : Hash} {contract : Address}
    (h : Selects kind topics named (some id) r.user) (hunderlying : t.underlyings ≠ [])
    (hmovements : p.eventMovements ⟨contract, kind, topics, r.fromBlock, r.toBlock⟩ t
      (fun e => (named e).bind (amountOf r.user)) s = (.ok movements, s')) :
    ∃ logs, (p s).logs ⟨contract, kind, topics, r.fromBlock, r.toBlock⟩ = some logs ∧
      ShowsLogs r.user ⟨contract, kind, topics, r.fromBlock, r.toBlock⟩ id.bits { token := t.token } logs
        movements := by
  obtain ⟨underlying, others, hcons⟩ := List.exists_cons_of_ne_nil hunderlying
  rw [Provider.eventMovements, hcons] at hmovements
  obtain ⟨logs, middle, hlogs, hread⟩ := Run.bind_eq_ok_iff.mp hmovements
  obtain ⟨hanswer, rfl⟩ := Provider.logs_eq_ok_iff.mp hlogs
  rw [Run.ofExcept_eq_ok_iff, ProtocolToken.eventMovements_eq_mapM] at hread
  obtain ⟨results, hresults, rfl⟩ := map_eq_ok_iff.mp hread.1
  refine ⟨logs, hanswer, (h.picksFor.forall₂ hresults).imp ?_⟩
  rintro log m ⟨block, transaction, amount, hblock, htransaction, ⟨hamounts, hsubject⟩, rfl⟩
  refine ⟨⟨hblock, htransaction, hamounts.symm, rfl⟩, fun hadmits => ?_⟩
  exact hsubject (topicsMatch_of_admits hadmits)

/-- Once a market is known, its events are asked for. -/
theorem MorphoBlue.movements_run {p : Pool σ} {tokens : List ProtocolToken} {id : Hash}
    {params : MarketParams} (hlisted : p.protocolTokens s = (.ok tokens, s'))
    (htoken : ProtocolToken.get p.chain tokens r.token = .ok t) (hmarket : t.market = .ok (id, params))
    (contract : Address) (userTopic : Option Word → List (Option Word))
    (named : Event → Option (Address × Word)) :
    MorphoBlue.movements p contract kind userTopic named r s =
      p.provider.eventMovements
        ⟨contract, kind, some id.bits :: userTopic (some r.user.toWord), r.fromBlock, r.toBlock⟩ t
        (fun e => (named e).bind (amountOf r.user)) s' := by
  have hid : (Run.ofExcept t.market : Run σ _) s' = (.ok (id, params), s') := by
    rw [Run.ofExcept_apply, hmarket]
  rw [MorphoBlue.movements, Run.bind_ok (Pool.token_apply hlisted htoken), Run.bind_ok hid]

/-- The movements of an NFT's events show the answer to the query. -/
theorem UniswapV3.movements_shows {k : Contracts} {amounts : Event → Option (Word × Word)} {id : Word}
    (h : PicksFor r.user kind amounts fun e moved => e.amounts = [moved.1, moved.2] ∧
      (LogFilter.topicsMatch [some id] e.topics = true → e.subject? = some id))
    (hid : requiredTokenId r.tokenId = .ok id)
    (hmovements : UniswapV3.movements c k kind amounts r s = (.ok movements, s')) :
    ∃ logs, (c.provider s).logs ⟨k.manager, kind, [some id], r.fromBlock, r.toBlock⟩ = some logs ∧
      ShowsLogs r.user ⟨k.manager, kind, [some id], r.fromBlock, r.toBlock⟩ id
        ⟨managerToken k, some id.text⟩ logs movements := by
  have hidRun : (Run.ofExcept (requiredTokenId r.tokenId) : Run σ Word) s = (.ok id, s) := by
    rw [Run.ofExcept_apply, hid]
  rw [UniswapV3.movements, Run.bind_ok hidRun] at hmovements
  obtain ⟨logs, middle, hlogs, hevents⟩ := Run.bind_eq_ok_iff.mp hmovements
  obtain ⟨hanswer, rfl⟩ := Provider.logs_eq_ok_iff.mp hlogs
  obtain ⟨results, middle', hread, hrest⟩ := Run.bind_eq_ok_iff.mp hevents
  obtain ⟨hresults, rfl⟩ := Run.ofExcept_eq_ok_iff.mp hread
  have hmade := h.forall₂ hresults
  refine ⟨logs, hanswer, ?_⟩
  -- without an event no token is read, and there is nothing to show
  cases hfirst : firstBlock? (results.filterMap fun e => e) with
  | none =>
    have hnil : results.filterMap (fun e => e) = [] := by
      simpa [firstBlock?] using hfirst
    simp only [hfirst] at hrest
    cases hrest
    rw [hnil, List.forall₂_nil_right_iff] at hmade
    rw [ShowsLogs, hmade]
    exact .nil
  | some block =>
    simp only [hfirst] at hrest
    obtain ⟨⟨token0, token1⟩, middle', -, hreturn⟩ := Run.bind_eq_ok_iff.mp hrest
    cases hreturn
    refine List.forall₂_map_right_iff.mpr (hmade.imp ?_)
    rintro log e ⟨block, transaction, moved, hblock, htransaction, ⟨hamounts, hsubject⟩, rfl⟩
    refine ⟨⟨hblock, htransaction, hamounts.symm, rfl⟩, fun hadmits => ?_⟩
    exact hsubject (topicsMatch_of_admits hadmits)

end

section
variable {σ : Type} {c : AdapterContext σ} {s : σ}

/-- The tokens of an NFT that can be read. -/
theorem UniswapV3.positionTokens_of_words {k : Contracts} {id : Word} {block : Block} {words : List Word}
    {view : PositionView} {token0 token1 : Token} {s₁ s₂ : σ}
    (hwords : ((c.provider s).values? ⟨k.manager, .positions, [.word id], some block, none⟩).bind
      AbiValue.words? = some words) (hview : PositionView.ofWords? words = some view)
    (h0 : c.token view.token0 s = (.ok token0, s₁)) (h1 : c.token view.token1 s₁ = (.ok token1, s₂)) :
    positionTokens c k id block s = (.ok (token0, token1), s₂) := by
  have hrun : c.provider.words ⟨k.manager, .positions, [.word id], some block, none⟩ s = (.ok words, s) := by
    rw [Provider.words_eq, hwords]
    rfl
  have hread : positionView c.provider k id (some block) s = (.ok view, s) := by
    rw [positionView, Run.bind_ok hrun, hview]
    rfl
  have hlast : lastPositionView c.provider k id block s = (.ok view, s) := by
    rw [lastPositionView, Run.bind_ok (Run.outcome_apply _ s), hread]
    rfl
  rw [positionTokens, Run.bind_ok hlast, Run.bind_ok h0, Run.bind_ok h1, Run.pure_apply]

/-- The events in an answer are shown with the tokens at the first one's block. -/
theorem UniswapV3.movements_of_answer {k : Contracts} {r : EventsRequest} {kind : EventKind}
    {amounts : Event → Option (Word × Word)} {id : Word} {logs : List Log} {events : List (Option Moved)}
    {block : Block} {token0 token1 : Token} {s' : σ} (hid : requiredTokenId r.tokenId = .ok id)
    (hanswer : (c.provider s).logs ⟨k.manager, kind, [some id], r.fromBlock, r.toBlock⟩ = some logs)
    (hevents : logs.mapM (movedIn kind amounts) = .ok events)
    (hfirst : firstBlock? (events.filterMap fun e => e) = some block)
    (htokens : positionTokens c k id block s = (.ok (token0, token1), s')) :
    UniswapV3.movements c k kind amounts r s =
      (.ok ((events.filterMap fun e => e).map fun e =>
        ⟨⟨managerToken k, some id.text⟩, amountsOf token0 token1 e.amounts.1 e.amounts.2, e.block,
          e.transaction⟩), s') := by
  have hidRun : (Run.ofExcept (requiredTokenId r.tokenId) : Run σ Word) s = (.ok id, s) := by
    rw [Run.ofExcept_apply, hid]
  have heventsRun : (Run.ofExcept (logs.mapM (movedIn kind amounts)) : Run σ _) s = (.ok events, s) := by
    rw [Run.ofExcept_apply, hevents]
  rw [UniswapV3.movements, Run.bind_ok hidRun, Run.bind_ok (Provider.logs_eq_ok_iff.mpr ⟨hanswer, rfl⟩),
    Run.bind_ok heventsRun]
  simp only [hfirst]
  exact Run.bind_ok htokens

end

namespace SharedProduct

section
variable {σ : Type} {c : AdapterContext σ} {k : SharedProduct} {tokens : List ProtocolToken}
  {r : EventsRequest} {subject : Word} {token : MovementToken} {flow : Flow} {kind : EventKind}
  {s s₁ s₂ : σ} {movements : List Movement} {f : LogFilter}

/-- Whether a filter asks for the events of a flow that index a market or an NFT first. -/
structure AsksFor (f : LogFilter) (k : SharedProduct) (kind : EventKind) (subject : Word)
    (r : EventsRequest) : Prop where
  address : f.address = k.contract
  kind : f.kind = kind
  subject : f.topics.head? = some (some subject)
  range : (f.fromBlock, f.toBlock) = (r.fromBlock, r.toBlock)

/-- What is deposited in markets are supplies. -/
theorem flow_deposit_markets (c : AdapterContext σ) (contract : Address) (ids : List Hash) :
    ((markets .supply contract ids).adapter c).flow .deposit =
      MorphoBlue.movements ((AnnouncedProduct.markets .supply contract ids).pool c) contract .marketSupply
        (fun user => [none, user]) MorphoBlue.supplied := rfl

/-- What is deposited in positions is the liquidity that is added to them. -/
theorem flow_deposit_positions (c : AdapterContext σ) (k : UniswapV3.Contracts) :
    ((positions k).adapter c).flow .deposit =
      UniswapV3.movements c k .increaseLiquidity UniswapV3.added := rfl

/-- Every flow of a product shows what the node answers to one query about the events of the flow, as far as
it is for the user. The market or the NFT of an event is as asked for when the node kept to the query; it
is not read again. -/
theorem flow_shows_answer (hkind : k.kind? flow = some kind)
    (hlisted : (k.adapter c).protocolTokens s = (.ok tokens, s₁)) (hasks : Asks c tokens r k subject token)
    (hflow : (k.adapter c).flow flow r s = (.ok movements, s₂)) :
    ∃ f logs, AsksFor f k kind subject r ∧ (c.provider s₁).logs f = some logs ∧
      ShowsLogs r.user f subject token logs movements := by
  cases hasks with
  | @market side contract ids t id params htoken hmarket hunderlying =>
    let announced := AnnouncedProduct.markets side contract ids
    obtain ⟨userTopic, named, hselects, heq⟩ := AnnouncedProduct.markets_flow (c := c) hkind id r.user
    have hrun : MorphoBlue.movements (announced.pool c) contract kind userTopic named r s =
        (.ok movements, s₂) := by
      rw [← heq]
      exact hflow
    have hlisted' : (announced.pool c).protocolTokens s = (.ok tokens, s₁) := hlisted
    rw [MorphoBlue.movements_run hlisted' htoken hmarket] at hrun
    obtain ⟨logs, hlogs, hshows⟩ := hselects.shows hunderlying hrun
    exact ⟨_, logs, ⟨rfl, rfl, rfl, rfl⟩, hlogs, hshows⟩
  | position hid =>
    cases hlisted
    cases flow with
    | deposit =>
      cases hkind
      obtain ⟨logs, hlogs, hshows⟩ :=
        UniswapV3.movements_shows (UniswapV3.picksFor_added r.user subject) hid hflow
      exact ⟨_, logs, ⟨rfl, rfl, rfl, rfl⟩, hlogs, hshows⟩
    | withdrawal =>
      cases hkind
      obtain ⟨logs, hlogs, hshows⟩ :=
        UniswapV3.movements_shows (UniswapV3.picksFor_collected r.user subject) hid hflow
      exact ⟨_, logs, ⟨rfl, rfl, rfl, rfl⟩, hlogs, hshows⟩
    | _ => cases hkind

/-- Of two supplies for the user, a node that keeps to queries answers with the one in the market. -/
theorem flow_shows_answer_supply :
    let user : Address := ⟨0xA⟩
    let dollar : Token := ⟨⟨0xD⟩, "Dollar", "D", 6⟩
    let t := ProtocolToken.ofMarket ⟨7⟩ ⟨⟨0xD⟩, ⟨0xE⟩, ⟨1⟩, ⟨2⟩, 3⟩ dollar ⟨⟨0xE⟩, "Ether", "E", 18⟩
    let supplied (id : Hash) (block : Block) : Log :=
      ⟨⟨0xC⟩, .marketSupply id user user 5 5, some block, some ⟨1⟩⟩
    let logs := [supplied ⟨8⟩ 10, supplied ⟨7⟩ 11]
    let node : Node := ⟨fun _ => none, fun f => some (logs.filter f.admits), none, fun _ => none⟩
    let c : AdapterContext TokenMemo := ⟨.ethereum, fun _ => node, none, fun _ => ⟨id, fun m _ => m⟩⟩
    let k : SharedProduct := .markets .supply ⟨0xC⟩ [⟨7⟩]
    let r : EventsRequest := ⟨user, t.token.address, 0, 20, none⟩
    k.kind? .deposit = some .marketSupply ∧ (k.adapter c).protocolTokens (some [t]) = (.ok [t], some [t]) ∧
      Asks c [t] r k 7 { token := t.token } ∧
      ∃ movements, (k.adapter c).flow .deposit r (some [t]) = (.ok movements, some [t]) ∧
        ∃ f logs, AsksFor f k .marketSupply 7 r ∧ node.logs f = some logs ∧
          ShowsLogs user f 7 { token := t.token } logs movements := by
  intro user dollar t supplied logs node c k r
  have hmarket : t.market = .ok (⟨7⟩, ⟨⟨0xD⟩, ⟨0xE⟩, ⟨1⟩, ⟨2⟩, 3⟩) := ProtocolToken.market_ofMarket ..
  have htoken : ProtocolToken.get c.chain [t] r.token = .ok t := rfl
  have hlisted : (k.adapter c).protocolTokens (some [t]) = (.ok [t], some [t]) := rfl
  have hasks : Asks c [t] r k 7 { token := t.token } := .market htoken hmarket nofun
  have hflow : (k.adapter c).flow .deposit r (some [t]) =
      (.ok [⟨{ token := t.token }, [.leaf dollar 5 .underlying], 11, ⟨1⟩⟩], some [t]) := by
    rw [flow_deposit_markets, MorphoBlue.movements_run hlisted htoken hmarket]
    refine Provider.eventMovements_of_answer (?_ : _ = some [supplied ⟨7⟩ 11]) ?_ rfl _
    · rfl
    · exact List.forall_mem_singleton.mpr rfl
  exact ⟨rfl, hlisted, hasks, _, hflow, flow_shows_answer rfl hlisted hasks hflow⟩

/-- A node that does not keep to queries answers with a supply in another market, and with liquidity that is
added to another NFT: both are shown as movements of the market and of the NFT that were asked for. -/
theorem flow_shows_other_subjects :
    let user : Address := ⟨0xA⟩
    let dollar : Token := ⟨⟨0xD⟩, "Dollar", "D", 6⟩
    let native := Token.native .ethereum
    let t := ProtocolToken.ofMarket ⟨7⟩ ⟨⟨0xD⟩, ⟨0xE⟩, ⟨1⟩, ⟨2⟩, 3⟩ dollar ⟨⟨0xE⟩, "Ether", "E", 18⟩
    let supplied : Log := ⟨⟨0xC⟩, .marketSupply ⟨8⟩ user user 5 5, some 10, some ⟨1⟩⟩
    let added : Log := ⟨⟨0xC⟩, .increaseLiquidity 8 1 5 6, some 10, some ⟨1⟩⟩
    let reply : Reply := ⟨true, (List.replicate 12 0).flatMap Word.bytes⟩
    let c (log : Log) : AdapterContext TokenMemo :=
      ⟨.ethereum, fun _ => ⟨fun _ => some reply, fun _ => some [log], none, fun _ => none⟩, none,
        fun _ => ⟨id, fun m _ => m⟩⟩
    let k : UniswapV3.Contracts := ⟨⟨0xF⟩, ⟨0xC⟩⟩
    supplied.event.subject? = some 8 ∧
      ((markets .supply ⟨0xC⟩ [⟨7⟩]).adapter (c supplied)).flow .deposit
          ⟨user, t.token.address, 0, 20, none⟩ (some [t]) =
        (.ok [⟨{ token := t.token }, [.leaf dollar 5 .underlying], 10, ⟨1⟩⟩], some [t]) ∧
      added.event.subject? = some 8 ∧
      ((positions k).adapter (c added)).flow .deposit ⟨user, k.manager, 0, 20, some "7"⟩ none =
        (.ok [⟨⟨UniswapV3.managerToken k, some "7"⟩, UniswapV3.amountsOf native native 5 6, 10, ⟨1⟩⟩],
          none) := by
  intro user dollar native t supplied added reply c k
  refine ⟨rfl, ?market, rfl, ?position⟩
  case market =>
    have hmarket : t.market = .ok (⟨7⟩, ⟨⟨0xD⟩, ⟨0xE⟩, ⟨1⟩, ⟨2⟩, 3⟩) := ProtocolToken.market_ofMarket ..
    let p := (AnnouncedProduct.markets .supply ⟨0xC⟩ [⟨7⟩]).pool (c supplied)
    let r : EventsRequest := ⟨user, t.token.address, 0, 20, none⟩
    have htoken : ProtocolToken.get p.chain [t] r.token = .ok t := rfl
    have hlisted : p.protocolTokens (some [t]) = (.ok [t], some [t]) := rfl
    rw [flow_deposit_markets, MorphoBlue.movements_run hlisted htoken hmarket]
    refine Provider.eventMovements_of_answer (?_ : _ = some [supplied]) ?_ rfl _
    · rfl
    · exact List.forall_mem_singleton.mpr rfl
  case position =>
    have hwords : (((c added).provider none).values?
        ⟨k.manager, .positions, [.word 7], some 10, none⟩).bind AbiValue.words? =
          some (List.replicate 12 0) := by decide +kernel
    have hnative : (c added).token .zero none = (.ok native, none) :=
      Provider.token_native _ _ _ (.inl rfl)
    have htokens : UniswapV3.positionTokens (c added) k 7 10 none = (.ok (native, native), none) :=
      UniswapV3.positionTokens_of_words hwords rfl hnative hnative
    have htext : (7 : Word).text = "7" := by decide +kernel
    let r : EventsRequest := ⟨user, k.manager, 0, 20, some "7"⟩
    have hid : UniswapV3.requiredTokenId r.tokenId = .ok 7 := by rfl
    rw [flow_deposit_positions]
    refine (UniswapV3.movements_of_answer hid rfl rfl rfl htokens).trans ?_
    rw [htext]
    rfl

end

end SharedProduct

end Chainfolio
