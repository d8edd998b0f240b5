import Chainfolio.Proofs.Adapter.Agreement
import Chainfolio.Proofs.Node.Answers
import Chainfolio.Proofs.Valuation.Aggregation

/-! Positions of some protocol tokens only. A filter is gone through in its own order, so that what comes
out are the positions of each token that it names, once for every time that it names it. -/
namespace Chainfolio

open Decimal (FitTogether)

/-! ### Lists -/

section
variable {α κ : Type} [DecidableEq κ] {key : α → κ} {names : List κ} {items : List α}

/-- Items picked name by name come as often as their names do. -/
theorem count_flatMap_filter [DecidableEq α] (a : α) :
    (names.flatMap fun n => items.filter fun b => key b = n).count a =
      names.count (key a) * items.count a := by
  induction names with
  | nil => simp
  | cons n names ih =>
    rw [List.flatMap_cons, List.count_append, ih, List.count_cons, Nat.add_mul, Nat.add_comm]
    congr 1
    by_cases h : key a = n
    · rw [List.count_filter (by simpa using h), if_pos (beq_iff_eq.mpr h.symm), Nat.one_mul]
    · rw [List.count_eq_zero.mpr (by simp [h]), if_neg (by simpa using Ne.symm h), Nat.zero_mul]

/-- Picking name by name is a restriction exactly when the name of no item comes twice. -/
theorem perm_filter_mem_iff :
    (names.flatMap fun n => items.filter fun b => key b = n).Perm
        (items.filter fun b => key b ∈ names) ↔
      ∀ b ∈ items, names.count (key b) ≤ 1 := by
  classical
  rw [List.perm_iff_count]
  have hcount (a : α) : (items.filter fun b => key b ∈ names).count a =
      if key a ∈ names then items.count a else 0 := by
    split
    · next h => exact List.count_filter (by simpa using h)
    · next h => exact List.count_eq_zero.mpr (by simp [h])
  simp only [count_flatMap_filter, hcount]
  constructor
  · intro h b hb
    have hpos := List.count_pos_iff.mpr hb
    have heq := h b
    split at heq
    · exact (Nat.eq_of_mul_eq_mul_right hpos (heq.trans (Nat.one_mul _).symm)).le
    · next hnot => simp [List.count_eq_zero.mpr hnot]
  · intro h a
    by_cases ha : a ∈ items
    · split
      · next hname =>
        rw [Nat.le_antisymm (h a ha) (List.count_pos_iff.mpr hname), Nat.one_mul]
      · next hname => rw [List.count_eq_zero.mpr hname, Nat.zero_mul]
    · simp [List.count_eq_zero.mpr ha]

/-- What belongs to a key is what the item of the key gives, when no other item has the key. -/
theorem filter_filterMap_eq {β : Type} {f : α → Option β} {owner : β → κ} {a : α}
    (howner : ∀ a b, f a = some b → owner b = key a) (hdistinct : (items.map key).Nodup)
    (ha : a ∈ items) : ((items.filterMap f).filter fun b => owner b = key a) = (f a).toList := by
  have hfirst (c : α) : ((f c).toList.filter fun b => owner b = key a) =
      if key c = key a then (f c).toList else [] := by
    cases hc : f c with
    | none => simp
    | some b => simp [howner c b hc, List.filter_singleton]
  induction items with
  | nil => cases ha
  | cons c items ih =>
    rw [List.map_cons, List.nodup_cons] at hdistinct
    obtain ⟨hnotin, hdistinct⟩ := hdistinct
    have hsplit : (c :: items).filterMap f = (f c).toList ++ items.filterMap f := by
      cases hc : f c <;> simp [hc]
    rw [hsplit, List.filter_append, hfirst]
    rcases List.mem_cons.mp ha with rfl | ha
    · have hrest : ((items.filterMap f).filter fun b => owner b = key a) = [] := by
        refine List.filter_eq_nil_iff.mpr fun b hb heq => ?_
        obtain ⟨c, hc, hfc⟩ := List.mem_filterMap.mp hb
        rw [howner c b hfc] at heq
        exact hnotin (of_decide_eq_true heq ▸ List.mem_map_of_mem hc)
      rw [if_pos rfl, hrest, List.append_nil]
    · have hne : key c ≠ key a := fun heq => hnotin (heq ▸ List.mem_map_of_mem ha)
      rw [if_neg hne, List.nil_append, ih hdistinct ha]

end

/-! ### What a filter picks -/

/-- The positions whose tokens a filter names. -/
def Position.restrict (filter : List Address) (ps : List Position) : List Position :=
  ps.filter fun q => q.token.address ∈ filter

/-- The positions that a filter names, name by name. -/
def Position.pick (filter : List Address) (ps : List Position) : List Position :=
  filter.flatMap fun a => ps.filter fun q => q.token.address = a

/-- Positions may be resolved before they are picked or afterwards. -/
theorem Position.map_pick {resolve : Position → Position}
    (hresolve : ∀ q, (resolve q).token.address = q.token.address) (filter : List Address)
    (ps : List Position) : (pick filter ps).map resolve = pick filter (ps.map resolve) := by
  simp only [pick, List.map_flatMap, List.filter_map, Function.comp_def, hresolve]

namespace Holdings

variable {α : Type} {H : Holdings α} {names : List Address} {items : List α}

theorem under_filter (key : PositionKey) (a : Address) :
    H.under key (items.filter fun x => (H.token x).address = a) =
      if key.address = a then H.under key items else 0 := by
  have hkey (x : α) (hx : H.key x = key) : (H.token x).address = key.address := hx ▸ rfl
  unfold under
  rw [List.filter_filter]
  split
  · next h =>
    congr 2
    refine List.filter_congr fun x _ => ?_
    by_cases hx : H.key x = key <;> simp [hx, hkey x, h]
  · next h =>
    rw [List.filter_eq_nil_iff.mpr fun x _ hx => ?_, List.flatMap_nil, Decimal.total_nil]
    simp only [Bool.and_eq_true, decide_eq_true_eq] at hx
    exact h ((hkey x hx.1).symm.trans hx.2)

/-- What is picked by address comes under a key as many times as the address of the key is named. -/
theorem under_flatMap_filter (key : PositionKey) :
    H.under key (names.flatMap fun a => items.filter fun x => (H.token x).address = a) =
      names.count key.address * H.under key items := by
  induction names with
  | nil => simp [under]
  | cons a names ih =>
    rw [List.flatMap_cons, under_append, ih, under_filter, List.count_cons]
    by_cases h : key.address = a
    · simp [h, add_mul, add_comm]
    · simp [h, Ne.symm h]

end Holdings

/-- Picked positions are worth as many times what all of them are worth as the filter names them. -/
theorem aggregate_pick {filter : List Address} {ps : List Position} {sheet picked : Balances}
    (hfit : FitTogether (ps.flatMap Holdings.positions.nodes))
    (hfitpick : FitTogether ((Position.pick filter ps).flatMap Holdings.positions.nodes))
    (h : aggregatePositions ps = .ok sheet)
    (hpick : aggregatePositions (Position.pick filter ps) = .ok picked) (key : PositionKey) :
    picked.number key = filter.count key.address * sheet.number key := by
  unfold aggregatePositions at h hpick
  rw [Holdings.ofPositions_eq] at h hpick
  rw [(Holdings.totals_of_aggregate hfit.fitAt h).number,
    (Holdings.totals_of_aggregate hfitpick.fitAt hpick).number]
  exact Holdings.under_flatMap_filter key

/-! ### Filters -/

namespace ProtocolToken

variable {chain : Chain} {tokens named : List ProtocolToken} {addresses : List Address}

theorem of_find?_eq_some {t : ProtocolToken} {a : Address} (h : find? tokens a = some t) :
    t ∈ tokens ∧ t.token.address = a := by
  unfold find? at h
  exact ⟨List.mem_of_find?_eq_some h, of_decide_eq_true (List.find?_some h :)⟩

/-- A filter that names listed tokens only is answered with a token of each name. -/
theorem filter_eq_ok (h : ∀ a ∈ addresses, ∃ t ∈ tokens, t.token.address = a) :
    ∃ named, filter chain tokens (some addresses) = .ok named ∧ (∀ t ∈ named, t ∈ tokens) ∧
      named.map (fun t => t.token.address) = addresses := by
  induction addresses with
  | nil => exact ⟨[], rfl, nofun, rfl⟩
  | cons a addresses ih =>
    obtain ⟨⟨t, ht, ha⟩, hrest⟩ := List.forall_mem_cons.mp h
    obtain ⟨named, hnamed, hmem, rfl⟩ := ih hrest
    have hsome : (find? tokens a).isSome := List.find?_isSome.mpr ⟨t, ht, decide_eq_true ha⟩
    obtain ⟨u, hu⟩ := Option.isSome_iff_exists.mp hsome
    obtain ⟨humem, rfl⟩ := of_find?_eq_some hu
    refine ⟨u :: named, ?_, List.forall_mem_cons.mpr ⟨humem, hmem⟩, rfl⟩
    simp only [filter] at hnamed ⊢
    rw [List.mapM_cons, hu, hnamed]
    rfl

/-- A token that a filter names is listed, or another one of its address before it. -/
theorem find?_of_filter {addresses : Option (List Address)} (h : filter chain tokens addresses = .ok named)
    {t : ProtocolToken} (ht : t ∈ named) : ∃ u, find? tokens t.token.address = some u := by
  cases addresses with
  | none =>
    obtain rfl := Except.ok.inj h
    exact Option.isSome_iff_exists.mp (List.find?_isSome.mpr ⟨t, ht, decide_eq_true rfl⟩)
  | some addresses =>
    obtain ⟨a, -, ha⟩ := forall₂_mem_right (mapM_eq_ok_iff.mp h) ht
    split at ha
    · next u hu =>
      cases ha
      exact ⟨t, (of_find?_eq_some hu).2 ▸ hu⟩
    · cases ha

/-- What named tokens show is what all tokens show, name by name. -/
theorem filterMap_named_eq {item : ProtocolToken → Option Position}
    (howner : ∀ t q, item t = some q → q.token = t.token)
    (hdistinct : (tokens.map fun t => t.token.address).Nodup) (hmem : ∀ t ∈ named, t ∈ tokens) :
    named.filterMap item =
      Position.pick (named.map fun t => t.token.address) (tokens.filterMap item) := by
  unfold Position.pick
  induction named with
  | nil => rfl
  | cons t named ih =>
    obtain ⟨ht, hmem⟩ := List.forall_mem_cons.mp hmem
    rw [List.map_cons, List.flatMap_cons, ← ih hmem,
      filter_filterMap_eq (fun t q h => congrArg Token.address (howner t q h)) hdistinct ht]
    cases hitem : item t <;> simp [hitem]

end ProtocolToken

/-! ### Positions -/

/-- Whether positions are found of one token at a time, each of its own token, and alike in all states of
some kind. -/
structure Itemwise {σ : Type} (item : ProtocolToken → Run σ (Option Position)) (Inv : σ → Prop) :
    Prop where
  agrees : ∀ t, (item t).Agrees (Run.Both Inv)
  token : ∀ {t : ProtocolToken} {s s' : σ} {q : Position},
    item t s = (.ok (some q), s') → q.token = t.token

namespace Pool

variable {σ : Type} {p : Pool σ} {Inv : σ → Prop} {item : ProtocolToken → Run σ (Option Position)}
  {s : σ} {tokens : List ProtocolToken} {whole : List Position}

/-- The positions that are found of the tokens that a request names. -/
def gather (p : Pool σ) (item : ProtocolToken → Run σ (Option Position))
    (filter : Option (List Address)) : Run σ (List Position) := do
  Run.filterEach item (← p.tokens filter)

/-- The position that is found of a protocol token in a state, if it can be read there. -/
def shown (item : ProtocolToken → Run σ (Option Position)) (s : σ) (t : ProtocolToken) :
    Option Position :=
  match (item t s).1 with
  | .ok q => q
  | .error _ => none

theorem shown_of_ok {t : ProtocolToken} {q : Option Position} (h : (item t s).1 = .ok q) :
    shown item s t = q := by
  rw [shown, h]

theorem shown_token (hitem : Itemwise item Inv) {t : ProtocolToken} {q : Position}
    (h : shown item s t = some q) : q.token = t.token := by
  unfold shown at h
  split at h
  · next r hr => exact hitem.token (Prod.ext (hr.trans (congrArg _ h)) rfl)
  · cases h

/-- Positions are found of the tokens that a request names when each of these shows one or none. -/
theorem gather_eq_ok {named : List ProtocolToken} {filter : Option (List Address)} {s₁ : σ}
    {found : ProtocolToken → Option Position} (hlisted : p.protocolTokens s = (.ok tokens, s₁))
    (hnamed : ProtocolToken.filter p.chain tokens filter = .ok named) (hs₁ : Inv s₁)
    (hitems : ∀ t ∈ named, (item t).Always Inv (.ok (found t))) :
    (p.gather item filter s).1 = .ok (named.filterMap found) := by
  have htokens : p.tokens filter s = (.ok named, s₁) := by
    refine (Run.bind_ok hlisted).trans ?_
    rw [hnamed]
    rfl
  rw [gather, Run.bind_ok htokens]
  exact (Run.always_filterMap hitems).eq hs₁

section
variable (hlisting : p.protocolTokens.Agrees (Run.Both Inv)) (hitem : Itemwise item Inv) (hs : Inv s)
  (hlisted : (p.protocolTokens s).1 = .ok tokens) (hwhole : (p.gather item none s).1 = .ok whole)
include hlisting hitem hs hlisted hwhole

/-- All positions are found when one can be looked for of each listed token, and are what these show. -/
theorem always_shown :
    (∀ t ∈ tokens, (item t).Always Inv (.ok (shown item s t))) ∧
      whole = tokens.filterMap (shown item s) := by
  -- What is found of a token later in the run is what would be found at its start.
  have hanswer (t : ProtocolToken) := (hitem.agrees t).always rfl hs
  have htokens : (p.tokens none).Always Inv (.ok tokens) := by
    have hrun := hlisting.always rfl hs
    rw [hlisted] at hrun
    exact hrun.bind_ok (Run.always_ofExcept _)
  have hrun := htokens.bind_ok (Run.always_filterEach fun t _ => hanswer t)
  rw [gather, hrun.eq hs] at hwhole
  obtain ⟨results, hresults, rfl⟩ := map_eq_ok_iff.mp hwhole
  obtain ⟨hall, rfl⟩ := eq_map_of_mapM (fun _ _ => shown_of_ok) hresults
  refine ⟨fun t ht => ?_, by simp [List.filterMap_map]⟩
  rw [← hall t ht]
  exact hanswer t

/-- Positions with a filter are those of the whole report, picked token by token. -/
theorem gather_eq_pick (hdistinct : (tokens.map fun t => t.token.address).Nodup)
    {filter : List Address} (hfilter : ∀ a ∈ filter, ∃ t ∈ tokens, t.token.address = a) :
    (p.gather item (some filter) s).1 = .ok (Position.pick filter whole) := by
  obtain ⟨hshown, rfl⟩ := always_shown hlisting hitem hs hlisted hwhole
  obtain ⟨named, hnamed, hmem, rfl⟩ := ProtocolToken.filter_eq_ok hfilter
  obtain ⟨s₁, hrun, hs₁⟩ := hlisting.always rfl hs s hs
  rw [hlisted] at hrun
  rw [gather_eq_ok hrun hnamed hs₁ fun t ht => hshown t (hmem t ht),
    ProtocolToken.filterMap_named_eq (fun _ _ => shown_token hitem) hdistinct hmem]

end

variable {block : Option Block}

/-- The position that a balance function of a protocol token shows. -/
def held (p : Pool σ) (method : Method) (user : Address) (block : Option Block) (t : ProtocolToken) :
    Run σ (Option Position) := do
  let balance ← p.provider.word ⟨t.token.address, method, [.word user.toWord], block, none⟩
  p.position t block balance

theorem positionsBy_eq (p : Pool σ) (method : Method) (r : PositionsRequest) :
    p.positionsBy method r = p.gather (p.held method r.user r.block) r.tokens := rfl

theorem held_itemwise (h : p.ReadsAt block (Run.Both Inv)) (method : Method) (user : Address) :
    Itemwise (p.held method user block) Inv where
  agrees t := (Provider.word_agrees h.node rfl).bind fun balance => position_agrees h t balance
  token {t s s' q} hrun := by
    obtain ⟨balance, middle, -, hposition⟩ := Run.bind_eq_ok_iff.mp hrun
    unfold position at hposition
    split at hposition
    · cases hposition
    · obtain ⟨rate, s₁, -, hamounts⟩ := Run.bind_eq_ok_iff.mp hposition
      obtain ⟨underlyings, s₂, -, hq⟩ := Run.bind_eq_ok_iff.mp hamounts
      cases hq
      rfl

/-- A token with a balance shows its position once its rate is answered and the balance converts. -/
theorem held_always {method : Method} {user : Address}
    {t : ProtocolToken} {balance : Word} {us : List Underlying}
    (hbalance : (p.provider.word ⟨t.token.address, method, [.word user.toWord], block, none⟩).Always
      Inv (.ok balance))
    (hunwrap : balance ≠ 0 → ∃ rate : UnwrapRate,
      (p.unwrap { token := t.token.address, block := block }).Always Inv (.ok rate) ∧
        rate.underlyings balance = .ok us) :
    (p.held method user block t).Always Inv
      (.ok (if balance = 0 then none else some { token := t.token, balance := balance, tokens := us })) := by
  refine hbalance.bind_ok ?_
  unfold position
  split
  · exact Run.always_pure _
  · next hzero =>
    obtain ⟨rate, hrate, hus⟩ := hunwrap hzero
    refine hrate.bind_ok ?_
    rw [hus]
    exact (Run.always_ofExcept _).bind_ok (Run.always_pure _)

/-- A filter of listed tokens picks the positions of each token that it names, in its own order and once
for every time that it names the token. So it restricts the whole report exactly when it names no token with
a position twice; and once the positions are priced, what is held under a key is counted as often as its
token is named. -/
theorem positions_pick {r : PositionsRequest} (h : p.ReadsAt r.block (Run.Both Inv)) (hs : Inv s)
    (hlisted : (p.protocolTokens s).1 = .ok tokens)
    (hdistinct : (tokens.map fun t => t.token.address).Nodup) (hall : r.tokens = none)
    {filter : List Address} (hfilter : ∀ a ∈ filter, ∃ t ∈ tokens, t.token.address = a)
    {whole : List Position} (hwhole : (p.positions r s).1 = .ok whole) :
    ∃ part, (p.positions { r with tokens := some filter } s).1 = .ok part ∧
      part = Position.pick filter whole ∧
      (part.Perm (Position.restrict filter whole) ↔
        ∀ q ∈ whole, filter.count q.token.address ≤ 1) ∧
      ∀ price : Position → Position, (∀ q, (price q).token.address = q.token.address) →
        FitTogether ((whole.map price).flatMap Holdings.positions.nodes) →
        FitTogether ((part.map price).flatMap Holdings.positions.nodes) →
        ∀ sheet picked, aggregatePositions (whole.map price) = .ok sheet →
          aggregatePositions (part.map price) = .ok picked →
          ∀ key, picked.number key = filter.count key.address * sheet.number key := by
  unfold positions at hwhole ⊢
  rw [positionsBy_eq, hall] at hwhole
  refine ⟨Position.pick filter whole,
    gather_eq_pick h.listing (held_itemwise h .balanceOf r.user) hs hlisted hwhole hdistinct hfilter, rfl,
    perm_filter_mem_iff, fun price hprice hfit hfitpick sheet picked hsheet hpicked => ?_⟩
  rw [Position.map_pick hprice] at hfitpick hpicked
  exact aggregate_pick hfit hfitpick hsheet hpicked

/-- Of three receipts two are held; a filter names one of these and the one that is not held. -/
theorem positions_pick_held :
    let receipt (address : Address) : ProtocolToken :=
      { token := ⟨address, "Receipt", "R", 0⟩, underlyings := [⟨⟨0xD⟩, "Dollar", "D", 0⟩] }
    let tokens := [receipt ⟨1⟩, receipt ⟨2⟩, receipt ⟨3⟩]
    let node : Node :=
      { call := fun c => some ⟨true, Word.bytes (if c.target = ⟨2⟩ then 0 else 5)⟩
        logs := fun _ => none
        blockNumber := none
        timestamp := fun _ => none }
    let p : Pool Unit := Pool.oneToOne .ethereum (fun _ => node) (pure tokens)
    let r : PositionsRequest := { user := ⟨0xA⟩ }
    let held (address : Address) : Position :=
      { token := (receipt address).token, balance := 5,
        tokens := [.leaf ⟨⟨0xD⟩, "Dollar", "D", 0⟩ 5 .underlying] }
    p.ReadsAt r.block (Run.Both fun _ => True) ∧ (p.protocolTokens ()).1 = .ok tokens ∧
      (tokens.map fun t => t.token.address).Nodup ∧
      (∀ a ∈ [⟨3⟩, ⟨2⟩], ∃ t ∈ tokens, t.token.address = a) ∧
      (p.positions r ()).1 = .ok [held ⟨1⟩, held ⟨3⟩] ∧
      (p.positions { r with tokens := some [⟨3⟩, ⟨2⟩] } ()).1 = .ok [held ⟨3⟩] := by
  intro receipt tokens node p r held
  have hreads : p.ReadsAt r.block (Run.Both fun _ => True) :=
    { listing := Run.agrees_pure tokens
      node := fun _ _ _ => .refl _ _
      unwrap := fun _ _ => (Run.agrees_pure tokens).bind fun _ =>
        (Run.agrees_ofExcept _).bind fun _ => Run.agrees_pure _ }
  have hdistinct : (tokens.map fun t => t.token.address).Nodup := by decide
  have hfilter : ∀ a ∈ [⟨3⟩, ⟨2⟩], ∃ t ∈ tokens, t.token.address = a := by decide
  have hwhole : (p.positions r ()).1 = .ok [held ⟨1⟩, held ⟨3⟩] := by
    dsimp only [p, r, node, tokens, receipt, held]
    rfl
  obtain ⟨part, hpart, rfl, -⟩ := positions_pick hreads trivial rfl hdistinct rfl hfilter hwhole
  exact ⟨hreads, rfl, hdistinct, hfilter, hwhole, hpart⟩

/-- A filter that names a receipt twice shows what is held of it twice, and it is worth twice as much. -/
theorem positions_pick_repeated :
    let receipt : ProtocolToken :=
      { token := ⟨⟨1⟩, "Receipt", "R", 0⟩, underlyings := [⟨⟨0xD⟩, "Dollar", "D", 0⟩] }
    let node : Node :=
      { call := fun _ => some ⟨true, Word.bytes 5⟩
        logs := fun _ => none
        blockNumber := none
        timestamp := fun _ => none }
    let p : Pool Unit := Pool.oneToOne .ethereum (fun _ => node) (pure [receipt])
    let r : PositionsRequest := { user := ⟨0xA⟩ }
    let held : Position :=
      { token := receipt.token, balance := 5,
        tokens := [.leaf ⟨⟨0xD⟩, "Dollar", "D", 0⟩ 5 .underlying] }
    let filter : List Address := [⟨1⟩, ⟨1⟩]
    let priced : Position :=
      { held with tokens := [⟨⟨⟨0xD⟩, "Dollar", "D", 0⟩, 5, .underlying,
          [.leaf ⟨⟨0xF⟩, "US Dollar", "USD", 0⟩ 1 .fiat]⟩] }
    let worth (ps : List Position) : Option Int :=
      (aggregatePositions ps).toOption.map fun sheet => (Profit.valueOf sheet ⟨⟨1⟩, none⟩).numerator
    (p.positions r ()).1 = .ok [held] ∧
      (p.positions { r with tokens := some filter } ()).1 = .ok [held, held] ∧
      ¬ [held, held].Perm (Position.restrict filter [held]) ∧
      worth [priced] = some 5 ∧ worth [priced, priced] = some 10 := by
  intro receipt node p r held filter priced worth
  refine ⟨?_, ?_, fun hperm => absurd hperm.length_eq (by decide),
    by decide +kernel, by decide +kernel⟩
  all_goals
    dsimp only [p, r, node, receipt, filter, held]
    rfl

end Pool

/-! ### Products -/

theorem MorphoBlue.position_itemwise {σ : Type} {p : Provider σ} {Inv : σ → Prop} (contract : Address)
    (side : MarketSide) {r : PositionsRequest}
    (hnode : ∀ s s', Run.Both Inv s s' → (p s).AgreeAt r.block (p s')) :
    Itemwise (position p contract side r) Inv where
  agrees t := position_agrees hnode contract side rfl t
  token {t s s' q} hrun := by
    obtain ⟨assets, middle, -, hposition⟩ := Run.bind_eq_ok_iff.mp hrun
    split at hposition
    · cases hposition
    · obtain ⟨underlyings, s₁, -, hq⟩ := Run.bind_eq_ok_iff.mp hposition
      cases hq
      rfl

section
variable {σ : Type} {c : AdapterContext σ} {k : FungibleProduct} {tokens : List ProtocolToken}
  {block : Option Block} {n : Node} {s : σ}

/-- Whether the listing of a product is at hand, and the node says about a block what another one does. -/
structure AdapterContext.AtHand (c : AdapterContext σ) (k : FungibleProduct)
    (tokens : List ProtocolToken) (block : Option Block) (n : Node) (s : σ) : Prop where
  node : (c.provider s).AgreeAt block n
  listing : (c.cacheOf (k.adapter c).key).held? s = some tokens

theorem AdapterContext.AtHand.agreeAt {s' : σ} (h : Run.Both (c.AtHand k tokens block n) s s') :
    (c.provider s).AgreeAt block (c.provider s') where
  call call hcall := (h.1.node.call call hcall).trans (h.2.node.call call hcall).symm
  timestamp := h.1.node.timestamp.trans h.2.node.timestamp.symm

theorem AdapterContext.Separate.protocolTokens_always (hc : c.Separate) (hcached : k.isCached = true) :
    (k.adapter c).protocolTokens.Always (c.AtHand k tokens block n) (.ok tokens) := by
  intro s hs
  rw [FungibleProduct.protocolTokens_eq hcached]
  obtain ⟨after, hrun, hprovider, hkept⟩ := hc.getOrFetch_of_held _ hs.listing
  exact ⟨after, hrun, hprovider ▸ hs.node, (hkept _).trans hs.listing⟩

/-- A listing that is answered is at hand, whatever the node says then. -/
theorem AdapterContext.Separate.atHand_of_protocolTokens (hc : c.Separate) (hcached : k.isCached = true)
    (h : (k.adapter c).protocolTokens s = (.ok tokens, s')) :
    c.AtHand k tokens block (c.provider s') s' where
  node := .refl _ _
  listing := by
    rw [FungibleProduct.protocolTokens_eq hcached] at h
    exact hc.held?_of_getOrFetch h

theorem AdapterContext.AtHand.word_always {call : Call} {w : Word} (h : n.values? call = some [.word w])
    (hblock : call.block = block) :
    (c.provider.word call).Always (c.AtHand k tokens block n) (.ok w) := by
  intro s hs
  refine ⟨s, Provider.word_eq_ok_iff.mpr ⟨?_, rfl⟩, hs⟩
  rw [Node.values?, hs.node.call call hblock]
  exact h

/-- All products but prices find positions one token at a time. -/
theorem FungibleProduct.exists_gather (hc : c.Separate) (hcached : k.isCached = true)
    (tokens : List ProtocolToken) (n : Node) (r : PositionsRequest) :
    ∃ (p : Pool σ) (item : ProtocolToken → Run σ (Option Position)),
      p.protocolTokens = (k.adapter c).protocolTokens ∧
      Itemwise item (c.AtHand k tokens r.block n) ∧
      ∀ filter, (k.adapter c).positions { r with tokens := filter } = p.gather item filter := by
  have hlisting : (k.adapter c).protocolTokens.Agrees (Run.Both (c.AtHand k tokens r.block n)) :=
    (hc.protocolTokens_always hcached).agrees
  have hnode (s s' : σ) (h : Run.Both (c.AtHand k tokens r.block n) s s') :
      (c.provider s).AgreeAt r.block (c.provider s') := AdapterContext.AtHand.agreeAt h
  cases k with
  | announced k =>
    have hpool := k.pool_readsAt hnode hlisting
    have hheld (method : Method) := Pool.held_itemwise hpool method r.user
    cases k with
    | markets side contract ids =>
      exact ⟨_, _, rfl, MorphoBlue.position_itemwise contract side hnode, fun _ => rfl⟩
    | vaults | curatedVaults => exact ⟨_, _, rfl, hheld .balanceOf, fun _ => rfl⟩
    | pools side comptroller =>
      cases side with
      | supply => exact ⟨_, _, rfl, hheld .balanceOf, fun _ => rfl⟩
      | borrow => exact ⟨_, _, rfl, hheld .borrowBalanceStored, fun _ => rfl⟩
  | reserves reserve provider =>
    exact ⟨_, _, rfl, Pool.held_itemwise (Pool.oneToOne_readsAt hnode hlisting) .balanceOf r.user,
      fun _ => rfl⟩
  | staked token =>
    exact ⟨_, _, rfl, Pool.held_itemwise (Lido.pool_readsAt hnode token hlisting) .balanceOf r.user,
      fun _ => rfl⟩
  | prices feeds => cases hcached

/-- Whether an adapter that is made in a context answers a filter of the listing at hand with the positions
that it reports without one, picked token by token. -/
def Adapter.Picks (a : Adapter σ) (c : AdapterContext σ) : Prop :=
  ∀ (s : σ) (tokens : List ProtocolToken) (r : PositionsRequest) (filter : List Address)
    (whole : List Position), (c.cacheOf a.key).held? s = some tokens →
    (tokens.map fun t => t.token.address).Nodup → r.tokens = none →
    (∀ address ∈ filter, ∃ t ∈ tokens, t.token.address = address) → (a.positions r s).1 = .ok whole →
    (a.positions { r with tokens := some filter } s).1 = .ok (Position.pick filter whole)

/-- Every product but prices picks positions. -/
theorem FungibleProduct.picks (hc : c.Separate) (hcached : k.isCached = true) : (k.adapter c).Picks c := by
  intro s tokens r filter whole hheld hdistinct hall hfilter hwhole
  have hs : c.AtHand k tokens r.block (c.provider s) s := ⟨.refl _ _, hheld⟩
  have hlisting : (k.adapter c).protocolTokens.Always (c.AtHand k tokens r.block (c.provider s))
      (.ok tokens) := hc.protocolTokens_always hcached
  obtain ⟨p, item, hp, hitem, hgather⟩ := exists_gather hc hcached tokens (c.provider s) r
  rw [← hp] at hlisting
  have hgathered : (p.gather item none s).1 = .ok whole := by
    rw [← hgather, ← hall]
    exact hwhole
  rw [hgather]
  exact Pool.gather_eq_pick hlisting.agrees hitem hs (hlisting.eq hs) hgathered hdistinct hfilter

end

end Chainfolio
