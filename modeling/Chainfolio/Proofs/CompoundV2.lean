import Chainfolio.Proofs.Adapter.Restriction
import Chainfolio.Proofs.Rates.Unwrap

/-! What Compound v2 markets report of a user. The rate of a whole receipt is rounded down before a balance
is multiplied by it, so that a position may be short of the exact amount by one unit for each receipt, a
part of one included, and no more. A debt is reported as it is. -/
namespace Chainfolio.CompoundV2

/-! ### Rounding -/

section
variable (B E : Nat) {q w : Nat}

/-- A rate that is rounded down before it is multiplied makes nothing larger. -/
theorem floor_of_floor_le (hq : 0 < q) : B * (E * q / w) / q ≤ B * E / w :=
  calc B * (E * q / w) / q
      ≤ B * (E * q) / w / q := Nat.div_le_div_right (Nat.mul_div_le_mul_div_assoc ..)
    _ = B * E * q / (w * q) := by rw [Nat.div_div_eq_div_mul, Nat.mul_assoc]
    _ = B * E / w := Nat.mul_div_mul_right _ _ hq

/-- What is lost by rounding the rate is at most one unit for each receipt, a part of one included. -/
theorem floor_le_floor_of_floor (hq : 0 < q) (hw : 0 < w) :
    B * E / w ≤ B * (E * q / w) / q + B ⌈/⌉ q := by
  have hrate : E * q ≤ (E * q / w + 1) * w := (Nat.lt_div_mul_add hw).le.trans (by rw [Nat.succ_mul])
  have hexact : B * E / w * w ≤ B * E := Nat.div_mul_le_self _ _
  have hwhole : B ≤ q * (B ⌈/⌉ q) := le_smul_ceilDiv hq
  -- Over the scale of both divisions, the only floor that is left is the one of the rate.
  have hscaled : B * E / w * q ≤ B * (E * q / w) + q * (B ⌈/⌉ q) := by
    refine Nat.le_of_mul_le_mul_right ?_ hw
    calc B * E / w * q * w
        = B * E / w * w * q := Nat.mul_right_comm ..
      _ ≤ B * E * q := Nat.mul_le_mul_right q hexact
      _ = B * (E * q) := Nat.mul_assoc ..
      _ ≤ B * ((E * q / w + 1) * w) := Nat.mul_le_mul_left B hrate
      _ = (B * (E * q / w) + B) * w := by rw [← Nat.mul_assoc, Nat.mul_succ]
      _ ≤ (B * (E * q / w) + q * (B ⌈/⌉ q)) * w := Nat.mul_le_mul_right w (Nat.add_le_add_left hwhole _)
  calc B * E / w
      ≤ (B * (E * q / w) + q * (B ⌈/⌉ q)) / q := (Nat.le_div_iff_mul_le hq).mpr hscaled
    _ = B * (E * q / w) / q + B ⌈/⌉ q := Nat.add_mul_div_left _ _ hq

end

/-! ### Amounts -/

/-- What a balance of receipts is worth at an exchange rate. -/
def receiptAmount (balance exchangeRate : Word) (decimals : UInt8) : Word :=
  balance * (exchangeRate * Word.pow10 decimals / FixedPoint.wad) / Word.pow10 decimals

/-- Whether the products by which a balance of receipts is converted fit a word. -/
structure Fits (balance exchangeRate : Word) (decimals : UInt8) : Prop where
  power : decimals.toNat ≤ Word.maxDecimals
  whole : exchangeRate.toNat * tenTo decimals.toNat < twoTo 256
  product : balance.toNat * (exchangeRate.toNat * tenTo decimals.toNat / tenTo 18) < twoTo 256

section
variable {balance exchangeRate : Word} {decimals : UInt8} {t : ProtocolToken}

theorem Fits.receiptRate_eq_ok (h : Fits balance exchangeRate decimals) :
    receiptRate exchangeRate decimals =
      .ok (exchangeRate * Word.pow10 decimals / FixedPoint.wad) := by
  refine FixedPoint.mulDivDown_eq_ok_div_iff.mpr ⟨by decide, ?_, rfl⟩
  rw [Word.toNat_pow10 h.power]
  exact h.whole

theorem Fits.toNat_rate (h : Fits balance exchangeRate decimals) :
    (exchangeRate * Word.pow10 decimals / FixedPoint.wad).toNat =
      exchangeRate.toNat * tenTo decimals.toNat / tenTo 18 := by
  have hpower := Word.toNat_pow10 h.power
  rw [Word.toNat_mul_div _ (hpower ▸ h.whole), hpower]
  rfl

theorem Fits.toNat_receiptAmount (h : Fits balance exchangeRate decimals) :
    (receiptAmount balance exchangeRate decimals).toNat =
      balance.toNat * (exchangeRate.toNat * tenTo decimals.toNat / tenTo 18) /
        tenTo decimals.toNat := by
  rw [receiptAmount, Word.toNat_mul_div _ (h.toNat_rate ▸ h.product), h.toNat_rate,
    Word.toNat_pow10 h.power]

/-- Whether an amount is what a balance of receipts is worth, or less by at most one unit for each receipt, a
part of one included. -/
def WithinRounding (balance exchangeRate : Word) (decimals : UInt8) (amount : Word) : Prop :=
  amount.toNat ≤ balance.toNat * exchangeRate.toNat / tenTo 18 ∧
    balance.toNat * exchangeRate.toNat / tenTo 18 ≤
      amount.toNat + balance.toNat ⌈/⌉ tenTo decimals.toNat

theorem withinRounding_receiptAmount (h : balance ≠ 0 → Fits balance exchangeRate decimals) :
    WithinRounding balance exchangeRate decimals (receiptAmount balance exchangeRate decimals) := by
  by_cases hzero : balance = 0
  · subst hzero
    simp [WithinRounding, receiptAmount]
  · have hscale : 0 < tenTo decimals.toNat := Nat.pow_pos (by decide)
    rw [WithinRounding, (h hzero).toNat_receiptAmount]
    exact ⟨floor_of_floor_le _ _ hscale, floor_le_floor_of_floor _ _ hscale (by decide)⟩

/-- A uniform rate converts a balance to one amount of each underlying token. -/
theorem uniformRate_underlyings_eq_ok {rate : Word} (h : balance.toNat * rate.toNat < twoTo 256) :
    (t.uniformRate rate).underlyings balance =
      .ok (t.underlyings.map fun u =>
        .leaf u (balance * rate / Word.pow10 t.token.decimals) .underlying) := by
  refine UnwrapRate.underlyings_eq_ok_iff.mpr ⟨fun r hr => ?_, ?_⟩
  · obtain ⟨u, -, rfl⟩ := List.mem_map.mp hr
    exact h
  · rw [UnwrapRate.amounts, ProtocolToken.uniformRate, List.map_map]
    rfl

/-- One to one, a debt comes out as it is. -/
theorem debt_mul_div_cancel {debt : Word} (h : debt.toNat * tenTo decimals.toNat < twoTo 256) :
    debt.toNat * (Word.pow10 decimals).toNat < twoTo 256 ∧
      debt * Word.pow10 decimals / Word.pow10 decimals = debt := by
  have hle : (Word.pow10 decimals).toNat ≤ tenTo decimals.toNat := Nat.mod_le _ _
  have hfits := (Nat.mul_le_mul_left debt.toNat hle).trans_lt h
  refine ⟨hfits, BitVec.eq_of_toNat_eq ?_⟩
  rw [Word.toNat_mul_div _ hfits, Nat.mul_div_cancel _ (Word.pow10_pos decimals)]

end

/-! ### Positions -/

/-- Whether a node answers what the position of a receipt is made from, and the balance can be converted. -/
structure Supplied (n : Node) (r : PositionsRequest) (t : ProtocolToken) (balance exchangeRate : Word) :
    Prop where
  balanceOf : n.values? ⟨t.token.address, .balanceOf, [.word r.user.toWord], r.block, none⟩ =
    some [.word balance]
  exchangeRateStored : balance ≠ 0 →
    n.values? ⟨t.token.address, .exchangeRateStored, [], r.block, none⟩ = some [.word exchangeRate]
  fits : balance ≠ 0 → Fits balance exchangeRate t.token.decimals

/-- Whether a node answers a debt that fits a word together with the power of ten of its token. -/
structure Owed (n : Node) (r : PositionsRequest) (t : ProtocolToken) (debt : Word) : Prop where
  borrowBalanceStored :
    n.values? ⟨t.token.address, .borrowBalanceStored, [.word r.user.toWord], r.block, none⟩ =
      some [.word debt]
  fits : debt.toNat * tenTo t.token.decimals.toNat < twoTo 256

/-- The position of a protocol token, unless its balance is zero: an amount of each underlying token that
is listed for its address. -/
def shown (tokens : List ProtocolToken) (balance amount : Address → Word) (t : ProtocolToken) :
    Option Position :=
  if balance t.token.address = 0 then none
  else (ProtocolToken.find? tokens t.token.address).map fun u =>
    { token := t.token
      balance := balance t.token.address
      tokens := u.underlyings.map fun v => .leaf v (amount t.token.address) .underlying }

/-- What the balance of an address is worth with the decimals of the token that is listed for it. -/
def listedAmount (tokens : List ProtocolToken) (balance exchangeRate : Address → Word) (a : Address) :
    Word :=
  (ProtocolToken.find? tokens a).elim 0 fun u =>
    receiptAmount (balance a) (exchangeRate a) u.token.decimals

theorem listedAmount_of_find? {tokens : List ProtocolToken} {u : ProtocolToken} {a : Address}
    (balance exchangeRate : Address → Word) (hfind : ProtocolToken.find? tokens a = some u) :
    listedAmount tokens balance exchangeRate a =
      receiptAmount (balance a) (exchangeRate a) u.token.decimals := by
  rw [listedAmount, hfind, Option.elim_some]

section
variable {σ : Type} {c : AdapterContext σ} {comptroller : Address} {r : PositionsRequest} {s s₁ : σ}
  {tokens named : List ProtocolToken} {side : MarketSide} {n : Node}

theorem unwrap_always (hc : c.Separate) {a : Address} {u : ProtocolToken} {w : Word}
    (hfind : ProtocolToken.find? tokens a = some u)
    (hrate : (rate c.provider side u.token r.block).Always
      (c.AtHand (.announced (.pools side comptroller)) tokens r.block n) (.ok w)) :
    ((pool c side comptroller).unwrap { token := a, block := r.block }).Always
      (c.AtHand (.announced (.pools side comptroller)) tokens r.block n) (.ok (u.uniformRate w)) := by
  refine (hc.protocolTokens_always (k := .announced (.pools side comptroller)) rfl).bind_ok ?_
  have hget : ProtocolToken.get c.chain tokens a = .ok u := by rw [ProtocolToken.get, hfind]
  rw [hget]
  exact (Run.always_ofExcept _).bind_ok (hrate.bind_ok (Run.always_pure _))

/-- A listed token shows its balance at the rate of the first token of its address. -/
theorem held_always (hc : c.Separate) {method : Method} {t u : ProtocolToken} {w : Word}
    {balance amount : Address → Word}
    (hfind : ProtocolToken.find? tokens t.token.address = some u)
    (hbalance : n.values? ⟨t.token.address, method, [.word r.user.toWord], r.block, none⟩ =
      some [.word (balance t.token.address)])
    (hrate : balance t.token.address ≠ 0 →
      (rate c.provider side u.token r.block).Always
        (c.AtHand (.announced (.pools side comptroller)) tokens r.block n) (.ok w) ∧
      (balance t.token.address).toNat * w.toNat < twoTo 256 ∧
      amount t.token.address = balance t.token.address * w / Word.pow10 u.token.decimals) :
    ((pool c side comptroller).held method r.user r.block t).Always
      (c.AtHand (.announced (.pools side comptroller)) tokens r.block n)
      (.ok (shown tokens balance amount t)) := by
  rw [shown, hfind, Option.map_some]
  refine Pool.held_always (AdapterContext.AtHand.word_always hbalance rfl) fun hzero => ?_
  obtain ⟨hanswer, hfits, hamount⟩ := hrate hzero
  refine ⟨_, unwrap_always hc hfind hanswer, ?_⟩
  rw [hamount]
  exact uniformRate_underlyings_eq_ok hfits

theorem supplied_held_always (hc : c.Separate) {t u : ProtocolToken}
    {balance exchangeRate : Address → Word}
    (hfind : ProtocolToken.find? tokens t.token.address = some u)
    (h : Supplied n r u (balance u.token.address) (exchangeRate u.token.address)) :
    ((pool c .supply comptroller).held .balanceOf r.user r.block t).Always
      (c.AtHand (.announced (.pools .supply comptroller)) tokens r.block n)
      (.ok (shown tokens balance (listedAmount tokens balance exchangeRate) t)) := by
  -- The rate is read of the listed token, which has the address of the one that is asked for.
  have haddress := (ProtocolToken.of_find?_eq_some hfind).2
  have hamount := listedAmount_of_find? balance exchangeRate hfind
  have hbalance := h.balanceOf
  rw [haddress] at h hbalance
  refine held_always hc hfind hbalance fun hzero => ⟨?_, ?_, hamount⟩
  · refine (AdapterContext.AtHand.word_always (h.exchangeRateStored hzero) rfl).bind_ok ?_
    rw [(h.fits hzero).receiptRate_eq_ok]
    exact Run.always_ofExcept _
  · exact (h.fits hzero).toNat_rate ▸ (h.fits hzero).product

theorem owed_held_always (hc : c.Separate) {t u : ProtocolToken} {debt : Address → Word}
    (hfind : ProtocolToken.find? tokens t.token.address = some u)
    (h : Owed n r u (debt u.token.address)) :
    ((pool c .borrow comptroller).held .borrowBalanceStored r.user r.block t).Always
      (c.AtHand (.announced (.pools .borrow comptroller)) tokens r.block n)
      (.ok (shown tokens debt debt t)) := by
  have haddress := (ProtocolToken.of_find?_eq_some hfind).2
  have hdebt := h.borrowBalanceStored
  rw [haddress] at h hdebt
  obtain ⟨hfits, hcancel⟩ := debt_mul_div_cancel h.fits
  exact held_always hc hfind hdebt fun _ => ⟨Run.always_pure _, hfits, hcancel.symm⟩

/-- The positions of suppliers lose a bounded amount to rounding, and those of borrowers lose nothing. When
the node answers what they are made from and no product overflows, the positions of the requested tokens are
reported. A supplier's underlying amounts are at most what the balance is worth at the exchange rate, and short
of it by at most one unit for each receipt, a part of one included; a borrower's are exactly the debt. -/
theorem positions_within_rounding (hc : c.Separate) (comptroller : Address) (r : PositionsRequest)
    (s s₁ : σ) (tokens named : List ProtocolToken)
    (hnamed : ProtocolToken.filter c.chain tokens r.tokens = .ok named) :
    (∀ balance exchangeRate : Address → Word,
      (adapter c .supply comptroller).protocolTokens s = (.ok tokens, s₁) →
      (∀ t ∈ named, ∀ u, ProtocolToken.find? tokens t.token.address = some u →
        Supplied (c.provider s₁) r u (balance u.token.address) (exchangeRate u.token.address)) →
      ∃ amount : Address → Word,
        ((adapter c .supply comptroller).positions r s).1 =
          .ok (named.filterMap (shown tokens balance amount)) ∧
        ∀ t ∈ named, ∀ u, ProtocolToken.find? tokens t.token.address = some u →
          WithinRounding (balance u.token.address) (exchangeRate u.token.address) u.token.decimals
            (amount u.token.address)) ∧
    ∀ debt : Address → Word,
      (adapter c .borrow comptroller).protocolTokens s = (.ok tokens, s₁) →
      (∀ t ∈ named, ∀ u, ProtocolToken.find? tokens t.token.address = some u →
        Owed (c.provider s₁) r u (debt u.token.address)) →
      ((adapter c .borrow comptroller).positions r s).1 =
        .ok (named.filterMap (shown tokens debt debt)) := by
  -- Once the listing is answered it stays at hand, so that no position depends on the ones before it.
  refine ⟨fun balance exchangeRate hlisted hsupplied => ?_, fun debt hlisted howed => ?_⟩
  · have hs₁ : c.AtHand (.announced (.pools .supply comptroller)) tokens r.block (c.provider s₁) s₁ :=
      hc.atHand_of_protocolTokens rfl hlisted
    refine ⟨listedAmount tokens balance exchangeRate,
      Pool.gather_eq_ok hlisted hnamed hs₁ fun t ht => ?_, fun t ht u hfind => ?_⟩
    · obtain ⟨u, hfind⟩ := ProtocolToken.find?_of_filter hnamed ht
      exact supplied_held_always hc hfind (hsupplied t ht u hfind)
    · have haddress := (ProtocolToken.of_find?_eq_some hfind).2
      rw [listedAmount_of_find? balance exchangeRate (haddress ▸ hfind)]
      exact withinRounding_receiptAmount (hsupplied t ht u hfind).fits
  · have hs₁ : c.AtHand (.announced (.pools .borrow comptroller)) tokens r.block (c.provider s₁) s₁ :=
      hc.atHand_of_protocolTokens rfl hlisted
    refine Pool.gather_eq_ok hlisted hnamed hs₁ fun t ht => ?_
    obtain ⟨u, hfind⟩ := ProtocolToken.find?_of_filter hnamed ht
    exact owed_held_always hc hfind (howed t ht u hfind)

end

/-- Ten receipts at a rate that is worth twelve units and a bit, of which each receipt shows the whole units
only; and a debt of as much. -/
theorem positions_within_rounding_tenth :
    let dollar : Token := ⟨⟨0xD⟩, "Dollar", "D", 0⟩
    let receipt : ProtocolToken := { token := ⟨⟨1⟩, "Receipt", "R", 8⟩, underlyings := [dollar] }
    let node : Node :=
      { call := fun c => some ⟨true,
          if c.method = .exchangeRateStored then Word.bytes 12345678912 else Word.bytes 1000000000⟩
        logs := fun _ => none
        blockNumber := none
        timestamp := fun _ => none }
    let c : AdapterContext (ProductKey → TokenMemo) :=
      { chain := .ethereum
        provider := fun _ => node
        store := none
        memo := fun key => ⟨fun s => s key, fun m s other => if key = other then m else s other⟩ }
    let s : ProductKey → TokenMemo := fun _ => some [receipt]
    let r : PositionsRequest := { user := ⟨0xA⟩ }
    let position (amount : Word) : Position :=
      { token := receipt.token, balance := 1000000000, tokens := [.leaf dollar amount .underlying] }
    c.Separate ∧ ProtocolToken.filter c.chain [receipt] r.tokens = .ok [receipt] ∧
      (∀ side, (adapter c side comptroller).protocolTokens s = (.ok [receipt], s)) ∧
      Supplied node r receipt 1000000000 12345678912 ∧ Owed node r receipt 1000000000 ∧
      (∃ amount, ((adapter c .supply comptroller).positions r s).1 = .ok [position amount] ∧
        amount.toNat ≤ 12 ∧ 12 ≤ amount.toNat + 10) ∧
      ((adapter c .borrow comptroller).positions r s).1 = .ok [position 1000000000] := by
  intro dollar receipt node c s r position
  have hc : c.Separate :=
    { get_set := fun _ _ _ _ => rfl
      provider_set := fun _ _ _ => rfl
      store_set := nofun
      get_look := nofun
      provider_look := nofun
      store_look := nofun }
  have hlisted (side : MarketSide) : (adapter c side comptroller).protocolTokens s = (.ok [receipt], s) :=
    rfl
  have hsupplied : Supplied node r receipt 1000000000 12345678912 :=
    { balanceOf := rfl
      exchangeRateStored := fun _ => rfl
      fits := fun _ => ⟨by decide, by decide, by decide⟩ }
  have howed : Owed node r receipt 1000000000 := ⟨rfl, by decide⟩
  have honly {t u : ProtocolToken} (ht : t ∈ [receipt])
      (hfind : ProtocolToken.find? [receipt] t.token.address = some u) : u = receipt :=
    List.mem_singleton.mp (ProtocolToken.of_find?_eq_some hfind).1
  obtain ⟨hsupply, hborrow⟩ :=
    positions_within_rounding hc comptroller r s s [receipt] [receipt] rfl
  refine ⟨hc, rfl, hlisted, hsupplied, howed, ?_, ?_⟩
  · obtain ⟨amount, hpositions, hbounds⟩ :=
      hsupply (fun _ => 1000000000) (fun _ => 12345678912) (hlisted .supply) fun t ht u hfind =>
        honly ht hfind ▸ hsupplied
    obtain ⟨hle, hge⟩ := hbounds receipt List.mem_cons_self receipt rfl
    have hwhole : (1000000000 : Word).toNat ⌈/⌉ tenTo receipt.token.decimals.toNat = 10 :=
      (FixedPoint.ceilDiv_eq_carry_div _ (by decide)).trans (by decide)
    rw [hwhole] at hge
    exact ⟨amount receipt.token.address, hpositions, hle, hge⟩
  · exact hborrow (fun _ => 1000000000) (hlisted .borrow) fun t ht u hfind => honly ht hfind ▸ howed

end Chainfolio.CompoundV2
