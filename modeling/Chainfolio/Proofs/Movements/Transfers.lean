import Mathlib.Data.List.Basic
import Chainfolio.Adapter.Pool
import Chainfolio.Proofs.Run

/-! Movements that are transfers of the protocol token itself. Among any logs of the token the mints are
the mined transfers from nobody to the user and the burns those back, each worth what the token unwraps
into at the block of its log, however many other logs the node returns beside the ones it is asked for. -/
namespace Chainfolio

/-- A transfer in a mined transaction. -/
structure MinedTransfer where
  sender : Address
  recipient : Address
  value : Word
  block : Block
  transaction : Hash

/-- The transfer that a log reports, unless it is pending. -/
def Log.transfer? (log : Log) : Option MinedTransfer :=
  match log.event, log.block, log.transaction with
  | .transfer sender recipient value, some block, some transaction =>
    some ⟨sender, recipient, value, block, transaction⟩
  | _, _, _ => none

namespace TransferKind

/-- Whether a transfer creates or destroys what a user has. -/
def Covers (user : Address) (m : MinedTransfer) : TransferKind → Prop
  | mint => m.sender = .zero ∧ m.recipient = user
  | burn => m.sender = user ∧ m.recipient = .zero

instance (user : Address) (m : MinedTransfer) (kind : TransferKind) :
    Decidable (kind.Covers user m) := by
  cases kind <;> exact inferInstanceAs (Decidable (_ ∧ _))

/-- The transfer of this kind that a log reports. -/
def reported? (kind : TransferKind) (user : Address) (log : Log) : Option MinedTransfer :=
  log.transfer?.filter fun m => kind.Covers user m

end TransferKind

/-- Whether a log is a transfer of the token of a request, and not outside the blocks of the request. -/
def EventsRequest.Concerns (r : EventsRequest) (log : Log) : Prop :=
  log.address = r.token ∧ log.event.kind = .transfer ∧
    ∀ block ∈ log.block, r.fromBlock ≤ block ∧ block ≤ r.toBlock

/-- Whether a node answers a query with some of the logs, among them all that the query asks for. -/
def Node.Offers (n : Node) (logs : List Log) (f : LogFilter) : Prop :=
  ∃ answered, n.logs f = some answered ∧ answered.Sublist logs ∧
    (logs.filter f.admits).Sublist answered

theorem Node.offers_of_filtered {n : Node} {logs : List Log} {f : LogFilter}
    (h : n.logs f = some (logs.filter f.admits)) : n.Offers logs f :=
  ⟨_, h, List.filter_sublist, .refl _⟩

theorem Node.offers_of_all {n : Node} {logs : List Log} {f : LogFilter} (h : n.logs f = some logs) :
    n.Offers logs f := ⟨_, h, .refl _, List.filter_sublist⟩

/-- The movement of a transfer, at what the protocol token unwraps into at the block of the transfer. -/
def Pool.moved {σ : Type} (p : Pool σ) (t : ProtocolToken) (m : MinedTransfer) : Run σ Movement := do
  let rate ← p.unwrap { token := t.token.address, block := some m.block }
  let underlyings ← Run.ofExcept (rate.underlyings m.value)
  return ⟨{ token := t.token }, underlyings, m.block, m.transaction⟩

section
variable {kind : TransferKind} {user : Address} {log : Log} {m : MinedTransfer}

theorem TransferKind.covers_iff :
    kind.Covers user m ↔ (m.sender, m.recipient) = kind.parties user := by
  cases kind <;> simp [Covers, parties]

theorem TransferKind.reported?_eq_some :
    kind.reported? user log = some m ↔ log.transfer? = some m ∧ kind.Covers user m := by
  simp [reported?, Option.filter_eq_some_iff]

theorem Log.transfer?_eq_some :
    log.transfer? = some m ↔ log.event = .transfer m.sender m.recipient m.value ∧
      log.block = some m.block ∧ log.transaction = some m.transaction := by
  rcases log with ⟨address, event, block, transaction⟩
  cases m
  cases event <;> cases block <;> cases transaction <;> simp [transfer?, and_assoc]

/-- No transfer comes to a user and goes from the user at once, unless the user is nobody. -/
theorem TransferKind.not_covers_both (huser : user ≠ .zero)
    (hmint : mint.Covers user m) : ¬ burn.Covers user m := by
  rintro ⟨hsender, -⟩
  exact huser (hsender.symm.trans hmint.1)

/-- What is asked for are the transfers of a kind, and whatever else is pending. -/
theorem Pool.admits_of_reported {r : EventsRequest} (hconcerns : r.Concerns log)
    (h : kind.reported? r.user log = some m) : (transferFilter kind r).admits log = true := by
  obtain ⟨htransfer, hcovers⟩ := TransferKind.reported?_eq_some.mp h
  obtain ⟨hevent, hblock, -⟩ := Log.transfer?_eq_some.mp htransfer
  obtain ⟨haddress, hkind, hrange⟩ := hconcerns
  have hparties := TransferKind.covers_iff.mp hcovers
  simp only [LogFilter.admits, transferFilter, haddress, ← hparties, hevent, Event.kind, Event.topics,
    LogFilter.topicsMatch, LogFilter.inRange, hblock, hrange _ hblock]
  simp

/-- Whatever is added to the logs that are asked for, they report the same transfers. -/
theorem Pool.filterMap_reported_eq {logs answered : List Log} {r : EventsRequest}
    (hlogs : ∀ log ∈ logs, r.Concerns log) (hsub : answered.Sublist logs)
    (hasked : (logs.filter (transferFilter kind r).admits).Sublist answered) :
    answered.filterMap (kind.reported? r.user) = logs.filterMap (kind.reported? r.user) := by
  have hfilter : (logs.filter (transferFilter kind r).admits).filterMap (kind.reported? r.user) =
      logs.filterMap (kind.reported? r.user) := by
    rw [List.filterMap_filter]
    refine List.filterMap_congr fun log hlog => ?_
    cases h : kind.reported? r.user log with
    | none => exact ite_self none
    | some m => rw [if_pos (admits_of_reported (hlogs log hlog) h)]
  refine (hsub.filterMap _).antisymm ?_
  rw [← hfilter]
  exact hasked.filterMap _

end

section
variable {σ : Type} {p : Pool σ} {t : ProtocolToken} {kind : TransferKind} {user : Address} {log : Log}

/-- A log that is no transfer of the kind moves nothing. -/
theorem Pool.transferMovement_of_none (hkind : log.event.kind = .transfer)
    (h : kind.reported? user log = none) :
    p.transferMovement t (kind.parties user) log = pure none := by
  rcases log with ⟨address, event, block, transaction⟩
  cases event with
  | transfer sender recipient value =>
    cases block with
    | none => rfl
    | some block =>
      cases transaction with
      | none => rfl
      | some transaction =>
        have hparties : (sender, recipient) ≠ kind.parties user := by
          intro hparties
          have hsome := TransferKind.reported?_eq_some.mpr
            ⟨(rfl : Log.transfer? ⟨address, .transfer sender recipient value, some block,
              some transaction⟩ = _), TransferKind.covers_iff.mpr hparties⟩
          rw [h] at hsome
          cases hsome
        exact if_neg hparties
  | _ => cases hkind

theorem Pool.transferMovement_of_some {m : MinedTransfer} (h : kind.reported? user log = some m) :
    p.transferMovement t (kind.parties user) log = do return some (← p.moved t m) := by
  obtain ⟨htransfer, hcovers⟩ := TransferKind.reported?_eq_some.mp h
  obtain ⟨hevent, hblock, htransaction⟩ := Log.transfer?_eq_some.mp htransfer
  simp only [transferMovement, hblock, htransaction, hevent,
    if_pos (TransferKind.covers_iff.mp hcovers), moved, bind_assoc, pure_bind]
  rfl

/-- The movements of a kind are those of its transfers among the logs, whatever else the node returns. -/
theorem Pool.movements_eq {node : Provider σ} {r : EventsRequest} {logs : List Log} {s : σ}
    (hlogs : ∀ log ∈ logs, r.Concerns log)
    (hnode : ∀ t s', p.token r.token s = (.ok t, s') →
      (node s').Offers logs (transferFilter kind r)) :
    { p with provider := node }.movements kind r s =
      (do
        let t ← p.token r.token
        Run.forEach (p.moved t) (logs.filterMap (kind.reported? r.user))) s := by
  rcases htoken : p.token r.token s with ⟨e | t, s'⟩
  · rw [Run.bind_error htoken]
    exact Run.bind_error htoken
  · obtain ⟨answered, hanswered, hsub, hasked⟩ := hnode t s' htoken
    have hanswer : node.logs (transferFilter kind r) s' = (.ok answered, s') := by
      rw [Provider.logs, Run.bind_ok (Run.read_apply node s'), hanswered]
      rfl
    rw [Run.bind_ok htoken, ← filterMap_reported_eq hlogs hsub hasked]
    refine (Run.bind_ok htoken).trans ((Run.bind_ok hanswer).trans ?_)
    refine congrFun (Run.filterEach_eq_forEach (fun log hlog hnone => ?_) fun log _ m hsome => ?_) s'
    · exact transferMovement_of_none (hlogs log (hsub.subset hlog)).2.1 hnone
    · exact transferMovement_of_some hsome

theorem Pool.moved_eq_ok {m : MinedTransfer} {movement : Movement} {s s' : σ}
    (h : p.moved t m s = (.ok movement, s')) :
    ∃ rate, p.unwrap { token := t.token.address, block := some m.block } s = (.ok rate, s') ∧
      rate.underlyings m.value = .ok movement.tokens ∧
      movement.protocolToken = { token := t.token } ∧ movement.block = m.block ∧
      movement.transaction = m.transaction := by
  obtain ⟨rate, s₁, hrate, h⟩ := Run.bind_eq_ok_iff.mp h
  obtain ⟨underlyings, s₂, hconverted, hmade⟩ := Run.bind_eq_ok_iff.mp h
  obtain ⟨hunderlyings, rfl⟩ := Run.ofExcept_eq_ok_iff.mp hconverted
  cases hmade
  exact ⟨rate, hrate, hunderlyings, rfl, rfl, rfl⟩

/-- The mints and the burns of a user among any logs of the protocol token in the range. Every node that
returns some of the logs, and at least those that it is asked for, leads to the same outcome: the mined
transfers of the kind, in the order of the logs, each unwrapped at its own block. No log is in both. -/
theorem Pool.movements_partition_transfers (p : Pool σ) (node : Provider σ) (r : EventsRequest)
    (logs : List Log) (s : σ) (huser : r.user ≠ .zero) (hlogs : ∀ log ∈ logs, r.Concerns log)
    (hnode : ∀ kind t s', p.token r.token s = (.ok t, s') →
      (node s').Offers logs (transferFilter kind r)) :
    (∀ kind : TransferKind, { p with provider := node }.movements kind r s =
      (do
        let t ← p.token r.token
        Run.forEach (p.moved t) (logs.filterMap (kind.reported? r.user))) s) ∧
    (∀ (kind : TransferKind) movements s',
      { p with provider := node }.movements kind r s = (.ok movements, s') →
        ∃ t s₁, p.token r.token s = (.ok t, s₁) ∧
          List.Forall₂ (fun m movement => ∃ rate before after,
            p.unwrap { token := t.token.address, block := some m.block } before = (.ok rate, after) ∧
            rate.underlyings m.value = .ok movement.tokens ∧
            movement.protocolToken = { token := t.token } ∧ movement.block = m.block ∧
            movement.transaction = m.transaction)
            (logs.filterMap (kind.reported? r.user)) movements) ∧
    ∀ log m, TransferKind.mint.reported? r.user log = some m →
      TransferKind.burn.reported? r.user log = none := by
  have hrun (kind : TransferKind) : { p with provider := node }.movements kind r s =
      (do
        let t ← p.token r.token
        Run.forEach (p.moved t) (logs.filterMap (kind.reported? r.user))) s :=
    movements_eq hlogs (hnode kind)
  refine ⟨hrun, fun kind movements s' h => ?_, fun log m hmint => ?_⟩
  · rw [hrun] at h
    obtain ⟨t, s₁, htoken, h⟩ := Run.bind_eq_ok_iff.mp h
    refine ⟨t, s₁, htoken, (Run.forall₂_of_forEach h).imp ?_⟩
    rintro m movement ⟨before, after, hmoved⟩
    obtain ⟨rate, hrate, hmoved⟩ := moved_eq_ok hmoved
    exact ⟨rate, before, after, hrate, hmoved⟩
  · obtain ⟨htransfer, hcovers⟩ := TransferKind.reported?_eq_some.mp hmint
    refine Option.eq_none_iff_forall_ne_some.mpr fun m' hburn => ?_
    obtain ⟨htransfer', hcovers'⟩ := TransferKind.reported?_eq_some.mp hburn
    obtain rfl := Option.some.inj (htransfer.symm.trans htransfer')
    exact TransferKind.not_covers_both huser hcovers hcovers'

/-- A token that is worth more at later blocks, with a node that filters and one that does not. -/
theorem Pool.movements_partition_transfers_growing :
    let user : Address := ⟨0xA⟩
    let other : Address := ⟨0xB⟩
    let dollar : Token := ⟨⟨0xD⟩, "Dollar", "D", 6⟩
    let share : ProtocolToken := { token := ⟨⟨0xE⟩, "Share", "S", 0⟩, underlyings := [dollar] }
    let transfer (sender recipient : Address) (value : Word) (block : Option Block) : Log :=
      ⟨share.token.address, .transfer sender recipient value, block, some ⟨7⟩⟩
    let logs : List Log :=
      [transfer .zero user 5 (some 10), transfer .zero other 6 (some 11),
        transfer user other 4 (some 12), transfer user user 3 (some 13),
        transfer user .zero 2 (some 14), transfer .zero user 1 none, transfer other user 9 (some 15),
        transfer .zero user 8 (some 16), transfer .zero .zero 7 (some 17)]
    let node (answer : LogFilter → List Log) : Node :=
      ⟨fun _ => none, fun f => some (answer f), some 30, fun _ => none⟩
    let filtering : Provider Unit := fun _ => node fun f => logs.filter f.admits
    let careless : Provider Unit := fun _ => node fun _ => logs
    let p : Pool Unit :=
      { chain := .ethereum
        provider := filtering
        protocolTokens := pure [share]
        unwrap := fun r => pure (share.uniformRate (BitVec.ofNat 256 (r.block.getD 0).toNat)) }
    let moved (amount : Word) (block : Block) : Movement :=
      ⟨{ token := share.token }, [.leaf dollar amount .underlying], block, ⟨7⟩⟩
    let r : EventsRequest := ⟨user, share.token.address, 10, 20, none⟩
    r.user ≠ .zero ∧ (∀ log ∈ logs, r.Concerns log) ∧
    ∀ node ∈ [filtering, careless],
      (∀ kind, (node ()).Offers logs (transferFilter kind r)) ∧
      { p with provider := node }.movements .mint r () = (.ok [moved 50 10, moved 128 16], ()) ∧
      { p with provider := node }.movements .burn r () = (.ok [moved 28 14], ()) := by
  intro user other dollar share transfer logs node filtering careless p moved r
  have huser : r.user ≠ .zero := by decide
  have hlogs : ∀ log ∈ logs, r.Concerns log := by
    have hevents : ∀ log ∈ logs, log.address = r.token ∧ log.event.kind = .transfer := by decide
    have hblocks : ∀ log ∈ logs, log.block.all fun b => decide (10 ≤ b ∧ b ≤ 20) := by decide
    intro log hlog
    refine ⟨(hevents log hlog).1, (hevents log hlog).2, fun b hb => ?_⟩
    have hrange := hblocks log hlog
    rw [Option.mem_def.mp hb] at hrange
    exact of_decide_eq_true hrange
  have hnode : ∀ node ∈ [filtering, careless], ∀ kind,
      (node ()).Offers logs (transferFilter kind r) := by
    simp only [List.forall_mem_cons]
    exact ⟨fun _ => Node.offers_of_filtered rfl, fun _ => Node.offers_of_all rfl, fun _ h => nomatch h⟩
  refine ⟨huser, hlogs, fun node hmem => ?_⟩
  obtain ⟨hrun, -, -⟩ := movements_partition_transfers p node r logs () huser hlogs
    fun kind _ _ _ => hnode node hmem kind
  refine ⟨hnode node hmem, (hrun .mint).trans ?_, (hrun .burn).trans ?_⟩
  -- The sums are computed on closed terms.
  all_goals
    dsimp only [p, moved, r, logs, transfer, share, dollar, user, other]
    rfl

end

end Chainfolio
