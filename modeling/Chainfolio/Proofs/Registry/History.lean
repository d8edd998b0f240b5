import Chainfolio.Adapter.Scripted
import Chainfolio.Proofs.Registry.Answer

/-! Runs of registrations and questions for the owners of tokens. The index that a registry remembers
for a chain is the first one that could be built since the last registration on the chain, whatever
happened in between. -/
namespace Chainfolio.Registry

variable {σ : Type} {chain : Chain} {a : Adapter σ}

/-! ### Steps -/

/-- What happens to a registry and its world: an adapter is registered, the owner of a token is asked
for, or the world changes on its own. -/
inductive Step (σ : Type) where
  | register (a : Adapter σ)
  | tokenAdapter (chain : Chain) (address : Address)
  | meanwhile (change : σ → σ)

/-- Takes a step; a step that fails may have changed the world. -/
def Step.run : Step σ → Run (Registry σ × σ) (Option (Adapter σ))
  | register a => do
    let r ← Run.ofExcept ((← Run.read Prod.fst).register a)
    Run.update fun (_, s) => (r, s)
    return none
  | tokenAdapter chain address => Registry.tokenAdapter chain address
  | meanwhile change => do
    Run.update fun (r, s) => (r, change s)
    return none

/-- The effects that steps can have. -/
inductive Step.Effect : Step σ → Registry σ × σ → Registry σ × σ → Prop
  | registers {a : Adapter σ} {r r' : Registry σ} {s : σ} (accepted : r.register a = .ok r') :
      Effect (.register a) (r, s) (r', s)
  | refuses {a : Adapter σ} {r : Registry σ} {s : σ} {fault : Fault}
      (refused : r.register a = .error fault) : Effect (.register a) (r, s) (r, s)
  | remembers {chain : Chain} {address : Address} {r : Registry σ} {s : σ} {index : TokenIndex σ}
      (known : r.indexes chain = some index) : Effect (.tokenAdapter chain address) (r, s) (r, s)
  | builds {chain : Chain} {address : Address} {r : Registry σ} {s s' : σ} {index : TokenIndex σ}
      (unknown : r.indexes chain = none) (built : r.buildIndex chain s = (.ok index, s')) :
      Effect (.tokenAdapter chain address) (r, s) (r.setIndex chain index, s')
  | fails {chain : Chain} {address : Address} {r : Registry σ} {s s' : σ} {fault : Fault}
      (unknown : r.indexes chain = none) (notBuilt : r.buildIndex chain s = (.error fault, s')) :
      Effect (.tokenAdapter chain address) (r, s) (r, s')
  | changes {change : σ → σ} {r : Registry σ} {s : σ} :
      Effect (.meanwhile change) (r, s) (r, change s)

/-- The registry and the world after some steps. -/
def after : List (Step σ) → Registry σ × σ → Registry σ × σ
  | [], t => t
  | x :: rest, t => after rest (x.run t).2

/-- The adapter that a step registers, unless it is refused. -/
def Step.registers (t : Registry σ × σ) : Step σ → List (Adapter σ)
  | register a =>
    match t.1.register a with
    | .ok _ => [a]
    | .error _ => []
  | _ => []

/-- The adapters that some steps register, in order. -/
def registered : List (Step σ) → Registry σ × σ → List (Adapter σ)
  | [], _ => []
  | x :: rest, t => x.registers t ++ registered rest (x.run t).2

/-- The worlds in which the index of a chain was asked for since the last registration on the chain,
given those before a step. -/
def Step.asked (chain : Chain) (t : Registry σ × σ) (worlds : List σ) : Step σ → List σ
  | register a =>
    match t.1.register a with
    | .ok _ => if a.key.chain = chain then [] else worlds
    | .error _ => worlds
  | tokenAdapter c _ => if c = chain then worlds ++ [t.2] else worlds
  | meanwhile _ => worlds

/-- The worlds in which the index of a chain was asked for since the last registration on the chain,
in order. -/
def asked (chain : Chain) : List (Step σ) → Registry σ × σ → List σ → List σ
  | [], _, worlds => worlds
  | x :: rest, t, worlds => asked chain rest (x.run t).2 (x.asked chain t worlds)

/-- The first of some worlds in which the index of a chain can be built. -/
def firstBuilt (r : Registry σ) (chain : Chain) (worlds : List σ) : Option σ :=
  worlds.find? fun world => (r.buildIndex chain world).1.isOk

/-- What a registry remembers for a chain was built in the first world in which it could be. -/
structure Remembers (r : Registry σ) (chain : Chain) (worlds : List σ) : Prop where
  built : ∀ index, r.indexes chain = some index →
    ∃ world, r.firstBuilt chain worlds = some world ∧ (r.buildIndex chain world).1 = .ok index
  forgotten : r.indexes chain = none → r.firstBuilt chain worlds = none

/-! ### What a step does -/

variable {t : Registry σ × σ} {index : TokenIndex σ} {worlds : List σ}

theorem tokenIndex_of_remembered (h : t.1.indexes chain = some index) :
    tokenIndex chain t = (.ok index, t) := by
  rw [tokenIndex, Run.bind_ok (Run.read_apply Prod.fst t), h]
  rfl

theorem tokenAdapter_of_remembered (h : t.1.indexes chain = some index) (address : Address) :
    tokenAdapter chain address t = (.ok (index.owner? address), t) := by
  rw [tokenAdapter, Run.bind_ok (tokenIndex_of_remembered h)]
  rfl

/-- An index that is not remembered is built. -/
theorem tokenIndex_of_forgotten (h : t.1.indexes chain = none) :
    tokenIndex chain t = (do
      let index ← Run.onSecond (t.1.buildIndex chain)
      Run.update fun (r, s) => (r.setIndex chain index, s)
      return index : Run (Registry σ × σ) (TokenIndex σ)) t := by
  rw [tokenIndex, Run.bind_ok (Run.read_apply Prod.fst t), h]

theorem onSecond_buildIndex {built : Except Fault (TokenIndex σ)} {world' : σ}
    (h : t.1.buildIndex chain t.2 = (built, world')) :
    Run.onSecond (t.1.buildIndex chain) t = (built, t.1, world') := by
  rw [← Prod.mk.eta (p := t), Run.onSecond_apply, h]

/-- A build that succeeds is remembered. -/
theorem tokenIndex_of_built (h : t.1.indexes chain = none) {world' : σ}
    (hbuilt : t.1.buildIndex chain t.2 = (.ok index, world')) :
    tokenIndex chain t = (.ok index, t.1.setIndex chain index, world') := by
  rw [tokenIndex_of_forgotten h, Run.bind_ok (onSecond_buildIndex hbuilt)]
  rfl

theorem tokenAdapter_of_built (h : t.1.indexes chain = none) {world' : σ}
    (hbuilt : t.1.buildIndex chain t.2 = (.ok index, world')) (address : Address) :
    tokenAdapter chain address t =
      (.ok (index.owner? address), t.1.setIndex chain index, world') := by
  rw [tokenAdapter, Run.bind_ok (tokenIndex_of_built h hbuilt)]
  rfl

/-- A build that fails is not remembered. -/
theorem tokenIndex_of_not_built (h : t.1.indexes chain = none) {fault : Fault} {world' : σ}
    (hfails : t.1.buildIndex chain t.2 = (.error fault, world')) :
    tokenIndex chain t = (.error fault, t.1, world') := by
  rw [tokenIndex_of_forgotten h, Run.bind_error (onSecond_buildIndex hfails)]

theorem tokenAdapter_of_not_built (h : t.1.indexes chain = none) {fault : Fault} {world' : σ}
    (hfails : t.1.buildIndex chain t.2 = (.error fault, world')) (address : Address) :
    tokenAdapter chain address t = (.error fault, t.1, world') := by
  rw [tokenAdapter, Run.bind_error (tokenIndex_of_not_built h hfails)]

/-- A registration that is refused changes nothing. -/
theorem Step.run_register_refused {fault : Fault} (h : t.1.register a = .error fault) :
    (Step.register a).run t = (.error fault, t) := by
  rw [Step.run, Run.bind_ok (Run.read_apply Prod.fst t), h]
  rfl

theorem Step.effect (x : Step σ) (t : Registry σ × σ) : x.Effect t (x.run t).2 := by
  cases x with
  | register a =>
    cases h : t.1.register a with
    | ok r' =>
      have hrun : (Step.register a).run t = (.ok none, r', t.2) := by
        rw [Step.run, Run.bind_ok (Run.read_apply Prod.fst t), h]
        rfl
      rw [hrun]
      exact .registers h
    | error fault =>
      rw [Step.run_register_refused h]
      exact .refuses h
  | tokenAdapter chain address =>
    rw [Step.run]
    cases h : t.1.indexes chain with
    | some index =>
      rw [tokenAdapter_of_remembered h]
      exact .remembers h
    | none =>
      rcases hbuilt : t.1.buildIndex chain t.2 with ⟨fault | index, world'⟩
      · rw [tokenAdapter_of_not_built h hbuilt]
        exact .fails h hbuilt
      · rw [tokenAdapter_of_built h hbuilt]
        exact .builds h hbuilt
  | meanwhile change => exact .changes

/-! ### What runs keep -/

variable {t' : Registry σ × σ} {x : Step σ}

/-- The adapters are those that have been registered. -/
theorem Step.Effect.adapters_perm (h : x.Effect t t') :
    t'.1.adapters.Perm (t.1.adapters ++ x.registers t) := by
  cases h with
  | @registers a r r' s accepted =>
    rw [(register_eq_ok accepted).1]
    simp only [Step.registers, accepted]
    exact (insertAdapter_perm a r.adapters).trans (List.perm_append_singleton a r.adapters).symm
  | refuses refused => simp [Step.registers, refused]
  | remembers | builds | fails | changes => simp [Step.registers, setIndex]

theorem after_adapters_perm (steps : List (Step σ)) (t : Registry σ × σ) :
    (after steps t).1.adapters.Perm (t.1.adapters ++ registered steps t) := by
  induction steps generalizing t with
  | nil => simp [after, registered]
  | cons x steps ih =>
    have hstep := (x.effect t).adapters_perm
    rw [registered, ← List.append_assoc]
    exact (ih (x.run t).2).trans (hstep.append_right _)

theorem firstBuilt_append (r : Registry σ) (chain : Chain) (worlds : List σ) (world : σ) :
    r.firstBuilt chain (worlds ++ [world]) =
      (r.firstBuilt chain worlds).or (r.firstBuilt chain [world]) := List.find?_append

theorem Remembers.congr {r r' : Registry σ} (h : r.Remembers chain worlds)
    (hindexes : r'.indexes chain = r.indexes chain)
    (hadapters : r'.adaptersFor chain = r.adaptersFor chain) : r'.Remembers chain worlds := by
  have hbuild := buildIndex_congr hadapters
  constructor
  · rw [hindexes, firstBuilt, hbuild]
    exact h.built
  · rw [hindexes, firstBuilt, hbuild]
    exact h.forgotten

/-- An index that was built before stays the first one. -/
theorem Remembers.append_known {r : Registry σ} (h : r.Remembers chain worlds)
    (known : r.indexes chain = some index) (world : σ) :
    r.Remembers chain (worlds ++ [world]) := by
  obtain ⟨first, hfirst, -⟩ := h.built index known
  have hsame : r.firstBuilt chain (worlds ++ [world]) = r.firstBuilt chain worlds := by
    rw [firstBuilt_append, hfirst, Option.some_or]
  constructor
  · rw [hsame]
    exact h.built
  · rw [hsame]
    exact h.forgotten

/-- An index that could not be built before is remembered once it can be. -/
theorem Remembers.append_built {r : Registry σ} (h : r.Remembers chain worlds)
    (unknown : r.indexes chain = none) {world : σ}
    (hbuilt : (r.buildIndex chain world).1 = .ok index) :
    (r.setIndex chain index).Remembers chain (worlds ++ [world]) := by
  have hfirst : r.firstBuilt chain (worlds ++ [world]) = some world := by
    rw [firstBuilt_append, h.forgotten unknown, Option.none_or]
    simp [firstBuilt, hbuilt, Except.isOk, Except.toBool]
  have hindex : (r.setIndex chain index).indexes chain = some index := if_pos rfl
  constructor
  · intro index' hindex'
    rw [hindex] at hindex'
    cases hindex'
    exact ⟨world, hfirst, hbuilt⟩
  · rw [hindex]
    exact fun h => nomatch h

theorem Remembers.append_not_built {r : Registry σ} (h : r.Remembers chain worlds)
    (unknown : r.indexes chain = none) {world : σ} {fault : Fault}
    (hfails : (r.buildIndex chain world).1 = .error fault) :
    r.Remembers chain (worlds ++ [world]) := by
  have hnone : r.firstBuilt chain (worlds ++ [world]) = none := by
    rw [firstBuilt_append, h.forgotten unknown, Option.none_or]
    simp [firstBuilt, hfails, Except.isOk, Except.toBool]
  constructor
  · rw [unknown]
    exact fun _ h => nomatch h
  · exact fun _ => hnone

/-- A step keeps what is remembered for a chain. Only a registration on the chain itself makes it
forgotten, and then no world has been asked yet. -/
theorem Step.Effect.remembers_asked {c : Chain} (h : x.Effect t t') (ht : t.1.Remembers c worlds) :
    t'.1.Remembers c (x.asked c t worlds) := by
  cases h with
  | @registers a r r' s accepted =>
    simp only [Step.asked, accepted]
    have hindexes := (register_eq_ok accepted).2 c
    by_cases hc : a.key.chain = c
    · rw [if_pos hc.symm] at hindexes
      rw [if_pos hc]
      constructor
      · rw [hindexes]
        exact fun _ h => nomatch h
      · exact fun _ => rfl
    · rw [if_neg (Ne.symm hc)] at hindexes
      rw [if_neg hc]
      exact ht.congr hindexes (adaptersFor_register accepted hc)
  | refuses refused =>
    simp only [Step.asked, refused]
    exact ht
  | @remembers chain address r s index known =>
    by_cases hc : chain = c
    · subst hc
      rw [Step.asked, if_pos rfl]
      exact ht.append_known known s
    · rw [Step.asked, if_neg hc]
      exact ht
  | @builds chain address r s s' index unknown built =>
    by_cases hc : chain = c
    · subst hc
      rw [Step.asked, if_pos rfl]
      exact ht.append_built unknown (by rw [built])
    · rw [Step.asked, if_neg hc]
      exact ht.congr (if_neg (Ne.symm hc)) rfl
  | @fails chain address r s s' fault unknown notBuilt =>
    by_cases hc : chain = c
    · subst hc
      rw [Step.asked, if_pos rfl]
      exact ht.append_not_built unknown (by rw [notBuilt])
    · rw [Step.asked, if_neg hc]
      exact ht
  | changes => exact ht

/-- What is remembered after a run is what could be built first since the last registration. -/
theorem after_remembers (steps : List (Step σ)) (ht : t.1.Remembers chain worlds) :
    (after steps t).1.Remembers chain (asked chain steps t worlds) := by
  induction steps generalizing t worlds with
  | nil => exact ht
  | cons x steps ih => exact ih ((x.effect t).remembers_asked ht)

theorem empty_remembers (providers : Chain → Option (Provider σ)) (chain : Chain) :
    (empty providers).Remembers chain [] :=
  ⟨fun _ h => (nomatch h), fun _ => rfl⟩

/-- The owner of a token is told by the index of the first world in which it could be built, or else by
the one that is built now. -/
theorem Remembers.tokenAdapter_eq (h : t.1.Remembers chain worlds) (address : Address) :
    (tokenAdapter chain address t).1 =
      t.1.answer chain address ((t.1.firstBuilt chain worlds).getD t.2) := by
  cases hindex : t.1.indexes chain with
  | some index =>
    obtain ⟨world, hworld, hbuilt⟩ := h.built index hindex
    rw [tokenAdapter_of_remembered hindex, hworld, Option.getD_some, answer, hbuilt]
    rfl
  | none =>
    rw [h.forgotten hindex, Option.getD_none, answer]
    rcases hbuilt : t.1.buildIndex chain t.2 with ⟨fault | index, world'⟩
    · rw [tokenAdapter_of_not_built hindex hbuilt]
      rfl
    · rw [tokenAdapter_of_built hindex hbuilt]
      rfl

/-- The owner of a token over whole runs, from an empty registry and any world on. The adapters of a chain
are those that were registered on it. The owner is told by the index that these adapters make up in
the first world, since the last registration on the chain, in which one could be built when it was
asked for; where there is none it is built in the present world. An index that is built finds the
adapter that is registered on the chain, takes part in unwrapping and has listed the address; it cannot
be built exactly when two different such adapters have listed a common address, which is what the
failure says; and the order in which adapters were registered makes no difference. -/
theorem tokenAdapter_answers_first_build (providers : Chain → Option (Provider σ)) (s : σ)
    (steps : List (Step σ)) (chain : Chain) :
    let start := (empty providers, s)
    let now := after steps start
    (∀ a, a ∈ now.1.adaptersFor chain ↔ a ∈ registered steps start ∧ a.key.chain = chain) ∧
    (∀ address, (tokenAdapter chain address now).1 =
      now.1.answer chain address
        ((now.1.firstBuilt chain (asked chain steps start [])).getD now.2)) ∧
    (∀ address world,
      let listed := now.1.listed chain world
      (∀ a, now.1.answer chain address world = .ok (some a) ↔
        (∀ common b c, ¬ listed.Clash common b c) ∧ a ∈ now.1.adaptersFor chain ∧
          a.settings.includeInUnwrap = true ∧ listed.Lists a address) ∧
      ((∃ fault, now.1.answer chain address world = .error fault) ↔
        ∃ common b c, listed.Clash common b c) ∧
      ∀ fault, now.1.answer chain address world = .error fault →
        ∃ common b c, listed.Clash common b c ∧
          fault = .duplicateProtocolToken chain common b.key.label c.key.label) ∧
    ∀ (providers' : Chain → Option (Provider σ)) (s' : σ) (steps' : List (Step σ)),
      let start' := (empty providers', s')
      ((registered steps start).filter fun a => a.key.chain = chain).Perm
          ((registered steps' start').filter fun a => a.key.chain = chain) →
        ∀ address world,
          (after steps' start').1.answer chain address world = now.1.answer chain address world := by
  intro start now
  have hperm : now.1.adapters.Perm (registered steps start) := after_adapters_perm steps start
  have hremembers : now.1.Remembers chain (asked chain steps start []) :=
    after_remembers steps (empty_remembers providers chain)
  refine ⟨fun a => ?_, hremembers.tokenAdapter_eq, fun address world => ⟨fun a => ?_, ?_, ?_⟩, ?_⟩
  · simp [adaptersFor, hperm.mem_iff]
  · rw [answer_eq_some_iff]
    refine and_congr_right fun _ => ⟨fun hlists => ?_, fun h => h.2.2⟩
    obtain ⟨hmem, hincluded⟩ := mem_unwrapping_of_lists hlists
    exact ⟨hmem, hincluded, hlists⟩
  · constructor
    · rintro ⟨fault, hfault⟩
      obtain ⟨common, b, c, hclash, -⟩ := answer_eq_error hfault
      exact ⟨common, b, c, hclash⟩
    · rintro ⟨common, b, c, hclash⟩
      exact exists_answer_eq_error hclash
  · exact fun fault => answer_eq_error
  · intro providers' s' steps' start' hsame address world
    have hperm' : (after steps' start').1.adapters.Perm (registered steps' start') :=
      after_adapters_perm steps' start'
    have hadapters : (after steps' start').1.adaptersFor chain = now.1.adaptersFor chain :=
      adaptersFor_eq_of_perm ((hperm'.filter _).trans (hsame.symm.trans (hperm.filter _).symm))
    rw [answer, answer, buildIndex_congr hadapters]

/-- Two products with a token each, registered in either order with a question in between. -/
theorem tokenAdapter_answers_first_build_two_products :
    let listing (key : ProductKey) (address : Address) : Adapter Nat :=
      Script.adapter
        { key := key
          protocolTokens := [{ token := ⟨address, "Receipt", "R", 18⟩, underlyings := [] }] }
        ⟨id, fun n _ => n⟩
    let pool := listing ⟨.ethereum, .aaveV3, "a-token"⟩ ⟨0xA⟩
    let staked := listing ⟨.ethereum, .lido, "st-eth"⟩ ⟨0xB⟩
    let start : Registry Nat × Nat := (empty fun _ => none, 0)
    let steps : List (Step Nat) := [.register pool, .tokenAdapter .ethereum ⟨0xB⟩, .register staked]
    let steps' : List (Step Nat) := [.register staked, .register pool, .register staked]
    ((registered steps start).filter fun a => a.key.chain = .ethereum).Perm
        ((registered steps' start).filter fun a => a.key.chain = .ethereum) ∧
      (tokenAdapter .ethereum ⟨0xB⟩ (after steps start)).1 = .ok (some staked) ∧
      ∀ address world, (after steps' start).1.answer .ethereum address world =
        (after steps start).1.answer .ethereum address world := by
  intro listing pool staked start steps steps'
  have hsteps : registered steps start = [pool, staked] := rfl
  have hsteps' : registered steps' start = [staked, pool] := rfl
  have hsame : ((registered steps start).filter fun a => a.key.chain = .ethereum).Perm
      ((registered steps' start).filter fun a => a.key.chain = .ethereum) := by
    rw [hsteps, hsteps']
    exact (List.Perm.swap staked pool []).filter _
  have howner : (tokenAdapter .ethereum ⟨0xB⟩ (after steps start)).1 = .ok (some staked) := rfl
  exact ⟨hsame, howner,
    (tokenAdapter_answers_first_build (fun _ => none) 0 steps .ethereum).2.2.2 _ _ steps' hsame⟩

end Chainfolio.Registry
