import Chainfolio.Proofs.Run
import Chainfolio.Store.TokenCache

/-! Listings that are read through a cache, over any run of calls. The first listing that a call answers
is the answer of every later one, which asks for nothing any more; until then each call looks into the
store, fetches what is not there and writes it down, up to the first failure. -/
namespace Chainfolio.TokenCache

variable {σ : Type}

/-! ### What calls ask for -/

/-- Something that a call asks of the store or of the source, with the answer. -/
inductive Access where
  | got (key : ProductKey) (answer : Except Fault (Option (List ProtocolToken)))
  | fetched (answer : Except Fault (List ProtocolToken))
  | put (key : ProductKey) (tokens : List ProtocolToken) (answer : Except Fault Unit)

/-- Runs an operation and notes it with its answer. -/
def noting {α : Type} (note : Except Fault α → Access) (x : Run σ α) : Run (List Access × σ) α :=
  fun (log, s) => ((x s).1, log ++ [note (x s).1], (x s).2)

/-- The cache beside a log of what it asks for. -/
def logged (c : TokenCache σ) : TokenCache (List Access × σ) where
  key := c.key
  store := c.store.map fun store =>
    { get := fun key => noting (.got key) (store.get key)
      put := fun key tokens => noting (.put key tokens) (store.put key tokens) }
  memo :=
    { get := fun t => c.memo.get t.2
      set := fun m t => (t.1, c.memo.set m t.2) }

/-- A call with what it came to. -/
structure Call (σ : Type) where
  fetch : Run σ (List ProtocolToken)
  before : σ
  answer : Except Fault (List ProtocolToken)
  accesses : List Access
  after : σ

def call (c : TokenCache σ) (fetch : Run σ (List ProtocolToken)) (s : σ) : Call σ :=
  let (answer, accesses, after) := c.logged.getOrFetch (noting .fetched fetch) ([], s)
  ⟨fetch, s, answer, accesses, after⟩

/-- Calls one after the other, each with a source of its own. -/
def history (c : TokenCache σ) : List (Run σ (List ProtocolToken)) → σ → List (Call σ)
  | [], _ => []
  | fetch :: rest, s => c.call fetch s :: c.history rest (c.call fetch s).after

/-- The first listing that was answered. -/
def firstAnswer (calls : List (Call σ)) : TokenMemo := calls.findSome? fun call => call.answer.toOption

/-- Whether an operation leaves the memory of a cache alone, also where it fails. -/
def Spares {α : Type} (c : TokenCache σ) (x : Run σ α) : Prop :=
  ∀ m, x.Keeps fun s => c.memo.get s = m

/-- Whether a cache has its memory to itself, apart from the store. -/
structure OwnsMemo (c : TokenCache σ) : Prop where
  get_set : ∀ m s, c.memo.get (c.memo.set m s) = m
  get : ∀ store ∈ c.store, c.Spares (store.get c.key)
  put : ∀ store ∈ c.store, ∀ tokens, c.Spares (store.put c.key tokens)

/-- `Looks c s log answer s'`: what the cache finds in its store, if it has one. -/
inductive Looks (c : TokenCache σ) :
    σ → List Access → Except Fault (Option (List ProtocolToken)) → σ → Prop
  | nowhere {s} (h : c.store = none) : Looks c s [] (.ok none) s
  | asks {store s answer s'} (h : c.store = some store) (asked : store.get c.key s = (answer, s')) :
      Looks c s [.got c.key answer] answer s'

/-- `Saves c tokens s log answer s'`: what the cache writes to its store, if it has one. -/
inductive Saves (c : TokenCache σ) (tokens : List ProtocolToken) :
    σ → List Access → Except Fault Unit → σ → Prop
  | nowhere {s} (h : c.store = none) : Saves c tokens s [] (.ok ()) s
  | writes {store s answer s'} (h : c.store = some store)
      (written : store.put c.key tokens s = (answer, s')) :
      Saves c tokens s [.put c.key tokens answer] answer s'

/-- `Loads c fetch s log answer s'`: a listing that is not remembered is found in the store, or else
fetched and saved; the first failure ends it. -/
inductive Loads (c : TokenCache σ) (fetch : Run σ (List ProtocolToken)) :
    σ → List Access → Except Fault (List ProtocolToken) → σ → Prop
  | lookFails {s log e s'} (looked : c.Looks s log (.error e) s') : Loads c fetch s log (.error e) s'
  | finds {s log tokens s'} (looked : c.Looks s log (.ok (some tokens)) s') :
      Loads c fetch s log (.ok tokens) s'
  | fetchFails {s log s₁ e s'} (looked : c.Looks s log (.ok none) s₁)
      (fetched : fetch s₁ = (.error e, s')) :
      Loads c fetch s (log ++ [.fetched (.error e)]) (.error e) s'
  | saveFails {s log s₁ tokens s₂ log' e s'} (looked : c.Looks s log (.ok none) s₁)
      (fetched : fetch s₁ = (.ok tokens, s₂)) (saved : c.Saves tokens s₂ log' (.error e) s') :
      Loads c fetch s (log ++ .fetched (.ok tokens) :: log') (.error e) s'
  | fetches {s log s₁ tokens s₂ log' s'} (looked : c.Looks s log (.ok none) s₁)
      (fetched : fetch s₁ = (.ok tokens, s₂)) (saved : c.Saves tokens s₂ log' (.ok ()) s') :
      Loads c fetch s (log ++ .fetched (.ok tokens) :: log') (.ok tokens) s'

/-! ### One call -/

variable {c : TokenCache σ} {fetch : Run σ (List ProtocolToken)} {tokens : List ProtocolToken} {s : σ}

theorem noting_follows {α : Type} (note : Except Fault α → Access) (x : Run σ α) :
    (noting note x).Follows x := fun log s => ⟨log ++ [note (x s).1], rfl⟩

/-- A call ends as it does without a log. -/
theorem logged_follows (c : TokenCache σ) (fetch : Run σ (List ProtocolToken)) :
    (c.logged.getOrFetch (noting .fetched fetch)).Follows (c.getOrFetch fetch) := by
  have hstored : c.logged.stored.Follows c.stored := by
    unfold stored logged
    cases c.store with
    | none => exact Run.follows_pure _
    | some store => exact noting_follows _ _
  have hsave (tokens : List ProtocolToken) : (c.logged.save tokens).Follows (c.save tokens) := by
    unfold save logged
    cases c.store with
    | none => exact Run.follows_pure _
    | some store => exact noting_follows _ _
  have hload : (c.logged.load (noting .fetched fetch)).Follows (c.load fetch) := by
    refine hstored.bind fun found => ?_
    cases found with
    | some tokens => exact Run.follows_pure _
    | none =>
      exact (noting_follows _ _).bind fun tokens => (hsave tokens).bind fun _ => Run.follows_pure _
  refine Run.Follows.bind (fun log s => ⟨log, rfl⟩) fun memo => ?_
  cases memo with
  | some tokens => exact Run.follows_pure _
  | none => exact hload.bind fun _ => Run.Follows.bind (fun log s => ⟨log, rfl⟩) fun _ => Run.follows_pure _

theorem getOrFetch_eq_call (c : TokenCache σ) (fetch : Run σ (List ProtocolToken)) (s : σ) :
    c.getOrFetch fetch s = ((c.call fetch s).answer, (c.call fetch s).after) := by
  obtain ⟨log, h⟩ := logged_follows c fetch [] s
  rw [call, h]
  rfl

theorem logged_stored (c : TokenCache σ) (log : List Access) (s : σ) :
    ∃ log' answer s', c.Looks s log' answer s' ∧
      c.logged.stored (log, s) = (answer, log ++ log', s') := by
  cases h : c.store with
  | none =>
    refine ⟨[], _, _, .nowhere h, ?_⟩
    rw [List.append_nil, stored, logged, h]
    rfl
  | some store =>
    refine ⟨_, _, _, .asks h rfl, ?_⟩
    rw [stored, logged, h]
    rfl

theorem logged_save (c : TokenCache σ) (tokens : List ProtocolToken) (log : List Access) (s : σ) :
    ∃ log' answer s', c.Saves tokens s log' answer s' ∧
      c.logged.save tokens (log, s) = (answer, log ++ log', s') := by
  cases h : c.store with
  | none =>
    refine ⟨[], _, _, .nowhere h, ?_⟩
    rw [List.append_nil, save, logged, h]
    rfl
  | some store =>
    refine ⟨_, _, _, .writes h rfl, ?_⟩
    rw [save, logged, h]
    rfl

theorem logged_load (c : TokenCache σ) (fetch : Run σ (List ProtocolToken)) (s : σ) :
    ∃ log answer s', c.Loads fetch s log answer s' ∧
      c.logged.load (noting .fetched fetch) ([], s) = (answer, log, s') := by
  obtain ⟨log, found, s₁, hlooks, hstored⟩ := logged_stored c [] s
  rw [List.nil_append] at hstored
  rcases found with e | (_ | tokens)
  · exact ⟨_, _, _, .lookFails hlooks, Run.bind_error hstored⟩
  · rcases hfetch : fetch s₁ with ⟨e | tokens, s₂⟩
    · have hnoted : noting .fetched fetch (log, s₁) = (.error e, log ++ [.fetched (.error e)], s₂) := by
        rw [noting, hfetch]
      exact ⟨_, _, _, .fetchFails hlooks hfetch,
        (Run.bind_ok hstored).trans (Run.bind_error hnoted)⟩
    · have hnoted : noting .fetched fetch (log, s₁) =
          (.ok tokens, log ++ [.fetched (.ok tokens)], s₂) := by
        rw [noting, hfetch]
      obtain ⟨log', written, s₃, hsaves, hsave⟩ :=
        logged_save c tokens (log ++ [.fetched (.ok tokens)]) s₂
      rw [List.append_assoc, List.singleton_append] at hsave
      cases written with
      | error e =>
        exact ⟨_, _, _, .saveFails hlooks hfetch hsaves,
          (Run.bind_ok hstored).trans ((Run.bind_ok hnoted).trans (Run.bind_error hsave))⟩
      | ok =>
        exact ⟨_, _, _, .fetches hlooks hfetch hsaves,
          (Run.bind_ok hstored).trans ((Run.bind_ok hnoted).trans (Run.bind_ok hsave))⟩
  · exact ⟨_, _, _, .finds hlooks, Run.bind_ok hstored⟩

/-- What is remembered is answered, and nothing is asked. -/
theorem call_of_remembered (h : c.memo.get s = some tokens) :
    c.call fetch s = ⟨fetch, s, .ok tokens, [], s⟩ := by
  have hrun : c.logged.getOrFetch (noting .fetched fetch) ([], s) = (.ok tokens, [], s) := by
    have hread : Run.read c.logged.memo.get ([], s) = (.ok (some tokens), [], s) := by
      rw [Run.read_apply, logged, h]
    exact Run.bind_ok hread
  rw [call, hrun]

/-- What is not remembered is loaded, and a listing is remembered then. -/
theorem call_of_forgotten (c : TokenCache σ) (fetch : Run σ (List ProtocolToken))
    (h : c.memo.get s = none) :
    ∃ s', c.Loads fetch s (c.call fetch s).accesses (c.call fetch s).answer s' ∧
      (c.call fetch s).after =
        match (c.call fetch s).answer with
        | .ok tokens => c.memo.set (some tokens) s'
        | .error _ => s' := by
  have hread : Run.read c.logged.memo.get ([], s) = (.ok none, [], s) := by
    rw [Run.read_apply, logged, h]
  obtain ⟨log, answer, s', hloads, hload⟩ := logged_load c fetch s
  cases answer with
  | error e =>
    have hrun : c.logged.getOrFetch (noting .fetched fetch) ([], s) = (.error e, log, s') :=
      (Run.bind_ok hread).trans (Run.bind_error hload)
    rw [call, hrun]
    exact ⟨s', hloads, rfl⟩
  | ok tokens =>
    have hrun : c.logged.getOrFetch (noting .fetched fetch) ([], s) =
        (.ok tokens, log, c.memo.set (some tokens) s') :=
      (Run.bind_ok hread).trans (Run.bind_ok hload)
    rw [call, hrun]
    exact ⟨s', hloads, rfl⟩

/-- What the store has is answered and remembered, and nothing is fetched. -/
theorem call_of_stored {store : MetadataStore σ} (fetch : Run σ (List ProtocolToken))
    (hstore : c.store = some store) (hempty : c.memo.get s = none) {s' : σ}
    (hfound : store.get c.key s = (.ok (some tokens), s')) :
    c.call fetch s =
      ⟨fetch, s, .ok tokens, [.got c.key (.ok (some tokens))], c.memo.set (some tokens) s'⟩ := by
  have hread : Run.read c.logged.memo.get ([], s) = (.ok none, [], s) := by
    rw [Run.read_apply, logged, hempty]
  have hlooked : c.logged.stored ([], s) =
      (.ok (some tokens), [.got c.key (.ok (some tokens))], s') := by
    rw [stored, logged, hstore]
    simp only [Option.map_some, noting, hfound, List.nil_append]
  have hload : c.logged.load (noting .fetched fetch) ([], s) =
      (.ok tokens, [.got c.key (.ok (some tokens))], s') := Run.bind_ok hlooked
  have hrun : c.logged.getOrFetch (noting .fetched fetch) ([], s) =
      (.ok tokens, [.got c.key (.ok (some tokens))], c.memo.set (some tokens) s') :=
    (Run.bind_ok hread).trans (Run.bind_ok hload)
  rw [call, hrun]

/-- The listing at hand: what is remembered, or else what the store has. -/
def held? (c : TokenCache σ) (s : σ) : TokenMemo := (c.memo.get s).or (c.stored s).1.toOption.join

theorem held?_eq_some :
    c.held? s = some tokens ↔ c.memo.get s = some tokens ∨
      c.memo.get s = none ∧ ∃ store s', c.store = some store ∧
        store.get c.key s = (.ok (some tokens), s') := by
  unfold held? stored
  cases c.memo.get s with
  | some remembered => simp
  | none =>
    cases hstore : c.store with
    | none => simp [Except.toOption]
    | some store =>
      simp only [Option.none_or, reduceCtorEq, false_or, true_and]
      rcases hget : store.get c.key s with ⟨e | _ | found, s'⟩
      · exact ⟨fun h => (nomatch h), by rintro ⟨_, _, ⟨⟩, h⟩; cases hget.symm.trans h⟩
      · exact ⟨fun h => (nomatch h), by rintro ⟨_, _, ⟨⟩, h⟩; cases hget.symm.trans h⟩
      · constructor
        · rintro ⟨⟩
          exact ⟨store, s', rfl, hget⟩
        · rintro ⟨_, _, ⟨⟩, h⟩
          cases hget.symm.trans h
          rfl

/-! ### Runs of calls -/

theorem Spares.memo_eq {α : Type} {x : Run σ α} (h : c.Spares x) {answer : Except Fault α} {s' : σ}
    (hx : x s = (answer, s')) : c.memo.get s' = c.memo.get s := (h _).of_apply hx rfl

theorem Looks.memo_eq (howns : c.OwnsMemo) {log : List Access}
    {answer : Except Fault (Option (List ProtocolToken))} {s' : σ}
    (h : c.Looks s log answer s') : c.memo.get s' = c.memo.get s := by
  cases h with
  | nowhere => rfl
  | asks h asked => exact (howns.get _ h).memo_eq asked

theorem Saves.memo_eq (howns : c.OwnsMemo) {log : List Access} {answer : Except Fault Unit} {s' : σ}
    (h : c.Saves tokens s log answer s') : c.memo.get s' = c.memo.get s := by
  cases h with
  | nowhere => rfl
  | writes h written => exact (howns.put _ h tokens).memo_eq written

theorem Loads.memo_eq (howns : c.OwnsMemo) (hfetch : c.Spares fetch) {log : List Access}
    {answer : Except Fault (List ProtocolToken)} {s' : σ} (h : c.Loads fetch s log answer s') :
    c.memo.get s' = c.memo.get s := by
  cases h with
  | lookFails looked | finds looked => exact looked.memo_eq howns
  | fetchFails looked fetched => exact (hfetch.memo_eq fetched).trans (looked.memo_eq howns)
  | saveFails looked fetched saved | fetches looked fetched saved =>
    exact (saved.memo_eq howns).trans ((hfetch.memo_eq fetched).trans (looked.memo_eq howns))

/-- A call keeps what is remembered, or else remembers what it answers. -/
theorem memo_call (howns : c.OwnsMemo) (hfetch : c.Spares fetch) (s : σ) :
    c.memo.get (c.call fetch s).after = (c.memo.get s).or (c.call fetch s).answer.toOption := by
  cases h : c.memo.get s with
  | some tokens =>
    rw [call_of_remembered h, h]
    rfl
  | none =>
    obtain ⟨s', hloads, hafter⟩ := call_of_forgotten c fetch h
    rw [hafter, Option.none_or]
    cases (c.call fetch s).answer with
    | error e => exact (hloads.memo_eq howns hfetch).trans h
    | ok tokens => exact howns.get_set _ _

/-- What a call of a run finds remembered is the first listing that was answered before it. -/
theorem history_split {fetches : List (Run σ (List ProtocolToken))} (howns : c.OwnsMemo)
    (hfetches : ∀ fetch ∈ fetches, c.Spares fetch) {earlier later : List (Call σ)} {call : Call σ}
    (h : c.history fetches s = earlier ++ call :: later) :
    call.fetch ∈ fetches ∧ call = c.call call.fetch call.before ∧
      c.memo.get call.before = (c.memo.get s).or (firstAnswer earlier) := by
  -- From the first call on: what it leaves in memory is what the rest of the run starts with.
  induction fetches generalizing s earlier with
  | nil => simp [history] at h
  | cons fetch fetches ih =>
    obtain ⟨hfetch, hfetches⟩ := List.forall_mem_cons.mp hfetches
    cases earlier with
    | nil =>
      obtain ⟨rfl, -⟩ := List.cons.inj h
      exact ⟨List.mem_cons_self, rfl, Option.or_none.symm⟩
    | cons first earlier =>
      obtain ⟨rfl, hrest⟩ := List.cons.inj h
      obtain ⟨hmem, hcall, hmemo⟩ := ih hfetches hrest
      refine ⟨List.mem_cons_of_mem _ hmem, hcall, ?_⟩
      rw [hmemo, memo_call howns hfetch, Option.or_assoc, firstAnswer, firstAnswer,
        List.findSome?_cons]
      cases (c.call fetch s).answer.toOption <;> rfl

/-- A cache over whole runs of calls, from an empty memory on. Each call does what it would do without a
log, and what is remembered after it is the first listing that was answered so far. Once there is one,
it is the answer of every later call, which asks for nothing and changes nothing; until then a call loads
the listing, and what it changes is what the store and the source change, beside the memory. -/
theorem getOrFetch_reads_through_once (c : TokenCache σ)
    (fetches : List (Run σ (List ProtocolToken))) (s : σ) (howns : c.OwnsMemo)
    (hfetches : ∀ fetch ∈ fetches, c.Spares fetch) (hempty : c.memo.get s = none)
    (earlier later : List (Call σ)) (call : Call σ)
    (h : c.history fetches s = earlier ++ call :: later) :
    c.getOrFetch call.fetch call.before = (call.answer, call.after) ∧
    c.memo.get call.after = firstAnswer (earlier ++ [call]) ∧
    match firstAnswer earlier with
    | some tokens => call.answer = .ok tokens ∧ call.accesses = [] ∧ call.after = call.before
    | none => ∃ s', c.Loads call.fetch call.before call.accesses call.answer s' ∧
        call.after =
          match call.answer with
          | .ok tokens => c.memo.set (some tokens) s'
          | .error _ => s' := by
  obtain ⟨hmem, hcall, hmemo⟩ := history_split howns hfetches h
  rw [hempty, Option.none_or] at hmemo
  have hafter := memo_call howns (hfetches _ hmem) call.before
  have hrun := getOrFetch_eq_call c call.fetch call.before
  rw [← hcall] at hafter hrun
  refine ⟨hrun, ?_, ?_⟩
  · rw [hafter, hmemo, firstAnswer, firstAnswer, List.findSome?_append, List.findSome?_singleton]
  · cases hfirst : firstAnswer earlier with
    | some tokens =>
      have hremembered : c.call call.fetch call.before = ⟨_, _, .ok tokens, [], _⟩ :=
        call_of_remembered (hmemo.trans hfirst)
      rw [← hcall] at hremembered
      rw [hremembered]
      exact ⟨rfl, rfl, rfl⟩
    | none =>
      have hforgotten := call_of_forgotten c call.fetch (hmemo.trans hfirst)
      rwa [← hcall] at hforgotten

/-- A source that fails before it answers, with a store in memory; nobody asks it a third time. -/
theorem getOrFetch_reads_through_once_third :
    let key : ProductKey := ⟨.ethereum, .lido, "st-eth"⟩
    let c : TokenCache (TokenMemo × MemoryStore) :=
      { key := key
        store := some (MemoryStore.store ⟨Prod.snd, fun m s => (s.1, m)⟩)
        memo := ⟨Prod.fst, fun m s => (m, s.2)⟩ }
    let listing : List ProtocolToken :=
      [{ token := ⟨⟨1⟩, "Liquid staked Ether", "stETH", 18⟩, underlyings := [] }]
    let fails : Run (TokenMemo × MemoryStore) (List ProtocolToken) := throw .io
    let answers : Run (TokenMemo × MemoryStore) (List ProtocolToken) := pure listing
    let first := c.call fails (none, {})
    let second := c.call answers first.after
    let third := c.call fails second.after
    (c.OwnsMemo ∧ (∀ fetch ∈ [fails, answers, fails], c.Spares fetch) ∧
      c.history [fails, answers, fails] (none, {}) = [first, second] ++ third :: []) ∧
    first.accesses = [.got key (.ok none), .fetched (.error .io)] ∧
    second.accesses = [.got key (.ok none), .fetched (.ok listing), .put key listing (.ok ())] ∧
    second.after.2.get? key = some listing ∧
    third.answer = .ok listing ∧ third.accesses = [] ∧ third.after = second.after := by
  intro key c listing fails answers first second third
  have howns : c.OwnsMemo := by
    refine ⟨fun _ _ => rfl, fun store hstore => ?_, fun store hstore => ?_⟩
    · cases hstore
      exact fun _ _ h => h
    · cases hstore
      exact fun _ _ _ h => h
  have hfetches : ∀ fetch ∈ [fails, answers, fails], c.Spares fetch := by
    simp only [List.forall_mem_cons]
    exact ⟨fun _ _ h => h, fun _ _ h => h, fun _ _ h => h, fun _ h => nomatch h⟩
  have hhistory : c.history [fails, answers, fails] (none, {}) = [first, second] ++ third :: [] := rfl
  have hstored : second.after.2.get? key = some listing := by
    change ((MemoryStore.mk []).insert key listing).get? key = some listing
    rw [MemoryStore.get?_insert, if_pos rfl]
  obtain ⟨-, -, hanswer, haccesses, hafter⟩ :=
    getOrFetch_reads_through_once c _ _ howns hfetches rfl [first, second] [] third hhistory
  exact ⟨⟨howns, hfetches, hhistory⟩, rfl, rfl, hstored, hanswer, haccesses, hafter⟩

end Chainfolio.TokenCache
