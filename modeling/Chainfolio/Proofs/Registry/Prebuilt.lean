import Chainfolio.Adapter.Cached
import Chainfolio.Proofs.Adapter.Listings
import Chainfolio.Proofs.Registry.History
import Chainfolio.Proofs.Store.TokenCache

/-! Listings that are written to a store beforehand. A run writes the listing of one product after the
other, each under the product's own key, up to the first failure. Whoever reads through a cache over the
store later is answered what was written, and reads nothing anew. -/
namespace Chainfolio

variable {σ : Type}

/-! ### Stores as maps -/

/-- What a store answers for a key. -/
def MetadataStore.answer (store : MetadataStore σ) (key : ProductKey) (s : σ) :
    Except Fault (Option (List ProtocolToken)) := (store.get key s).1

/-- Whether a store keeps the listings of some keys apart: what is put under one of them is what is
answered for it, and for the others nothing changes; nor does anything when it could not be put. -/
structure MetadataStore.KeepsApart (store : MetadataStore σ) (keys : ProductKey → Prop) : Prop where
  put : ∀ {key tokens s s'}, keys key → store.put key tokens s = (.ok (), s') →
    ∀ other, keys other →
      store.answer other s' = if key = other then .ok (some tokens) else store.answer other s
  putFails : ∀ {key tokens s e s'}, keys key → store.put key tokens s = (.error e, s') →
    ∀ other, keys other → store.answer other s' = store.answer other s

/-- A store in memory keeps all keys apart. -/
theorem MemoryStore.store_keepsApart {memory : Slot σ MemoryStore}
    (hset : ∀ m s, memory.get (memory.set m s) = m) :
    (MemoryStore.store memory).KeepsApart fun _ => True where
  put := by
    intro key tokens s s' _ h other _
    cases h
    simp only [MetadataStore.answer, store, Run.read_apply, hset, get?_insert]
    split <;> rfl
  putFails := by
    intro key tokens s e s' _ h
    cases h

/-- Whether reading a listing anew bypasses a store: its answers stay as they are. -/
def Adapter.Bypasses (a : Adapter σ) (store : MetadataStore σ) (keys : ProductKey → Prop) : Prop :=
  ∀ key, keys key → ∀ answer, a.fetchProtocolTokens.Keeps fun s => store.answer key s = answer

/-- The products that come with the library read their listings from the node alone. -/
theorem FungibleProduct.bypasses (k : FungibleProduct) (c : AdapterContext σ)
    (store : MetadataStore σ) (keys : ProductKey → Prop) : (k.adapter c).Bypasses store keys :=
  fun _ _ _ => k.fetchProtocolTokens_keeps c _

/-! ### Runs -/

namespace Registry

/-- The listings that a run has written, each with the adapter that it was read from. -/
abbrev Written (σ : Type) := List (Adapter σ × List ProtocolToken)

/-- `Writes store adapters s written r s'`: a run over some adapters has written some listings when it
ends, at the first adapter whose listing cannot be read or put if there is one. -/
inductive Writes (store : MetadataStore σ) :
    List (Adapter σ) → σ → Written σ → Except Fault Unit → σ → Prop
  | done {s} : Writes store [] s [] (.ok ()) s
  | writes {a rest s tokens s₁ s₂ written r s'} (read : a.fetchProtocolTokens s = (.ok tokens, s₁))
      (put : store.put a.key tokens s₁ = (.ok (), s₂)) (later : Writes store rest s₂ written r s') :
      Writes store (a :: rest) s ((a, tokens) :: written) r s'
  | readFails {a rest s e s'} (read : a.fetchProtocolTokens s = (.error e, s')) :
      Writes store (a :: rest) s [] (.error e) s'
  | putFails {a rest s tokens s₁ e s'} (read : a.fetchProtocolTokens s = (.ok tokens, s₁))
      (put : store.put a.key tokens s₁ = (.error e, s')) : Writes store (a :: rest) s [] (.error e) s'

/-- The adapters whose listings are written. Prices have none. -/
def listing (r : Registry σ) : List (Adapter σ) := r.adapters.filter fun a => a.key.protocol ≠ .prices

variable {store : MetadataStore σ} {adapters : List (Adapter σ)} {s s' : σ} {written : Written σ}
  {result : Except Fault Unit}

/-- Every run writes some listings and ends somehow. -/
theorem exists_writes (store : MetadataStore σ) (adapters : List (Adapter σ)) (s : σ) :
    ∃ written result s', Writes store adapters s written result s' ∧
      Run.forEach (fun a : Adapter σ => do store.put a.key (← a.fetchProtocolTokens)) adapters s =
        (result.map fun _ => written.map fun _ => (), s') := by
  induction adapters generalizing s with
  | nil => exact ⟨_, _, _, .done, rfl⟩
  | cons a rest ih =>
    rcases hread : a.fetchProtocolTokens s with ⟨e | tokens, s₁⟩
    · exact ⟨_, _, _, .readFails hread, Run.bind_error (Run.bind_error hread)⟩
    · rcases hput : store.put a.key tokens s₁ with ⟨e | ⟨⟩, s₂⟩
      · exact ⟨_, _, _, .putFails hread hput, Run.bind_error ((Run.bind_ok hread).trans hput)⟩
      · obtain ⟨written, result, s', hlater, hrun⟩ := ih s₂
        refine ⟨_, _, _, .writes hread hput hlater, ?_⟩
        rw [Run.forEach, Run.bind_ok ((Run.bind_ok hread).trans hput), Run.cons_apply _ hrun]
        cases result <;> rfl

theorem writeMetadata_eq (r : Registry σ) (store : MetadataStore σ) (s : σ) :
    ∃ written result s', Writes store r.listing s written result s' ∧
      r.writeMetadata store s = (result.map fun _ => written.length, s') := by
  obtain ⟨written, result, s', hwrites, hrun⟩ := exists_writes store r.listing s
  refine ⟨written, result, s', hwrites, ?_⟩
  cases result with
  | error e => exact Run.bind_error hrun
  | ok =>
    refine (Run.bind_ok hrun).trans ?_
    rw [List.length_map]
    rfl

/-- A run that succeeds has written all listings, one that fails those before some adapter. -/
theorem Writes.adapters_eq (h : Writes store adapters s written result s') :
    match result with
    | .ok _ => adapters = written.map Prod.fst
    | .error _ => ∃ a rest, adapters = written.map Prod.fst ++ a :: rest := by
  induction h with
  | done => rfl
  | @writes a _ _ _ _ _ _ r _ _ _ _ ih =>
    cases r with
    | ok => exact congrArg (a :: ·) ih
    | error e =>
      obtain ⟨b, rest, rfl⟩ := ih
      exact ⟨b, rest, rfl⟩
  | @readFails a rest => exact ⟨a, rest, rfl⟩
  | @putFails a rest => exact ⟨a, rest, rfl⟩

theorem Writes.mem_adapters {entry : Adapter σ × List ProtocolToken}
    (h : Writes store adapters s written result s') (hmem : entry ∈ written) : entry.1 ∈ adapters := by
  have hadapters := h.adapters_eq
  cases result with
  | ok => exact hadapters ▸ List.mem_map_of_mem hmem
  | error e =>
    obtain ⟨b, rest, rfl⟩ := hadapters
    exact List.mem_append_left _ (List.mem_map_of_mem hmem)

/-- What is written is what was read. -/
theorem Writes.read {a : Adapter σ} {tokens : List ProtocolToken}
    (h : Writes store adapters s written result s') (hmem : (a, tokens) ∈ written) :
    ∃ before after, a.fetchProtocolTokens before = (.ok tokens, after) := by
  induction h with
  | done | readFails | putFails => cases hmem
  | @writes _ _ s _ s₁ _ _ _ _ read _ _ ih =>
    rcases List.mem_cons.mp hmem with heq | hmem
    · cases heq
      exact ⟨s, s₁, read⟩
    · exact ih hmem

/-- A run that succeeds has written every listing whose adapter always answers the same. -/
theorem Writes.mem_written {a : Adapter σ} {tokens : List ProtocolToken}
    (h : Writes store adapters s written (.ok ()) s') (ha : a ∈ adapters)
    (hanswer : ∀ w, (a.fetchProtocolTokens w).1 = .ok tokens) : (a, tokens) ∈ written := by
  have hadapters : adapters = written.map Prod.fst := h.adapters_eq
  rw [hadapters] at ha
  obtain ⟨⟨a, others⟩, hentry, rfl⟩ := List.mem_map.mp ha
  obtain ⟨before, after, hread⟩ := h.read hentry
  obtain rfl : others = tokens := Except.ok.inj ((congrArg Prod.fst hread).symm.trans (hanswer before))
  exact hentry

section
variable {keys : ProductKey → Prop} (hstore : store.KeepsApart keys)
  (hkeys : ∀ a ∈ adapters, keys a.key) (hread : ∀ a ∈ adapters, a.Bypasses store keys)
include hstore hkeys hread

/-- Only for the keys of what is written the store answers otherwise than before. -/
theorem Writes.answer_other {key : ProductKey} (h : Writes store adapters s written result s')
    (hkey : keys key) (hother : ∀ entry ∈ written, entry.1.key ≠ key) :
    store.answer key s' = store.answer key s := by
  induction h with
  | done => rfl
  | writes read put _ ih =>
    obtain ⟨ha, hrest⟩ := List.forall_mem_cons.mp hkeys
    obtain ⟨hbypasses, hreads⟩ := List.forall_mem_cons.mp hread
    obtain ⟨hne, hothers⟩ := List.forall_mem_cons.mp hother
    rw [ih hrest hreads hothers, hstore.put ha put key hkey, if_neg hne]
    exact (hbypasses key hkey _).of_apply read rfl
  | readFails read => exact (hread _ List.mem_cons_self key hkey _).of_apply read rfl
  | putFails read put =>
    rw [hstore.putFails (hkeys _ List.mem_cons_self) put key hkey]
    exact (hread _ List.mem_cons_self key hkey _).of_apply read rfl

/-- What is written is answered, because the adapters after it have other keys. -/
theorem Writes.answer_written (h : Writes store adapters s written result s')
    (hnodup : (adapters.map Adapter.key).Nodup) {a : Adapter σ} {tokens : List ProtocolToken}
    (hmem : (a, tokens) ∈ written) : store.answer a.key s' = .ok (some tokens) := by
  induction h with
  | done | readFails | putFails => cases hmem
  | @writes b rest _ others _ s₂ written r s' _ put later ih =>
    obtain ⟨hb, hrest⟩ := List.forall_mem_cons.mp hkeys
    obtain ⟨-, hreads⟩ := List.forall_mem_cons.mp hread
    obtain ⟨hnew, hnodup⟩ := List.nodup_cons.mp hnodup
    rcases List.mem_cons.mp hmem with heq | hmem
    · cases heq
      have hother : ∀ entry ∈ written, entry.1.key ≠ a.key := by
        intro entry hentry hkey
        exact hnew (hkey ▸ List.mem_map_of_mem (later.mem_adapters hentry))
      rw [later.answer_other hstore hrest hreads hb hother, hstore.put hb put a.key hb, if_pos rfl]
    · exact ih hrest hreads hnodup hmem

end

/-! ### Reading what was written -/

/-- Adapters whose listing is read through a cache over a store, with the memory of the cache: wrapped
ones, and fungible products that are made in a context with the store. -/
inductive ReadsThrough (store : MetadataStore σ) : Adapter σ → Slot σ TokenMemo → Prop
  | wrapped (inner : Adapter σ) (memo : Slot σ TokenMemo) :
      ReadsThrough store (inner.cached (some store) memo) memo
  | made {c : AdapterContext σ} {k : FungibleProduct} (hstore : c.store = some store)
      (hcached : k.isCached = true) :
      ReadsThrough store (k.adapter c) (c.memo (k.adapter c).key)

theorem ReadsThrough.protocolTokens_eq {b : Adapter σ} {memo : Slot σ TokenMemo}
    (h : ReadsThrough store b memo) :
    b.protocolTokens = TokenCache.getOrFetch ⟨b.key, some store, memo⟩ b.fetchProtocolTokens := by
  cases h with
  | wrapped => rfl
  | @made c k hstore hcached =>
    rw [FungibleProduct.protocolTokens_eq hcached, ← hstore]
    rfl

/-- A cache that remembers nothing finds what the store answers. -/
theorem ReadsThrough.protocolTokens_of_answer {b : Adapter σ} {memo : Slot σ TokenMemo}
    (h : ReadsThrough store b memo) {tokens : List ProtocolToken} {w : σ} (hempty : memo.get w = none)
    (hanswer : store.answer b.key w = .ok (some tokens)) :
    b.protocolTokens w = (.ok tokens, memo.set (some tokens) (store.get b.key w).2) ∧
      (TokenCache.call ⟨b.key, some store, memo⟩ b.fetchProtocolTokens w).accesses =
        [.got b.key (.ok (some tokens))] := by
  have hcall := TokenCache.call_of_stored (c := ⟨b.key, some store, memo⟩) b.fetchProtocolTokens rfl
    hempty (Prod.ext hanswer rfl)
  rw [h.protocolTokens_eq, TokenCache.getOrFetch_eq_call, hcall]
  exact ⟨rfl, rfl⟩

/-- Listings that are written beforehand, for any registry and any store that keeps its keys apart. A run
goes through the products that have listings in the order of the registry. It counts all of them, or it
ends at the first one whose listing cannot be read or put; in either case exactly what was read before
stands under the keys of the products before, and everything else is answered as it was. An adapter that
reads through a cache over the store and remembers nothing yet is then answered what was written for its
key; it looks into the store once and reads nothing anew. -/
theorem writeMetadata_prebuilds (r : Registry σ) (store : MetadataStore σ) (keys : ProductKey → Prop)
    (s : σ) (hstore : store.KeepsApart keys) (hkeys : ∀ a ∈ r.listing, keys a.key)
    (hread : ∀ a ∈ r.listing, a.Bypasses store keys) :
    ∃ written result s',
      r.writeMetadata store s = (result.map fun _ => written.length, s') ∧
      Writes store r.listing s written result s' ∧
      (match result with
        | .ok _ => written.map Prod.fst = r.listing
        | .error _ => ∃ a rest, written.map Prod.fst ++ a :: rest = r.listing) ∧
      (∀ a tokens, (a, tokens) ∈ written →
        (∃ before after, a.fetchProtocolTokens before = (.ok tokens, after)) ∧
        store.answer a.key s' = .ok (some tokens) ∧
        ∀ b memo w, ReadsThrough store b memo → b.key = a.key → memo.get w = none →
          store.answer a.key w = store.answer a.key s' →
          b.protocolTokens w = (.ok tokens, memo.set (some tokens) (store.get b.key w).2) ∧
            (TokenCache.call ⟨b.key, some store, memo⟩ b.fetchProtocolTokens w).accesses =
              [.got b.key (.ok (some tokens))]) ∧
      ∀ key, keys key → (∀ entry ∈ written, entry.1.key ≠ key) →
        store.answer key s' = store.answer key s := by
  obtain ⟨written, result, s', hwrites, hrun⟩ := writeMetadata_eq r store s
  have hnodup : (r.listing.map Adapter.key).Nodup := r.nodup_keys.sublist (List.filter_sublist.map _)
  refine ⟨written, result, s', hrun, hwrites, ?_, fun a tokens hmem => ?_, fun key hkey hother => ?_⟩
  · have hadapters := hwrites.adapters_eq
    cases result with
    | ok => exact hadapters.symm
    | error e =>
      obtain ⟨a, rest, hadapters⟩ := hadapters
      exact ⟨a, rest, hadapters.symm⟩
  · have hanswer := hwrites.answer_written hstore hkeys hread hnodup hmem
    refine ⟨hwrites.read hmem, hanswer, fun b memo w hthrough hkey hempty hsame => ?_⟩
    refine hthrough.protocolTokens_of_answer hempty ?_
    rw [hkey, hsame, hanswer]
  · exact hwrites.answer_other hstore hkeys hread hkey hother

/-- A stale listing is replaced, prices are passed over, and a wrapped adapter whose own listing is broken
is answered what was written. -/
theorem writeMetadata_prebuilds_stale :
    let memo : Slot (MemoryStore × TokenMemo) TokenMemo := ⟨Prod.snd, fun m s => (s.1, m)⟩
    let store : MetadataStore (MemoryStore × TokenMemo) :=
      MemoryStore.store ⟨Prod.fst, fun m s => (m, s.2)⟩
    let uncounted : Slot (MemoryStore × TokenMemo) Nat := ⟨fun _ => 0, fun _ s => s⟩
    let node : Node :=
      ⟨fun _ => some ⟨true, List.replicate 32 0⟩, fun _ => none, none, fun _ => none⟩
    let c : AdapterContext (MemoryStore × TokenMemo) :=
      ⟨.ethereum, fun _ => node, some store, fun _ => memo⟩
    let receipt : ProtocolToken := { token := ⟨⟨0xA⟩, "Receipt", "R", 18⟩, underlyings := [] }
    let old : ProtocolToken := { token := ⟨⟨0xB⟩, "Old", "O", 18⟩, underlyings := [] }
    let share : ProtocolToken :=
      { token := { Token.native .ethereum with address := Token.nativeSentinel }
        underlyings := [Token.native .ethereum] }
    let receipts (broken : Option (List String)) : Adapter (MemoryStore × TokenMemo) :=
      Script.adapter
        { key := ⟨.ethereum, .aaveV3, "a-token"⟩, protocolTokens := [receipt], broken := broken } uncounted
    let vaults : FungibleProduct := .announced (.curatedVaults [Token.nativeSentinel])
    let elsewhere : ProductKey := ⟨.base, .metaMorpho, "vault"⟩
    let start : MemoryStore × TokenMemo :=
      ⟨⟨[((receipts none).key, [old]), (elsewhere, [old])]⟩, none⟩
    let r : Registry (MemoryStore × TokenMemo) :=
      (after [.register (Prices.adapter c []), .register (vaults.adapter c), .register (receipts none)]
        (empty fun _ => none, start)).1
    store.KeepsApart (fun _ => True) ∧ (∀ a ∈ r.listing, a.Bypasses store fun _ => True) ∧
    ∃ m : MemoryStore, r.writeMetadata store start = (.ok 2, m, none) ∧
      m.get? (receipts none).key = some [receipt] ∧ m.get? (vaults.adapter c).key = some [share] ∧
      m.get? elsewhere = some [old] ∧
      ((receipts (some ["protocol_tokens"])).cached (some store) memo).protocolTokens (m, none) =
        (.ok [receipt], m, some [receipt]) ∧
      (vaults.adapter c).protocolTokens (m, none) = (.ok [share], m, some [share]) := by
  intro memo store uncounted node c receipt old share receipts vaults elsewhere start r
  have hlisting : r.listing = [receipts none, vaults.adapter c] := rfl
  have hstore : store.KeepsApart fun _ => True := MemoryStore.store_keepsApart fun _ _ => rfl
  have hread : ∀ a ∈ r.listing, a.Bypasses store fun _ => True := by
    rw [hlisting]
    simp only [List.forall_mem_cons]
    exact ⟨fun _ _ _ _ h => h, vaults.bypasses c store _, fun _ h => nomatch h⟩
  have hcount : (r.writeMetadata store start).1 = .ok 2 := rfl
  have hforgets : (r.writeMetadata store start).2.2 = none := rfl
  obtain ⟨written, result, ⟨m, kept⟩, hrun, hwrites, -, hwritten, hothers⟩ :=
    writeMetadata_prebuilds r store (fun _ => True) start hstore (fun _ _ => trivial) hread
  rw [hrun] at hcount hforgets
  obtain rfl : kept = none := hforgets
  obtain ⟨⟨⟩, rfl, hlength⟩ := map_eq_ok_iff.mp hcount
  rw [hlength] at hrun
  rw [hlisting] at hwrites
  obtain ⟨-, hanswer, hserved⟩ :=
    hwritten _ [receipt] (hwrites.mem_written List.mem_cons_self fun _ => rfl)
  obtain ⟨-, hanswer', hserved'⟩ :=
    hwritten _ [share] (hwrites.mem_written (List.mem_cons_of_mem _ List.mem_cons_self) fun _ => rfl)
  have hkept : store.answer elsewhere (m, none) = store.answer elsewhere start := by
    refine hothers elsewhere trivial fun entry hentry => ?_
    rcases List.mem_pair.mp (hwrites.mem_adapters hentry) with heq | heq <;>
      exact heq ▸ ne_of_apply_ne (·.chain) nofun
  refine ⟨hstore, hread, m, hrun, Except.ok.inj hanswer, Except.ok.inj hanswer',
    Except.ok.inj hkept, ?_, ?_⟩
  · exact (hserved _ memo (m, none) (.wrapped _ _) rfl rfl rfl).1
  · exact (hserved' _ memo (m, none) (.made rfl rfl) rfl rfl rfl).1

end Registry

end Chainfolio
