import Chainfolio.MorphoBlue.Adapter
import Chainfolio.Proofs.Node.Metadata
import Chainfolio.Proofs.Store.Files

/-! The texts that stand beside the token of a lending market. An address is raised to upper case digit by
digit, which leaves the value of each digit; six texts make up the market, and each of them is read back from
where the others have been added, from a value and from a file. -/
namespace Chainfolio

/-! ### Checksummed addresses -/

namespace Text.Hex

variable {text text' : List Char} {c : Char}

/-- Texts whose digits have the same values spell the same number. -/
theorem value?_congr (h : text.map digitValue? = text'.map digitValue?) (acc : Nat) :
    value? text acc = value? text' acc := by
  induction text generalizing text' acc with
  | nil => rw [List.map_eq_nil_iff.mp h.symm]
  | cons c text ih =>
    cases text' with
    | nil => cases h
    | cons c' text' =>
      rw [List.map_cons, List.map_cons, List.cons.injEq] at h
      simp only [value?, h.1, ih h.2]

theorem digitValue?_toUpper {count n : Nat} (h : c ∈ digits count n) :
    digitValue? c.toUpper = digitValue? c := by
  induction count generalizing n with
  | zero => cases h
  | succ count ih =>
    rw [digits, List.mem_append, List.mem_singleton] at h
    obtain h | rfl := h
    · exact ih h
    · have hall : ∀ d < 16, digitValue? (digit d).toUpper = digitValue? (digit d) := by decide
      exact hall _ (Nat.mod_lt n (by decide))

/-- Raising some of the letters leaves the value of every digit. -/
theorem map_digitValue?_zipWith {f : Char → Char → Char} (hf : ∀ c m, f c m = c ∨ f c m = c.toUpper)
    {text marks : List Char} (hmarks : text.length ≤ marks.length)
    (htext : ∀ c ∈ text, digitValue? c.toUpper = digitValue? c) :
    (text.zipWith f marks).map digitValue? = text.map digitValue? := by
  induction text generalizing marks with
  | nil => rfl
  | cons c text ih =>
    cases marks with
    | nil => cases hmarks
    | cons m marks =>
      obtain ⟨hc, htext⟩ := List.forall_mem_cons.mp htext
      have hfirst : digitValue? (f c m) = digitValue? c := by
        obtain h | h := hf c m <;> rw [h]
        exact hc
      rw [List.zipWith_cons_cons, List.map_cons, List.map_cons, hfirst,
        ih (Nat.le_of_succ_le_succ hmarks) htext]

end Text.Hex

/-- The digits of an address, raised where the digest has a mark. -/
def Address.raisedDigits (a : Address) (digest : Hash) : List Char :=
  (Text.Hex.digits 40 a.bits.toNat).zipWith (fun c m => if '8' ≤ m then c.toUpper else c)
    (Text.Hex.digits 64 digest.bits.toNat)

theorem Address.toList_checksum (a : Address) :
    ∃ digest, a.checksum.toList = '0' :: 'x' :: a.raisedDigits digest := by
  refine ⟨keccak256 ((Text.Hex.digits 40 a.bits.toNat).map fun c => c.toNat.toUInt8), ?_⟩
  rw [checksum, raisedDigits]
  generalize keccak256 _ = digest
  simp

theorem Address.map_raisedDigits (a : Address) (digest : Hash) :
    (a.raisedDigits digest).map Text.Hex.digitValue? =
      (Text.Hex.digits 40 a.bits.toNat).map Text.Hex.digitValue? := by
  refine Text.Hex.map_digitValue?_zipWith (fun c m => ?_) ?_ fun c => Text.Hex.digitValue?_toUpper
  · split
    · exact .inr rfl
    · exact .inl rfl
  · rw [Text.Hex.length_digits, Text.Hex.length_digits]
    decide

/-- An address is read back from its checksummed text. -/
theorem Address.ofText?_checksum (a : Address) : Address.ofText? a.checksum = some a := by
  obtain ⟨digest, htext⟩ := a.toList_checksum
  have hvalues := a.map_raisedDigits digest
  have hlength : (a.raisedDigits digest).length = 40 := by
    simpa [Text.Hex.length_digits] using congrArg List.length hvalues
  have hread : Text.Hex.exactly? 40 ('0' :: 'x' :: Text.Hex.digits 40 a.bits.toNat) = some a.bits.toNat :=
    Text.Hex.exactly?_digits a.bits.isLt
  rw [Text.Hex.exactly?, Text.Hex.unmarked, if_pos (Text.Hex.length_digits ..)] at hread
  rw [Address.ofText?, htext, Text.Hex.exactly?, Text.Hex.unmarked, if_pos hlength,
    Text.Hex.value?_congr hvalues, hread]
  simp

/-! ### Texts beside a token -/

theorem Json.field?_insertField (name other : String) (v : Json) (fields : List (String × Json)) :
    field? other (insertField name v fields) = if name = other then some v else field? other fields := by
  induction fields with
  | nil => rfl
  | cons f fields ih =>
    obtain ⟨own, w⟩ := f
    rw [insertField]
    split
    · rfl
    · split
      · next h =>
        subst h
        by_cases ho : name = other <;> simp [ho]
      · next hne =>
        rw [field?_cons, ih, field?_cons]
        by_cases ho : name = other
        · subst ho
          simp [Ne.symm hne]
        · simp [ho]

namespace Extra

variable {e : Extra}

theorem text?_eq_some_iff {name text : String} :
    e.text? name = some text ↔ Json.field? name e.entries = some (.str text) := by
  rw [text?, Option.bind_eq_some_iff]
  constructor
  · rintro ⟨j, hj, htext⟩
    cases j with
    | str =>
      cases htext
      exact hj
    | _ => cases htext
  · exact fun h => ⟨_, h, rfl⟩

@[simp] theorem text?_insertText (e : Extra) (name other text : String) :
    (e.insertText name text).text? other = if name = other then some text else e.text? other := by
  rw [text?, insertText, Json.field?_insertField]
  split <;> rfl

end Extra

/-! ### Markets -/

namespace ProtocolToken

variable {t : ProtocolToken} {name : String}

theorem extraValue_of_text? {α : Type} {read : String → Option α} {text : String} {a : α}
    (h : t.extra.text? name = some text) (hread : read text = some a) : t.extraValue name read = .ok a := by
  rw [extraValue, h, Option.bind_some, hread]

/-- The market of a token that stands for one. -/
theorem market_ofMarket (id : Hash) (p : MarketParams) (loan collateral : Token) :
    (ofMarket id p loan collateral).market = .ok (id, p) := by
  let t := ofMarket id p loan collateral
  have hloan : t.extraValue "loanToken" Address.ofText? = .ok p.loanToken :=
    extraValue_of_text? (by simp [t, ofMarket]) p.loanToken.ofText?_checksum
  have hcollateral : t.extraValue "collateralToken" Address.ofText? = .ok p.collateralToken :=
    extraValue_of_text? (by simp [t, ofMarket]) p.collateralToken.ofText?_checksum
  have horacle : t.extraValue "oracle" Address.ofText? = .ok p.oracle :=
    extraValue_of_text? (by simp [t, ofMarket]) p.oracle.ofText?_checksum
  have hirm : t.extraValue "irm" Address.ofText? = .ok p.irm :=
    extraValue_of_text? (by simp [t, ofMarket]) p.irm.ofText?_checksum
  have hlltv : t.extraValue "lltv" Word.ofText? = .ok p.lltv :=
    extraValue_of_text? (by simp [t, ofMarket]) p.lltv.ofText?_text
  have hid : t.extraValue "marketId" Hash.ofText? = .ok id :=
    extraValue_of_text? (by simp [t, ofMarket]) id.ofText?_text
  rw [market, hloan, hcollateral, horacle, hirm, hlltv, hid]
  rfl

theorem textual_ofMarket (id : Hash) (p : MarketParams) (loan collateral : Token) :
    (ofMarket id p loan collateral).extra.Textual := by
  simp only [ofMarket]
  repeat apply Extra.Textual.insertText
  exact Extra.textual_empty

/-- The names under which a token keeps its market, in the order in which they are read, each with whether a
text can be read there. -/
def marketEntries : List (String × (String → Bool)) :=
  [("loanToken", fun text => (Address.ofText? text).isSome),
    ("collateralToken", fun text => (Address.ofText? text).isSome),
    ("oracle", fun text => (Address.ofText? text).isSome),
    ("irm", fun text => (Address.ofText? text).isSome),
    ("lltv", fun text => (Word.ofText? text).isSome),
    ("marketId", fun text => (Hash.ofText? text).isSome)]

/-- Whether a token has a text that can be read under a name. -/
def Provides (t : ProtocolToken) (entry : String × (String → Bool)) : Prop :=
  ∃ text, Json.field? entry.1 t.extra.entries = some (.str text) ∧ entry.2 text = true

/-- The fault of an entry that a token does not have. -/
def missing (t : ProtocolToken) (name : String) : Fault := .config (.invalidMetadata t.token.symbol name)

theorem provides_iff {α : Type} {read : String → Option α} :
    t.Provides (name, fun text => (read text).isSome) ↔ ((t.extra.text? name).bind read).isSome := by
  simp only [Provides, Option.isSome_iff_exists, Option.bind_eq_some_iff, Extra.text?_eq_some_iff]
  constructor
  · rintro ⟨text, htext, a, ha⟩
    exact ⟨a, text, htext, ha⟩
  · rintro ⟨a, text, htext, ha⟩
    exact ⟨text, htext, a, ha⟩

/-- A value is read from the text under its name, or the name is at fault. -/
theorem extraValue_cases {α : Type} (t : ProtocolToken) (name : String) (read : String → Option α) :
    ((∃ a, t.extraValue name read = .ok a) ∧ t.Provides (name, fun text => (read text).isSome)) ∨
      (t.extraValue name read = .error (t.missing name) ∧
        ¬ t.Provides (name, fun text => (read text).isSome)) := by
  rw [provides_iff, extraValue]
  cases (t.extra.text? name).bind read with
  | none => exact .inr ⟨rfl, by simp⟩
  | some a => exact .inl ⟨⟨a, rfl⟩, rfl⟩

/-- The market of a token is read unless one of its entries cannot be; that entry is then at fault. -/
theorem market_cases (t : ProtocolToken) :
    ((∃ m, t.market = .ok m) ∧ ∀ entry ∈ marketEntries, t.Provides entry) ∨
      ∃ entry ∈ marketEntries, ¬ t.Provides entry ∧ t.market = .error (t.missing entry.1) := by
  rw [market]
  obtain ⟨⟨loan, hloan⟩, h₁⟩ | ⟨hloan, h₁⟩ := t.extraValue_cases "loanToken" Address.ofText?
  case inr => exact .inr ⟨_, by simp [marketEntries], h₁, by rw [hloan]; rfl⟩
  obtain ⟨⟨collateral, hcollateral⟩, h₂⟩ | ⟨hcollateral, h₂⟩ :=
    t.extraValue_cases "collateralToken" Address.ofText?
  case inr => exact .inr ⟨_, by simp [marketEntries], h₂, by rw [hloan, hcollateral]; rfl⟩
  obtain ⟨⟨oracle, horacle⟩, h₃⟩ | ⟨horacle, h₃⟩ := t.extraValue_cases "oracle" Address.ofText?
  case inr => exact .inr ⟨_, by simp [marketEntries], h₃, by rw [hloan, hcollateral, horacle]; rfl⟩
  obtain ⟨⟨irm, hirm⟩, h₄⟩ | ⟨hirm, h₄⟩ := t.extraValue_cases "irm" Address.ofText?
  case inr => exact .inr ⟨_, by simp [marketEntries], h₄, by rw [hloan, hcollateral, horacle, hirm]; rfl⟩
  obtain ⟨⟨lltv, hlltv⟩, h₅⟩ | ⟨hlltv, h₅⟩ := t.extraValue_cases "lltv" Word.ofText?
  case inr =>
    exact .inr ⟨_, by simp [marketEntries], h₅, by rw [hloan, hcollateral, horacle, hirm, hlltv]; rfl⟩
  obtain ⟨⟨id, hid⟩, h₆⟩ | ⟨hid, h₆⟩ := t.extraValue_cases "marketId" Hash.ofText?
  case inr =>
    exact .inr ⟨_, by simp [marketEntries], h₆, by rw [hloan, hcollateral, horacle, hirm, hlltv, hid]; rfl⟩
  refine .inl ⟨⟨_, by rw [hloan, hcollateral, horacle, hirm, hlltv, hid]; rfl⟩, ?_⟩
  simp only [marketEntries, List.forall_mem_cons]
  exact ⟨h₁, h₂, h₃, h₄, h₅, h₆, by simp⟩

/-- The store of a listing lies at a path of names. -/
theorem filePath_of_market (chain : Chain) (side : MarketSide) :
    let path := Path.ofText (ProductKey.filePath ⟨chain, .morphoBlue, MorphoBlue.product side⟩)
    path.isAbsolute = false ∧ ∀ part ∈ path.parts.dropLast, Path.IsName part := by
  cases chain <;> cases side <;> decide +kernel

/-- The token that is made for a market keeps the market, also after it has been written as a value and read
back, and in any listing that has been put into a store in memory or in files. A token of any origin has a
market unless one of six texts is missing or cannot be read; its name is then at fault. -/
theorem market_kept_by_metadata (id : Hash) (p : MarketParams) (loan collateral : Token) :
    let t := ofMarket id p loan collateral
    (∀ {σ : Type} (c : AdapterContext σ) (contract : Address) (s s₁ s₂ s₃ : σ),
      MorphoBlue.params c.provider contract id s = (.ok p, s₁) → p.isIdle = false →
      c.token p.loanToken s₁ = (.ok loan, s₂) → c.token p.collateralToken s₂ = (.ok collateral, s₃) →
      MorphoBlue.marketToken c contract id s = (.ok (some t), s₃)) ∧
    t.market = .ok (id, p) ∧ ofJson? t.toJson = some t ∧ t.extra.Textual ∧
    (∀ (chain : Chain) (side : MarketSide) (tokens : List ProtocolToken),
      t ∈ tokens → (∀ t ∈ tokens, t.extra.Textual) →
      let key : ProductKey := ⟨chain, .morphoBlue, MorphoBlue.product side⟩
      (∀ m : MemoryStore, ∃ listing, (m.insert key tokens).get? key = some listing ∧ t ∈ listing) ∧
      ∀ f f' : FileStore, Timestamp.isValid f.now = true → FileStore.insert key tokens f = (.ok (), f') →
        ∃ listing, f'.get? key = .ok (some listing) ∧ t ∈ listing) ∧
    ∀ t : ProtocolToken,
      ((∃ fault, t.market = .error fault) ↔ ∃ entry ∈ marketEntries, ¬ t.Provides entry) ∧
      ∀ fault, t.market = .error fault →
        ∃ entry ∈ marketEntries, ¬ t.Provides entry ∧
          fault = .config (.invalidMetadata t.token.symbol entry.1) := by
  intro t
  have htextual : t.extra.Textual := textual_ofMarket id p loan collateral
  refine ⟨?_, market_ofMarket id p loan collateral, ofJson?_toJson_iff.mpr htextual.plain, htextual, ?_, ?_⟩
  · intro σ c contract s s₁ s₂ s₃ hparams hidle hloan hcollateral
    rw [MorphoBlue.marketToken, Run.bind_ok hparams, hidle]
    simp only [Bool.false_eq_true, if_false]
    rw [Run.bind_ok hloan, Run.bind_ok hcollateral]
    rfl
  · intro chain side tokens ht htokens key
    refine ⟨fun m => ⟨tokens, ?_, ht⟩, fun f f' htime hinsert => ⟨tokens, ?_, ht⟩⟩
    · rw [MemoryStore.get?_insert, if_pos rfl]
    · obtain ⟨hrelative, hparts⟩ := filePath_of_market chain side
      exact FileStore.get?_of_insert hrelative hparts htime htokens hinsert
  · intro t
    obtain ⟨⟨m, hm⟩, hall⟩ | ⟨entry, hentry, hmissing, herror⟩ := t.market_cases
    · exact ⟨by simpa [hm] using hall, fun fault h => by simp [hm] at h⟩
    · refine ⟨iff_of_true ⟨_, herror⟩ ⟨entry, hentry, hmissing⟩, fun fault h => ?_⟩
      exact ⟨entry, hentry, hmissing, (Except.error.inj (herror.symm.trans h)).symm⟩

/-- The market of the native token against itself, in a new store. -/
theorem market_kept_by_metadata_native :
    let native : Token := { Token.native .ethereum with address := Token.nativeSentinel }
    let p : MarketParams := ⟨native.address, native.address, ⟨1⟩, ⟨2⟩, 3⟩
    let reply : Reply := ⟨true, [native.address.toWord, native.address.toWord, 1, 2, 3].flatMap Word.bytes⟩
    let c : AdapterContext TokenMemo :=
      ⟨.ethereum, fun _ => ⟨fun _ => some reply, fun _ => none, none, fun _ => none⟩, none,
        fun _ => ⟨id, fun m _ => m⟩⟩
    let key : ProductKey := ⟨.ethereum, .morphoBlue, MorphoBlue.product .supply⟩
    let t := ofMarket ⟨7⟩ p native native
    MorphoBlue.params c.provider ⟨0xC⟩ ⟨7⟩ none = (.ok p, none) ∧ p.isIdle = false ∧
      MorphoBlue.marketToken c ⟨0xC⟩ ⟨7⟩ none = (.ok (some t), none) ∧
      ∃ f, FileStore.insert key [t] FileStore.new = (.ok (), f) ∧
        ∃ listing, f.get? key = .ok (some listing) ∧ t ∈ listing := by
  intro native p reply c key t
  have hwords : ((c.provider none).values? ⟨⟨0xC⟩, .idToMarketParams, [.hash ⟨7⟩], none, none⟩).bind
      AbiValue.words? = some [native.address.toWord, native.address.toWord, 1, 2, 3] := by decide +kernel
  have hparams : MorphoBlue.params c.provider ⟨0xC⟩ ⟨7⟩ none = (.ok p, none) := by
    have hrun : c.provider.words ⟨⟨0xC⟩, .idToMarketParams, [.hash ⟨7⟩], none, none⟩ none =
        (.ok [native.address.toWord, native.address.toWord, 1, 2, 3], none) := by
      rw [Provider.words_eq, hwords]
      rfl
    have hparse : MarketParams.ofWords? [native.address.toWord, native.address.toWord, 1, 2, 3] = some p := by
      decide +kernel
    rw [MorphoBlue.params, Run.bind_ok hrun, hparse]
    rfl
  have hnative : c.token native.address none = (.ok native, none) := Provider.token_native _ _ _ (.inr rfl)
  obtain ⟨hmade, -, -, htextual, hstored, -⟩ := market_kept_by_metadata ⟨7⟩ p native native
  have htext : key.filePath = "morpho-blue/market-supply/ethereum.json" := by decide +kernel
  have hparts : (Path.ofText key.filePath).parts = ["morpho-blue", "market-supply", "ethereum.json"] := by
    decide +kernel
  have hpath : Path.ofText key.filePath = ⟨_, _⟩ := congrArg₂ Path.mk htext hparts
  have hinsert : ∃ f, FileStore.insert key [t] FileStore.new = (.ok (), f) := by
    rw [FileStore.insert, Run.bind_ok (Run.read_apply FileStore.now FileStore.new), hpath]
    exact ⟨_, rfl⟩
  obtain ⟨f, hinsert⟩ := hinsert
  obtain ⟨-, hfile⟩ :=
    hstored .ethereum .supply [t] List.mem_cons_self (List.forall_mem_singleton.mpr htextual)
  refine ⟨hparams, rfl, hmade c ⟨0xC⟩ none none none none hparams rfl hnative hnative, f, hinsert, ?_⟩
  exact hfile _ f (by decide +kernel) hinsert

end ProtocolToken

end Chainfolio
