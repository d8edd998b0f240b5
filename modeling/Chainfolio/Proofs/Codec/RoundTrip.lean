import Chainfolio.Codec.Position
import Chainfolio.Proofs.Codec.Embedded
import Chainfolio.Proofs.Codec.Record
import Chainfolio.Proofs.Underlying

/-! Positions, movements, rates and tokens are read back from what they wrote. Amounts may be read in any
base; they come back in decimal with the same value. -/
namespace Chainfolio

namespace Json

/-- What is written is read back, and what is read says no more than what is then written. -/
structure Lossless {α : Type} (read : Json → Option α) (write : α → Json) : Prop where
  back : ∀ a, read (write a) = some a
  again : ∀ j, ((read j).map write).bind read = read j

/-- The amount that is read under a name has the value that its text spells, in whatever base; it is
written in decimal. -/
def Respells {α : Type} (name : String) (amount : α → Word) (read : Json → Option α) (write : α → Json) :
    Prop :=
  ∀ j a, read j = some a → ∃ s, j.get? name = some (.str s) ∧
    Text.Amount.Spells s.toList (amount a).toNat ∧
    (write a).get? name = some (.str (toString (amount a).toNat))

variable {α : Type} {read : Json → Option α} {write : α → Json}

theorem Lossless.of_back (h : ∀ a, read (write a) = some a) : Lossless read write := by
  refine ⟨h, fun j => ?_⟩
  cases hj : read j with
  | none => rfl
  | some a => exact h a

end Json

/-! ### Trees of amounts -/

namespace Underlying

/-- The fields of an amount beside those of its token. -/
def ownFields (u : Underlying) : List (String × Json) :=
  [("balanceRaw", u.balance.toJson), ("type", u.kind.toJson)] ++ Json.listField "tokens" toJson u.tokens

theorem listToJson_eq (us : List Underlying) : listToJson us = us.map toJson := by
  induction us with
  | nil => rfl
  | cons u us ih => rw [listToJson, ih, List.map_cons]

theorem toJson_eq (u : Underlying) : u.toJson = .obj (u.token.fields ++ u.ownFields) := by
  obtain ⟨token, balance, kind, tokens⟩ := u
  cases tokens with
  | nil => simp [toJson, ownFields, Json.listField]
  | cons u us => simp [toJson, ownFields, Json.listField, listToJson_eq]

theorem childrenOf?_eq (fields : List (String × Json)) :
    childrenOf? fields = ((Json.field? "tokens" fields).map listOfJson?).getD (some []) := by
  induction fields with
  | nil => rfl
  | cons f fields ih =>
    obtain ⟨name, j⟩ := f
    rw [Json.field?_cons]
    cases j <;> simp only [childrenOf?, ih] <;> split <;> rfl

/-- An amount is read back as soon as what it unwraps into is. -/
theorem ofJson?_toJson_of (u : Underlying) (h : listOf? (u.tokens.map toJson) = some u.tokens) :
    ofJson? u.toJson = some u := by
  have hnames : (u.ownFields.map Prod.fst).Sublist fieldNames :=
    (List.Sublist.refl ["balanceRaw", "type"]).append (Json.map_fst_listField "tokens" toJson u.tokens)
  obtain ⟨r, hr, htoken, hfind⟩ :=
    u.token.shared?_fields fieldNames u.ownFields hnames (by decide) (by decide)
  have hbalance : r.find "balanceRaw" = some u.balance.toJson := hfind _ (by decide)
  have hkind : r.find "type" = some u.kind.toJson := hfind _ (by decide)
  have hchildren : childrenOf? (u.token.fields ++ u.ownFields) = some u.tokens := by
    have hfield : Json.field? "tokens" (u.token.fields ++ u.ownFields) =
        if u.tokens ≠ [] then some (.arr (u.tokens.map toJson)) else none := by
      simp [Token.fields, ownFields]
    rw [childrenOf?_eq, hfield]
    split
    · exact h
    · next hnil => rw [not_not.mp hnil]; rfl
  rw [toJson_eq, ofJson?, hr, hchildren]
  simp only [Option.bind_eq_bind, Option.bind_some, Option.pure_def, htoken,
    JsonRecord.required_eq hbalance, JsonRecord.required_eq hkind, Word.ofJson?_toJson,
    TokenKind.ofJson?_toJson]
  cases u
  rfl

theorem listOf?_map_toJson (us : List Underlying) : listOf? (us.map toJson) = some us := by
  induction us using forest_induction with
  | nil => rfl
  | cons token balance kind below rest hbelow hrest =>
    have hfirst := ofJson?_toJson_of ⟨token, balance, kind, below⟩ hbelow
    simp [listOf?, hfirst, hrest]

theorem listOfJson?_map_toJson (us : List Underlying) :
    listOfJson? (.arr (us.map toJson)) = some us := listOf?_map_toJson us

theorem ofJson?_toJson (u : Underlying) : ofJson? u.toJson = some u :=
  ofJson?_toJson_of u (listOf?_map_toJson u.tokens)

end Underlying

/-! ### Positions and movements -/

namespace Position

/-- The fields of a position beside those of its token. -/
def ownFields (p : Position) : List (String × Json) :=
  [("balanceRaw", p.balance.toJson), ("type", p.kind.toJson)] ++
    (Json.optionalField "tokenId" .str p.tokenId ++ Json.listField "tokens" Underlying.toJson p.tokens)

theorem toJson_eq (p : Position) : p.toJson = .obj (p.token.fields ++ p.ownFields) := by
  simp [toJson, ownFields]

theorem ofJson?_toJson (p : Position) : ofJson? p.toJson = some p := by
  have hnames : (p.ownFields.map Prod.fst).Sublist ["balanceRaw", "type", "tokenId", "tokens"] := by
    rw [ownFields, List.map_append, List.map_append]
    exact (List.Sublist.refl ["balanceRaw", "type"]).append
      ((Json.map_fst_optionalField ..).append (Json.map_fst_listField ..))
  obtain ⟨r, hr, htoken, hfind⟩ := p.token.shared?_fields _ p.ownFields hnames (by decide) (by decide)
  have hbalance : r.find "balanceRaw" = some p.balance.toJson := hfind _ (by decide)
  have hkind : r.find "type" = some p.kind.toJson := hfind _ (by decide)
  have hid : r.find "tokenId" = p.tokenId.map .str := by simp [hfind, ownFields]
  have htokens : r.find "tokens" =
      if p.tokens ≠ [] then some (.arr (p.tokens.map Underlying.toJson)) else none := by
    simp [hfind, ownFields]
  rw [toJson_eq, ofJson?, hr]
  simp [htoken, JsonRecord.required_eq hbalance, JsonRecord.required_eq hkind,
    JsonRecord.optional_text_eq hid,
    JsonRecord.defaulted_eq htokens (Underlying.listOfJson?_map_toJson p.tokens)]

end Position

namespace MovementToken

@[simp] theorem ofJson?_toJson (t : MovementToken) : ofJson? t.toJson = some t := by
  obtain ⟨r, hr, htoken, hfind⟩ := t.token.shared?_fields ["tokenId"]
    (Json.optionalField "tokenId" .str t.tokenId) (Json.map_fst_optionalField ..) (by decide) (by decide)
  have hid : r.find "tokenId" = t.tokenId.map .str := by simp [hfind]
  rw [toJson, ofJson?, hr]
  simp [htoken, JsonRecord.optional_text_eq hid]

end MovementToken

namespace Movement

def fields (m : Movement) : List (String × Json) :=
  [("protocolToken", m.protocolToken.toJson), ("tokens", .arr (m.tokens.map Underlying.toJson)),
    ("blockNumber", Json.nat m.block.toNat), ("transactionHash", m.transaction.toJson)]

theorem ofJson?_toJson (m : Movement) : ofJson? m.toJson = some m := by
  obtain ⟨r, hread, hfind⟩ := JsonRecord.read?_own m.fields
    (List.Sublist.refl ["protocolToken", "tokens", "blockNumber", "transactionHash"]) (by decide)
  have htoken : r.find "protocolToken" = some m.protocolToken.toJson := hfind _
  have htokens : r.find "tokens" = some (.arr (m.tokens.map Underlying.toJson)) := hfind _
  have hblock : r.find "blockNumber" = some (Json.nat m.block.toNat) := hfind _
  have htransaction : r.find "transactionHash" = some m.transaction.toJson := hfind _
  rw [toJson, ofJson?, ← fields, hread]
  simp [JsonRecord.required_eq htoken, JsonRecord.required_eq htokens, JsonRecord.required_eq hblock,
    JsonRecord.required_eq htransaction, Underlying.listOfJson?_map_toJson]

end Movement

/-! ### Rates and supplies -/

namespace UnderlyingRate

theorem ofJson?_toJson (u : UnderlyingRate) : ofJson? u.toJson = some u := by
  obtain ⟨r, hr, htoken, hfind⟩ := u.token.shared?_fields ["type", "underlyingRateRaw"]
    [("type", u.kind.toJson), ("underlyingRateRaw", u.rate.toJson)] (List.Sublist.refl _)
    (by decide) (by decide)
  have hkind : r.find "type" = some u.kind.toJson := hfind _ (by decide)
  have hrate : r.find "underlyingRateRaw" = some u.rate.toJson := hfind _ (by decide)
  rw [toJson, ofJson?, hr]
  simp [htoken, JsonRecord.required_eq hkind, JsonRecord.required_eq hrate]

end UnderlyingRate

namespace UnwrapRate

/-- The fields of a rate beside those of its token. -/
def ownFields (u : UnwrapRate) : List (String × Json) :=
  [("baseRate", Json.nat u.baseRate.toNat), ("type", u.kind.toJson)] ++
    Json.listField "tokens" UnderlyingRate.toJson u.tokens

theorem toJson_eq (u : UnwrapRate) : u.toJson = .obj (u.token.fields ++ u.ownFields) := by
  simp [toJson, ownFields]

theorem ofJson?_toJson (u : UnwrapRate) : ofJson? u.toJson = some u := by
  have hnames : (u.ownFields.map Prod.fst).Sublist ["baseRate", "type", "tokens"] := by
    rw [ownFields, List.map_append]
    exact (List.Sublist.refl ["baseRate", "type"]).append (Json.map_fst_listField ..)
  obtain ⟨r, hr, htoken, hfind⟩ := u.token.shared?_fields _ u.ownFields hnames (by decide) (by decide)
  have hbase : r.find "baseRate" = some (Json.nat u.baseRate.toNat) := hfind _ (by decide)
  have hkind : r.find "type" = some u.kind.toJson := hfind _ (by decide)
  have htokens : r.find "tokens" =
      if u.tokens ≠ [] then some (.arr (u.tokens.map UnderlyingRate.toJson)) else none := by
    simp [hfind, ownFields]
  rw [toJson_eq, ofJson?, hr]
  simp [htoken, JsonRecord.required_eq hbase, JsonRecord.required_eq hkind,
    JsonRecord.defaulted_eq htokens (Json.list?_map fun rate _ => rate.ofJson?_toJson)]

end UnwrapRate

namespace UnderlyingSupply

theorem ofJson?_toJson (u : UnderlyingSupply) : ofJson? u.toJson = some u := by
  obtain ⟨r, hr, htoken, hfind⟩ := u.token.shared?_fields ["type", "totalSupplyRaw"]
    [("type", u.kind.toJson), ("totalSupplyRaw", u.totalSupply.toJson)] (List.Sublist.refl _)
    (by decide) (by decide)
  have hkind : r.find "type" = some u.kind.toJson := hfind _ (by decide)
  have hsupply : r.find "totalSupplyRaw" = some u.totalSupply.toJson := hfind _ (by decide)
  rw [toJson, ofJson?, hr]
  simp [htoken, JsonRecord.required_eq hkind, JsonRecord.required_eq hsupply]

end UnderlyingSupply

namespace TokenSupply

/-- The fields of a supply beside those of its token. -/
def ownFields (t : TokenSupply) : List (String × Json) :=
  [("type", t.kind.toJson), ("totalSupplyRaw", t.totalSupply.toJson)] ++
    Json.listField "tokens" UnderlyingSupply.toJson t.tokens

theorem toJson_eq (t : TokenSupply) : t.toJson = .obj (t.token.fields ++ t.ownFields) := by
  simp [toJson, ownFields]

theorem ofJson?_toJson (t : TokenSupply) : ofJson? t.toJson = some t := by
  have hnames : (t.ownFields.map Prod.fst).Sublist ["type", "totalSupplyRaw", "tokens"] := by
    rw [ownFields, List.map_append]
    exact (List.Sublist.refl ["type", "totalSupplyRaw"]).append (Json.map_fst_listField ..)
  obtain ⟨r, hr, htoken, hfind⟩ := t.token.shared?_fields _ t.ownFields hnames (by decide) (by decide)
  have hkind : r.find "type" = some t.kind.toJson := hfind _ (by decide)
  have hsupply : r.find "totalSupplyRaw" = some t.totalSupply.toJson := hfind _ (by decide)
  have htokens : r.find "tokens" =
      if t.tokens ≠ [] then some (.arr (t.tokens.map UnderlyingSupply.toJson)) else none := by
    simp [hfind, ownFields]
  rw [toJson_eq, ofJson?, hr]
  simp [htoken, JsonRecord.required_eq hkind, JsonRecord.required_eq hsupply,
    JsonRecord.defaulted_eq htokens (Json.list?_map fun supply _ => supply.ofJson?_toJson)]

end TokenSupply

/-! ### Protocol tokens -/

theorem Extra.entries_eq_nil {e : Extra} (h : e.entries = []) : e = .empty := by
  cases e
  cases h
  rfl

namespace ProtocolToken

variable {t : ProtocolToken}

/-- The fields of a protocol token beside those of its token. -/
def ownFields (t : ProtocolToken) : List (String × Json) :=
  ("underlyingTokens", .arr (t.underlyings.map Token.toJson)) :: t.extra.field

theorem toJson_eq (t : ProtocolToken) : t.toJson = .obj (t.token.fields ++ t.ownFields) := by
  simp [toJson, ownFields]

theorem map_fst_ownFields (t : ProtocolToken) :
    (t.ownFields.map Prod.fst).Sublist ["underlyingTokens", "extra"] := by
  rw [ownFields, Extra.field]
  split <;> simp

/-- Extra data that was left out because it is empty comes back as such; other data comes back if it is
plain. -/
theorem defaulted_extra_iff {r : JsonRecord} (h : r.find "extra" = Json.field? "extra" t.ownFields) :
    r.defaulted "extra" Extra.ofJson? .empty = some t.extra ↔ t.extra.Plain := by
  rw [JsonRecord.defaulted, h, ownFields, Extra.field]
  split
  · next hnone =>
    split at hnone
    · next hnil =>
      obtain he := Extra.entries_eq_nil hnil
      simp [he, Extra.Plain, Extra.empty]
    · simp at hnone
  · next j hsome =>
    split at hsome
    · simp at hsome
    · obtain rfl : .obj t.extra.entries = j := by simpa using hsome
      exact Extra.ofJson?_entries_iff

/-- A protocol token is read back exactly when its extra data is plain. -/
theorem ofJson?_toJson_iff : ofJson? t.toJson = some t ↔ t.extra.Plain := by
  obtain ⟨r, hr, htoken, hfind⟩ :=
    t.token.shared?_fields _ t.ownFields t.map_fst_ownFields (by decide) (by decide)
  have hunderlyings : r.find "underlyingTokens" = some (.arr (t.underlyings.map Token.toJson)) :=
    hfind _ (by decide)
  have hlist : Json.list? Token.ofJson? (.arr (t.underlyings.map Token.toJson)) = some t.underlyings :=
    Json.list?_map fun u _ => u.ofJson?_toJson
  rw [toJson_eq, ofJson?, hr, ← defaulted_extra_iff (hfind "extra" (by decide))]
  simp only [Option.bind_eq_bind, Option.bind_some, htoken, JsonRecord.required_eq hunderlyings, hlist]
  obtain ⟨token, underlyings, extra⟩ := t
  simp [Option.bind_eq_some_iff]

/-- What is read where nothing has the reserved name has plain extra data. -/
theorem plain_of_ofJson? {j : Json} (hj : j.Unreserved) (h : ofJson? j = some t) : t.extra.Plain := by
  simp only [ofJson?, Option.bind_eq_bind, Option.bind_eq_some_iff] at h
  obtain ⟨r, hr, token, -, underlyings, -, extra, hextra, ht⟩ := h
  cases ht
  rw [JsonRecord.defaulted, JsonRecord.shared?_find hr (by decide)] at hextra
  split at hextra
  · cases hextra
    intro a ha
    cases ha
  · next v hv => exact Extra.plain_of_ofJson? (hj.get? hv) hextra

end ProtocolToken

/-! ### Amounts -/

namespace Json.Respells

variable {α : Type} {name : String} {amount : α → Word} {read : Json → Option α} {write : α → Json}

/-- It is enough that the amount is required under its name and written there. -/
theorem of_required (own : List String) (hname : name ∈ own)
    (hread : ∀ j a, read j = some a → ∃ r, JsonRecord.shared? Token.fieldNames own j = some r ∧
      r.required name Word.ofJson? = some (amount a))
    (hwrite : ∀ a, (write a).get? name = some (amount a).toJson) : Respells name amount read write := by
  intro j a h
  obtain ⟨r, hr, hrequired⟩ := hread j a h
  obtain ⟨field, hfield, hamount⟩ := Option.bind_eq_some_iff.mp hrequired
  obtain ⟨s, hs, hword⟩ := Option.bind_eq_some_iff.mp hamount
  rw [JsonRecord.shared?_find hr hname] at hfield
  cases field with
  | str =>
    cases hs
    exact ⟨s, hfield, Word.spells_of_ofText? hword, hwrite a⟩
  | _ => cases hs

theorem underlying :
    Respells "balanceRaw" Underlying.balance Underlying.ofJson? Underlying.toJson := by
  refine of_required Underlying.fieldNames (by decide) (fun j u h => ?_) fun u => ?_
  · cases j with
    | obj fields =>
      simp only [Underlying.ofJson?, Option.bind_eq_bind, Option.bind_eq_some_iff] at h
      obtain ⟨r, hr, token, -, balance, hbalance, kind, -, tokens, -, hu⟩ := h
      cases hu
      exact ⟨r, hr, hbalance⟩
    | _ => simp [Underlying.ofJson?] at h
  · rw [Underlying.toJson_eq]
    rfl

theorem position : Respells "balanceRaw" Position.balance Position.ofJson? Position.toJson := by
  refine of_required ["balanceRaw", "type", "tokenId", "tokens"] (by decide) (fun j p h => ?_) fun p => rfl
  simp only [Position.ofJson?, Option.bind_eq_bind, Option.bind_eq_some_iff] at h
  obtain ⟨r, hr, token, -, balance, hbalance, kind, -, id, -, tokens, -, hp⟩ := h
  cases hp
  exact ⟨r, hr, hbalance⟩

theorem underlyingRate :
    Respells "underlyingRateRaw" UnderlyingRate.rate UnderlyingRate.ofJson? UnderlyingRate.toJson := by
  refine of_required ["type", "underlyingRateRaw"] (by decide) (fun j u h => ?_) fun u => rfl
  simp only [UnderlyingRate.ofJson?, Option.bind_eq_bind, Option.bind_eq_some_iff] at h
  obtain ⟨r, hr, token, -, kind, -, rate, hrate, hu⟩ := h
  cases hu
  exact ⟨r, hr, hrate⟩

theorem tokenSupply :
    Respells "totalSupplyRaw" TokenSupply.totalSupply TokenSupply.ofJson? TokenSupply.toJson := by
  refine of_required ["type", "totalSupplyRaw", "tokens"] (by decide) (fun j t h => ?_) fun t => rfl
  simp only [TokenSupply.ofJson?, Option.bind_eq_bind, Option.bind_eq_some_iff] at h
  obtain ⟨r, hr, token, -, kind, -, supply, hsupply, tokens, -, ht⟩ := h
  cases ht
  exact ⟨r, hr, hsupply⟩

theorem underlyingSupply :
    Respells "totalSupplyRaw" UnderlyingSupply.totalSupply UnderlyingSupply.ofJson?
      UnderlyingSupply.toJson := by
  refine of_required ["type", "totalSupplyRaw"] (by decide) (fun j u h => ?_) fun u => rfl
  simp only [UnderlyingSupply.ofJson?, Option.bind_eq_bind, Option.bind_eq_some_iff] at h
  obtain ⟨r, hr, token, -, kind, -, supply, hsupply, hu⟩ := h
  cases hu
  exact ⟨r, hr, hsupply⟩

end Json.Respells

/-! ### Every form -/

/-- Every amount, position, movement, rate and supply is read back from what it wrote, so that a second
reading gives what the first one gave; amounts change their spelling only. A protocol token is read back
exactly when no object in its extra data opens with the reserved name, as after reading a value that has
that name nowhere. -/
theorem forms_read_back :
    Json.Lossless Underlying.ofJson? Underlying.toJson ∧ Json.Lossless Position.ofJson? Position.toJson ∧
    Json.Lossless Movement.ofJson? Movement.toJson ∧ Json.Lossless UnwrapRate.ofJson? UnwrapRate.toJson ∧
    Json.Lossless TokenSupply.ofJson? TokenSupply.toJson ∧
    (∀ t : ProtocolToken, ProtocolToken.ofJson? t.toJson = some t ↔ t.extra.Plain) ∧
    (∀ (j : Json) (t : ProtocolToken), j.Unreserved → ProtocolToken.ofJson? j = some t →
      ProtocolToken.ofJson? t.toJson = some t) ∧
    Json.Respells "balanceRaw" Underlying.balance Underlying.ofJson? Underlying.toJson ∧
    Json.Respells "balanceRaw" Position.balance Position.ofJson? Position.toJson ∧
    Json.Respells "underlyingRateRaw" UnderlyingRate.rate UnderlyingRate.ofJson? UnderlyingRate.toJson ∧
    Json.Respells "totalSupplyRaw" TokenSupply.totalSupply TokenSupply.ofJson? TokenSupply.toJson ∧
    Json.Respells "totalSupplyRaw" UnderlyingSupply.totalSupply UnderlyingSupply.ofJson?
      UnderlyingSupply.toJson := by
  refine ⟨.of_back Underlying.ofJson?_toJson, .of_back Position.ofJson?_toJson,
    .of_back Movement.ofJson?_toJson, .of_back UnwrapRate.ofJson?_toJson,
    .of_back TokenSupply.ofJson?_toJson, fun t => ProtocolToken.ofJson?_toJson_iff, fun j t hj h => ?_,
    .underlying, .position, .underlyingRate, .tokenSupply, .underlyingSupply⟩
  exact ProtocolToken.ofJson?_toJson_iff.mpr (ProtocolToken.plain_of_ofJson? hj h)

/-- An amount in hexadecimal and a token with extra data. -/
theorem forms_read_back_hexadecimal :
    let dai := [("address", .str "0x0000000000000000000000000000000000000011"), ("name", .str "Dai"),
      ("symbol", .str "DAI"), ("decimals", Json.nat 18)]
    let amount : Json := .obj (("type", .str "underlying") :: ("balanceRaw", .str "0x_fF") :: dai)
    let token : Json := .obj (dai ++ [("underlyingTokens", .arr []),
      ("extra", .obj [("market", .obj [("lltv", .str "0.86")])])])
    (∃ u, Underlying.ofJson? amount = some u ∧ Underlying.ofJson? u.toJson = some u ∧
      u.toJson.get? "balanceRaw" = some (.str "255")) ∧
    token.Unreserved ∧ ∃ t, ProtocolToken.ofJson? token = some t ∧ ProtocolToken.ofJson? t.toJson = some t := by
  intro dai amount token
  obtain ⟨hamounts, -, -, -, -, -, htokens, hspelling, -⟩ := forms_read_back
  refine ⟨?_, ?_⟩
  · have hvalue : (Underlying.ofJson? amount).map Underlying.balance = some 255 := by decide
    obtain ⟨u, hu, hbalance⟩ := Option.map_eq_some_iff.mp hvalue
    obtain ⟨s, -, -, hwritten⟩ := hspelling amount u hu
    refine ⟨u, hu, hamounts.back u, ?_⟩
    rw [hwritten, hbalance]
    rfl
  · have hunreserved : token.Unreserved := by
      simp [token, dai, Json.Unreserved, Json.embeddedName, Json.nat]
    have hread : (ProtocolToken.ofJson? token).isSome := by decide
    obtain ⟨t, ht⟩ := Option.isSome_iff_exists.mp hread
    exact ⟨hunreserved, t, ht, htokens token t hunreserved ht⟩

/-- A field of the reserved name comes to the front of its object once the object is settled. -/
theorem reserved_field_is_not_read_back :
    let j : Json := .obj [("address", .str "0x0000000000000000000000000000000000000011"),
      ("name", .str "Dai"), ("symbol", .str "DAI"), ("decimals", Json.nat 18),
      ("underlyingTokens", .arr []),
      ("extra", .obj [("a", .obj [("b", Json.nat 1), (Json.embeddedName, Json.nat 5)])])]
    (ProtocolToken.ofJson? j).isSome ∧
      (((ProtocolToken.ofJson? j).map ProtocolToken.toJson).bind ProtocolToken.ofJson?).isNone := by
  decide +kernel

end Chainfolio
