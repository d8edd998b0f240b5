import Chainfolio.Store.Files
import Chainfolio.Proofs.Codec.Reader
import Chainfolio.Proofs.Codec.RoundTrip

/-! Listings that are read back from the text of their file. An array in the extra data of a token may come
back sealed; no field of a record does, and extra data is expanded before it is kept, which opens every
seal. -/
namespace Chainfolio

/-- What follows at every item of a list holds in pairs. -/
theorem forall₂_of_mem {α β : Type} {R S : α → β → Prop} {items : List α} {out : List β}
    (h : List.Forall₂ R items out) (himp : ∀ a ∈ items, ∀ b, R a b → S a b) : List.Forall₂ S items out :=
  ((List.forall₂_and_left _ _).mpr ⟨himp, h⟩).imp fun _ b hab => hab.1 b hab.2

/-! ### Sealed values -/

namespace Json

variable {read : String → Option Json} {j j' : Json} {items : List Json} {fields out : List (String × Json)}

theorem Sealing.str_eq {s : String} (h : (Json.str s).Sealing j') : j' = .str s := by
  cases h
  rfl

theorem Sealing.num_eq {n : JsonNumber} (h : (Json.num n).Sealing j') : j' = .num n := by
  cases h
  rfl

/-- The fields of an object stay where they are. -/
theorem Sealing.obj_cases (h : (Json.obj fields).Sealing j') :
    ∃ out, j' = .obj out ∧ List.Forall₂ (fun a b => a.1 = b.1 ∧ a.2.Sealing b.2) fields out := by
  cases h with
  | @obj _ out hnames hvalues =>
    refine ⟨out, rfl, ?_⟩
    induction fields generalizing out with
    | nil =>
      cases out with
      | nil => exact .nil
      | cons => cases hvalues
    | cons a fields ih =>
      cases out with
      | nil => cases hvalues
      | cons b out =>
        simp only [List.map_cons, List.cons.injEq, List.forall₂_cons] at hnames hvalues
        exact .cons ⟨hnames.1, hvalues.1⟩ (ih hnames.2 hvalues.2)

/-- Each name has its value, sealed as it may be, or none. -/
theorem field?_sealing (h : List.Forall₂ (fun a b => a.1 = b.1 ∧ a.2.Sealing b.2) fields out)
    (name : String) :
    (field? name fields = none ∧ field? name out = none) ∨
      ∃ v w, field? name fields = some v ∧ field? name out = some w ∧ v.Sealing w := by
  induction h with
  | nil => exact .inl ⟨rfl, rfl⟩
  | @cons a b fields out hab _ ih =>
    rw [field?_cons, field?_cons, ← hab.1]
    split
    · exact .inr ⟨a.2, b.2, rfl, rfl, hab.2⟩
    · exact ih

theorem names_sealing (h : List.Forall₂ (fun a b => a.1 = b.1 ∧ a.2.Sealing b.2) fields out) :
    out.map Prod.fst = fields.map Prod.fst := by
  induction h with
  | nil => rfl
  | cons hab _ ih => rw [List.map_cons, List.map_cons, hab.1, ih]

/-- The items of an array are found under its seal. -/
theorem Sealing.items? (h : (Json.arr items).Sealing j') :
    ∃ out, j'.items? = some out ∧ List.Forall₂ Sealing items out := by
  cases h with
  | arr hitems => exact ⟨_, rfl, hitems⟩
  | arrSealed bytes hitems => exact ⟨_, rfl, hitems⟩

/-- Expanding a plain value opens every seal. -/
theorem Sealing.expandWith (h : j.Sealing j') (hplain : j.Plain) : Json.expandWith read j' = some j := by
  induction j using parts_induction generalizing j' with
  | null | bool _ | num _ | str _ =>
    cases h
    rfl
  | unreadable | malformed => cases h
  | «sealed» => cases h
  | arr items ih =>
    have hback {out : List Json} (hitems : List.Forall₂ Sealing items out) :
        expandItems read out = some items := by
      rw [expandItems_eq, mapM_eq_some_iff]
      exact (forall₂_of_mem hitems fun j hj w hw => ih j hj hw (everyObject_arr.mp hplain j hj)).flip
    cases h with
    | arr hitems => rw [Json.expandWith, hback hitems, Option.map_some]
    | arrSealed bytes hitems => rw [Json.expandWith, Json.expandWith, hback hitems, Option.map_some]
  | obj fields ih =>
    obtain ⟨hhead, hvalues⟩ := everyObject_obj.mp hplain
    obtain ⟨out, rfl, hfields⟩ := h.obj_cases
    have hback : Fieldwise (Json.expandWith read) out fields :=
      (forall₂_of_mem hfields fun a ha b hab => ⟨hab.1.symm, ih a ha hab.2 (hvalues a ha)⟩).flip
    rw [expandWith_obj (hback.names ▸ hhead), expandFields_eq_some_iff.mpr hback, Option.map_some]

/-- A list is read where each of its items is, sealed as it may be. -/
theorem Sealing.list? {α : Type} {write : α → Json} {read : Json → Option α} {as : List α}
    (h : (Json.arr (as.map write)).Sealing j')
    (hread : ∀ a ∈ as, ∀ j, (write a).Sealing j → read j = some a) : Json.list? read j' = some as := by
  obtain ⟨out, hout, hitems⟩ := h.items?
  rw [Json.list?, hout, Option.bind_some, mapM_eq_some_iff]
  rw [List.forall₂_map_left_iff] at hitems
  exact (forall₂_of_mem hitems hread).flip

end Json

/-! ### Tokens -/

theorem Token.legible_field (t : Token) (room : Nat) : ∀ f ∈ t.fields, f.2.Legible room := by
  have hdecimals : t.decimals.toNat < UInt64.size := t.decimals.toNat_lt.trans (by decide)
  simp only [fields, List.forall_mem_cons]
  exact ⟨.str _, .str _, .str _, .natural hdecimals, by simp⟩

/-- Nothing in a token's own fields can be sealed. -/
theorem Token.sealing_fields {t : Token} {out : List (String × Json)}
    (h : List.Forall₂ (fun a b => a.1 = b.1 ∧ a.2.Sealing b.2) t.fields out) : out = t.fields := by
  have hvalue : ∀ a ∈ t.fields, ∀ j, a.2.Sealing j → j = a.2 := by
    simp only [fields, List.forall_mem_cons]
    exact ⟨fun _ => Json.Sealing.str_eq, fun _ => Json.Sealing.str_eq, fun _ => Json.Sealing.str_eq,
      fun _ => Json.Sealing.num_eq, List.forall_mem_nil _⟩
  have hmem := (List.forall₂_and_left _ _).mpr ⟨hvalue, h⟩
  have hsame : List.Forall₂ Eq t.fields out :=
    hmem.imp fun a b hab => Prod.ext hab.2.1 (hab.1 b.2 hab.2.2).symm
  exact (List.forall₂_eq_eq_eq ▸ hsame).symm

theorem Token.ofJson?_sealing {t : Token} {j : Json} (h : t.toJson.Sealing j) : ofJson? j = some t := by
  obtain ⟨out, rfl, hfields⟩ := h.obj_cases
  rw [sealing_fields hfields]
  exact t.ofJson?_toJson

/-! ### Extra data -/

/-- How many containers may open one in another in a value of extra data: a file, its list, a token and the
extra data itself are open around it. -/
def Extra.room : Nat := JsonText.depthLimit - 5

/-- Extra data that is read back from a file: nothing in it is taken for an embedded text, and all of it is
legible where it stands. -/
structure Extra.IsDurable (e : Extra) : Prop where
  plain : e.Plain
  legible : ∀ a ∈ e.entries, a.2.Legible Extra.room

theorem Extra.ofJson?_sealing {e : Extra} {j : Json} (hplain : e.Plain)
    (h : (Json.obj e.entries).Sealing j) : ofJson? j = some e := by
  obtain ⟨out, rfl, hfields⟩ := h.obj_cases
  refine ofJson?_obj_eq_some_iff.mpr ⟨e.entries, ?_, Json.settleFields?_self e.orderly⟩
  exact (forall₂_of_mem hfields fun a ha b hab => ⟨hab.1.symm, hab.2.expandWith (hplain a ha)⟩).flip

/-! ### Protocol tokens -/

namespace ProtocolToken

variable {t : ProtocolToken}

theorem legible_toJson (h : t.extra.IsDurable) : t.toJson.Legible (Extra.room + 2) := by
  have hunderlyings : (Json.arr (t.underlyings.map Token.toJson)).Legible (Extra.room + 1) := by
    refine .arr fun j hj => ?_
    obtain ⟨u, -, rfl⟩ := List.mem_map.mp hj
    exact .obj (u.legible_field _)
  have hextra : ∀ f ∈ t.extra.field, f.2.Legible (Extra.room + 1) := by
    intro f hf
    rw [Extra.field] at hf
    split at hf
    · cases hf
    · obtain rfl := List.mem_singleton.mp hf
      exact .obj h.legible
  rw [toJson_eq, ownFields]
  refine .obj (List.forall_mem_append.mpr ⟨t.token.legible_field _, ?_⟩)
  exact List.forall_mem_cons.mpr ⟨hunderlyings, hextra⟩

/-- Extra data that stands beside a token, or was left out, is read back. -/
theorem defaulted_extra {r : JsonRecord} {own : List (String × Json)} (hplain : t.extra.Plain)
    (hown : List.Forall₂ (fun a b => a.1 = b.1 ∧ a.2.Sealing b.2) t.ownFields own)
    (hfind : r.find "extra" = Json.field? "extra" own) :
    r.defaulted "extra" Extra.ofJson? .empty = some t.extra := by
  rw [JsonRecord.defaulted, hfind]
  obtain ⟨hnone, hleft⟩ | ⟨v, w, hv, hw, hsealing⟩ := Json.field?_sealing hown "extra"
  · have hempty : t.extra.entries = [] := by
      by_contra hne
      simp [ownFields, Extra.field] at hnone
    rw [hleft, Extra.entries_eq_nil hempty]
  · have hentries : v = .obj t.extra.entries := by
      simp only [ownFields, Extra.field] at hv
      split at hv
      · simp at hv
      · simpa using hv.symm
    rw [hw]
    exact Extra.ofJson?_sealing hplain (hentries ▸ hsealing)

theorem ofJson?_sealing {j : Json} (hplain : t.extra.Plain) (h : t.toJson.Sealing j) :
    ofJson? j = some t := by
  rw [toJson_eq] at h
  obtain ⟨out, rfl, hfields⟩ := h.obj_cases
  have hspread : out.take 4 = t.token.fields := Token.sealing_fields (List.forall₂_take 4 hfields)
  have hown : List.Forall₂ (fun a b => a.1 = b.1 ∧ a.2.Sealing b.2) t.ownFields (out.drop 4) :=
    List.forall₂_drop 4 hfields
  have hnames : ((out.drop 4).map Prod.fst).Sublist ["underlyingTokens", "extra"] := by
    rw [Json.names_sealing hown]
    exact t.map_fst_ownFields
  obtain ⟨r, hr, htoken, hfind⟩ :=
    t.token.shared?_fields _ (out.drop 4) hnames (by decide) (by decide)
  have hunderlyings : r.required "underlyingTokens" (Json.list? Token.ofJson?) = some t.underlyings := by
    obtain ⟨hnone, -⟩ | ⟨v, w, hv, hw, hsealing⟩ := Json.field?_sealing hown "underlyingTokens"
    · simp [ownFields] at hnone
    · obtain rfl : v = .arr (t.underlyings.map Token.toJson) := by simpa [ownFields] using hv.symm
      rw [JsonRecord.required, hfind _ (by decide), hw]
      exact hsealing.list? fun u _ j hj => Token.ofJson?_sealing hj
  have hextra := defaulted_extra hplain hown (hfind "extra" (by decide))
  rw [← List.take_append_drop 4 out, hspread, ofJson?, hr]
  simp [htoken, hunderlyings, hextra]

end ProtocolToken

/-! ### Files -/

namespace ListingFile

variable {f : ListingFile}

/-- A listing is read from its text as it was written. -/
def ReadsBack (f : ListingFile) : Prop := parse f.text = .ok f

theorem legible_toJson (h : ∀ t ∈ f.tokens, t.extra.IsDurable) : f.toJson.Legible (Extra.room + 4) := by
  have htokens : (Json.arr (f.tokens.map ProtocolToken.toJson)).Legible (Extra.room + 3) := by
    refine .arr fun j hj => ?_
    obtain ⟨t, ht, rfl⟩ := List.mem_map.mp hj
    exact ProtocolToken.legible_toJson (h t ht)
  refine .obj ?_
  simp only [List.forall_mem_cons]
  exact ⟨.str _, htokens, by simp⟩

theorem ofJson?_sealing {j : Json} (htime : Timestamp.isValid f.writtenAt = true)
    (h : ∀ t ∈ f.tokens, t.extra.Plain) (hj : f.toJson.Sealing j) : ofJson? j = some f := by
  obtain ⟨out, rfl, hfields⟩ := hj.obj_cases
  have hnames : (out.map Prod.fst).Sublist ["writtenAt", "protocolTokens"] := by
    rw [Json.names_sealing hfields]
    exact .refl _
  obtain ⟨r, hread, hfind⟩ := JsonRecord.read?_own out hnames (by decide)
  have hwrittenAt : r.required "writtenAt" Json.text? = some f.writtenAt := by
    obtain ⟨hnone, -⟩ | ⟨v, w, hv, hw, hsealing⟩ := Json.field?_sealing hfields "writtenAt"
    · simp at hnone
    · obtain rfl : Json.str f.writtenAt = v := by simpa using hv
      rw [JsonRecord.required, hfind, hw, hsealing.str_eq]
      rfl
  have htokens : r.required "protocolTokens" (Json.list? ProtocolToken.ofJson?) = some f.tokens := by
    obtain ⟨hnone, -⟩ | ⟨v, w, hv, hw, hsealing⟩ := Json.field?_sealing hfields "protocolTokens"
    · simp at hnone
    · obtain rfl : v = .arr (f.tokens.map ProtocolToken.toJson) := by simpa using hv.symm
      rw [JsonRecord.required, hfind, hw]
      exact hsealing.list? fun t ht j hj => ProtocolToken.ofJson?_sealing (h t ht) hj
  rw [ofJson?, hread]
  simp [hwrittenAt, htokens, htime]

/-- A listing is read back from the text of its file, as long as the extra data of its tokens is durable. -/
theorem readsBack (htime : Timestamp.isValid f.writtenAt = true)
    (h : ∀ t ∈ f.tokens, t.extra.IsDurable) : f.ReadsBack := by
  obtain ⟨j, hj, hsealing⟩ := Json.exists_parse?_text (legible_toJson h) (by decide)
  have hread := ofJson?_sealing htime (fun t ht => (h t ht).plain) hsealing
  rw [ReadsBack, parse, text, hj, Option.bind_some, hread]

end ListingFile

end Chainfolio
