import Chainfolio.Proofs.Chain
import Chainfolio.Proofs.Config

/-! Which environment variables are accepted, and what they make of a configuration. A merge is told here
without the reader: it fails with the offence of the first variable that is not well-formed, and where all of
them are, every setting is that of the last variable for it. -/
namespace Chainfolio.Config

variable {α : Type} {c c' : Config} {v : String × String} {vars : List (String × String)}
  {name text : String} {chain : Chain} {fault : Fault}

/-! ### The variables -/

/-- An endpoint has a chain and a location, the depth is a number; other variables are as they like. -/
structure WellFormed (v : String × String) : Prop where
  endpoint : ∀ text, v.1 = "DEFI_RPC_" ++ text →
    (∃ chain : Chain, chain.IsNamed text) ∧ ∃ url, Url.parse v.2 = .ok url
  depth : v.1 = "DEFI_RESOLVE_DEPTH" → ∃ n < UInt64.size, Text.Integer.Spells v.2.toList n

/-- What is wrong with a variable; its chain is looked at before its location. -/
inductive Offends (v : String × String) : Fault → Prop
  | chain {text : String} {fault : Fault} (hname : v.1 = "DEFI_RPC_" ++ text)
      (hchain : Chain.Misnamed text fault) : Offends v fault
  | url {text : String} {chain : Chain} {cause : UrlFault} (hname : v.1 = "DEFI_RPC_" ++ text)
      (hchain : chain.IsNamed text) (hurl : Url.parse v.2 = .error cause) :
      Offends v (.config (.invalidUrl v.1 v.2 cause))
  | depth {cause : Text.IntegerFault} (hname : v.1 = "DEFI_RESOLVE_DEPTH")
      (hnumber : Text.parseUInt64 v.2 = .error cause) : Offends v (.config (.invalidNumber v.1 cause))

/-- A variable names the chain, in any spelling, and gives it the endpoint. -/
def SetsEndpoint (chain : Chain) (v : String × String) (url : Url) : Prop :=
  ∃ text, v.1 = "DEFI_RPC_" ++ text ∧ chain.IsNamed text ∧ Url.parse v.2 = .ok url

def SetsDirectory (v : String × String) (path : String) : Prop := v.1 = "DEFI_METADATA_DIR" ∧ v.2 = path

def SetsDepth (v : String × String) (depth : Nat) : Prop :=
  v.1 = "DEFI_RESOLVE_DEPTH" ∧ depth < UInt64.size ∧ Text.Integer.Spells v.2.toList depth

/-- What the last of the variables that set something sets it to, if any does. -/
inductive LastSet (sets : String × String → α → Prop) (vars : List (String × String)) :
    Option α → Prop
  | none (h : ∀ v ∈ vars, ∀ a, ¬ sets v a) : LastSet sets vars none
  | some {before after : List (String × String)} {v : String × String} {a : α}
      (hvars : vars = before ++ v :: after) (hset : sets v a) (h : ∀ w ∈ after, ∀ a, ¬ sets w a) :
      LastSet sets vars (some a)

/-- Every setting is that of the last variable for it, or else what it was. -/
structure Merged (c : Config) (vars : List (String × String)) (c' : Config) : Prop where
  rpc : ∀ chain, ∃ url?, LastSet (SetsEndpoint chain) vars url? ∧ c'.rpc chain = url?.or (c.rpc chain)
  metadataDir : ∃ path?, LastSet SetsDirectory vars path? ∧ c'.metadataDir = path?.or c.metadataDir
  resolveDepth : ∃ depth?, LastSet SetsDepth vars depth? ∧ c'.resolveDepth = depth?.getD c.resolveDepth

/-! ### What a name stands for -/

theorem after?_eq_some_iff {start name rest : List Char} :
    after? start name = some rest ↔ name = start ++ rest := by
  induction start generalizing name with
  | nil => simp [after?]
  | cons c start ih =>
    cases name with
    | nil => simp [after?]
    | cons d name =>
      by_cases h : c = d
      · simp [after?, h, ih]
      · simp [after?, h, Ne.symm h]

theorem eq_append_iff :
    name = "DEFI_RPC_" ++ text ↔ after? "DEFI_RPC_".toList name.toList = some text.toList := by
  rw [after?_eq_some_iff, ← String.toList_append, String.toList_inj]

theorem ofName_eq_rpc_iff : Setting.ofName name = .rpc text ↔ name = "DEFI_RPC_" ++ text := by
  rw [eq_append_iff, Setting.ofName]
  cases after? "DEFI_RPC_".toList name.toList with
  | some rest =>
    simp only [Setting.rpc.injEq, Option.some.injEq]
    rw [← String.toList_inj, String.toList_ofList]
  | none =>
    simp only [reduceCtorEq, iff_false]
    split_ifs <;> simp

theorem ofName_eq_metadataDir_iff : Setting.ofName name = .metadataDir ↔ name = "DEFI_METADATA_DIR" := by
  constructor
  · grind [Setting.ofName]
  · rintro rfl
    decide

theorem ofName_eq_resolveDepth_iff : Setting.ofName name = .resolveDepth ↔ name = "DEFI_RESOLVE_DEPTH" := by
  constructor
  · grind [Setting.ofName]
  · rintro rfl
    decide

/-! ### One variable -/

theorem toOption_eq_some_iff {ε : Type} {x : Except ε α} {a : α} : x.toOption = some a ↔ x = .ok a := by
  cases x <;> simp [Except.toOption]

theorem endpoint?_eq_some_iff {url : Url} : endpoint? chain v = some url ↔ SetsEndpoint chain v url := by
  unfold endpoint? SetsEndpoint
  simp only [← ofName_eq_rpc_iff, ← Chain.parse_eq_ok_iff]
  cases Setting.ofName v.1 with
  | rpc text =>
    simp only [Setting.rpc.injEq, exists_eq_left', ite_eq_iff, reduceCtorEq, and_false, or_false,
      toOption_eq_some_iff]
  | metadataDir => simp
  | resolveDepth => simp
  | other => simp

theorem directory?_eq_some_iff {path : String} : directory? v = some path ↔ SetsDirectory v path := by
  unfold directory? SetsDirectory
  rw [← ofName_eq_metadataDir_iff]
  cases Setting.ofName v.1 <;> simp

theorem depth?_eq_some_iff {depth : Nat} : depth? v = some depth ↔ SetsDepth v depth := by
  unfold depth? SetsDepth
  rw [← ofName_eq_resolveDepth_iff, and_comm (a := depth < _), ← Text.parseUInt64_eq_ok_iff]
  cases Setting.ofName v.1 <;> simp [toOption_eq_some_iff]

/-- A variable offends by what is wrong with it. -/
theorem offence?_eq_some_iff : offence? v = some fault ↔ Offends v fault := by
  constructor
  · intro h
    unfold offence? at h
    split at h
    · next text hsetting =>
      have hname := ofName_eq_rpc_iff.mp hsetting
      split at h
      · next hchain =>
        cases h
        exact .chain hname (Chain.parse_eq_error_iff.mp hchain)
      · next hchain hurl =>
        cases h
        exact .url hname (Chain.parse_eq_ok_iff.mp hchain) hurl
      · cases h
    · next hsetting =>
      split at h
      · next hnumber =>
        cases h
        exact .depth (ofName_eq_resolveDepth_iff.mp hsetting) hnumber
      · cases h
    · cases h
  · intro h
    unfold offence?
    cases h with
    | chain hname hchain => simp only [ofName_eq_rpc_iff.mpr hname, Chain.parse_eq_error_iff.mpr hchain]
    | url hname hchain hurl =>
      simp only [ofName_eq_rpc_iff.mpr hname, Chain.parse_eq_ok_iff.mpr hchain, hurl]
    | depth hname hnumber => simp only [ofName_eq_resolveDepth_iff.mpr hname, hnumber]

/-- The variables that do not offend are the well-formed ones. -/
theorem offence?_eq_none_iff : offence? v = none ↔ WellFormed v := by
  constructor
  · intro h
    refine ⟨fun text hname => ?_, fun hname => ?_⟩
    · simp only [offence?, ofName_eq_rpc_iff.mpr hname] at h
      cases hchain : Chain.parse text with
      | error fault => simp [hchain] at h
      | ok chain =>
        refine ⟨⟨chain, Chain.parse_eq_ok_iff.mp hchain⟩, ?_⟩
        cases hurl : Url.parse v.2 with
        | error cause => simp [hchain, hurl] at h
        | ok url => exact ⟨url, rfl⟩
    · simp only [offence?, ofName_eq_resolveDepth_iff.mpr hname] at h
      cases hnumber : Text.parseUInt64 v.2 with
      | error cause => simp [hnumber] at h
      | ok depth =>
        obtain ⟨hspells, hsize⟩ := Text.parseUInt64_eq_ok_iff.mp hnumber
        exact ⟨depth, hsize, hspells⟩
  · intro h
    unfold offence?
    split
    · next text hsetting =>
      obtain ⟨⟨chain, hchain⟩, url, hurl⟩ := h.endpoint text (ofName_eq_rpc_iff.mp hsetting)
      simp only [Chain.parse_eq_ok_iff.mpr hchain, hurl]
    · next hsetting =>
      obtain ⟨depth, hsize, hspells⟩ := h.depth (ofName_eq_resolveDepth_iff.mp hsetting)
      simp only [Text.parseUInt64_eq_ok_iff.mpr ⟨hspells, hsize⟩]
    · rfl

/-! ### All variables -/

/-- The last of the values that variables set. -/
theorem lastSet_iff {sets : String × String → α → Prop} {set? : String × String → Option α}
    {a? : Option α} (hset : ∀ v a, set? v = some a ↔ sets v a) :
    LastSet sets vars a? ↔ (vars.filterMap set?).getLast? = a? := by
  have hnone (vars : List (String × String)) :
      vars.filterMap set? = [] ↔ ∀ v ∈ vars, ∀ a, ¬ sets v a := by
    simp only [List.filterMap_eq_nil_iff, Option.eq_none_iff_forall_ne_some, ne_eq, hset]
  constructor
  · rintro (h | ⟨rfl, hv, h⟩)
    · rw [(hnone vars).mpr h, List.getLast?_nil]
    · rw [List.filterMap_append, List.filterMap_cons_some ((hset _ _).mpr hv), (hnone _).mpr h,
        List.getLast?_concat]
  · rintro rfl
    cases hlast : (vars.filterMap set?).getLast? with
    | none => exact .none ((hnone vars).mp (List.getLast?_eq_none_iff.mp hlast))
    | some a =>
      obtain ⟨earlier, hvalues⟩ := List.getLast?_eq_some_iff.mp hlast
      obtain ⟨start, rest, rfl, -, hrest⟩ := List.filterMap_eq_append_iff.mp hvalues
      obtain ⟨skipped, v, after, rfl, -, hv, hafter⟩ := List.filterMap_eq_cons_iff.mp hrest
      exact .some (List.append_assoc ..).symm ((hset v a).mp hv) ((hnone after).mp hafter)

theorem mergeEnv_eq_error_iff : c.mergeEnv vars = .error fault ↔ vars.findSome? offence? = some fault := by
  rw [mergeEnv_eq]
  cases vars.findSome? offence? <;> simp

/-- The configuration that every variable has been applied to is the one with the last settings. -/
theorem merged_iff : Merged c vars c' ↔ c' = vars.foldl assign c := by
  rw [foldl_assign]
  constructor
  · rintro ⟨hrpc, ⟨path?, hpath, hdirectory⟩, number?, hnumber, hdepth⟩
    rw [lastSet_iff fun v path => directory?_eq_some_iff] at hpath
    rw [lastSet_iff fun v depth => depth?_eq_some_iff] at hnumber
    subst hpath hnumber
    obtain ⟨rpc, metadataDir, resolveDepth⟩ := c'
    simp only [Config.mk.injEq]
    refine ⟨funext fun chain => ?_, hdirectory, hdepth⟩
    obtain ⟨url?, hurl, hchain⟩ := hrpc chain
    rw [lastSet_iff fun v url => endpoint?_eq_some_iff] at hurl
    subst hurl
    exact hchain
  · rintro rfl
    exact ⟨fun chain => ⟨_, (lastSet_iff fun v url => endpoint?_eq_some_iff).mpr rfl, rfl⟩,
      ⟨_, (lastSet_iff fun v path => directory?_eq_some_iff).mpr rfl, rfl⟩,
      _, (lastSet_iff fun v depth => depth?_eq_some_iff).mpr rfl, rfl⟩

/-- Variables are merged exactly when all of them are well-formed, and every setting is then that of the last
variable for it. Otherwise the merge fails with the offence of the first variable that is not. -/
theorem mergeEnv_last_wins (c : Config) (vars : List (String × String)) :
    ((∃ c', c.mergeEnv vars = .ok c') ↔ ∀ v ∈ vars, WellFormed v) ∧
    (∀ c', c.mergeEnv vars = .ok c' ↔ (∀ v ∈ vars, WellFormed v) ∧ Merged c vars c') ∧
    (∀ fault, c.mergeEnv vars = .error fault ↔ ∃ before v after, vars = before ++ v :: after ∧
      (∀ w ∈ before, WellFormed w) ∧ ¬ WellFormed v ∧ Offends v fault) := by
  have hok c' : c.mergeEnv vars = .ok c' ↔ (∀ v ∈ vars, WellFormed v) ∧ Merged c vars c' := by
    rw [mergeEnv_eq_ok_iff, merged_iff]
    simp only [offence?_eq_none_iff]
  refine ⟨?_, hok, fun fault => ?_⟩
  · simp only [mergeEnv_eq_ok_iff, offence?_eq_none_iff, exists_and_left, exists_eq, and_true]
  · rw [mergeEnv_eq_error_iff, List.findSome?_eq_some_iff]
    have hoffends v : ¬ WellFormed v ∧ Offends v fault ↔ offence? v = some fault := by
      rw [← offence?_eq_none_iff, ← offence?_eq_some_iff, and_iff_right_of_imp]
      intro h
      simp [h]
    simp only [hoffends, offence?_eq_none_iff, and_comm]

end Chainfolio.Config
