import Mathlib.Data.List.Nodup
import Chainfolio.Config

/-! What environment variables make of a configuration. Each variable sets one thing or is an offence,
whatever has been set before, so that a merge is told by the first offence or by the last variable for each
thing. Distinct variables may name one chain, by its id and by its name in different letter cases; their
order counts exactly when they do so with different endpoints. -/
namespace Chainfolio.Config

/-! ### One variable -/

/-- The endpoint that a variable gives to a chain, which its name spells in some way. -/
def endpoint? (chain : Chain) (v : String × String) : Option Url :=
  match Setting.ofName v.1 with
  | .rpc text => if (Chain.parse text).toOption = some chain then (Url.parse v.2).toOption else none
  | _ => none

def directory? (v : String × String) : Option String :=
  match Setting.ofName v.1 with
  | .metadataDir => some v.2
  | _ => none

def depth? (v : String × String) : Option Nat :=
  match Setting.ofName v.1 with
  | .resolveDepth => (Text.parseUInt64 v.2).toOption
  | _ => none

def offence? (v : String × String) : Option Fault :=
  match Setting.ofName v.1 with
  | .rpc text =>
    match Chain.parse text, Url.parse v.2 with
    | .error fault, _ => some fault
    | .ok _, .error cause => some (.config (.invalidUrl v.1 v.2 cause))
    | .ok _, .ok _ => none
  | .resolveDepth =>
    match Text.parseUInt64 v.2 with
    | .error cause => some (.config (.invalidNumber v.1 cause))
    | .ok _ => none
  | _ => none

/-- The configuration with what a variable sets. -/
def assign (c : Config) (v : String × String) : Config where
  rpc chain := (endpoint? chain v).or (c.rpc chain)
  metadataDir := (directory? v).or c.metadataDir
  resolveDepth := (depth? v).getD c.resolveDepth

/-- A variable is an offence or sets what it sets in every configuration. -/
theorem apply_eq (c : Config) (v : String × String) :
    c.apply v.1 v.2 =
      match offence? v with
      | some fault => .error fault
      | none => .ok (c.assign v) := by
  obtain ⟨name, value⟩ := v
  simp only [apply, offence?, assign, endpoint?, directory?, depth?]
  cases Setting.ofName name with
  | rpc text =>
    dsimp only
    cases Chain.parse text with
    | error fault => rfl
    | ok chain =>
      cases Url.parse value with
      | error cause => rfl
      | ok url =>
        refine congrArg (fun rpc => Except.ok (Config.mk rpc c.metadataDir c.resolveDepth)) ?_
        funext d
        by_cases h : d = chain
        · simp [h, Except.toOption]
        · simp [h, Ne.symm h, Except.toOption]
  | metadataDir => rfl
  | resolveDepth =>
    dsimp only
    cases Text.parseUInt64 value <;> rfl
  | other => rfl

/-! ### All variables -/

variable {c c' : Config} {vars other : List (String × String)} {chain : Chain}

/-- The endpoints that variables give to a chain, in their order. -/
def endpoints (chain : Chain) (vars : List (String × String)) : List Url := vars.filterMap (endpoint? chain)

/-- A merge stops at the first offence; without one every variable is applied. -/
theorem mergeEnv_eq (c : Config) (vars : List (String × String)) :
    c.mergeEnv vars =
      match vars.findSome? offence? with
      | some fault => .error fault
      | none => .ok (vars.foldl assign c) := by
  induction vars generalizing c with
  | nil => rfl
  | cons v vars ih =>
    have hcons : c.mergeEnv (v :: vars) = c.apply v.1 v.2 >>= fun c => c.mergeEnv vars := rfl
    rw [hcons, apply_eq, List.findSome?_cons, List.foldl_cons]
    cases offence? v with
    | some fault => rfl
    | none => exact ih (c.assign v)

theorem mergeEnv_eq_ok_iff :
    c.mergeEnv vars = .ok c' ↔ (∀ v ∈ vars, offence? v = none) ∧ c' = vars.foldl assign c := by
  rw [mergeEnv_eq, ← List.findSome?_eq_none_iff]
  cases vars.findSome? offence? <;> simp [eq_comm]

theorem getLast?_filterMap_cons {α β : Type} (f : β → Option α) (b : β) (items : List β) :
    ((b :: items).filterMap f).getLast? = (items.filterMap f).getLast?.or (f b) := by
  cases h : f b with
  | none => rw [List.filterMap_cons_none h, Option.or_none]
  | some a =>
    rw [List.filterMap_cons_some h, List.getLast?_cons]
    cases (items.filterMap f).getLast? <;> rfl

/-- Each thing is set by the last variable for it. -/
theorem foldl_assign (c : Config) (vars : List (String × String)) :
    vars.foldl assign c =
      { rpc := fun chain => (endpoints chain vars).getLast?.or (c.rpc chain)
        metadataDir := (vars.filterMap directory?).getLast?.or c.metadataDir
        resolveDepth := (vars.filterMap depth?).getLast?.getD c.resolveDepth } := by
  induction vars generalizing c with
  | nil => rfl
  | cons v vars ih =>
    rw [List.foldl_cons, ih]
    simp only [endpoints, getLast?_filterMap_cons, Option.or_assoc, Option.getD_or, assign]

/-! ### Another order -/

/-- Values that are all the same end alike in every order. -/
theorem getLast?_perm {α : Type} {items items' : List α} (h : ∀ a ∈ items, ∀ b ∈ items, a = b)
    (hperm : items.Perm items') : items'.getLast? = items.getLast? := by
  cases hlast : items.getLast? with
  | none =>
    rw [List.getLast?_eq_none_iff] at hlast ⊢
    exact (hlast ▸ hperm).nil_eq.symm
  | some a =>
    have hne : items' ≠ [] := fun hnil => by simp [(hnil ▸ hperm).eq_nil] at hlast
    have hmem := hperm.mem_iff.mpr (List.getLast_mem hne)
    rw [List.getLast?_eq_some_getLast hne, h _ hmem a (List.mem_of_getLast? hlast)]

/-- Any value of some items can be made the last one. -/
theorem exists_perm_getLast? {α β : Type} {f : β → Option α} {items : List β} {a : α}
    (ha : a ∈ items.filterMap f) :
    ∃ items', items.Perm items' ∧ (items'.filterMap f).getLast? = some a := by
  obtain ⟨b, hb, hfb⟩ := List.mem_filterMap.mp ha
  obtain ⟨before, after, rfl⟩ := List.append_of_mem hb
  refine ⟨before ++ after ++ [b], ?_, ?_⟩
  · exact List.perm_middle.trans (List.perm_append_singleton b (before ++ after)).symm
  · rw [List.filterMap_append, List.filterMap_cons_some hfb, List.filterMap_nil, List.getLast?_concat]

/-- What only one name sets is set once where names are distinct. -/
theorem eq_of_mem_filterMap {α : Type} {f : String × String → Option α} {name : String}
    (hname : ∀ v a, f v = some a → v.1 = name) (hnames : (vars.map Prod.fst).Nodup) :
    ∀ a ∈ vars.filterMap f, ∀ b ∈ vars.filterMap f, a = b := by
  intro a ha b hb
  obtain ⟨v, hv, hva⟩ := List.mem_filterMap.mp ha
  obtain ⟨w, hw, hwb⟩ := List.mem_filterMap.mp hb
  have hvw : v = w :=
    List.inj_on_of_nodup_map hnames hv hw ((hname v a hva).trans (hname w b hwb).symm)
  exact Option.some.inj (hva.symm.trans (hvw ▸ hwb))

theorem name_of_directory? (v : String × String) (path : String) (h : directory? v = some path) :
    v.1 = "DEFI_METADATA_DIR" := by
  unfold directory? Setting.ofName at h
  grind

theorem name_of_depth? (v : String × String) (depth : Nat) (h : depth? v = some depth) :
    v.1 = "DEFI_RESOLVE_DEPTH" := by
  unfold depth? Setting.ofName at h
  grind

/-- Two of the variables give a chain different endpoints. -/
def Contested (chain : Chain) (vars : List (String × String)) : Prop :=
  ∃ u ∈ endpoints chain vars, ∃ u' ∈ endpoints chain vars, u ≠ u'

instance : Decidable (Contested chain vars) :=
  inferInstanceAs (Decidable (∃ u ∈ endpoints chain vars, ∃ u' ∈ endpoints chain vars, u ≠ u'))

/-- Variables that are accepted in one order are accepted in every other one. -/
theorem mergeEnv_perm (hperm : vars.Perm other) (h : c.mergeEnv vars = .ok c') :
    c.mergeEnv other = .ok (other.foldl assign c) :=
  mergeEnv_eq_ok_iff.mpr ⟨fun v hv => (mergeEnv_eq_ok_iff.mp h).1 v (hperm.mem_iff.mpr hv), rfl⟩

/-- The last endpoint of a chain that is not contested is the same in every order. -/
theorem getLast?_endpoints_perm (hperm : vars.Perm other) (h : ¬ Contested chain vars) :
    (endpoints chain other).getLast? = (endpoints chain vars).getLast? := by
  refine getLast?_perm (fun u hu u' hu' => ?_) (hperm.filterMap _)
  by_contra hne
  exact h ⟨u, hu, u', hu', hne⟩

/-- Either endpoint of a contested chain is what some order leads to. -/
theorem exists_perm_rpc {url : Url} (c : Config) (hurl : url ∈ endpoints chain vars) :
    ∃ other, vars.Perm other ∧ (other.foldl assign c).rpc chain = some url := by
  obtain ⟨other, hperm, hlast⟩ := exists_perm_getLast? hurl
  refine ⟨other, hperm, ?_⟩
  rw [foldl_assign]
  simp only [endpoints, hlast, Option.some_or]

/-- Variables with distinct names are accepted in every order or in none. The order makes no difference to
the directory, the depth and the endpoint of a chain, unless two variables give the chain different
endpoints; where that is so, some order leads to another configuration. -/
theorem mergeEnv_order_matters_iff (hnames : (vars.map Prod.fst).Nodup)
    (h : c.mergeEnv vars = .ok c') :
    (∀ other, vars.Perm other → ∃ c'', c.mergeEnv other = .ok c'' ∧
      c''.metadataDir = c'.metadataDir ∧ c''.resolveDepth = c'.resolveDepth ∧
      ∀ chain, ¬ Contested chain vars → c''.rpc chain = c'.rpc chain) ∧
    ((∀ other, vars.Perm other → c.mergeEnv other = .ok c') ↔ ∀ chain, ¬ Contested chain vars) := by
  have hc' : c' = vars.foldl assign c := (mergeEnv_eq_ok_iff.mp h).2
  have hdirectory := eq_of_mem_filterMap name_of_directory? hnames
  have hdepth := eq_of_mem_filterMap name_of_depth? hnames
  refine ⟨fun other hperm => ⟨_, mergeEnv_perm hperm h, ?_⟩, fun hall chain => ?_,
    fun hfree other hperm => ?_⟩
  · simp only [hc', foldl_assign, getLast?_perm hdirectory (hperm.filterMap _),
      getLast?_perm hdepth (hperm.filterMap _), true_and]
    intro chain hfree
    rw [getLast?_endpoints_perm hperm hfree]
  · rintro ⟨u, hu, u', hu', hne⟩
    obtain ⟨other, hperm, hrpc⟩ := exists_perm_rpc c hu
    obtain ⟨other', hperm', hrpc'⟩ := exists_perm_rpc c hu'
    have heq := (hall other hperm).symm.trans (mergeEnv_perm hperm h)
    have heq' := (hall other' hperm').symm.trans (mergeEnv_perm hperm' h)
    rw [← Except.ok.inj heq] at hrpc
    rw [← Except.ok.inj heq', hrpc] at hrpc'
    exact hne (Option.some.inj hrpc')
  · rw [mergeEnv_perm hperm h, hc', foldl_assign, foldl_assign,
      getLast?_perm hdirectory (hperm.filterMap _), getLast?_perm hdepth (hperm.filterMap _)]
    simp only [getLast?_endpoints_perm hperm (hfree _)]

/-- A chain that is named by its name and by its id, with one endpoint in two spellings. -/
theorem mergeEnv_order_matters_iff_spellings :
    let vars := [("DEFI_RPC_Base", "http://[::1]"), ("DEFI_METADATA_DIR", "/tmp/metadata"),
      ("DEFI_RPC_+08453", "HTTP://[0:0::1]:80/"), ("HOME", "/root"), ("DEFI_RESOLVE_DEPTH", "3")]
    (vars.map Prod.fst).Nodup ∧
      ∃ c', standard.mergeEnv vars = .ok c' ∧ (∀ chain, ¬ Contested chain vars) ∧
        ∀ other, vars.Perm other → standard.mergeEnv other = .ok c' := by
  intro vars
  have hnames : (vars.map Prod.fst).Nodup := by decide
  have haccepted : ∀ v ∈ vars, (offence? v).isNone := by decide +kernel
  have hmerge : standard.mergeEnv vars = .ok (vars.foldl assign standard) :=
    mergeEnv_eq_ok_iff.mpr ⟨fun v hv => Option.isNone_iff_eq_none.mp (haccepted v hv), rfl⟩
  have hfree : ∀ chain, ¬ Contested chain vars := by
    intro chain
    cases chain <;> decide +kernel
  obtain ⟨-, hiff⟩ := mergeEnv_order_matters_iff hnames hmerge
  exact ⟨hnames, _, hmerge, hfree, hiff.mpr hfree⟩

/-- A chain that is named by its name and by its id has the endpoint of the later variable. -/
theorem mergeEnv_order_changes_endpoint :
    let node (port : Nat) : Url := ⟨"http".toList, [], some "[::1]".toList, some port, ['/'], none, none⟩
    let byName := ("DEFI_RPC_BASE", "http://[::1]:8545")
    let byId := ("DEFI_RPC_8453", "http://[::1]:8546")
    ([byName, byId].map Prod.fst).Nodup ∧ [byName, byId].Perm [byId, byName] ∧
      ∃ c c', standard.mergeEnv [byName, byId] = .ok c ∧ standard.mergeEnv [byId, byName] = .ok c' ∧
        c.rpc .base = some (node 8546) ∧ c'.rpc .base = some (node 8545) ∧ c ≠ c' := by
  intro node byName byId
  have haccepted : ∀ v ∈ [byName, byId], (offence? v).isNone := by decide +kernel
  have hmerge : standard.mergeEnv [byName, byId] = .ok ([byName, byId].foldl assign standard) :=
    mergeEnv_eq_ok_iff.mpr ⟨fun v hv => Option.isNone_iff_eq_none.mp (haccepted v hv), rfl⟩
  have hperm : [byName, byId].Perm [byId, byName] := .swap ..
  have hlast : (endpoints .base [byName, byId]).getLast? = some (node 8546) := by decide +kernel
  have hlast' : (endpoints .base [byId, byName]).getLast? = some (node 8545) := by decide +kernel
  have hrpc : ([byName, byId].foldl assign standard).rpc .base = some (node 8546) := by
    simp only [foldl_assign, hlast, Option.some_or]
  have hrpc' : ([byId, byName].foldl assign standard).rpc .base = some (node 8545) := by
    simp only [foldl_assign, hlast', Option.some_or]
  refine ⟨by decide, hperm, _, _, hmerge, mergeEnv_perm hperm hmerge, hrpc, hrpc', fun heq => ?_⟩
  rw [heq, hrpc'] at hrpc
  exact absurd hrpc (by decide)

end Chainfolio.Config
