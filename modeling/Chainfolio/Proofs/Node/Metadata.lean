import Chainfolio.Node.Metadata
import Chainfolio.Proofs.Node.Answers

/-! What tokens say about themselves. A reply that is at least a word long always gives a name, also where
the call failed and the reply holds the reason for it; shorter replies never do. -/
namespace Chainfolio

theorem AbiType.length_of_wordAt? {buffer : List UInt8} {place : Nat} {w : Word}
    (h : wordAt? buffer place = some w) : place + 32 ≤ buffer.length := by
  simp only [wordAt?, List.length_take, List.length_drop] at h
  split at h
  · omega
  · cases h

/-- A text takes up a word at least, for the place where it stands. -/
theorem AbiType.length_of_decode?_string {data : List UInt8} {values : List AbiValue}
    (h : decode? [.string] data = some values) : 32 ≤ data.length := by
  obtain ⟨⟨decoded, last⟩, hmembers, -⟩ := Option.map_eq_some_iff.mp h
  rw [decodeMembers?, Option.bind_eq_bind, Option.bind_eq_some_iff] at hmembers
  obtain ⟨⟨v, next⟩, htext, -⟩ := hmembers
  rw [decodeAt?, Option.bind_eq_bind, Option.bind_eq_some_iff] at htext
  obtain ⟨part, hpart, -⟩ := htext
  rw [behind?, Option.bind_eq_bind, Option.bind_eq_some_iff] at hpart
  obtain ⟨offset, hoffset, -⟩ := hpart
  have hlength := length_of_wordAt? hoffset
  omega

namespace Metadata

variable {method : Method} {r : Reply}

/-- Whether a reply is long enough for a text that is kept in a word. -/
def isLong (r : Reply) : Bool := 32 ≤ r.data.length

/-- Whether a call for a text succeeded, with a string or with a word of bytes. -/
def announces (method : Method) (r : Reply) : Bool :=
  r.success && ((AbiType.decode? method.outputs r.data).isSome || isLong r)

/-- Whether a call failed, with data that is long enough for a text. -/
def isMisread (r : Reply) : Bool := !r.success && isLong r

theorem isSome_wordText? (data : List UInt8) : (wordText? data).isSome = decide (32 ≤ data.length) := by
  unfold wordText?
  split
  · next h => simp [h]
  · next h => simp [Nat.le_of_not_lt h]

theorem isSome_text? (hmethod : method.outputs = [.string]) : (text? method r).isSome = isLong r := by
  unfold text?
  split
  · next s hvalues =>
    unfold Reply.values? at hvalues
    split at hvalues
    · rw [hmethod] at hvalues
      exact (decide_eq_true (AbiType.length_of_decode?_string hvalues)).symm
    · cases hvalues
  · exact isSome_wordText? r.data

theorem announces_eq (hmethod : method.outputs = [.string]) :
    announces method r = (r.success && isLong r) := by
  rw [announces, hmethod]
  cases hdecoded : AbiType.decode? [.string] r.data with
  | none => rfl
  | some values => simp [isLong, AbiType.length_of_decode?_string hdecoded]

/-- The first of three members that is not in order. -/
def firstFault : (name symbol decimals : Bool) → Option Nat
  | false, _, _ => some 0
  | true, false, _ => some 1
  | true, true, false => some 2
  | true, true, true => none

/-- Length alone and success with a text tell the same fault unless a failed call is taken for a text. -/
theorem firstFault_isLong_eq_iff {name symbol : Reply} {decimals : Bool} :
    firstFault (isLong name) (isLong symbol) decimals =
        firstFault (announces .name name) (announces .symbol symbol) decimals ↔
      isMisread name = false ∧ (isLong name = true → isMisread symbol = false) := by
  -- What is left depends on the lengths and the success of two replies, and on the decimals.
  rw [announces_eq rfl, announces_eq rfl, isMisread, isMisread]
  cases name.success <;> cases symbol.success <;> cases isLong name <;> cases isLong symbol <;>
    cases decimals <;> decide

variable {address : Address} {name symbol decimals : Reply}

/-- The first member at fault is reported. -/
theorem ofReplies_eq_error {i : Nat}
    (h : firstFault (isLong name) (isLong symbol) (decimals? decimals).isSome = some i) :
    ofReplies address name symbol decimals = .error (.tokenMetadata address i) := by
  rw [← @isSome_text? .name name rfl, ← @isSome_text? .symbol symbol rfl] at h
  unfold ofReplies
  generalize text? .name name = n, text? .symbol symbol = y, decimals? decimals = d at h ⊢
  match n, y, d with
  | none, _, _ | some _, none, _ | some _, some _, none =>
    cases h
    rfl

/-- Without a member at fault there is a token, made of what each of them gave. -/
theorem ofReplies_eq_ok
    (h : firstFault (isLong name) (isLong symbol) (decimals? decimals).isSome = none) :
    ∃ t : Token, ofReplies address name symbol decimals = .ok t ∧ t.address = address ∧
      text? .name name = some t.name ∧ text? .symbol symbol = some t.symbol ∧
      decimals? decimals = some t.decimals := by
  rw [← @isSome_text? .name name rfl, ← @isSome_text? .symbol symbol rfl] at h
  unfold ofReplies
  generalize text? .name name = n, text? .symbol symbol = y, decimals? decimals = d at h ⊢
  match n, y, d with
  | some n, some y, some d => exact ⟨⟨address, n, y, d⟩, rfl, rfl, rfl, rfl, rfl⟩

end Metadata

/-- The native token is known without a call. -/
theorem Provider.token_native {σ : Type} (p : Provider σ) (chain : Chain) (s : σ) {address : Address}
    (h : address = .zero ∨ address = Token.nativeSentinel) :
    p.token chain address s = (.ok { Token.native chain with address := address }, s) := by
  rw [Provider.token, if_pos h]
  rfl

/-- The token at an address that is not a native one is made of three replies, and the first of them at
fault is reported. A name or symbol is at fault only when it is shorter than a word, be the call successful
or not. This is the fault of the first call that did not succeed with what it was asked for, unless the data
of a failed call are taken for a text. -/
theorem Provider.token_of_replies {σ : Type} {p : Provider σ} {chain : Chain} {address : Address}
    {s : σ} {name symbol decimals : Reply} (hzero : address ≠ .zero)
    (hsentinel : address ≠ Token.nativeSentinel)
    (hname : (p s).call ⟨address, .name, [], none, none⟩ = some name)
    (hsymbol : (p s).call ⟨address, .symbol, [], none, none⟩ = some symbol)
    (hdecimals : (p s).call ⟨address, .decimals, [], none, none⟩ = some decimals) :
    ∃ r, p.token chain address s = (r, s) ∧
      (∀ i, Metadata.firstFault (Metadata.isLong name) (Metadata.isLong symbol)
          (Metadata.decimals? decimals).isSome = some i → r = .error (.tokenMetadata address i)) ∧
      (Metadata.firstFault (Metadata.isLong name) (Metadata.isLong symbol)
          (Metadata.decimals? decimals).isSome = none →
        ∃ t : Token, r = .ok t ∧ t.address = address ∧ Metadata.text? .name name = some t.name ∧
          Metadata.text? .symbol symbol = some t.symbol ∧
          Metadata.decimals? decimals = some t.decimals) ∧
      (Metadata.firstFault (Metadata.isLong name) (Metadata.isLong symbol)
            (Metadata.decimals? decimals).isSome =
          Metadata.firstFault (Metadata.announces .name name) (Metadata.announces .symbol symbol)
            (Metadata.decimals? decimals).isSome ↔
        Metadata.isMisread name = false ∧
          (Metadata.isLong name = true → Metadata.isMisread symbol = false)) := by
  have hmulti : p.multicall [⟨address, .name, [], none, none⟩, ⟨address, .symbol, [], none, none⟩,
      ⟨address, .decimals, [], none, none⟩] s = (.ok [name, symbol, decimals], s) := by
    rw [multicall_eq, Run.ofOption_eq_ok_iff, mapM_eq_some_iff]
    exact ⟨.cons hname (.cons hsymbol (.cons hdecimals .nil)), rfl⟩
  refine ⟨Metadata.ofReplies address name symbol decimals, ?_,
    fun _ => Metadata.ofReplies_eq_error, Metadata.ofReplies_eq_ok, Metadata.firstFault_isLong_eq_iff⟩
  rw [token, if_neg (not_or.mpr ⟨hzero, hsentinel⟩), Run.bind_ok hmulti]
  exact Run.ofExcept_apply _ s

/-- A name that is kept in a word, and a symbol that is a string. -/
theorem Provider.token_of_replies_maker :
    let reply : Method → Reply
      | .name => ⟨true, [0x4D, 0x61, 0x6B, 0x65, 0x72] ++ List.replicate 27 0⟩
      | .symbol => ⟨true, Word.bytes 32 ++ Word.bytes 3 ++ [0x4D, 0x4B, 0x52] ++ List.replicate 29 0⟩
      | _ => ⟨true, Word.bytes 18⟩
    let p : Provider Unit := fun _ =>
      { call := fun c => some (reply c.method)
        logs := fun _ => none
        blockNumber := none
        timestamp := fun _ => none }
    p.token .ethereum ⟨7⟩ () = (.ok ⟨⟨7⟩, "Maker", "MKR", 18⟩, ()) := by
  intro reply p
  obtain ⟨r, hr, -, hok, -⟩ :=
    @token_of_replies Unit p .ethereum ⟨7⟩ () _ _ _ (by decide) (by decide) rfl rfl rfl
  obtain ⟨⟨address, name, symbol, decimals⟩, rfl, rfl, hname, hsymbol, hdecimals⟩ := hok (by decide)
  have hmaker : Metadata.text? .name (reply .name) = some "Maker" := by decide +kernel
  have hmkr : Metadata.text? .symbol (reply .symbol) = some "MKR" := by decide +kernel
  have heighteen : Metadata.decimals? (reply .decimals) = some 18 := by decide +kernel
  cases hname.symm.trans hmaker
  cases hsymbol.symm.trans hmkr
  cases hdecimals.symm.trans heighteen
  exact hr

/-- The reason that a call for a name gave for its failure becomes the name of the token. -/
theorem Provider.token_of_replies_reverted :
    let reply : Method → Reply
      | .name => ⟨false, [0x08, 0xC3, 0x79, 0xA0] ++ Word.bytes 32 ++ Word.bytes 6 ++
          [0x70, 0x61, 0x75, 0x73, 0x65, 0x64] ++ List.replicate 26 0⟩
      | .symbol => ⟨true, [0x4D, 0x4B, 0x52] ++ List.replicate 29 0⟩
      | _ => ⟨true, Word.bytes 18⟩
    let p : Provider Unit := fun _ =>
      { call := fun c => some (reply c.method)
        logs := fun _ => none
        blockNumber := none
        timestamp := fun _ => none }
    p.token .ethereum ⟨7⟩ () = (.ok ⟨⟨7⟩, "\x08\uFFFDy\uFFFD", "MKR", 18⟩, ()) ∧
      Metadata.firstFault (Metadata.announces .name (reply .name))
        (Metadata.announces .symbol (reply .symbol))
        (Metadata.decimals? (reply .decimals)).isSome = some 0 := by
  intro reply p
  exact ⟨rfl, by decide +kernel⟩

end Chainfolio
