import Mathlib.Data.List.Induction
import Chainfolio.Proofs.Codec.Listing

/-! What is written to a file is read from it. Changing a directory changes the tree above it; whoever goes
down from the top again comes to the directory as it is now. -/
namespace Chainfolio

/-! ### Texts -/

/-- A part of a path that names something in a directory. -/
def Path.IsName (part : String) : Prop := part ≠ "" ∧ part ≠ "." ∧ part ≠ ".."

instance (part : String) : Decidable (Path.IsName part) :=
  inferInstanceAs (Decidable (part ≠ "" ∧ part ≠ "." ∧ part ≠ ".."))

namespace Place

variable {p q : Place} {name part text : String} {parts : List String}

theorem follow_cons (hpart : Path.IsName part) (parts : List String) (p : Place) :
    follow (part :: parts) p = p.enter part >>= follow parts := by
  obtain ⟨hempty, hhere, hback⟩ := hpart
  rw [follow, if_neg (by simp [hempty, hhere]), if_neg hback]

theorem follow_append (parts rest : List String) (p : Place) :
    follow (parts ++ rest) p = follow parts p >>= follow rest := by
  induction parts generalizing p with
  | nil => rfl
  | cons part parts ih =>
    rw [List.cons_append, follow, follow]
    split
    · exact ih p
    · split
      · exact ih p.up
      · cases p.enter part with
        | error fault => rfl
        | ok q => exact ih q

/-- A directory that is entered is one name further down. -/
theorem names_enter (h : p.enter name = .ok q) :
    q.names = p.names ++ [name] ∧ name.utf8ByteSize ≤ nameLimit := by
  rw [enter] at h
  split at h
  · cases h
  · next hlimit =>
    split at h
    · cases h
    · cases h
    · cases h
      exact ⟨by simp [names], Nat.not_lt.mp hlimit⟩

theorem names_follow (hparts : ∀ part ∈ parts, Path.IsName part) (h : follow parts p = .ok q) :
    q.names = p.names ++ parts ∧ ∀ part ∈ parts, part.utf8ByteSize ≤ nameLimit := by
  induction parts generalizing p with
  | nil =>
    cases h
    simp
  | cons part parts ih =>
    obtain ⟨hpart, hparts⟩ := List.forall_mem_cons.mp hparts
    rw [follow_cons hpart] at h
    cases henter : p.enter part with
    | error fault =>
      rw [henter] at h
      cases h
    | ok below =>
      rw [henter] at h
      obtain ⟨hnames, hlimit⟩ := names_enter henter
      obtain ⟨hnames', hlimits⟩ := ih hparts h
      exact ⟨by rw [hnames', hnames, List.append_assoc, List.singleton_append],
        List.forall_mem_cons.mpr ⟨hlimit, hlimits⟩⟩

theorem names_cons (entries outer : DirectoryEntries) (name : String)
    (above : List (String × DirectoryEntries)) :
    names ⟨entries, (name, outer) :: above⟩ = names (up ⟨entries, (name, outer) :: above⟩) ++ [name] := by
  simp [names, up]

/-- Going down from the top by the names of a place, one comes to what the place holds. -/
theorem entries_foldl_down (p : Place) : (p.names.foldl down p.top).entries = p.entries := by
  obtain ⟨entries, above⟩ := p
  induction above generalizing entries with
  | nil => rfl
  | cons level above ih =>
    obtain ⟨name, outer⟩ := level
    have hup := ih (FileTree.insertChild name (.directory entries) outer)
    rw [names_cons, List.foldl_append, List.foldl_cons, List.foldl_nil, down]
    simp only [up, top, topEntries] at hup ⊢
    rw [hup, FileTree.child?_insertChild, if_pos rfl]

/-- A path of names leads down as far as the place lies below where the path starts. -/
theorem follow_names {before : List String} (hnames : p.names = before ++ parts)
    (hparts : ∀ part ∈ parts, Path.IsName part ∧ part.utf8ByteSize ≤ nameLimit) :
    ∃ q, follow parts (before.foldl down p.top) = .ok q ∧ q.entries = p.entries := by
  induction parts using List.reverseRecOn generalizing p with
  | nil => exact ⟨_, rfl, by rw [← List.append_nil before, ← hnames, entries_foldl_down]⟩
  | append_singleton parts name ih =>
    obtain ⟨entries, above⟩ := p
    cases above with
    | nil => simp [names] at hnames
    | cons level above =>
      obtain ⟨own, outer⟩ := level
      rw [names_cons, ← List.append_assoc] at hnames
      obtain ⟨hnames, hname⟩ := List.append_inj' hnames rfl
      cases hname
      obtain ⟨q, hfollow, hentries⟩ :=
        ih hnames fun part hpart => hparts part (List.mem_append_left _ hpart)
      obtain ⟨hpart, hlimit⟩ := hparts name (by simp)
      have henter : q.enter name = .ok ⟨entries, (name, q.entries) :: q.above⟩ := by
        rw [enter, if_neg (Nat.not_lt.mpr hlimit), hentries, up, FileTree.child?_insertChild, if_pos rfl]
      refine ⟨⟨entries, (name, q.entries) :: q.above⟩, ?_, rfl⟩
      rw [follow_append]
      have htop : top ⟨entries, (name, outer) :: above⟩ = top (up ⟨entries, (name, outer) :: above⟩) := rfl
      rw [htop, hfollow]
      change follow [name] q = _
      rw [follow_cons hpart, henter]
      rfl

/-- A file that is written can be read. -/
theorem readFile_of_writeFile (h : p.writeFile name text = .ok q) :
    q.readFile name = .ok text ∧ q.names = p.names := by
  rw [writeFile] at h
  split at h
  · cases h
  · next husable =>
    cases h
    have hlimit : ¬ nameLimit < name.utf8ByteSize := fun hlong => husable (if_pos hlong)
    exact ⟨by rw [readFile, if_neg hlimit, FileTree.child?_insertChild, if_pos rfl], rfl⟩

end Place

namespace FileStore

variable {f f' : FileStore} {path : Path} {text : String}

/-- A text that is written to a path of names is read from there. -/
theorem readText_of_replaceText (hrelative : path.isAbsolute = false)
    (hparts : ∀ part ∈ path.parts.dropLast, Path.IsName part)
    (h : replaceText path text f = (.ok (), f')) : f'.readText path = .ok text := by
  rw [replaceText] at h
  split at h
  · cases h
  · next name hname =>
    obtain ⟨hname, husable⟩ := Option.filter_eq_some_iff.mp hname
    have hstart (f : FileStore) : f.start path = f.place := by simp [start, hrelative]
    rw [hstart] at h
    split at h
    · cases h
    · next directory hfollow =>
      split at h
      · cases h
      · next written hwrite =>
        cases h
        obtain ⟨hread, hnames⟩ := Place.readFile_of_writeFile hwrite
        obtain ⟨hbelow, hlimits⟩ := Place.names_follow hparts hfollow
        obtain ⟨q, hfollow', hentries⟩ := Place.follow_names (hnames.trans hbelow) fun part hpart =>
          ⟨hparts part hpart, hlimits part hpart⟩
        rw [readText, if_neg (not_not.mpr husable), hname, hstart]
        have hreadFile : q.readFile name = .ok text := by
          rw [← hread, Place.readFile, Place.readFile, hentries]
        have hfollowed : (f.changed written).place.follow path.parts.dropLast = .ok q := hfollow'
        simp only [hfollowed]
        exact hreadFile

theorem readText_of_writeText (hrelative : path.isAbsolute = false)
    (hparts : ∀ part ∈ path.parts.dropLast, Path.IsName part)
    (h : writeText path text f = (.ok (), f')) : f'.readText path = .ok text := by
  obtain ⟨-, made, -, hreplace⟩ := Run.bind_eq_ok_iff.mp h
  exact readText_of_replaceText hrelative hparts hreplace

end FileStore

/-! ### Listings -/

namespace Extra

/-- All values are texts. -/
def Textual (e : Extra) : Prop := ∀ f ∈ e.entries, ∃ text, f.2 = .str text

variable {e : Extra}

theorem textual_empty : empty.Textual := by
  intro f hf
  cases hf

theorem Textual.insertText (h : e.Textual) (name text : String) : (e.insertText name text).Textual := by
  intro f hf
  obtain rfl | hf := Json.mem_insertField hf
  · exact ⟨text, rfl⟩
  · exact h f hf

theorem Textual.plain (h : e.Textual) : e.Plain := by
  intro f hf
  obtain ⟨text, htext⟩ := h f hf
  rw [htext]
  exact Json.everyObject_str text

theorem Textual.isDurable (h : e.Textual) : e.IsDurable := by
  refine ⟨h.plain, fun f hf => ?_⟩
  obtain ⟨text, htext⟩ := h f hf
  rw [htext]
  exact .str text

end Extra

/-- A listing that is written to a path of names is read from there, as long as only texts stand beside its
tokens. -/
theorem FileStore.get?_of_insert {f f' : FileStore} {key : ProductKey} {tokens : List ProtocolToken}
    (hrelative : (Path.ofText key.filePath).isAbsolute = false)
    (hparts : ∀ part ∈ (Path.ofText key.filePath).parts.dropLast, Path.IsName part)
    (htime : Timestamp.isValid f.now = true) (htokens : ∀ t ∈ tokens, t.extra.Textual)
    (h : insert key tokens f = (.ok (), f')) : f'.get? key = .ok (some tokens) := by
  have hwrite : writeText (Path.ofText key.filePath) (ListingFile.text ⟨f.now, tokens⟩) f = (.ok (), f') := by
    rwa [insert, Run.bind_ok (Run.read_apply FileStore.now f)] at h
  have hparse : ListingFile.parse (ListingFile.text ⟨f.now, tokens⟩) = .ok ⟨f.now, tokens⟩ :=
    ListingFile.readsBack htime fun t ht => (htokens t ht).isDurable
  rw [get?, readText_of_writeText hrelative hparts hwrite]
  simp only [hparse]
  rfl

end Chainfolio
