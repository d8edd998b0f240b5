import Chainfolio.Proofs.Store.Files

/-! The path of a product's file. It lies three names below the store's directory, so that products with
different keys have different files, as long as the product is a single name; only the product can be a name
that a file system does not take. -/
namespace Chainfolio

namespace Text

variable {c : Char} {part text : List Char}

theorem splitOn_of_not_mem (h : c ∉ part) : splitOn c part = [part] := by
  induction part with
  | nil => rfl
  | cons x part ih =>
    obtain ⟨hx, hpart⟩ := List.ne_and_not_mem_of_not_mem_cons h
    rw [splitOn, if_neg (Ne.symm hx), ih hpart]

theorem splitOn_append (h : c ∉ part) : splitOn c (part ++ c :: text) = part :: splitOn c text := by
  induction part with
  | nil => rw [List.nil_append, splitOn, if_pos rfl]
  | cons x part ih =>
    obtain ⟨hx, hpart⟩ := List.ne_and_not_mem_of_not_mem_cons h
    rw [List.cons_append, splitOn, if_neg (Ne.symm hx), ih hpart]

end Text

theorem Protocol.name_injective : Function.Injective Protocol.name := fun p q h =>
  Option.some.inj (by rw [← ofName?_name p, h, ofName?_name q])

theorem Chain.name_injective : Function.Injective Chain.name := fun c d h =>
  Option.some.inj (by rw [← ofName?_name c, h, ofName?_name d])

namespace ProductKey

variable {key other : ProductKey}

/-- The product is one name of a path. -/
def IsOrdinary (key : ProductKey) : Prop := Path.IsName key.product ∧ '/' ∉ key.product.toList

/-- The product is a name that a file system takes. -/
def IsStorable (key : ProductKey) : Prop :=
  key.product.utf8ByteSize ≤ Place.nameLimit ∧ '\x00' ∉ key.product.toList

instance (key : ProductKey) : Decidable key.IsOrdinary :=
  inferInstanceAs (Decidable (Path.IsName key.product ∧ '/' ∉ key.product.toList))

instance (key : ProductKey) : Decidable key.IsStorable :=
  inferInstanceAs (Decidable (key.product.utf8ByteSize ≤ Place.nameLimit ∧ '\x00' ∉ key.product.toList))

/-- The directories that lead to a product's file. -/
def directories (key : ProductKey) : List String := [key.protocol.name, key.product]

def fileName (key : ProductKey) : String := key.chain.name ++ ".json"

theorem filePath_eq (h : key.IsOrdinary) :
    key.filePath = key.protocol.name ++ "/" ++ key.product ++ "/" ++ key.fileName := by
  obtain ⟨⟨hempty, -, -⟩, hslash⟩ := h
  have hhead : key.product.toList.head? ≠ some '/' := fun hhead => hslash (List.mem_of_head? hhead)
  have hlast : key.product.toList.getLast? ≠ some '/' := fun hlast => hslash (List.mem_of_getLast? hlast)
  have hclosed : (key.product.isEmpty || decide (key.product.toList.getLast? = some '/')) = false := by
    simp [hlast, hempty]
  simp only [filePath, hhead, hclosed, fileName, String.append_assoc, Bool.false_eq_true,
    if_false]

theorem slash_not_mem_protocol (protocol : Protocol) : '/' ∉ protocol.name.toList := by
  cases protocol <;> decide

theorem slash_not_mem_fileName (key : ProductKey) : '/' ∉ key.fileName.toList := by
  rw [fileName]
  cases key.chain <;> decide

theorem parts_filePath (h : key.IsOrdinary) :
    (Path.ofText key.filePath).parts = key.directories ++ [key.fileName] := by
  have htext : key.filePath.toList =
      key.protocol.name.toList ++ '/' :: (key.product.toList ++ '/' :: key.fileName.toList) := by
    simp [filePath_eq h]
  rw [Path.ofText, htext, Text.splitOn_append (slash_not_mem_protocol _), Text.splitOn_append h.2,
    Text.splitOn_of_not_mem key.slash_not_mem_fileName]
  simp [directories]

theorem isName_protocol (protocol : Protocol) : Path.IsName protocol.name := by cases protocol <;> decide

theorem isName_fileName (key : ProductKey) : Path.IsName key.fileName := by
  rw [fileName]
  cases key.chain <;> decide

theorem isName_of_mem_directories (h : key.IsOrdinary) : ∀ part ∈ key.directories, Path.IsName part := by
  simp [directories, isName_protocol, h.1]

theorem isAbsolute_append (protocol : Protocol) (rest : String) (parts : List String) :
    Path.isAbsolute ⟨protocol.name ++ rest, parts⟩ = false := by
  rw [Path.isAbsolute, String.toList_append]
  cases protocol <;> rfl

theorem isAbsolute_filePath (h : key.IsOrdinary) : (Path.ofText key.filePath).isAbsolute = false := by
  rw [Path.ofText, filePath_eq h, String.append_assoc, String.append_assoc, String.append_assoc]
  exact isAbsolute_append ..

theorem fileName?_filePath (h : key.IsOrdinary) :
    (Path.ofText key.filePath).fileName? = some key.fileName := by
  rw [Path.fileName?, parts_filePath h, List.getLast?_concat]
  have hname := key.isName_fileName
  simp [Option.filter, hname.1, hname.2.1, hname.2.2]

theorem parent_filePath (h : key.IsOrdinary) :
    (Path.ofText key.filePath).parent = ⟨key.protocol.name ++ "/" ++ key.product, key.directories⟩ := by
  have hname := key.isName_fileName
  have hjoin : "/".intercalate key.directories = key.protocol.name ++ "/" ++ key.product := rfl
  rw [Path.parent, parts_filePath h, ← hjoin]
  simp [hname.1, hname.2.1]

theorem isAbsolute_parent (h : key.IsOrdinary) : (Path.ofText key.filePath).parent.isAbsolute = false := by
  rw [parent_filePath h, String.append_assoc]
  exact isAbsolute_append ..

/-- Products with different keys have different files. -/
theorem file_ne (h : other ≠ key) :
    other.directories ≠ key.directories ∨ other.fileName ≠ key.fileName := by
  by_contra! hsame
  obtain ⟨hdirectories, hfile⟩ := hsame
  obtain ⟨chain, protocol, product⟩ := key
  obtain ⟨chain', protocol', product'⟩ := other
  simp only [directories, fileName, List.cons.injEq, and_true] at hdirectories hfile
  have hchain : chain'.name = chain.name :=
    String.toList_inj.mp (by simpa using congrArg String.toList hfile)
  exact h (by rw [Chain.name_injective hchain, Protocol.name_injective hdirectories.1, hdirectories.2])

theorem utf8ByteSize_protocol (protocol : Protocol) : protocol.name.utf8ByteSize ≤ 16 := by
  cases protocol <;> decide

theorem utf8ByteSize_fileName (key : ProductKey) : key.fileName.utf8ByteSize ≤ 16 := by
  rw [fileName]
  cases key.chain <;> decide

theorem nul_not_mem_protocol (protocol : Protocol) : '\x00' ∉ protocol.name.toList := by
  cases protocol <;> decide

theorem nul_not_mem_fileName (key : ProductKey) : '\x00' ∉ key.fileName.toList := by
  rw [fileName]
  cases key.chain <;> decide

theorem isUsable_filePath_iff (h : key.IsOrdinary) :
    FileStore.isUsable (Path.ofText key.filePath) = true ↔
      key.protocol.name.utf8ByteSize + key.product.utf8ByteSize + key.fileName.utf8ByteSize + 2 ≤
        FileStore.relativeRoom ∧ '\x00' ∉ key.product.toList := by
  have hslash : "/".utf8ByteSize = 1 := rfl
  rw [FileStore.isUsable, isAbsolute_filePath h, Path.isUsable, Path.ofText, filePath_eq h]
  simp only [String.utf8ByteSize_append, hslash, String.toList_append]
  simp [nul_not_mem_protocol, nul_not_mem_fileName]
  omega

theorem isUsable_parent_iff (h : key.IsOrdinary) :
    FileStore.isUsable (Path.ofText key.filePath).parent = true ↔
      key.protocol.name.utf8ByteSize + key.product.utf8ByteSize + 1 ≤ FileStore.relativeRoom ∧
        '\x00' ∉ key.product.toList := by
  have hslash : "/".utf8ByteSize = 1 := rfl
  rw [FileStore.isUsable, isAbsolute_parent h, parent_filePath h, Path.isUsable]
  simp only [String.utf8ByteSize_append, hslash, String.toList_append]
  simp [nul_not_mem_protocol]
  omega

theorem isUsable_parent (h : key.IsOrdinary)
    (husable : FileStore.isUsable (Path.ofText key.filePath) = true) :
    FileStore.isUsable (Path.ofText key.filePath).parent = true := by
  rw [isUsable_filePath_iff h] at husable
  rw [isUsable_parent_iff h]
  exact ⟨by omega, husable.2⟩

theorem IsStorable.not_long (h : key.IsStorable) : ¬ Place.nameLimit < key.product.utf8ByteSize :=
  Nat.not_lt.mpr h.1

theorem IsStorable.isUsable (hstorable : key.IsStorable) (h : key.IsOrdinary) :
    FileStore.isUsable (Path.ofText key.filePath) = true := by
  have hprotocol := utf8ByteSize_protocol key.protocol
  have hfile := key.utf8ByteSize_fileName
  obtain ⟨hproduct, hnul⟩ := hstorable
  rw [isUsable_filePath_iff h]
  rw [Place.nameLimit] at hproduct
  exact ⟨by rw [FileStore.relativeRoom]; omega, hnul⟩

/-- Of the names on the way to a file only the product can be too long. -/
theorem exists_long_iff :
    (∃ part ∈ key.directories ++ [key.fileName], Place.nameLimit < part.utf8ByteSize) ↔
      Place.nameLimit < key.product.utf8ByteSize := by
  have hprotocol := utf8ByteSize_protocol key.protocol
  have hfile := key.utf8ByteSize_fileName
  simp only [directories, List.cons_append, List.nil_append, List.mem_cons, List.not_mem_nil, or_false,
    exists_eq_or_imp, exists_eq_left, Place.nameLimit]
  omega

end ProductKey

end Chainfolio
