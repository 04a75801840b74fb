import BatchFlow.Command
import BatchFlow.Proofs.Engine.Directories

/-!
# The files of the datasets of a plan

A plan is run on a store with one file per part of each dataset.  How many files there are
at a path can be told from the datasets: one if the path is a part of a dataset, else as
many as the parts of all datasets that lie under the path.  For the name of a dataset that
neither contains another one nor lies within it, these are the parts of that dataset.
-/

namespace BatchFlow

namespace FileStore

section PartPaths

variable {store : FileStore} {directory other path : String} {parts : List (List Row)}

/-- A text is the same up to its last slash as another one with the same text after it. -/
theorem append_slash_inj {first second firstName secondName : List Char}
    (firstPlain : '/' ∉ firstName) (secondPlain : '/' ∉ secondName)
    (same : first ++ '/' :: firstName = second ++ '/' :: secondName) : first = second := by
  induction first generalizing second with
  | nil =>
      cases second with
      | nil => rfl
      | cons char second =>
          obtain ⟨-, inName⟩ := List.cons.inj same
          exact absurd (inName ▸ by simp) firstPlain
  | cons char first ih =>
      cases second with
      | nil =>
          obtain ⟨-, inName⟩ := List.cons.inj same
          exact absurd (inName ▸ by simp) secondPlain
      | cons other second =>
          obtain ⟨rfl, rest⟩ := List.cons.inj same
          rw [ih rest]

theorem slash_not_mem_fiveDigits (index : Nat) : '/' ∉ (fiveDigits index).toList := by
  intro slash
  unfold fiveDigits at slash
  rw [String.toList_ofList, List.mem_append] at slash
  rcases slash with inZeros | inDigits
  · exact absurd (List.eq_of_mem_replicate inZeros) (by decide)
  · exact absurd (Nat.isDigit_of_mem_toDigits (by decide) (by decide) inDigits) (by decide)

theorem partPath_directory_injective {first second : Nat}
    (same : partPath directory first = partPath other second) : directory = other := by
  have characters (directory : String) (index : Nat) : (partPath directory index).toList =
      directory.toList ++ '/' :: ("part-".toList ++ (fiveDigits index).toList) := by
    simp [partPath]
  have plain (index : Nat) : '/' ∉ "part-".toList ++ (fiveDigits index).toList := by
    rw [List.mem_append, not_or]
    exact ⟨by decide, slash_not_mem_fiveDigits index⟩
  have lists := congrArg String.toList same
  rw [characters, characters] at lists
  exact String.toList_injective (append_slash_inj (plain first) (plain second) lists)

theorem mem_keys_putParts :
    path ∈ (store.putParts directory parts).files.keys ↔
      path ∈ store.files.keys ∨ ∃ index < parts.length, path = partPath directory index := by
  rw [OrderedMap.mem_keys_iff, OrderedMap.mem_keys_iff]
  by_cases isPart : ∃ index < parts.length, path = partPath directory index
  · obtain ⟨index, bound, rfl⟩ := isPart
    simp only [get?_putParts_partPath store directory bound]
    exact ⟨fun _ => .inr ⟨index, bound, rfl⟩, fun _ => ⟨_, rfl⟩⟩
  · have others : ∀ index < parts.length, path ≠ partPath directory index :=
      fun index bound same => isPart ⟨index, bound, same⟩
    rw [get?_putParts_of_ne others]
    simp only [isPart, or_false]

end PartPaths

end FileStore

namespace StageDocument

open FileStore

variable {document : StageDocument} {path name : String} {files : List (List Row)}

/-- The paths of all files that the datasets of a plan are stored in. -/
def storedPaths (document : StageDocument) : List String :=
  document.datasets.entries.flatMap fun (name, files) =>
    (List.range files.length).map (partPath name)

theorem mem_storedPaths :
    path ∈ document.storedPaths ↔ ∃ name files index, document.datasets.get? name = some files ∧
      index < files.length ∧ path = partPath name index := by
  simp only [storedPaths, List.mem_flatMap, List.mem_map, List.mem_range,
    OrderedMap.get?_eq_some_iff, Prod.exists]
  constructor
  · rintro ⟨name, files, isDataset, index, bound, rfl⟩
    exact ⟨name, files, index, isDataset, bound, rfl⟩
  · rintro ⟨name, files, index, isDataset, bound, rfl⟩
    exact ⟨name, files, isDataset, index, bound, rfl⟩

theorem nodup_storedPaths (document : StageDocument) : document.storedPaths.Nodup := by
  refine List.nodup_flatMap.mpr ⟨fun dataset _ => ?_, ?_⟩
  · exact List.nodup_range.map fun first second same => partPath_injective same
  · refine document.datasets.ascending.imp fun {first second} smaller => ?_
    intro path inFirst inSecond
    obtain ⟨firstIndex, -, rfl⟩ := List.mem_map.mp inFirst
    obtain ⟨secondIndex, -, same⟩ := List.mem_map.mp inSecond
    rw [partPath_directory_injective same] at smaller
    exact nomatch smaller.symm.trans Std.ReflCmp.compare_self

theorem mem_keys_foldl_putParts (datasets : List (String × List (List Row)))
    (store : FileStore) :
    path ∈ (datasets.foldl (fun store (name, files) => store.putParts name files)
        store).files.keys ↔
      path ∈ store.files.keys ∨ path ∈ datasets.flatMap fun (name, files) =>
        (List.range files.length).map (partPath name) := by
  induction datasets generalizing store with
  | nil => simp
  | cons dataset datasets ih =>
      rw [List.foldl_cons, ih, mem_keys_putParts, List.flatMap_cons, List.mem_append, or_assoc]
      simp only [List.mem_map, List.mem_range, eq_comm]

/-- The store of a plan has the files of its datasets and no others. -/
theorem keys_store (document : StageDocument) :
    document.store.files.keys.Perm document.storedPaths := by
  refine (List.perm_ext_iff_of_nodup (OrderedMap.nodup_keys _) document.nodup_storedPaths).mpr ?_
  intro path
  unfold store
  rw [mem_keys_foldl_putParts]
  exact or_iff_right List.not_mem_nil

/-- The number of files at a path, by the datasets. -/
def storedFiles (document : StageDocument) (path : String) : Nat :=
  if path ∈ document.storedPaths then 1
  else document.storedPaths.countP fun other => beginsWith other (path ++ "/")

theorem length_list_store (document : StageDocument) (path : String) :
    (document.store.list path).length = document.storedFiles path := by
  have isFile : (∃ rows, document.store.files.get? path = some rows) ↔
      path ∈ document.storedPaths :=
    OrderedMap.mem_keys_iff.symm.trans document.keys_store.mem_iff
  unfold storedFiles
  cases found : document.store.files.get? path with
  | some rows =>
      rw [list_of_file found, if_pos (isFile.mp ⟨rows, found⟩)]
      rfl
  | none =>
      have noFile : path ∉ document.storedPaths := by
        simp [← isFile, found]
      rw [list_of_absent found, if_neg noFile, ← List.countP_eq_length_filter]
      exact document.keys_store.countP_eq _

theorem fileCount?_store (document : StageDocument) (path : String) :
    document.store.fileCount? path =
      if document.storedFiles path = 0 then none
      else some (UInt32.ofNat (document.storedFiles path)) := by
  rw [← length_list_store]
  unfold fileCount?
  cases document.store.list path <;> rfl

/-- Apart from all datasets nothing is stored. -/
theorem storedFiles_of_apart
    (apart : ∀ name files, document.datasets.get? name = some files → Apart name path) :
    document.storedFiles path = 0 := by
  have outside : ∀ other ∈ document.storedPaths, ¬ Within path other := by
    intro other stored
    obtain ⟨name, files, index, isDataset, -, rfl⟩ := mem_storedPaths.mp stored
    exact Within.not_within (.inr (beginsWith_partPath name index)) (apart name files isDataset)
  unfold storedFiles
  rw [if_neg fun stored => outside path stored (.refl path), List.countP_eq_zero]
  intro other stored begins
  exact outside other stored (.inr begins)

/-- Under a dataset that is apart from the others, its own parts are stored. -/
theorem storedFiles_of_dataset (isDataset : document.datasets.get? name = some files)
    (apart : ∀ other parts, document.datasets.get? other = some parts → other ≠ name →
      Apart other name) :
    document.storedFiles name = files.length := by
  have own : ∀ path ∈ document.storedPaths, Within name path →
      ∃ index < files.length, path = partPath name index := by
    intro path stored within
    obtain ⟨other, parts, index, isOther, bound, rfl⟩ := mem_storedPaths.mp stored
    by_cases same : other = name
    · subst same
      obtain rfl := Option.some.inj (isOther.symm.trans isDataset)
      exact ⟨index, bound, rfl⟩
    · exact absurd within (Within.not_within (.inr (beginsWith_partPath other index))
        (apart other parts isOther same))
  have noFile : name ∉ document.storedPaths := by
    intro stored
    obtain ⟨index, -, same⟩ := own name stored (.refl name)
    exact partPath_ne name index same.symm
  unfold storedFiles
  rw [if_neg noFile, List.countP_eq_length_filter]
  have parts : (document.storedPaths.filter fun path => beginsWith path (name ++ "/")).Perm
      ((List.range files.length).map (partPath name)) := by
    refine (List.perm_ext_iff_of_nodup (document.nodup_storedPaths.filter _)
      (List.nodup_range.map fun first second same => partPath_injective same)).mpr ?_
    intro path
    rw [List.mem_filter, List.mem_map]
    simp only [List.mem_range]
    constructor
    · rintro ⟨stored, begins⟩
      obtain ⟨index, bound, rfl⟩ := own path stored (.inr begins)
      exact ⟨index, bound, rfl⟩
    · rintro ⟨index, bound, rfl⟩
      exact ⟨mem_storedPaths.mpr ⟨name, files, index, isDataset, bound, rfl⟩,
        beginsWith_partPath name index⟩
  rw [parts.length_eq, List.length_map, List.length_range]

end StageDocument

end BatchFlow
