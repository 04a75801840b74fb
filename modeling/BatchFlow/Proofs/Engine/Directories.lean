import BatchFlow.Engine.FileStore
import BatchFlow.Proofs.Lookup
import BatchFlow.Proofs.Results
import Mathlib.Data.List.Infix
import Mathlib.Data.List.Perm.Basic

/-!
# Directories of the file store

The files of a directory are those whose paths lie within it.  Texts with a
common beginning are neighbors in the order of paths, so listing a directory
finds exactly these.  What happens within one directory leaves every directory
apart from it as it is.
-/

namespace BatchFlow

namespace FileStore

open Results

theorem beginsWith_iff {path beginning : String} :
    beginsWith path beginning = true ↔ beginning.toList <+: path.toList := by
  rw [beginsWith, List.isPrefixOf_iff_prefix]

/-- A path is within a directory when it is the directory or lies under it. -/
def Within (directory path : String) : Prop :=
  path = directory ∨ beginsWith path (directory ++ "/") = true

instance (directory path : String) : Decidable (Within directory path) :=
  inferInstanceAs (Decidable (_ ∨ _))

/-- Neither of two directories is, contains or lies within the other. -/
def Apart (first second : String) : Prop :=
  ¬ Within first second ∧ ¬ Within second first

instance (first second : String) : Decidable (Apart first second) :=
  inferInstanceAs (Decidable (_ ∧ _))

theorem Apart.symm {first second : String} (apart : Apart first second) : Apart second first :=
  ⟨apart.2, apart.1⟩

theorem Within.refl (directory : String) : Within directory directory :=
  .inl rfl

/-- If a path is within two directories, one of them is within the other. -/
theorem Within.not_within {first second path : String} (within : Within first path)
    (apart : Apart first second) : ¬ Within second path := by
  rintro (rfl | other)
  · exact apart.1 within
  · rcases within with rfl | within
    · exact apart.2 (.inr other)
    rw [beginsWith_iff] at within other
    have slash (directory : String) : (directory ++ "/").toList = directory.toList ++ ['/'] := by
      simp
    rw [slash] at within other
    -- The shorter directory with its slash begins the longer directory.
    rcases List.prefix_or_prefix_of_prefix within other with shorter | shorter
    · rcases List.prefix_concat_iff.mp shorter with same | inside
      · exact apart.1 (.inl (String.toList_injective (List.append_cancel_right same).symm))
      · exact apart.1 (.inr (beginsWith_iff.mpr (by rwa [slash])))
    · rcases List.prefix_concat_iff.mp shorter with same | inside
      · exact apart.1 (.inl (String.toList_injective (List.append_cancel_right same)))
      · exact apart.2 (.inr (beginsWith_iff.mpr (by rwa [slash])))

section Listing

theorem compare_eq_lt_iff {first second : String} : compare first second = .lt ↔ first < second :=
  compareOfLessAndEq_eq_lt

theorem le_of_beginsWith {path beginning : String} (begins : beginsWith path beginning = true) :
    ¬ path < beginning :=
  List.IsPrefix.le (beginsWith_iff.mp begins)

theorem isPrefix_of_between {beginning middle last : List Char} (begins : beginning <+: last)
    (above : ¬ middle < beginning) (below : middle < last) : beginning <+: middle := by
  induction beginning generalizing middle last with
  | nil => exact List.nil_prefix
  | cons char beginning ih =>
      obtain ⟨rest, rfl⟩ := begins
      cases middle with
      | nil => exact absurd (List.nil_lt_cons char beginning) above
      | cons other middle =>
          rw [List.cons_lt_cons_iff] at above
          rw [List.cons_append, List.cons_lt_cons_iff] at below
          rcases below with smaller | ⟨rfl, below⟩
          · exact absurd (.inl smaller) above
          · have inRest := ih (List.prefix_append beginning rest)
              (fun smaller => above (.inr ⟨rfl, smaller⟩)) below
            exact List.cons_prefix_cons.mpr ⟨rfl, inRest⟩

/-- What stands between a text and a longer one begins with it too. -/
theorem beginsWith_of_between {beginning middle last : String}
    (begins : beginsWith last beginning = true) (above : ¬ middle < beginning)
    (below : middle < last) : beginsWith middle beginning = true :=
  beginsWith_iff.mpr (isPrefix_of_between (beginsWith_iff.mp begins) above below)

/-- The run of files from a text on whose paths begin with it holds all such files. -/
theorem run_eq_filter {beginning : String} {files : List (String × List Row)}
    (ascending : Entries.Ascending files) :
    ((files.dropWhile fun file => compare file.1 beginning == .lt).takeWhile fun file =>
      beginsWith file.1 beginning) = files.filter fun file => beginsWith file.1 beginning := by
  have notBelow_iff (path : String) :
      (compare path beginning == .lt) = false ↔ ¬ path < beginning := by
    rw [beq_eq_false_iff_ne, ne_eq, compare_eq_lt_iff]
  refine takeWhile_dropWhile_eq_filter ascending (fun file begins => ?_)
    (fun first second before above => ?_) fun first second before above begins => ?_
  · exact (notBelow_iff file.1).mpr (le_of_beginsWith begins)
  · rw [notBelow_iff] at above ⊢
    exact fun below => above (String.lt_trans (compare_eq_lt_iff.mp before) below)
  · exact beginsWith_of_between begins ((notBelow_iff first.1).mp above)
      (compare_eq_lt_iff.mp before)

variable {store : FileStore} {directory path : String}

/-- The files within a directory, if the directory itself is no file. -/
theorem filesOf_of_absent (absent : store.files.get? directory = none) :
    store.filesOf directory =
      store.files.entries.filter fun file => beginsWith file.1 (directory ++ "/") := by
  rw [filesOf, absent]
  exact run_eq_filter store.files.ascending

theorem list_of_absent (absent : store.files.get? directory = none) :
    store.list directory =
      store.files.keys.filter fun path => beginsWith path (directory ++ "/") := by
  rw [list, filesOf_of_absent absent, OrderedMap.keys, List.filter_map]
  rfl

theorem list_of_file {rows : List Row} (found : store.files.get? directory = some rows) :
    store.list directory = [directory] := by
  rw [list, filesOf, found]
  rfl

/-- Every file of a directory is in the store. -/
theorem get?_of_mem_filesOf {file : String × List Row} (listed : file ∈ store.filesOf directory) :
    store.files.get? file.1 = some file.2 := by
  cases found : store.files.get? directory with
  | some rows =>
      rw [filesOf, found, List.mem_singleton] at listed
      rw [listed, found]
  | none =>
      rw [filesOf_of_absent found] at listed
      exact OrderedMap.get?_eq_some_iff.mpr (List.mem_of_mem_filter listed)

/-- Every file of a directory exists and is within it. -/
theorem mem_list (listed : path ∈ store.list directory) :
    Within directory path ∧ ∃ rows, store.files.get? path = some rows := by
  cases found : store.files.get? directory with
  | some rows =>
      rw [list_of_file found, List.mem_singleton] at listed
      exact ⟨.inl listed, rows, listed ▸ found⟩
  | none =>
      rw [list_of_absent found, List.mem_filter, OrderedMap.mem_keys_iff] at listed
      exact ⟨.inr listed.2, listed.1⟩

/-- A directory is listed in the order of its paths. -/
theorem pairwise_list (store : FileStore) (directory : String) :
    (store.list directory).Pairwise (· < ·) := by
  cases found : store.files.get? directory with
  | some rows =>
      rw [list_of_file found]
      exact List.pairwise_singleton _ _
  | none =>
      rw [list_of_absent found]
      exact (store.files.pairwise_keys.imp compare_eq_lt_iff.mp).filter _

theorem nodup_list (store : FileStore) (directory : String) : (store.list directory).Nodup :=
  (pairwise_list store directory).imp String.ne_of_lt

/-- The files of a directory depend only on what is within it. -/
theorem list_congr {first second : FileStore}
    (same : ∀ path, Within directory path → first.files.get? path = second.files.get? path) :
    first.list directory = second.list directory := by
  have sameDirectory := same directory (.refl directory)
  cases found : second.files.get? directory with
  | some rows => rw [list_of_file found, list_of_file (sameDirectory.trans found)]
  | none =>
      rw [list_of_absent found, list_of_absent (sameDirectory.trans found)]
      have keysFilter (store : FileStore) :
          (store.files.keys.filter fun path => beginsWith path (directory ++ "/")) =
            (store.files.filter fun path _ => beginsWith path (directory ++ "/")).keys := by
        simp [OrderedMap.keys, OrderedMap.filter, List.filter_map, Function.comp_def]
      rw [keysFilter, keysFilter]
      refine congrArg OrderedMap.keys (OrderedMap.ext_get? fun path => ?_)
      rw [OrderedMap.get?_filter, OrderedMap.get?_filter]
      cases begins : beginsWith path (directory ++ "/") with
      | false => simp
      | true => rw [same path (.inr begins)]

theorem read_eq_ok {rows : List Row} :
    store.read path = .ok rows ↔ store.files.get? path = some rows := by
  rw [read]
  split <;> simp_all

theorem readFiles_eq_ok {paths : List String} {rows : List Row} :
    store.readFiles paths = .ok rows ↔
      (∀ path ∈ paths, ∃ found, store.files.get? path = some found) ∧
        rows = paths.flatMap fun path => (store.files.get? path).getD [] := by
  rw [readFiles, map_eq_ok]
  have valueOf_read (path : String) :
      valueOf (store.read path) = (store.files.get? path).getD [] := by
    rw [read]
    cases store.files.get? path <;> rfl
  simp only [mapM_eq_ok_iff_map, read_eq_ok, valueOf_read]
  constructor
  · rintro ⟨_, ⟨each, rfl⟩, rfl⟩
    exact ⟨each, rfl⟩
  · rintro ⟨each, rfl⟩
    exact ⟨_, ⟨each, rfl⟩, rfl⟩

theorem readFiles_congr {first second : FileStore} {paths : List String}
    (same : ∀ path ∈ paths, first.files.get? path = second.files.get? path) :
    first.readFiles paths = second.readFiles paths := by
  rw [readFiles, readFiles]
  refine congrArg (Except.map List.flatten) (mapM_congr fun path member => ?_)
  rw [read, read, same path member]

/-- The rows of a directory. -/
def rowsOf (store : FileStore) (directory : String) : List Row :=
  (store.list directory).flatMap fun path => (store.files.get? path).getD []

/-- The files of a directory can be read one after another. -/
theorem readFiles_list (store : FileStore) (directory : String) :
    store.readFiles (store.list directory) = .ok (store.rowsOf directory) :=
  readFiles_eq_ok.mpr ⟨fun _ listed => (mem_list listed).2, rfl⟩

/-- Reading a directory never fails. -/
theorem readDirectory_eq_ok (store : FileStore) (directory : String) :
    store.readDirectory directory = .ok (store.rowsOf directory) := by
  rw [readDirectory, rowsOf, list, List.flatMap_map]
  refine congrArg Except.ok (List.flatMap_congr fun file listed => ?_)
  rw [get?_of_mem_filesOf listed]
  rfl

theorem rowsOf_congr {first second : FileStore}
    (same : ∀ path, Within directory path → first.files.get? path = second.files.get? path) :
    first.rowsOf directory = second.rowsOf directory := by
  rw [rowsOf, rowsOf, list_congr same]
  refine List.flatMap_congr fun path listed => ?_
  rw [same path (mem_list listed).1]

end Listing

section Writing

variable {store : FileStore} {directory path : String}

theorem get?_clear (store : FileStore) (directory path : String) :
    (store.clear directory).files.get? path =
      if Within directory path then none else store.files.get? path := by
  rw [clear, OrderedMap.get?_filter]
  by_cases within : Within directory path
  · rw [if_pos within]
    rcases within with rfl | begins
    · simp
    · simp [begins]
  · rw [if_neg within]
    obtain ⟨different, notUnder⟩ := not_or.mp within
    have passes : (path != directory && !beginsWith path (directory ++ "/")) = true := by
      simp [different, notUnder]
    cases store.files.get? path <;> simp [passes]

theorem ofDigitChars_fiveDigits (index : Nat) :
    Nat.ofDigitChars 10 (fiveDigits index).toList 0 = index := by
  simp [fiveDigits, Nat.ofDigitChars_append]

theorem fiveDigits_injective {first second : Nat} (same : fiveDigits first = fiveDigits second) :
    first = second := by
  rw [← ofDigitChars_fiveDigits first, ← ofDigitChars_fiveDigits second, same]

theorem partPath_injective {first second : Nat}
    (same : partPath directory first = partPath directory second) : first = second := by
  rw [partPath, partPath] at same
  exact fiveDigits_injective (String.append_right_inj _ |>.mp same)

theorem beginsWith_partPath (directory : String) (index : Nat) :
    beginsWith (partPath directory index) (directory ++ "/") = true := by
  rw [beginsWith_iff, partPath]
  simp

theorem partPath_ne (directory : String) (index : Nat) : partPath directory index ≠ directory := by
  intro same
  have lengths := congrArg (fun text => text.toList.length) same
  simp [partPath] at lengths

theorem get?_write (store : FileStore) (path other : String) (rows : List Row) :
    (store.write path rows).files.get? other =
      if other = path then some rows else store.files.get? other :=
  OrderedMap.get?_insert ..

/-- Part files are written under consecutive numbers; nothing else changes. -/
theorem get?_foldr_write (store : FileStore) (directory : String) (parts : List (List Row))
    (start : Nat) :
    (∀ index, ∀ bound : index < parts.length,
      ((parts.zipIdx start).foldr (fun (rows, index) store =>
        store.write (partPath directory index) rows) store).files.get?
          (partPath directory (start + index)) = some parts[index]) ∧
    (∀ path, (∀ index < parts.length, path ≠ partPath directory (start + index)) →
      ((parts.zipIdx start).foldr (fun (rows, index) store =>
        store.write (partPath directory index) rows) store).files.get? path =
          store.files.get? path) := by
  induction parts generalizing start with
  | nil => simp
  | cons rows parts ih =>
      obtain ⟨written, kept⟩ := ih (start + 1)
      simp only [List.zipIdx_cons, List.foldr_cons, List.length_cons, get?_write]
      refine ⟨fun index bound => ?_, fun path other => ?_⟩
      · cases index with
        | zero => simp
        | succ index =>
            have later : partPath directory (start + (index + 1)) ≠ partPath directory start :=
              fun same => absurd (partPath_injective same) (by omega)
            have next := written index (by omega)
            rw [Nat.add_assoc, Nat.add_comm 1] at next
            rwa [if_neg later]
      · have notFirst : path ≠ partPath directory start := other 0 (Nat.succ_pos _)
        rw [if_neg notFirst]
        refine kept path fun index bound same => ?_
        rw [Nat.add_assoc, Nat.add_comm 1] at same
        exact other (index + 1) (by omega) same

theorem get?_putParts_partPath (store : FileStore) (directory : String)
    {parts : List (List Row)} {index : Nat} (bound : index < parts.length) :
    (store.putParts directory parts).files.get? (partPath directory index) =
      some parts[index] := by
  have written := (get?_foldr_write store directory parts 0).1 index bound
  rwa [Nat.zero_add] at written

theorem get?_putParts_of_ne {parts : List (List Row)}
    (other : ∀ index < parts.length, path ≠ partPath directory index) :
    (store.putParts directory parts).files.get? path = store.files.get? path := by
  refine (get?_foldr_write store directory parts 0).2 path fun index bound => ?_
  rw [Nat.zero_add]
  exact other index bound

/-- Writing part files leaves everything apart from the directory as it is. -/
theorem get?_putParts_of_not_within {parts : List (List Row)}
    (outside : ¬ Within directory path) :
    (store.putParts directory parts).files.get? path = store.files.get? path :=
  get?_putParts_of_ne fun _ _ same =>
    outside (.inr (same ▸ beginsWith_partPath directory _))

/-- The store after a directory is cleared and written anew. -/
def replace (store : FileStore) (directory : String) (parts : List (List Row)) : FileStore :=
  (store.clear directory).putParts directory parts

theorem get?_replace_of_not_within {parts : List (List Row)}
    (outside : ¬ Within directory path) :
    (store.replace directory parts).files.get? path = store.files.get? path := by
  rw [replace, get?_putParts_of_not_within outside, get?_clear, if_neg outside]

/-- What is within a directory written anew depends on the parts only. -/
theorem get?_replace_of_within {first second : FileStore} {parts : List (List Row)}
    (within : Within directory path) :
    (first.replace directory parts).files.get? path =
      (second.replace directory parts).files.get? path := by
  by_cases isPart : ∃ index < parts.length, path = partPath directory index
  · obtain ⟨index, bound, rfl⟩ := isPart
    rw [replace, replace, get?_putParts_partPath _ _ bound, get?_putParts_partPath _ _ bound]
  · have other : ∀ index < parts.length, path ≠ partPath directory index :=
      fun index bound same => isPart ⟨index, bound, same⟩
    rw [replace, replace, get?_putParts_of_ne other, get?_putParts_of_ne other, get?_clear,
      get?_clear, if_pos within, if_pos within]

/-- The files of a directory written anew are its parts. -/
theorem list_replace (store : FileStore) (directory : String) (parts : List (List Row)) :
    ((store.replace directory parts).list directory).Perm
      ((List.range parts.length).map (partPath directory)) := by
  have noFile : (store.replace directory parts).files.get? directory = none := by
    rw [replace, get?_putParts_of_ne fun index _ same => partPath_ne directory index same.symm,
      get?_clear, if_pos (.refl directory)]
  refine (List.perm_ext_iff_of_nodup (nodup_list _ _) ?_).mpr fun path => ?_
  · exact List.nodup_range.map fun first second same => partPath_injective same
  rw [list_of_absent noFile, List.mem_filter, OrderedMap.mem_keys_iff, List.mem_map]
  simp only [List.mem_range]
  constructor
  · rintro ⟨⟨rows, found⟩, begins⟩
    by_contra isNoPart
    have other : ∀ index < parts.length, path ≠ partPath directory index :=
      fun index bound same => isNoPart ⟨index, bound, same.symm⟩
    rw [replace, get?_putParts_of_ne other, get?_clear, if_pos (.inr begins)] at found
    exact nomatch found
  · rintro ⟨index, bound, rfl⟩
    exact ⟨⟨_, get?_putParts_partPath _ _ bound⟩, beginsWith_partPath directory index⟩

/-- A directory written anew holds the rows of its parts. -/
theorem rowsOf_replace (store : FileStore) (directory : String) (parts : List (List Row)) :
    ((store.replace directory parts).rowsOf directory).Perm parts.flatten := by
  have contents : ((List.range parts.length).map (partPath directory)).flatMap
      (fun path => ((store.replace directory parts).files.get? path).getD []) =
        parts.flatten := by
    rw [List.flatMap_map, List.flatMap_def]
    refine congrArg List.flatten (List.ext_getElem (by simp) fun index first second => ?_)
    rw [List.getElem_map, List.getElem_range, replace, get?_putParts_partPath _ _ second]
    rfl
  exact contents ▸ (list_replace store directory parts).flatMap_right _

/-- A directory written anew in one part holds its rows in order. -/
theorem rowsOf_replace_singleton (store : FileStore) (directory : String) (rows : List Row) :
    (store.replace directory [rows]).rowsOf directory = rows := by
  have listed : (store.replace directory [rows]).list directory = [partPath directory 0] :=
    List.perm_singleton.mp (list_replace store directory [rows])
  have content : (store.replace directory [rows]).files.get? (partPath directory 0) = some rows :=
    get?_putParts_partPath (store.clear directory) directory (Nat.one_pos : 0 < [rows].length)
  rw [rowsOf, listed, List.flatMap_singleton, content]
  rfl

end Writing

end FileStore

end BatchFlow
