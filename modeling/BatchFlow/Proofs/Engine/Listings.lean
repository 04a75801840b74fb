import BatchFlow.Proofs.Engine.Directories

/-!
# Listing and clearing a directory

A directory that is no file is listed as all stored paths that begin with it and a slash, in
ascending order.  Clearing it removes exactly these paths and the directory itself, so a
directory apart from it keeps its list and its files.
-/

namespace BatchFlow

namespace FileStore

variable {store : FileStore} {directory other path : String}

theorem beginsWith_iff_exists {beginning : String} :
    beginsWith path beginning = true ↔ ∃ rest, path = beginning ++ rest := by
  rw [beginsWith_iff]
  constructor
  · rintro ⟨rest, split⟩
    refine ⟨String.ofList rest, String.toList_injective ?_⟩
    rw [String.toList_append, String.toList_ofList, split]
  · rintro ⟨rest, rfl⟩
    rw [String.toList_append]
    exact List.prefix_append _ _

theorem within_iff_exists :
    Within directory path ↔ path = directory ∨ ∃ name, path = directory ++ "/" ++ name :=
  or_congr_right beginsWith_iff_exists

theorem mem_list_iff (absent : store.files.get? directory = none) :
    path ∈ store.list directory ↔
      (∃ rows, store.files.get? path = some rows) ∧ ∃ name, path = directory ++ "/" ++ name := by
  rw [list_of_absent absent, List.mem_filter, OrderedMap.mem_keys_iff, beginsWith_iff_exists]

/-- Clearing a directory keeps a file exactly if it is not within the directory. -/
theorem get?_clear_eq_some_iff {rows : List Row} :
    (store.clear directory).files.get? path = some rows ↔
      store.files.get? path = some rows ∧
        ¬ (path = directory ∨ ∃ name, path = directory ++ "/" ++ name) := by
  rw [get?_clear, ← within_iff_exists]
  by_cases within : Within directory path <;> simp [within]

/-- Nothing is left of a directory that has been cleared. -/
theorem list_clear (store : FileStore) (directory : String) :
    (store.clear directory).list directory = [] := by
  refine List.eq_nil_iff_forall_not_mem.mpr fun path listed => ?_
  obtain ⟨within, rows, found⟩ := mem_list listed
  rw [get?_clear, if_pos within] at found
  exact nomatch found

/-- Clearing a directory changes no file of a directory apart from it. -/
theorem get?_clear_of_apart (apart : Apart directory other) (within : Within other path) :
    (store.clear directory).files.get? path = store.files.get? path := by
  rw [get?_clear, if_neg (within.not_within apart.symm)]

theorem list_clear_of_apart (apart : Apart directory other) :
    (store.clear directory).list other = store.list other :=
  list_congr fun _ within => get?_clear_of_apart apart within

theorem readDirectory_clear_of_apart (apart : Apart directory other) :
    (store.clear directory).readDirectory other = store.readDirectory other := by
  rw [readDirectory_eq_ok, readDirectory_eq_ok]
  exact congrArg Except.ok (rowsOf_congr fun _ within => get?_clear_of_apart apart within)

/-- A file is listed as itself, and any other directory as the stored paths that begin with it
and a slash, in ascending order.  Clearing a directory removes exactly the directory and these
paths; nothing of it is listed any more, and a directory apart from it keeps its list, its rows
and every file within it. -/
theorem listing_exact (store : FileStore) (directory other : String) :
    ((∃ rows, store.files.get? directory = some rows) → store.list directory = [directory]) ∧
    (store.files.get? directory = none →
      (store.list directory).Pairwise (· < ·) ∧
      ∀ path, path ∈ store.list directory ↔
        (∃ rows, store.files.get? path = some rows) ∧ ∃ name, path = directory ++ "/" ++ name) ∧
    (∀ path rows, (store.clear directory).files.get? path = some rows ↔
      store.files.get? path = some rows ∧
        ¬ (path = directory ∨ ∃ name, path = directory ++ "/" ++ name)) ∧
    (store.clear directory).list directory = [] ∧
    (Apart directory other →
      (store.clear directory).list other = store.list other ∧
      (store.clear directory).readDirectory other = store.readDirectory other ∧
      ∀ path, Within other path →
        (store.clear directory).files.get? path = store.files.get? path) := by
  refine ⟨?_, fun absent => ⟨pairwise_list store directory, fun path => mem_list_iff absent⟩,
    fun path rows => get?_clear_eq_some_iff, list_clear store directory, fun apart => ?_⟩
  · rintro ⟨rows, found⟩
    exact list_of_file found
  · exact ⟨list_clear_of_apart apart, readDirectory_clear_of_apart apart,
      fun path within => get?_clear_of_apart apart within⟩

/-- Files around the directory `a`: within it, beside it under longer names, and one whose path
stands between that of the directory and the paths under it. -/
def siblingStore : FileStore :=
  ((((empty.write "ab/part-00000" [[.int 1]]).write "a/part-00000" [[.int 2]]).write
    "a-/part-00000" [[.int 3]]).write "a/old/part-00000" [[.int 4]]).write "a-" [[.int 5]]

theorem listing_exact_siblingStore :
    (∃ rows, siblingStore.files.get? "a-" = some rows) ∧
      siblingStore.files.get? "a" = none ∧ Apart "a" "a-" ∧
      siblingStore.list "a-" = ["a-"] ∧
      "a/old/part-00000" ∈ siblingStore.list "a" ∧ "a-/part-00000" ∉ siblingStore.list "a" ∧
      (siblingStore.clear "a").list "a-" = ["a-"] := by
  have isFile : ∃ rows, siblingStore.files.get? "a-" = some rows := ⟨[[.int 5]], by rfl⟩
  have absent : siblingStore.files.get? "a" = none := by rfl
  have apart : Apart "a" "a-" := by decide
  obtain ⟨ofFile, -⟩ := listing_exact siblingStore "a-" "a"
  obtain ⟨-, ofDirectory, -, -, ofApart⟩ := listing_exact siblingStore "a" "a-"
  have listed := (ofDirectory absent).2
  refine ⟨isFile, absent, apart, ofFile isFile, ?_, fun member => ?_, ?_⟩
  · exact (listed _).mpr ⟨⟨[[.int 4]], by rfl⟩, "old/part-00000", by decide⟩
  · exact absurd (within_iff_exists.mpr (.inr ((listed _).mp member).2)) (by decide)
  · rw [(ofApart apart).1, ofFile isFile]

end FileStore

end BatchFlow
