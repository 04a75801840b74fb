import BatchFlow.Proofs.Engine.Directories
import BatchFlow.Proofs.Number.Digits

/-!
# The order of part files

A directory is listed in the order of its paths, and part files are numbered in at least five
digits.  Texts of five digits are ordered like their numbers, so a hundred thousand parts are
listed and read in the order of their numbers.  The next number has a sixth digit, and its
text comes before that of `99999`.
-/

namespace BatchFlow

namespace FileStore

variable {store : FileStore} {directory path : String} {first second : Nat}

theorem isDigit_of_mem_fiveDigits {index : Nat} {char : Char}
    (member : char ∈ (fiveDigits index).toList) : char.isDigit = true := by
  rw [fiveDigits, String.toList_ofList, List.mem_append] at member
  rcases member with isPadding | isDigit
  · rw [List.eq_of_mem_replicate isPadding]
    rfl
  · exact isDigit_toDigits isDigit

theorem length_fiveDigits {index : Nat} (small : index < 100000) :
    (fiveDigits index).toList.length = 5 := by
  have atMost : (Nat.toDigits 10 index).length ≤ 5 :=
    (Nat.length_toDigits_le_iff (by decide) (by decide)).mpr small
  rw [fiveDigits, String.toList_ofList, List.length_append, List.length_replicate]
  omega

theorem partPath_lt_of_fiveDigits (less : fiveDigits first < fiveDigits second) :
    partPath directory first < partPath directory second := by
  have toList_partPath (index : Nat) : (partPath directory index).toList =
      (directory ++ "/part-").toList ++ (fiveDigits index).toList := String.toList_append
  rw [String.lt_iff] at less ⊢
  rw [toList_partPath, toList_partPath]
  exact List.append_left_lt less

/-- As long as five digits suffice, the paths of part files ascend. -/
theorem partPath_lt (less : first < second) (small : second < 100000) :
    partPath directory first < partPath directory second := by
  have sameLength : (fiveDigits first).toList.length = (fiveDigits second).toList.length := by
    rw [length_fiveDigits (less.trans small), length_fiveDigits small]
  have values : Nat.ofDigitChars 10 (fiveDigits first).toList 0 <
      Nat.ofDigitChars 10 (fiveDigits second).toList 0 := by
    rw [ofDigitChars_fiveDigits, ofDigitChars_fiveDigits]
    exact less
  exact partPath_lt_of_fiveDigits (String.lt_iff.mpr (lt_of_ofDigitChars_lt sameLength
    (fun _ => isDigit_of_mem_fiveDigits) (fun _ => isDigit_of_mem_fiveDigits) values))

/-- The first number of six digits comes before the last one of five. -/
theorem partPath_overflow (directory : String) :
    partPath directory 100000 < partPath directory 99999 :=
  partPath_lt_of_fiveDigits (by decide +kernel)

section Writing

variable {parts : List (List Row)}

/-- The store after a directory has been cleared and part files have been written into it, one
after another from the first part on. -/
def rewrite (store : FileStore) (directory : String) (parts : List (List Row)) : FileStore :=
  parts.zipIdx.foldl (fun store (rows, index) => store.write (partPath directory index) rows)
    (store.clear directory)

theorem write_comm {other : String} {rows otherRows : List Row} (different : path ≠ other) :
    (store.write path rows).write other otherRows =
      (store.write other otherRows).write path rows := by
  refine congrArg FileStore.mk (OrderedMap.ext_get? fun key => ?_)
  show ((store.write path rows).write other otherRows).files.get? key =
    ((store.write other otherRows).write path rows).files.get? key
  simp only [get?_write]
  by_cases isPath : key = path
  · rw [if_pos isPath, if_pos isPath, if_neg (isPath ▸ different)]
  · rw [if_neg isPath, if_neg isPath]

/-- The order in which part files are written does not matter. -/
theorem rewrite_eq_replace (store : FileStore) (directory : String) (parts : List (List Row)) :
    store.rewrite directory parts = store.replace directory parts := by
  rw [rewrite, replace, putParts, ← List.foldl_reverse]
  refine (List.reverse_perm _).symm.foldl_eq' (fun first isFirst second isSecond store => ?_) _
  by_cases same : first.2 = second.2
  · have atFirst := List.mem_zipIdx_iff_getElem?.mp isFirst
    rw [same, List.mem_zipIdx_iff_getElem?.mp isSecond] at atFirst
    rw [Prod.ext (Option.some.inj atFirst) same.symm]
  · exact write_comm fun samePath => same (partPath_injective samePath)

/-- The parts of a directory written anew are listed in some order of their numbers. -/
theorem exists_indices (store : FileStore) (directory : String) (parts : List (List Row)) :
    ∃ indices : List Nat, indices.Perm (List.range parts.length) ∧
      (store.replace directory parts).list directory = indices.map (partPath directory) ∧
      (store.replace directory parts).readDirectory directory =
        .ok (indices.flatMap fun index => parts.getD index []) := by
  have listed : Relation.Comp (fun paths indices => paths = indices.map (partPath directory))
      List.Perm ((store.replace directory parts).list directory) (List.range parts.length) := by
    rw [List.eq_map_comp_perm]
    exact list_replace store directory parts
  obtain ⟨indices, isList, perm⟩ := listed
  refine ⟨indices, perm, isList, ?_⟩
  rw [readDirectory_eq_ok, rowsOf, isList, List.flatMap_map]
  refine congrArg Except.ok (List.flatMap_congr fun index member => ?_)
  have bound : index < parts.length := List.mem_range.mp (perm.mem_iff.mp member)
  rw [replace, get?_putParts_partPath _ _ bound, List.getD_eq_getElem?_getD,
    List.getElem?_eq_getElem bound]

/-- Two listings of the same parts in ascending order are equal. -/
theorem eq_of_ascending {first second : List Nat} (perm : first.Perm second)
    (ascends : (first.map (partPath directory)).Pairwise (· < ·))
    (ascendsToo : (second.map (partPath directory)).Pairwise (· < ·)) : first = second := by
  refine perm.eq_of_pairwise (fun index other _ _ below above => ?_)
    (List.pairwise_map.mp ascends) (List.pairwise_map.mp ascendsToo)
  exact absurd above (String.lt_asymm below)

theorem ascending_range_iff {count : Nat} :
    ((List.range count).map (partPath directory)).Pairwise (· < ·) ↔ count ≤ 100000 := by
  rw [List.pairwise_map]
  constructor
  · intro ascends
    by_contra tooMany
    have inOrder := List.pairwise_iff_getElem.mp ascends 99999 100000
      (by rw [List.length_range]; omega) (by rw [List.length_range]; omega) (by omega)
    rw [List.getElem_range, List.getElem_range] at inOrder
    exact String.lt_asymm inOrder (partPath_overflow directory)
  · intro few
    refine List.pairwise_lt_range.imp_of_mem fun _ isSecond less => partPath_lt less ?_
    exact (List.mem_range.mp isSecond).trans_le few

theorem flatMap_range_getD (parts : List (List Row)) :
    ((List.range parts.length).flatMap fun index => parts.getD index []) = parts.flatten := by
  rw [List.flatMap_def]
  refine congrArg List.flatten (List.ext_getElem (by simp) fun index _ bound => ?_)
  rw [List.getElem_map, List.getElem_range, List.getD_eq_getElem?_getD,
    List.getElem?_eq_getElem bound, Option.getD_some]

/-- After a directory has been cleared and written, its parts are listed in the order of their
paths and read in the order of the list, and nothing else has changed.  That is the order of
their numbers exactly if there are at most a hundred thousand. -/
theorem parts_in_order (store : FileStore) (directory : String) (parts : List (List Row)) :
    (∃ indices : List Nat, indices.Perm (List.range parts.length) ∧
      (indices.map (partPath directory)).Pairwise (· < ·) ∧
      (store.rewrite directory parts).list directory = indices.map (partPath directory) ∧
      (store.rewrite directory parts).readDirectory directory =
        .ok (indices.flatMap fun index => parts.getD index [])) ∧
    ((store.rewrite directory parts).list directory =
      (List.range parts.length).map (partPath directory) ↔ parts.length ≤ 100000) ∧
    (parts.length ≤ 100000 →
      (store.rewrite directory parts).readDirectory directory = .ok parts.flatten) ∧
    ∀ path, path ≠ directory → beginsWith path (directory ++ "/") = false →
      (store.rewrite directory parts).files.get? path = store.files.get? path := by
  rw [rewrite_eq_replace]
  obtain ⟨indices, perm, isList, isRead⟩ := exists_indices store directory parts
  have ascends := pairwise_list (store.replace directory parts) directory
  rw [isList] at ascends
  have inOrder (few : parts.length ≤ 100000) : indices = List.range parts.length :=
    eq_of_ascending perm ascends (ascending_range_iff.mpr few)
  refine ⟨⟨indices, perm, ascends, isList, isRead⟩, ⟨fun listed => ?_, fun few => ?_⟩,
    fun few => ?_, fun path notDirectory outside => ?_⟩
  · rw [← isList, listed] at ascends
    exact ascending_range_iff.mp ascends
  · rw [isList, inOrder few]
  · rw [isRead, inOrder few, flatMap_range_getD]
  · refine get?_replace_of_not_within ?_
    rintro (isDirectory | within)
    · exact notDirectory isDirectory
    · rw [outside] at within
      exact nomatch within

/-- Parts the last two of which hold a row each. -/
def partsWithEnd (count : Nat) : List (List Row) :=
  List.replicate count [] ++ [[[.int 1]], [[.int 2]]]

theorem length_partsWithEnd (count : Nat) : (partsWithEnd count).length = count + 2 := by
  rw [partsWithEnd, List.length_append, List.length_replicate]
  rfl

theorem flatten_partsWithEnd (count : Nat) :
    (partsWithEnd count).flatten = [[.int 1], [.int 2]] := by
  simp [partsWithEnd]

/-- Only the last two parts are read with effect. -/
theorem flatMap_partsWithEnd (count : Nat) (indices : List Nat) :
    (indices.flatMap fun index => (partsWithEnd count).getD index []) =
      (indices.filter (count ≤ ·)).flatMap fun index => (partsWithEnd count).getD index [] := by
  induction indices with
  | nil => rfl
  | cons index indices ih =>
      rw [List.flatMap_cons, ih]
      by_cases atEnd : count ≤ index
      · simp [atEnd]
      · have noRows : (partsWithEnd count).getD index [] = [] := by
          simp [partsWithEnd, List.getD_eq_getElem?_getD, List.getElem?_append,
            Nat.lt_of_not_le atEnd]
        rw [noRows, List.filter_cons_of_neg (by simpa using atEnd)]
        rfl

theorem filter_range_add_two (count : Nat) :
    (List.range (count + 2)).filter (count ≤ ·) = [count, count + 1] := by
  have front : (List.range count).filter (count ≤ ·) = [] := by
    simp
  rw [List.range_add, List.filter_append, front]
  simp [List.range_succ]

theorem getD_partsWithEnd (count : Nat) :
    (partsWithEnd count).getD count [] = [[.int 1]] ∧
      (partsWithEnd count).getD (count + 1) [] = [[.int 2]] := by
  simp [partsWithEnd, List.getD_eq_getElem?_getD]

/-- The last of a hundred thousand and one parts is listed and read before the one written
before it. -/
theorem last_part_read_first :
    (partsWithEnd 99999).length = 100001 ∧
      (empty.rewrite "out" (partsWithEnd 99999)).list "out" ≠
        (List.range 100001).map (partPath "out") ∧
      (partsWithEnd 99999).flatten = [[.int 1], [.int 2]] ∧
      (empty.rewrite "out" (partsWithEnd 99999)).readDirectory "out" =
        .ok [[.int 2], [.int 1]] := by
  have length := length_partsWithEnd 99999
  obtain ⟨indices, perm, isList, isRead⟩ := exists_indices empty "out" (partsWithEnd 99999)
  have ascends := pairwise_list (empty.replace "out" (partsWithEnd 99999)) "out"
  rw [isList] at ascends
  refine ⟨length, fun listed => ?_, flatten_partsWithEnd 99999, ?_⟩
  · rw [rewrite_eq_replace, isList] at listed
    rw [listed] at ascends
    exact absurd (ascending_range_iff.mp ascends) (by decide)
  · rw [length] at perm
    have ascending := ascends.sublist ((List.filter_sublist (p := (99999 ≤ ·))).map _)
    have overflow : ([100000, 99999].map (partPath "out")).Pairwise (· < ·) :=
      List.pairwise_pair.mpr (partPath_overflow "out")
    have lastTwo : indices.filter (99999 ≤ ·) = [100000, 99999] := by
      refine eq_of_ascending ?_ ascending overflow
      refine (perm.filter _).trans ?_
      rw [filter_range_add_two]
      exact List.Perm.swap _ _ _
    obtain ⟨isFirst, isSecond⟩ := getD_partsWithEnd 99999
    rw [rewrite_eq_replace, isRead, flatMap_partsWithEnd, lastTwo, List.flatMap_cons,
      List.flatMap_cons, isFirst, isSecond]
    rfl

end Writing

end FileStore

end BatchFlow
