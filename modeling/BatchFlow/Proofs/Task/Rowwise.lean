import BatchFlow.Proofs.Sorting
import BatchFlow.Proofs.Task.Step

/-!
# Row operators over parts of their rows

Most operators treat every row of their main input on its own.  Such an operator
yields, over the concatenation of some lists, the concatenation of what it
yields over each of them, and fails over the whole exactly when it fails over a
part.  Sorting keeps the rows but not their order.
-/

namespace BatchFlow

open Results

theorem Row.cell_eq_ok {row : Row} {column : UInt64} {value : Scalar} :
    row.cell column = .ok value ↔ row[column.toNat]? = some value := by
  unfold Row.cell
  cases row[column.toNat]? <;> simp

variable {ε α β : Type}

/-- Parts hold the rows of a whole, in the same order if they are `inOrder`. -/
structure Gathers (inOrder : Prop) (parts : List (List α)) (whole : List α) : Prop where
  perm : parts.flatten.Perm whole
  same : inOrder → parts.flatten = whole

theorem Gathers.of_flatten_eq {inOrder : Prop} {parts : List (List α)} {whole : List α}
    (same : parts.flatten = whole) : Gathers inOrder parts whole :=
  ⟨.of_eq same, fun _ => same⟩

theorem Gathers.mono {first second : Prop} {parts : List (List α)} {whole : List α}
    (gathers : Gathers first parts whole) (weaker : second → first) :
    Gathers second parts whole :=
  ⟨gathers.perm, fun inOrder => gathers.same (weaker inOrder)⟩

/-- A function on lists that expands every element on its own.  It succeeds when
it is ready and accepts each element. -/
def Rowwise (function : List α → Except ε (List β)) : Prop :=
  ∃ (ready : Prop) (accepts : α → Prop) (expand : α → List β), ∀ rows results,
    function rows = .ok results ↔
      ready ∧ (∀ row ∈ rows, accepts row) ∧ results = rows.flatMap expand

/-- A function on lists that succeeds on a whole exactly when it succeeds on all
of its parts, with results that hold the rows of the result of the whole.  It
keeps their order if it `keepsOrder`. -/
structure Distributes (keepsOrder : Prop) (function : List α → Except ε (List β)) : Prop where
  parts_of_whole : ∀ {inOrder : Prop} {parts : List (List α)} {whole : List α} {results : List β},
    Gathers inOrder parts whole → function whole = .ok results →
      ∃ outcomes, parts.mapM function = .ok outcomes ∧
        Gathers (inOrder ∧ keepsOrder) outcomes results
  whole_of_parts : ∀ {inOrder : Prop} {parts : List (List α)} {whole : List α}
    {outcomes : List (List β)}, parts ≠ [] → Gathers inOrder parts whole →
      parts.mapM function = .ok outcomes → ∃ results, function whole = .ok results

namespace Rowwise

variable {function : List α → Except ε (List β)}

theorem distributes (rowwise : Rowwise function) (keepsOrder : Prop) :
    Distributes keepsOrder function := by
  obtain ⟨ready, accepts, expand, spec⟩ := rowwise
  have flatten_map (parts : List (List α)) :
      (parts.map (List.flatMap expand)).flatten = parts.flatten.flatMap expand := by
    rw [List.flatten_eq_flatMap, List.flatten_eq_flatMap, List.flatMap_map, List.flatMap_assoc]
    rfl
  constructor
  · intro inOrder parts whole results gathers succeeded
    obtain ⟨isReady, acceptsAll, rfl⟩ := (spec whole results).mp succeeded
    refine ⟨parts.map (List.flatMap expand), ?_, ?_, fun both => ?_⟩
    · rw [mapM_eq_ok, List.forall₂_map_right_iff, List.forall₂_same]
      intro part member
      refine (spec part _).mpr ⟨isReady, fun row inPart => ?_, rfl⟩
      exact acceptsAll row (gathers.perm.mem_iff.mp (List.mem_flatten.mpr ⟨part, member, inPart⟩))
    · rw [flatten_map]
      exact gathers.perm.flatMap_right expand
    · rw [flatten_map, gathers.same both.1]
  · intro inOrder parts whole outcomes nonempty gathers succeeded
    have each := exists_mapM_iff.mp ⟨outcomes, succeeded⟩
    obtain ⟨part, isPart⟩ := List.exists_mem_of_ne_nil parts nonempty
    obtain ⟨result, atPart⟩ := each part isPart
    refine ⟨whole.flatMap expand, (spec whole _).mpr ⟨((spec part result).mp atPart).1, ?_, rfl⟩⟩
    intro row member
    obtain ⟨other, isOther, inOther⟩ := List.mem_flatten.mp (gathers.perm.mem_iff.mpr member)
    obtain ⟨otherResult, atOther⟩ := each other isOther
    exact ((spec other otherResult).mp atOther).2.1 row inOther

theorem of_mapM [Inhabited β] {step : α → Except ε β} :
    Rowwise fun rows : List α => rows.mapM step := by
  refine ⟨True, fun row => ∃ result, step row = .ok result, fun row => [valueOf (step row)],
    fun rows results => ?_⟩
  rw [mapM_eq_ok_iff_map, true_and, List.map_eq_flatMap]

theorem filterAuxM_eq_ok {test : α → Except ε Bool} {rows kept results : List α} :
    rows.filterAuxM test kept = .ok results ↔
      (∀ row ∈ rows, ∃ passes, test row = .ok passes) ∧
        results = (rows.filter fun row => valueOf (test row)).reverse ++ kept := by
  induction rows generalizing kept with
  | nil => simp [List.filterAuxM, @eq_comm _ kept]
  | cons row rows ih =>
      rw [List.filterAuxM]
      cases atRow : test row with
      | error error => simp [bind, Except.bind, atRow]
      | ok passes => cases passes <;> simp [bind, Except.bind, atRow, valueOf, ih]

theorem of_filterM {test : α → Except ε Bool} :
    Rowwise fun rows : List α => rows.filterM test := by
  refine ⟨True, fun row => ∃ passes, test row = .ok passes,
    fun row => if valueOf (test row) then [row] else [], fun rows results => ?_⟩
  rw [true_and]
  simp only [List.filterM, bind_eq_ok, filterAuxM_eq_ok, pure_eq_ok, List.append_nil]
  have expanded : (rows.flatMap fun row => if valueOf (test row) then [row] else []) =
      rows.filter fun row => valueOf (test row) := by
    induction rows with
    | nil => rfl
    | cons row rows ih =>
        rw [List.flatMap_cons, ih, List.filter_cons]
        split <;> rfl
  rw [expanded]
  constructor
  · rintro ⟨_, ⟨each, rfl⟩, rfl⟩
    exact ⟨each, List.reverse_reverse _⟩
  · rintro ⟨each, rfl⟩
    exact ⟨_, ⟨each, rfl⟩, List.reverse_reverse _⟩

theorem liftOperator {function : List α → Except OperatorError (List β)}
    (rowwise : Rowwise function) : Rowwise fun rows => liftOperator (function rows) := by
  obtain ⟨ready, accepts, expand, spec⟩ := rowwise
  exact ⟨ready, accepts, expand, fun rows results => liftOperator_eq_ok.trans (spec rows results)⟩

theorem of_flatMap (expand : α → List β) :
    Rowwise fun rows : List α => (.ok (rows.flatMap expand) : Except ε (List β)) := by
  refine ⟨True, fun _ => True, expand, fun rows results => ?_⟩
  rw [Except.ok.injEq, true_and, eq_comm]
  exact (and_iff_right fun _ _ => trivial).symm

theorem ok : Rowwise fun rows : List α => (.ok rows : Except ε (List α)) := by
  have expanded : Rowwise fun rows : List α =>
      (.ok (rows.flatMap fun row => [row]) : Except ε (List α)) := of_flatMap _
  simpa only [List.flatMap_singleton'] using expanded

end Rowwise

namespace Sorting

theorem distributes_sort (precedes : α → α → Bool) :
    Distributes False fun rows : List α => (.ok (sort precedes rows) : Except ε (List α)) := by
  constructor
  · intro inOrder parts whole results gathers succeeded
    obtain rfl := Except.ok.inj succeeded
    refine ⟨parts.map (sort precedes), ?_, ?_, fun both => both.2.elim⟩
    · rw [mapM_eq_ok, List.forall₂_map_right_iff, List.forall₂_same]
      exact fun _ _ => rfl
    · have sorted : (parts.map (sort precedes)).flatten.Perm parts.flatten := by
        rw [← List.flatMap_def, List.flatten_eq_flatMap]
        exact List.Perm.flatMap_left parts fun part _ => perm_sort precedes part
      exact sorted.trans (gathers.perm.trans (perm_sort precedes whole).symm)
  · intro _ _ whole _ _ _ _
    exact ⟨sort precedes whole, rfl⟩

end Sorting

namespace Join

/-- The join of a fragment side with the other sides. -/
def overFragment (others : Nat → Except RunError (List Row)) (keys : List UInt64)
    (fragment count : Nat) (rows : List Row) : Except RunError (List Row) := do
  let sides ← (List.range count).mapM fun side =>
    if side = fragment then .ok rows else others side
  BatchFlow.liftOperator (Join.rows sides keys fragment)

/-- The tables of the replicated sides. -/
def tables (sides : Nat → List Row) (keys : List UInt64) (fragment count : Nat) :
    Except OperatorError (List Groups) :=
  (List.range count).mapM fun side =>
    if side = fragment then .ok [] else index (keys.getD side 0) (sides side)

theorem tables_congr {first second : Nat → List Row} {keys : List UInt64} {fragment count : Nat}
    (same : ∀ side, side ≠ fragment → first side = second side) :
    tables first keys fragment count = tables second keys fragment count := by
  refine mapM_congr fun side _ => ?_
  by_cases atFragment : side = fragment
  · rw [if_pos atFragment, if_pos atFragment]
  · rw [if_neg atFragment, if_neg atFragment, same side atFragment]

theorem zipIdx_map_range {side : Type} (sides : Nat → side) (count : Nat) :
    ((List.range count).map sides).zipIdx =
      (List.range count).map fun number => (sides number, number) := by
  refine List.ext_getElem (by simp) fun number first second => ?_
  simp

/-- A join succeeds when the tables exist and every row of the fragment has its
key column; each row is then joined on its own. -/
theorem rows_eq_ok (sides : Nat → List Row) {keys : List UInt64} {fragment count : Nat}
    (inside : fragment < count) {joined : List Row} :
    Join.rows ((List.range count).map sides) keys fragment = .ok joined ↔
      ∃ found, tables sides keys fragment count = .ok found ∧
        (∀ row ∈ sides fragment, ∃ key, row.cell (keys.getD fragment 0) = .ok key) ∧
          joined = (sides fragment).flatMap fun row =>
            let key := valueOf (row.cell (keys.getD fragment 0))
            if key.isNull then [] else matchRow found fragment key row := by
  have fragmentRows : ((List.range count).map sides).getD fragment [] = sides fragment := by
    simp [inside]
  have oneRow (found : List Groups) (row : Row) (joined : List Row) :
      (do
        let key ← row.cell (keys.getD fragment 0)
        return if key.isNull then [] else matchRow found fragment key row) = .ok joined ↔
        (∃ key, row.cell (keys.getD fragment 0) = .ok key) ∧
          joined = (let key := valueOf (row.cell (keys.getD fragment 0))
            if key.isNull then [] else matchRow found fragment key row) := by
    cases row.cell (keys.getD fragment 0) with
    | error error => simp [bind, Except.bind]
    | ok key =>
        exact ⟨fun same => ⟨⟨key, rfl⟩, (Except.ok.inj same).symm⟩,
          fun both => congrArg Except.ok both.2.symm⟩
  rw [Join.rows, bind_eq_ok, zipIdx_map_range, List.mapM_map, fragmentRows]
  refine exists_congr fun found => and_congr Iff.rfl ?_
  simp only [bind_eq_ok, pure_eq_ok, mapM_eq_ok, oneRow]
  generalize sides fragment = rows
  constructor
  · rintro ⟨pieces, related, rfl⟩
    induction related with
    | nil => simp
    | cons atHead _ ih =>
        obtain ⟨inTail, flattened⟩ := ih
        obtain ⟨hasKey, rfl⟩ := atHead
        refine ⟨?_, ?_⟩
        · rintro row (_ | ⟨_, member⟩)
          · exact hasKey
          · exact inTail row member
        · rw [List.flatten_cons, List.flatMap_cons, flattened]
  · rintro ⟨haveKeys, rfl⟩
    refine ⟨_, ?_, List.flatMap_def.symm⟩
    rw [List.forall₂_map_right_iff, List.forall₂_same]
    exact fun row member => ⟨haveKeys row member, rfl⟩

/-- A join treats every row of its fragment side on its own. -/
theorem rowwise_overFragment (others : Nat → Except RunError (List Row)) (keys : List UInt64)
    {fragment count : Nat} (inside : fragment < count) :
    Rowwise (overFragment others keys fragment count) := by
  let otherRows := fun side => valueOf (others side)
  refine ⟨(∀ side < count, side ≠ fragment → ∃ rows, others side = .ok rows) ∧
      ∃ found, tables otherRows keys fragment count = .ok found,
    fun row => ∃ key, row.cell (keys.getD fragment 0) = .ok key,
    fun row =>
      let key := valueOf (row.cell (keys.getD fragment 0))
      if key.isNull then []
      else matchRow (valueOf (tables otherRows keys fragment count)) fragment key row,
    fun rows joined => ?_⟩
  let sides := fun side => valueOf (if side = fragment then .ok rows else others side)
  have atFragment : sides fragment = rows := by simp [sides, valueOf]
  have sameTables : tables sides keys fragment count = tables otherRows keys fragment count :=
    tables_congr fun side different => by simp [sides, otherRows, different]
  have sidesExist : (∀ side ∈ List.range count, ∃ result,
      (if side = fragment then .ok rows else others side) = Except.ok result) ↔
        ∀ side < count, side ≠ fragment → ∃ rows, others side = .ok rows := by
    simp only [List.mem_range]
    refine forall_congr' fun side => imp_congr_right fun _ => ?_
    by_cases same : side = fragment <;> simp [same]
  rw [overFragment, bind_eq_ok]
  simp only [mapM_eq_ok_iff_map, sidesExist, liftOperator_eq_ok]
  constructor
  · rintro ⟨_, ⟨exist, rfl⟩, joinedOk⟩
    obtain ⟨found, tablesOk, haveKeys, rfl⟩ := (rows_eq_ok sides inside).mp joinedOk
    rw [atFragment] at haveKeys ⊢
    rw [sameTables] at tablesOk
    exact ⟨⟨exist, found, tablesOk⟩, haveKeys, by rw [tablesOk]; rfl⟩
  · rintro ⟨⟨exist, found, tablesOk⟩, haveKeys, rfl⟩
    refine ⟨_, ⟨exist, rfl⟩, (rows_eq_ok sides inside).mpr
      ⟨found, sameTables.trans tablesOk, atFragment ▸ haveKeys, ?_⟩⟩
    rw [atFragment, tablesOk]
    rfl

end Join

end BatchFlow
