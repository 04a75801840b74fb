import BatchFlow.Proofs.Task.Share

/-!
# A task and its parts

One task over all rows is related to several tasks over parts of them: every
replicated load holds the same rows everywhere, and at every other operator the
parts gather the rows of the whole.  Each operator keeps this relation unless a sort
stops it, so a whole phase does.
-/

namespace BatchFlow

open Results

namespace SubPlan

variable {plan : SubPlan} {inOrder shared : OpId → Prop} {operators done : List OpId}
  {whole : Share} {parts : List Share} {id : OpId} {operator : Operator}

/-- What lets the operators of a phase be evaluated in parts, with `shared` loads
read in full by every part. -/
structure Splittable (plan : SubPlan) (inOrder shared : OpId → Prop)
    (operators : List OpId) : Prop where
  exist : ∀ id ∈ operators, ∃ operator, plan.get? id = some operator
  noLimit : ∀ id ∈ operators, ∀ operator, plan.get? id = some operator →
    operator.operation.isLimit = false
  sharedLoads : ∀ id operator, shared id → plan.get? id = some operator →
    operator.operation.isLoad = true
  mainBefore : ∀ before id after operator main, operators = before ++ id :: after →
    plan.get? id = some operator → operator.operation.isPackage = false →
      operator.mainInput? = some main → main ∈ before ∧ ¬ shared main
  othersShared : ∀ id ∈ operators, ∀ operator keys fragment, plan.get? id = some operator →
    operator.operation = .join keys fragment → ∀ side input,
      operator.inputs[side]? = some input → side ≠ fragment.toNat → shared input
  keepsOrder : ∀ id ∈ operators, ∀ operator, plan.get? id = some operator → inOrder id →
    operator.operation.isPackage = false ∧ operator.operation.isSort = false ∧
      ∀ main, operator.mainInput? = some main → inOrder main

/-- The parts of a task, after some operators are done. -/
structure Gathered (plan : SubPlan) (inOrder shared : OpId → Prop) (done : List OpId)
    (whole : Share) (parts : List Share) : Prop where
  nonempty : parts ≠ []
  groups : ∀ id, (parts.flatMap fun part => part.groups id).Perm (whole.groups id)
  streamed : ∀ part ∈ parts, part.state.streamed = whole.state.streamed
  streams : ∀ id ∈ whole.state.streamed, plan.streams id = true
  sharedRows : ∀ id, shared id → ∀ part ∈ parts,
    part.state.rows.get? id = whole.state.rows.get? id
  rows : ∀ id, ¬ shared id →
    Gathers (inOrder id) (parts.map fun part => part.rowsAt id) (whole.rowsAt id)
  present : ∀ id ∈ done, ∀ share ∈ whole :: parts, ∃ rows, share.state.rows.get? id = some rows
  stored : ∀ target,
    (parts.flatMap fun part => part.storedAt target).Perm (whole.storedAt target)

/-- What the parts compute for an operator agrees with what the whole computes:
both succeed, with the same rows, or both fail. -/
structure Agrees (inOrder : Prop) (compute : Share → Except RunError (List Row)) (whole : Share)
    (parts : List Share) : Prop where
  partsSucceed : ∀ rows, compute whole = .ok rows → ∀ part ∈ parts, ∃ result,
    compute part = .ok result
  wholeSucceeds : (∀ part ∈ parts, ∃ result, compute part = .ok result) →
    ∃ rows, compute whole = .ok rows
  gathers : ∀ rows, compute whole = .ok rows →
    Gathers inOrder (parts.map fun part => valueOf (compute part)) rows

/-- A function that distributes agrees on the parts of its argument. -/
theorem Agrees.of_distributes {α : Type} {keepsOrder argumentInOrder resultInOrder : Prop}
    {function : List α → Except RunError (List Row)}
    (distributes : Distributes keepsOrder function) (argument : Share → List α)
    {compute : Share → Except RunError (List Row)}
    (computes : ∀ share ∈ whole :: parts, compute share = function (argument share))
    (gathers : Gathers argumentInOrder (parts.map argument) (argument whole))
    (nonempty : parts ≠ []) (keeps : resultInOrder → argumentInOrder ∧ keepsOrder) :
    Agrees resultInOrder compute whole parts := by
  have ofWhole := computes whole (by simp)
  have ofParts : ∀ part ∈ parts, compute part = function (argument part) := fun part member =>
    computes part (by simp [member])
  have split (outcomes : List (List Row)) :
      (parts.map argument).mapM function = .ok outcomes ↔
        (∀ part ∈ parts, ∃ result, compute part = .ok result) ∧
          outcomes = parts.map fun part => valueOf (compute part) := by
    rw [List.mapM_map, ← mapM_eq_ok_iff_map]
    exact Eq.congr_left (mapM_congr fun part member => (ofParts part member).symm)
  refine ⟨fun rows succeeded => ?_, fun succeeded => ?_, fun rows succeeded => ?_⟩
  · obtain ⟨outcomes, inParts, -⟩ := distributes.parts_of_whole gathers (ofWhole ▸ succeeded)
    exact ((split outcomes).mp inParts).1
  · rw [ofWhole]
    exact distributes.whole_of_parts (by simpa using nonempty) gathers
      ((split _).mpr ⟨succeeded, rfl⟩)
  · obtain ⟨outcomes, inParts, gathered⟩ :=
      distributes.parts_of_whole gathers (ofWhole ▸ succeeded)
    obtain ⟨-, rfl⟩ := (split outcomes).mp inParts
    exact gathered.mono keeps

namespace Gathered

theorem groups_gather (gathered : plan.Gathered inOrder shared done whole parts) (id : OpId) :
    Gathers False (parts.map fun part => part.groups id) (whole.groups id) :=
  ⟨by rw [← List.flatMap_def]; exact gathered.groups id, fun never => never.elim⟩

theorem agrees_load (gathered : plan.Gathered inOrder shared done whole parts)
    (ownId : operator.id = id) (notShared : ¬ shared id)
    (isLoad : operator.operation.isLoad = true) :
    Agrees (inOrder id) (Share.unstopped plan operator) whole parts := by
  refine Agrees.of_distributes (Rowwise.ok.distributes True) (fun share => share.rowsAt id) ?_
    (gathered.rows id notShared) gathered.nonempty fun inOrder => ⟨inOrder, trivial⟩
  intro share _
  cases kind : operator.operation <;> simp [kind, Operation.isLoad] at isLoad
  rw [Share.unstopped, SubPlan.unstopped, SubPlan.computed, kind, ownId, Share.rowsAt]

theorem agrees_package (gathered : plan.Gathered inOrder shared done whole parts)
    (ownId : operator.id = id) (isPackage : operator.operation.isPackage = true)
    (notInOrder : ¬ inOrder id) :
    Agrees (inOrder id) (Share.unstopped plan operator) whole parts := by
  refine Agrees.of_distributes
    ((Rowwise.of_flatMap fun group : Scalar × List Row =>
      if plan.streams id then [] else [groupRow group]).distributes True)
    (fun share => share.groups id) ?_ (gathered.groups_gather id) gathered.nonempty
    fun inOrder => absurd inOrder notInOrder
  intro share _
  cases kind : operator.operation <;> simp [kind, Operation.isPackage] at isPackage
  rw [Share.unstopped, SubPlan.unstopped, kind, SubPlan.computed, kind]
  simp only [ownId]
  split
  · simp
  · rw [Groups.materialize_eq_map, List.map_eq_flatMap]

/-- A projection over streamed groups treats every group on its own. -/
theorem agrees_streamed (gathered : plan.Gathered inOrder shared done whole parts)
    {exprs : List Expr} {main : OpId} (kind : operator.operation = .forEach exprs)
    (inputs : operator.inputs = [main]) (isStreamed : main ∈ whole.state.streamed)
    (notInOrder : ¬ inOrder id) :
    Agrees (inOrder id) (Share.unstopped plan operator) whole parts := by
  have rowwise : Rowwise fun groups : Groups => liftOperator (groups.stream exprs) :=
    Rowwise.of_mapM.liftOperator
  refine Agrees.of_distributes (rowwise.distributes True) (fun share => share.groups main) ?_
    (gathered.groups_gather main) gathered.nonempty fun inOrder => absurd inOrder notInOrder
  intro share member
  have sameStreamed : share.state.streamed = whole.state.streamed := by
    rcases List.mem_cons.mp member with rfl | isPart
    · rfl
    · exact gathered.streamed share isPart
  simp [Share.unstopped, SubPlan.unstopped, SubPlan.computed, kind, inputs, sameStreamed,
    isStreamed]

theorem agrees_advance (gathered : plan.Gathered inOrder shared done whole parts)
    (wellFormed : plan.WellFormedOperator operator) {main : OpId}
    (notLoad : operator.operation.isLoad = false)
    (notPackage : operator.operation.isPackage = false)
    (noLimit : operator.operation.isLimit = false)
    (isMain : operator.mainInput? = some main) (mainDone : main ∈ done)
    (mainSpread : ¬ shared main) (notStreamed : main ∉ whole.state.streamed)
    (othersShared : ∀ keys fragment, operator.operation = .join keys fragment →
      ∀ side input, operator.inputs[side]? = some input → side ≠ fragment.toNat → shared input)
    (keepsOrder : inOrder id → operator.operation.isSort = false ∧ inOrder main) :
    Agrees (inOrder id) (Share.unstopped plan operator) whole parts := by
  refine Agrees.of_distributes
    (wellFormed.distributes_advance noLimit (whole.state.input operator))
    (fun share => share.rowsAt main) ?_ (gathered.rows main mainSpread) gathered.nonempty
    fun inOrder => (keepsOrder inOrder).symm
  intro share member
  obtain ⟨rows, found⟩ := gathered.present main mainDone share member
  have sameStreamed : share.state.streamed = whole.state.streamed := by
    rcases List.mem_cons.mp member with rfl | isPart
    · rfl
    · exact gathered.streamed share isPart
  have sameOthers : operator.advance (share.state.input operator) =
      operator.advance (whole.state.input operator) := by
    unfold Operator.advance
    cases kind : operator.operation with
    | join keys fragment =>
        refine Join.overFragment_congr fun side inside different => ?_
        have atSide := List.getElem?_eq_getElem inside
        have isShared := othersShared keys fragment kind side _ atSide different
        have sameRows : share.state.rows.get? operator.inputs[side] =
            whole.state.rows.get? operator.inputs[side] := by
          rcases List.mem_cons.mp member with rfl | isPart
          · rfl
          · exact gathered.sharedRows _ isShared share isPart
        simp only [TaskState.input, atSide, sameRows]
    | _ => rfl
  have advanced : plan.unstopped share.groups share.state operator =
      operator.advance (share.state.input operator) rows :=
    wellFormed.unstopped_eq_advance notLoad notPackage isMain found (by rwa [sameStreamed])
  rw [Share.unstopped, advanced, sameOthers, Share.rowsAt, found, Option.getD_some]

/-- The parts agree with the whole at every operator but a replicated load. -/
theorem agrees (gathered : plan.Gathered inOrder shared done whole parts)
    (wellFormed : plan.WellFormed) (splittable : plan.Splittable inOrder shared operators)
    {after : List OpId} (atId : operators = done ++ id :: after)
    (found : plan.get? id = some operator) (notShared : ¬ shared id) :
    Agrees (inOrder id) (Share.unstopped plan operator) whole parts := by
  have ownId : operator.id = id := wellFormed.ownIds id operator found
  have wellFormedOperator := wellFormed.operators id operator found
  have inOperators : id ∈ operators := by simp [atId]
  have ordered := splittable.keepsOrder id inOperators operator found
  cases isLoad : operator.operation.isLoad with
  | true => exact gathered.agrees_load ownId notShared isLoad
  | false =>
  cases isPackage : operator.operation.isPackage with
  | true =>
      have notInOrder : ¬ inOrder id := fun idInOrder =>
        Bool.false_ne_true ((ordered idInOrder).1.symm.trans isPackage)
      exact gathered.agrees_package ownId isPackage notInOrder
  | false =>
  obtain ⟨main, isMain⟩ := wellFormedOperator.exists_mainInput isLoad
  obtain ⟨mainDone, mainSpread⟩ :=
    splittable.mainBefore done id after operator main atId found isPackage isMain
  by_cases isStreamed : main ∈ whole.state.streamed
  · have streams := gathered.streams main isStreamed
    have isForEach := wellFormed.ownIds.isForEach_of_streams found
      (Operator.mainInput?_mem isMain) streams
    obtain ⟨exprs, kind⟩ : ∃ exprs, operator.operation = .forEach exprs := by
      cases kind : operator.operation <;> simp [kind, Operation.isForEach] at isForEach
      exact ⟨_, rfl⟩
    obtain ⟨input, inputs⟩ := wellFormedOperator.inputs_of_one (by rw [kind]; rfl)
    obtain rfl : input = main := by simpa [Operator.mainInput?, kind, inputs] using isMain
    refine gathered.agrees_streamed kind inputs isStreamed fun idInOrder => ?_
    obtain ⟨⟨package, foundPackage, accumulative⟩, -⟩ := streams_iff.mp streams
    have notPackage := (splittable.keepsOrder input (by simp [atId, mainDone]) package foundPackage
      ((ordered idInOrder).2.2 input isMain)).1
    simp [Operation.isPackage_of_isAccumulative accumulative] at notPackage
  · exact gathered.agrees_advance wellFormedOperator isLoad isPackage
      (splittable.noLimit id inOperators operator found) isMain mainDone mainSpread isStreamed
      (fun keys fragment kind => splittable.othersShared id inOperators operator keys fragment
        found kind) fun idInOrder => ⟨(ordered idInOrder).2.1, (ordered idInOrder).2.2 main isMain⟩

/-- Recording matching rows keeps the parts of a task together. -/
theorem record (gathered : plan.Gathered inOrder shared done whole parts)
    (ownIds : plan.OwnIds) (sharedLoads : shared id → operator.operation.isLoad = true)
    (found : plan.get? id = some operator) {rows : List Row} (outcome : Share → List Row)
    (spread : ¬ shared id → Gathers (inOrder id) (parts.map outcome) rows)
    (replicated : shared id → ∀ part ∈ parts, outcome part = rows) :
    plan.Gathered inOrder shared (done ++ [id]) (whole.record plan operator rows)
      (parts.map fun part => part.record plan operator (outcome part)) := by
  have ownId : operator.id = id := ownIds id operator found
  refine ⟨by simpa using gathered.nonempty, fun other => ?_, fun part member => ?_,
    fun other member => ?_, fun other isShared part member => ?_, fun other notShared => ?_,
    fun other member share isShare => ?_, fun target => ?_⟩
  · rw [List.flatMap_map]
    exact gathered.groups other
  · obtain ⟨part, isPart, rfl⟩ := List.mem_map.mp member
    simp only [Share.record, TaskState.record, gathered.streamed part isPart]
  · simp only [Share.record, TaskState.record] at member
    split at member
    case isTrue streams =>
      rcases List.mem_cons.mp member with rfl | old
      · exact streams
      · exact gathered.streams other old
    case isFalse => exact gathered.streams other member
  · obtain ⟨part, isPart, rfl⟩ := List.mem_map.mp member
    simp only [Share.record, TaskState.record, OrderedMap.get?_insert, ownId]
    split
    case isTrue same =>
      subst same
      rw [replicated isShared part isPart]
    case isFalse => exact gathered.sharedRows other isShared part isPart
  · simp only [List.map_map, Function.comp_def, Share.rowsAt_record, ownId]
    by_cases same : other = id
    · subst same
      simpa only [if_true] using spread notShared
    · simpa only [same, if_false] using gathered.rows other notShared
  · have recorded (old : Share) (oldRows : List Row)
        (before : other ∈ done → ∃ rows, old.state.rows.get? other = some rows) :
        ∃ rows, (old.record plan operator oldRows).state.rows.get? other = some rows := by
      simp only [Share.record, TaskState.record, OrderedMap.get?_insert, ownId]
      split
      case isTrue => exact ⟨oldRows, rfl⟩
      case isFalse different =>
        exact before ((List.mem_append.mp member).resolve_right (by simpa using different))
    rcases List.mem_cons.mp isShare with rfl | isPart
    · exact recorded whole rows fun isDone => gathered.present other isDone whole (by simp)
    · obtain ⟨part, inParts, rfl⟩ := List.mem_map.mp isPart
      exact recorded part _ fun isDone => gathered.present other isDone part (by simp [inParts])
  · simp only [List.flatMap_map, Share.storedAt_record]
    refine (List.flatMap_append_perm parts _ _).symm.trans ((gathered.stored target).append ?_)
    split
    case isFalse => simp
    case isTrue isStore =>
      have notShared : ¬ shared id := fun isShared => by
        have isLoad := sharedLoads isShared
        cases kind : operator.operation <;>
          simp [kind, Operation.isLoad, Operation.target?] at isLoad isStore
      rw [List.flatMap_def]
      exact (spread notShared).perm

/-- A replicated load holds the same rows in every part. -/
theorem unstopped_shared (gathered : plan.Gathered inOrder shared done whole parts)
    (ownId : operator.id = id) (isLoad : operator.operation.isLoad = true) (isShared : shared id) :
    ∀ share ∈ whole :: parts, share.unstopped plan operator = .ok (whole.rowsAt id) := by
  intro share member
  have same : share.rowsAt id = whole.rowsAt id := by
    rcases List.mem_cons.mp member with rfl | isPart
    · rfl
    · rw [Share.rowsAt, Share.rowsAt, gathered.sharedRows id isShared share isPart]
  cases kind : operator.operation <;> simp [kind, Operation.isLoad] at isLoad
  rw [Share.unstopped, SubPlan.unstopped, SubPlan.computed, kind, ownId, ← same, Share.rowsAt]

/-- One operator is evaluated over the whole exactly when it is evaluated over
every part. -/
theorem step (gathered : plan.Gathered inOrder shared done whole parts)
    (wellFormed : plan.WellFormed) (splittable : plan.Splittable inOrder shared operators)
    {after : List OpId} (atId : operators = done ++ id :: after) :
    (∀ next, whole.proceed plan id = .ok next →
      ∃ nexts, parts.mapM (fun part => part.proceed plan id) = .ok nexts ∧
        plan.Gathered inOrder shared (done ++ [id]) next nexts) ∧
    (∀ nexts, parts.mapM (fun part => part.proceed plan id) = .ok nexts →
      ∃ next, whole.proceed plan id = .ok next ∧
        plan.Gathered inOrder shared (done ++ [id]) next nexts) := by
  obtain ⟨operator, found⟩ := splittable.exist id (by simp [atId])
  have ownIds := wellFormed.ownIds
  have ownId : operator.id = id := ownIds id operator found
  have sharedLoads : shared id → operator.operation.isLoad = true := fun isShared =>
    splittable.sharedLoads id operator isShared found
  simp only [Share.proceed_eq ownIds found, mapM_map_eq_ok, map_eq_ok]
  by_cases isShared : shared id
  · have computed := gathered.unstopped_shared ownId (sharedLoads isShared) isShared
    have wholeComputed := computed whole (by simp)
    have partsComputed : ∀ part ∈ parts, part.unstopped plan operator = .ok (whole.rowsAt id) :=
      fun part member => computed part (by simp [member])
    have recorded := gathered.record ownIds sharedLoads found
      (fun part => valueOf (part.unstopped plan operator)) (fun spread => absurd isShared spread)
      fun _ part member => by rw [partsComputed part member, valueOf]
    refine ⟨?_, ?_⟩
    · rintro _ ⟨rows, atWhole, rfl⟩
      obtain rfl := Except.ok.inj (wholeComputed.symm.trans atWhole)
      exact ⟨_, ⟨fun part member => ⟨_, partsComputed part member⟩, rfl⟩, recorded⟩
    · rintro _ ⟨-, rfl⟩
      exact ⟨_, ⟨_, wholeComputed, rfl⟩, recorded⟩
  · have agrees := gathered.agrees wellFormed splittable atId found isShared
    have recorded (rows : List Row) (atWhole : whole.unstopped plan operator = .ok rows) :=
      gathered.record ownIds sharedLoads found
        (fun part => valueOf (part.unstopped plan operator))
        (fun _ => agrees.gathers rows atWhole) fun shared => absurd shared isShared
    refine ⟨?_, ?_⟩
    · rintro _ ⟨rows, atWhole, rfl⟩
      exact ⟨_, ⟨agrees.partsSucceed rows atWhole, rfl⟩, recorded rows atWhole⟩
    · rintro _ ⟨succeed, rfl⟩
      obtain ⟨rows, atWhole⟩ := agrees.wholeSucceeds succeed
      exact ⟨_, ⟨rows, atWhole, rfl⟩, recorded rows atWhole⟩

/-- A phase is evaluated over the whole exactly when it is evaluated over every
part, and the parts stay together. -/
theorem evaluate (gathered : plan.Gathered inOrder shared [] whole parts)
    (wellFormed : plan.WellFormed) (splittable : plan.Splittable inOrder shared operators) :
    (∀ final, operators.foldlM (Share.proceed plan) whole = .ok final →
      ∃ finals, parts.mapM (fun part => operators.foldlM (Share.proceed plan) part) = .ok finals ∧
        plan.Gathered inOrder shared operators final finals) ∧
    (∀ finals, parts.mapM (fun part => operators.foldlM (Share.proceed plan) part) = .ok finals →
      ∃ final, operators.foldlM (Share.proceed plan) whole = .ok final ∧
        plan.Gathered inOrder shared operators final finals) := by
  have together {finals : List Share} :
      parts.mapM (fun part => operators.foldlM (Share.proceed plan) part) = .ok finals ↔
        operators.foldlM (fun states id => states.mapM (Share.proceed plan · id)) parts =
          .ok finals := by
    rw [foldlM_mapM_eq_ok, mapM_eq_ok]
  simp only [together]
  refine ⟨fun final run => ?_, fun finals run => ?_⟩
  · have steps : ∀ before id after, [] ++ operators = before ++ id :: after →
        ∀ state next states, plan.Gathered inOrder shared before state states →
          state.proceed plan id = .ok next →
            ∃ nexts, states.mapM (Share.proceed plan · id) = .ok nexts ∧
              plan.Gathered inOrder shared (before ++ [id]) next nexts :=
      fun _ _ _ atId _ _ _ gathered => (gathered.step wellFormed splittable atId).1 _
    exact foldlM_simulates_from steps gathered run
  · have steps : ∀ before id after, [] ++ operators = before ++ id :: after →
        ∀ states nexts state, plan.Gathered inOrder shared before state states →
          states.mapM (Share.proceed plan · id) = .ok nexts →
            ∃ next, state.proceed plan id = .ok next ∧
              plan.Gathered inOrder shared (before ++ [id]) next nexts :=
      fun _ _ _ atId _ _ _ gathered => (gathered.step wellFormed splittable atId).2 _
    exact foldlM_simulates_from steps gathered run

/-- If every part is evaluated, the whole is, past every sort.  If the whole is, every part
is, unless a sort stops one. -/
theorem evaluate_unless_stopped (gathered : plan.Gathered inOrder shared [] whole parts)
    (wellFormed : plan.WellFormed) (splittable : plan.Splittable inOrder shared operators) :
    (∀ finals, parts.mapM (fun part => operators.foldlM (Share.step plan) part) = .ok finals →
      ∃ final, operators.foldlM (Share.proceed plan) whole = .ok final ∧
        plan.Gathered inOrder shared operators final finals) ∧
    (∀ final, operators.foldlM (Share.proceed plan) whole = .ok final →
      ∃ finals, OkUnless RunError.IsStop
          (parts.mapM fun part => operators.foldlM (Share.step plan) part) finals ∧
        plan.Gathered inOrder shared operators final finals) := by
  have ownIds := wellFormed.ownIds
  obtain ⟨toParts, toWhole⟩ := gathered.evaluate wellFormed splittable
  refine ⟨fun finals run => ?_, fun final run => ?_⟩
  · exact toWhole finals (Share.mapM_proceed_of_step ownIds run)
  · obtain ⟨finals, inParts, gathered⟩ := toParts final run
    exact ⟨finals, Share.mapM_step_of_proceed ownIds inParts, gathered⟩

end Gathered

end SubPlan

end BatchFlow
