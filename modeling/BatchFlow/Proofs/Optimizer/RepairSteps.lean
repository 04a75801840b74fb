import BatchFlow.Proofs.Optimizer.RepairEdits

/-!
# Carrying out decisions

A decision about a load whose stage waits for the source can always be carried
out: by then the stages and their operators are still there, and so is the edge,
unless a concatenate stage of its own already stands on it.
-/

namespace BatchFlow

open JoinRepair Steps

namespace StageGraph

variable {graph current between : StageGraph} {inserted more : Inserted}
  {source join concatenate : StageId}

theorem mem_stageIds_withPlan {plan : SubPlan} {id : StageId} (member : id ∈ current.stageIds) :
    id ∈ (current.withPlan join source plan).stageIds :=
  mem_stageIds_modifyStage member

theorem HasRoom.next (room : (current.withConcatenate source join).HasRoom) :
    current.nextId.toNat + 1 < UInt64.size := by
  refine room ⟨current.nextId⟩ (mem_stageIds.mpr ?_)
  rw [stage?_withConcatenate, if_pos rfl]
  exact ⟨_, rfl⟩

/-- What the edits of join repair rely on: every stage keeps its operators,
identifiers stay below the next one, and an edge is gone only if a concatenate
stage stands on it. -/
structure Editable (graph : StageGraph) (inserted : Inserted) (current : StageGraph) : Prop where
  kept : ∀ id stage, graph.stage? id = some stage → ∃ other, current.stage? id = some other ∧
    ∀ key operator, stage.plan.get? key = some operator →
      ∃ changed, other.plan.get? key = some changed
  below : ∀ id other, current.stage? id = some other → id.value < current.nextId
  continued : ∀ edge ∈ graph.edges.elements, edge ∈ current.edges.elements ∨
    ∃ concatenate, ((edge.earlier, edge.later), concatenate) ∈ inserted

/-- A decision to concatenate is about an operator of a stage that waits for the
source. -/
def Feasible (graph : StageGraph) (verdict : SideVerdict) : Prop :=
  ∀ source files, verdict.decision = .concatenate source files →
    ⟨source, verdict.stage⟩ ∈ graph.edges.elements ∧
      ∃ stage operator, graph.stage? verdict.stage = some stage ∧
        stage.plan.get? verdict.load = some operator

/-- The concatenate stage for an edge is one inserted before, or it is put on the
edge now. -/
inductive Provided (inserted : Inserted) (current : StageGraph) (source join : StageId) :
    StageId → Inserted → StageGraph → Prop where
  | already {concatenate : StageId} (member : ((source, join), concatenate) ∈ inserted) :
      Provided inserted current source join concatenate inserted current
  | now (fresh : ∀ concatenate, ((source, join), concatenate) ∉ inserted) :
      Provided inserted current source join ⟨current.nextId⟩
        (((source, join), ⟨current.nextId⟩) :: inserted) (current.withConcatenate source join)

theorem Provided.member
    (provided : Provided inserted current source join concatenate more between) :
    ((source, join), concatenate) ∈ more := by
  cases provided with
  | already member => exact member
  | now => exact List.mem_cons_self

namespace Editable

theorem initial (built : graph.Built) : graph.Editable [] graph where
  kept _ stage found := ⟨stage, found, fun _ operator foundToo => ⟨operator, foundToo⟩⟩
  below := built.below
  continued _ isEdge := .inl isEdge

variable (editable : graph.Editable inserted current)

include editable

theorem ne_nextId {id : StageId} {other : Stage} (isStage : current.stage? id = some other) :
    id ≠ ⟨current.nextId⟩ :=
  ne_nextId_of_below editable.below isStage

theorem withConcatenate (room : current.nextId.toNat + 1 < UInt64.size) :
    graph.Editable (((source, join), ⟨current.nextId⟩) :: inserted)
      (current.withConcatenate source join) := by
  constructor
  case kept =>
    intro id stage found
    obtain ⟨other, isStage, operators⟩ := editable.kept id stage found
    refine ⟨other, ?_, operators⟩
    rw [stage?_withConcatenate, if_neg (editable.ne_nextId isStage), isStage]
  case below =>
    intro id other isStage
    rw [stage?_withConcatenate] at isStage
    split at isStage
    case isTrue isNext =>
      rw [isNext]
      exact lt_add_one room
    case isFalse => exact UInt64.lt_trans (editable.below id other isStage) (lt_add_one room)
  case continued =>
    intro edge isEdge
    by_cases same : edge = ⟨source, join⟩
    · subst same
      exact .inr ⟨_, List.mem_cons_self⟩
    · rcases editable.continued edge isEdge with isOld | ⟨concatenate, member⟩
      · exact .inl (mem_edges_withConcatenate.mpr (.inr (.inr ⟨same, isOld⟩)))
      · exact .inr ⟨concatenate, List.mem_cons_of_mem _ member⟩

theorem withPlan {reader : Stage} (isJoin : current.stage? join = some reader) {load : OpId}
    {change : Operator → Operator} (member : ((source, join), concatenate) ∈ inserted) :
    graph.Editable inserted (current.withPlan join source (reader.plan.modify load change)) := by
  constructor
  case kept =>
    intro id stage found
    obtain ⟨other, isStage, operators⟩ := editable.kept id stage found
    rw [stage?_withPlan]
    split
    case isFalse => exact ⟨other, isStage, operators⟩
    case isTrue same =>
      subst same
      rw [isJoin]
      obtain rfl := Option.some.inj (isJoin.symm.trans isStage)
      refine ⟨_, rfl, fun key operator foundToo => ?_⟩
      obtain ⟨changed, foundChanged⟩ := operators key operator foundToo
      rw [SubPlan.get?_modify]
      split
      case isTrue same => exact ⟨change changed, by rw [← same, foundChanged]; rfl⟩
      case isFalse => exact ⟨changed, foundChanged⟩
  case below =>
    intro id other isStage
    rw [stage?_withPlan] at isStage
    split at isStage
    case isTrue same => exact editable.below id reader (same ▸ isJoin)
    case isFalse => exact editable.below id other isStage
  case continued =>
    intro edge isEdge
    by_cases same : edge = ⟨source, join⟩
    · subst same
      exact .inr ⟨concatenate, member⟩
    · exact (editable.continued edge isEdge).imp (mem_edges_withPlan same).mpr fun old => old

theorem provided (provided : Provided inserted current source join concatenate more between)
    (room : between.HasRoom) : graph.Editable more between := by
  cases provided with
  | already => exact editable
  | now => exact editable.withConcatenate room.next

variable (built : graph.Built) {verdict : SideVerdict}

include built

/-- Carrying out a decision to concatenate provides the concatenate stage and
repoints the load. -/
theorem apply_concatenate {files : UInt32} (feasible : graph.Feasible verdict)
    (decision : verdict.decision = .concatenate source files) :
    ∃ concatenate more between reader,
      Provided inserted current source verdict.stage concatenate more between ∧
        between.stage? verdict.stage = some reader ∧
          JoinRepair.apply inserted verdict current =
            .ok (.stageInserted source concatenate files, more)
              (between.withPlan verdict.stage source (reader.plan.modify verdict.load
                fun operator => { operator with operation := .load (.stage concatenate) })) := by
  obtain ⟨isEdge, stage, operator, found, foundLoad⟩ := feasible source files decision
  obtain ⟨different, ⟨feeder, foundSource⟩, -⟩ := built.edges _ isEdge
  obtain ⟨first, isSource, -⟩ := editable.kept source feeder foundSource
  obtain ⟨reader, isJoin, operators⟩ := editable.kept verdict.stage stage found
  obtain ⟨changed, foundChanged⟩ := operators verdict.load operator foundLoad
  cases isInserted : inserted.lookup (source, verdict.stage) with
  | some existing =>
      have member : ((source, verdict.stage), existing) ∈ inserted := by
        obtain ⟨before, after, rfl, -⟩ := List.lookup_eq_some_iff.mp isInserted
        exact List.mem_append_right _ List.mem_cons_self
      refine ⟨existing, inserted, current, reader, .already member, isJoin, ?_⟩
      rw [apply_of_inserted decision isInserted]
      exact bind_eq_ok.mpr ⟨_, _, repointLoad_eq_ok isJoin foundChanged isSource different, rfl⟩
  | none =>
      have fresh (concatenate : StageId) :
          ((source, verdict.stage), concatenate) ∉ inserted := by
        intro member
        simpa using List.lookup_eq_none_iff.mp isInserted _ member
      -- no concatenate stage stands on the edge, so the edge is still there
      have stillEdge : ⟨source, verdict.stage⟩ ∈ current.edges.elements := by
        refine (editable.continued _ isEdge).resolve_right ?_
        rintro ⟨concatenate, member⟩
        exact fresh concatenate member
      have put := insertConcatenate_eq_ok stillEdge isSource isJoin (editable.ne_nextId isSource)
        (editable.ne_nextId isJoin)
      have isOld {id : StageId} {other : Stage} (isStage : current.stage? id = some other) :
          (current.withConcatenate source verdict.stage).stage? id = some other := by
        rw [stage?_withConcatenate, if_neg (editable.ne_nextId isStage), isStage]
      refine ⟨_, _, _, reader, .now fresh, isOld isJoin, ?_⟩
      rw [apply_of_not_inserted decision isInserted, bind_apply, put]
      exact bind_eq_ok.mpr
        ⟨_, _, repointLoad_eq_ok (isOld isJoin) foundChanged (isOld isSource) different, rfl⟩

/-- A feasible decision can be carried out, and further ones after it. -/
theorem apply (feasible : graph.Feasible verdict)
    (room : HasRoom (stateOf (JoinRepair.apply inserted verdict current))) :
    ∃ applied next, JoinRepair.apply inserted verdict current = .ok applied next ∧
      graph.Editable applied.2 next := by
  cases decision : verdict.decision with
  | skip reason =>
      rw [apply_of_skip decision]
      exact ⟨_, current, rfl, editable⟩
  | concatenate source files =>
      obtain ⟨concatenate, more, between, reader, provided, isJoin, carriedOut⟩ :=
        editable.apply_concatenate built feasible decision
      rw [carriedOut] at room
      have roomBetween : between.HasRoom := fun id member => room id (mem_stageIds_withPlan member)
      exact ⟨_, _, carriedOut, (editable.provided provided roomBetween).withPlan isJoin
        provided.member⟩

end Editable

/-- What the pass reports of a decision and what was done about it. -/
def reported (entry : SideVerdict × RepairState) : Decision :=
  .joinRepair entry.1.stage entry.1.join entry.1.side entry.2

/-- Carrying out decisions one after another succeeds, and ends with what each of
them keeps, which may speak of all that has been done. -/
theorem exists_repairSides
    (holds : List (SideVerdict × RepairState) → Inserted → StageGraph → Prop)
    (done : List (SideVerdict × RepairState)) {verdicts : List SideVerdict}
    (carryOut : ∀ verdict ∈ verdicts, ∀ done inserted current, holds done inserted current →
      HasRoom (stateOf (JoinRepair.apply inserted verdict current)) →
        ∃ applied next, JoinRepair.apply inserted verdict current = .ok applied next ∧
          holds (done ++ [(verdict, applied.1)]) applied.2 next)
    (start : holds done inserted current)
    (room : HasRoom (stateOf (Pass.repairSides inserted verdicts current))) :
    ∃ entries next more, entries.map Prod.fst = verdicts ∧
      Pass.repairSides inserted verdicts current = .ok (entries.map reported) next ∧
        holds (done ++ entries) more next := by
  induction verdicts generalizing done inserted current with
  | nil => exact ⟨[], current, inserted, rfl, rfl, by rwa [List.append_nil]⟩
  | cons verdict rest ih =>
      obtain ⟨carryOutFirst, carryOutRest⟩ := List.forall_mem_cons.mp carryOut
      have roomFirst : HasRoom (stateOf (JoinRepair.apply inserted verdict current)) := by
        intro id member
        refine room id ?_
        rw [Pass.repairSides]
        exact grows_bind_left (fun applied => (grows_repairSides applied.2 rest).bind fun _ =>
          .pure _) current id member
      obtain ⟨applied, between, carriedOut, holdsBetween⟩ :=
        carryOutFirst done inserted current start roomFirst
      rw [Pass.repairSides, bind_apply, carriedOut] at room ⊢
      have roomRest : HasRoom (stateOf (Pass.repairSides applied.2 rest between)) := by
        intro id member
        exact room id (grows_bind_left (fun _ => .pure _) between id member)
      obtain ⟨entries, next, more, isRest, ranRest, holdsNext⟩ :=
        ih _ carryOutRest holdsBetween roomRest
      refine ⟨(verdict, applied.1) :: entries, next, more, by rw [List.map_cons, isRest],
        bind_eq_ok.mpr ⟨entries.map reported, next, ranRest, rfl⟩, ?_⟩
      rwa [List.append_assoc, List.singleton_append] at holdsNext

end StageGraph

end BatchFlow
