import BatchFlow.Proofs.Optimizer.RepairTracking
import BatchFlow.Proofs.Optimizer.Repointing

/-!
# What join repair does to a graph

After any number of decisions are carried out, the stages of the graph are
those of the original graph, some of whose replicated loads are repointed, and
the concatenate stages inserted so far.  Every concatenate stage stands on an
edge of the original graph, and every stage still waits for all it loads from.
-/

namespace BatchFlow

open JoinRepair Steps

namespace StageGraph

variable {graph current : StageGraph} {inserted : Inserted} {source join concatenate : StageId}
  {stage : Stage}

/-- The stages of a graph while join repair is carried out. -/
structure RepairedStages (graph : StageGraph) (inserted : Inserted) (current : StageGraph) :
    Prop where
  kept : ∀ id stage, graph.stage? id = some stage →
    ∃ other, current.stage? id = some other ∧ RepairedStage inserted stage other
  fresh : ∀ source join concatenate, ((source, join), concatenate) ∈ inserted →
    graph.stage? concatenate = none
  concatenates : ∀ source join concatenate, ((source, join), concatenate) ∈ inserted →
    ∃ info, current.stage? concatenate =
      some ⟨concatenate, .concatenate, concatenatePlan source join, info⟩
  loaded : ∀ source join concatenate, ((source, join), concatenate) ∈ inserted →
    ∃ stage, graph.stage? join = some stage ∧ stage.plan.LoadsStage source
  nodup : (inserted.map Prod.snd).Nodup
  only : ∀ id other, current.stage? id = some other →
    (∃ stage, graph.stage? id = some stage) ∨ ∃ source join, ((source, join), id) ∈ inserted
  below : ∀ id other, current.stage? id = some other → id.value < current.nextId

/-- The edges of a graph while join repair is carried out; the one edge that may
be missing is that of a load about to be repointed. -/
structure RepairedEdges (graph : StageGraph) (inserted : Inserted) (pending : Option Edge)
    (current : StageGraph) : Prop where
  edges : ∀ edge ∈ current.edges.elements, edge ∈ graph.edges.elements ∨
    ∃ source join concatenate, ((source, join), concatenate) ∈ inserted ∧
      (edge = ⟨source, concatenate⟩ ∨ edge = ⟨concatenate, join⟩)
  through : ∀ source join concatenate, ((source, join), concatenate) ∈ inserted →
    ⟨source, concatenate⟩ ∈ current.edges.elements ∧ ⟨concatenate, join⟩ ∈ current.edges.elements
  continued : ∀ edge ∈ graph.edges.elements, edge ∈ current.edges.elements ∨
    ∃ concatenate, ((edge.earlier, edge.later), concatenate) ∈ inserted
  backed : ∀ id other, current.stage? id = some other → ∀ source, other.plan.LoadsStage source →
    ⟨source, id⟩ ∈ current.edges.elements ∨ pending = some ⟨source, id⟩

/-- A graph while join repair is carried out. -/
structure Repaired (graph : StageGraph) (inserted : Inserted) (pending : Option Edge)
    (current : StageGraph) : Prop
    extends RepairedStages graph inserted current, RepairedEdges graph inserted pending current

theorem Repaired.initial (built : graph.Built) (backed : graph.Backed) :
    graph.Repaired [] none graph where
  kept id stage found := ⟨stage, found, .refl [] stage⟩
  fresh := by simp
  concatenates := by simp
  loaded := by simp
  nodup := List.nodup_nil
  only id other found := .inl ⟨other, found⟩
  below := built.below
  edges edge member := .inl member
  through := by simp
  continued edge member := .inl member
  backed id other found source loads :=
    .inl (mem_predecessors.mp (backed id other found source loads))

theorem Repaired.await (repaired : graph.Repaired inserted none current) (edge : Edge) :
    graph.Repaired inserted (some edge) current :=
  { repaired with
    backed := fun id other found source loads => by
      rcases repaired.backed id other found source loads with isEdge | isPending
      · exact .inl isEdge
      · exact nomatch isPending }

namespace RepairedStages

variable (repaired : graph.RepairedStages inserted current)

include repaired

theorem repairedStage {id : StageId} {other : Stage} (found : graph.stage? id = some stage)
    (isStage : current.stage? id = some other) : RepairedStage inserted stage other := by
  obtain ⟨changed, foundChanged, repairedStage⟩ := repaired.kept id stage found
  rwa [Option.some.inj (isStage.symm.trans foundChanged)]

/-- A stage is one of the original graph, maybe repointed, or a concatenate stage. -/
theorem stage_cases {id : StageId} {other : Stage} (isStage : current.stage? id = some other) :
    (∃ stage, graph.stage? id = some stage ∧ RepairedStage inserted stage other) ∨
      ∃ source join info, ((source, join), id) ∈ inserted ∧
        other = ⟨id, .concatenate, concatenatePlan source join, info⟩ := by
  rcases repaired.only id other isStage with ⟨stage, found⟩ | ⟨source, join, member⟩
  · exact .inl ⟨stage, found, repaired.repairedStage found isStage⟩
  · obtain ⟨info, isConcatenate⟩ := repaired.concatenates source join id member
    exact .inr ⟨source, join, info, member, Option.some.inj (isStage.symm.trans isConcatenate)⟩

theorem operators_kept (id : StageId) (stage : Stage) (found : graph.stage? id = some stage) :
    ∃ other, current.stage? id = some other ∧ ∀ key operator,
      stage.plan.get? key = some operator → ∃ changed, other.plan.get? key = some changed := by
  obtain ⟨other, isStage, repairedStage⟩ := repaired.kept id stage found
  refine ⟨other, isStage, fun key operator foundToo => ?_⟩
  have sameGet := congrArg (fun plan : SubPlan => plan.get? key) repairedStage.shape
  simp only [SubPlan.get?_relabel, foundToo, Option.map_some] at sameGet
  obtain ⟨changed, foundChanged, -⟩ := Option.map_eq_some_iff.mp sameGet.symm
  exact ⟨changed, foundChanged⟩

theorem ne_nextId {id : StageId} {other : Stage} (isStage : current.stage? id = some other) :
    id ≠ ⟨current.nextId⟩ :=
  ne_nextId_of_below repaired.below isStage

theorem stage?_nextId : graph.stage? ⟨current.nextId⟩ = none := by
  cases isStage : graph.stage? ⟨current.nextId⟩ with
  | none => rfl
  | some other =>
      obtain ⟨_, foundToo, -⟩ := repaired.kept _ other isStage
      exact absurd rfl (repaired.ne_nextId foundToo)

theorem ne_concatenate {id : StageId} (found : graph.stage? id = some stage)
    (member : ((source, join), concatenate) ∈ inserted) : concatenate ≠ id := by
  rintro rfl
  exact Option.some_ne_none stage (found.symm.trans (repaired.fresh source join _ member))

theorem stage?_withConcatenate_of_some {id : StageId} {other : Stage}
    (isStage : current.stage? id = some other) :
    (current.withConcatenate source join).stage? id = some other := by
  rw [stage?_withConcatenate, if_neg (repaired.ne_nextId isStage), isStage]

theorem insert (found : graph.stage? join = some stage) (loads : stage.plan.LoadsStage source)
    (room : current.nextId.toNat + 1 < UInt64.size) :
    graph.RepairedStages (((source, join), ⟨current.nextId⟩) :: inserted)
      (current.withConcatenate source join) := by
  have grows : current.nextId < current.nextId + 1 := lt_add_one room
  constructor
  case kept =>
    intro id other isStage
    obtain ⟨changed, foundChanged, repairedStage⟩ := repaired.kept id other isStage
    exact ⟨changed, repaired.stage?_withConcatenate_of_some foundChanged,
      repairedStage.mono fun entry member => List.mem_cons_of_mem _ member⟩
  case fresh =>
    intro source' join' concatenate member
    rcases List.mem_cons.mp member with same | old
    · cases same
      exact repaired.stage?_nextId
    · exact repaired.fresh source' join' concatenate old
  case concatenates =>
    intro source' join' concatenate member
    rcases List.mem_cons.mp member with same | old
    · cases same
      exact ⟨_, by rw [stage?_withConcatenate, if_pos rfl]⟩
    · obtain ⟨info, isStage⟩ := repaired.concatenates source' join' concatenate old
      exact ⟨info, repaired.stage?_withConcatenate_of_some isStage⟩
  case loaded =>
    intro source' join' concatenate member
    rcases List.mem_cons.mp member with same | old
    · cases same
      exact ⟨stage, found, loads⟩
    · exact repaired.loaded source' join' concatenate old
  case nodup =>
    rw [List.map_cons, List.nodup_cons]
    refine ⟨fun member => ?_, repaired.nodup⟩
    obtain ⟨⟨⟨source', join'⟩, _⟩, old, rfl⟩ := List.mem_map.mp member
    obtain ⟨info, isStage⟩ := repaired.concatenates source' join' _ old
    exact repaired.ne_nextId isStage rfl
  case only =>
    intro id other isStage
    rw [stage?_withConcatenate] at isStage
    split at isStage
    case isTrue isNext => exact .inr ⟨source, join, isNext ▸ List.mem_cons_self⟩
    case isFalse =>
      refine (repaired.only id other isStage).imp (fun old => old) ?_
      rintro ⟨source', join', member⟩
      exact ⟨source', join', List.mem_cons_of_mem _ member⟩
  case below =>
    intro id other isStage
    rw [stage?_withConcatenate] at isStage
    split at isStage
    case isTrue isNext =>
      rw [isNext]
      exact grows
    case isFalse => exact UInt64.lt_trans (repaired.below id other isStage) grows

variable {load : OpId} {operator : Operator} {reader : Stage}

theorem repoint (found : graph.stage? stage.id = some stage)
    (foundLoad : stage.plan.get? load = some operator)
    (isLoad : operator.operation = .load (.stage source))
    (replicated : stage.plan.Replicated operator.id)
    (member : ((source, stage.id), concatenate) ∈ inserted)
    (currentJoin : current.stage? stage.id = some reader) :
    graph.RepairedStages inserted (current.withPlan stage.id source
      (reader.plan.modify load fun operator =>
        { operator with operation := .load (.stage concatenate) })) := by
  constructor
  case kept =>
    intro id other isStage
    rw [stage?_withPlan]
    by_cases same : id = stage.id
    · subst same
      obtain rfl := Option.some.inj (found.symm.trans isStage)
      rw [if_pos rfl, currentJoin, Option.map_some]
      exact ⟨_, rfl, (repaired.repairedStage found currentJoin).repoint foundLoad isLoad replicated
        member⟩
    · rw [if_neg same]
      exact repaired.kept id other isStage
  case fresh => exact repaired.fresh
  case concatenates =>
    intro source' join' concatenate' old
    rw [stage?_withPlan, if_neg (repaired.ne_concatenate found old)]
    exact repaired.concatenates source' join' concatenate' old
  case loaded => exact repaired.loaded
  case nodup => exact repaired.nodup
  case only =>
    intro id other isStage
    rw [stage?_withPlan] at isStage
    split at isStage
    case isTrue same => exact .inl ⟨stage, same ▸ found⟩
    case isFalse => exact repaired.only id other isStage
  case below =>
    intro id other isStage
    rw [stage?_withPlan] at isStage
    split at isStage
    case isTrue same => exact repaired.below id reader (same ▸ currentJoin)
    case isFalse => exact repaired.below id other isStage

end RepairedStages

theorem mem_edges_withConcatenate_of_ne {edge : Edge} (isOld : edge ∈ current.edges.elements)
    (different : edge ≠ ⟨source, join⟩) :
    edge ∈ (current.withConcatenate source join).edges.elements :=
  mem_edges_withConcatenate.mpr (.inr (.inr ⟨different, isOld⟩))

/-- Inserting a concatenate stage on an edge of the original graph. -/
theorem Repaired.insert (repaired : graph.Repaired inserted none current)
    (found : graph.stage? join = some stage) (loads : stage.plan.LoadsStage source)
    {sourceStage : Stage} (foundSource : graph.stage? source = some sourceStage)
    (room : current.nextId.toNat + 1 < UInt64.size) :
    graph.Repaired (((source, join), ⟨current.nextId⟩) :: inserted) (some ⟨source, join⟩)
      (current.withConcatenate source join) := by
  refine { repaired.toRepairedStages.insert found loads room with
    edges := ?edges, through := ?through, continued := ?continued, backed := ?backed }
  case edges =>
    intro edge member
    rcases mem_edges_withConcatenate.mp member with rfl | rfl | ⟨-, isOld⟩
    · exact .inr ⟨source, join, _, List.mem_cons_self, .inr rfl⟩
    · exact .inr ⟨source, join, _, List.mem_cons_self, .inl rfl⟩
    · refine (repaired.edges edge isOld).imp (fun old => old) ?_
      rintro ⟨source', join', concatenate, member, ends⟩
      exact ⟨source', join', concatenate, List.mem_cons_of_mem _ member, ends⟩
  case through =>
    intro source' join' concatenate member
    rcases List.mem_cons.mp member with same | old
    · cases same
      exact ⟨mem_edges_withConcatenate.mpr (.inr (.inl rfl)),
        mem_edges_withConcatenate.mpr (.inl rfl)⟩
    · obtain ⟨into, outOf⟩ := repaired.through source' join' concatenate old
      refine ⟨mem_edges_withConcatenate_of_ne into fun same => ?_,
        mem_edges_withConcatenate_of_ne outOf fun same => ?_⟩
      · exact repaired.ne_concatenate found old (congrArg Edge.later same)
      · exact repaired.ne_concatenate foundSource old (congrArg Edge.earlier same)
  case continued =>
    intro edge member
    by_cases same : edge = ⟨source, join⟩
    · subst same
      exact .inr ⟨_, List.mem_cons_self⟩
    · rcases repaired.continued edge member with isOld | ⟨concatenate, old⟩
      · exact .inl (mem_edges_withConcatenate_of_ne isOld same)
      · exact .inr ⟨concatenate, List.mem_cons_of_mem _ old⟩
  case backed =>
    intro id other isStage source' loadsSource
    rw [stage?_withConcatenate] at isStage
    split at isStage
    case isTrue isNext =>
      obtain rfl := Option.some.inj isStage
      obtain rfl := loadsStage_concatenatePlan.mp loadsSource
      rw [isNext]
      exact .inl (mem_edges_withConcatenate.mpr (.inr (.inl rfl)))
    case isFalse =>
      rcases repaired.backed id other isStage source' loadsSource with isOld | isPending
      · by_cases same : (⟨source', id⟩ : Edge) = ⟨source, join⟩
        · exact .inr (congrArg some same.symm)
        · exact .inl (mem_edges_withConcatenate_of_ne isOld same)
      · exact nomatch isPending

/-- The edges still back every load once a load is repointed. -/
theorem backed_withPlan {load : OpId} {reader : Stage} {pending : Edge}
    (backed : ∀ id other, current.stage? id = some other → ∀ source,
      other.plan.LoadsStage source →
        ⟨source, id⟩ ∈ current.edges.elements ∨ some pending = some ⟨source, id⟩)
    (isPending : pending = ⟨source, join⟩) (outOf : ⟨concatenate, join⟩ ∈ current.edges.elements)
    (currentJoin : current.stage? join = some reader) {plan : SubPlan}
    (isPlan : plan = reader.plan.modify load fun operator =>
      { operator with operation := .load (.stage concatenate) })
    {id : StageId} {other : Stage}
    (isStage : (current.withPlan join source plan).stage? id = some other)
    {source' : StageId} (loads : other.plan.LoadsStage source') :
    ⟨source', id⟩ ∈ (current.withPlan join source plan).edges.elements := by
  have isOld {id : StageId} {other : Stage} (different : (⟨source', id⟩ : Edge) ≠ ⟨source, join⟩)
      (isStage : current.stage? id = some other) (loads : other.plan.LoadsStage source') :
      ⟨source', id⟩ ∈ current.edges.elements := by
    rcases backed id other isStage source' loads with isEdge | same
    · exact isEdge
    · exact absurd ((Option.some.inj same).symm.trans isPending) different
  rw [stage?_withPlan] at isStage
  by_cases same : (⟨source', id⟩ : Edge) = ⟨source, join⟩
  · obtain ⟨rfl, rfl⟩ := (Edge.mk.injEq ..).mp same
    rw [if_pos rfl, currentJoin, Option.map_some] at isStage
    obtain rfl := Option.some.inj isStage
    have stillLoads : plan.stageInputs.contains source' = true := loadsStage_iff.mpr loads
    simp only [withPlan, stillLoads, if_true]
    exact OrderedSet.mem_insert.mpr (.inl rfl)
  · refine (mem_edges_withPlan same).mpr ?_
    split at isStage
    case isFalse => exact isOld same isStage loads
    case isTrue atJoin =>
      subst atJoin
      rw [currentJoin, Option.map_some] at isStage
      obtain rfl := Option.some.inj isStage
      obtain ⟨reading, inPlan, isLoad⟩ := loads
      obtain ⟨key, foundReading⟩ := SubPlan.mem_operators.mp inPlan
      simp only [isPlan, SubPlan.get?_modify] at foundReading
      split at foundReading
      case isTrue =>
        obtain ⟨_, -, rfl⟩ := Option.map_eq_some_iff.mp foundReading
        cases isLoad
        exact outOf
      case isFalse =>
        exact isOld same currentJoin
          ⟨reading, SubPlan.mem_operators.mpr ⟨key, foundReading⟩, isLoad⟩

/-- Repointing a replicated load to a concatenate stage of its source. -/
theorem Repaired.repoint {load : OpId} {operator : Operator} {reader sourceStage : Stage}
    (repaired : graph.Repaired inserted (some ⟨source, stage.id⟩) current)
    (found : graph.stage? stage.id = some stage)
    (foundSource : graph.stage? source = some sourceStage)
    (isEdge : ⟨source, stage.id⟩ ∈ graph.edges.elements)
    (foundLoad : stage.plan.get? load = some operator)
    (isLoad : operator.operation = .load (.stage source))
    (replicated : stage.plan.Replicated operator.id)
    (member : ((source, stage.id), concatenate) ∈ inserted)
    (currentJoin : current.stage? stage.id = some reader) :
    graph.Repaired inserted none (current.withPlan stage.id source
      (reader.plan.modify load fun operator =>
        { operator with operation := .load (.stage concatenate) })) := by
  refine { repaired.toRepairedStages.repoint found foundLoad isLoad replicated member currentJoin
    with edges := ?edges, through := ?through, continued := ?continued, backed := ?backed }
  case edges =>
    intro edge isCurrent
    by_cases same : edge = ⟨source, stage.id⟩
    · exact .inl (same ▸ isEdge)
    · exact repaired.edges edge ((mem_edges_withPlan same).mp isCurrent)
  case through =>
    intro source' join' concatenate' old
    obtain ⟨into, outOf⟩ := repaired.through source' join' concatenate' old
    refine ⟨(mem_edges_withPlan fun same => ?_).mpr into,
      (mem_edges_withPlan fun same => ?_).mpr outOf⟩
    · exact repaired.ne_concatenate found old (congrArg Edge.later same)
    · exact repaired.ne_concatenate foundSource old (congrArg Edge.earlier same)
  case continued =>
    intro edge isOld
    by_cases same : edge = ⟨source, stage.id⟩
    · subst same
      exact .inr ⟨concatenate, member⟩
    · exact (repaired.continued edge isOld).imp (mem_edges_withPlan same).mpr fun old => old
  case backed =>
    intro id other isStage source' loads
    exact .inl (backed_withPlan repaired.backed rfl (repaired.through _ _ _ member).2 currentJoin
      rfl isStage loads)

/-- A decision to concatenate is about a replicated load of a stage. -/
def Sound (graph : StageGraph) (verdict : SideVerdict) : Prop :=
  ∀ source files, verdict.decision = .concatenate source files →
    ∃ stage operator, graph.stage? verdict.stage = some stage ∧
      stage.plan.get? verdict.load = some operator ∧
        operator.operation = .load (.stage source) ∧ stage.plan.Replicated operator.id

theorem Repaired.editable (repaired : graph.Repaired inserted none current) :
    graph.Editable inserted current where
  kept := repaired.operators_kept
  below := repaired.below
  continued := repaired.continued

/-- Once the concatenate stage is provided, the load remains to be repointed. -/
theorem Repaired.provided {between : StageGraph} {more : Inserted} {feeder : Stage}
    (repaired : graph.Repaired inserted none current)
    (provided : Provided inserted current source join concatenate more between)
    (found : graph.stage? join = some stage) (loads : stage.plan.LoadsStage source)
    (foundSource : graph.stage? source = some feeder) (room : between.HasRoom) :
    graph.Repaired more (some ⟨source, join⟩) between := by
  cases provided with
  | already => exact repaired.await _
  | now => exact repaired.insert found loads foundSource room.next

section CarryOut

variable (built : graph.Built)

include built

/-- Carrying out a sound decision succeeds and adds to the record. -/
theorem Repaired.apply {verdict : SideVerdict} (sound : graph.Sound verdict)
    (feasible : graph.Feasible verdict) {done : List (SideVerdict × RepairState)}
    (repaired : graph.Repaired inserted none current) (tracked : CarriedOut done inserted current)
    (room : HasRoom (stateOf (JoinRepair.apply inserted verdict current))) :
    ∃ applied next, JoinRepair.apply inserted verdict current = .ok applied next ∧
      graph.Repaired applied.2 none next ∧
        CarriedOut (done ++ [(verdict, applied.1)]) applied.2 next := by
  cases decision : verdict.decision with
  | skip reason =>
      rw [apply_of_skip decision]
      exact ⟨_, current, rfl, repaired, tracked.skip decision⟩
  | concatenate source files =>
      obtain ⟨stage, operator, found, foundLoad, isLoad, replicated⟩ := sound source files decision
      have loads : stage.plan.LoadsStage source :=
        ⟨operator, SubPlan.mem_operators.mpr ⟨_, foundLoad⟩, isLoad⟩
      obtain ⟨isEdge, -⟩ := feasible source files decision
      obtain ⟨-, ⟨feeder, foundSource⟩, -⟩ := built.edges _ isEdge
      obtain ⟨concatenate, more, between, reader, provided, isJoin, carriedOut⟩ :=
        repaired.editable.apply_concatenate built feasible decision
      rw [carriedOut] at room
      have roomBetween : between.HasRoom := fun id member => room id (mem_stageIds_withPlan member)
      have repairedBetween := repaired.provided provided found loads foundSource roomBetween
      obtain ⟨_, isJoinToo, operators⟩ :=
        (repaired.editable.provided provided roomBetween).kept _ stage found
      obtain rfl := Option.some.inj (isJoin.symm.trans isJoinToo)
      obtain ⟨changed, foundChanged⟩ := operators verdict.load operator foundLoad
      refine ⟨_, _, carriedOut, ?_,
        tracked.repoint repaired.below provided isJoin foundChanged⟩
      have member := provided.member
      have ownId := built.ownId verdict.stage stage found
      rw [← ownId] at repairedBetween found isEdge member isJoin ⊢
      exact repairedBetween.repoint found foundSource isEdge foundLoad isLoad replicated member
        isJoin

/-- Carrying out sound decisions one after another succeeds. -/
theorem Repaired.repairSides {verdicts : List SideVerdict}
    (sound : ∀ verdict ∈ verdicts, graph.Sound verdict ∧ graph.Feasible verdict)
    {done : List (SideVerdict × RepairState)} (repaired : graph.Repaired inserted none current)
    (tracked : CarriedOut done inserted current)
    (room : HasRoom (stateOf (Pass.repairSides inserted verdicts current))) :
    ∃ entries next more, entries.map Prod.fst = verdicts ∧
      Pass.repairSides inserted verdicts current = .ok (entries.map reported) next ∧
        graph.Repaired more none next ∧ CarriedOut (done ++ entries) more next := by
  have carryOut (verdict : SideVerdict) (isVerdict : verdict ∈ verdicts)
      (done : List (SideVerdict × RepairState)) (inserted : Inserted) (current : StageGraph)
      (both : graph.Repaired inserted none current ∧ CarriedOut done inserted current) :=
    both.1.apply built (sound verdict isVerdict).1 (sound verdict isVerdict).2 both.2
  exact exists_repairSides
    (fun done inserted current => graph.Repaired inserted none current ∧
      CarriedOut done inserted current) done carryOut ⟨repaired, tracked⟩ room

end CarryOut

end StageGraph

end BatchFlow
