import BatchFlow.Proofs.Optimizer.JoinRepair

/-!
# The edges while join repair is carried out

Between two repointed loads, the edges are those of the original graph, less those on which
a concatenate stage stands and which no load needs any more, and those of the concatenate
stages.  Carrying out a decision takes an edge away, and puts it back as long as other loads
of the stage still read from its source.
-/

namespace BatchFlow

open JoinRepair

theorem SubPlan.loadsStage_modify {plan : SubPlan} {load : OpId} {changed : Operator}
    {before after source : StageId} (found : plan.get? load = some changed)
    (isLoad : changed.operation = .load (.stage before)) (notBefore : before ≠ source)
    (notAfter : after ≠ source) :
    (plan.modify load fun operator =>
      { operator with operation := .load (.stage after) }).LoadsStage source ↔
        plan.LoadsStage source := by
  constructor
  · rintro ⟨operator, inPlan, isSource⟩
    obtain ⟨key, foundKey⟩ := mem_operators.mp inPlan
    rw [get?_modify] at foundKey
    split at foundKey
    case isTrue =>
      obtain ⟨_, -, rfl⟩ := Option.map_eq_some_iff.mp foundKey
      cases isSource
      exact absurd rfl notAfter
    case isFalse => exact ⟨operator, mem_operators.mpr ⟨key, foundKey⟩, isSource⟩
  · rintro ⟨operator, inPlan, isSource⟩
    obtain ⟨key, foundKey⟩ := mem_operators.mp inPlan
    have otherKey : key ≠ load := by
      rintro rfl
      obtain rfl := Option.some.inj (found.symm.trans foundKey)
      cases isLoad.symm.trans isSource
      exact notBefore rfl
    exact ⟨operator, mem_operators.mpr ⟨key, by rw [get?_modify, if_neg otherKey, foundKey]⟩,
      isSource⟩

namespace StageGraph

variable {graph current between : StageGraph} {inserted more : Inserted}
  {source join concatenate : StageId} {stage reader : Stage} {edge : Edge}

def Loads (graph : StageGraph) (source join : StageId) : Prop :=
  ∃ stage, graph.stage? join = some stage ∧ stage.plan.LoadsStage source

/-- An edge to or from an inserted concatenate stage. -/
def TouchesConcatenate (inserted : Inserted) (edge : Edge) : Prop :=
  ∃ source join concatenate, ((source, join), concatenate) ∈ inserted ∧
    (edge = ⟨source, concatenate⟩ ∨ edge = ⟨concatenate, join⟩)

/-- An edge of the original graph that is still needed: no concatenate stage stands on it, or
a load of its later stage still reads from the earlier one. -/
def Remains (graph : StageGraph) (inserted : Inserted) (current : StageGraph) (edge : Edge) :
    Prop :=
  edge ∈ graph.edges.elements ∧ ∀ concatenate,
    ((edge.earlier, edge.later), concatenate) ∈ inserted → current.Loads edge.earlier edge.later

/-- Whether an edge is there is as it should be: it remains, or a concatenate stage has it. -/
def SettledEdge (graph : StageGraph) (inserted : Inserted) (current : StageGraph) (edge : Edge) :
    Prop :=
  edge ∈ current.edges.elements ↔
    graph.Remains inserted current edge ∨ TouchesConcatenate inserted edge

theorem settledEdge_initial (graph : StageGraph) (edge : Edge) :
    graph.SettledEdge [] graph edge := by
  simp [SettledEdge, Remains, TouchesConcatenate]

theorem touchesConcatenate_cons :
    TouchesConcatenate (((source, join), concatenate) :: inserted) edge ↔
      edge = ⟨concatenate, join⟩ ∨ edge = ⟨source, concatenate⟩ ∨
        TouchesConcatenate inserted edge := by
  constructor
  · rintro ⟨source', join', concatenate', member, ends⟩
    rcases List.mem_cons.mp member with same | old
    · cases same
      rcases ends with isInto | isOutOf
      · exact .inr (.inl isInto)
      · exact .inl isOutOf
    · exact .inr (.inr ⟨source', join', concatenate', old, ends⟩)
  · rintro (isOutOf | isInto | ⟨source', join', concatenate', old, ends⟩)
    · exact ⟨source, join, concatenate, List.mem_cons_self, .inr isOutOf⟩
    · exact ⟨source, join, concatenate, List.mem_cons_self, .inl isInto⟩
    · exact ⟨source', join', concatenate', List.mem_cons_of_mem _ old, ends⟩

theorem remains_congr {later : StageGraph}
    (sameEntries : edge ∈ graph.edges.elements → ∀ concatenate,
      ((edge.earlier, edge.later), concatenate) ∈ more ↔
        ((edge.earlier, edge.later), concatenate) ∈ inserted)
    (sameLoads : edge ∈ graph.edges.elements →
      (later.Loads edge.earlier edge.later ↔ current.Loads edge.earlier edge.later)) :
    graph.Remains more later edge ↔ graph.Remains inserted current edge := by
  refine and_congr_right fun isEdge => forall_congr' fun concatenate => ?_
  rw [sameEntries isEdge, sameLoads isEdge]

theorem mem_edges_withPlan_self {plan : SubPlan} :
    ⟨source, join⟩ ∈ (current.withPlan join source plan).edges.elements ↔
      plan.LoadsStage source := by
  rw [withPlan, ← loadsStage_iff]
  dsimp only
  split
  case isTrue stillLoads => exact iff_of_true (OrderedSet.mem_insert.mpr (.inl rfl)) stillLoads
  case isFalse noLoad =>
    refine iff_of_false (fun isEdge => ?_) noLoad
    exact (OrderedSet.mem_erase.mp isEdge).1 rfl

theorem loads_withPlan (isJoin : current.stage? join = some reader) {plan : SubPlan}
    {other : StageId} : (current.withPlan join source plan).Loads other join ↔
      plan.LoadsStage other := by
  rw [Loads, stage?_withPlan_self isJoin]
  constructor
  · rintro ⟨_, same, loads⟩
    cases same
    exact loads
  · exact fun loads => ⟨_, rfl, loads⟩

namespace RepairedStages

variable (built : graph.Built)

include built

theorem not_touchesConcatenate (repaired : graph.RepairedStages inserted current)
    (isEdge : edge ∈ graph.edges.elements) : ¬ TouchesConcatenate inserted edge := by
  obtain ⟨-, ⟨earlier, foundEarlier⟩, ⟨later, foundLater⟩⟩ := built.edges edge isEdge
  rintro ⟨source, join, concatenate, member, rfl | rfl⟩
  · exact repaired.ne_concatenate foundLater member rfl
  · exact repaired.ne_concatenate foundEarlier member rfl

/-- Providing a concatenate stage for an edge settles every other edge. -/
theorem settledEdge_provided (repaired : graph.RepairedStages inserted current)
    (provided : Provided inserted current source join concatenate more between)
    (settled : graph.SettledEdge inserted current edge) (different : edge ≠ ⟨source, join⟩) :
    graph.SettledEdge more between edge := by
  cases provided with
  | already => exact settled
  | now =>
      have remains : graph.Remains (((source, join), ⟨current.nextId⟩) :: inserted)
          (current.withConcatenate source join) edge ↔ graph.Remains inserted current edge := by
        refine remains_congr (fun _ concatenate => ?_) fun isEdge => ?_
        · rw [List.mem_cons, or_iff_right]
          intro same
          obtain ⟨⟨earlier, later⟩, -⟩ := (Prod.mk.injEq ..).mp same
          exact different rfl
        · obtain ⟨-, -, stage, found⟩ := built.edges edge isEdge
          obtain ⟨other, isStage, -⟩ := repaired.kept _ stage found
          rw [Loads, repaired.stage?_withConcatenate_of_some isStage, Loads, isStage]
      rw [SettledEdge] at settled
      rw [SettledEdge, mem_edges_withConcatenate, touchesConcatenate_cons, remains, settled]
      tauto

/-- Repointing a load to the concatenate stage of its source settles the edge from it. -/
theorem settledEdge_repoint (repaired : graph.RepairedStages inserted current)
    (isEdge : ⟨source, join⟩ ∈ graph.edges.elements) (found : graph.stage? join = some stage)
    {load : OpId} {operator : Operator} (foundLoad : stage.plan.get? load = some operator)
    (isLoad : operator.operation = .load (.stage source))
    (member : ((source, join), concatenate) ∈ inserted)
    (isJoin : current.stage? join = some reader)
    (settled : ∀ edge, edge ≠ ⟨source, join⟩ → graph.SettledEdge inserted current edge)
    (edge : Edge) :
    graph.SettledEdge inserted (current.withPlan join source
      (reader.plan.modify load fun operator =>
        { operator with operation := .load (.stage concatenate) })) edge := by
  by_cases same : edge = ⟨source, join⟩
  · subst same
    rw [SettledEdge, mem_edges_withPlan_self,
      or_iff_left (repaired.not_touchesConcatenate built isEdge), Remains, loads_withPlan isJoin]
    exact ⟨fun loads => ⟨isEdge, fun _ _ => loads⟩, fun remains => remains.2 concatenate member⟩
  · rw [SettledEdge, mem_edges_withPlan same]
    refine (settled edge same).trans
      (or_congr_left (remains_congr (fun _ _ => Iff.rfl) fun isOld => ?_).symm)
    by_cases atJoin : edge.later = join
    case neg => rw [Loads, stage?_withPlan, if_neg atJoin, Loads]
    case pos =>
      obtain ⟨earlier, later⟩ := edge
      subst atJoin
      obtain ⟨-, ⟨feeder, foundEarlier⟩, -⟩ := built.edges _ isOld
      obtain ⟨changed, foundChanged⟩ : ∃ changed, reader.plan.get? load = some changed := by
        obtain ⟨_, isStage, operators⟩ := repaired.operators_kept _ stage found
        obtain rfl := Option.some.inj (isJoin.symm.trans isStage)
        exact operators load operator foundLoad
      -- the load reads from its source still, or from a concatenate stage already
      obtain ⟨before, isBefore, notEarlier⟩ :
          ∃ before, changed.operation = .load (.stage before) ∧ before ≠ earlier := by
        rcases (repaired.repairedStage found isJoin).operators load operator changed foundLoad
          foundChanged with rfl | ⟨_, before, -, -, memberToo, rfl⟩
        · exact ⟨source, isLoad, fun isSource => same (isSource ▸ rfl)⟩
        · exact ⟨before, rfl, repaired.ne_concatenate foundEarlier memberToo⟩
      rw [loads_withPlan isJoin, SubPlan.loadsStage_modify foundChanged isBefore notEarlier
        (repaired.ne_concatenate foundEarlier member), Loads, isJoin]
      simp

end RepairedStages

end StageGraph

end BatchFlow
