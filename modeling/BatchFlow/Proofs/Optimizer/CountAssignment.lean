import BatchFlow.Proofs.Engine.DataFlow
import BatchFlow.Proofs.Optimizer.Annotation

/-!
# The assignment of file counts

Consistent counts give each stage an estimate from the counts of the stages that it
loads, and loads lead back to earlier stages.  So there is one such assignment, and
filling in counts finds it along every order in which predecessors come first.
-/

namespace BatchFlow

open Results

namespace StageGraph

variable {graph left right : StageGraph} {catalog : String → Option UInt32} {config : EngineConfig}
  {rank : StageId → Nat}

/-- Two consistent assignments agree at a stage if they agree at all stages of lower rank. -/
theorem ConsistentCounts.stage?_eq (backed : graph.Backed) (ranked : graph.Ranked rank)
    (first : graph.ConsistentCounts catalog config left)
    (second : graph.ConsistentCounts catalog config right) (id : StageId) :
    left.stage? id = right.stage? id := by
  -- By induction on the rank, as loads lead to stages of lower rank.
  induction isRank : rank id using Nat.strong_induction_on generalizing id with
  | _ bound ih =>
      rw [first.stages id, second.stages id]
      cases found : graph.stage? id with
      | none => rfl
      | some stage =>
          have sameFiles : ∀ operator ∈ stage.plan.operators, ∀ source,
              operator.operation = .load source →
                left.filesOf catalog source = right.filesOf catalog source := by
            intro operator inPlan source isLoad
            cases source with
            | dataset path => rfl
            | stage source =>
                have precedes : ⟨source, id⟩ ∈ graph.edges.elements :=
                  mem_predecessors.mp (backed id stage found source ⟨operator, inPlan, isLoad⟩)
                have lower : rank source < bound := isRank ▸ ranked ⟨source, id⟩ precedes
                rw [filesOf, filesOf, ih (rank source) lower source rfl]
          rw [Option.map_some, Option.map_some, Stage.annotatedCount_of_loads sameFiles]

theorem ConsistentCounts.unique (backed : graph.Backed) (ranked : graph.Ranked rank)
    (first : graph.ConsistentCounts catalog config left)
    (second : graph.ConsistentCounts catalog config right) : left = right := by
  have sameStages : left.stageMap = right.stageMap :=
    OrderedMap.ext_get? (first.stage?_eq backed ranked second)
  have sameEdges : left.edges = right.edges := first.edges.trans second.edges.symm
  have sameNextId : left.nextId = right.nextId := first.nextId.trans second.nextId.symm
  cases left
  cases right
  congr

/-- Filling in counts fails exactly if the stages cannot be ordered, and before it changes
anything.  Otherwise, if every stage waits for those it loads, it gives the graph with consistent
counts: there is only one, every order with predecessors first leads to it, and the number
returned is that of the stages whose count was unknown and is known. -/
theorem annotateOutputFiles_unique (graph : StageGraph) (catalog : String → Option UInt32)
    (config : EngineConfig) :
    (∀ error, graph.annotateOutputFiles catalog config = .error error ↔
      graph.order = .error error) ∧
    ((∃ order, graph.order = .ok order) → graph.Backed →
      ∃ next filled, graph.annotateOutputFiles catalog config = .ok (next, filled) ∧
        graph.ConsistentCounts catalog config next ∧
        (∀ other, graph.ConsistentCounts catalog config other → other = next) ∧
        (∀ order : List StageId, order.Perm graph.stageIds → graph.PredecessorsFirst order →
          order.foldl (annotateNext catalog config) (graph, 0) = (next, filled)) ∧
        filled = graph.stageIds.countP (graph.filledIn next)) := by
  constructor
  · intro error
    exact map_eq_error
  · rintro ⟨order, isOrder⟩ backed
    obtain ⟨-, rank, ranked⟩ := exists_order_iff.mp ⟨order, isOrder⟩
    obtain ⟨-, all, ordered⟩ := order_sound isOrder
    obtain ⟨next, folded, consistent⟩ :=
      consistent_foldl backed catalog config all ordered
    have isUnique (other : StageGraph)
        (isConsistent : graph.ConsistentCounts catalog config other) : other = next :=
      isConsistent.unique backed ranked consistent
    rw [all.countP_eq] at folded
    refine ⟨next, _, annotateOutputFiles_eq_ok.mpr ⟨order, isOrder, folded⟩, consistent, isUnique,
      ?_, rfl⟩
    intro other othersAll othersOrdered
    obtain ⟨same, otherFolded, isConsistent⟩ :=
      consistent_foldl backed catalog config othersAll othersOrdered
    obtain rfl := isUnique same isConsistent
    rw [otherFolded, othersAll.countP_eq]

/-- A plan that copies what three stages store. -/
def copiedThrice : SubPlan :=
  (((((SubPlan.empty.insert ⟨⟨0⟩, .load (.stage ⟨0⟩), []⟩).insert
    ⟨⟨1⟩, .load (.stage ⟨2⟩), []⟩).insert
    ⟨⟨2⟩, .load (.stage ⟨3⟩), []⟩).insert
    ⟨⟨3⟩, .store "first", [⟨0⟩]⟩).insert
    ⟨⟨4⟩, .store "second", [⟨1⟩]⟩).insert
    ⟨⟨5⟩, .store "third", [⟨2⟩]⟩

/-- A graph in which one stage loads three others: one with an estimated count, one that merges
an unknown number of files, and one with a known count. -/
def mixedCounts : StageGraph :=
  ⟨((((OrderedMap.insert ∅ ⟨0⟩ ⟨⟨0⟩, .ordinary, copyPlan (.dataset "sales") "sold", {}⟩).insert
    ⟨1⟩ ⟨⟨1⟩, .ordinary, copyPlan (.dataset "visits") "seen", {}⟩).insert
    ⟨2⟩ ⟨⟨2⟩, .concatenate, copyPlan (.stage ⟨1⟩) "merged", {}⟩).insert
    ⟨3⟩ ⟨⟨3⟩, .ordinary, copyPlan (.dataset "visits") "given", ⟨.known 7, none⟩⟩).insert
    ⟨4⟩ ⟨⟨4⟩, .ordinary, copiedThrice, {}⟩,
    .ofList [⟨⟨0⟩, ⟨4⟩⟩, ⟨⟨1⟩, ⟨2⟩⟩, ⟨⟨2⟩, ⟨4⟩⟩, ⟨⟨3⟩, ⟨4⟩⟩], 5⟩

theorem annotateOutputFiles_unique_mixedCounts :
    ∃ next, mixedCounts.annotateOutputFiles (fun path => if path = "sales" then some 2 else none)
        ⟨4, true, 1⟩ = .ok (next, 3) ∧
      next.stages.map (fun stage => stage.info.outputFiles) =
        [.known 2, .unknown, .known 1, .known 7, .known 10] := by
  have isOrder : mixedCounts.order = .ok [⟨0⟩, ⟨1⟩, ⟨2⟩, ⟨3⟩, ⟨4⟩] := by cbv
  have valid : mixedCounts.validate = .ok 5 := by
    rw [validate, isOrder]
    rfl
  obtain ⟨-, -, checked⟩ := validate_eq_ok_iff.mp ⟨5, valid⟩
  obtain ⟨-, all, ordered⟩ := order_sound isOrder
  obtain ⟨-, succeeds⟩ := annotateOutputFiles_unique mixedCounts
    (fun path => if path = "sales" then some 2 else none) ⟨4, true, 1⟩
  obtain ⟨next, filled, annotated, -, -, along, -⟩ :=
    succeeds ⟨_, isOrder⟩ (backed_of_valid checked)
  have folded := along _ all ordered
  have isNext : next = ([⟨0⟩, ⟨1⟩, ⟨2⟩, ⟨3⟩, ⟨4⟩].foldl (annotateNext
      (fun path => if path = "sales" then some 2 else none) ⟨4, true, 1⟩) (mixedCounts, 0)).1 := by
    rw [folded]
  have isFilled : filled = ([⟨0⟩, ⟨1⟩, ⟨2⟩, ⟨3⟩, ⟨4⟩].foldl (annotateNext
      (fun path => if path = "sales" then some 2 else none) ⟨4, true, 1⟩) (mixedCounts, 0)).2 := by
    rw [folded]
  have isThree : filled = 3 := isFilled.trans (by decide +kernel)
  refine ⟨next, isThree ▸ annotated, ?_⟩
  rw [isNext]
  decide +kernel

end StageGraph

end BatchFlow
