import BatchFlow.Proofs.Graph.Walk

/-!
# Orders that pass the check

The check of an order looks for the predecessors of each stage among those seen before, and
counts in the end.  So it passes exactly the lists without repetition that have as many
elements as the graph has stages, each after its predecessors.  It never asks whether a listed
stage exists: a stage unknown to the graph may stand for one that is missing.
-/

namespace BatchFlow

namespace StageGraph

variable {graph : StageGraph} {id : StageId} {seen rest : List StageId}

theorem checkOrderFrom_cons :
    graph.checkOrderFrom seen (id :: rest) = .ok () ↔
      (∀ predecessor ∈ graph.predecessors id, predecessor ∈ seen) ∧ id ∉ seen ∧
        graph.checkOrderFrom (id :: seen) rest = .ok () := by
  have allSeen : ((graph.predecessors id).find? fun predecessor => !seen.contains predecessor) =
      none ↔ ∀ predecessor ∈ graph.predecessors id, predecessor ∈ seen := by
    simp
  rw [checkOrderFrom, ← allSeen]
  cases (graph.predecessors id).find? fun predecessor => !seen.contains predecessor with
  | some predecessor => simp
  | none => by_cases repeated : id ∈ seen <;> simp [repeated]

/-- What has been seen, the latest first, is an order so far; the check asks whether the whole
list is one. -/
theorem checkOrderFrom_eq_ok (ordered : graph.PredecessorsFirst seen.reverse)
    (nodup : seen.Nodup) :
    graph.checkOrderFrom seen rest = .ok () ↔
      (seen.reverse ++ rest).Nodup ∧ (seen.reverse ++ rest).length = graph.size ∧
        graph.PredecessorsFirst (seen.reverse ++ rest) := by
  induction rest generalizing seen with
  | nil =>
      rw [checkOrderFrom]
      simp [ordered, nodup]
  | cons id rest ih =>
      have onward : seen.reverse ++ id :: rest = (id :: seen).reverse ++ rest := by simp
      rw [checkOrderFrom_cons]
      constructor
      · rintro ⟨allSeen, fresh, passes⟩
        have nextOrdered : graph.PredecessorsFirst (id :: seen).reverse := by
          rw [List.reverse_cons]
          exact ordered.concat fun predecessor isPredecessor =>
            List.mem_reverse.mpr (allSeen predecessor isPredecessor)
        rw [onward]
        exact (ih nextOrdered (List.nodup_cons.mpr ⟨fresh, nodup⟩)).mp passes
      · rintro ⟨wholeNodup, length, wholeOrdered⟩
        have allSeen : ∀ predecessor ∈ graph.predecessors id, predecessor ∈ seen :=
          fun predecessor isPredecessor =>
            List.mem_reverse.mp (wholeOrdered _ id rest rfl predecessor isPredecessor)
        rw [onward] at wholeNodup length wholeOrdered
        have nextNodup : (id :: seen).Nodup := List.nodup_reverse.mp wholeNodup.of_append_left
        exact ⟨allSeen, (List.nodup_cons.mp nextNodup).1,
          (ih wholeOrdered.left nextNodup).mpr ⟨wholeNodup, length, wholeOrdered⟩⟩

/-- Where there are as many elements as stages, all of them stages, none is missing. -/
theorem exactly_stages_iff {order : List StageId} (nodup : order.Nodup) :
    (∀ id, id ∈ order ↔ ∃ stage, graph.stage? id = some stage) ↔
      order.length = graph.size ∧ ∀ id ∈ order, ∃ stage, graph.stage? id = some stage := by
  simp only [← mem_stageIds, ← length_stageIds]
  constructor
  · intro exactly
    have perm := (List.perm_ext_iff_of_nodup nodup graph.nodup_stageIds).mpr exactly
    exact ⟨perm.length_eq, fun id => (exactly id).mp⟩
  · rintro ⟨length, exist⟩ id
    have among : order.Subperm graph.stageIds := List.subperm_of_subset nodup exist
    exact (among.perm_of_length_le length.ge).mem_iff

/-- The check passes the lists without repetition of as many elements as there are stages, each
after its predecessors.  The orders of the graph are those among them that list no stage
unknown to the graph. -/
theorem checkOrder_correct (graph : StageGraph) (order : List StageId) :
    (graph.checkOrder order = .ok () ↔
      order.Nodup ∧ order.length = graph.size ∧ graph.PredecessorsFirst order) ∧
    (order.Nodup ∧ (∀ id, id ∈ order ↔ ∃ stage, graph.stage? id = some stage) ∧
        graph.PredecessorsFirst order ↔
      graph.checkOrder order = .ok () ∧
        ∀ id ∈ order, ∃ stage, graph.stage? id = some stage) := by
  have nothingFirst : graph.PredecessorsFirst ([] : List StageId).reverse := by
    simp [PredecessorsFirst]
  have passes : graph.checkOrder order = .ok () ↔
      order.Nodup ∧ order.length = graph.size ∧ graph.PredecessorsFirst order :=
    checkOrderFrom_eq_ok nothingFirst List.nodup_nil
  refine ⟨passes, ?_⟩
  rw [passes]
  constructor
  · rintro ⟨nodup, exactly, ordered⟩
    obtain ⟨length, exist⟩ := (exactly_stages_iff nodup).mp exactly
    exact ⟨⟨nodup, length, ordered⟩, exist⟩
  · rintro ⟨⟨nodup, length, ordered⟩, exist⟩
    exact ⟨nodup, (exactly_stages_iff nodup).mpr ⟨length, exist⟩, ordered⟩

/-- A graph of two stages, the first of which must complete before the second. -/
def twoStages : StageGraph :=
  ⟨(OrderedMap.insert ∅ ⟨0⟩ ⟨⟨0⟩, .ordinary, .empty, {}⟩).insert
    ⟨1⟩ ⟨⟨1⟩, .ordinary, .empty, {}⟩, .ofList [⟨⟨0⟩, ⟨1⟩⟩], 2⟩

/-- A list that leaves out the second stage passes when it names a stage unknown to the graph. -/
theorem checkOrder_twoStages_unknown :
    twoStages.checkOrder [⟨0⟩, ⟨7⟩] = .ok () ∧
      (∃ stage, twoStages.stage? ⟨1⟩ = some stage) ∧ (⟨1⟩ : StageId) ∉ [⟨0⟩, (⟨7⟩ : StageId)] ∧
        ¬ ∃ stage, twoStages.stage? ⟨7⟩ = some stage := by
  refine ⟨rfl, ⟨_, rfl⟩, by decide, ?_⟩
  rw [← contains_stageMap]
  decide

end StageGraph

end BatchFlow
