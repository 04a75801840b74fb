import BatchFlow.Graph.Encoding
import BatchFlow.Proofs.Plan.ShownPlans

/-!
# Graphs with the same text

The text from which the fingerprint of a graph is taken tells graphs apart but for the doubles
in their literals that are not finite.  One text for all NaNs is no loss, but the two infinities
are written like NaNs, so graphs that keep different rows may have the same fingerprint.
-/

namespace BatchFlow

section FloatFree

@[simp]
theorem FileCount.asWritten_toJson_inj {first second : FileCount} :
    first.toJson.asWritten = second.toJson.asWritten ↔ first = second := by
  cases first <;> cases second <;> simp [toJson, Json.single, Json.halfWord, UInt32.toNat_inj]

@[simp]
theorem StageKind.name_inj {first second : StageKind} :
    first.name = second.name ↔ first = second := by
  cases first <;> cases second <;> simp [name]

@[simp]
theorem StageMeta.asWritten_toJson_inj {first second : StageMeta} :
    first.toJson.asWritten = second.toJson.asWritten ↔ first = second := by
  cases first
  cases second
  simp [toJson]

@[simp]
theorem Edge.asWritten_toJson_inj {first second : Edge} :
    first.toJson.asWritten = second.toJson.asWritten ↔ first = second := by
  cases first
  cases second
  simp [toJson]

end FloatFree

namespace Stage

/-- The stage with all doubles in its literals changed. -/
def mapFloats (change : Binary64 → Binary64) (stage : Stage) : Stage :=
  { stage with plan := stage.plan.mapFloats change }

@[simp]
theorem asWritten_toJson_eq_iff {first second : Stage} :
    first.toJson.asWritten = second.toJson.asWritten ↔
      first.mapFloats Binary64.asWritten = second.mapFloats Binary64.asWritten := by
  simp [toJson, mapFloats]

end Stage

/-- The double with all NaNs taken as one. -/
def Binary64.unifyNaN (x : Binary64) : Binary64 :=
  if x.isNaN then quietNaN else x

theorem Binary64.asWritten_eq_unifyNaN {x : Binary64} (notInfinite : x.isInfinite = false) :
    x.asWritten = x.unifyNaN := by
  unfold asWritten unifyNaN
  by_cases isNaN : x.isNaN = true
  · have notFinite : ¬ x.isFinite = true := fun finite => by
      simp [isNaN_of_finite finite] at isNaN
    rw [if_neg notFinite, if_pos isNaN]
  · rw [if_pos (isFinite_of_number isNaN (by simp [notInfinite])), if_neg isNaN]

namespace StageGraph

/-- The graph with all doubles in its literals changed. -/
def mapFloats (change : Binary64 → Binary64) (graph : StageGraph) : StageGraph :=
  { graph with stageMap := graph.stageMap.mapValues (Stage.mapFloats change) }

/-- The doubles in the literals of the graph. -/
def floats (graph : StageGraph) : List Binary64 :=
  graph.stages.flatMap fun stage => stage.plan.floats

theorem mapFloats_congr {graph : StageGraph} {change other : Binary64 → Binary64}
    (same : ∀ x ∈ graph.floats, change x = other x) :
    graph.mapFloats change = graph.mapFloats other := by
  have each : graph.stageMap.mapValues (Stage.mapFloats change) =
      graph.stageMap.mapValues (Stage.mapFloats other) := by
    refine OrderedMap.ext (List.map_congr_left fun entry member => ?_)
    have inStages : entry.2 ∈ graph.stages := List.mem_map_of_mem member
    rw [Stage.mapFloats, Stage.mapFloats, SubPlan.mapFloats_congr fun x inPlan =>
      same x (List.mem_flatMap_of_mem inStages inPlan)]
  rw [mapFloats, mapFloats, each]

theorem asWritten_toJson_eq_iff {first second : StageGraph} :
    first.toJson.asWritten = second.toJson.asWritten ↔
      first.mapFloats Binary64.asWritten = second.mapFloats Binary64.asWritten := by
  have stages := Json.asWritten_numbered_eq_iff
    (fun _ _ same => congrArg StageId.mk same) Stage.toJson (Stage.mapFloats Binary64.asWritten)
    (fun _ _ => Stage.asWritten_toJson_eq_iff) first.stageMap.entries second.stageMap.entries
  simpa [toJson, mapFloats, OrderedMap.ext_iff, OrderedMap.mapValues, OrderedSet.ext_iff,
    Function.comp_def, List.map_inj_right] using
    fun (_ : first.edges.elements = second.edges.elements) (_ : first.nextId = second.nextId) =>
      stages

section Writer

variable {write : Json → String} (writer : Json.CompactWriter write)

include writer

theorem textBy_eq_iff {graph other : StageGraph} :
    other.textBy write = graph.textBy write ↔
      other.mapFloats Binary64.asWritten = graph.mapFloats Binary64.asWritten :=
  writer.eq_iff.trans asWritten_toJson_eq_iff

/-- Two graphs have the same compact text exactly if they are equal once all doubles in their
literals that are not finite are taken as one.  So where no literal is infinite, a difference in
anything but the bits of a NaN makes the texts differ. -/
theorem same_text_iff (graph other : StageGraph) :
    (other.textBy write = graph.textBy write ↔
      other.mapFloats Binary64.asWritten = graph.mapFloats Binary64.asWritten) ∧
    ((∀ x ∈ other.floats ++ graph.floats, x.isInfinite = false) →
      (other.textBy write = graph.textBy write ↔
        other.mapFloats Binary64.unifyNaN = graph.mapFloats Binary64.unifyNaN)) := by
  refine ⟨textBy_eq_iff writer, fun notInfinite => ?_⟩
  obtain ⟨ofOther, ofGraph⟩ := List.forall_mem_append.mp notInfinite
  rw [textBy_eq_iff writer,
    mapFloats_congr fun x member => Binary64.asWritten_eq_unifyNaN (ofOther x member),
    mapFloats_congr fun x member => Binary64.asWritten_eq_unifyNaN (ofGraph x member)]

end Writer

/-- A graph of one stage that keeps the sales above a limit. -/
def salesAbove (limit : Binary64) : StageGraph :=
  let plan := ((SubPlan.empty.insert ⟨⟨0⟩, .load (.dataset "sales"), []⟩).insert
    ⟨⟨1⟩, .filter ⟨1, .greater, .float limit⟩, [⟨0⟩]⟩).insert ⟨⟨2⟩, .store "above", [⟨1⟩]⟩
  ⟨(∅ : OrderedMap StageId Stage).insert ⟨0⟩ ⟨⟨0⟩, .ordinary, plan, {}⟩, ∅, 1⟩

theorem mapFloats_salesAbove (change : Binary64 → Binary64) (limit : Binary64) :
    (salesAbove limit).mapFloats change = salesAbove (change limit) :=
  rfl

/-- The two zeros are told apart, and two NaNs are not. -/
theorem same_text_iff_salesAbove :
    Json.CompactWriter Json.text ∧
      (∀ x ∈ (salesAbove .zero).floats ++ (salesAbove (.neg .zero)).floats,
        x.isInfinite = false) ∧
      (salesAbove .zero).text ≠ (salesAbove (.neg .zero)).text ∧
      (salesAbove .quietNaN).text = (salesAbove .invalid).text := by
  have notInfinite : ∀ x ∈ (salesAbove .zero).floats ++ (salesAbove (.neg .zero)).floats,
      x.isInfinite = false := by
    decide
  refine ⟨Json.compactWriter_text, notInfinite, fun same => ?_, ?_⟩
  · have equal := ((same_text_iff Json.compactWriter_text _ _).2 notInfinite).mp same
    rw [mapFloats_salesAbove, mapFloats_salesAbove] at equal
    exact absurd (congrArg floats equal) (by decide)
  · refine (same_text_iff Json.compactWriter_text _ _).1.mpr ?_
    rw [mapFloats_salesAbove, mapFloats_salesAbove]
    rfl

/-- The sales above minus infinity and those above infinity are kept by graphs of one text. -/
theorem infinities_share_text :
    (salesAbove (.neg .infinity)).mapFloats Binary64.unifyNaN ≠
        (salesAbove .infinity).mapFloats Binary64.unifyNaN ∧
      (salesAbove (.neg .infinity)).text = (salesAbove .infinity).text := by
  constructor
  · rw [mapFloats_salesAbove, mapFloats_salesAbove]
    exact fun equal => absurd (congrArg floats equal) (by decide)
  · refine (textBy_eq_iff Json.compactWriter_text).mpr ?_
    rw [mapFloats_salesAbove, mapFloats_salesAbove]
    rfl

end StageGraph

end BatchFlow
