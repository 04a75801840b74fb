import BatchFlow.Proofs.Plan.Operators

/-!
# Relabeling the operators of a plan

Changing what operators do, but not what they read, keeps the shape of a plan:
its consumers, its order, and, if grouping operators stay what they are, its
phases.
-/

namespace BatchFlow

/-- The operator with another operation. -/
def Operator.relabel (change : Operation → Operation) (operator : Operator) : Operator :=
  { operator with operation := change operator.operation }

namespace SubPlan

/-- The plan with every operation changed. -/
def relabel (change : Operation → Operation) (plan : SubPlan) : SubPlan :=
  { plan with operatorMap := plan.operatorMap.mapValues (Operator.relabel change) }

variable (change : Operation → Operation) (plan : SubPlan)

@[simp]
theorem get?_relabel (id : OpId) :
    (plan.relabel change).get? id = (plan.get? id).map (Operator.relabel change) :=
  OrderedMap.get?_mapValues ..

@[simp]
theorem operators_relabel :
    (plan.relabel change).operators = plan.operators.map (Operator.relabel change) := by
  simp [operators, relabel, OrderedMap.values, OrderedMap.mapValues]

@[simp]
theorem size_relabel : (plan.relabel change).size = plan.size := by
  simp [size, relabel, OrderedMap.size, OrderedMap.mapValues]

theorem relabel_relabel (first second : Operation → Operation) :
    (plan.relabel first).relabel second =
      plan.relabel fun operation => second (first operation) := by
  simp [relabel, OrderedMap.mapValues, Operator.relabel, Function.comp_def]

theorem ownIds_relabel : (plan.relabel change).OwnIds ↔ plan.OwnIds := by
  simp [OwnIds, Operator.relabel]

theorem map_id_filter_relabel (test : Operator → Bool)
    (kept : ∀ operator, test (operator.relabel change) = test operator) :
    ((plan.relabel change).operators.filter test).map Operator.id =
      (plan.operators.filter test).map Operator.id := by
  rw [operators_relabel, List.filter_map, List.map_map]
  congr 1
  exact List.filter_congr fun operator _ => kept operator

@[simp]
theorem consumers_relabel (id : OpId) :
    (plan.relabel change).consumers id = plan.consumers id :=
  plan.map_id_filter_relabel change _ fun _ => rfl

theorem feeds_relabel {id consumer : OpId} :
    (plan.relabel change).Feeds id consumer ↔ plan.Feeds id consumer := by
  simp [Feeds, Operator.relabel]

theorem packages_relabel (kept : ∀ operation, (change operation).isPackage = operation.isPackage) :
    (plan.relabel change).packages = plan.packages :=
  plan.map_id_filter_relabel change _ fun operator => kept operator.operation

theorem hasReducePhase_relabel
    (kept : ∀ operation, (change operation).isPackage = operation.isPackage) :
    (plan.relabel change).hasReducePhase = plan.hasReducePhase := by
  simp [hasReducePhase, Operator.relabel, kept, Function.comp_def]

@[simp]
theorem waiting_relabel : (plan.relabel change).waiting = plan.waiting := by
  simp [waiting, Operator.relabel, Function.comp_def]

@[simp]
theorem release_relabel (placed : OpId) :
    (plan.relabel change).release placed = plan.release placed := by
  funext state consumer
  simp only [release, get?_relabel]
  cases plan.get? consumer <;> rfl

theorem place_relabel (fuel : Nat) (waiting : Waiting) (ready : List OpId) :
    (plan.relabel change).place fuel waiting ready = plan.place fuel waiting ready := by
  induction fuel generalizing waiting ready with
  | zero => rfl
  | succ fuel ih =>
      cases ready with
      | nil => rfl
      | cons next ready => simp only [place, consumers_relabel, release_relabel, ih]

@[simp]
theorem topologicalOrder_relabel :
    (plan.relabel change).topologicalOrder = plan.topologicalOrder := by
  have samePlace : (plan.relabel change).place = plan.place :=
    funext fun fuel => funext fun waiting => funext fun ready =>
      plan.place_relabel change fuel waiting ready
  unfold topologicalOrder placementFuel
  rw [waiting_relabel, samePlace, size_relabel]

theorem reachedFrom_relabel (unseen worklist : List OpId) :
    (plan.relabel change).reachedFrom unseen worklist = plan.reachedFrom unseen worklist := by
  fun_induction reachedFrom plan unseen worklist with
  | case1 => simp [reachedFrom]
  | case2 unseen next rest member ih => simp [reachedFrom, member, ih]
  | case3 unseen next rest absent ih => simp [reachedFrom, absent, ih]

@[simp]
theorem downstreamOf_relabel (id : OpId) :
    (plan.relabel change).downstreamOf id = plan.downstreamOf id := by
  simp only [downstreamOf, reachedFrom_relabel, consumers_relabel, operators_relabel, List.map_map]
  rfl

theorem phases_relabel (kept : ∀ operation, (change operation).isPackage = operation.isPackage) :
    (plan.relabel change).phases = plan.phases := by
  simp only [phases, topologicalOrder_relabel, reduceSide, packages_relabel change plan kept,
    downstreamOf_relabel]

theorem feedsOnlyProjections_relabel (id : OpId)
    (kept : ∀ operation, (change operation).isForEach = operation.isForEach) :
    (plan.relabel change).feedsOnlyProjections id = plan.feedsOnlyProjections id := by
  simp only [feedsOnlyProjections, consumers_relabel, get?_relabel]
  refine congrArg _ (congrArg _ (funext fun consumer => ?_))
  cases plan.get? consumer <;> simp [Operator.relabel, kept]

theorem storeTarget?_relabel
    (kept : ∀ operation, (change operation).target? = operation.target?) :
    (plan.relabel change).storeTarget? = plan.storeTarget? := by
  rw [storeTarget?, storeTarget?, operators_relabel, List.findSome?_map]
  congr
  funext operator
  exact kept operator.operation

end SubPlan

end BatchFlow
