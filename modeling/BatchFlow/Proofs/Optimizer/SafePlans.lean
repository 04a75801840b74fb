import BatchFlow.Optimizer.Accumulation
import BatchFlow.Proofs.Plan.Appending
import BatchFlow.Proofs.Plan.Phases
import BatchFlow.Proofs.Task.Streaming

/-!
# Plans that group without materialized groups

The search for obstacles looks at what reads a grouping operator and at what a
worklist reaches from it.  It finds none exactly when everything that can be
reached along some path is safe there.  An operator appended behind a grouping
operator of such a plan is therefore the only one that decides about the new plan.
-/

namespace BatchFlow

theorem Expr.readsGroupedColumn_eq_false {expr : Expr} :
    expr.readsGroupedColumn = false ↔ ∀ index, expr = .column index → index = 0 := by
  cases expr <;> simp [readsGroupedColumn, UInt64.not_le, UInt64.lt_one_iff]

namespace Operation

/-- Downstream of a grouping operator, the operation does not need a whole group. -/
def SafeDownstream : Operation → Prop
  | filter _ | limit _ | store _ | join _ _ => True
  | forEach exprs => ∀ expr ∈ exprs, expr.isAccumulationSafe = true
  | load _ | rearrange _ | package _ _ | sort _ _ => False

/-- The operation projects groups, and of their columns reads the key only. -/
def ReadsKeysOnly : Operation → Prop
  | forEach exprs => ∀ index, .column index ∈ exprs → index = 0
  | _ => False

theorem obstacle?_eq_none {operation : Operation} :
    operation.obstacle? = none ↔ operation.SafeDownstream := by
  cases operation <;> simp [obstacle?, SafeDownstream]

theorem not_isPackage_of_safeDownstream {operation : Operation}
    (safe : operation.SafeDownstream) : operation.isPackage = false := by
  cases operation with
  | package => exact safe.elim
  | _ => rfl

theorem consumerObstacle?_eq_none {operation : Operation} :
    operation.consumerObstacle? = none ↔ operation.ReadsKeysOnly := by
  cases operation with
  | forEach exprs =>
      simp only [consumerObstacle?, ReadsKeysOnly, ite_eq_right_iff, reduceCtorEq, imp_false,
        Bool.not_eq_true, List.any_eq_false, Expr.readsGroupedColumn_eq_false]
      constructor
      · intro each index member
        exact each _ member index rfl
      · rintro each _ member index rfl
        exact each index member
  | _ => simp [consumerObstacle?, ReadsKeysOnly]

theorem isForEach_of_readsKeysOnly {operation : Operation} (keysOnly : operation.ReadsKeysOnly) :
    operation.isForEach = true := by
  cases operation with
  | forEach => rfl
  | _ => exact keysOnly.elim

end Operation

namespace SubPlan

variable {plan : SubPlan} {packages : List OpId} {operator : Operator}

theorem firstObstacle?_eq_none {obstacle? : Operation → Option Obstacle} {ids : List OpId} :
    plan.firstObstacle? obstacle? ids = none ↔
      ∀ id ∈ ids, ∀ operator, plan.get? id = some operator →
        obstacle? operator.operation = none := by
  simp [firstObstacle?, List.findSome?_eq_none_iff, Option.bind_eq_none_iff]

theorem packageObstacle?_eq_none {package : OpId} :
    plan.packageObstacle? package = none ↔
      (∀ id ∈ plan.consumers package, ∀ operator, plan.get? id = some operator →
        operator.operation.consumerObstacle? = none) ∧
      (plan.consumers package).isEmpty = false ∧
      ∀ id ∈ (plan.downstreamOf package).elements, ∀ operator, plan.get? id = some operator →
        operator.operation.obstacle? = none := by
  simp [packageObstacle?, firstObstacle?_eq_none]

/-- A plan qualifies, with all its grouping operators, when it has some and none of
them has an obstacle. -/
theorem qualify_eq_qualifies :
    plan.qualify = .qualifies packages ↔
      packages = plan.packages ∧ plan.packages.isEmpty = false ∧
        ∀ package ∈ plan.packages, plan.packageObstacle? package = none := by
  rw [qualify]
  cases noPackage : plan.packages.isEmpty with
  | true => simp
  | false =>
      rw [← List.findSome?_eq_none_iff]
      cases plan.packages.findSome? plan.packageObstacle? with
      | none => simp [eq_comm]
      | some => simp

/-- The plan groups, something reads each grouping operator, what reads one projects keys and
aggregates, and no operator on any path from one needs a whole group. -/
structure AccumulationSafe (plan : SubPlan) : Prop where
  groups : ∃ package, package ∈ plan.packages
  read : ∀ package ∈ plan.packages, ∃ consumer, plan.Feeds package consumer
  readers : ∀ package ∈ plan.packages, ∀ id operator, plan.get? id = some operator →
    package ∈ operator.inputs → operator.operation.ReadsKeysOnly
  downstream : ∀ package ∈ plan.packages, ∀ id operator,
    Relation.TransGen plan.Feeds package id → plan.get? id = some operator →
      operator.operation.SafeDownstream

/-- At the place of the operator in the plan its operation does not need a whole group. -/
structure SafeAt (plan : SubPlan) (operator : Operator) : Prop where
  downstream : operator.operation.SafeDownstream
  reader : ∀ package ∈ plan.packages, package ∈ operator.inputs → operator.operation.ReadsKeysOnly

/-- The search for obstacles finds none exactly in the safe plans. -/
theorem OwnIds.qualify_eq_qualifies_iff (ownIds : plan.OwnIds) :
    plan.qualify = .qualifies packages ↔ packages = plan.packages ∧ plan.AccumulationSafe := by
  have isRead (package : OpId) :
      (plan.consumers package).isEmpty = false ↔ ∃ consumer, plan.Feeds package consumer := by
    rw [List.isEmpty_eq_false_iff_exists_mem]
    exact exists_congr fun consumer => ownIds.mem_consumers
  rw [qualify_eq_qualifies, List.isEmpty_eq_false_iff_exists_mem]
  apply and_congr_right
  intro _
  simp only [packageObstacle?_eq_none, isRead, Operation.obstacle?_eq_none,
    Operation.consumerObstacle?_eq_none, ownIds.mem_consumers, ownIds.mem_downstreamOf]
  constructor
  · rintro ⟨groups, free⟩
    exact
      { groups := groups
        read := fun package member => (free package member).2.1
        readers := fun package member id operator found reads =>
          (free package member).1 id ⟨operator, found, reads⟩ operator found
        downstream := fun package member id operator path found =>
          (free package member).2.2 id path operator found }
  · intro safe
    refine ⟨safe.groups, fun package member => ⟨?_, safe.read package member, ?_⟩⟩
    · rintro id ⟨reader, foundReader, reads⟩ operator found
      obtain rfl := Option.some.inj (foundReader.symm.trans found)
      exact safe.readers package member id reader found reads
    · intro id path operator found
      exact safe.downstream package member id operator path found

section Appended

variable (wellFormed : plan.WellFormed) (absent : plan.get? operator.id = none)

include wellFormed absent

theorem AccumulationSafe.safeAt_of_insert (safe : (plan.insert operator).AccumulationSafe)
    (appended : ∃ package ∈ plan.packages,
      Relation.TransGen (plan.insert operator).Feeds package operator.id) :
    plan.SafeAt operator := by
  have foundNew : (plan.insert operator).get? operator.id = some operator := by
    rw [get?_insert, if_pos rfl]
  have kept (package : OpId) (member : package ∈ plan.packages) :
      package ∈ (plan.insert operator).packages :=
    wellFormed.ownIds.mem_packages_insert_of_mem absent member
  constructor
  · obtain ⟨package, member, path⟩ := appended
    exact safe.downstream package (kept package member) operator.id operator path foundNew
  · intro package member reads
    exact safe.readers package (kept package member) operator.id operator foundNew reads

theorem AccumulationSafe.insert (safe : plan.AccumulationSafe) (safeAt : plan.SafeAt operator) :
    (plan.insert operator).AccumulationSafe := by
  have notPackage : operator.operation.isPackage = false :=
    Operation.not_isPackage_of_safeDownstream safeAt.downstream
  have isOld (package : OpId) (member : package ∈ (plan.insert operator).packages) :
      package ∈ plan.packages := by
    rw [wellFormed.ownIds.mem_packages_insert] at member
    split at member
    · rw [notPackage] at member
      cases member
    · exact member
  have isNew (id : OpId) (other : Operator)
      (found : (plan.insert operator).get? id = some other) :
      id = operator.id ∧ other = operator ∨ id ≠ operator.id ∧ plan.get? id = some other := by
    rw [get?_insert] at found
    split at found
    case isTrue same => exact .inl ⟨same, (Option.some.inj found).symm⟩
    case isFalse different => exact .inr ⟨different, found⟩
  constructor
  case groups =>
    obtain ⟨package, member⟩ := safe.groups
    exact ⟨package, wellFormed.ownIds.mem_packages_insert_of_mem absent member⟩
  case read =>
    intro package member
    obtain ⟨consumer, edge⟩ := safe.read package (isOld package member)
    exact ⟨consumer, feeds_insert_of_feeds absent edge⟩
  case readers =>
    intro package member id other found reads
    rcases isNew id other found with ⟨-, rfl⟩ | ⟨-, foundOld⟩
    · exact safeAt.reader package (isOld package member) reads
    · exact safe.readers package (isOld package member) id other foundOld reads
  case downstream =>
    intro package member id other path found
    rcases isNew id other found with ⟨-, rfl⟩ | ⟨different, foundOld⟩
    · exact safeAt.downstream
    · rw [transGen_insert_iff wellFormed absent, if_neg different] at path
      exact safe.downstream package (isOld package member) id other path foundOld

end Appended

/-- A plan qualifies, with all its grouping operators, exactly when it is safe.  An operator
appended behind a grouping operator of a plan that qualifies decides about the new plan by what
it does at its place. -/
theorem qualifies_iff_accumulationSafe (ownIds : plan.OwnIds) (valid : plan.validate = .ok ()) :
    (∀ packages, plan.qualify = .qualifies packages ↔
      packages = plan.packages ∧ plan.AccumulationSafe) ∧
    ∀ operator, plan.qualify.isQualifies = true → plan.get? operator.id = none →
      (∃ package ∈ plan.packages,
        Relation.TransGen (plan.insert operator).Feeds package operator.id) →
      ((plan.insert operator).qualify = .qualifies (plan.insert operator).packages ↔
        plan.SafeAt operator) := by
  have wellFormed : plan.WellFormed := ownIds.wellFormed valid
  refine ⟨fun packages => ownIds.qualify_eq_qualifies_iff, ?_⟩
  intro operator qualifies absent appended
  have safe : plan.AccumulationSafe := by
    cases verdict : plan.qualify with
    | qualifies packages => exact (ownIds.qualify_eq_qualifies_iff.mp verdict).2
    | _ => rw [verdict] at qualifies; cases qualifies
  rw [(ownIds.insert operator).qualify_eq_qualifies_iff]
  constructor
  · rintro ⟨-, safeInsert⟩
    exact safeInsert.safeAt_of_insert wellFormed absent appended
  · intro safeAt
    exact ⟨rfl, safe.insert wellFormed absent safeAt⟩

/-- The plan of the sums still qualifies with a limit behind the projection, and no longer with a
projection of the groups beside it. -/
theorem qualifies_iff_accumulationSafe_salesTotals :
    (salesTotals .sum).OwnIds ∧ (salesTotals .sum).validate = .ok () ∧
      (salesTotals .sum).AccumulationSafe ∧
      ((salesTotals .sum).insert ⟨⟨5⟩, .limit 1, [⟨3⟩]⟩).qualify = .qualifies [⟨2⟩] ∧
      ((salesTotals .sum).insert ⟨⟨5⟩, .forEach [.groupKey, .bag], [⟨2⟩]⟩).qualify ≠
        .qualifies [⟨2⟩] := by
  have ownIds : (salesTotals .sum).OwnIds := OwnIds.salesTotals .sum
  have valid : (salesTotals .sum).validate = .ok () := by rfl
  have verdict : (salesTotals .sum).qualify = .qualifies [⟨2⟩] := by cbv
  have qualifies : (salesTotals .sum).qualify.isQualifies = true := by rw [verdict]; rfl
  have absent : (salesTotals .sum).get? ⟨5⟩ = none := rfl
  have grouped : ⟨2⟩ ∈ (salesTotals .sum).packages := by decide +kernel
  obtain ⟨safe, appended⟩ := qualifies_iff_accumulationSafe ownIds valid
  refine ⟨ownIds, valid, ((safe _).mp verdict).2, ?_, ?_⟩
  · apply (appended ⟨⟨5⟩, .limit 1, [⟨3⟩]⟩ qualifies absent ⟨⟨2⟩, grouped, ?_⟩).mpr
    · refine ⟨trivial, fun package member reads => ?_⟩
      obtain rfl : package = ⟨3⟩ := List.mem_singleton.mp reads
      exact absurd member (by decide +kernel)
    · exact .tail (.single ⟨_, rfl, List.mem_singleton_self _⟩) ⟨_, rfl, List.mem_singleton_self _⟩
  · intro qualifiesToo
    have safeAt := (appended ⟨⟨5⟩, .forEach [.groupKey, .bag], [⟨2⟩]⟩ qualifies absent
      ⟨⟨2⟩, grouped, .single ⟨_, rfl, List.mem_singleton_self _⟩⟩).mp qualifiesToo
    have bagSafe := safeAt.downstream .bag (by simp)
    cases bagSafe

end SubPlan

end BatchFlow
