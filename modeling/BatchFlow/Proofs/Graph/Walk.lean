import BatchFlow.Proofs.Graph.Stages
import Mathlib.Data.Finset.Card
import Mathlib.Data.List.Perm.Basic
import Mathlib.Data.List.Perm.Subperm
import Mathlib.Logic.Relation

/-!
# The walk of a graph

The walk keeps one invariant: a stage not yet entered, placed or on the path
does not exist, and of the predecessors of a stage on the path every one is
pending, placed or the next stage of the path.  So the walk lists every stage
once, after all its predecessors, and it can come back to its path only if the
edges form a cycle.
-/

namespace BatchFlow

open Results

namespace StageGraph

variable {graph : StageGraph}

/-- Every stage of the list stands after all its predecessors. -/
def PredecessorsFirst (graph : StageGraph) (order : List StageId) : Prop :=
  ∀ before id after, order = before ++ id :: after →
    ∀ predecessor ∈ graph.predecessors id, predecessor ∈ before

theorem PredecessorsFirst.concat {order : List StageId} {last : StageId}
    (ordered : graph.PredecessorsFirst order)
    (placed : ∀ predecessor ∈ graph.predecessors last, predecessor ∈ order) :
    graph.PredecessorsFirst (order ++ [last]) := by
  intro before id after split
  rcases List.eq_nil_or_concat after with rfl | ⟨rest, final, rfl⟩
  · obtain ⟨rfl, same⟩ := List.append_inj' split rfl
    obtain rfl := List.singleton_inj.mp same
    exact placed
  · have inOrder : order = before ++ id :: rest := by
      rw [List.concat_eq_append, ← List.cons_append, ← List.append_assoc] at split
      exact (List.append_inj' split rfl).1
    exact ordered before id rest inOrder

theorem PredecessorsFirst.left {order rest : List StageId}
    (ordered : graph.PredecessorsFirst (order ++ rest)) : graph.PredecessorsFirst order := by
  rintro before id after rfl
  exact ordered before id (after ++ rest) (by simp)

theorem PredecessorsFirst.closed {order : List StageId} (ordered : graph.PredecessorsFirst order)
    {id predecessor : StageId} (member : id ∈ order)
    (isPredecessor : predecessor ∈ graph.predecessors id) : predecessor ∈ order := by
  obtain ⟨before, after, rfl⟩ := List.append_of_mem member
  exact List.mem_append_left _ (ordered before id after rfl predecessor isPredecessor)

/-- A number for each stage that grows along all edges. -/
def Ranked (graph : StageGraph) (rank : StageId → Nat) : Prop :=
  ∀ edge ∈ graph.edges.elements, rank edge.earlier < rank edge.later

/-- Every predecessor of a stage on the path is pending, placed, or the stage
that the walk has entered from there. -/
def Tracks (graph : StageGraph) (placed : List StageId) : Option StageId → List Frame → Prop
  | _, [] => True
  | entered, frame :: path =>
      (∀ predecessor ∈ graph.predecessors frame.stage,
        predecessor ∈ frame.pending ∨ predecessor ∈ placed ∨ entered = some predecessor) ∧
      (∀ predecessor ∈ frame.pending, predecessor ∈ graph.predecessors frame.stage) ∧
      (∀ predecessor, entered = some predecessor →
        predecessor ∈ graph.predecessors frame.stage) ∧
      Tracks graph placed (some frame.stage) path

/-- Once the innermost stage is placed, the path behind it is tracked. -/
theorem Tracks.place {placed : List StageId} {stage : StageId} {path : List Frame}
    (tracks : graph.Tracks placed (some stage) path) :
    graph.Tracks (stage :: placed) none path := by
  have more {entered : Option StageId} {path : List Frame}
      (tracks : graph.Tracks placed entered path) :
      graph.Tracks (stage :: placed) entered path := by
    induction path generalizing entered with
    | nil => trivial
    | cons frame path ih =>
        obtain ⟨known, pending, inner, rest⟩ := tracks
        refine ⟨fun predecessor isPredecessor => ?_, pending, inner, ih rest⟩
        rcases known predecessor isPredecessor with isPending | isPlaced | isEntered
        · exact .inl isPending
        · exact .inr (.inl (List.mem_cons_of_mem _ isPlaced))
        · exact .inr (.inr isEntered)
  cases path with
  | nil => trivial
  | cons frame path =>
      obtain ⟨known, pending, -, rest⟩ := tracks
      refine ⟨fun predecessor isPredecessor => ?_, pending, nofun, more rest⟩
      rcases known predecessor isPredecessor with isPending | isPlaced | isEntered
      · exact .inl isPending
      · exact .inr (.inl (List.mem_cons_of_mem _ isPlaced))
      · obtain rfl := Option.some.inj isEntered
        exact .inr (.inl List.mem_cons_self)

theorem Tracks.rank_lt {rank : StageId → Nat} (ranked : graph.Ranked rank)
    {placed : List StageId} {entered : StageId} {path : List Frame}
    (tracks : graph.Tracks placed (some entered) path) :
    ∀ frame ∈ path, rank entered < rank frame.stage := by
  induction path generalizing entered with
  | nil => simp
  | cons frame path ih =>
      obtain ⟨-, -, inner, rest⟩ := tracks
      have step : rank entered < rank frame.stage :=
        ranked _ (mem_predecessors.mp (inner entered rfl))
      refine List.forall_mem_cons.mpr ⟨step, fun outer member => ?_⟩
      exact step.trans (ih rest outer member)

/-- The state of a walk. -/
structure Walking (graph : StageGraph) (unseen placed : List StageId) (path : List Frame) :
    Prop where
  all : (unseen ++ (placed ++ path.map Frame.stage)).Perm graph.stageIds
  ordered : graph.PredecessorsFirst placed.reverse
  tracks : graph.Tracks placed none path

namespace Walking

variable {unseen placed : List StageId} {stage next : StageId} {pending : List StageId}
  {path : List Frame}

theorem start (walking : graph.Walking (next :: unseen) placed []) :
    graph.Walking unseen placed [graph.enter next] where
  all := by
    refine List.Perm.trans ?_ walking.all
    simp only [List.map_cons, List.map_nil, enter, List.append_nil, List.cons_append]
    rw [← List.append_assoc]
    exact List.perm_append_singleton next (unseen ++ placed)
  ordered := walking.ordered
  tracks :=
    ⟨fun _ isPredecessor => .inl isPredecessor, fun _ isPending => isPending, nofun, trivial⟩

theorem place (walking : graph.Walking unseen placed (⟨stage, []⟩ :: path)) :
    graph.Walking unseen (stage :: placed) path where
  all := by
    refine List.Perm.trans (List.Perm.append_left unseen ?_) walking.all
    exact List.perm_middle.symm
  ordered := by
    rw [List.reverse_cons]
    refine walking.ordered.concat fun predecessor isPredecessor => ?_
    rcases walking.tracks.1 predecessor isPredecessor with isPending | isPlaced | isEntered
    · exact absurd isPending List.not_mem_nil
    · exact List.mem_reverse.mpr isPlaced
    · exact nomatch isEntered
  tracks := walking.tracks.2.2.2.place

theorem enter (walking : graph.Walking unseen placed (⟨stage, next :: pending⟩ :: path))
    (isUnseen : next ∈ unseen) :
    graph.Walking (unseen.erase next) placed
      (graph.enter next :: ⟨stage, pending⟩ :: path) where
  all := by
    refine List.Perm.trans ?_ walking.all
    have front : (next :: unseen.erase next).Perm unseen := (List.perm_cons_erase isUnseen).symm
    refine List.Perm.trans ?_ (front.append_right _)
    simp only [List.map_cons, StageGraph.enter, List.cons_append]
    rw [← List.append_assoc, ← List.append_assoc]
    exact List.perm_middle
  ordered := walking.ordered
  tracks := by
    obtain ⟨known, isPredecessor, -, rest⟩ := walking.tracks
    refine ⟨fun _ isPredecessor => .inl isPredecessor, fun _ isPending => isPending, nofun,
      fun predecessor member => ?_, fun predecessor member => ?_, ?_, rest⟩
    · rcases known predecessor member with isPending | isPlaced | isEntered
      · rcases List.mem_cons.mp isPending with rfl | isPending
        · exact .inr (.inr rfl)
        · exact .inl isPending
      · exact .inr (.inl isPlaced)
      · exact nomatch isEntered
    · exact isPredecessor predecessor (List.mem_cons_of_mem _ member)
    · rintro predecessor same
      obtain rfl := Option.some.inj same
      exact isPredecessor _ List.mem_cons_self

theorem skip (walking : graph.Walking unseen placed (⟨stage, next :: pending⟩ :: path))
    (isPlaced : next ∈ placed) :
    graph.Walking unseen placed (⟨stage, pending⟩ :: path) where
  all := walking.all
  ordered := walking.ordered
  tracks := by
    obtain ⟨known, isPredecessor, inner, rest⟩ := walking.tracks
    refine ⟨fun predecessor member => ?_, fun predecessor member => ?_, inner, rest⟩
    · rcases known predecessor member with isPending | known
      · rcases List.mem_cons.mp isPending with rfl | isPending
        · exact .inr (.inl isPlaced)
        · exact .inl isPending
      · exact .inr known
    · exact isPredecessor predecessor (List.mem_cons_of_mem _ member)

/-- If the edges form no cycle, the walk does not come back to its path. -/
theorem mem_of_pending {rank : StageId → Nat} (ranked : graph.Ranked rank)
    (exist : ∀ edge ∈ graph.edges.elements, edge.earlier ∈ graph.stageIds)
    (walking : graph.Walking unseen placed (⟨stage, next :: pending⟩ :: path)) :
    next ∈ unseen ∨ next ∈ placed := by
  obtain ⟨-, isPredecessor, -, rest⟩ := walking.tracks
  have edge := mem_predecessors.mp (isPredecessor next List.mem_cons_self)
  have rankNext : rank next < rank stage := ranked _ edge
  have somewhere := walking.all.mem_iff.mpr (exist _ edge)
  simp only [List.map_cons, List.mem_append, List.mem_cons] at somewhere
  rcases somewhere with isUnseen | isPlaced | rfl | onPath
  · exact .inl isUnseen
  · exact .inr isPlaced
  · exact absurd rankNext (lt_irrefl _)
  · obtain ⟨frame, inPath, rfl⟩ := List.mem_map.mp onPath
    have further : rank stage < rank frame.stage := rest.rank_lt ranked frame inPath
    omega

end Walking

/-- A walk that ends has placed every stage after its predecessors. -/
theorem walkFrom_sound {unseen placed : List StageId} {path : List Frame} {order : List StageId}
    (walking : graph.Walking unseen placed path)
    (walked : graph.walkFrom unseen placed path = .ok order) :
    order.Perm graph.stageIds ∧ graph.PredecessorsFirst order := by
  fun_induction walkFrom graph unseen placed path with
  | case1 placed =>
      obtain rfl := Except.ok.inj walked
      refine ⟨(List.reverse_perm placed).trans ?_, walking.ordered⟩
      simpa using walking.all
  | case2 placed start unseen ih => exact ih walking.start walked
  | case3 unseen placed stage path ih => exact ih walking.place walked
  | case4 unseen placed stage next pending path isUnseen ih =>
      exact ih (walking.enter isUnseen) walked
  | case5 unseen placed stage next pending path _ isPlaced ih =>
      exact ih (walking.skip isPlaced) walked
  | case6 => exact nomatch walked

/-- Without a cycle, the walk ends. -/
theorem walkFrom_complete {rank : StageId → Nat} (ranked : graph.Ranked rank)
    (exist : ∀ edge ∈ graph.edges.elements, edge.earlier ∈ graph.stageIds)
    {unseen placed : List StageId} {path : List Frame}
    (walking : graph.Walking unseen placed path) :
    ∃ order, graph.walkFrom unseen placed path = .ok order := by
  fun_induction walkFrom graph unseen placed path with
  | case1 placed => exact ⟨_, rfl⟩
  | case2 placed start unseen ih => exact ih walking.start
  | case3 unseen placed stage path ih => exact ih walking.place
  | case4 unseen placed stage next pending path isUnseen ih => exact ih (walking.enter isUnseen)
  | case5 unseen placed stage next pending path _ isPlaced ih => exact ih (walking.skip isPlaced)
  | case6 unseen placed stage next pending path notUnseen notPlaced =>
      rcases walking.mem_of_pending ranked exist with isUnseen | isPlaced
      · exact absurd isUnseen notUnseen
      · exact absurd isPlaced notPlaced

/-- The ends of all edges exist. -/
def EdgesExist (graph : StageGraph) : Prop :=
  ∀ edge ∈ graph.edges.elements, edge.earlier ∈ graph.stageIds ∧ edge.later ∈ graph.stageIds

theorem Built.edgesExist (built : graph.Built) : graph.EdgesExist := by
  intro edge member
  obtain ⟨-, isEarlier, isLater⟩ := built.edges edge member
  exact ⟨mem_stageIds.mpr isEarlier, mem_stageIds.mpr isLater⟩

theorem danglingEdge?_eq_none_iff : graph.danglingEdge? = none ↔ graph.EdgesExist := by
  rw [danglingEdge?, List.findSome?_eq_none_iff]
  refine forall₂_congr fun edge _ => ?_
  rw [mem_stageIds, mem_stageIds, ← contains_stageMap, ← contains_stageMap]
  cases graph.stageMap.contains edge.earlier <;>
    cases graph.stageMap.contains edge.later <;> simp

theorem Walking.initial (graph : StageGraph) : graph.Walking graph.stageIds [] [] where
  all := by simp
  ordered := fun before id after split => by simp at split
  tracks := trivial

/-- The order of a graph lists every stage once, after all its predecessors. -/
theorem order_sound {order : List StageId} (ordered : graph.order = .ok order) :
    graph.EdgesExist ∧ order.Perm graph.stageIds ∧ graph.PredecessorsFirst order := by
  rw [StageGraph.order] at ordered
  split at ordered
  case h_1 => exact nomatch ordered
  case h_2 noDangling =>
    exact ⟨danglingEdge?_eq_none_iff.mp noDangling, walkFrom_sound (.initial graph) ordered⟩

theorem exists_order {rank : StageId → Nat} (ranked : graph.Ranked rank)
    (exist : graph.EdgesExist) : ∃ order, graph.order = .ok order := by
  rw [StageGraph.order, danglingEdge?_eq_none_iff.mpr exist]
  exact walkFrom_complete ranked (fun edge member => (exist edge member).1) (.initial graph)

/-- A stage stands after its predecessors. -/
theorem PredecessorsFirst.idxOf_lt {order : List StageId} (ordered : graph.PredecessorsFirst order)
    (nodup : order.Nodup) {id predecessor : StageId} (member : id ∈ order)
    (isPredecessor : predecessor ∈ graph.predecessors id) :
    order.idxOf predecessor < order.idxOf id := by
  obtain ⟨before, after, split⟩ := List.append_of_mem member
  have inBefore := ordered before id after split predecessor isPredecessor
  have notBefore : id ∉ before := by
    rw [split] at nodup
    exact fun inBoth => (List.nodup_append.mp nodup).2.2 _ inBoth _ List.mem_cons_self rfl
  rw [split, List.idxOf_append_of_mem inBefore, List.idxOf_append_of_notMem notBefore,
    List.idxOf_cons_self]
  exact List.idxOf_lt_length_of_mem inBefore

/-- The position in an order grows along all edges. -/
theorem PredecessorsFirst.ranked {order : List StageId} (ordered : graph.PredecessorsFirst order)
    (covers : ∀ edge ∈ graph.edges.elements, edge.later ∈ order) (nodup : order.Nodup) :
    graph.Ranked fun id => order.idxOf id :=
  fun edge member => ordered.idxOf_lt nodup (covers edge member) (mem_predecessors.mpr member)

/-- The walk of a graph ends exactly when its edges exist and form no cycle. -/
theorem exists_order_iff :
    (∃ order, graph.order = .ok order) ↔ graph.EdgesExist ∧ ∃ rank, graph.Ranked rank := by
  constructor
  · rintro ⟨order, ordered⟩
    obtain ⟨exist, all, first⟩ := order_sound ordered
    refine ⟨exist, _, first.ranked ?_ (all.nodup_iff.mpr graph.nodup_stageIds)⟩
    exact fun edge member => all.mem_iff.mpr (exist edge member).2
  · rintro ⟨exist, rank, ranked⟩
    exact exists_order ranked exist

/-- There is an edge between two stages. -/
def Precedes (graph : StageGraph) (earlier later : StageId) : Prop :=
  ⟨earlier, later⟩ ∈ graph.edges.elements

/-- No path of edges comes back to where it starts. -/
def Acyclic (graph : StageGraph) : Prop :=
  ∀ id, ¬ Relation.TransGen graph.Precedes id id

open scoped Classical in
/-- The stages from which a path of edges leads to a stage. -/
noncomputable def ancestors (graph : StageGraph) (id : StageId) : Finset StageId :=
  (graph.edges.elements.map Edge.earlier).toFinset.filter fun other =>
    Relation.TransGen graph.Precedes other id

theorem mem_ancestors {id other : StageId} :
    other ∈ graph.ancestors id ↔
      other ∈ graph.edges.elements.map Edge.earlier ∧
        Relation.TransGen graph.Precedes other id := by
  classical
  unfold ancestors
  rw [Finset.mem_filter, List.mem_toFinset]

/-- A stage on no cycle has fewer ancestors than the stages that wait for it. -/
theorem card_ancestors_lt {earlier later : StageId} (precedes : graph.Precedes earlier later)
    (noCycle : ¬ Relation.TransGen graph.Precedes earlier earlier) :
    (graph.ancestors earlier).card < (graph.ancestors later).card := by
  apply Finset.card_lt_card
  refine Finset.ssubset_iff_subset_ne.mpr ⟨fun other leads => ?_, fun same => ?_⟩
  · obtain ⟨isEarlier, path⟩ := mem_ancestors.mp leads
    exact mem_ancestors.mpr ⟨isEarlier, path.tail precedes⟩
  · have inLater : earlier ∈ graph.ancestors later :=
      mem_ancestors.mpr ⟨List.mem_map.mpr ⟨_, precedes, rfl⟩, .single precedes⟩
    rw [← same] at inLater
    exact noCycle (mem_ancestors.mp inLater).2

/-- Without a cycle, the number of ancestors grows along all edges. -/
theorem Acyclic.exists_ranked (acyclic : graph.Acyclic) : ∃ rank, graph.Ranked rank :=
  ⟨fun id => (graph.ancestors id).card, fun _ member => card_ancestors_lt member (acyclic _)⟩

theorem Ranked.acyclic {rank : StageId → Nat} (ranked : graph.Ranked rank) : graph.Acyclic := by
  have grows {first last : StageId} (path : Relation.TransGen graph.Precedes first last) :
      rank first < rank last := by
    induction path with
    | single edge => exact ranked _ edge
    | tail _ edge below => exact below.trans (ranked _ edge)
  exact fun id path => lt_irrefl _ (grows path)

/-- A graph has an order exactly when its edges exist and form no cycle. -/
theorem exists_order_iff_acyclic :
    (∃ order, graph.order = .ok order) ↔ graph.EdgesExist ∧ graph.Acyclic := by
  rw [exists_order_iff]
  apply and_congr_right
  intro _
  constructor
  · rintro ⟨rank, ranked⟩
    exact ranked.acyclic
  · exact Acyclic.exists_ranked

/-- A graph passes its check exactly when its edges exist and form no cycle, and
every stage passes its own check. -/
theorem validate_eq_ok_iff :
    (∃ count, graph.validate = .ok count) ↔
      graph.EdgesExist ∧ (∃ rank, graph.Ranked rank) ∧
        ∀ id ∈ graph.stageIds, graph.checkStage id = .ok () := by
  have checks (order : List StageId) :
      order.forM graph.checkStage = .ok () ↔ ∀ id ∈ order, graph.checkStage id = .ok () := by
    induction order with
    | nil => simp
    | cons id order ih =>
        show (graph.checkStage id >>= fun _ => order.forM graph.checkStage) = .ok () ↔ _
        rw [bind_eq_ok, List.forall_mem_cons, ← ih]
        constructor
        · rintro ⟨⟨⟩, checked, rest⟩
          exact ⟨checked, rest⟩
        · rintro ⟨checked, rest⟩
          exact ⟨(), checked, rest⟩
  constructor
  · rintro ⟨count, valid⟩
    obtain ⟨order, ordered, rest⟩ := bind_eq_ok.mp valid
    obtain ⟨⟨⟩, checked, -⟩ := bind_eq_ok.mp rest
    obtain ⟨exist, ranked⟩ := exists_order_iff.mp ⟨order, ordered⟩
    have all := (order_sound ordered).2.1
    exact ⟨exist, ranked, fun id member =>
      (checks order).mp checked id (all.mem_iff.mpr member)⟩
  · rintro ⟨exist, ⟨rank, ranked⟩, checked⟩
    obtain ⟨order, ordered⟩ := exists_order ranked exist
    have all := (order_sound ordered).2.1
    refine ⟨order.length, bind_eq_ok.mpr ⟨order, ordered, bind_eq_ok.mpr ⟨(), ?_, rfl⟩⟩⟩
    exact (checks order).mpr fun id member => checked id (all.mem_iff.mp member)

section Valid

variable (valid : ∃ count, graph.validate = .ok count)

include valid

theorem exists_order_of_valid : ∃ order, graph.order = .ok order := by
  obtain ⟨exist, ranked, -⟩ := validate_eq_ok_iff.mp valid
  exact exists_order_iff.mpr ⟨exist, ranked⟩

theorem checkStage_of_valid {id : StageId} {stage : Stage} (found : graph.stage? id = some stage) :
    graph.checkStage id = .ok () :=
  (validate_eq_ok_iff.mp valid).2.2 id (mem_stageIds.mpr ⟨stage, found⟩)

theorem not_malformed_of_valid (id : StageId) : ¬ graph.Malformed id := by
  rintro ⟨stage, found, -, failed⟩
  exact failed (checkStage_of_valid valid found)

end Valid

end StageGraph

end BatchFlow
