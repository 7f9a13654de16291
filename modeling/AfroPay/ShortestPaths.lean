import Mathlib.Algebra.Order.Group.Defs
import Mathlib.Algebra.Order.Monoid.WithTop
import Mathlib.Data.Finset.Card
import Mathlib.Data.List.Nodup
import Mathlib.Tactic.Common

/-! Shortest distances by relaxation. A graph lists its edges by their source, and a round
goes once through all of them in that order. Whatever the order, after one round fewer than
there are vertices, or after a round without an update, the distances are the weights of
shortest walks, unless a cycle of negative weight can be reached. -/
namespace AfroPay.ShortestPaths

variable {V W : Type*}

/-- A graph by the sources of its edges. -/
abbrev Adjacency (V W : Type*) := List (V × List (V × W))

def Edge (graph : Adjacency V W) (a b : V) (weight : W) : Prop := ∃ edges, (a, edges) ∈ graph ∧ (b, weight) ∈ edges

section Walks
variable [AddCommMonoid W]

/-- A walk, with the vertices it has left and its weight. -/
inductive Walk (graph : Adjacency V W) (source : V) : List V → V → W → Prop where
  | start : Walk graph source [] source 0
  | step (before : Walk graph source visited a d) (edge : Edge graph a b weight) :
      Walk graph source (a :: visited) b (d + weight)

variable {graph : Adjacency V W} {source a b : V} {visited : List V} {d : W}

/-- A walk through a vertex consists of one to it and one from it. -/
theorem Walk.split (walk : Walk graph source visited b d) (through : a ∈ b :: visited) :
    ∃ before after dBefore dAfter, Walk graph source before a dBefore ∧ Walk graph a after b dAfter ∧
      d = dBefore + dAfter ∧ (a :: before).Sublist (b :: visited) := by
  induction walk with
  | start =>
    obtain rfl := List.mem_singleton.mp through
    exact ⟨[], [], 0, 0, .start, .start, (add_zero 0).symm, List.Sublist.refl _⟩
  | @step visited c d b weight walk edge ih =>
    rcases List.mem_cons.mp through with rfl | earlier
    · exact ⟨_, [], _, 0, .step walk edge, .start, (add_zero _).symm, List.Sublist.refl _⟩
    · obtain ⟨before, after, dBefore, dAfter, first, second, sum, within⟩ := ih earlier
      refine ⟨before, c :: after, dBefore, dAfter + weight, first, .step second edge, ?_, within.cons _⟩
      rw [sum, add_assoc]

/-- All vertices of a walk are among those that the edges lead to. -/
theorem Walk.within {vertices : Finset V} (start : source ∈ vertices)
    (closed : ∀ a b weight, Edge graph a b weight → b ∈ vertices) (walk : Walk graph source visited b d) :
    ∀ c ∈ b :: visited, c ∈ vertices := by
  induction walk with
  | start => simpa using start
  | step walk edge ih =>
    intro c member
    rcases List.mem_cons.mp member with rfl | earlier
    · exact closed _ _ _ edge
    · exact ih c earlier

/-- A walk takes nothing but edges. -/
theorem Walk.mono {other : Adjacency V W} (edges : ∀ a b weight, Edge graph a b weight → Edge other a b weight)
    (walk : Walk graph source visited b d) : Walk other source visited b d := by
  induction walk with
  | start => exact .start
  | step walk edge ih => exact .step ih (edges _ _ _ edge)

/-- Every distance is the weight of a walk. -/
def Sound (graph : Adjacency V W) (source : V) (dist : V → WithTop W) : Prop :=
  ∀ a (w : W), dist a = w → ∃ visited, Walk graph source visited a w

def start [DecidableEq V] (source : V) : V → WithTop W := fun a => if a = source then 0 else ⊤

theorem start_sound [DecidableEq V] : Sound graph source (start source) := by
  intro a w reached
  unfold start at reached
  split at reached
  · rename_i here
    subst here
    obtain rfl : (0 : W) = w := WithTop.coe_injective reached
    exact ⟨[], .start⟩
  · exact absurd reached WithTop.top_ne_coe

variable [LinearOrder W]

/-- No cycle that can be reached has a negative weight. -/
def NoNegativeCycle (graph : Adjacency V W) (source : V) : Prop :=
  ∀ visited a d cycle c, Walk graph source visited a d → Walk graph a cycle a c → 0 ≤ c

/-- A lower bound of all walks that is the weight of one, if there is any. -/
structure IsDistance (graph : Adjacency V W) (source a : V) (d : WithTop W) : Prop where
  least : ∀ visited w, Walk graph source visited a w → d ≤ w
  attained : ∀ w : W, d = w → ∃ visited, Walk graph source visited a w

/-- What is said of walks depends on the edges alone. -/
theorem NoNegativeCycle.congr {other : Adjacency V W}
    (same : ∀ a b weight, Edge graph a b weight ↔ Edge other a b weight) (nonneg : NoNegativeCycle graph source) :
    NoNegativeCycle other source := by
  intro visited a d cycle c walk around
  exact nonneg visited a d cycle c (walk.mono fun a b weight => (same a b weight).mpr)
    (around.mono fun a b weight => (same a b weight).mpr)

theorem IsDistance.congr {other : Adjacency V W} {dist : WithTop W}
    (same : ∀ a b weight, Edge graph a b weight ↔ Edge other a b weight) (distance : IsDistance graph source a dist) :
    IsDistance other source a dist := by
  refine ⟨fun visited w walk => ?_, fun w reached => ?_⟩
  · exact distance.least visited w (walk.mono fun a b weight => (same a b weight).mpr)
  · obtain ⟨visited, walk⟩ := distance.attained w reached
    exact ⟨visited, walk.mono fun a b weight => (same a b weight).mp⟩

/-- No edge leads below true distances. -/
theorem IsDistance.le_step {weight : W} {from_a from_b : WithTop W} (a_true : IsDistance graph source a from_a)
    (b_true : IsDistance graph source b from_b) (edge : Edge graph a b weight) : from_b ≤ from_a + weight := by
  induction from_a using WithTop.recTopCoe with
  | top =>
    rw [WithTop.top_add]
    exact le_top
  | coe d =>
    obtain ⟨visited, walk⟩ := a_true.attained d rfl
    exact b_true.least _ _ (.step walk edge)

/-- Cutting out its cycles makes a walk no longer and no heavier. -/
theorem Walk.simple [IsOrderedAddMonoid W] [DecidableEq V] (nonneg : NoNegativeCycle graph source)
    (walk : Walk graph source visited b d) :
    ∃ visited' d', Walk graph source visited' b d' ∧ (b :: visited').Nodup ∧ d' ≤ d := by
  induction walk with
  | start => exact ⟨[], 0, .start, List.nodup_singleton _, le_rfl⟩
  | @step visited a d b weight walk edge ih =>
    obtain ⟨visited', d', walk', nodup, lighter⟩ := ih
    have heavier : d' + weight ≤ d + weight := add_le_add_left lighter weight
    by_cases again : b ∈ a :: visited'
    · -- The walk has been here before: what lies between is a cycle.
      obtain ⟨before, after, dBefore, dAfter, first, second, rfl, within⟩ := walk'.split again
      have cycle : 0 ≤ dAfter + weight := nonneg _ _ _ _ _ first (.step second edge)
      refine ⟨before, dBefore, first, nodup.sublist within, ?_⟩
      calc dBefore ≤ dBefore + (dAfter + weight) := le_add_of_nonneg_right cycle
        _ = dBefore + dAfter + weight := (add_assoc _ _ _).symm
        _ ≤ d + weight := heavier
    · exact ⟨a :: visited', d' + weight, .step walk' edge, List.nodup_cons.mpr ⟨again, nodup⟩, heavier⟩

end Walks

section Improving
variable [LinearOrder W]

/-- The distances, and whether any of them has been updated. -/
abbrev Progress (V W : Type*) := (V → WithTop W) × Bool

/-- Distances only shrink, and what is not marked as updated is the same. -/
structure Improves (before after : Progress V W) : Prop where
  le : ∀ a, after.1 a ≤ before.1 a
  unmarked : after.2 = false → after = before

theorem Improves.refl (state : Progress V W) : Improves state state := ⟨fun _ => le_rfl, fun _ => rfl⟩

theorem Improves.trans {first second third : Progress V W} (before : Improves first second)
    (after : Improves second third) : Improves first third := by
  refine ⟨fun a => (after.le a).trans (before.le a), fun unmarked => ?_⟩
  have same := after.unmarked unmarked
  exact same.trans (before.unmarked (same ▸ unmarked))

theorem foldl_improves {α : Type*} {relaxOne : Progress V W → α → Progress V W}
    (improves : ∀ state item, Improves state (relaxOne state item)) (items : List α) (state : Progress V W) :
    Improves state (items.foldl relaxOne state) := by
  induction items generalizing state with
  | nil => exact .refl _
  | cons item rest ih => exact (improves state item).trans (ih _)

end Improving

section Relaxation
variable [AddCommMonoid W] [LinearOrder W] [DecidableEq V]

/-- An edge from a vertex at distance `d`. -/
def relaxEdge (d : WithTop W) (state : Progress V W) (edge : V × W) : Progress V W :=
  if d + edge.2 < state.1 edge.1 then (Function.update state.1 edge.1 (d + edge.2), true) else state

/-- The edges from a vertex, whose distance is read once before. -/
def relaxSource (state : Progress V W) (group : V × List (V × W)) : Progress V W :=
  if state.1 group.1 = ⊤ then state else group.2.foldl (relaxEdge (state.1 group.1)) state

def round (graph : Adjacency V W) (dist : V → WithTop W) : Progress V W := graph.foldl relaxSource (dist, false)

/-- A number of rounds, or fewer if one of them updates nothing. -/
def relax (graph : Adjacency V W) : Nat → (V → WithTop W) → V → WithTop W
  | 0, dist => dist
  | rounds + 1, dist => if (round graph dist).2 then relax graph rounds (round graph dist).1 else (round graph dist).1

/-- Walks of at most so many edges are not below the distances. -/
def Within (graph : Adjacency V W) (source : V) (edges : Nat) (dist : V → WithTop W) : Prop :=
  ∀ visited a w, Walk graph source visited a w → visited.length ≤ edges → dist a ≤ w

theorem relaxEdge_improves (d : WithTop W) (state : Progress V W) (edge : V × W) :
    Improves state (relaxEdge d state edge) := by
  unfold relaxEdge
  split
  · rename_i shorter
    refine ⟨fun a => ?_, fun unmarked => nomatch unmarked⟩
    by_cases here : a = edge.1
    · subst here
      simp only [Function.update_self]
      exact shorter.le
    · simp only [Function.update_of_ne here]
      exact le_rfl
  · exact .refl _

theorem relaxSource_improves (state : Progress V W) (group : V × List (V × W)) :
    Improves state (relaxSource state group) := by
  unfold relaxSource
  split
  · exact .refl _
  · exact foldl_improves (relaxEdge_improves _) _ _

theorem round_improves (graph : Adjacency V W) (dist : V → WithTop W) : Improves (dist, false) (round graph dist) :=
  foldl_improves relaxSource_improves _ _

section Targets
variable {a b : V} {weight : W} {edges : List (V × W)}

/-- What an edge does to its own target. -/
theorem relaxEdge_le (d : WithTop W) (state : Progress V W) : (relaxEdge d state (b, weight)).1 b ≤ d + weight := by
  unfold relaxEdge
  split
  · simp only [Function.update_self]
    exact le_rfl
  · rename_i longer
    exact not_lt.mp longer

theorem relaxEdges_le (d : WithTop W) (member : (b, weight) ∈ edges) (state : Progress V W) :
    (edges.foldl (relaxEdge d) state).1 b ≤ d + weight := by
  induction edges generalizing state with
  | nil => cases member
  | cons first rest ih =>
    rcases List.mem_cons.mp member with rfl | later
    · exact ((foldl_improves (relaxEdge_improves d) rest _).le b).trans (relaxEdge_le d state)
    · exact ih later _

theorem relaxSource_le (member : (b, weight) ∈ edges) (state : Progress V W) :
    (relaxSource state (a, edges)).1 b ≤ state.1 a + weight := by
  unfold relaxSource
  split
  · rename_i unreached
    simp only at unreached
    rw [unreached, WithTop.top_add]
    exact le_top
  · exact relaxEdges_le _ member state

/-- After a round every edge has been taken from where its source was before, or nearer. -/
theorem round_le [IsOrderedAddMonoid W] {graph : Adjacency V W} (edge : Edge graph a b weight) (dist : V → WithTop W) :
    (round graph dist).1 b ≤ dist a + weight := by
  obtain ⟨edges, listed, member⟩ := edge
  suffices reached : ∀ state : Progress V W, (graph.foldl relaxSource state).1 b ≤ state.1 a + weight from
    reached (dist, false)
  induction graph with
  | nil => cases listed
  | cons group rest ih =>
    intro state
    rcases List.mem_cons.mp listed with rfl | later
    · exact ((foldl_improves relaxSource_improves rest _).le b).trans (relaxSource_le member state)
    · exact (ih later _).trans (add_le_add_left ((relaxSource_improves state group).le a) _)

end Targets

section Rounds
variable {graph : Adjacency V W} {source : V} {dist : V → WithTop W}

theorem relaxEdge_sound {a b : V} {d : WithTop W} {weight : W} {state : Progress V W}
    (sound : Sound graph source state.1) (reached : ∀ w : W, d = w → ∃ visited, Walk graph source visited a w)
    (edge : Edge graph a b weight) : Sound graph source (relaxEdge d state (b, weight)).1 := by
  unfold relaxEdge
  split
  · intro c w updated
    simp only at updated
    by_cases here : c = b
    · subst here
      rw [Function.update_self] at updated
      obtain ⟨x, y, d_eq, y_eq, sum⟩ := WithTop.add_eq_coe.mp updated
      obtain rfl : y = weight := WithTop.coe_injective y_eq
      obtain ⟨visited, walk⟩ := reached x d_eq.symm
      exact ⟨a :: visited, sum ▸ .step walk edge⟩
    · rw [Function.update_of_ne here] at updated
      exact sound c w updated
  · exact sound

theorem relaxSource_sound {state : Progress V W} (sound : Sound graph source state.1) {group : V × List (V × W)}
    (listed : group ∈ graph) : Sound graph source (relaxSource state group).1 := by
  unfold relaxSource
  split
  · exact sound
  · exact List.foldlRecOn (motive := fun state : Progress V W => Sound graph source state.1) _ _ sound
      fun _ kept _ member => relaxEdge_sound kept (sound group.1) ⟨group.2, listed, member⟩

theorem round_sound (sound : Sound graph source dist) : Sound graph source (round graph dist).1 :=
  List.foldlRecOn (motive := fun state : Progress V W => Sound graph source state.1) _ _ sound fun _ kept _ listed =>
    relaxSource_sound kept listed

theorem relax_sound (rounds : Nat) (sound : Sound graph source dist) :
    Sound graph source (relax graph rounds dist) := by
  induction rounds generalizing dist with
  | zero => exact sound
  | succ rounds ih =>
    rw [relax]
    split
    · exact ih (round_sound sound)
    · exact round_sound sound

theorem start_within : Within graph source 0 (start source) := by
  intro visited a w walk short
  cases walk with
  | start => exact (if_pos rfl).le
  | step => exact absurd short (Nat.not_succ_le_zero _)

theorem round_within [IsOrderedAddMonoid W] {edges : Nat} (within : Within graph source edges dist) :
    Within graph source (edges + 1) (round graph dist).1 := by
  intro visited a w walk short
  cases walk with
  | start => exact ((round_improves graph dist).le source).trans (within [] source 0 .start (Nat.zero_le _))
  | @step visited b d _ weight walk edge =>
    have before := within visited b d walk (Nat.succ_le_succ_iff.mp short)
    exact (round_le edge dist).trans (add_le_add_left before _)

/-- A round that updates nothing leaves nothing to update. -/
theorem settled_within [IsOrderedAddMonoid W] {edges : Nat} (within : Within graph source edges dist)
    (settled : (round graph dist).2 = false) (more : Nat) : Within graph source more (round graph dist).1 := by
  have same : (round graph dist).1 = dist := congrArg Prod.fst ((round_improves graph dist).unmarked settled)
  induction more with
  | zero =>
    intro visited a w walk short
    rw [same]
    exact within visited a w walk (short.trans (Nat.zero_le _))
  | succ more ih =>
    rw [same] at ih
    exact round_within ih

theorem relax_within [IsOrderedAddMonoid W] {edges : Nat} (rounds : Nat) (within : Within graph source edges dist) :
    Within graph source (edges + rounds) (relax graph rounds dist) := by
  induction rounds generalizing edges dist with
  | zero => exact within
  | succ rounds ih =>
    rw [relax]
    split
    · have later := ih (round_within within)
      rwa [Nat.add_assoc, Nat.add_comm 1] at later
    · rename_i settled
      exact settled_within within (Bool.not_eq_true _ |>.mp settled) _

/-- The distances are those of shortest walks, if no cycle of negative weight can be reached. -/
theorem relax_isDistance [IsOrderedAddMonoid W] {vertices : Finset V} (start_in : source ∈ vertices)
    (closed : ∀ a b weight, Edge graph a b weight → b ∈ vertices) (nonneg : NoNegativeCycle graph source) (a : V) :
    IsDistance graph source a (relax graph (vertices.card - 1) (start source) a) := by
  refine ⟨fun visited w walk => ?_, relax_sound _ start_sound a⟩
  obtain ⟨simple, lighter, walk', nodup, le⟩ := walk.simple nonneg
  have inside := walk'.within start_in closed
  have few : (a :: simple).length ≤ vertices.card := by
    rw [← List.toFinset_card_of_nodup nodup]
    exact Finset.card_le_card fun b member => inside b (List.mem_toFinset.mp member)
  have bound := relax_within (vertices.card - 1) start_within simple a lighter walk' (by
    rw [List.length_cons] at few
    omega)
  exact bound.trans (WithTop.coe_le_coe.mpr le)

end Rounds

end Relaxation

end AfroPay.ShortestPaths
