import AfroPay.PathRouting
import AfroPay.ShortestPaths

/-! The worker's other ranking of paths, by the distance of their destination in a graph that
is built from them. The distances are right, and they do not tell two paths to the same
destination apart. -/
namespace AfroPay.PathRouting
open SharedPenalty ShortestPaths

/-- `graph.entry(source).or_default().push(..)`. -/
def pushEdge (source target : Asset) (weight : ℝ) : Adjacency Asset ℝ → Adjacency Asset ℝ
  | [] => [(source, [(target, weight)])]
  | (key, edges) :: rest =>
    if key = source then (key, edges ++ [(target, weight)]) :: rest
    else (key, edges) :: pushEdge source target weight rest

/-- The hops, each with unit rate from the one before. -/
def pushHops (graph : Adjacency Asset ℝ) (prev : Asset) : List Asset → Adjacency Asset ℝ
  | [] => graph
  | hop :: rest => pushHops (pushEdge prev hop 0 graph) hop rest

noncomputable def pushPath (graph : Adjacency Asset ℝ) (path : PaymentPath) : Adjacency Asset ℝ :=
  let rate := max path.effectiveRate 1e-12
  pushHops (pushEdge path.sourceAsset path.destinationAsset (-Real.log rate) graph) path.sourceAsset path.path

noncomputable def buildGraph (paths : List PaymentPath) : Adjacency Asset ℝ := paths.foldl pushPath []

/-- All assets of the paths. -/
def assets (paths : List PaymentPath) : Finset Asset :=
  (paths.flatMap fun path => path.sourceAsset :: path.destinationAsset :: path.path).toFinset

/-- The order in which a hash map happens to be iterated. -/
structure IterationOrder (graph : Adjacency Asset ℝ) where
  entries : Adjacency Asset ℝ
  perm : entries.Perm graph

section Ranking

variable (paths : List PaymentPath) (order : IterationOrder (buildGraph paths))

/-- The distances from a source after the relaxation loop. -/
noncomputable def dist (source : Asset) : Asset → WithTop ℝ :=
  relax order.entries ((assets paths).card - 1) (start source)

/-- What the worker takes for a negative cycle, and warns of. -/
def HasNegativeCycle (source : Asset) : Prop :=
  ∃ a b weight, Edge order.entries a b weight ∧ dist paths order source a + weight < dist paths order source b

noncomputable def rankPathsBellmanFord : List PaymentPath :=
  match paths.head? with
  | none => paths
  | some first => rankBy (fun path => dist paths order first.sourceAsset path.destinationAsset) paths

def OnePair : Prop :=
  ∀ p ∈ paths, ∀ q ∈ paths, p.sourceAsset = q.sourceAsset ∧ p.destinationAsset = q.destinationAsset

/-- No path has a better rate than one before it. -/
def Falling : Prop := paths.Pairwise fun p q => q.effectiveRate ≤ p.effectiveRate

/-- Paths between the same two assets are put in the order of their rates. -/
def RanksByRate : Prop :=
  OnePair paths → (∀ p ∈ paths, 0 < p.effectiveRate) →
    (rankPathsBellmanFord paths order).Perm paths ∧ Falling (rankPathsBellmanFord paths order)

/-- Without a negative cycle in reach the distances are those of shortest walks. -/
def FindsDistances : Prop :=
  ∀ first ∈ paths.head?, NoNegativeCycle (buildGraph paths) first.sourceAsset →
    ∀ asset, IsDistance (buildGraph paths) first.sourceAsset asset (dist paths order first.sourceAsset asset)

end Ranking

section Building

variable {graph : Adjacency Asset ℝ} {a b : Asset} {weight : ℝ}

theorem edge_cons {key : Asset} {edges : List (Asset × ℝ)} :
    Edge ((key, edges) :: graph) a b weight ↔ key = a ∧ (b, weight) ∈ edges ∨ Edge graph a b weight := by
  simp only [Edge, List.mem_cons, Prod.mk.injEq]
  constructor
  · rintro ⟨found, ⟨rfl, rfl⟩ | listed, member⟩
    · exact .inl ⟨rfl, member⟩
    · exact .inr ⟨found, listed, member⟩
  · rintro (⟨rfl, member⟩ | ⟨found, listed, member⟩)
    · exact ⟨edges, .inl ⟨rfl, rfl⟩, member⟩
    · exact ⟨found, .inr listed, member⟩

/-- One edge is added. -/
theorem edge_pushEdge {source target : Asset} {added : ℝ} :
    Edge (pushEdge source target added graph) a b weight ↔
      Edge graph a b weight ∨ source = a ∧ target = b ∧ added = weight := by
  induction graph with
  | nil => simp [pushEdge, Edge, eq_comm]
  | cons group rest ih =>
    obtain ⟨key, edges⟩ := group
    rw [pushEdge]
    split
    · rename_i here
      subst here
      simp only [edge_cons, List.mem_append, List.mem_singleton, Prod.mk.injEq]
      tauto
    · rw [edge_cons, edge_cons, ih, or_assoc]

theorem edge_pushHops {prev : Asset} {hops : List Asset} (edge : Edge (pushHops graph prev hops) a b weight) :
    Edge graph a b weight ∨ b ∈ hops := by
  induction hops generalizing graph prev with
  | nil => exact .inl edge
  | cons hop rest ih =>
    rcases ih edge with before | later
    · rcases edge_pushEdge.mp before with old | ⟨-, here, -⟩
      · exact .inl old
      · exact .inr (here ▸ List.mem_cons_self)
    · exact .inr (List.mem_cons_of_mem _ later)

theorem mem_assets {paths : List PaymentPath} {asset : Asset} : asset ∈ assets paths ↔
    ∃ path ∈ paths, asset = path.sourceAsset ∨ asset = path.destinationAsset ∨ asset ∈ path.path := by
  simp [assets]

/-- Every edge leads to a known asset. -/
theorem edge_buildGraph {paths : List PaymentPath} (edge : Edge (buildGraph paths) a b weight) : b ∈ assets paths := by
  suffices known : ∀ a b weight, Edge (buildGraph paths) a b weight → b ∈ assets paths from known a b weight edge
  refine List.foldlRecOn (motive := fun graph => ∀ a b weight, Edge graph a b weight → b ∈ assets paths) _ _ ?_ ?_
  · rintro a b weight ⟨edges, absent, -⟩
    cases absent
  · intro graph known path listed a b weight edge
    rcases edge_pushHops edge with pushed | hop
    · rcases edge_pushEdge.mp pushed with old | ⟨-, here, -⟩
      · exact known a b weight old
      · exact mem_assets.mpr ⟨path, listed, .inr (.inl here.symm)⟩
    · exact mem_assets.mpr ⟨path, listed, .inr (.inr hop)⟩

theorem edge_order {paths : List PaymentPath} (order : IterationOrder (buildGraph paths)) (a b : Asset) (weight : ℝ) :
    Edge order.entries a b weight ↔ Edge (buildGraph paths) a b weight := by
  simp only [Edge, order.perm.mem_iff]

end Building

section Distances

variable {paths : List PaymentPath} {first : PaymentPath} (order : IterationOrder (buildGraph paths))

/-- The relaxation loop finds the shortest distances, in whatever order it goes through the graph. -/
theorem dist_isDistance (head : first ∈ paths.head?) (nonneg : NoNegativeCycle (buildGraph paths) first.sourceAsset)
    (asset : Asset) :
    IsDistance (buildGraph paths) first.sourceAsset asset (dist paths order first.sourceAsset asset) := by
  have source_known : first.sourceAsset ∈ assets paths :=
    mem_assets.mpr ⟨first, List.mem_of_mem_head? head, .inl rfl⟩
  have targets_known : ∀ a b weight, Edge order.entries a b weight → b ∈ assets paths := fun a b weight edge =>
    edge_buildGraph ((edge_order order a b weight).mp edge)
  have found := relax_isDistance source_known targets_known
    (nonneg.congr fun a b weight => (edge_order order a b weight).symm) asset
  exact found.congr (edge_order order)

/-- The worker warns of no negative cycle where there is none. -/
theorem not_hasNegativeCycle (head : first ∈ paths.head?)
    (nonneg : NoNegativeCycle (buildGraph paths) first.sourceAsset) :
    ¬ HasNegativeCycle paths order first.sourceAsset := by
  rintro ⟨a, b, weight, edge, below⟩
  have step := (dist_isDistance order head nonneg a).le_step (dist_isDistance order head nonneg b)
    ((edge_order order a b weight).mp edge)
  exact absurd below (not_lt.mpr step)

/-- Whatever the paths, ranking rearranges them. -/
theorem rank_perm : (rankPathsBellmanFord paths order).Perm paths := by
  unfold rankPathsBellmanFord
  split
  · exact List.Perm.refl _
  · exact List.perm_insertionSort _ _

/-- Paths to one destination all have the same key and stay where they are. -/
theorem rank_onePair (pair : OnePair paths) : rankPathsBellmanFord paths order = paths := by
  unfold rankPathsBellmanFord
  split
  · rfl
  · refine List.Pairwise.insertionSort_eq (List.pairwise_of_forall_mem_list fun p p_listed q q_listed => ?_)
    exact (congrArg _ (pair p p_listed q q_listed).2).le

end Distances

/-- The distances are right for every input, and paths between two assets come out in the
order of their rates just when they were given in it. -/
theorem ranks_iff (paths : List PaymentPath) (order : IterationOrder (buildGraph paths)) :
    RanksByRate paths order ∧ FindsDistances paths order ↔
      (OnePair paths → (∀ p ∈ paths, 0 < p.effectiveRate) → Falling paths) := by
  have distances : FindsDistances paths order := fun first head nonneg => dist_isDistance order head nonneg
  rw [and_iff_left distances]
  constructor
  · intro ranks pair positive
    have falling := (ranks pair positive).2
    rwa [rank_onePair order pair] at falling
  · intro given pair positive
    refine ⟨rank_perm order, ?_⟩
    rw [rank_onePair order pair]
    exact given pair positive

section Test

def usdc : Asset := ⟨"USDC", "GA5ZSEJYB37JRC5AVCIA5MOP4RHTM335X2KGX3IHOJAPP5RE34K4KZVN"⟩

def eurt : Asset := ⟨"EURT", "GAP5LETOV6YIE62YAM56STDANPRDO7ZFDBGSNHJQIYGGKSMOZAHOOS2S"⟩

def ngn : Asset := ⟨"NGNT", "GAWODAROMJ33V5YDFY3NPYTHVYQG7MJXVJ2ND3AOGIHYRWINES6ACCPD"⟩

/-- The better rate is given second and stays second. -/
theorem better_rate_second :
    let paths := [makePath eurt ngn [] 980, makePath eurt ngn [usdc] 1050]
    ¬ RanksByRate paths ⟨buildGraph paths, .refl _⟩ := by
  intro paths ranks
  have pair : OnePair paths := by simp [OnePair, paths, makePath]
  have positive : ∀ p ∈ paths, 0 < p.effectiveRate := by simp [paths, makePath]
  have falling := (ranks pair positive).2
  rw [rank_onePair _ pair] at falling
  simp [Falling, paths, makePath] at falling
  linarith only [falling]

end Test

end AfroPay.PathRouting
