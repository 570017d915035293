import HamZaboon.Words.Scheduling

/-! # Session assembly and refill

The tier registry (`services/session/tier_registry.py`), the list a new session
is built from (`assembly.py`), and the refill after an in-session delete
(`srs_handler.py`).  Both take words from the same two queues: due reviews, then
words waiting for their first exposure.
-/

namespace HamZaboon
open Library

variable {K : Type}

/-- A candidate of `iter_tier_candidates`; the policy reference is the activity. -/
structure TierCandidate (K : Type) where
  row : SavedWord K
  activityType : ActivityType
  sourceTier : Nat

def iterTierCandidates (dueRows feRows : List (SavedWord K)) (excludeIds : List WordId) :
    List (TierCandidate K) :=
  (dueRows.filter (fun r => r.id ∉ excludeIds)).map (⟨·, .srsReview, 1⟩) ++
    (feRows.filter (fun r => r.id ∉ excludeIds)).map (⟨·, .firstExposure, 2⟩)

def makeTierNode (c : TierCandidate K) (userId : UserId) (targetLang : Option String) :
    SessionNode where
  activityType := c.activityType
  sourceTier := c.sourceTier
  word := c.row.word
  sourceId := some c.row.id
  userId := userId
  targetLang := targetLang
  gradePolicyRef := c.activityType

def buildTier12Nodes (userId : UserId) (targetLang : Option String) (maxNodes : Int)
    (dueRows feRows : List (SavedWord K)) : List SessionNode :=
  ((iterTierCandidates dueRows feRows []).take maxNodes.toNat).map
    (makeTierNode · userId targetLang)

def nextTierNode (userId : UserId) (targetLang : Option String) (excludeIds : List WordId)
    (dueRows feRows : List (SavedWord K)) : Option SessionNode :=
  (iterTierCandidates dueRows feRows excludeIds).head?.map (makeTierNode · userId targetLang)

/-- `generate_tier3_node`, a stub. -/
def generateTier3Node (_ : Tier3Context) : Option SessionNode := none

/-- The nodes of a list are those of different words. -/
def DistinctWords (nodes : List SessionNode) : Prop := (nodes.map (·.sourceId)).Nodup

theorem map_sourceId_buildTier12 (u : UserId) (lang : Option String) (n : Int)
    (due fe : List (SavedWord K)) :
    (buildTier12Nodes u lang n due fe).map (·.sourceId) =
      ((due.map (·.id) ++ fe.map (·.id)).take n.toNat).map some := by
  have hall : ∀ l : List (SavedWord K), l.filter (fun r => r.id ∉ ([] : List WordId)) = l :=
    fun l => List.filter_eq_self.mpr (by simp)
  unfold buildTier12Nodes iterTierCandidates
  rw [hall, hall, List.map_map, List.map_take, List.map_take, List.map_append, List.map_append]
  simp [makeTierNode, Function.comp_def]

theorem sourceId_nextTierNode {u : UserId} {lang : Option String} {exclude : List WordId}
    {due fe : List (SavedWord K)} {node : SessionNode}
    (h : nextTierNode u lang exclude due fe = some node) :
    ∃ w, node.sourceId = some w ∧ w ∉ exclude := by
  unfold nextTierNode at h
  obtain ⟨c, hc, rfl⟩ := Option.map_eq_some_iff.mp h
  have hmem := List.mem_of_head? hc
  refine ⟨c.row.id, rfl, ?_⟩
  rcases List.mem_append.mp hmem with hmem | hmem
  · obtain ⟨r, hr, rfl⟩ := List.mem_map.mp hmem
    exact of_decide_eq_true (List.mem_filter.mp hr).2
  · obtain ⟨r, hr, rfl⟩ := List.mem_map.mp hmem
    exact of_decide_eq_true (List.mem_filter.mp hr).2

/-! ## One order for build and refill -/

theorem iterTierCandidates_exclude (due fe : List (SavedWord K)) (exclude : List WordId) :
    iterTierCandidates due fe exclude =
      (iterTierCandidates due fe []).filter (fun c => c.row.id ∉ exclude) := by
  have hall : ∀ l : List (SavedWord K), l.filter (fun r => r.id ∉ ([] : List WordId)) = l :=
    fun l => List.filter_eq_self.mpr (by simp)
  unfold iterTierCandidates
  rw [hall, hall, List.filter_append, List.filter_map, List.filter_map]
  rfl

theorem tier_of_mem {due fe : List (SavedWord K)} {exclude : List WordId} {c : TierCandidate K}
    (h : c ∈ iterTierCandidates due fe exclude) :
    c.activityType = .srsReview ∧ c.sourceTier = 1 ∨
      c.activityType = .firstExposure ∧ c.sourceTier = 2 := by
  rcases List.mem_append.mp h with h | h
  · obtain ⟨r, -, rfl⟩ := List.mem_map.mp h
    exact Or.inl ⟨rfl, rfl⟩
  · obtain ⟨r, -, rfl⟩ := List.mem_map.mp h
    exact Or.inr ⟨rfl, rfl⟩

theorem sorted_iterTierCandidates (due fe : List (SavedWord K)) (exclude : List WordId) :
    (iterTierCandidates due fe exclude).Pairwise (fun a b => a.sourceTier ≤ b.sourceTier) := by
  have tier : ∀ (l : List (SavedWord K)) (a : ActivityType) (n : Nat),
      (l.map (fun r => (⟨r, a, n⟩ : TierCandidate K))).Pairwise
        (fun a b => a.sourceTier ≤ b.sourceTier) :=
    fun l a n => List.pairwise_map.mpr (List.pairwise_of_forall (fun _ _ => le_refl n))
  refine List.pairwise_append.mpr ⟨tier _ _ _, tier _ _ _, ?_⟩
  intro a ha b hb
  obtain ⟨r, -, rfl⟩ := List.mem_map.mp ha
  obtain ⟨r', -, rfl⟩ := List.mem_map.mp hb
  show 1 ≤ 2
  omega

theorem nextTierNode_eq (u : UserId) (lang : Option String) (exclude : List WordId)
    (due fe : List (SavedWord K)) :
    nextTierNode u lang exclude due fe =
      ((iterTierCandidates due fe []).find? (fun c => c.row.id ∉ exclude)).map
        (makeTierNode · u lang) := by
  unfold nextTierNode
  rw [iterTierCandidates_exclude, List.head?_filter]

theorem nextTierNode_eq_none_iff (u : UserId) (lang : Option String) (exclude : List WordId)
    (due fe : List (SavedWord K)) :
    nextTierNode u lang exclude due fe = none ↔
      ∀ c ∈ iterTierCandidates due fe [], c.row.id ∈ exclude := by
  rw [nextTierNode_eq, Option.map_eq_none_iff, List.find?_eq_none]
  refine forall₂_congr (fun c _ => ?_)
  rw [decide_eq_true_eq, not_not]

theorem getPreFirstExposureWords_limit (s : WordStore K) (u : UserId) (lang : Option String)
    (n : Int) :
    s.getPreFirstExposureWords u lang (some n) =
      (s.getPreFirstExposureWords u lang none).take n.toNat := by
  simp only [WordStore.getPreFirstExposureWords]
  split
  · rw [show n.toNat = 0 by omega, List.take_zero]
  · rfl

section Queues
variable [Field K] [LinearOrder K] [Elementary K]

def WordStore.buildSessionList (s : WordStore K) (zone : Zone) (now : Instant) (userId : UserId)
    (targetLang goal level : Option String) (plan : String) (maxNodes : Int) :
    List SessionNode × Option Tier3Context :=
  let due := s.dueWordsForUser zone now userId targetLang
  let nodes := buildTier12Nodes userId targetLang maxNodes due []
  let nodes :=
    if (nodes.length : Int) < maxNodes then
      let remaining := maxNodes - nodes.length
      let fe := s.getPreFirstExposureWords userId targetLang (some remaining)
      nodes ++ buildTier12Nodes userId targetLang remaining [] fe
    else nodes
  let remaining := maxNodes - nodes.length
  (nodes,
    if 0 < remaining then some ⟨userId, targetLang, goal, level, plan, remaining.toNat⟩ else none)

/-- `state.nodes.append(…)`. -/
def SessionState.append (st : SessionState K) (node : SessionNode) : SessionState K :=
  { st with nodes := st.nodes ++ [node] }

/-- The ids a refill leaves out: the words of the session's list. -/
def SessionState.queuedIds (st : SessionState K) : List WordId := st.nodes.filterMap (·.sourceId)

def WordStore.nextDueNode (s : WordStore K) (zone : Zone) (now : Instant) (userId : UserId)
    (targetLang : Option String) (st : SessionState K) : Option SessionNode :=
  nextTierNode userId targetLang st.queuedIds (s.dueWordsForUser zone now userId targetLang)
    (s.getPreFirstExposureWords userId targetLang none)

/-- The node `_refill_session_from_due` appends, if any. -/
def WordStore.refillNode (s : WordStore K) (zone : Zone) (now : Instant) (userId : UserId)
    (st : SessionState K) : Option SessionNode :=
  st.nodes.head?.bind fun node => s.nextDueNode zone now userId node.targetLang st

def WordStore.refillSessionFromDue (s : WordStore K) (zone : Zone) (now : Instant)
    (userId : UserId) (st : SessionState K) : SessionState K :=
  match s.refillNode zone now userId st with
  | some node => st.append node
  | none => st

/-- **A new session shows each word once.** -/
theorem distinctWords_buildSessionList (s : WordStore K) (zone : Zone) (now : Instant) (u : UserId)
    (lang goal level : Option String) (plan : String) (maxNodes : Int) :
    DistinctWords (s.buildSessionList zone now u lang goal level plan maxNodes).1 := by
  have hinj : Function.Injective (some : WordId → Option WordId) := Option.some_injective _
  have htake : ∀ (ids : List WordId) (n : Nat), ids.Nodup → ((ids.take n).map some).Nodup :=
    fun ids n h => (h.sublist (List.take_sublist n ids)).map hinj
  have hdue := nodup_dueWordsForUser s zone now u lang
  simp only [WordStore.buildSessionList, DistinctWords]
  split
  · rw [List.map_append, map_sourceId_buildTier12, map_sourceId_buildTier12]
    simp only [List.map_nil, List.append_nil, List.nil_append]
    refine List.nodup_append'.mpr
      ⟨htake _ _ hdue, htake _ _ (nodup_getPreFirstExposureWords s u lang _), ?_⟩
    -- a word is due or waits for its first exposure, never both
    intro x hx hx'
    obtain ⟨i, hi, rfl⟩ := List.mem_map.mp hx
    obtain ⟨j, hj, hij⟩ := List.mem_map.mp hx'
    obtain rfl := hinj hij
    obtain ⟨a, ha, hai⟩ := List.mem_map.mp (List.mem_of_mem_take hi)
    obtain ⟨b, hb, hbi⟩ := List.mem_map.mp (List.mem_of_mem_take hj)
    obtain ⟨har, -, hdone⟩ := mem_dueWordsForUser ha
    obtain ⟨hbr, -, hwait⟩ := mem_getPreFirstExposureWords hb
    rw [s.savedWords.key_injective har hbr (hai.trans hbi.symm), hwait] at hdone
    cases hdone
  · rw [map_sourceId_buildTier12]
    simp only [List.map_nil, List.append_nil]
    exact htake _ _ hdue

theorem distinctWords_append {s : WordStore K} {zone : Zone} {now : Instant} {u : UserId}
    {st : SessionState K} {node : SessionNode} (hnode : s.refillNode zone now u st = some node)
    (h : DistinctWords st.nodes) : DistinctWords (st.append node).nodes := by
  obtain ⟨head, -, hnext⟩ := Option.bind_eq_some_iff.mp hnode
  obtain ⟨w, hw, hnot⟩ := sourceId_nextTierNode hnext
  simp only [SessionState.append, DistinctWords]
  rw [List.map_append, List.map_singleton]
  refine List.nodup_append'.mpr ⟨h, List.nodup_singleton _, ?_⟩
  intro x hx hx'
  rw [List.mem_singleton.mp hx', hw] at hx
  obtain ⟨n, hn, hnw⟩ := List.mem_map.mp hx
  exact hnot (List.mem_filterMap.mpr ⟨n, hn, hnw⟩)

/-- The merged tier order of a user: what a session would show without a budget. -/
def WordStore.tierOrder (s : WordStore K) (zone : Zone) (now : Instant) (userId : UserId)
    (targetLang : Option String) : List (TierCandidate K) :=
  iterTierCandidates (s.dueWordsForUser zone now userId targetLang)
    (s.getPreFirstExposureWords userId targetLang none) []

theorem buildSessionList_eq (s : WordStore K) (zone : Zone) (now : Instant) (u : UserId)
    (lang goal level : Option String) (plan : String) (maxNodes : Int) :
    (s.buildSessionList zone now u lang goal level plan maxNodes).1 =
      ((s.tierOrder zone now u lang).take maxNodes.toNat).map (makeTierNode · u lang) := by
  have hnone : ∀ l : List (SavedWord K), l.filter (fun r => r.id ∉ ([] : List WordId)) = l :=
    fun l => List.filter_eq_self.mpr (by simp)
  simp only [WordStore.buildSessionList, WordStore.tierOrder, buildTier12Nodes,
    iterTierCandidates, hnone, List.map_nil, List.append_nil, List.nil_append]
  generalize hdue : s.dueWordsForUser zone now u lang = due
  rw [List.take_append, List.map_append]
  split
  · rename_i hroom
    simp only [List.length_map, List.length_take] at hroom ⊢
    -- all due words fit, the rest of the budget goes to first exposures
    have hfit : due.length ≤ maxNodes.toNat := by omega
    rw [getPreFirstExposureWords_limit, ← List.map_take, ← List.map_take, List.take_take,
      show min (maxNodes - (min maxNodes.toNat due.length : Nat)).toNat
        (maxNodes - (min maxNodes.toNat due.length : Nat)).toNat =
          maxNodes.toNat - due.length by omega]
    simp only [List.map_take]
  · rename_i hroom
    simp only [List.length_map, List.length_take] at hroom ⊢
    have hfull : maxNodes.toNat - due.length = 0 := by omega
    rw [hfull, List.take_zero, List.map_nil, List.append_nil]

/-- **Build and refill walk one order.**  The build is a prefix of the merged tier
order within the budget, tier 1 before tier 2 and each word once, and the refill
returns the first node of that order whose id is not excluded, if there is one. -/
theorem build_refill_agree (s : WordStore K) (zone : Zone) (now : Instant) (u : UserId)
    (lang goal level : Option String) (plan : String) (maxNodes : Int) (exclude : List WordId) :
    let built := (s.buildSessionList zone now u lang goal level plan maxNodes).1
    let order := s.tierOrder zone now u lang
    let next := nextTierNode u lang exclude (s.dueWordsForUser zone now u lang)
      (s.getPreFirstExposureWords u lang none)
    (built.length : Int) ≤ max 0 maxNodes ∧
      built.Pairwise (fun a b => a.sourceTier ≤ b.sourceTier) ∧
      (∀ node ∈ built, node.activityType = .srsReview ∧ node.sourceTier = 1 ∨
        node.activityType = .firstExposure ∧ node.sourceTier = 2) ∧
      DistinctWords built ∧
      built <+: order.map (makeTierNode · u lang) ∧
      next = (order.find? (fun c => c.row.id ∉ exclude)).map (makeTierNode · u lang) ∧
      (next = none ↔ ∀ c ∈ order, c.row.id ∈ exclude) := by
  intro built order next
  have hbuilt : built = (order.take maxNodes.toNat).map (makeTierNode · u lang) :=
    buildSessionList_eq s zone now u lang goal level plan maxNodes
  refine ⟨?_, ?_, ?_, distinctWords_buildSessionList s zone now u lang goal level plan maxNodes,
    ?_, nextTierNode_eq u lang exclude _ _, nextTierNode_eq_none_iff u lang exclude _ _⟩
  · have hlen : built.length ≤ maxNodes.toNat := by
      rw [hbuilt, List.length_map]
      exact List.length_take_le _ _
    omega
  · rw [hbuilt]
    exact List.pairwise_map.mpr
      ((sorted_iterTierCandidates _ _ _).sublist (List.take_sublist _ _))
  · rw [hbuilt]
    intro node hnode
    obtain ⟨c, hc, rfl⟩ := List.mem_map.mp hnode
    exact tier_of_mem (List.mem_of_mem_take hc)
  · rw [hbuilt, List.map_take]
    exact List.take_prefix _ _

end Queues

end HamZaboon
