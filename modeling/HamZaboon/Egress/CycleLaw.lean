import HamZaboon.Egress.ProviderCycle
import Mathlib.Data.Prod.Lex

/-! # What a cycle picks and cools

A cycle proves its candidates in the order of their pings, one after the other, since
the selector that it builds for the purpose has nothing cached and gives the order back
(`proveOrder_eq`).  So the winner is the first clean exit of that order, the exits that
are cooled are among those that were checked, and the width of a batch does not show
(`runCycle_exact`).
-/

namespace HamZaboon
open Library

variable {E : Type}

/-! ## The candidates -/

section Candidates
variable (lib : CycleLib) (call : CycleCall E)

theorem refreshCandidates_facts (rows : List PoolRow) :
    (refreshCandidates lib.toStrLib rows).Nodup ∧ "" ∉ refreshCandidates lib.toStrLib rows := by
  rw [refreshCandidates]
  refine List.foldlRecOn (motive := fun ids => ids.Nodup ∧ "" ∉ ids) _ _
    ⟨.nil, List.not_mem_nil⟩ fun ids h row _ => ?_
  split
  · rename_i hrow
    refine ⟨List.nodup_append'.mpr ⟨h.1, List.nodup_singleton _, ?_⟩, ?_⟩
    · exact fun id hid hnew => hrow.2 (List.mem_singleton.mp hnew ▸ hid)
    · rw [List.mem_append, List.mem_singleton]
      rintro (hid | hid)
      · exact h.2 hid
      · exact hrow.1 hid.symm
  · exact h

namespace CycleCall

theorem candidates_facts (want : String) :
    (call.candidates lib want).Nodup ∧ "" ∉ call.candidates lib want := by
  obtain ⟨hnodup, hempty⟩ := refreshCandidates_facts lib call.poolRows
  simp only [candidates]
  split
  · rename_i hhit
    refine ⟨List.nodup_cons.mpr ⟨by simp, hnodup.filter _⟩, ?_⟩
    rw [List.mem_cons]
    rintro (h | h)
    · exact hhit.1 h.symm
    · exact hempty (List.mem_of_mem_filter h)
  · exact ⟨hnodup, hempty⟩

/-! ## The order of the pings -/

/-- What orders the exits: those that answer first, by their latency. -/
def pingRank (exit : String) : Bool ×ₗ Rat :=
  toLex ((call.latency lib exit).isNone, (call.latency lib exit).getD 0)

/-- The candidates by rank, and in their own order where the rank is the same. -/
structure ProbeOrder (candidates order : List String) : Prop where
  perm : order.Perm candidates
  ranked : order.Pairwise fun a b => call.pingRank lib a < call.pingRank lib b ∨
    call.pingRank lib a = call.pingRank lib b ∧ [a, b].Sublist candidates

theorem pingOrder_probeOrder (candidates : List String) :
    call.ProbeOrder lib candidates (call.pingOrder lib candidates) where
  perm := by
    have hsplit := List.filter_append_perm (fun exit => (call.latency lib exit).isSome) candidates
    refine ((sortBy_perm _ _).append_right _).trans (.trans (.of_eq ?_) hsplit)
    simp
  ranked := by
    refine List.pairwise_append.mpr ⟨?_, ?_, ?_⟩
    · have hsome : ∀ a ∈ sortBy (fun exit => (call.latency lib exit).getD 0)
          (candidates.filter fun exit => (call.latency lib exit).isSome),
          (call.latency lib a).isNone = false := by
        intro a ha
        obtain ⟨-, ha⟩ := List.mem_filter.mp ((mem_sortBy _).mp ha)
        simpa using ha
      refine (stable_sortBy _ _).imp_of_mem fun {a b} ha hb h => ?_
      rw [pingRank, pingRank, hsome a ha, hsome b hb]
      exact h.imp (fun hlt => Prod.Lex.toLex_lt_toLex.mpr (.inr ⟨rfl, hlt⟩))
        fun heq => ⟨by rw [heq.1], heq.2.trans List.filter_sublist⟩
    · refine List.pairwise_iff_forall_sublist.mpr fun {a b} h => .inr ⟨?_, h.trans List.filter_sublist⟩
      have hnone : ∀ c ∈ [a, b], call.latency lib c = none := fun c hc =>
        Option.isNone_iff_eq_none.mp (List.mem_filter.mp (h.mem hc)).2
      rw [pingRank, pingRank, hnone a (by simp), hnone b (by simp)]
    · intro a ha b hb
      obtain ⟨-, ha⟩ := List.mem_filter.mp ((mem_sortBy _).mp ha)
      obtain ⟨-, hb⟩ := List.mem_filter.mp hb
      refine .inl (Prod.Lex.toLex_lt_toLex.mpr (.inl ?_))
      rw [hb, Option.isNone_eq_false_iff.mpr ha]
      exact Bool.false_lt_true

end CycleCall

end Candidates

/-! ## The selector gives the order back -/

theorem dedupRows_eq {rows : List PoolRow} (hnodup : (rows.map (·.rowId)).Nodup)
    (hempty : ∀ row ∈ rows, row.rowId ≠ "") : dedupRows rows = rows := by
  have hfold : ∀ rows out : List PoolRow, ((out ++ rows).map (·.rowId)).Nodup →
      (∀ row ∈ rows, row.rowId ≠ "") →
      rows.foldl (fun out row =>
        if row.rowId = "" || out.any (·.rowId = row.rowId) then out else out ++ [row]) out =
        out ++ rows := by
    intro rows
    induction rows with
    | nil => simp
    | cons row rows ih =>
      intro out hnodup hempty
      have hnew : out.any (·.rowId = row.rowId) = false := by
        rw [List.any_eq_false]
        intro other hother heq
        rw [List.map_append, List.map_cons] at hnodup
        exact (List.disjoint_of_nodup_append hnodup) (List.mem_map_of_mem hother)
          (by simp [of_decide_eq_true heq])
      rw [List.foldl_cons, hnew, decide_eq_false (hempty row List.mem_cons_self), Bool.or_false,
        if_neg Bool.false_ne_true, ih (out ++ [row]) (by simpa using hnodup)
          fun r hr => hempty r (List.mem_cons_of_mem _ hr), List.append_assoc]
      rfl
  exact hfold rows [] hnodup hempty

theorem orderPaidFirst_eq (lib : StrLib) {source : String} {rows : List PoolRow}
    (h : ∀ row ∈ rows, row.rowSource lib = source) : orderPaidFirst lib rows = rows := by
  by_cases hpaid : source = paidSourceTag
  · rw [orderPaidFirst, List.filter_eq_self.mpr fun row hrow => by simp [h row hrow, hpaid],
      List.filter_eq_nil_iff.mpr fun row hrow => by simp [h row hrow, hpaid], List.append_nil]
  · rw [orderPaidFirst, List.filter_eq_nil_iff.mpr fun row hrow => by simp [h row hrow, hpaid],
      List.filter_eq_self.mpr fun row hrow => by simp [h row hrow, hpaid], List.nil_append]

theorem select_cycleSource (lib : StrLib) {want : String} (hwant : want ≠ "") {order : List String}
    (hnodup : order.Nodup) (hempty : "" ∉ order) :
    select (E := E) lib (fun _ => .ok []) (fun _ => .ok (cycleSource order)) want =
      order.head?.map fun exitId => ⟨exitId, false, "subscription"⟩ := by
  have hids : (cycleSource order).map (·.rowId) = order := by
    rw [cycleSource, List.filter_eq_self.mpr fun sid hsid => ?_, List.map_map]
    · exact List.map_id _
    · exact decide_eq_true fun h => hempty (h ▸ hsid)
  have hrows : orderPaidFirst lib (dedupRows (cycleSource order)) = cycleSource order := by
    rw [dedupRows_eq (by rwa [hids]) fun row hrow h => ?_]
    · refine @orderPaidFirst_eq lib (lib.lower paidSourceTag) _ fun row hrow => ?_
      obtain ⟨sid, -, rfl⟩ := List.mem_map.mp hrow
      rfl
    · exact hempty (hids ▸ h ▸ List.mem_map_of_mem hrow)
  have hfirst : order.find? (· ≠ "") = order.head? := by
    cases order with
    | nil => rfl
    | cons exit order =>
      exact List.find?_cons_of_pos (decide_eq_true fun h => hempty (h ▸ List.mem_cons_self))
  have hserved : ((orderPaidFirst lib (dedupRows (cycleSource order))).map (·.rowId)).find?
      (· ≠ "") = order.head? := by rw [hrows, hids, hfirst]
  rw [select, if_neg hwant]
  exact congrArg (Option.map fun exitId => (⟨exitId, false, "subscription"⟩ : Selection)) hserved

theorem proveOrder_eq (lib : CycleLib) (want : String) {order : List String}
    (hnodup : order.Nodup) (hempty : "" ∉ order) :
    CycleCall.proveOrder (E := E) lib want order = order := by
  rw [CycleCall.proveOrder]
  by_cases hwant : want = ""
  · rw [select, if_pos hwant]
  · rw [select_cycleSource lib.toStrLib hwant hnodup hempty]
    cases order with
    | nil => rfl
    | cons exit order =>
      have hrest : (exit :: order).filter (· ≠ exit) = order := by
        rw [List.filter_cons_of_neg (by simp), List.filter_eq_self]
        exact fun other hother => decide_eq_true fun h =>
          (List.nodup_cons.mp hnodup).1 (h ▸ hother)
      exact congrArg (exit :: ·) hrest

/-! ## The run of a cycle -/

namespace CycleCall
variable (lib : CycleLib) (call : CycleCall E)

def isClean (exit : String) : Bool :=
  match call.checkFn exit with
  | .ok (.str verdict, _) => verdict = "clean"
  | _ => false

/-- The check of the exit carries the code of a used up quota. -/
def CarriesQuota (exit : String) : Prop :=
  ∃ verdict info, call.checkFn exit = .ok (verdict, .obj info) ∧
    (Dict.get info "http").pyEq quotaHttpCode = true

theorem standing_checkVerdict (exit : String) :
    decide (standing (.ok (call.checkVerdict exit) : Except E String) = .clean) =
      call.isClean exit := by
  unfold checkVerdict
  split
  · rename_i verdict info heq
    have hisClean : call.isClean exit = decide (verdict = "clean") := by rw [isClean, heq]
    rw [hisClean]
    by_cases hclean : verdict = "clean"
    · simp [standing, hclean]
    · by_cases hblocked : verdict = "blocked"
      · simp [standing, hblocked]
      · simp [standing, hclean, hblocked]
  · rename_i hnot
    have hisClean : call.isClean exit = false := by
      unfold isClean
      split
      · exact absurd ‹_› (hnot _ _)
      · rfl
    rw [hisClean]
    rfl

theorem carriesQuota_iff (exit : String) :
    call.CarriesQuota exit ↔ ((call.checkInfo exit).get "http").pyEq quotaHttpCode = true := by
  unfold checkInfo CarriesQuota
  split
  · rename_i verdict info heq
    constructor
    · rintro ⟨v, i, hcheck, hquota⟩
      rw [heq] at hcheck
      cases hcheck
      exact hquota
    · exact fun h => ⟨verdict, info, heq, h⟩
  · rename_i hnot
    refine iff_of_false ?_ (by decide)
    rintro ⟨verdict, info, hcheck, -⟩
    exact hnot verdict info hcheck

def checkedExits (order : List String) : List String :=
  scanned call.isClean (cycleDepth call.keep).toNat order

theorem cycleDepth_pos (keep : JsonValue) : 0 < cycleDepth keep := by
  unfold cycleDepth
  split
  · split
    · decide
    · omega
  · decide

theorem find?_isClean (order : List String) :
    ((call.checkedExits order).filter call.isClean).head? = order.find? call.isClean := by
  obtain ⟨depth, hdepth⟩ : ∃ depth, (cycleDepth call.keep).toNat = depth + 1 :=
    ⟨(cycleDepth call.keep).toNat - 1, by have := cycleDepth_pos call.keep; omega⟩
  rw [checkedExits, hdepth, filter_scanned, ← List.head?_filter]
  cases order.filter call.isClean <;> rfl

/-- The exits that a cycle cools, of those in the order. -/
def cooledExits (want : String) (order : List String) : List (String × String × JsonValue) :=
  let infos := (call.checkedExits order).map fun exit => (exit, call.checkInfo exit)
  (order.filter fun exit => (httpCode infos exit).pyEq quotaHttpCode &&
    exit ∉ (call.checkedExits order).filter call.isClean).map
      fun exit => (exit, want, httpCode infos exit)

theorem proveWith_checked (width : Int) (order : List String) :
    let proving := proveWith (E := E) (fun exit => .ok (call.checkVerdict exit)) width
      (cycleDepth call.keep) order
    proving.calls = call.checkedExits order ∧
      proving.proof.clean = (call.checkedExits order).filter call.isClean := by
  have hclean : (fun exit => decide (standing (.ok (call.checkVerdict exit) : Except E String) =
      .clean)) = call.isClean := funext call.standing_checkVerdict
  intro proving
  have hproving := proveWith_eq (E := E) (fun exit => .ok (call.checkVerdict exit)) width
    (cycleDepth call.keep) order
  rw [hclean] at hproving
  refine ⟨congrArg Proving.calls hproving, (congrArg (·.proof.clean) hproving).trans ?_⟩
  exact List.filter_congr fun exit _ => call.standing_checkVerdict exit

theorem lookup_infos {exits : List String} (exit : String) :
    (exits.map fun exit => (exit, call.checkInfo exit)).lookup exit =
      if exit ∈ exits then some (call.checkInfo exit) else none := by
  induction exits with
  | nil => rfl
  | cons first exits ih =>
    rw [List.map_cons, List.lookup_cons, ih]
    by_cases h : exit = first
    · simp [h]
    · simp [h, beq_false_of_ne h]

/-- The states before the last two. -/
def proveNames : List String := ["cache_check", "refresh", "ping", "prove"]

theorem runCycle_of_isEmpty (provider : Option String)
    (h : (call.candidates lib (lib.normProvider provider)).isEmpty = true) :
    ∃ states, states.map CycleState.name = proveNames ∧ call.runCycle lib provider =
      park lib (lib.normProvider provider) "no exit available (pool empty)" states [] [] := by
  rw [runCycle]
  dsimp only
  rw [h, if_pos rfl]
  exact ⟨_, rfl, rfl⟩

theorem runCycle_of_candidates (provider : Option String) {order : List String}
    (h : (call.candidates lib (lib.normProvider provider)).isEmpty = false)
    (horder : call.pingOrder lib (call.candidates lib (lib.normProvider provider)) = order) :
    ∃ states, states.map CycleState.name = proveNames ∧ call.runCycle lib provider =
      match order.find? call.isClean with
      | some winner => call.serve lib (lib.normProvider provider) winner (call.checkInfo winner)
          states (call.checkedExits order) (call.cooledExits (lib.normProvider provider) order)
      | none => park lib (lib.normProvider provider) "no clean exit (all blocked or unknown)"
          states (call.checkedExits order) (call.cooledExits (lib.normProvider provider) order) := by
  obtain ⟨hnodup, hempty⟩ := call.candidates_facts lib (lib.normProvider provider)
  have hperm := (call.pingOrder_probeOrder lib (call.candidates lib (lib.normProvider provider))).perm
  rw [horder] at hperm
  have hordered : proveOrder (E := E) lib (lib.normProvider provider) order = order :=
    proveOrder_eq lib _ (hperm.nodup_iff.mpr hnodup) fun h => hempty (hperm.mem_iff.mp h)
  rw [runCycle]
  dsimp only
  rw [h, if_neg Bool.false_ne_true, horder, hordered]
  obtain ⟨hcalls, hclean⟩ := call.proveWith_checked
    (if lib.safeBatch call.batch ≤ 0 then (order.length : Int) else lib.safeBatch call.batch) order
  rw [hcalls, hclean, find?_isClean]
  cases hwinner : order.find? call.isClean with
  | none => exact ⟨_, rfl, rfl⟩
  | some winner =>
    have hmem : winner ∈ call.checkedExits order :=
      List.mem_of_mem_filter (List.mem_of_mem_head? ((call.find?_isClean order).trans hwinner))
    have hfilled : winner ≠ "" := fun hnil =>
      hempty (hperm.mem_iff.mp (hnil ▸ List.mem_of_find?_eq_some hwinner))
    have hwon : (some winner).filter (· ≠ "") = some winner := by simp [hfilled]
    rw [hwon]
    dsimp only
    rw [lookup_infos, if_pos hmem]
    exact ⟨_, rfl, rfl⟩

/-! ## The law of a cycle -/

/-- A cycle picks the first clean exit of an order, cools the checked exits whose quota is
used up, and writes the winner before the other cached rows. -/
structure PicksAndCools (want : String) (order : List String) (run : CycleRun) : Prop where
  ordered : call.ProbeOrder lib (call.candidates lib want) order
  checked : run.checked = call.checkedExits order
  inOrder : run.checked <+: order
  winner : run.winner = order.find? call.isClean
  cooled_iff : ∀ exit, exit ∈ run.cooled.map (·.1) ↔
    exit ∈ run.checked ∧ call.isClean exit = false ∧ call.CarriesQuota exit
  cooled_once : (run.cooled.map (·.1)).Sublist order
  park : run.winner = none → run.write = none
  write : ∀ winner, run.winner = some winner → run.write = call.store.map fun _ =>
    (want, [("id", .str winner), ("latency_ms", .float (lib.latencyNumber
        (((call.checkInfo winner).lookup "latency_ms").getD (.float 0))))] ::
      (call.cachedRows want).filter fun row => !(Dict.get row "id").pyEq (.str winner))
  states : run.states.map CycleState.name = cycleStates

structure DecidedBy (want : String) (order : List String) (run : CycleRun) : Prop where
  checked : run.checked = call.checkedExits order
  winner : run.winner = order.find? call.isClean
  cooled : run.cooled = call.cooledExits want order
  write : run.write = (order.find? call.isClean).bind fun winner => call.store.map fun _ =>
    (want, mergedRows (call.cachedRows want) winner (lib.latencyNumber
      (((call.checkInfo winner).lookup "latency_ms").getD (.float 0))))
  states : run.states.map CycleState.name = cycleStates

theorem runCycle_decided (provider : Option String) :
    call.DecidedBy lib (lib.normProvider provider)
      (call.pingOrder lib (call.candidates lib (lib.normProvider provider)))
      (call.runCycle lib provider) := by
  cases hcand : (call.candidates lib (lib.normProvider provider)).isEmpty with
  | true =>
    -- a pool without candidates parks before any ping
    obtain ⟨states, hnames, hrun⟩ := call.runCycle_of_isEmpty lib provider hcand
    have horder : call.pingOrder lib (call.candidates lib (lib.normProvider provider)) = [] := by
      rw [List.isEmpty_iff.mp hcand]
      rfl
    have hchecked : call.checkedExits [] = [] := by
      rw [checkedExits]
      cases (cycleDepth call.keep).toNat <;> rfl
    rw [hrun, horder]
    exact {
      checked := hchecked.symm
      winner := rfl
      cooled := rfl
      write := rfl
      states := List.map_append.trans (by rw [hnames]; rfl) }
  | false =>
    obtain ⟨states, hnames, hrun⟩ := call.runCycle_of_candidates lib provider hcand rfl
    rw [hrun]
    cases hwinner : (call.pingOrder lib (call.candidates lib (lib.normProvider provider))).find?
        call.isClean with
    | none =>
      exact {
        checked := rfl
        winner := hwinner.symm
        cooled := rfl
        write := by rw [hwinner]; rfl
        states := List.map_append.trans (by rw [hnames]; rfl) }
    | some winner =>
      exact {
        checked := rfl
        winner := hwinner.symm
        cooled := rfl
        write := by rw [hwinner]; rfl
        states := List.map_append.trans (by rw [hnames]; rfl) }

theorem mem_cooledExits {want exit : String} {order : List String} :
    exit ∈ (call.cooledExits want order).map (·.1) ↔
      exit ∈ call.checkedExits order ∧ call.isClean exit = false ∧ call.CarriesQuota exit := by
  have hchecked : exit ∈ call.checkedExits order → exit ∈ order :=
    fun h => (scanned_isPrefix _ _).mem h
  have hnull : (JsonValue.null).pyEq quotaHttpCode = false := by decide
  rw [cooledExits, List.map_map, carriesQuota_iff]
  simp only [List.mem_map, List.mem_filter, Function.comp_apply, exists_eq_right, httpCode,
    lookup_infos, Bool.and_eq_true, decide_eq_true_eq]
  by_cases h : exit ∈ call.checkedExits order
  · simp [h, hchecked h, and_comm]
  · simp [h, Dict.get, hnull]

/-- **What a cycle does with its exits.**  It checks them in the order of their pings, up
to the clean ones it keeps; the width of a batch shows in no call. -/
theorem runCycle_exact (provider : Option String) :
    ∃ order, call.PicksAndCools lib (lib.normProvider provider) order
        (call.runCycle lib provider) ∧
      ∀ batch, let other := { call with batch := batch }.runCycle lib provider
        other.winner = (call.runCycle lib provider).winner ∧
          other.checked = (call.runCycle lib provider).checked ∧
          other.cooled = (call.runCycle lib provider).cooled ∧
          other.write = (call.runCycle lib provider).write := by
  have hrun := call.runCycle_decided lib provider
  refine ⟨call.pingOrder lib (call.candidates lib (lib.normProvider provider)), ?_,
    fun batch => ?_⟩
  · exact {
      ordered := call.pingOrder_probeOrder lib _
      checked := hrun.checked
      inOrder := hrun.checked ▸ scanned_isPrefix _ _
      winner := hrun.winner
      cooled_iff := fun exit => by rw [hrun.cooled, hrun.checked, mem_cooledExits]
      cooled_once := by
        rw [hrun.cooled, cooledExits, List.map_map]
        exact (List.map_id _).symm ▸ List.filter_sublist
      park := fun h => by rw [hrun.write, ← hrun.winner, h]; rfl
      write := fun winner h => by rw [hrun.write, ← hrun.winner, h]; rfl
      states := hrun.states }
  · have hother := { call with batch := batch }.runCycle_decided lib provider
    exact ⟨hother.winner.trans hrun.winner.symm, hother.checked.trans hrun.checked.symm,
      hother.cooled.trans hrun.cooled.symm, hother.write.trans hrun.write.symm⟩

end CycleCall

end HamZaboon
