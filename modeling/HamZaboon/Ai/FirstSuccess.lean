import HamZaboon.Ai.Router

/-! # Stopping at the first success

What a request to the fallback chain promises its caller: every preset is called
at most once and in chain order, those passed over are the ones the limiter
refuses, the value of the first provider call that succeeds is returned with no
later call, and `AllPresetsExhausted` means that no call succeeded.

The order and the refusals hold of every request (`visits_inOrder`,
`skipped_iff_refused`).  The rest holds exactly when the first provider call
that succeeds has both of its logs written (`stops_at_first_success_iff`).
-/

namespace HamZaboon
open Library

variable {V E : Type}

def Deed.isCalled : Deed V E → Bool
  | .called _ => true
  | _ => false

/-- The provider call of the visit succeeded with `value`. -/
def Visit.Succeeds (v : Visit V E) (value : V) : Prop :=
  ∃ tokens, v.deed = .called (.ok (value, tokens))

abbrev Request (V E : Type) := Walk (LimiterStore × Option E) (Visit V E) (Reply V E)

/-- **The contract of the fallback chain**, for a request and its chain. -/
structure StopsAtFirstSuccess (usage : Except E (String → Nat)) (chain : Chain V E)
    (r : Request V E) : Prop where
  /-- The presets are visited in chain order. -/
  inOrder : r.views.map (·.step.preset) <+: chain.steps.map (·.preset)
  /-- No preset is called twice. -/
  once : ((r.views.filter (·.deed.isCalled)).map (·.step.preset.name)).Nodup
  /-- A preset the request does not end at is passed over exactly when refused. -/
  skips : ∀ usageMap, usage = .ok usageMap → ∀ v ∈ r.views, v.deed ≠ .stopped →
    ((∃ reason, v.deed = .skipped reason) ↔ v.step.Refused usageMap v.found)
  /-- A success is the last visit, and its value is the result. -/
  first : ∀ before v after value, r.views = before ++ v :: after → v.Succeeds value →
    after = [] ∧ r.reply = .value value
  /-- A result is the value of a call that succeeded. -/
  only : ∀ value, r.reply = .value value → ∃ v ∈ r.views, v.Succeeds value
  /-- The chain is exhausted only after a visit to every preset and no success. -/
  exhausted : ∀ message, r.reply = .allPresetsExhausted message →
    r.views.map (·.step.preset) = chain.steps.map (·.preset) ∧
      ∀ v ∈ r.views, ∀ value, ¬v.Succeeds value

/-- The limiter a request finds when it comes to a preset of its chain. -/
def ChainStep.arrival (s : ChainStep V E) (store : LimiterStore) : Limiter :=
  s.others (store s.preset.name)

/-- The request goes on from the preset without a success: it passes it over, or
its call fails other than by the deadline. -/
def ChainStep.GivesWay (s : ChainStep V E) (deadline : Option Int) (usageMap : String → Nat)
    (store : LimiterStore) : Prop :=
  s.PassedOver deadline usageMap (s.arrival store) ∨
    s.ReachesCall deadline usageMap (s.arrival store) ∧ (∀ x, s.answer ≠ .ok x) ∧
      callTracked s.answer s.requestLog ≠ .error .aiRequestTimedOut

/-- **The first success is logged**: where the presets before `s` give way and
the provider call at `s` is reached and succeeds, neither log raises. -/
def FirstSuccessLogged (deadline : Option Int) (usage : Except E (String → Nat))
    (chain : Chain V E) (store : LimiterStore) : Prop :=
  ∀ usageMap, usage = .ok usageMap → ∀ before s after x, chain.steps = before ++ s :: after →
    (∀ t ∈ before, t.GivesWay deadline usageMap store) →
    s.ReachesCall deadline usageMap (s.arrival store) → s.answer = .ok x → s.LogsWritten

variable {deadline : Option Int} {usageMap : String → Nat}

/-! ## Turns of the loop -/

theorem routeTurn_go {state state' : LimiterStore × Option E} {s : ChainStep V E}
    {v : Visit V E} (h : routeTurn deadline usageMap state s = .go v state') :
    (v.step = s ∧ v.found = s.arrival state.1) ∧
      ((s.PassedOver deadline usageMap v.found ∧ s.Refused usageMap v.found ∧
          ∃ reason, v.deed = .skipped reason) ∨
        (s.ReachesCall deadline usageMap v.found ∧ ¬s.Refused usageMap v.found ∧
          v.deed = .called s.answer ∧
          callTracked s.answer s.requestLog ≠ .error .aiRequestTimedOut ∧
          ∀ x, s.answer = .ok x → ¬s.LogsWritten)) := by
  rcases tryPreset_cases deadline usageMap s (s.arrival state.1) with
    ⟨hpassed, hrefused, reason, l, htry⟩ | ⟨reply, l, htry, -⟩ | ⟨hreaches, hrefused, l, htry⟩
  · simp only [ChainStep.arrival] at htry
    simp only [routeTurn, htry, Turn.go.injEq] at h
    obtain ⟨rfl, -⟩ := h
    exact ⟨⟨rfl, rfl⟩, .inl ⟨hpassed, hrefused, reason, rfl⟩⟩
  · simp only [ChainStep.arrival] at htry
    simp [routeTurn, htry] at h
  · simp only [ChainStep.arrival] at htry
    rcases callPreset_cases s l with ⟨_, _, _, -, -, hcall⟩ | ⟨_, -, hcall⟩ |
      ⟨e, l', htime, hfail, hcall⟩
    · simp [routeTurn, htry, hcall] at h
    · simp [routeTurn, htry, hcall] at h
    · simp only [routeTurn, htry, hcall, Turn.go.injEq] at h
      obtain ⟨rfl, -⟩ := h
      exact ⟨⟨rfl, rfl⟩, .inr ⟨hreaches, hrefused, rfl, htime, hfail⟩⟩

/-- A turn that stops has ended before the call, with the value of a call whose
logs are written, or with the deadline after the call. -/
theorem routeTurn_stop {state state' : LimiterStore × Option E} {s : ChainStep V E}
    {v : Visit V E} {reply : Reply V E}
    (h : routeTurn deadline usageMap state s = .stop v reply state') :
    (v.step = s ∧ v.found = s.arrival state.1) ∧
      ((v.deed = .stopped ∧
          (reply = .aiRequestTimedOut ∨ reply = .waiting ∨ ∃ e, reply = .raised e)) ∨
        (¬s.Refused usageMap v.found ∧ v.deed = .called s.answer ∧
          ((∃ value tokens, s.answer = .ok (value, tokens) ∧ reply = .value value) ∨
            (reply = .aiRequestTimedOut ∧
              callTracked s.answer s.requestLog = .error .aiRequestTimedOut)))) := by
  rcases tryPreset_cases deadline usageMap s (s.arrival state.1) with
    ⟨-, -, reason, l, htry⟩ | ⟨reply', l, htry, hreply⟩ | ⟨-, hrefused, l, htry⟩
  · simp only [ChainStep.arrival] at htry
    simp [routeTurn, htry] at h
  · simp only [ChainStep.arrival] at htry
    simp only [routeTurn, htry, Turn.stop.injEq] at h
    obtain ⟨rfl, rfl, -⟩ := h
    exact ⟨⟨rfl, rfl⟩, .inl ⟨rfl, hreply⟩⟩
  · simp only [ChainStep.arrival] at htry
    rcases callPreset_cases s l with ⟨value, tokens, l', hanswer, -, hcall⟩ | ⟨l', htime, hcall⟩ |
      ⟨_, _, -, -, hcall⟩
    · simp only [routeTurn, htry, hcall, Turn.stop.injEq] at h
      obtain ⟨rfl, rfl, -⟩ := h
      exact ⟨⟨rfl, rfl⟩, .inr ⟨hrefused, rfl, .inl ⟨value, tokens, hanswer, rfl⟩⟩⟩
    · simp only [routeTurn, htry, hcall, Turn.stop.injEq] at h
      obtain ⟨rfl, rfl, -⟩ := h
      exact ⟨⟨rfl, rfl⟩, .inr ⟨hrefused, rfl, .inr ⟨rfl, htime⟩⟩⟩
    · simp [routeTurn, htry, hcall] at h

theorem routeTurn_store {state state' : LimiterStore × Option E} {s : ChainStep V E}
    {v : Visit V E} (h : routeTurn deadline usageMap state s = .go v state') {name : String}
    (hname : s.preset.name ≠ name) : state'.1 name = state.1 name := by
  rcases htry : tryPreset deadline usageMap s (s.others (state.1 s.preset.name)) with
    ⟨deed, reply, l⟩ | ⟨deed, error, l⟩
  · simp [routeTurn, htry] at h
  · simp only [routeTurn, htry, Turn.go.injEq] at h
    obtain ⟨-, rfl⟩ := h
    exact Function.update_of_ne (Ne.symm hname) _ _

theorem callTracked_ok (answer : V × Nat) (requestLog : Except E Unit) :
    callTracked (.ok answer) requestLog ≠ .error .aiRequestTimedOut := by
  rcases requestLog with e | ⟨⟩ <;> simp [callTracked]

theorem routeTurn_of_givesWay {state : LimiterStore × Option E} {s : ChainStep V E}
    {store : LimiterStore} (hstate : state.1 s.preset.name = store s.preset.name)
    (h : s.GivesWay deadline usageMap store) :
    ∃ v state', routeTurn deadline usageMap state s = .go v state' := by
  rw [ChainStep.GivesWay, ChainStep.arrival, ← hstate] at h
  rcases h with hpassed | ⟨hreaches, hfail, htime⟩
  · obtain ⟨reason, l, htry⟩ := tryPreset_of_passedOver hpassed
    exact ⟨_, _, by simp only [routeTurn, htry]; rfl⟩
  · obtain ⟨l, htry⟩ := tryPreset_of_reachesCall hreaches
    rcases callPreset_cases s l with ⟨_, _, _, hok, -⟩ | ⟨_, htime', -⟩ | ⟨e, l', -, -, hcall⟩
    · exact absurd hok (hfail _)
    · exact absurd htime' htime
    · exact ⟨_, _, by simp only [routeTurn, htry, hcall]; rfl⟩

theorem routeTurn_of_unlogged {state : LimiterStore × Option E} {s : ChainStep V E}
    (hreaches : s.ReachesCall deadline usageMap (s.arrival state.1)) {x : V × Nat}
    (hok : s.answer = .ok x) (hlog : ¬s.LogsWritten) :
    ∃ v state', routeTurn deadline usageMap state s = .go v state' ∧
      v.deed = .called (.ok x) := by
  obtain ⟨l, htry⟩ := tryPreset_of_reachesCall hreaches
  rw [ChainStep.arrival] at htry
  rcases callPreset_cases s l with ⟨_, _, _, -, hwritten, -⟩ | ⟨_, htime, -⟩ | ⟨e, l', -, -, hcall⟩
  · exact absurd hwritten hlog
  · rw [hok] at htime
    exact absurd htime (callTracked_ok x s.requestLog)
  · exact ⟨_, _, by simp only [routeTurn, htry, hcall]; rfl, by rw [hok]⟩

theorem routeTurn_stop_value {state state' : LimiterStore × Option E} {s : ChainStep V E}
    {v : Visit V E} {reply : Reply V E}
    (h : routeTurn deadline usageMap state s = .stop v reply state') {value : V}
    (hsuccess : v.Succeeds value) : reply = .value value := by
  obtain ⟨tokens, hdeed⟩ := hsuccess
  rcases (routeTurn_stop h).2 with ⟨hstopped, -⟩ | ⟨-, hcalled, hreply⟩
  · rw [hdeed] at hstopped
    cases hstopped
  · rw [hdeed, Deed.called.injEq] at hcalled
    rcases hreply with ⟨value', tokens', hok, hreply⟩ | ⟨-, htime⟩
    · rw [hok] at hcalled
      cases hcalled
      exact hreply
    · rw [← hcalled] at htime
      exact absurd htime (callTracked_ok _ _)

/-! ## Every request -/

/-- The loop of a request whose usage has been read. -/
def loop (deadline : Option Int) (usageMap : String → Nat) (chain : Chain V E)
    (store : LimiterStore) : Request V E :=
  walk (routeTurn deadline usageMap) (fun state => .allPresetsExhausted (.allTried state.2))
    (store, none) chain.steps

variable {chain : Chain V E} {store : LimiterStore}

theorem loop_cases (deadline : Option Int) (usageMap : String → Nat) (chain : Chain V E)
    (store : LimiterStore) :
    (∃ views state, Goes (routeTurn deadline usageMap) (store, none) chain.steps views state ∧
      loop deadline usageMap chain store =
        ⟨views, .allPresetsExhausted (.allTried state.2), state⟩) ∨
    ∃ before s after views state v r state', chain.steps = before ++ s :: after ∧
      Goes (routeTurn deadline usageMap) (store, none) before views state ∧
      routeTurn deadline usageMap state s = .stop v r state' ∧
      loop deadline usageMap chain store = ⟨views ++ [v], r, state'⟩ :=
  walk_cases _ _

theorem store_of_goes {before : List (ChainStep V E)} {s : ChainStep V E}
    {after : List (ChainStep V E)} (hchain : chain.steps = before ++ s :: after)
    {views : List (Visit V E)} {state : LimiterStore × Option E}
    (h : Goes (routeTurn deadline usageMap) (store, none) before views state) :
    state.1 s.preset.name = store s.preset.name := by
  have hne : ∀ t ∈ before, t.preset.name ≠ s.preset.name := by
    have hnodup := chain.distinct
    rw [hchain, List.map_append, List.nodup_append] at hnodup
    intro t ht
    exact hnodup.2.2 _ (List.mem_map_of_mem ht) _ (by simp)
  refine h.invariant (I := fun state => state.1 s.preset.name = store s.preset.name) ?_ rfl
  intro t ht state v state' hturn hstate
  rw [routeTurn_store hturn (hne t ht), hstate]

theorem visits_inOrder (deadline : Option Int) (usageMap : String → Nat) (chain : Chain V E)
    (store : LimiterStore) :
    (loop deadline usageMap chain store).views.map (·.step.preset) <+:
      chain.steps.map (·.preset) := by
  have hgo : ∀ (state : LimiterStore × Option E) (s : ChainStep V E) v state',
      routeTurn deadline usageMap state s = .go v state' → v.step.preset = s.preset :=
    fun _ _ _ _ h => by rw [(routeTurn_go h).1.1]
  rcases loop_cases deadline usageMap chain store with ⟨views, state, hgoes, hloop⟩ |
    ⟨before, s, after, views, state, v, r, state', hchain, hgoes, hstop, hloop⟩
  · rw [hloop]
    exact ⟨[], by rw [List.append_nil, hgoes.map_view hgo]⟩
  · rw [hloop, hchain, List.map_append, hgoes.map_view hgo, List.map_append]
    refine (List.prefix_append_right_inj _).mpr ⟨after.map (·.preset), ?_⟩
    rw [List.map_cons, List.map_nil, List.map_cons, (routeTurn_stop hstop).1.1,
      List.singleton_append]

theorem called_nodup :
    (((loop deadline usageMap chain store).views.filter (·.deed.isCalled)).map
      (·.step.preset.name)).Nodup := by
  have hpre := (visits_inOrder deadline usageMap chain store).map Preset.name
  rw [List.map_map, List.map_map] at hpre
  have hvisits := chain.distinct.sublist hpre.sublist
  exact hvisits.sublist (List.filter_sublist.map _)

theorem skipped_iff_refused {v : Visit V E} (hv : v ∈ (loop deadline usageMap chain store).views)
    (hdeed : v.deed ≠ .stopped) :
    (∃ reason, v.deed = .skipped reason) ↔ v.step.Refused usageMap v.found := by
  obtain ⟨state, s, -, ⟨state', hgo⟩ | ⟨r, state', hstop⟩⟩ := turn_of_mem_views hv
  · obtain ⟨⟨rfl, -⟩, ⟨-, hrefused, hskipped⟩ | ⟨-, hrefused, hcalled, -⟩⟩ := routeTurn_go hgo
    · exact ⟨fun _ => hrefused, fun _ => hskipped⟩
    · simp [hcalled, hrefused]
  · obtain ⟨⟨rfl, -⟩, ⟨hstopped, -⟩ | ⟨hrefused, hcalled, -⟩⟩ := routeTurn_stop hstop
    · exact absurd hstopped hdeed
    · simp [hcalled, hrefused]

/-! ## The first success -/

theorem succeeds_of_value {value : V}
    (hreply : (loop deadline usageMap chain store).reply = .value value) :
    ∃ v ∈ (loop deadline usageMap chain store).views, v.Succeeds value := by
  rcases loop_cases deadline usageMap chain store with ⟨views, state, -, hloop⟩ |
    ⟨_, s, rest, views, state, last, r, state', -, -, hstop, hloop⟩
  · rw [hloop] at hreply
    cases hreply
  · rw [hloop] at hreply ⊢
    refine ⟨last, List.mem_append_right views (List.mem_singleton.mpr rfl), ?_⟩
    rcases (routeTurn_stop hstop).2 with ⟨-, hends⟩ | ⟨-, hcalled, hends⟩
    · rcases hends with rfl | rfl | ⟨e, rfl⟩ <;> cases hreply
    · rcases hends with ⟨value', tokens, hok, rfl⟩ | ⟨rfl, -⟩
      · cases hreply
        exact ⟨tokens, by rw [hcalled, hok]⟩
      · cases hreply

section Logged
variable (h : FirstSuccessLogged deadline (.ok usageMap : Except E _) chain store)
include h

theorem givesWay_of_goes {before after : List (ChainStep V E)}
    (hchain : chain.steps = before ++ after) {views : List (Visit V E)}
    {state : LimiterStore × Option E}
    (hgoes : Goes (routeTurn deadline usageMap) (store, none) before views state) :
    ∀ t ∈ before, t.GivesWay deadline usageMap store := by
  refine hgoes.forall_entries ?_
  intro pre t post views state v state' hbefore hpre hall hgo
  have hsplit : chain.steps = pre ++ t :: (post ++ after) := by
    rw [hchain, hbefore, List.append_assoc, List.cons_append]
  have hfound : v.found = t.arrival store := by
    rw [(routeTurn_go hgo).1.2, ChainStep.arrival, store_of_goes hsplit hpre, ChainStep.arrival]
  rcases (routeTurn_go hgo).2 with ⟨hpassed, -⟩ | ⟨hreaches, -, -, htime, hfail⟩
  · exact .inl (hfound ▸ hpassed)
  · rw [hfound] at hreaches
    refine .inr ⟨hreaches, fun x hok => ?_, htime⟩
    exact hfail x hok (h usageMap rfl pre t _ x hsplit hall hreaches hok)

theorem not_succeeds_of_goes {before after : List (ChainStep V E)}
    (hchain : chain.steps = before ++ after) {views : List (Visit V E)}
    {state : LimiterStore × Option E}
    (hgoes : Goes (routeTurn deadline usageMap) (store, none) before views state) :
    ∀ v ∈ views, ∀ value, ¬v.Succeeds value := by
  intro v hv value ⟨tokens, hdeed⟩
  obtain ⟨vs, ws, rfl⟩ := List.append_of_mem hv
  obtain ⟨pre, t, post, state₁, state₂, rfl, hpre, hgo, -⟩ := hgoes.split
  have hsplit : chain.steps = pre ++ t :: (post ++ after) := by
    rw [hchain, List.append_assoc, List.cons_append]
  have hall := givesWay_of_goes h hsplit hpre
  have hfound : v.found = t.arrival store := by
    rw [(routeTurn_go hgo).1.2, ChainStep.arrival, store_of_goes hsplit hpre, ChainStep.arrival]
  rcases (routeTurn_go hgo).2 with ⟨-, -, reason, hskipped⟩ | ⟨hreaches, -, hcalled, -, hfail⟩
  · rw [hdeed] at hskipped
    cases hskipped
  · rw [hdeed, Deed.called.injEq] at hcalled
    rw [hfound] at hreaches
    exact hfail _ hcalled.symm (h usageMap rfl pre t _ _ hsplit hall hreaches hcalled.symm)

theorem success_is_last {before after : List (Visit V E)} {v : Visit V E} {value : V}
    (hviews : (loop deadline usageMap chain store).views = before ++ v :: after)
    (hsuccess : v.Succeeds value) :
    after = [] ∧ (loop deadline usageMap chain store).reply = .value value := by
  rcases loop_cases deadline usageMap chain store with ⟨views, state, hgoes, hloop⟩ |
    ⟨_, s, rest, views, state, last, r, state', hchain, hgoes, hstop, hloop⟩
  · rw [hloop] at hviews
    obtain rfl : views = before ++ v :: after := hviews
    refine absurd hsuccess (not_succeeds_of_goes h (List.append_nil _).symm hgoes v ?_ value)
    exact List.mem_append_right before List.mem_cons_self
  · rw [hloop] at hviews ⊢
    rcases List.eq_nil_or_concat after with rfl | ⟨init, z, rfl⟩
    · obtain ⟨rfl, hlast⟩ := List.append_inj' hviews rfl
      obtain rfl := (List.cons.inj hlast).1
      exact ⟨rfl, routeTurn_stop_value hstop hsuccess⟩
    · rw [List.concat_eq_append, ← List.cons_append, ← List.append_assoc] at hviews
      obtain ⟨rfl, -⟩ := List.append_inj' hviews rfl
      refine absurd hsuccess (not_succeeds_of_goes h hchain hgoes v ?_ value)
      exact List.mem_append_right before List.mem_cons_self

theorem exhausted_visits {message : Exhausted E}
    (hreply : (loop deadline usageMap chain store).reply = .allPresetsExhausted message) :
    (loop deadline usageMap chain store).views.map (·.step.preset) =
        chain.steps.map (·.preset) ∧
      ∀ v ∈ (loop deadline usageMap chain store).views, ∀ value, ¬v.Succeeds value := by
  rcases loop_cases deadline usageMap chain store with ⟨views, state, hgoes, hloop⟩ |
    ⟨_, s, rest, views, state, last, r, state', -, -, hstop, hloop⟩
  · rw [hloop]
    refine ⟨hgoes.map_view fun _ _ _ _ hgo => ?_,
      not_succeeds_of_goes h (List.append_nil _).symm hgoes⟩
    rw [(routeTurn_go hgo).1.1]
  · rw [hloop] at hreply
    rcases (routeTurn_stop hstop).2 with ⟨-, hends⟩ | ⟨-, -, hends⟩
    · rcases hends with rfl | rfl | ⟨e, rfl⟩ <;> cases hreply
    · rcases hends with ⟨_, _, -, rfl⟩ | ⟨rfl, -⟩ <;> cases hreply

theorem loop_stops_at_first_success :
    StopsAtFirstSuccess (.ok usageMap : Except E _) chain
      (loop deadline usageMap chain store) where
  inOrder := visits_inOrder deadline usageMap chain store
  once := called_nodup
  skips := by
    intro usageMap' heq v hv hdeed
    cases heq
    exact skipped_iff_refused hv hdeed
  first _ _ _ _ := success_is_last h
  only _ := succeeds_of_value
  exhausted _ := exhausted_visits h

end Logged

/-- A loop that stops at its first success has that success logged: from an
unlogged one it goes on, to the next preset or to the end of the chain. -/
theorem logged_of_stops
    (h : StopsAtFirstSuccess (.ok usageMap : Except E _) chain
      (loop deadline usageMap chain store)) :
    FirstSuccessLogged deadline (.ok usageMap : Except E _) chain store := by
  intro usageMap' heq before s after x hchain hgives hreaches hok
  cases heq
  by_contra hlog
  obtain ⟨views, state, hgoes⟩ :
      ∃ views state, Goes (routeTurn deadline usageMap) (store, none) before views state := by
    refine exists_goes fun pre t post vs state hbefore hpre => ?_
    have hsplit : chain.steps = pre ++ t :: (post ++ s :: after) := by
      rw [hchain, hbefore, List.append_assoc, List.cons_append]
    exact routeTurn_of_givesWay (store_of_goes hsplit hpre) (hgives t (by simp [hbefore]))
  rw [ChainStep.arrival, ← store_of_goes hchain hgoes, ← ChainStep.arrival] at hreaches
  obtain ⟨v, state', hgo, hdeed⟩ := routeTurn_of_unlogged hreaches hok hlog
  have hall := hgoes.append (.cons hgo (.nil state'))
  have hwalk := hall.walk_append
    (fun state => (.allPresetsExhausted (.allTried state.2) : Reply V E)) after
  rw [← List.append_cons, ← hchain] at hwalk
  have hloop : loop deadline usageMap chain store = _ := hwalk
  have hviews := congrArg Walk.views hloop
  rw [List.append_assoc, List.singleton_append] at hviews
  obtain ⟨hafter, hreply⟩ := h.first _ v _ x.1 hviews ⟨x.2, hdeed⟩
  rw [hloop] at hreply
  cases after with
  | nil => cases hreply
  | cons t after => exact views_ne_nil _ _ _ hafter

/-- **A request stops at the first success** exactly when the first provider call
that succeeds has its request log and its usage log written. -/
theorem stops_at_first_success_iff (deadline : Option Int) (usage : Except E (String → Nat))
    (chain : Chain V E) (store : LimiterStore) :
    StopsAtFirstSuccess usage chain (callAiLimited deadline usage chain store) ↔
      FirstSuccessLogged deadline usage chain store := by
  by_cases hchain : chain.steps = []
  · refine ⟨fun _ _ _ before s after _ hsplit => ?_, fun _ => ?_⟩
    · rw [hchain] at hsplit
      exact absurd hsplit.symm (by simp)
    · simp only [callAiLimited, if_pos hchain]
      exact ⟨by simp, by simp, by simp, by simp, by simp, by simp [hchain]⟩
  · rcases usage with e | usageMap
    · refine ⟨fun _ _ heq => (nomatch heq), fun _ => ?_⟩
      simp only [callAiLimited, if_neg hchain]
      exact ⟨by simp, by simp, by simp, by simp, by simp, by simp⟩
    · have hcall : callAiLimited deadline (.ok usageMap : Except E _) chain store =
          loop deadline usageMap chain store := by
        simp only [callAiLimited, if_neg hchain, loop]
      rw [hcall]
      exact ⟨logged_of_stops, loop_stops_at_first_success⟩

/-- A preset that calls its provider at once, with an answer of no tokens. -/
def readyStep (name : String) (value : Nat) (usageLog : Except String Unit) :
    ChainStep Nat String where
  preset := ⟨name, none, none, none⟩
  others := id
  checkedAt := 0
  backoffAt := 0
  limitAt := 0
  prune := .ok ()
  slotAcquired := true
  polls := [⟨0, 0, id⟩]
  answer := .ok (value, 0)
  meanwhile := id
  requestLog := .ok ()
  usageLog := usageLog
  loggedAt := 0
  failedAt := 0

/-- Two presets; the usage log of the first one raises. -/
def unloggedChain : Chain Nat String where
  steps := [readyStep "first" 1 (.error "database is locked"), readyStep "second" 2 (.ok ())]
  distinct := by decide

/-- The first provider call succeeds, its usage is not logged, and the second
provider is called. -/
theorem unlogged_success_calls_next :
    ¬StopsAtFirstSuccess (.ok fun _ => 0) unloggedChain
      (callAiLimited none (.ok fun _ => 0) unloggedChain fun _ => .fresh) := by
  intro h
  have hfirst := h.first [] _ _ 1 rfl ⟨0, rfl⟩
  exact views_ne_nil _ _ _ hfirst.1

end HamZaboon
