import HamZaboon.Library.Latest
import HamZaboon.Precard.Accounting
import HamZaboon.Precard.Glosses
import HamZaboon.Precard.Replies
import HamZaboon.Precard.Rows

/-! # The picks of an accepted reply

A pick of the judge passes three times over the candidates of its item: the validation,
the veto, which can take two picks to one candidate, and the fan-out.  Each drops
repetitions by a key of its own.

Behind the three of them an item with candidates has picks of its window that differ in
sense and gloss, the stored one first, and no mere inflection unless the window has
nothing else (`fanout_sound`).
-/

namespace HamZaboon
open Library

/-- The candidates of an anchor entry: each has its own id, which is not empty. -/
structure JudgeWindow where
  candidates : List SensePick
  named : ∀ c ∈ candidates, c.senseId ≠ ""
  distinct : (candidates.map (·.senseId)).Nodup

/-- What the picks of an item should be. -/
structure FanoutSound (s : PipelineSession) (isStub : String → Bool) (candidates : List SensePick)
    (primary : SensePick) (picks : List SensePick) : Prop where
  primary : picks.head? = some primary
  bounded : picks.length ≤ maxFanout
  window : ∀ p ∈ picks, p ∈ candidates
  distinct : picks.Pairwise (Distinct s)
  stub : ∀ p ∈ picks, isStub p.gloss = true → ∀ c ∈ candidates, isStub c.gloss = true

section Laws
variable {normalizeIdPart : String → String} {isStub : String → Bool} {cands : List SensePick}

/-! ## Validation -/

theorem glossOf_mem {sid : String} (h : sid ∈ cands.map (·.senseId)) :
    (⟨sid, glossOf cands sid⟩ : SensePick) ∈ cands := by
  obtain ⟨c, hc, rfl⟩ := List.mem_map.mp h
  cases hfind : cands.reverse.find? (·.senseId = c.senseId) with
  | none =>
    have hne := List.find?_eq_none.mp hfind c (List.mem_reverse.mpr hc)
    simp at hne
  | some d =>
    have hd : d.senseId = c.senseId := by simpa using List.find?_some hfind
    rw [glossOf, hfind, ← hd]
    exact List.mem_reverse.mp (List.mem_of_find?_eq_some hfind)

theorem asId_mem {ids : List String} {sid : JsonTree} {id : String} (h : asId ids sid = some id) :
    id ∈ ids := by
  unfold asId at h
  split at h
  · exact List.mem_of_find?_eq_some h
  · cases h

theorem takePick_mem {raw : List JsonTree} {picks : List SensePick} (hpicks : ∀ p ∈ picks, p ∈ cands) :
    ∀ p ∈ raw.foldl (takePick normalizeIdPart cands) picks, p ∈ cands := by
  induction raw generalizing picks with
  | nil => exact hpicks
  | cons sid raw ih =>
    rw [List.foldl_cons]
    refine ih ?_
    unfold takePick
    split
    · exact hpicks
    · rename_i id hid
      dsimp only
      split
      · exact hpicks
      split
      · split
        · exact hpicks
        · intro p hp
          rcases List.mem_append.mp hp with hp | hp
          · exact hpicks p hp
          · rw [List.mem_singleton.mp hp]
            exact glossOf_mem (asId_mem hid)
      · exact hpicks

/-- The stored pick is the first of the picks, and all of them are candidates. -/
structure PicksOf (cands : List SensePick) (senseId gloss : String) (picks : List SensePick) :
    Prop where
  head : picks.head? = some ⟨senseId, gloss⟩
  mem : ∀ p ∈ picks, p ∈ cands

theorem picksOf_validRow (hcands : cands ≠ []) {row : Entries} {entry : ValidPicks}
    (h : validRow normalizeIdPart cands row = some entry) :
    PicksOf cands entry.senseId entry.gloss entry.picks := by
  unfold validRow at h
  split at h
  · cases h
  · rename_i raw _
    have hmem : ∀ p ∈ raw.foldl (takePick normalizeIdPart cands) [], p ∈ cands := takePick_mem nofun
    split at h
    · rename_i first rest hpicks
      obtain rfl := Option.some.inj h
      rw [hpicks] at hmem
      exact ⟨rfl, hmem⟩
    · rw [if_neg fun hempty => hcands hempty.1] at h
      cases h

theorem mem_validItems {anchor : String → List SensePick} {byKey : List (List Nat × Entries)}
    {batch : List SampleItem} {e : String × ValidPicks}
    (h : e ∈ validItems normalizeIdPart anchor byKey batch) :
    ∃ row, validRow normalizeIdPart (anchor e.1) row = some e.2 := by
  revert e
  unfold validItems
  refine List.foldlRecOn (motive := fun out : List (String × ValidPicks) =>
    ∀ {e}, e ∈ out → ∃ row, validRow normalizeIdPart (anchor e.1) row = some e.2) batch _
    (fun h => absurd h List.not_mem_nil) fun out hout item _ e he => ?_
  dsimp only at he
  split at he
  · rename_i entry hentry
    obtain ⟨row, -, hrow⟩ := Option.bind_eq_some_iff.mp hentry
    rcases mem_setEntry he with he | rfl
    · exact hout he
    · exact ⟨row, hrow⟩
  · exact hout he

theorem lookup_valid {anchor : String → List SensePick} {data : JsonTree} {batch : List SampleItem}
    {valid : List (String × ValidPicks)}
    (h : arbiterValidateMulti normalizeIdPart anchor data batch = .ok (some valid))
    {item : SampleItem} (hitem : item ∈ batch) :
    ∃ entry row, valid.lookup (sourceItemKey item) = some entry ∧
      validRow normalizeIdPart (anchor (sourceItemKey item)) row = some entry := by
  unfold arbiterValidateMulti at h
  split at h
  · split at h
    · obtain ⟨byKey, -, h⟩ := bind_eq_ok.mp h
      have hsome := Except.ok.inj h
      split at hsome
      · rename_i hall
        obtain rfl := Option.some.inj hsome
        cases hlookup : (validItems normalizeIdPart anchor byKey batch).lookup
            (sourceItemKey item) with
        | none =>
          obtain ⟨e, he, hkey⟩ := List.mem_map.mp (hall item hitem)
          have hne := List.lookup_eq_none_iff.mp hlookup e he
          rw [hkey] at hne
          simp at hne
        | some entry =>
          obtain ⟨row, hrow⟩ := mem_validItems (mem_of_lookup_eq_some hlookup)
          exact ⟨entry, row, rfl, hrow⟩
      · cases hsome
    · cases h
  · cases h

/-! ## The veto -/

theorem vetoInflectionPick_spec (hnamed : ∀ c ∈ cands, c.senseId ≠ "") (hempty : isStub "" = false)
    {p : SensePick} (hp : p ∈ cands) :
    vetoInflectionPick isStub cands p ∈ cands ∧
      (isStub (vetoInflectionPick isStub cands p).gloss = true →
        ∀ c ∈ cands, isStub c.gloss = true) := by
  unfold vetoInflectionPick
  split
  · rename_i hkeep
    refine ⟨hp, fun hstub => ?_⟩
    rcases hkeep with hid | hgloss | hreal
    · exact absurd hid (hnamed p hp)
    · rw [hgloss, hempty] at hstub
      cases hstub
    · rw [hreal] at hstub
      cases hstub
  · split
    · rename_i c hc
      have hreal := List.find?_some hc
      simp only [decide_eq_true_eq] at hreal
      refine ⟨List.mem_of_find?_eq_some hc, fun hstub => ?_⟩
      rw [hreal.2] at hstub
      cases hstub
    · rename_i hnone
      refine ⟨hp, fun _ c hc => ?_⟩
      have hno := List.find?_eq_none.mp hnone c hc
      rw [decide_eq_true_eq] at hno
      by_contra hreal
      exact hno ⟨hnamed c hc, eq_false_of_ne_true hreal⟩

theorem vetoPicks_spec (picks : List SensePick) :
    (vetoPicks isStub cands picks).head? =
        picks.head?.map (vetoInflectionPick isStub cands) ∧
      ∀ q ∈ vetoPicks isStub cands picks, ∃ p ∈ picks, q = vetoInflectionPick isStub cands p := by
  have hloop : ∀ (picks vetoed : List SensePick),
      (picks.foldl (fun vetoed pick =>
          let veto := vetoInflectionPick isStub cands pick
          if vetoed.any (·.senseId = veto.senseId) then vetoed else vetoed ++ [veto]) vetoed).head? =
        (vetoed ++ (picks.map (vetoInflectionPick isStub cands))).head? ∧
      ∀ q ∈ picks.foldl (fun vetoed pick =>
          let veto := vetoInflectionPick isStub cands pick
          if vetoed.any (·.senseId = veto.senseId) then vetoed else vetoed ++ [veto]) vetoed,
        q ∈ vetoed ∨ ∃ p ∈ picks, q = vetoInflectionPick isStub cands p := by
    intro picks
    induction picks with
    | nil => exact fun vetoed => ⟨by simp, fun q hq => .inl hq⟩
    | cons pick picks ih =>
      intro vetoed
      rw [List.foldl_cons]
      dsimp only
      split
      · rename_i hseen
        obtain ⟨hhead, hmem⟩ := ih vetoed
        refine ⟨hhead.trans ?_, fun q hq => (hmem q hq).imp_right ?_⟩
        · cases vetoed with
          | nil => cases hseen
          | cons v vetoed => rfl
        · rintro ⟨p, hp, rfl⟩
          exact ⟨p, List.mem_cons_of_mem _ hp, rfl⟩
      · obtain ⟨hhead, hmem⟩ := ih (vetoed ++ [vetoInflectionPick isStub cands pick])
        refine ⟨hhead.trans ?_, fun q hq => ?_⟩
        · rw [List.append_assoc, List.map_cons]
          rfl
        · rcases hmem q hq with hq | ⟨p, hp, rfl⟩
          · rcases List.mem_append.mp hq with hq | hq
            · exact .inl hq
            · exact .inr ⟨pick, List.mem_cons_self, List.mem_singleton.mp hq⟩
          · exact .inr ⟨p, List.mem_cons_of_mem _ hp, rfl⟩
  obtain ⟨hhead, hmem⟩ := hloop picks []
  refine ⟨hhead.trans ?_, fun q hq => (hmem q hq).resolve_left List.not_mem_nil⟩
  rw [List.nil_append, List.head?_map]

/-- Picks with no stub among them, unless all candidates are. -/
structure VetoedPicks (isStub : String → Bool) (cands : List SensePick) (entry : JudgeEntry) :
    Prop extends PicksOf cands entry.senseId entry.gloss entry.picks where
  stub : ∀ p ∈ entry.picks, isStub p.gloss = true → ∀ c ∈ cands, isStub c.gloss = true

/-- **The veto leaves candidates that are no stubs.** -/
theorem vetoedPicks_applyInflectionVeto (hnamed : ∀ c ∈ cands, c.senseId ≠ "")
    (hempty : isStub "" = false) {entry : JudgeEntry}
    (h : PicksOf cands entry.senseId entry.gloss entry.picks) :
    VetoedPicks isStub cands (applyInflectionVeto isStub cands entry) := by
  obtain ⟨hhead, hmem⟩ : (vetoPicks isStub cands entry.picks).head? = _ ∧ _ :=
    vetoPicks_spec entry.picks
  have hspec : ∀ q ∈ vetoPicks isStub cands entry.picks, q ∈ cands ∧
      (isStub q.gloss = true → ∀ c ∈ cands, isStub c.gloss = true) := by
    intro q hq
    obtain ⟨p, hp, rfl⟩ := hmem q hq
    exact vetoInflectionPick_spec hnamed hempty (h.mem p hp)
  rw [h.head, Option.map_some] at hhead
  unfold applyInflectionVeto
  split
  · rename_i hnil
    rw [hnil] at hhead
    cases hhead
  · rename_i first rest hpicks
    rw [hpicks] at hspec
    exact ⟨⟨rfl, fun q hq => (hspec q hq).1⟩, fun q hq => (hspec q hq).2⟩

theorem lookup_stampAndVeto {anchor : String → List SensePick} {model key : String}
    (hnamed : ∀ c ∈ anchor key, c.senseId ≠ "") (hempty : isStub "" = false)
    {batch : List SampleItem} {valid : List (String × ValidPicks)} {entry : ValidPicks}
    (hentry : valid.lookup key = some entry) (hpicks : PicksOf (anchor key) entry.senseId entry.gloss
      entry.picks) {item : SampleItem} (hitem : item ∈ batch) (hkey : sourceItemKey item = key) :
    ∃ e, (stampAndVeto anchor isStub model batch valid).lookup key = some e ∧
      VetoedPicks isStub (anchor key) e := by
  have hmap : ∀ (out : List (String × JudgeEntry)) (item : SampleItem),
      (out.map fun entry =>
        if entry.1 = sourceItemKey item then
          (entry.1, applyInflectionVeto isStub (anchor entry.1) entry.2)
        else entry).lookup key =
      (out.lookup key).map fun e =>
        if key = sourceItemKey item then applyInflectionVeto isStub (anchor key) e else e := by
    intro out item
    have hvalues := lookup_mapValues (fun k e =>
      if k = sourceItemKey item then applyInflectionVeto isStub (anchor k) e else e) out key
    refine (congrArg (List.lookup key) (List.map_congr_left fun e _ => ?_)).trans hvalues
    split
    · rfl
    · rfl
  have hloop : ∀ (batch : List SampleItem) (out : List (String × JudgeEntry)) (e : JudgeEntry),
      out.lookup key = some e → PicksOf (anchor key) e.senseId e.gloss e.picks →
      (item ∈ batch ∨ VetoedPicks isStub (anchor key) e) →
      ∃ e', (batch.foldl (fun out item => out.map fun entry =>
          if entry.1 = sourceItemKey item then
            (entry.1, applyInflectionVeto isStub (anchor entry.1) entry.2)
          else entry) out).lookup key = some e' ∧ VetoedPicks isStub (anchor key) e' := by
    intro batch
    induction batch with
    | nil => exact fun out e hout _ hdone => ⟨e, hout, hdone.resolve_left List.not_mem_nil⟩
    | cons first batch ih =>
      intro out e hout hpicks hdone
      rw [List.foldl_cons]
      have hnext := hmap out first
      rw [hout, Option.map_some] at hnext
      by_cases hfirst : key = sourceItemKey first
      · rw [if_pos hfirst] at hnext
        have hvetoed := vetoedPicks_applyInflectionVeto hnamed hempty hpicks
        exact ih _ _ hnext hvetoed.toPicksOf (.inr hvetoed)
      · rw [if_neg hfirst] at hnext
        refine ih _ _ hnext hpicks (hdone.imp_left fun hmem => ?_)
        refine (List.mem_cons.mp hmem).resolve_left ?_
        rintro rfl
        exact hfirst hkey.symm
  refine hloop batch _ ⟨entry.senseId, entry.gloss, entry.picks, model⟩ ?_ hpicks (.inl hitem)
  have hstamp := lookup_mapValues
    (fun _ v => JudgeEntry.mk v.senseId v.gloss v.picks model) valid key
  rw [hentry] at hstamp
  exact hstamp

/-! ## The fan-out -/

variable {s : PipelineSession}

theorem addPick_pickJson (out : List SensePick) (pick : SensePick) :
    addPick s out (pickJson pick) = out ∨ addPick s out (pickJson pick) = out ++ [pick] := by
  unfold addPick
  dsimp only
  split
  · exact .inl rfl
  · exact .inr rfl

theorem fanout_of_picks {entry : JudgeEntry} (hhead : entry.picks.head? =
    some ⟨entry.senseId, entry.gloss⟩) (hsense : entry.senseId ≠ "") :
    (arbiterFanoutPicks s (judgeJson entry)).head? = some ⟨entry.senseId, entry.gloss⟩ ∧
      (arbiterFanoutPicks s (judgeJson entry)).length ≤ maxFanout ∧
      ∀ p ∈ arbiterFanoutPicks s (judgeJson entry), p ∈ entry.picks := by
  have hleads : Leads s (judgeJson entry) := by
    refine leads_judgeJson fun first hfirst => ?_
    rw [hhead, Option.mem_some_iff] at hfirst
    subst hfirst
    exact ⟨rfl, hsense⟩
  have hloop : ∀ picks out : List SensePick,
      ((picks.map pickJson).foldl (addPick s) out).length ≤ out.length + picks.length ∧
        ∀ p ∈ (picks.map pickJson).foldl (addPick s) out, p ∈ out ∨ p ∈ picks := by
    intro picks
    induction picks with
    | nil => exact fun out => ⟨le_refl _, fun p hp => .inl hp⟩
    | cons pick picks ih =>
      intro out
      rw [List.map_cons, List.foldl_cons, List.length_cons]
      rcases addPick_pickJson (s := s) out pick with hadd | hadd
      · rw [hadd]
        obtain ⟨hlength, hmem⟩ := ih out
        exact ⟨by omega, fun p hp => (hmem p hp).imp_right (List.mem_cons_of_mem _)⟩
      · rw [hadd]
        obtain ⟨hlength, hmem⟩ := ih (out ++ [pick])
        rw [List.length_append, List.length_singleton] at hlength
        refine ⟨by omega, fun p hp => ?_⟩
        rcases hmem p hp with hp | hp
        · rcases List.mem_append.mp hp with hp | hp
          · exact .inl hp
          · exact .inr (List.mem_singleton.mp hp ▸ List.mem_cons_self)
        · exact .inr (List.mem_cons_of_mem _ hp)
  refine ⟨hleads, ?_⟩
  have hpicks : field (judgeJson entry) "picks" = .arr (entry.picks.map pickJson) := rfl
  obtain ⟨hlength, hmem⟩ := hloop (entry.picks.take maxFanout) []
  unfold arbiterFanoutPicks
  rw [hpicks]
  dsimp only
  rw [← List.map_take]
  split
  · refine ⟨Nat.succ_le_succ (Nat.zero_le 3), fun p hp => ?_⟩
    rw [List.mem_singleton.mp hp]
    exact List.mem_of_head? hhead
  · refine ⟨?_, fun p hp => ?_⟩
    · rw [List.length_nil, Nat.zero_add, List.length_take] at hlength
      exact hlength.trans (min_le_left _ _)
    · exact List.mem_of_mem_take ((hmem p hp).resolve_left List.not_mem_nil)

/-- **The picks that the fan-out delivers of an accepted reply.**  Every item of the batch
with candidates has its entry, and the picks of the entry are sound. -/
theorem fanout_sound (s : PipelineSession) (anchor : String → JudgeWindow) (model : String)
    {data : JsonTree} {batch : List SampleItem} {valid : List (String × ValidPicks)}
    (h : arbiterValidateMulti s.legs.normalizeIdPart (fun key => (anchor key).candidates) data batch =
      .ok (some valid)) :
    ∀ item ∈ batch, (anchor (sourceItemKey item)).candidates ≠ [] →
      ∃ entry, (stampAndVeto (fun key => (anchor key).candidates) (isVetoStubGloss s.py) model batch
          valid).lookup (sourceItemKey item) = some entry ∧
        FanoutSound s (isVetoStubGloss s.py) (anchor (sourceItemKey item)).candidates
          ⟨entry.senseId, entry.gloss⟩ (arbiterFanoutPicks s (judgeJson entry)) := by
  intro item hitem hcands
  have hnamed := (anchor (sourceItemKey item)).named
  obtain ⟨picks, row, hvalid, hrow⟩ := lookup_valid h hitem
  obtain ⟨entry, hentry, hpicks⟩ : ∃ e, (stampAndVeto (fun key => (anchor key).candidates)
      (isVetoStubGloss s.py) model batch valid).lookup (sourceItemKey item) = some e ∧
      VetoedPicks (isVetoStubGloss s.py) (anchor (sourceItemKey item)).candidates e :=
    lookup_stampAndVeto hnamed (isVetoStubGloss_empty s.py) hvalid (picksOf_validRow hcands hrow)
      hitem rfl
  have hfirst := hpicks.mem _ (List.mem_of_head? hpicks.head)
  obtain ⟨hhead, hbounded, hmem⟩ := fanout_of_picks (s := s) hpicks.head (hnamed _ hfirst)
  exact ⟨entry, hentry, hhead, hbounded, fun p hp => hpicks.mem p (hmem p hp),
    pairwise_arbiterFanoutPicks s (judgeJson entry), fun p hp => hpicks.stub p (hmem p hp)⟩

end Laws

/-- An inflection and a sense of its own. -/
def runWindow : JudgeWindow where
  candidates := [⟨"run#0", "past participle of run"⟩, ⟨"run#1", "to move fast"⟩]
  named := by decide
  distinct := by decide

/-- A reply that crowns the inflection. -/
def runReply : JsonTree :=
  .obj [(points "results", .arr [.obj [(points "key", .str (points "w:run")),
    (points "picks", .arr [.str (points "run#0"), .str (points "run#1")])]])]

theorem runReply_fanout_sound :
    ∃ entry, (stampAndVeto (fun _ => runWindow.candidates) (isVetoStubGloss .ascii) "m"
        [SampleItem.mk "word" "run"]
        [("w:run", ⟨"run#0", "past participle of run", runWindow.candidates⟩)]).lookup
          (sourceItemKey ⟨"word", "run"⟩) = some entry ∧
      FanoutSound (catAndDog 0 silentJudge) (isVetoStubGloss .ascii) runWindow.candidates
        ⟨entry.senseId, entry.gloss⟩
        (arbiterFanoutPicks (catAndDog 0 silentJudge) (judgeJson entry)) :=
  fanout_sound (catAndDog 0 silentJudge) (fun _ => runWindow) "m"
    (rfl : arbiterValidateMulti _ (fun _ => runWindow.candidates) runReply _ = _)
    ⟨"word", "run"⟩ List.mem_cons_self (List.cons_ne_nil _ _)

end HamZaboon
