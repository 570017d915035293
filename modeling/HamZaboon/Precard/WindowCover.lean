import HamZaboon.Precard.AnchorWindow
import Mathlib.Data.List.MinMax

/-! # The parts of speech in the judge's window

`select_candidate_window` pulls the best sense of a missing part of speech into the
window, sorts the window by the scores again and cuts it last.  So the window is the
first senses, in the order of the scores, of those that the bucket, the wanted part of
speech or the coverage brings in (`selectCandidateWindow_eq`); and a part of speech that
was pulled in is cut off again where as many senses as the cap rank before it
(`window_covers_iff`).
-/

namespace HamZaboon
open Library

variable {py : GlossText} {F : Type}

/-- `score_senses`: every sense with its place in the file, and the stubs told by
`is_stub_sense`. -/
structure ScoredList (py : GlossText) (F : Type) where
  senses : List (ScoredSense F)
  nodup : (senses.map (·.index)).Nodup
  stub : ∀ t ∈ senses, t.isStub = isStubSense py t.sense t.gloss

/-- What `score_senses` returns. -/
def scoredListOf (py : GlossText) (scorer : Scorer F) (d : Dictionary) (text : String)
    (rows : List IndexRow) (pool : List String) : ScoredList py F where
  senses := scoreSenses py scorer d text rows pool
  nodup :=
    ((scorer.sort_perm _ _).map _).nodup_iff.mpr (nodup_scoredInFileOrder text rows pool)
  stub t ht := by
    obtain ⟨p, -, rfl⟩ := List.mem_map.mp ((scorer.sort_perm _ _).mem_iff.mp ht)
    rfl

/-- The cap as `max(1, int(cap))`, and 10 where `int` refuses it. -/
def readCap : Option Int → Nat
  | some cap => (max 1 cap).toNat
  | none => 10

/-- `select_candidate_window`, with the cap it is given. -/
def windowOf (py : GlossText) (scored : List (ScoredSense F)) (pool : List String)
    (poolLevel : String) (cap : Option Int) : List (ScoredSense F) :=
  if scored = [] then [] else selectCandidateWindow py scored pool poolLevel (readCap cap)

/-! ## The place of a sense -/

/-- The place of a sense in the order of the scores. -/
def rank (senses : List (ScoredSense F)) (t : ScoredSense F) : Nat :=
  senses.findIdx (·.index = t.index)

theorem pairwise_rank {senses : List (ScoredSense F)} (hnodup : (senses.map (·.index)).Nodup) :
    senses.Pairwise fun t u => rank senses t < rank senses u := by
  induction senses with
  | nil => exact .nil
  | cons first rest ih =>
    obtain ⟨hfirst, hrest⟩ := List.nodup_cons.mp hnodup
    have hshift : ∀ t ∈ rest, rank (first :: rest) t = rank rest t + 1 := by
      intro t ht
      have hne : first.index ≠ t.index := fun h => hfirst (List.mem_map.mpr ⟨t, ht, h.symm⟩)
      rw [rank, List.findIdx_cons, decide_eq_false hne]
      rfl
    refine List.pairwise_cons.mpr ⟨fun t ht => ?_, (ih hrest).imp_of_mem fun ht hu hlt => ?_⟩
    · rw [hshift t ht, rank, List.findIdx_cons, decide_eq_true rfl]
      exact Nat.succ_pos _
    · rw [hshift _ ht, hshift _ hu]
      exact Nat.succ_lt_succ hlt

theorem find?_eq_some_iff_rank {senses : List (ScoredSense F)}
    (hnodup : (senses.map (·.index)).Nodup) {p : ScoredSense F → Bool} {t : ScoredSense F} :
    senses.find? p = some t ↔
      t ∈ senses ∧ p t = true ∧ ∀ u ∈ senses, p u = true → rank senses t ≤ rank senses u := by
  rw [List.find?_eq_some_iff_append]
  constructor
  · rintro ⟨hp, before, after, hsplit, hbefore⟩
    have hrank := hsplit ▸ pairwise_rank hnodup
    obtain ⟨-, hafter, -⟩ := List.pairwise_append.mp hrank
    refine ⟨by simp [hsplit], hp, fun u hu hpu => ?_⟩
    rw [hsplit] at hu
    rcases List.mem_append.mp hu with hu | hu
    · have hnone := hbefore u hu
      rw [hpu] at hnone
      cases hnone
    · rcases List.mem_cons.mp hu with rfl | hu
      · exact le_rfl
      · rw [hsplit]
        exact ((List.pairwise_cons.mp hafter).1 u hu).le
  · rintro ⟨ht, hp, hfirst⟩
    obtain ⟨before, after, hsplit⟩ := List.append_of_mem ht
    refine ⟨hp, before, after, hsplit, fun u hu => ?_⟩
    have hrank := hsplit ▸ pairwise_rank hnodup
    have hlt := (List.pairwise_append.mp hrank).2.2 u hu t List.mem_cons_self
    rw [← hsplit] at hlt
    by_contra hpu
    have hmem : u ∈ senses := by rw [hsplit]; exact List.mem_append_left _ hu
    exact absurd (hfirst u hmem (by simpa using hpu)) (by omega)

/-! ## What the window has -/

/-- The wanted part of speech is not in the bucket, so that all senses are taken. -/
def Widened (py : GlossText) (bucket : Nat) (want : String) (live : List (ScoredSense F)) : Prop :=
  want ≠ "" ∧ ∀ u ∈ live, InBucket bucket live u → scoredPos py u ≠ want

/-- The best sense of a part of speech that is not in the bucket. -/
def PulledIn (py : GlossText) (bucket : Nat) (live : List (ScoredSense F)) (t : ScoredSense F) :
    Prop :=
  scoredPos py t ≠ "" ∧
    (∀ u ∈ live, InBucket bucket live u → scoredPos py u ≠ scoredPos py t) ∧
    ∀ u ∈ live, scoredPos py u = scoredPos py t → rank live t ≤ rank live u

/-- The sense stands in the window before it is cut. -/
def Windowed (py : GlossText) (bucket : Nat) (want : String) (live : List (ScoredSense F))
    (t : ScoredSense F) : Prop :=
  InBucket bucket live t ∨ Widened py bucket want live ∨ PulledIn py bucket live t

instance (bucket : Nat) (want : String) (live : List (ScoredSense F)) (t : ScoredSense F) :
    Decidable (Windowed py bucket want live t) := by
  unfold Windowed Widened PulledIn
  exact inferInstance

theorem mem_unsortedWindow {bucket : Nat} {want : String} (hbucket : 0 < bucket)
    {live : List (ScoredSense F)} (hnodup : (live.map (·.index)).Nodup) {t : ScoredSense F} :
    t ∈ unsortedWindow py bucket want live ↔ t ∈ live ∧ Windowed py bucket want live t := by
  rw [unsortedWindow, mem_coverPos, mem_widenWindow hbucket hnodup]
  by_cases hwiden : Widened py bucket want live
  · -- all senses are taken, and the coverage finds none missing
    have hall : ∀ u, u ∈ live → Windowed py bucket want live u := fun u _ => .inr (.inl hwiden)
    refine ⟨?_, fun h => .inl ⟨h.1, .inr hwiden⟩⟩
    rintro (⟨ht, -⟩ | ⟨p, -, -, hfind⟩)
    · exact ⟨ht, hall t ht⟩
    · exact ⟨List.mem_of_find?_eq_some hfind, hall t (List.mem_of_find?_eq_some hfind)⟩
  have hwindow : ∀ p, (∀ w ∈ widenWindow py want live (bucketWindow bucket live),
      scoredPos py w ≠ p) ↔ ∀ u ∈ live, InBucket bucket live u → scoredPos py u ≠ p := by
    intro p
    have hnot : ∀ u, InBucket bucket live u ∨ (want ≠ "" ∧ ∀ u ∈ live, InBucket bucket live u →
        scoredPos py u ≠ want) ↔ InBucket bucket live u := fun u => or_iff_left hwiden
    simp only [mem_widenWindow hbucket hnodup, hnot, and_imp]
  have hpulled : (∃ p ∈ (live.map (scoredPos py)).filter (· ≠ ""),
      (∀ w ∈ widenWindow py want live (bucketWindow bucket live), scoredPos py w ≠ p) ∧
        live.find? (fun u => scoredPos py u = p) = some t) ↔ t ∈ live ∧ PulledIn py bucket live t := by
    simp only [hwindow, find?_eq_some_iff_rank hnodup, decide_eq_true_eq]
    constructor
    · rintro ⟨p, hp, hlacks, ht, rfl, hfirst⟩
      exact ⟨ht, of_decide_eq_true (List.mem_filter.mp hp).2, hlacks, hfirst⟩
    · rintro ⟨ht, hpos, hlacks, hfirst⟩
      refine ⟨scoredPos py t, ?_, hlacks, ht, rfl, hfirst⟩
      exact List.mem_filter.mpr ⟨List.mem_map_of_mem ht, decide_eq_true hpos⟩
  rw [hpulled, Windowed, or_iff_right hwiden, ← and_or_left]
  exact and_congr_right fun _ => or_congr_left (or_iff_left hwiden)

theorem nodup_distinctSenses (window : List (ScoredSense F)) :
    ((distinctSenses window).map (·.index)).Nodup := by
  have hloop : ∀ window out : List (ScoredSense F), (out.map (·.index)).Nodup →
      ((window.foldl (fun out t =>
        if t.index ∈ out.map (·.index) then out else out ++ [t]) out).map (·.index)).Nodup := by
    intro window
    induction window with
    | nil => exact fun _ h => h
    | cons t window ih =>
      intro out hout
      rw [List.foldl_cons]
      split
      · exact ih out hout
      · rename_i hnew
        refine ih _ ?_
        rw [List.map_append, List.map_singleton]
        exact List.nodup_append.mpr ⟨hout, List.nodup_singleton _, fun a ha b hb => by
          rintro rfl
          exact hnew (List.mem_singleton.mp hb ▸ ha)⟩
  exact hloop window [] List.nodup_nil

/-- **The window** is the first of the senses brought in, in the order of the scores. -/
theorem selectCandidateWindow_eq {scored : List (ScoredSense F)}
    (hnodup : (scored.map (·.index)).Nodup) (pool : List String) (poolLevel : String) (cap : Nat) :
    selectCandidateWindow py scored pool poolLevel cap =
      ((liveSenses scored).filter fun t => Windowed py (candidateBucketCap py poolLevel)
        (if pool = [] then "" else normalizePool py pool) (liveSenses scored) t).take cap := by
  have hlive : ((liveSenses scored).map (·.index)).Nodup :=
    hnodup.sublist ((liveSenses_sublist _).map _)
  have hbucket := candidateBucketCap_pos py poolLevel
  show (sortBy (rank (liveSenses scored)) (distinctSenses (unsortedWindow py
    (candidateBucketCap py poolLevel) (if pool = [] then "" else normalizePool py pool)
      (liveSenses scored)))).take cap = _
  generalize (if pool = [] then "" else normalizePool py pool) = want
  generalize liveSenses scored = live at hlive ⊢
  refine congrArg (List.take cap) (sortBy_eq_of_perm _ ?_ ((pairwise_rank hlive).filter _))
  refine (List.perm_ext_iff_of_nodup ((List.Nodup.of_map _ hlive).filter _)
    (List.Nodup.of_map _ (nodup_distinctSenses _))).mpr fun t => ?_
  rw [List.mem_filter, decide_eq_true_eq, mem_distinctSenses hlive
    (mem_live_of_mem_window hbucket hlive), mem_unsortedWindow hbucket hlive]

/-! ## Coverage -/

section Cover
variable (scored : ScoredList py F) (pool : List String) (poolLevel : String) (cap : Int)

def ScoredList.stubFree : List (ScoredSense F) := scored.senses.filter (!·.isStub)

/-- What the window promises: at most `cap` senses in the order of the scores and none
twice, a stub only where all are stubs, and every part of speech of the other senses. -/
structure CoversPos : Prop where
  length_le : (windowOf py scored.senses pool poolLevel (some cap)).length ≤ cap
  ordered : (windowOf py scored.senses pool poolLevel (some cap)).Sublist scored.senses
  nodup : ((windowOf py scored.senses pool poolLevel (some cap)).map (·.index)).Nodup
  stubs : ∀ t ∈ windowOf py scored.senses pool poolLevel (some cap),
    t.isStub = true → ∀ u ∈ scored.senses, u.isStub = true
  covers : ∀ t ∈ scored.stubFree, scoredPos py t ≠ "" →
    ∃ u ∈ windowOf py scored.senses pool poolLevel (some cap), scoredPos py u = scoredPos py t

/-- Of each part of speech a sense is brought in before which fewer senses than the cap
rank that are brought in too. -/
def RanksEachPos : Prop :=
  ∀ t ∈ scored.stubFree, scoredPos py t ≠ "" →
    let live := liveSenses scored.senses
    let brought := live.filter fun u => Windowed py (candidateBucketCap py poolLevel)
      (if pool = [] then "" else normalizePool py pool) live u
    ∃ u ∈ brought, scoredPos py u = scoredPos py t ∧
      (brought.filter fun v => rank live v < rank live u).length < (max 1 cap).toNat

variable {scored pool poolLevel cap}

theorem liveSenses_ne_nil {senses : List (ScoredSense F)} (h : senses ≠ []) :
    liveSenses senses ≠ [] := by
  unfold liveSenses
  split
  · exact h
  · rename_i hlive
    exact fun hnil => hlive (List.isEmpty_iff.mpr hnil)

theorem exists_windowed {live : List (ScoredSense F)} (hne : live ≠ []) {bucket : Nat}
    (hbucket : 0 < bucket) (want : String) : ∃ t ∈ live, Windowed py bucket want live t := by
  obtain ⟨t, ht⟩ := Option.ne_none_iff_exists'.mp (mt (List.argmin_eq_none (f := ScoredSense.index)).mp hne)
  refine ⟨t, List.argmin_mem ht, .inl ?_⟩
  have hfirst : live.filter (·.index < t.index) = [] := by
    rw [List.filter_eq_nil_iff]
    intro u hu
    have hle : t.index ≤ u.index := List.le_of_mem_argmin hu ht
    simpa using hle
  rw [InBucket, hfirst]
  exact hbucket

theorem isStub_of_mem_liveSenses {senses : List (ScoredSense F)} {t : ScoredSense F}
    (ht : t ∈ liveSenses senses) (hstub : t.isStub = true) : ∀ u ∈ senses, u.isStub = true := by
  unfold liveSenses at ht
  split at ht
  · rename_i hall
    intro u hu
    have hnone := List.filter_eq_nil_iff.mp (List.isEmpty_iff.mp hall) u hu
    simpa using hnone
  · have hlive := (List.mem_filter.mp ht).2
    rw [hstub] at hlive
    cases hlive

theorem mem_windowOf {scored : ScoredList py F} (hne : scored.senses ≠ []) {t : ScoredSense F} :
    let live := liveSenses scored.senses
    let brought := live.filter fun u => Windowed py (candidateBucketCap py poolLevel)
      (if pool = [] then "" else normalizePool py pool) live u
    t ∈ windowOf py scored.senses pool poolLevel (some cap) ↔ t ∈ brought ∧
      (brought.filter fun v => rank live v < rank live t).length < (max 1 cap).toNat := by
  intro live brought
  have hlive : (live.map (·.index)).Nodup := scored.nodup.sublist ((liveSenses_sublist _).map _)
  have hrank : brought.Pairwise fun a b => rank live a < rank live b :=
    (pairwise_rank hlive).filter _
  have hsorted : sortBy (rank live) brought = brought :=
    sortBy_eq_of_perm _ (List.Perm.refl _) hrank
  have hinj : (brought.map (rank live)).Nodup := List.pairwise_map.mpr (hrank.imp ne_of_lt)
  rw [windowOf, if_neg hne, selectCandidateWindow_eq scored.nodup]
  change t ∈ brought.take _ ↔ _
  constructor
  · intro ht
    have hmem := List.mem_of_mem_take ht
    refine ⟨hmem, (mem_take_sortBy (rank live) hinj hmem _).mp ?_⟩
    rw [hsorted]
    exact ht
  · rintro ⟨hmem, hfew⟩
    have ht := (mem_take_sortBy (rank live) hinj hmem _).mpr hfew
    rwa [hsorted] at ht

theorem windowOf_sublist (scored : ScoredList py F) :
    (windowOf py scored.senses pool poolLevel (some cap)).Sublist scored.senses := by
  unfold windowOf
  split
  · exact List.nil_sublist _
  · rw [selectCandidateWindow_eq scored.nodup]
    exact (List.take_sublist _ _).trans (List.filter_sublist.trans (liveSenses_sublist _))

theorem mem_live_of_mem_windowOf {scored : ScoredList py F} {t : ScoredSense F}
    (ht : t ∈ windowOf py scored.senses pool poolLevel (some cap)) :
    t ∈ liveSenses scored.senses := by
  unfold windowOf at ht
  split at ht
  · cases ht
  · exact mem_of_mem_selectCandidateWindow scored.nodup ht

/-- The parts of speech of the senses that are no stubs. -/
def ScoredList.posValues (scored : ScoredList py F) : List String :=
  ((scored.stubFree.map (scoredPos py)).filter (· ≠ "")).dedup

/-- **Every part of speech is in the window** exactly when the cap is at least one, or
there is no sense, and each part of speech has a sense that the cut leaves. -/
theorem window_covers_iff (hpos : (scored.posValues.length : Int) ≤ cap) :
    CoversPos scored pool poolLevel cap ↔
      (scored.senses = [] ∨ 1 ≤ cap) ∧ RanksEachPos scored pool poolLevel cap := by
  have hsublist : (windowOf py scored.senses pool poolLevel (some cap)).Sublist scored.senses :=
    windowOf_sublist scored
  have hstubs : ∀ t ∈ windowOf py scored.senses pool poolLevel (some cap),
      t.isStub = true → ∀ u ∈ scored.senses, u.isStub = true :=
    fun t ht => isStub_of_mem_liveSenses (mem_live_of_mem_windowOf ht)
  have hnodup := scored.nodup.sublist (hsublist.map (·.index))
  by_cases hnil : scored.senses = []
  · -- without senses the window is empty, whatever the cap
    have hfree : scored.stubFree = [] := by rw [ScoredList.stubFree, hnil]; rfl
    have hwindow : windowOf py scored.senses pool poolLevel (some cap) = [] := if_pos hnil
    have hcap : ((windowOf py scored.senses pool poolLevel (some cap)).length : Int) ≤ cap := by
      rw [hwindow]
      exact (Int.natCast_nonneg _).trans hpos
    refine iff_of_true ⟨hcap, hsublist, hnodup, hstubs, ?_⟩ ⟨.inl hnil, ?_⟩
    · rw [hfree]
      nofun
    · unfold RanksEachPos
      rw [hfree]
      nofun
  rw [or_iff_right hnil]
  constructor
  · intro h
    refine ⟨?_, fun t ht hne => ?_⟩
    · -- a cap below one still leaves a sense
      by_contra hcap
      have hbucket := candidateBucketCap_pos py poolLevel
      obtain ⟨t, ht, hin⟩ := @exists_windowed py _ _ (liveSenses_ne_nil hnil) _ hbucket
        (if pool = [] then "" else normalizePool py pool)
      have hlength := h.length_le
      rw [windowOf, if_neg hnil, selectCandidateWindow_eq scored.nodup, List.length_take] at hlength
      have hmem : t ∈ (liveSenses scored.senses).filter fun u => Windowed py
          (candidateBucketCap py poolLevel) (if pool = [] then "" else normalizePool py pool)
            (liveSenses scored.senses) u :=
        List.mem_filter.mpr ⟨ht, decide_eq_true hin⟩
      have hbrought := List.length_pos_of_mem hmem
      have hone : readCap (some cap) = 1 := by
        rw [readCap]
        omega
      rw [hone] at hlength
      omega
    · obtain ⟨u, hu, hsame⟩ := h.covers t ht hne
      exact ⟨u, ((mem_windowOf hnil).mp hu).1, hsame, ((mem_windowOf hnil).mp hu).2⟩
  · rintro ⟨hcap, hranks⟩
    refine ⟨?_, hsublist, hnodup, hstubs, fun t ht hne => ?_⟩
    · rw [windowOf, if_neg hnil, selectCandidateWindow, List.length_take, readCap]
      omega
    · obtain ⟨u, hu, hsame, hfew⟩ := hranks t ht hne
      exact ⟨u, (mem_windowOf hnil).mpr ⟨hu, hfew⟩, hsame⟩

end Cover

/-- A sense of a part of speech, at its place in the file. -/
def placedSense (pos : String) (index : Nat) : ScoredSense Nat where
  score := 100 - index
  index := index
  entry := ⟨pos, []⟩
  sense := ⟨["a thing"], [], [], [], []⟩
  gloss := "a thing"
  freq := 0
  isMeta := false
  isStub := false

/-- Ten nouns, and the verb behind them. -/
def nounsThenVerb : ScoredList .ascii Nat where
  senses := (List.range 10).map (placedSense "noun") ++ [placedSense "verb" 10]
  nodup := by decide
  stub := by decide +kernel

/-- The window of ten. -/
theorem nounsThenVerb_covers_iff :
    CoversPos nounsThenVerb ["noun"] "B1" 10 ↔
      (nounsThenVerb.senses = [] ∨ (1 : Int) ≤ 10) ∧ RanksEachPos nounsThenVerb ["noun"] "B1" 10 :=
  window_covers_iff (by decide +kernel)

/-- The verb is pulled in and cut off again. -/
theorem verb_is_cut_off :
    nounsThenVerb.posValues = ["noun", "verb"] ∧ ¬ CoversPos nounsThenVerb ["noun"] "B1" 10 := by
  refine ⟨by decide +kernel, fun h => ?_⟩
  have hverb : placedSense "verb" 10 ∈ nounsThenVerb.stubFree := by decide +kernel
  obtain ⟨u, hu, hpos⟩ := h.covers _ hverb (by decide +kernel)
  have hnouns : ∀ u ∈ windowOf .ascii nounsThenVerb.senses ["noun"] "B1" (some 10),
      scoredPos .ascii u ≠ scoredPos .ascii (placedSense "verb" 10) := by decide +kernel
  exact hnouns u hu hpos

end HamZaboon
