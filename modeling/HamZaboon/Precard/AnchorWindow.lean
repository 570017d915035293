import HamZaboon.Precard.Anchor

/-! # The window of an anchor

The anchored sense is the one that ranks first.  The window is cut from the senses that
are no inflections by their place in the file, and then widened by parts of speech; the
order of the scores comes last.

So the window begins with the anchored sense exactly when the cut or the widening has it
(`top_is_anchor_iff`): a sense that ranks first can stand behind the bucket, where buckets
of other senses come before it in the file.
-/

namespace HamZaboon
open Library

section Window
variable {py : GlossText} {F : Type}

/-! ## Senses by their index -/

theorem findIdx_eq_zero {t : ScoredSense F} {rest : List (ScoredSense F)} {u : ScoredSense F}
    (h : (t :: rest).findIdx (·.index = u.index) = 0) : t.index = u.index := by
  rw [List.findIdx_cons] at h
  by_contra hne
  simp [hne] at h

theorem mem_distinctSenses {senses window : List (ScoredSense F)}
    (hnodup : (senses.map (·.index)).Nodup) (hsub : ∀ t ∈ window, t ∈ senses) {t : ScoredSense F} :
    t ∈ distinctSenses window ↔ t ∈ window := by
  have hloop : ∀ window out : List (ScoredSense F), (∀ t ∈ window, t ∈ senses) →
      (∀ t ∈ out, t ∈ senses) →
      (t ∈ window.foldl (fun out t =>
          if t.index ∈ out.map (·.index) then out else out ++ [t]) out ↔ t ∈ out ∨ t ∈ window) := by
    intro window
    induction window with
    | nil => simp
    | cons u window ih =>
      intro out hwindow hout
      have hrest : ∀ t ∈ window, t ∈ senses := fun t ht => hwindow t (List.mem_cons_of_mem _ ht)
      rw [List.foldl_cons]
      split
      · rename_i hseen
        rw [ih out hrest hout, List.mem_cons]
        obtain ⟨v, hv, hindex⟩ := List.mem_map.mp hseen
        obtain rfl := List.inj_on_of_nodup_map hnodup (hout v hv) (hwindow u List.mem_cons_self) hindex
        refine ⟨Or.imp_right .inr, fun h => ?_⟩
        rcases h with h | rfl | h
        · exact .inl h
        · exact .inl hv
        · exact .inr h
      · rw [ih (out ++ [u]) hrest fun t ht => ?_, List.mem_append, List.mem_singleton, List.mem_cons,
          or_assoc]
        rcases List.mem_append.mp ht with ht | ht
        · exact hout t ht
        · exact List.mem_singleton.mp ht ▸ hwindow u List.mem_cons_self
  rw [distinctSenses, hloop window [] hsub nofun]
  exact or_iff_right List.not_mem_nil

/-! ## The cut -/

/-- Fewer senses than the bucket takes stand before a sense in the file. -/
def InBucket (bucket : Nat) (senses : List (ScoredSense F)) (t : ScoredSense F) : Prop :=
  (senses.filter (·.index < t.index)).length < bucket

instance (bucket : Nat) (senses : List (ScoredSense F)) (t : ScoredSense F) :
    Decidable (InBucket bucket senses t) :=
  inferInstanceAs (Decidable (_ < _))

theorem mem_bucketWindow {bucket : Nat} (hbucket : 0 < bucket) {scored : List (ScoredSense F)}
    (hnodup : (scored.map (·.index)).Nodup) {t : ScoredSense F} :
    t ∈ bucketWindow bucket scored ↔ t ∈ scored ∧ InBucket bucket scored t := by
  have hcut : ∀ t ∈ scored, t.index ∈ ((sortBy (·.index) scored).take bucket).map (·.index) ↔
      InBucket bucket scored t := by
    intro t ht
    rw [InBucket, ← mem_take_sortBy (·.index) hnodup ht bucket, List.mem_map]
    constructor
    · rintro ⟨u, hu, hindex⟩
      have husc : u ∈ scored := (mem_sortBy _).mp (List.mem_of_mem_take hu)
      rwa [← List.inj_on_of_nodup_map hnodup husc ht hindex]
    · exact fun hu => ⟨t, hu, rfl⟩
  unfold bucketWindow
  dsimp only
  split
  · rename_i hempty
    have hnil : scored = [] := by
      by_contra hne
      -- the first sense of the file is in the bucket
      obtain ⟨u, rest, hsort⟩ := List.exists_cons_of_ne_nil fun hnil : sortBy (·.index) scored = [] =>
        hne ((sortBy_perm (·.index) scored).symm.trans (hnil ▸ List.Perm.refl [])).eq_nil
      have hu : u ∈ scored := (mem_sortBy _).mp (hsort ▸ List.mem_cons_self)
      have hmem : u ∈ scored.filter
          (·.index ∈ ((sortBy (·.index) scored).take bucket).map (·.index)) := by
        obtain ⟨n, rfl⟩ := Nat.exists_eq_add_of_lt hbucket
        refine List.mem_filter.mpr ⟨hu, decide_eq_true (List.mem_map.mpr ⟨u, ?_, rfl⟩)⟩
        rw [hsort, Nat.zero_add, List.take_succ_cons]
        exact List.mem_cons_self
      rw [List.isEmpty_iff.mp hempty] at hmem
      cases hmem
    simp [hnil]
  · rw [List.mem_filter, decide_eq_true_eq]
    exact and_congr_right fun ht => hcut t ht

/-! ## The widening -/

theorem mem_coverPos {scored window : List (ScoredSense F)} {t : ScoredSense F} :
    t ∈ coverPos py scored window ↔ t ∈ window ∨
      ∃ pos ∈ (scored.map (scoredPos py)).filter (· ≠ ""),
        (∀ w ∈ window, scoredPos py w ≠ pos) ∧ scored.find? (fun t => scoredPos py t = pos) = some t := by
  have hloop : ∀ (poses : List String) (window : List (ScoredSense F)),
      t ∈ poses.foldl (fun window pos =>
          if window.any (fun t => scoredPos py t = pos) then window
          else window ++ (scored.find? fun t => scoredPos py t = pos).toList) window ↔
        t ∈ window ∨ ∃ pos ∈ poses, (∀ w ∈ window, scoredPos py w ≠ pos) ∧
          scored.find? (fun t => scoredPos py t = pos) = some t := by
    intro poses
    induction poses with
    | nil => simp
    | cons pos poses ih =>
      intro window
      rw [List.foldl_cons, ih]
      split
      · rename_i hhas
        obtain ⟨w, hw, hpos⟩ := List.any_eq_true.mp hhas
        refine or_congr_right ⟨fun ⟨p, hp, hrest⟩ => ⟨p, List.mem_cons_of_mem _ hp, hrest⟩, ?_⟩
        rintro ⟨p, hp, hnone, hfind⟩
        rcases List.mem_cons.mp hp with rfl | hp
        · exact absurd (of_decide_eq_true hpos) (hnone w hw)
        · exact ⟨p, hp, hnone, hfind⟩
      · rename_i hlacks
        have hlacks : ∀ w ∈ window, scoredPos py w ≠ pos := fun w hw hpos =>
          hlacks (List.any_eq_true.mpr ⟨w, hw, decide_eq_true hpos⟩)
        rw [List.mem_append, Option.mem_toList]
        constructor
        · rintro ((ht | hfound) | ⟨p, hp, hnone, hfind⟩)
          · exact .inl ht
          · exact .inr ⟨pos, List.mem_cons_self, hlacks, hfound⟩
          · exact .inr ⟨p, List.mem_cons_of_mem _ hp,
              fun w hw => hnone w (List.mem_append_left _ hw), hfind⟩
        · rintro (ht | ⟨p, hp, hnone, hfind⟩)
          · exact .inl (.inl ht)
          · by_cases hpos : p = pos
            · exact .inl (.inr (hpos ▸ hfind))
            · refine .inr ⟨p, (List.mem_cons.mp hp).resolve_left hpos, fun w hw => ?_, hfind⟩
              rcases List.mem_append.mp hw with hw | hw
              · exact hnone w hw
              · have hw := List.find?_some (Option.mem_toList.mp hw)
                rw [of_decide_eq_true hw]
                exact fun heq => hpos heq.symm
  exact hloop _ window

/-- The bucket, or a widening of it, has a sense. -/
def InWindow (py : GlossText) (bucket : Nat) (want : String) (live : List (ScoredSense F))
    (t : ScoredSense F) : Prop :=
  InBucket bucket live t ∨
    (want ≠ "" ∧ ∀ u ∈ live, InBucket bucket live u → scoredPos py u ≠ want) ∨
    (scoredPos py t ≠ "" ∧ ∀ u ∈ live, InBucket bucket live u → scoredPos py u ≠ scoredPos py t)

/-- The window before it is sorted. -/
def unsortedWindow (py : GlossText) (bucket : Nat) (want : String) (live : List (ScoredSense F)) :
    List (ScoredSense F) :=
  coverPos py live (widenWindow py want live (bucketWindow bucket live))

theorem mem_widenWindow {bucket : Nat} {want : String} (hbucket : 0 < bucket)
    {live : List (ScoredSense F)} (hnodup : (live.map (·.index)).Nodup) {t : ScoredSense F} :
    t ∈ widenWindow py want live (bucketWindow bucket live) ↔
      t ∈ live ∧ (InBucket bucket live t ∨
        (want ≠ "" ∧ ∀ u ∈ live, InBucket bucket live u → scoredPos py u ≠ want)) := by
  have hlacks : (¬ (bucketWindow bucket live).any (fun t => scoredPos py t = want) = true) ↔
      ∀ u ∈ live, InBucket bucket live u → scoredPos py u ≠ want := by
    rw [Bool.not_eq_true, List.any_eq_false]
    simp only [mem_bucketWindow hbucket hnodup, decide_eq_true_eq, and_imp]
  unfold widenWindow
  split
  · rename_i hwiden
    rw [hlacks] at hwiden
    exact ⟨fun ht => ⟨ht, .inr hwiden⟩, fun h => h.1⟩
  · rename_i hkeep
    rw [hlacks] at hkeep
    rw [mem_bucketWindow hbucket hnodup]
    exact and_congr_right fun _ => ⟨.inl, fun h => h.resolve_right hkeep⟩

/-- **The window has the sense that ranks first exactly when the bucket has it, or a
widening.** -/
theorem first_mem_window_iff {bucket : Nat} {want : String} (hbucket : 0 < bucket)
    {first : ScoredSense F} {rest : List (ScoredSense F)}
    (hnodup : ((first :: rest).map (·.index)).Nodup) :
    first ∈ unsortedWindow py bucket want (first :: rest) ↔
      InWindow py bucket want (first :: rest) first := by
  have hfirst : first ∈ first :: rest := List.mem_cons_self
  rw [unsortedWindow, mem_coverPos, mem_widenWindow hbucket hnodup, and_iff_right hfirst, InWindow,
    or_assoc]
  refine or_congr_right ?_
  by_cases hwiden : want ≠ "" ∧ ∀ u ∈ first :: rest, InBucket bucket (first :: rest) u →
      scoredPos py u ≠ want
  · exact iff_of_true (.inl hwiden) (.inl hwiden)
  rw [or_iff_right hwiden, or_iff_right hwiden]
  have hwindow : ∀ p, (∀ w ∈ widenWindow py want (first :: rest) (bucketWindow bucket (first :: rest)),
      scoredPos py w ≠ p) ↔ ∀ u ∈ first :: rest, InBucket bucket (first :: rest) u →
        scoredPos py u ≠ p := by
    intro p
    simp only [mem_widenWindow hbucket hnodup, or_iff_left hwiden, and_imp]
  constructor
  · rintro ⟨p, hp, hlacks, hfind⟩
    have hpos := List.find?_some hfind
    obtain rfl : scoredPos py first = p := of_decide_eq_true hpos
    exact ⟨of_decide_eq_true (List.mem_filter.mp hp).2, (hwindow _).mp hlacks⟩
  · rintro ⟨hpos, hlacks⟩
    refine ⟨scoredPos py first, ?_, (hwindow _).mpr hlacks, ?_⟩
    · exact List.mem_filter.mpr ⟨List.mem_map_of_mem hfirst, decide_eq_true hpos⟩
    · rw [List.find?_cons_of_pos (by simp)]

/-! ## The order of the scores -/

theorem liveSenses_perm {a b : List (ScoredSense F)} (h : a.Perm b) :
    (liveSenses a).Perm (liveSenses b) := by
  have hfilter := h.filter (!·.isStub)
  have hempty : (a.filter (!·.isStub)).isEmpty = (b.filter (!·.isStub)).isEmpty := by
    rw [Bool.eq_iff_iff, List.isEmpty_iff, List.isEmpty_iff]
    exact ⟨fun hnil => (hnil ▸ hfilter).nil_eq.symm, fun hnil => (hnil ▸ hfilter).eq_nil⟩
  unfold liveSenses
  rw [hempty]
  split
  · exact h
  · exact hfilter

theorem liveSenses_sublist (scored : List (ScoredSense F)) : (liveSenses scored).Sublist scored := by
  unfold liveSenses
  split
  · exact List.Sublist.refl _
  · exact List.filter_sublist

theorem liveSenses_cons (first : ScoredSense F) (rest : List (ScoredSense F))
    (h : first ∈ liveSenses (first :: rest)) : ∃ rest', liveSenses (first :: rest) = first :: rest' := by
  unfold liveSenses at h ⊢
  split
  · exact ⟨rest, rfl⟩
  · rename_i hlive
    rw [if_neg hlive] at h
    exact ⟨_, List.filter_cons_of_pos (List.mem_filter.mp h).2⟩

theorem inBucket_perm {bucket : Nat} {a b : List (ScoredSense F)} (h : a.Perm b)
    (t : ScoredSense F) : InBucket bucket a t ↔ InBucket bucket b t := by
  rw [InBucket, InBucket, (h.filter _).length_eq]

theorem inWindow_perm {bucket : Nat} {want : String} {a b : List (ScoredSense F)} (h : a.Perm b)
    (t : ScoredSense F) : InWindow py bucket want a t ↔ InWindow py bucket want b t := by
  simp only [InWindow, inBucket_perm h, h.mem_iff]

theorem head?_sorted_iff {first : ScoredSense F} {rest window : List (ScoredSense F)}
    (hnodup : ((first :: rest).map (·.index)).Nodup) (hsub : ∀ t ∈ window, t ∈ first :: rest)
    {cap : Nat} (hcap : 0 < cap) :
    ((sortBy (fun t => (first :: rest).findIdx (·.index = t.index))
        (distinctSenses window)).take cap).head? = some first ↔ first ∈ window := by
  rw [← mem_distinctSenses hnodup hsub, List.head?_take, if_neg (by omega)]
  constructor
  · intro hhead
    exact (mem_sortBy _).mp (List.mem_of_head? hhead)
  · intro hfirst
    cases hsort : sortBy (fun t => (first :: rest).findIdx (·.index = t.index))
        (distinctSenses window) with
    | nil =>
      have hmem := (mem_sortBy (fun t => (first :: rest).findIdx (·.index = t.index))).mpr hfirst
      rw [hsort] at hmem
      cases hmem
    | cons t others =>
      have ht : t ∈ distinctSenses window := (mem_sortBy _).mp (hsort ▸ List.mem_cons_self)
      have hle : (first :: rest).findIdx (·.index = t.index) ≤
          (first :: rest).findIdx (·.index = first.index) := by
        have hsorted := pairwise_sortBy
          (fun t => (first :: rest).findIdx (·.index = t.index)) (distinctSenses window)
        rw [hsort] at hsorted
        have hmem := (mem_sortBy (fun t => (first :: rest).findIdx (·.index = t.index))).mpr hfirst
        rw [hsort] at hmem
        rcases List.mem_cons.mp hmem with rfl | hmem
        · exact le_refl _
        · exact (List.pairwise_cons.mp hsorted).1 first hmem
      have hzero : (first :: rest).findIdx (·.index = first.index) = 0 := by
        rw [List.findIdx_cons]
        simp
      rw [hzero, Nat.le_zero] at hle
      have hin : t ∈ first :: rest := hsub t ((mem_distinctSenses hnodup hsub).mp ht)
      rw [List.inj_on_of_nodup_map hnodup List.mem_cons_self hin (findIdx_eq_zero hle)]
      rfl

theorem mem_live_of_mem_window {bucket : Nat} {want : String} (hbucket : 0 < bucket)
    {live : List (ScoredSense F)} (hnodup : (live.map (·.index)).Nodup) :
    ∀ t ∈ unsortedWindow py bucket want live, t ∈ live := by
  intro t ht
  rcases mem_coverPos.mp ht with ht | ⟨p, -, -, hfind⟩
  · exact ((mem_widenWindow hbucket hnodup).mp ht).1
  · exact List.mem_of_find?_eq_some hfind

variable (py) in
theorem candidateBucketCap_pos (poolLevel : String) : 0 < candidateBucketCap py poolLevel := by
  unfold candidateBucketCap
  split <;> decide

theorem mem_of_mem_selectCandidateWindow {scored : List (ScoredSense F)}
    (hnodup : (scored.map (·.index)).Nodup) {pool : List String} {poolLevel : String} {cap : Nat}
    {t : ScoredSense F} (ht : t ∈ selectCandidateWindow py scored pool poolLevel cap) :
    t ∈ liveSenses scored := by
  have hlive : ((liveSenses scored).map (·.index)).Nodup :=
    hnodup.sublist ((liveSenses_sublist _).map _)
  have hsub : ∀ t ∈ unsortedWindow py (candidateBucketCap py poolLevel)
      (if pool = [] then "" else normalizePool py pool) (liveSenses scored), t ∈ liveSenses scored :=
    mem_live_of_mem_window (candidateBucketCap_pos py poolLevel) hlive
  have hdistinct := (mem_sortBy _).mp (List.mem_of_mem_take ht)
  exact hsub t ((mem_distinctSenses hlive hsub).mp hdistinct)

/-- **The window begins with the sense that ranks first exactly when it is live, and the
bucket or a widening has it.** -/
theorem head?_selectCandidateWindow {first : ScoredSense F} {rest : List (ScoredSense F)}
    (hnodup : ((first :: rest).map (·.index)).Nodup) (pool : List String) (poolLevel : String)
    {cap : Nat} (hcap : 0 < cap) :
    (selectCandidateWindow py (first :: rest) pool poolLevel cap).head? = some first ↔
      first ∈ liveSenses (first :: rest) ∧ InWindow py (candidateBucketCap py poolLevel)
        (if pool = [] then "" else normalizePool py pool) (liveSenses (first :: rest)) first := by
  have hbucket := candidateBucketCap_pos py poolLevel
  by_cases hmem : first ∈ liveSenses (first :: rest)
  · have hlive : ((liveSenses (first :: rest)).map (·.index)).Nodup :=
      hnodup.sublist ((liveSenses_sublist _).map _)
    have hsub : ∀ t ∈ unsortedWindow py (candidateBucketCap py poolLevel)
        (if pool = [] then "" else normalizePool py pool) (liveSenses (first :: rest)),
        t ∈ liveSenses (first :: rest) :=
      mem_live_of_mem_window hbucket hlive
    obtain ⟨rest', hcons⟩ := liveSenses_cons first rest hmem
    rw [and_iff_right hmem, selectCandidateWindow]
    rw [hcons] at hlive hsub ⊢
    rw [← first_mem_window_iff hbucket hlive]
    exact head?_sorted_iff hlive hsub hcap
  · exact iff_of_false (fun hhead => hmem (mem_of_mem_selectCandidateWindow hnodup
      (List.mem_of_head? hhead))) fun h => hmem h.1

end Window

/-! ## The anchored sense -/

section Anchor
variable (py : GlossText) {F : Type} (scorer : Scorer F) (d : Dictionary) (item : AnchorItem)

/-- The senses that an item is anchored among, best first. -/
def rankedSenses : List (ScoredSense F) :=
  scoreSenses py scorer d (py.strip item.text) (anchorRows py scorer d item).1
    (anchorRows py scorer d item).2

def fileSenses : List (ScoredSense F) :=
  scoredInFileOrder py scorer d (py.strip item.text) (anchorRows py scorer d item).1
    (anchorRows py scorer d item).2

/-- The gloss that ranks first is no cross-reference. -/
def NoXrefTop : Prop :=
  ∀ t ∈ (rankedSenses py scorer d item).head?, detectXref py.toPyText t.gloss = none

/-- The top is the anchored sense, which the definition is of. -/
def TopIsAnchor : Prop :=
  (anchorRankItem py scorer d item).top =
    (anchorItemEn py scorer d item).pick.map fun p => ⟨p.id, p.gloss⟩

/-- The sense that ranks first is live, and the bucket or a widening has it. -/
def FirstInWindow : Prop :=
  ∀ first ∈ (rankedSenses py scorer d item).head?,
    first ∈ liveSenses (fileSenses py scorer d item) ∧
      InWindow py (candidateBucketCap py (if item.poolLevel = "" then "A1" else item.poolLevel))
        (if (anchorRows py scorer d item).2 = [] then ""
          else normalizePool py (anchorRows py scorer d item).2)
        (liveSenses (fileSenses py scorer d item)) first

variable {py scorer d item}

theorem nodup_scoredInFileOrder (text : String) (rows : List IndexRow) (pool : List String) :
    ((scoredInFileOrder py scorer d text rows pool).map (·.index)).Nodup := by
  have hindex : (scoredInFileOrder py scorer d text rows pool).map (·.index) =
      List.range' 0 (collectKaikkiSenses py d rows).length := by
    rw [scoredInFileOrder, List.map_map, ← List.zipIdx_map_snd]
    rfl
  rw [hindex]
  exact List.nodup_range'

theorem wordKey_strip (text : String) : wordKey py (py.strip text) = wordKey py text := by
  rw [wordKey, UnicodeLib.strip_strip, wordKey]

theorem anchorItemEn_of_noXref (h : NoXrefTop py scorer d item) :
    anchorItemEn py scorer d item =
      { pick := (rankedSenses py scorer d item).head?.map (pickOf (wordKey py item.text))
        resolved := false
        xrefUnresolvable := false
        window := selectCandidateWindow py (rankedSenses py scorer d item)
          (anchorRows py scorer d item).2
          (if item.poolLevel = "" then "A1" else item.poolLevel) judgeWindowCap
        word := wordKey py item.text } := by
  have hpick : pickAnchorSenseFull py scorer d true (py.strip item.text)
      (anchorRows py scorer d item).1 (anchorRows py scorer d item).2 =
      (rankedSenses py scorer d item).head?.map (pickOf (wordKey py item.text)) := by
    rw [pickAnchorSenseFull]
    refine Option.map_congr fun t ht => ?_
    rw [if_pos rfl, h t ht, wordKey_strip]
  have hword : ∀ p ∈ (rankedSenses py scorer d item).head?.map (pickOf (wordKey py item.text)),
      p.id.word = wordKey py item.text ∧ detectXref py.toPyText p.gloss = none := by
    intro p hp
    obtain ⟨t, ht, rfl⟩ := Option.mem_map.mp hp
    exact ⟨rfl, h t ht⟩
  have hflag : ((rankedSenses py scorer d item).head?.map (pickOf (wordKey py item.text))).any
      (fun p => (detectXref py.toPyText p.gloss).isSome) = false := by
    rw [Option.any_eq_false]
    intro p hp
    rw [(hword p hp).2]
    rfl
  have hsame : ¬ ((((rankedSenses py scorer d item).head?.map
        (pickOf (wordKey py item.text))).map (·.id.word)).getD "" ≠ "" ∧
      (((rankedSenses py scorer d item).head?.map
        (pickOf (wordKey py item.text))).map (·.id.word)).getD "" ≠ py.lower (py.strip item.text)) := by
    rintro ⟨hne, hother⟩
    cases hp : (rankedSenses py scorer d item).head?.map (pickOf (wordKey py item.text)) with
    | none =>
      rw [hp] at hne
      exact hne rfl
    | some p =>
      rw [hp] at hother
      exact hother (hword p hp).1
  rw [anchorItemEn]
  simp only [hpick, if_neg hsame, hflag, wordKey_strip]
  rfl

/-- **Without a cross-reference the top is the anchored sense exactly when the sense that
ranks first is live, and the bucket or a widening of it by parts of speech has it.** -/
theorem top_is_anchor_iff (h : NoXrefTop py scorer d item) :
    TopIsAnchor py scorer d item ↔ FirstInWindow py scorer d item := by
  have hperm : (rankedSenses py scorer d item).Perm (fileSenses py scorer d item) :=
    scorer.sort_perm _ _
  have hnodup : ((rankedSenses py scorer d item).map (·.index)).Nodup :=
    (hperm.map _).nodup_iff.mpr (nodup_scoredInFileOrder _ _ _)
  unfold TopIsAnchor FirstInWindow anchorRankItem AnchorProbe.candidates
  simp only [anchorItemEn_of_noXref h]
  cases hranked : rankedSenses py scorer d item with
  | nil =>
    refine iff_of_true ?_ nofun
    have hempty : selectCandidateWindow py ([] : List (ScoredSense F))
        (anchorRows py scorer d item).2 (if item.poolLevel = "" then "A1" else item.poolLevel)
        judgeWindowCap = [] := by
      rw [List.eq_nil_iff_forall_not_mem]
      intro t ht
      have hnil : (([] : List (ScoredSense F)).map (·.index)).Nodup := List.nodup_nil
      have hmem : t ∈ liveSenses [] := mem_of_mem_selectCandidateWindow hnil ht
      exact List.not_mem_nil hmem
    rw [hempty]
    rfl
  | cons first rest =>
    rw [hranked] at hperm hnodup
    simp only [List.head?_cons, Option.mem_some_iff, forall_eq']
    rw [← (liveSenses_perm hperm).mem_iff, ← inWindow_perm (liveSenses_perm hperm),
      ← head?_selectCandidateWindow hnodup _ _ (by decide : 0 < judgeWindowCap), List.head?_map]
    constructor
    · intro htop
      obtain ⟨t, ht, heq⟩ := Option.map_eq_some_iff.mp htop
      have hindex : t.index = first.index := congrArg (fun top : AnchorTop => top.id.index) heq
      have hmem : t ∈ first :: rest := (liveSenses_sublist _).subset
        (mem_of_mem_selectCandidateWindow hnodup (List.mem_of_head? ht))
      rw [ht, List.inj_on_of_nodup_map hnodup hmem List.mem_cons_self hindex]
    · intro hhead
      rw [hhead]
      rfl

end Anchor

/-- Scores in ten-thousandths, of senses without a penalty, and words of one frequency. -/
def tenThousandths : Scorer Int where
  prescore index _ _ := [10000, 7071, 5774, 5000, 4472, 4082, 3780].getD index 0
  freqNorm _ _ _ := 5000
  apart a b := 500 ≤ (a - b).natAbs
  uneven a b := a ≠ b
  above a b := b < a
  sort cmp l := l.insertionSort fun a b => cmp a b ≤ 0
  sort_perm _ l := List.perm_insertionSort _ l

def plainSense (gloss : String) : KaikkiSense := ⟨[gloss], [], [], [], []⟩

def oneNoun (word : String) (glosses : List String) : Dictionary where
  index key := if key = word then some [⟨"noun", 0⟩] else none
  read _ := some ⟨"noun", glosses.map plainSense⟩

def nounItem (word : String) : AnchorItem := ⟨⟨"word", word⟩, ["noun"], "A1"⟩

theorem bucketed_top_is_anchor_iff :
    TopIsAnchor .ascii tenThousandths
        (oneNoun "run" ["past participle of run", "Senses relating to speed.", "A race."])
        (nounItem "run") ↔
      FirstInWindow .ascii tenThousandths
        (oneNoun "run" ["past participle of run", "Senses relating to speed.", "A race."])
        (nounItem "run") :=
  top_is_anchor_iff (by unfold NoXrefTop; decide +kernel)

/-- Six buckets of other senses, and behind them a sense of its own. -/
def water : Dictionary :=
  oneNoun "water" (["rivers", "lakes", "rain", "seas", "ice", "steam"].map
    (fun topic => "Senses relating to " ++ topic ++ ".") ++ ["A clear liquid."])

/-- The last sense anchors the word, and the window begins with the first bucket. -/
theorem bucketed_top_is_not_anchor :
    NoXrefTop .ascii tenThousandths water (nounItem "water") ∧
      (anchorRankItem .ascii tenThousandths water (nounItem "water")).enDef = "A clear liquid." ∧
      (anchorRankItem .ascii tenThousandths water (nounItem "water")).top =
        some ⟨⟨"water", 0⟩, "Senses relating to rivers."⟩ ∧
      ¬ TopIsAnchor .ascii tenThousandths water (nounItem "water") := by
  unfold TopIsAnchor NoXrefTop
  decide +kernel

end HamZaboon
