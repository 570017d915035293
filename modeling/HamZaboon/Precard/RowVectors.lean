import HamZaboon.Precard.LabelResume

/-! # The topic vector of a row

The vector of an assembled row is that of its label.  A label without a vector, or a sense that
the model did not label, takes what `vec_lookup` has for the sense id, and a row with neither
falls back on the topic vectors of its item.

A list of `vec_lookup` is filled by every item with the sense id in turn, so two items with one
sense give each of them a vector of weight two, of which one half is the other's; and a share of
a vector may round to zero.  `emitted_distribution_iff` says which rows escape both.
-/

namespace HamZaboon
open Library

/-! ## Vectors -/

def weightSum (vector : List (String × ℚ)) : ℚ := (vector.map (·.2)).sum

/-- A vector as the checks leave it: the shares of one to three accepted weights, to four
decimals. -/
structure NormedVector where
  entries : List (String × ℚ)
  normed : ∃ weights : List (String × ℚ), 1 ≤ weights.length ∧ weights.length ≤ 3 ∧
    (∀ w ∈ weights, w.1 ≠ "" ∧ 0 < w.2) ∧
      entries.Perm (weights.map fun w => (w.1, round4 (w.2 / weightSum weights)))

theorem abs_round4_sub_le (x : ℚ) : |round4 x - x| ≤ 1 / 20000 := by
  have hround : |(roundHalfEven (x * 10000) : ℚ) - x * 10000| ≤ 1 / 2 := by
    have hlow := Int.floor_le (x * 10000)
    have hhigh := Int.lt_floor_add_one (x * 10000)
    rw [abs_le]
    unfold roundHalfEven
    dsimp only
    split
    · constructor <;> linarith
    · split
      · push_cast
        constructor <;> linarith
      · split <;> push_cast <;> constructor <;> linarith
  rw [round4, abs_le] at *
  constructor <;> linarith

theorem sum_shares {weights : List (String × ℚ)} (h : weightSum weights ≠ 0) :
    (weights.map fun w => w.2 / weightSum weights).sum = 1 := by
  have hdiv : ∀ l : List (String × ℚ), ∀ t : ℚ, (l.map fun w => w.2 / t).sum = weightSum l / t := by
    intro l t
    induction l with
    | nil => simp [weightSum]
    | cons w l ih =>
      rw [List.map_cons, List.sum_cons, ih, weightSum, weightSum, List.map_cons, List.sum_cons, add_div]
  rw [hdiv, div_self h]

namespace NormedVector
variable (v : NormedVector)

theorem length_pos : 0 < v.entries.length := by
  obtain ⟨weights, hone, -, -, hperm⟩ := v.normed
  rw [hperm.length_eq, List.length_map]
  exact hone

theorem entries_ne_nil : v.entries ≠ [] := List.length_pos_iff.mp v.length_pos

theorem label_ne {e : String × ℚ} (h : e ∈ v.entries) : e.1 ≠ "" := by
  obtain ⟨weights, -, -, hweights, hperm⟩ := v.normed
  obtain ⟨w, hw, rfl⟩ := List.mem_map.mp (hperm.mem_iff.mp h)
  exact (hweights w hw).1

theorem abs_weightSum_sub_one_le : |weightSum v.entries - 1| ≤ 3 / 20000 := by
  obtain ⟨weights, hone, hthree, hweights, hperm⟩ := v.normed
  have hpos : 0 < weightSum weights :=
    List.sum_pos _ (fun q hq => by
      obtain ⟨w, hw, rfl⟩ := List.mem_map.mp hq
      exact (hweights w hw).2) (by simpa using List.length_pos_iff.mp hone)
  have hclose : ∀ l : List (String × ℚ), ∀ t : ℚ,
      |(l.map fun w => round4 (w.2 / t)).sum - (l.map fun w => w.2 / t).sum| ≤
        l.length * (1 / 20000) := by
    intro l t
    induction l with
    | nil => simp
    | cons w l ih =>
      have hone := abs_round4_sub_le (w.2 / t)
      rw [abs_le] at *
      rw [List.map_cons, List.map_cons, List.sum_cons, List.sum_cons, List.length_cons]
      push_cast
      constructor <;> linarith
  have hsum : weightSum v.entries =
      (weights.map fun w => round4 (w.2 / weightSum weights)).sum := by
    rw [weightSum, (hperm.map (·.2)).sum_eq, List.map_map]
    rfl
  have hnear := hclose weights (weightSum weights)
  rw [sum_shares hpos.ne', ← hsum] at hnear
  have hlength : (weights.length : ℚ) ≤ 3 := by exact_mod_cast hthree
  linarith

/-- No share of the vector has rounded to zero. -/
def Positive : Prop := ∀ e ∈ v.entries, 0 < e.2

instance : Decidable v.Positive := inferInstanceAs (Decidable (∀ e ∈ v.entries, 0 < e.2))

end NormedVector

theorem normed_single {label : String} (h : label ≠ "") : ∃ weights : List (String × ℚ),
    1 ≤ weights.length ∧ weights.length ≤ 3 ∧ (∀ w ∈ weights, w.1 ≠ "" ∧ 0 < w.2) ∧
      [(label, (1 : ℚ))].Perm (weights.map fun w => (w.1, round4 (w.2 / weightSum weights))) := by
  refine ⟨[(label, 1)], le_rfl, (by decide : 1 ≤ 3), fun w hw => ?_, ?_⟩
  · rw [List.mem_singleton.mp hw]
    exact ⟨h, one_pos⟩
  · have hround : round4 1 = 1 := by decide +kernel
    simp [weightSum, hround]

/-- `single_topic_vector`, of a label. -/
def NormedVector.single (label : String) (h : label ≠ "") : NormedVector :=
  ⟨[(label, 1)], normed_single h⟩

/-- The entries of a vector, taken from the topic vectors of an item. -/
def NormedVector.entriesFrom (v : NormedVector) (key : String) : List VectorEntry :=
  v.entries.map fun e => ⟨e.1, e.2, some key⟩

/-! ## A run -/

/-- What the vectors stage has for an item. -/
structure VectorHit where
  vector : NormedVector
  /-- `extra_vec`, by sense id. -/
  extraVec : List (String × NormedVector)

/-- What the label stage has for an entry. -/
inductive LabelAnswer
  | reply (label : String) (vector : NormedVector)
  | record (label : String) (vector : Option NormedVector)
  /-- A plain label of the cache. -/
  | text (label : String)
  | unlabelled

def LabelAnswer.row (py : GlossText) (e : LabelEntry) : LabelAnswer → LabelRow
  | .reply label vector => e.labelled py ⟨label, vector.entries⟩
  | .record label vector =>
    e.guarded py ((CachedLabel.record label (vector.elim [] (·.entries))).row e)
  | .text label => e.guarded py ((CachedLabel.text label).row e)
  | .unlabelled => e.unlabelled

/-- A pick of an item: a row is assembled for each. -/
structure RowPick where
  item : SampleItem
  sub : SensePick
  pos : Nat

def RowPick.key (row : RowPick) : String := sourceItemKey row.item

/-- The items of a run with the results of the stages that their vectors come from. -/
structure RowRun where
  py : GlossText
  lib : TopicLib
  items : List SampleItem
  /-- `sense_id` of the judge result, empty where there is none. -/
  senseId : String → String
  /-- `arbiter_fanout_picks`. -/
  picks : String → Fanout
  /-- The results of the vectors stage, by the key of the item. -/
  vectors : List (String × VectorHit)
  /-- The items that the label stage has a result for. -/
  labelled : String → Bool
  answers : LabelEntry → LabelAnswer

namespace RowRun
variable (run : RowRun)

/-- The list of `vec_lookup` for a sense id. -/
def vecLookup (sid : String) : List VectorEntry :=
  run.vectors.flatMap fun (key, hit) =>
    ((if run.senseId key = sid then hit.vector.entriesFrom key else []) ++
      hit.extraVec.flatMap fun (subSid, v) => if subSid = sid then v.entriesFrom key else []).filter
        (·.label ≠ "")

/-- `lookups`: the lists of the picked senses of an item. -/
def lookups (key sid : String) : List VectorEntry :=
  if sid ≠ "" ∧ sid ∈ (run.picks key).picks.map (·.senseId) then run.vecLookup sid else []

def labelCall : LabelCall := ⟨run.py, run.lib, run.items, run.picks, run.lookups⟩

def labels : LabelOut :=
  foldBack (((run.items.filter fun item => run.labelled (sourceItemKey item)).flatMap
    run.labelCall.entriesOf).map fun e => (e, (run.answers e).row run.py e))

/-- The vector that the vectors stage has for a row. -/
def itemVector (row : RowPick) : Option NormedVector :=
  let vec3 := run.vectors.lookup row.key
  (vec3.bind (·.extraVec.lookup row.sub.senseId)).or
    (if row.pos = 0 then vec3.map (·.vector) else none)

/-- What the label stage is given for a row. -/
def entry (row : RowPick) : LabelEntry := run.labelCall.entryOf row.item row.sub row.pos

/-- `sub_vec`, where the label row is the first of the item or, by its sense id, an extra one. -/
def subVec (row : RowPick) : List VectorEntry :=
  let label := ((rowIn run.labels (run.entry row)).map (·.vector)).getD []
  if label ≠ [] then label
  else
    match run.itemVector row with
    | some v => v.entriesFrom row.key
    | none => [⟨otherAbstract, 1, none⟩]

def rows : List RowPick :=
  run.items.flatMap fun item =>
    (run.picks (sourceItemKey item)).picks.zipIdx.map fun (sub, pos) => ⟨item, sub, pos⟩

end RowRun

/-! ## Which rows have a distribution of their own -/

/-- A vector of positive weights that sum to one, up to the accepted tolerance and the rounding
of three weights, and with no entry of another item. -/
structure Distribution (key : String) (vector : List VectorEntry) : Prop where
  ne_nil : vector ≠ []
  pos : ∀ e ∈ vector, 0 < e.weight
  sum : |(vector.map (·.weight)).sum - 1| ≤ 1 / 100 + 3 / 20000
  own : ∀ e ∈ vector, ∀ k, e.origin = some k → k = key

/-- The vector that comes with the label of an entry: that of the guard, else its own, else, where
nothing is looked up, the label alone. -/
def LabelEntry.ownVector (py : GlossText) (e : LabelEntry) (label : String)
    (vector : Option NormedVector) : Option NormedVector :=
  let guard := topicPostGuard py e.text e.gloss label
  if hguard : guard ≠ "" ∧ guard ≠ label then some (.single guard hguard.1)
  else if hlabel : label = "" then none
  else
    match vector with
    | some v => some v
    | none => if e.known ≠ [] then none else some (.single label hlabel)

/-- The vector that comes with the answer of an entry. -/
def LabelAnswer.own (py : GlossText) (e : LabelEntry) : LabelAnswer → Option NormedVector
  | .reply label vector => e.ownVector py label (some vector)
  | .record label vector => e.ownVector py label vector
  | .text label => e.ownVector py (if label = otherAbstract then "" else label) none
  | .unlabelled => none

namespace RowRun
variable (run : RowRun)

/-- The vectors that are held for a sense id, with the items that they are held by. -/
def held (sid : String) : List (String × NormedVector) :=
  run.vectors.flatMap fun (key, hit) =>
    (if run.senseId key = sid then [(key, hit.vector)] else []) ++
      (hit.extraVec.filter (·.1 = sid)).map fun (_, v) => (key, v)

def labelVector (row : RowPick) : Option NormedVector :=
  if run.labelled row.key then (run.answers (run.entry row)).own run.py (run.entry row) else none

/-- The row is in the label stage, and a vector is held for its sense. -/
def LooksUp (row : RowPick) : Prop :=
  run.labelled row.key = true ∧ row.sub.senseId ≠ "" ∧ run.held row.sub.senseId ≠ []

/-- No share of the vector that a row takes has rounded to zero, and where it is looked up, the
only one held for the sense is that of the item. -/
structure Sound (row : RowPick) : Prop where
  label : ∀ v, run.labelVector row = some v → v.Positive
  looked : run.labelVector row = none → run.LooksUp row →
    ∃ v, run.held row.sub.senseId = [(row.key, v)] ∧ v.Positive
  item : run.labelVector row = none → ¬run.LooksUp row →
    ∀ v, run.itemVector row = some v → v.Positive

end RowRun

namespace LabelEntry
variable (py : GlossText) (e : LabelEntry)

theorem vector_settled_guarded (row : LabelRow) :
    let guard := topicPostGuard py e.text e.gloss (row.label.getD "")
    (e.settled (e.guarded py row)).vector =
      if guard ≠ "" ∧ guard ≠ row.label.getD "" then plainVector (singleTopicVector guard)
      else if row.label.getD "" = "" then e.known else row.vector := by
  intro guard
  have hsome : guard ≠ "" ∧ some guard ≠ row.label ↔ guard ≠ "" ∧ guard ≠ row.label.getD "" := by
    refine and_congr_right fun hguard => not_congr ?_
    cases row.label with
    | none => exact ⟨nofun, fun h => absurd h hguard⟩
    | some label => exact Option.some_inj
  rw [guarded, show topicPostGuard py e.text e.gloss (row.label.getD "") = guard from rfl]
  by_cases hfires : guard ≠ "" ∧ guard ≠ row.label.getD ""
  · rw [if_pos (hsome.mpr hfires), if_pos hfires]
    rw [settled, Option.getD_some, if_neg hfires.1]
  · rw [if_neg (mt hsome.mp hfires), if_neg hfires, settled]
    split <;> rfl

theorem vector_settled_ownVector {row : LabelRow} {label : String} {vector : Option NormedVector}
    (hlabel : row.label.getD "" = label)
    (hvector : label ≠ "" → row.vector = vector.elim
      (if e.known ≠ [] then e.known else plainVector (singleTopicVector label))
      fun v => plainVector v.entries) :
    (e.settled (e.guarded py row)).vector =
      (e.ownVector py label vector).elim e.known fun v => plainVector v.entries := by
  rw [vector_settled_guarded, ownVector, hlabel]
  by_cases hfires : topicPostGuard py e.text e.gloss label ≠ "" ∧
      topicPostGuard py e.text e.gloss label ≠ label
  · rw [if_pos hfires, dif_pos hfires, singleTopicVector, if_neg hfires.1]
    rfl
  · rw [if_neg hfires, dif_neg hfires]
    by_cases hempty : label = ""
    · rw [if_pos hempty, dif_pos hempty]
      rfl
    · rw [if_neg hempty, dif_neg hempty, hvector hempty]
      cases vector with
      | some v => rfl
      | none =>
        by_cases hknown : e.known ≠ []
        · simp only [Option.elim_none, if_pos hknown]
        · simp only [Option.elim_none, if_neg hknown]
          rw [singleTopicVector, if_neg hempty]
          rfl

end LabelEntry

theorem LabelAnswer.vector_settled (py : GlossText) (e : LabelEntry) (answer : LabelAnswer) :
    (e.settled (answer.row py e)).vector =
      (answer.own py e).elim e.known fun v => plainVector v.entries := by
  cases answer with
  | reply label vector =>
    rw [row, own, LabelEntry.labelled]
    exact e.vector_settled_ownVector py rfl fun _ => rfl
  | record label vector =>
    rw [row, own]
    refine e.vector_settled_ownVector py ?_ fun hlabel => ?_
    · rw [CachedLabel.row]
      split
      · exact Eq.symm ‹label = ""›
      · rfl
    · rw [CachedLabel.row, if_neg hlabel]
      cases vector with
      | none => rfl
      | some v => exact if_pos v.entries_ne_nil
  | text label =>
    rw [row, own]
    refine e.vector_settled_ownVector py ?_ fun hlabel => ?_
    · rw [CachedLabel.row]
      by_cases hother : label = otherAbstract
      · rw [if_pos (.inr hother), if_pos hother]
        rfl
      · rw [if_neg hother]
        split
        · exact (‹label = "" ∨ label = otherAbstract›.resolve_right hother).symm
        · rfl
    · by_cases hother : label = otherAbstract
      · rw [if_pos hother] at hlabel
        exact absurd rfl hlabel
      · rw [if_neg hother] at hlabel ⊢
        rw [CachedLabel.row, if_neg (not_or.mpr ⟨hlabel, hother⟩)]
        rfl
  | unlabelled => exact congrArg LabelRow.vector (if_pos rfl)

theorem NormedVector.distribution_iff (v : NormedVector) {key : String} {origin : Option String}
    (horigin : ∀ k, origin = some k → k = key) :
    Distribution key (v.entries.map fun e => ⟨e.1, e.2, origin⟩) ↔ v.Positive := by
  constructor
  · intro h e he
    exact h.pos _ (List.mem_map_of_mem he)
  · intro hpos
    refine ⟨mt List.map_eq_nil_iff.mp v.entries_ne_nil, fun e he => ?_, ?_, fun e he => ?_⟩
    · obtain ⟨w, hw, rfl⟩ := List.mem_map.mp he
      exact hpos w hw
    · rw [List.map_map]
      exact v.abs_weightSum_sub_one_le.trans (by norm_num)
    · obtain ⟨w, -, rfl⟩ := List.mem_map.mp he
      exact horigin

theorem length_le_weightSum (held : List (String × NormedVector)) :
    held.length * (1 - 3 / 20000 : ℚ) ≤
      ((held.flatMap fun (key, v) => v.entriesFrom key).map (·.weight)).sum := by
  induction held with
  | nil => simp
  | cons h held ih =>
    have hone := (abs_le.mp h.2.abs_weightSum_sub_one_le).1
    have hown : ((h.2.entriesFrom h.1).map (·.weight)).sum = weightSum h.2.entries := by
      rw [NormedVector.entriesFrom, List.map_map]
      rfl
    rw [List.flatMap_cons, List.map_append, List.sum_append, hown, List.length_cons]
    push_cast
    linarith

theorem distribution_flatMap_iff {held : List (String × NormedVector)} (hne : held ≠ [])
    (key : String) : Distribution key (held.flatMap fun (key, v) => v.entriesFrom key) ↔
      ∃ v, held = [(key, v)] ∧ v.Positive := by
  constructor
  · intro h
    obtain ⟨⟨k, v⟩, rest, rfl⟩ := List.exists_cons_of_ne_nil hne
    have hlength : rest = [] := by
      by_contra hrest
      have hlow := length_le_weightSum ((k, v) :: rest)
      have hhigh := (abs_le.mp h.sum).2
      have htwo : (2 : ℚ) ≤ (((k, v) :: rest).length : ℕ) := by
        have := List.length_pos_iff.mpr hrest
        exact_mod_cast Nat.succ_le_succ this
      linarith
    subst hlength
    obtain ⟨e, he⟩ := List.exists_mem_of_ne_nil _ v.entries_ne_nil
    obtain rfl : k = key :=
      h.own ⟨e.1, e.2, some k⟩ (List.mem_flatMap.mpr ⟨_, List.mem_singleton_self _,
        List.mem_map_of_mem he⟩) k rfl
    rw [List.flatMap_singleton] at h
    exact ⟨v, rfl, (v.distribution_iff fun _ => Eq.symm ∘ Option.some.inj).mp h⟩
  · rintro ⟨v, rfl, hpos⟩
    rw [List.flatMap_singleton]
    exact (v.distribution_iff fun _ => Eq.symm ∘ Option.some.inj).mpr hpos

namespace RowRun
variable {run : RowRun}

theorem vecLookup_eq (sid : String) :
    run.vecLookup sid = (run.held sid).flatMap fun (key, v) => v.entriesFrom key := by
  have hfilter : ∀ (key : String) (v : NormedVector),
      (v.entriesFrom key).filter (·.label ≠ "") = v.entriesFrom key := fun key v =>
    List.filter_eq_self.mpr fun e he => by
      obtain ⟨w, hw, rfl⟩ := List.mem_map.mp he
      exact decide_eq_true (v.label_ne hw)
  rw [vecLookup, held, List.flatMap_assoc]
  refine congrArg (List.flatMap · run.vectors) (funext fun ⟨key, hit⟩ => ?_)
  dsimp only
  rw [List.filter_append, List.flatMap_append]
  congr 1
  · split
    · rw [hfilter, List.flatMap_singleton]
    · rfl
  · induction hit.extraVec with
    | nil => rfl
    | cons extra extras ih =>
      rw [List.flatMap_cons, List.filter_append, ih]
      by_cases hsid : extra.1 = sid
      · rw [if_pos hsid, hfilter, List.filter_cons_of_pos (by simpa using hsid)]
        rfl
      · rw [if_neg hsid, List.filter_cons_of_neg (by simpa using hsid)]
        rfl

theorem pick_of_mem_rows {row : RowPick} (h : row ∈ run.rows) :
    row.item ∈ run.items ∧ (row.sub, row.pos) ∈ (run.picks row.key).picks.zipIdx := by
  obtain ⟨item, hitem, h⟩ := List.mem_flatMap.mp h
  obtain ⟨p, hp, rfl⟩ := List.mem_map.mp h
  exact ⟨hitem, hp⟩

theorem known_entry {row : RowPick} (h : row ∈ run.rows) :
    (run.entry row).known =
      if row.sub.senseId ≠ "" then run.vecLookup row.sub.senseId else [] := by
  have hsub := List.fst_mem_of_mem_zipIdx (pick_of_mem_rows h).2
  rw [show (run.entry row).known = run.lookups row.key (run.labelCall.senseIdOf row.item row.sub)
    from rfl, lookups, LabelCall.senseIdOf]
  by_cases hsid : row.sub.senseId = ""
  · rw [if_pos hsid, if_neg (not_not.mpr hsid), if_neg]
    -- a pick without a sense id is the only one of its item
    rintro ⟨hne, hmem⟩
    obtain ⟨other, hother, heq⟩ := List.mem_map.mp hmem
    have hone : ¬1 < (run.picks row.key).picks.length := fun hlt =>
      (run.picks row.key).named hlt row.sub hsub hsid
    obtain ⟨p, hp⟩ := List.length_eq_one_iff.mp (show (run.picks row.key).picks.length = 1 by
      have := List.length_pos_of_mem hsub
      omega)
    rw [hp, List.mem_singleton] at hsub hother
    rw [← heq, hother, ← hsub] at hne
    exact hne hsid
  · rw [if_neg hsid, if_pos hsid, if_pos ⟨hsid, List.mem_map_of_mem hsub⟩]

theorem rowIn_labels {row : RowPick} (h : row ∈ run.rows) :
    rowIn run.labels (run.entry row) =
      if run.labelled row.key then
        some ((run.entry row).settled ((run.answers (run.entry row)).row run.py (run.entry row)))
      else none := by
  obtain ⟨hitem, hpick⟩ := pick_of_mem_rows h
  have hmap : (((run.items.filter fun item => run.labelled (sourceItemKey item)).flatMap
      run.labelCall.entriesOf).map fun e => (e, (run.answers e).row run.py e)).map (·.1) =
      (run.items.filter fun item => run.labelled (sourceItemKey item)).flatMap
        run.labelCall.entriesOf := by
    rw [List.map_map]
    exact List.map_id _
  have hfold := foldBack_batch run.labelCall _ hmap []
  by_cases hlabelled : run.labelled row.key = true
  · have he : run.entry row ∈ (run.items.filter fun item => run.labelled (sourceItemKey item)).flatMap
        run.labelCall.entriesOf :=
      List.mem_flatMap.mpr ⟨row.item, List.mem_filter.mpr ⟨hitem, hlabelled⟩,
        List.mem_map.mpr ⟨_, hpick, rfl⟩⟩
    obtain ⟨labelRow, hmem, hin⟩ := hfold.2 _ he
    obtain ⟨e, -, heq⟩ := List.mem_map.mp hmem
    obtain ⟨rfl, rfl⟩ := Prod.mk.inj heq
    rw [if_pos hlabelled]
    exact hin
  · have hnone := hfold.1 row.key fun hmem => by
      obtain ⟨item, hitem, hkey⟩ := List.mem_map.mp hmem
      rw [← hkey] at hlabelled
      exact hlabelled (List.mem_filter.mp hitem).2
    rw [if_neg hlabelled, rowIn, show run.labels.lookup (run.entry row).itemKey = none from hnone]
    rfl

theorem label_vector {row : RowPick} (h : row ∈ run.rows) :
    ((rowIn run.labels (run.entry row)).map (·.vector)).getD [] =
      (run.labelVector row).elim
        (if run.labelled row.key ∧ row.sub.senseId ≠ "" then run.vecLookup row.sub.senseId else [])
        fun v => plainVector v.entries := by
  rw [rowIn_labels h, labelVector]
  by_cases hlabelled : run.labelled row.key = true
  · rw [if_pos hlabelled, if_pos hlabelled, Option.map_some, Option.getD_some,
      LabelAnswer.vector_settled, known_entry h]
    simp only [hlabelled, true_and]
  · rw [if_neg hlabelled, if_neg hlabelled, Option.elim_none, if_neg fun hboth => hlabelled hboth.1]
    rfl

theorem distribution_subVec_iff {row : RowPick} (h : row ∈ run.rows) :
    Distribution row.key (run.subVec row) ↔ run.Sound row := by
  rw [subVec, label_vector h]
  cases hown : run.labelVector row with
  | some v =>
    have hne : plainVector v.entries ≠ [] := mt List.map_eq_nil_iff.mp v.entries_ne_nil
    have hplain : Distribution row.key (plainVector v.entries) ↔ v.Positive :=
      v.distribution_iff nofun
    rw [Option.elim_some, if_pos hne, hplain]
    exact ⟨fun hpos => ⟨fun w hw => Option.some.inj (hown.symm.trans hw) ▸ hpos,
        fun hnone => absurd (hown.symm.trans hnone) nofun,
        fun hnone => absurd (hown.symm.trans hnone) nofun⟩,
      fun hsound => hsound.label v hown⟩
  | none =>
    rw [Option.elim_none]
    by_cases hlooks : run.LooksUp row
    · obtain ⟨hlabelled, hsid, hheld⟩ := hlooks
      have hne : ((run.held row.sub.senseId).flatMap fun (key, v) => v.entriesFrom key) ≠ [] := by
        obtain ⟨⟨k, v⟩, rest, heq⟩ := List.exists_cons_of_ne_nil hheld
        rw [heq, List.flatMap_cons]
        exact List.append_ne_nil_of_left_ne_nil (mt List.map_eq_nil_iff.mp v.entries_ne_nil) _
      rw [if_pos (show run.labelled row.key = true ∧ _ from ⟨hlabelled, hsid⟩), vecLookup_eq,
        if_pos hne, distribution_flatMap_iff hheld]
      exact ⟨fun hone => ⟨fun w hw => absurd (hown.symm.trans hw) nofun, fun _ _ => hone,
          fun _ hnot => absurd ⟨hlabelled, hsid, hheld⟩ hnot⟩,
        fun hsound => hsound.looked hown ⟨hlabelled, hsid, hheld⟩⟩
    · have hnil : (if run.labelled row.key ∧ row.sub.senseId ≠ "" then
          run.vecLookup row.sub.senseId else []) = [] := by
        split
        · rename_i hboth
          rw [vecLookup_eq, not_not.mp fun hheld => hlooks ⟨hboth.1, hboth.2, hheld⟩]
          rfl
        · rfl
      rw [hnil, if_neg (not_not.mpr rfl)]
      cases hitem : run.itemVector row with
      | none =>
        refine ⟨fun _ => ⟨fun w hw => absurd (hown.symm.trans hw) nofun, fun _ hyes => absurd hyes hlooks,
          fun _ _ w hw => absurd (hitem.symm.trans hw) nofun⟩, fun _ => ?_⟩
        exact ⟨List.cons_ne_nil _ _, by simp, by norm_num, by simp⟩
      | some v =>
        dsimp only
        rw [NormedVector.entriesFrom, v.distribution_iff fun _ => Eq.symm ∘ Option.some.inj]
        exact ⟨fun hpos => ⟨fun w hw => absurd (hown.symm.trans hw) nofun,
            fun _ hyes => absurd hyes hlooks,
            fun _ _ w hw => Option.some.inj (hitem.symm.trans hw) ▸ hpos⟩,
          fun hsound => hsound.item hown hlooks v hitem⟩

end RowRun

/-- **The topic vector of every row is a distribution exactly when** each row is sound: no share of
its vector has rounded to zero, and where the vector is looked up by the sense id, the only one held
for it is that of the item. -/
theorem emitted_distribution_iff (run : RowRun) :
    (∀ row ∈ run.rows, Distribution row.key (run.subVec row)) ↔ ∀ row ∈ run.rows, run.Sound row :=
  forall₂_congr fun _ h => RowRun.distribution_subVec_iff h

/-! ## The labels and the vectors of a run -/

theorem TopicLabel.Validated.normed {lib : TopicLib} {label : TopicLabel} (h : label.Validated lib) :
    ∃ v : NormedVector, v.entries = label.vector := by
  obtain ⟨x, n, hn, rfl⟩ := h
  obtain ⟨-, weights, hweights, hvector, -⟩ := lib.normSense_facts hn
  obtain ⟨hone, hthree, hlive⟩ := lib.weighAll_facts hweights
  refine ⟨⟨_, weights.map fun w => (w.topicLabel, w.weight), ?_, ?_, fun e he => ?_, ?_⟩, rfl⟩
  · rwa [List.length_map]
  · rwa [List.length_map]
  · obtain ⟨w, hw, rfl⟩ := List.mem_map.mp he
    exact ⟨TopicLib.topicLabels_ne_nil _ (hlive w hw).1, (hlive w hw).2⟩
  · have htotal : weightSum (weights.map fun w => (w.topicLabel, w.weight)) =
        (weights.map (·.weight)).sum := by
      rw [weightSum, List.map_map]
      rfl
    change ((labelOf n).vector).Perm _
    rw [lib.vector_labelOf hweights hvector, htotal, List.map_map]
    refine ((sortBy_perm _ _).map _).trans (List.Perm.of_eq ?_)
    rw [List.map_map]
    exact List.map_congr_left fun w _ => by
      simp only [Function.comp_apply, round4_round4]

/-! ## Two items of one sense -/

/-- The vector of one of two items that are picked in one sense. -/
def sharedHit (label : String) (h : label ≠ "") : VectorHit := ⟨.single label h, []⟩

/-- A word and a phrase that are picked in one sense and get no label. -/
def sharedSense : RowRun where
  py := .ascii
  lib := .plain
  items := [⟨"word", "bank"⟩, ⟨"phrase", "bank"⟩]
  senseId _ := "bank#0"
  picks _ := .single ⟨"bank#0", "the side of a river"⟩
  vectors := [("w:bank", sharedHit "Nature & Environment" (by decide)),
    ("p:bank", sharedHit "Business & Economy" (by decide))]
  labelled _ := true
  answers _ := .unlabelled

/-- The row of the word is given the vectors of both, with the weight of two. -/
theorem shared_sense_mixes_items :
    ¬∀ row ∈ sharedSense.rows, Distribution row.key (sharedSense.subVec row) := by
  intro hall
  have hrow := hall ⟨⟨"word", "bank"⟩, ⟨"bank#0", "the side of a river"⟩, 0⟩ List.mem_cons_self
  have hsum : ((sharedSense.subVec ⟨⟨"word", "bank"⟩, ⟨"bank#0", "the side of a river"⟩, 0⟩).map
      (·.weight)).sum = 2 := by decide +kernel
  have hone := hrow.sum
  rw [hsum] at hone
  norm_num [abs_le] at hone

end HamZaboon
