import HamZaboon.Precard.Accounting

/-! # Dropped keys in the output

Two of the four filters look at an item before the redirect, under the key it has
in the sample, and the other two after it.  A survivor's key carries no verdict of
the last two.  The first two may have dropped the key of the base form itself, and
no filter looks at it again for an item that comes there by a redirect
(`noDroppedRow_iff`).
-/

namespace HamZaboon

inductive DroppedKey (states : Progress) (key : String) : Prop
  | preprocess (h : (states .preprocess).marked notKept key = true)
  | inflection (h : (states .inflectionReview).marked notKept key = true)
  | anchor (h : (states .anchorRank).marked anchorDropped key = true)
  | proper (h : (states .senseJudge).marked properDropped key = true)

/-- No row of `precard.jsonl` has a key with a drop verdict in the progress. -/
def NoDroppedRow (f : PipelineFiles) : Prop :=
  ∃ rows, f.out = some rows ∧ ∀ row ∈ rows, ¬ DroppedKey (progressOf f.dir) row.key

/-- An item without a drop verdict is redirected to a key that `preprocess` or the
inflection review drops. -/
structure RedirectedToDropped (s : PipelineSession) (states : Progress) (item : PipelineItem) :
    Prop where
  kept : ¬ DropVerdict s states item
  redirected : keyAfter s states item ≠ item.key
  dropped : (states .preprocess).marked notKept (keyAfter s states item) = true ∨
    (states .inflectionReview).marked notKept (keyAfter s states item) = true

section Survivors
variable {s : PipelineSession} {states : Progress} {item survivor : PipelineItem}

theorem exists_of_mem_survivingItems (h : survivor ∈ survivingItems s states) :
    ∃ item ∈ s.processed, redirect s (states .inflectionReview) item = survivor ∧
      ¬ DropVerdict s states item := by
  obtain ⟨hranked, hproper⟩ := mem_dropMarked.mp h
  obtain ⟨hredirected, hanchor⟩ := mem_dropMarked.mp hranked
  obtain ⟨item, hreview, rfl⟩ := List.mem_map.mp hredirected
  obtain ⟨hkept, hreviewed⟩ := mem_dropMarked.mp hreview
  obtain ⟨hitem, hpreprocess⟩ := mem_dropMarked.mp hkept
  refine ⟨item, hitem, rfl, fun hdrop => ?_⟩
  cases hdrop with
  | preprocess h => exact Bool.false_ne_true (hpreprocess.symm.trans h)
  | inflection h => exact Bool.false_ne_true (hreviewed.symm.trans h)
  | anchor h => exact Bool.false_ne_true (hanchor.symm.trans h)
  | proper h => exact Bool.false_ne_true (hproper.symm.trans h)

theorem redirectedToDropped_of_dropped (hkept : ¬ DropVerdict s states item)
    (h : DroppedKey states (keyAfter s states item)) : RedirectedToDropped s states item := by
  have hown : ∀ stage : Stage, stage = .preprocess ∨ stage = .inflectionReview →
      (states stage).marked notKept (keyAfter s states item) = true →
      keyAfter s states item ≠ item.key := by
    intro stage hstage hmarked hsame
    rw [hsame] at hmarked
    rcases hstage with rfl | rfl
    · exact hkept (.preprocess hmarked)
    · exact hkept (.inflection hmarked)
  cases h with
  | preprocess h => exact ⟨hkept, hown .preprocess (.inl rfl) h, .inl h⟩
  | inflection h => exact ⟨hkept, hown .inflectionReview (.inr rfl) h, .inr h⟩
  | anchor h => exact absurd (.anchor h) hkept
  | proper h => exact absurd (.proper h) hkept

end Survivors

/-- **Exactly where no kept item is redirected to a dropped key, no dropped key
reaches the output.** -/
theorem noDroppedRow_iff (s : PipelineSession) (f : PipelineFiles) (hdry : s.dryRun = false)
    (hreturns : (s.run f).2 = true) :
    NoDroppedRow (s.run f).1 ↔
      ∀ item ∈ s.processed, ¬ RedirectedToDropped s (progressOf (s.run f).1.dir) item := by
  have hout := run_returned hdry hreturns
  generalize (s.run f).1 = left at hout ⊢
  generalize hstates : progressOf left.dir = states at hout ⊢
  constructor
  · rintro ⟨rows, hrows, hnone⟩ item hitem ⟨hkept, -, hdropped⟩
    obtain rfl := Option.some.inj (hout.symm.trans hrows)
    obtain ⟨row, hrow, hkey⟩ := exists_row_of_mem (redirect_mem_survivingItems hitem hkept)
    have hrowKey : row.key = keyAfter s states item := hkey
    refine hnone row hrow ?_
    rw [hstates, hrowKey]
    rcases hdropped with h | h
    · exact .preprocess h
    · exact .inflection h
  · intro hnone
    refine ⟨_, hout, fun row hrow hdropped => ?_⟩
    rw [hstates] at hdropped
    obtain ⟨first, hfirst, -⟩ := first_of_row hrow
    have hkey : first.key = row.key := by simpa using List.find?_some hfirst
    obtain ⟨item, hitem, rfl, hkept⟩ :=
      exists_of_mem_survivingItems (List.mem_of_find?_eq_some hfirst)
    have hsame : keyAfter s states item = row.key := hkey
    rw [← hsame] at hdropped
    exact hnone item hitem (redirectedToDropped_of_dropped hkept hdropped)

/-- A session over a word and its superlative, which the review redirects; the
filter keeps the word or not. -/
def bigAndBiggest (keepBig : Bool) : PipelineSession :=
  { catAndDog 0 silentJudge with
    sample := [⟨⟨"word", "big"⟩, [], .null, .null, ""⟩, ⟨⟨"word", "biggest"⟩, [], .null, .null, ""⟩]
    legs :=
      { plainLegs silentJudge with
        classify := fun item => .ok (.obj [("kept", .bool (keepBig || item.text ≠ "big"))])
        needsReview := fun item => if item.text = "biggest" then some "superlative of big" else none
        review := some fun _ _ => { reply := .ok fun _ => some ⟨false, false, "inflected"⟩ }
        superlativeBase := fun _ => "big" } }

theorem noDroppedRow_of_kept_base : NoDroppedRow ((bigAndBiggest true).run noFiles).1 := by
  refine (noDroppedRow_iff (bigAndBiggest true) noFiles rfl (by decide +kernel)).mpr ?_
  intro item hitem ⟨_, _, hdropped⟩
  have hitems : item = ⟨⟨"word", "big"⟩, [], .null, .null, ""⟩ ∨
      item = ⟨⟨"word", "biggest"⟩, [], .null, .null, ""⟩ := by
    simpa [PipelineSession.processed, bigAndBiggest, catAndDog] using hitem
  revert hdropped
  rcases hitems with rfl | rfl <;> decide +kernel

/-- The word is dropped, and its superlative makes the row of its key. -/
theorem dropped_base_emitted : ((bigAndBiggest false).run noFiles).2 = true ∧
    ((bigAndBiggest false).run noFiles).1.out.map (·.map (·.key)) = some ["w:big"] ∧
      ¬ NoDroppedRow ((bigAndBiggest false).run noFiles).1 := by
  have hkeys : ((bigAndBiggest false).run noFiles).1.out.map (·.map (·.key)) = some ["w:big"] := by
    decide +kernel
  refine ⟨by decide +kernel, hkeys, ?_⟩
  rintro ⟨rows, hrows, hnone⟩
  rw [hrows] at hkeys
  have hsame : rows.map (·.key) = ["w:big"] := Option.some.inj hkeys
  have hbig : "w:big" ∈ rows.map (·.key) := hsame ▸ List.mem_cons_self
  obtain ⟨row, hrow, hkey⟩ := List.mem_map.mp hbig
  refine hnone row hrow ?_
  rw [hkey]
  exact .preprocess (by decide +kernel)

end HamZaboon
