import HamZaboon.Linking.Linker

/-! # The overlap signal of the linker

`gloss_overlap_signal` of `factory/linking/linker.py`: the share of the words two
glosses have in common, without stopwords and generic verbs.  The docstring promises
that under three words on either side keep the signal from firing; but the share is
compared before the words are counted, so a short pair fires all the same when enough
of it is common (`weak_evidence_ignored_iff`).
-/

namespace HamZaboon

/-- The numbers of the signal, as doubles: the quotient of two counts, `0.0` and `-1.0`,
and whether a share is at least the threshold. -/
structure OverlapNumbers (F : Type) where
  quotient : Nat → Nat → F
  zero : F
  minusOne : F
  atLeast : F → Bool

/-- Exact quotients, against the threshold 0.2. -/
def OverlapNumbers.exact : OverlapNumbers ℚ where
  quotient a b := a / b
  zero := 0
  minusOne := -1
  atLeast q := 1 / 5 ≤ q

def deweightToks (tokens : Finset String) : Finset String := tokens.filter (· ∉ genericVerbs)

/-- The tokens of a side that count. -/
def evidenceToks (stopwords tokens : Finset String) : Finset String :=
  deweightToks (tokens.filter (· ∉ stopwords))

theorem mem_evidenceToks {stopwords tokens : Finset String} {tok : String} :
    tok ∈ evidenceToks stopwords tokens ↔ tok ∈ tokens ∧ tok ∉ stopwords ∧ tok ∉ genericVerbs := by
  simp [evidenceToks, deweightToks, and_assoc]

theorem evidenceToks_union {stopwords tokens extra : Finset String}
    (h : extra ⊆ stopwords ∪ genericVerbs) :
    evidenceToks stopwords (tokens ∪ extra) = evidenceToks stopwords tokens := by
  ext tok
  simp only [mem_evidenceToks, Finset.mem_union]
  refine ⟨fun ⟨hmem, hstop, hverb⟩ => ⟨hmem.resolve_right fun hextra => ?_, hstop, hverb⟩,
    fun ⟨hmem, hrest⟩ => ⟨.inl hmem, hrest⟩⟩
  exact (Finset.mem_union.mp (h hextra)).elim hstop hverb

section Signal
variable {F : Type} (num : OverlapNumbers F)

/-- `len(gloss_dw & cand_dw) / len(union) if union else 0.0`. -/
def OverlapNumbers.share (glossDw candDw : Finset String) : F :=
  if glossDw ∪ candDw = ∅ then num.zero
  else num.quotient (glossDw ∩ candDw).card (glossDw ∪ candDw).card

def glossOverlapSignal (glossToks candToks stopwords : Finset String) : F × Bool :=
  let glossDw := evidenceToks stopwords glossToks
  let candDw := evidenceToks stopwords candToks
  let jacc := num.share glossDw candDw
  if glossDw ≠ ∅ ∧ candDw ≠ ∅ ∧ num.atLeast jacc = true then (jacc, true)
  else if glossDw.card < 3 ∨ candDw.card < 3 then (num.minusOne, false)
  else (jacc, false)

variable {num} {glossToks candToks stopwords : Finset String}

theorem OverlapNumbers.share_comm (num : OverlapNumbers F) (a b : Finset String) :
    num.share a b = num.share b a := by
  rw [share, share, Finset.union_comm, Finset.inter_comm]

theorem glossOverlapSignal_comm (num : OverlapNumbers F) (glossToks candToks stopwords : Finset String) :
    glossOverlapSignal num glossToks candToks stopwords =
      glossOverlapSignal num candToks glossToks stopwords := by
  have hfires : ∀ a b : Finset String, ∀ c : Prop, (a ≠ ∅ ∧ b ≠ ∅ ∧ c) ↔ (b ≠ ∅ ∧ a ≠ ∅ ∧ c) :=
    fun _ _ _ => and_left_comm
  unfold glossOverlapSignal
  simp only [num.share_comm (evidenceToks stopwords glossToks)]
  simp only [hfires (evidenceToks stopwords glossToks), or_comm]

theorem glossOverlapSignal_congr {glossToks' candToks' : Finset String}
    (hgloss : evidenceToks stopwords glossToks = evidenceToks stopwords glossToks')
    (hcand : evidenceToks stopwords candToks = evidenceToks stopwords candToks') :
    glossOverlapSignal num glossToks candToks stopwords =
      glossOverlapSignal num glossToks' candToks' stopwords := by
  unfold glossOverlapSignal
  rw [hgloss, hcand]

/-- Under three tokens count on either side. -/
def FewToks (glossToks candToks stopwords : Finset String) : Prop :=
  (evidenceToks stopwords glossToks).card < 3 ∨ (evidenceToks stopwords candToks).card < 3

/-- Both sides have tokens that count, and the share of the common ones is at least the
threshold. -/
def SharesEnough (num : OverlapNumbers F) (glossToks candToks stopwords : Finset String) : Prop :=
  evidenceToks stopwords glossToks ≠ ∅ ∧ evidenceToks stopwords candToks ≠ ∅ ∧
    num.atLeast (num.share (evidenceToks stopwords glossToks) (evidenceToks stopwords candToks)) =
      true

theorem glossOverlapSignal_of_sharesEnough (h : SharesEnough num glossToks candToks stopwords) :
    (glossOverlapSignal num glossToks candToks stopwords).2 = true :=
  congrArg Prod.snd (if_pos h)

theorem glossOverlapSignal_of_few (h : ¬ SharesEnough num glossToks candToks stopwords)
    (hfew : FewToks glossToks candToks stopwords) :
    glossOverlapSignal num glossToks candToks stopwords = (num.minusOne, false) :=
  (if_neg h).trans (if_pos hfew)

/-- The signal takes no weak evidence: it is the same from both sides and without words
that do not count, and too few words give -1. -/
structure IgnoresWeakEvidence (num : OverlapNumbers F) (glossToks candToks stopwords : Finset String) :
    Prop where
  symmetric : glossOverlapSignal num glossToks candToks stopwords =
    glossOverlapSignal num candToks glossToks stopwords
  unmoved : ∀ extra ⊆ stopwords ∪ genericVerbs,
    glossOverlapSignal num (glossToks ∪ extra) candToks stopwords =
        glossOverlapSignal num glossToks candToks stopwords ∧
      glossOverlapSignal num glossToks (candToks ∪ extra) stopwords =
        glossOverlapSignal num glossToks candToks stopwords
  guarded : FewToks glossToks candToks stopwords →
    glossOverlapSignal num glossToks candToks stopwords = (num.minusOne, false)

/-- **Weak evidence is ignored** exactly when too few words do not share enough. -/
theorem weak_evidence_ignored_iff (num : OverlapNumbers F)
    (glossToks candToks stopwords : Finset String) :
    IgnoresWeakEvidence num glossToks candToks stopwords ↔
      ¬ (FewToks glossToks candToks stopwords ∧ SharesEnough num glossToks candToks stopwords) := by
  constructor
  · rintro h ⟨hfew, hshares⟩
    have hfires := glossOverlapSignal_of_sharesEnough hshares
    rw [h.guarded hfew] at hfires
    cases hfires
  · intro h
    refine ⟨glossOverlapSignal_comm num _ _ _, fun extra hextra => ⟨?_, ?_⟩, fun hfew => ?_⟩
    · exact glossOverlapSignal_congr (evidenceToks_union hextra) rfl
    · exact glossOverlapSignal_congr rfl (evidenceToks_union hextra)
    · exact glossOverlapSignal_of_few (fun hshares => h ⟨hfew, hshares⟩) hfew

end Signal

/-- One common word fires. -/
theorem common_word_fires :
    glossOverlapSignal .exact {"mistake"} {"mistake"} ∅ = (1, true) ∧
      ¬ IgnoresWeakEvidence .exact {"mistake"} {"mistake"} ∅ := by
  have hfires : glossOverlapSignal .exact {"mistake"} {"mistake"} ∅ = (1, true) := by
    decide +kernel
  refine ⟨hfires, fun h => ?_⟩
  have hfew : FewToks {"mistake"} {"mistake"} ∅ := .inl (by decide)
  rw [h.guarded hfew] at hfires
  cases congrArg Prod.snd hfires

end HamZaboon
