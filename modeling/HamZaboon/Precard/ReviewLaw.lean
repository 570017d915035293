import HamZaboon.Library.Latest
import HamZaboon.Precard.InflectionReview
import HamZaboon.Texts.Decoded

/-! # What a review promises

A review never drops on uncertainty (`review_never_drops`): it stops with one of four
errors, or it has an entry for each of its keys, and only a reply that covers a batch with
truth values drops a key of it.

One attempt extends the log by its own entry and touches no key outside its batch
(`InBatch`).  The entries that drop are justified by the log throughout (`Justified`); a batch
that is settled has all of its keys, and one that may still end in `RateLimited` has met
nothing but quota failures (`Batched`).  A settled batch would go on to the next provider, which
could take its entries away again; a walk with one provider has no next.
-/

namespace HamZaboon
open Library

/-! ## Replies that cover a batch -/

def lastRow (rows : List JsonTree) (key : List Nat) : Option Entries :=
  (rows.filterMap keyedRow).reverse.lookup key

/-- The reply has rows for exactly these keys, each with a truth value under `keep`. -/
structure CoversWith (limits : ScanLimits) (want : List String) (raw : String)
    (rows : List JsonTree) : Prop where
  parsed : ∃ data, extractJson limits raw.toList = .ok data ∧ getEntry data "results" = .arr rows
  exact : ∀ key, (lastRow rows key).isSome = true ↔ ∃ k ∈ want, points k = key
  judged : ∀ k ∈ want, ∃ row keep, lastRow rows (points k) = some row ∧
    getEntry row "keep" = .bool keep

/-- The attempt met a reply that covers its batch and says false for this key. -/
def ReviewAttempt.SaidFalse (limits : ScanLimits) (a : ReviewAttempt) (key : String) : Prop :=
  key ∈ wantOf a.batch ∧ ∃ raw pair rows, .reply raw pair ∈ a.answers ∧
    CoversWith limits (wantOf a.batch) raw rows ∧
    ∃ row, lastRow rows (points key) = some row ∧ getEntry row "keep" = .bool false

/-- The attempt ended in quota exhaustion: it met quota failures, and nothing else. -/
def ReviewAttempt.Exhausted (lib : StrLib) (a : ReviewAttempt) : Prop :=
  a.result.kind = .rateLimited ∧ a.answers ≠ [] ∧ ∀ answer ∈ a.answers, a.step.refuses lib answer = true

section Rows
variable {limits : ScanLimits} {model raw : String} {want : List String} {key : String}
  {byKey : List (List Nat × Entries)} {out : ReviewOut}

theorem lookup_indexReview (rows : List JsonTree) (key : List Nat) :
    (indexReview rows).lookup key = lastRow rows key := by
  unfold indexReview lastRow
  induction rows.filterMap keyedRow using List.reverseRecOn with
  | nil => rfl
  | append_singleton found row ih =>
    rw [List.foldl_concat, List.reverse_concat, List.lookup_cons, ← ih]
    generalize found.foldl (fun byKey row => setEntry byKey row.1 row.2) [] = byKey
    have hset : (setEntry byKey row.1 row.2).lookup key =
        if key = row.1 then some row.2 else byKey.lookup key := by
      convert lookup_setEntry byKey row.1 row.2 key
    rw [hset]
    by_cases hkey : key = row.1
    · simp [hkey]
    · rw [if_neg hkey, beq_eq_false_iff_ne.mpr hkey]

theorem validateReviewResults_eq_some {data : Entries}
    (h : validateReviewResults data want = some byKey) : ∃ rows,
      getEntry data "results" = .arr rows ∧ (∀ key, byKey.lookup key = lastRow rows key) ∧
      ∀ key, (lastRow rows key).isSome = true ↔ ∃ k ∈ want, points k = key := by
  unfold validateReviewResults at h
  split at h
  · rename_i rows hrows
    simp only at h
    split at h
    · rename_i hkeys
      obtain rfl := Option.some.inj h
      simp only [Bool.and_eq_true, List.all_eq_true, List.any_eq_true, decide_eq_true_eq] at hkeys
      refine ⟨rows, hrows, lookup_indexReview rows, fun key => ?_⟩
      rw [← lookup_indexReview]
      constructor
      · intro hsome
        obtain ⟨row, hrow, hrowkey⟩ := List.lookup_isSome_iff.mp hsome
        rw [eq_of_beq hrowkey]
        exact hkeys.1 row hrow
      · rintro ⟨k, hk, rfl⟩
        exact hkeys.2 k hk
    · cases h
  · cases h

theorem takeRows_others (h : key ∉ want) : (takeRows model byKey want out).1 key = out key := by
  induction want generalizing out with
  | nil => rfl
  | cons k want ih =>
    obtain ⟨hne, hrest⟩ := not_or.mp (List.mem_cons.not.mp h)
    rw [takeRows]
    split
    · rw [ih hrest, Function.update_of_ne hne]
    · rfl

theorem takeRows_taken (h : (takeRows model byKey want out).2 = true) (hkey : key ∈ want) :
    ∃ keep reason, getEntry ((byKey.lookup (points key)).getD []) "keep" = .bool keep ∧
      (takeRows model byKey want out).1 key = some ⟨keep, reason, model, false⟩ := by
  induction want generalizing out with
  | nil => cases hkey
  | cons k want ih =>
    rw [takeRows] at h ⊢
    split at h
    · rename_i keep hkeep
      by_cases hlater : key ∈ want
      · exact ih h hlater
      · obtain rfl : key = k := by simpa [hlater] using hkey
        exact ⟨keep, _, hkeep, by rw [takeRows_others hlater, Function.update_self]⟩
    · cases h

end Rows

/-! ## One attempt -/

section Attempt
variable {call : ReviewCall} {script : Nat → Answer} {batchNo : Nat} {batch : List ReviewItem}
  {step : LegStep} {model : String} {retry : Bool}

/-- The log is extended by entries of the batch, and no key outside it is touched. -/
structure InBatch (batchNo : Nat) (batch : List ReviewItem) (s s' : ReviewState) : Prop where
  log : ∃ new, s'.log = s.log ++ new ∧ ∀ a ∈ new, a.batchNo = batchNo ∧ a.batch = batch
  others : ∀ key, key ∉ wantOf batch → s'.out key = s.out key

namespace InBatch
variable {s s' s'' : ReviewState}

theorem refl (s : ReviewState) : InBatch batchNo batch s s :=
  ⟨⟨[], (List.append_nil _).symm, nofun⟩, fun _ _ => rfl⟩

theorem trans (h : InBatch batchNo batch s s') (h' : InBatch batchNo batch s' s'') :
    InBatch batchNo batch s s'' := by
  obtain ⟨new, hlog, hnew⟩ := h.log
  obtain ⟨new', hlog', hnew'⟩ := h'.log
  refine ⟨⟨new ++ new', by rw [hlog', hlog, List.append_assoc], fun a ha => ?_⟩,
    fun key hkey => (h'.others key hkey).trans (h.others key hkey)⟩
  exact (List.mem_append.mp ha).elim (hnew a) (hnew' a)

theorem mem (h : InBatch batchNo batch s s') {a : ReviewAttempt} (ha : a ∈ s.log) : a ∈ s'.log := by
  obtain ⟨new, hlog, -⟩ := h.log
  rw [hlog]
  exact List.mem_append_left new ha

end InBatch

/-- Every entry that drops its key has a reply that said so. -/
def Justified (limits : ScanLimits) (s : ReviewState) : Prop :=
  ∀ key v, s.out key = some v → v.keep = false → ∃ a ∈ s.log, a.SaidFalse limits key

/-- An attempt on the batch is in the log. -/
def Asked (batchNo : Nat) (s : ReviewState) : Prop := ∃ a ∈ s.log, a.batchNo = batchNo

structure Batched (lib : StrLib) (batchNo : Nat) (batch : List ReviewItem) (s : ReviewState) :
    Prop where
  settled : s.settled = true → ∀ key ∈ wantOf batch, (s.out key).isSome = true
  limited : s.settled = false → s.limitedAll = true →
    ∀ a ∈ s.log, a.batchNo = batchNo → a.Exhausted lib

/-- What one attempt does: its entry of the log, the entries of its batch, and the flags. -/
inductive AttemptStep (call : ReviewCall) (batchNo : Nat) (batch : List ReviewItem)
    (s : ReviewState) : ReviewState × AttemptEnd → Prop
  | settled (s' : ReviewState) (a : ReviewAttempt) :
      s'.log = s.log ++ [a] → a.batchNo = batchNo ∧ a.batch = batch → s'.nTried = s.nTried →
      s'.settled = true → (∀ key, key ∉ wantOf batch → s'.out key = s.out key) →
      (∀ key ∈ wantOf batch, ∃ v, s'.out key = some v ∧
        (v.keep = false → a.SaidFalse call.limits key)) →
      AttemptStep call batchNo batch s (s', .settled)
  | retry (s' : ReviewState) (a : ReviewAttempt) :
      s'.log = s.log ++ [a] → a.batchNo = batchNo ∧ a.batch = batch → s'.nTried = s.nTried →
      s'.settled = s.settled → s'.limitedAll = false →
      (∀ key, s'.out key = s.out key ∨ key ∈ wantOf batch ∧ s'.out key = none) →
      AttemptStep call batchNo batch s (s', .retry)
  | limited (s' : ReviewState) (a : ReviewAttempt) :
      s'.log = s.log ++ [a] → a.batchNo = batchNo ∧ a.batch = batch → s'.nTried = s.nTried →
      s'.settled = s.settled → s'.limitedAll = s.limitedAll → s'.out = s.out →
      a.Exhausted call.lib → AttemptStep call batchNo batch s (s', .limited)
  | left (s' : ReviewState) (a : ReviewAttempt) (ended : AttemptEnd) :
      s'.log = s.log ++ [a] → a.batchNo = batchNo ∧ a.batch = batch → s'.nTried = s.nTried →
      s'.settled = s.settled → s'.limitedAll = s.limitedAll → s'.out = s.out →
      ended ∈ [.cooled .providerCooldown, .cooled .locationBlocked, .auth] →
      AttemptStep call batchNo batch s (s', ended)

theorem attemptStep_reply {s : ReviewState} {a : ReviewAttempt} {ring : KeyRing} {raw : String}
    {pair : Bool} (ha : a.batchNo = batchNo ∧ a.batch = batch) (hraw : .reply raw pair ∈ a.answers) :
    AttemptStep call batchNo batch s ((s.called a ring).reply call.limits model (wantOf batch) raw) := by
  unfold ReviewState.reply
  cases hbyKey : (extractJson call.limits raw.toList).toOption.bind
      (validateReviewResults · (wantOf batch)) with
  | none => exact .retry _ a rfl ha rfl rfl rfl fun _ => .inl rfl
  | some byKey =>
    obtain ⟨data, hdata, hvalid⟩ := Option.bind_eq_some_iff.mp hbyKey
    have hparsed : extractJson call.limits raw.toList = .ok data := by
      cases hjson : extractJson call.limits raw.toList with
      | error e => rw [hjson] at hdata; cases hdata
      | ok entries => rw [hjson] at hdata; rw [Option.some.inj hdata]
    obtain ⟨rows, hrows, hlookup, hexact⟩ := validateReviewResults_eq_some hvalid
    simp only
    split
    · rename_i hok
      have hrow : ∀ key ∈ wantOf batch, ∃ row, lastRow rows (points key) = some row :=
        fun key hkey => Option.isSome_iff_exists.mp ((hexact _).mpr ⟨key, hkey, rfl⟩)
      have hcovers : CoversWith call.limits (wantOf batch) raw rows := by
        refine ⟨⟨data, hparsed, hrows⟩, hexact, fun key hkey => ?_⟩
        obtain ⟨row, hlast⟩ := hrow key hkey
        obtain ⟨keep, _, hkeep, _⟩ := takeRows_taken hok hkey
        rw [hlookup, hlast] at hkeep
        exact ⟨row, keep, hlast, hkeep⟩
      refine .settled _ a rfl ha rfl rfl (fun key hkey => takeRows_others hkey) fun key hkey => ?_
      obtain ⟨row, hlast⟩ := hrow key hkey
      obtain ⟨keep, reason, hkeep, hout⟩ := takeRows_taken hok hkey
      rw [hlookup, hlast] at hkeep
      refine ⟨_, hout, fun hfalse => ⟨ha.2 ▸ hkey, raw, pair, rows, hraw, ha.2 ▸ hcovers,
        row, hlast, ?_⟩⟩
      exact hkeep.trans (congrArg _ hfalse)
    · refine .retry _ a rfl ha rfl rfl rfl fun key => ?_
      by_cases hkey : key ∈ wantOf batch
      · exact .inr ⟨hkey, if_pos hkey⟩
      · exact .inl ((if_neg hkey).trans (takeRows_others hkey))

variable (call script batchNo batch step model)

/-- **One attempt.** -/
theorem attemptStep (retry : Bool) (s : ReviewState) :
    AttemptStep call batchNo batch s (call.attempt script batchNo batch step model retry s) := by
  unfold ReviewCall.attempt
  simp only
  obtain ⟨o, ho⟩ : ∃ o, step.callLeg call.lib (s.rings step.provider)
      (fun k => script (s.calls + k)) = o := ⟨_, rfl⟩
  have hreply : ∀ text, o.result = .text text → ∃ pair, .reply text pair ∈ o.tried.map (·.2) :=
    fun _ => ho ▸ step.reply_of_callLeg
  have hrefused : o.result.kind = .rateLimited → o.tried ≠ [] ∧
      ∀ a ∈ o.tried.map (·.2), step.refuses call.lib a = true := ho ▸ step.refused_of_callLeg
  rw [ho]
  have hlimited : o.result.kind = .rateLimited → AttemptStep call batchNo batch s
      (s.called ⟨batchNo, batch, step, model, retry, o.tried.map (·.2), o.result⟩ o.ring, .limited) := by
    intro hkind
    refine .limited _ _ rfl ⟨rfl, rfl⟩ rfl rfl rfl rfl ⟨hkind, ?_, (hrefused hkind).2⟩
    simpa using (hrefused hkind).1
  cases hresult : o.result with
  | text raw =>
    obtain ⟨pair, hraw⟩ := hreply raw hresult
    exact attemptStep_reply ⟨rfl, rfl⟩ hraw
  | exhausted =>
    rw [hresult] at hlimited
    exact hlimited rfl
  | rateLimited =>
    rw [hresult] at hlimited
    exact hlimited rfl
  | providerCooldown => exact .left _ _ _ rfl ⟨rfl, rfl⟩ rfl rfl rfl rfl (by simp)
  | locationBlocked => exact .left _ _ _ rfl ⟨rfl, rfl⟩ rfl rfl rfl rfl (by simp)
  | authError => exact .left _ _ _ rfl ⟨rfl, rfl⟩ rfl rfl rfl rfl (by simp)
  | failed => exact .retry _ _ rfl ⟨rfl, rfl⟩ rfl rfl rfl fun _ => .inl rfl

variable {call script batchNo batch step model}

namespace AttemptStep
variable {s : ReviewState} {r : ReviewState × AttemptEnd}

theorem within (h : AttemptStep call batchNo batch s r) : InBatch batchNo batch s r.1 := by
  have hnew : ∀ a : ReviewAttempt, a.batchNo = batchNo ∧ a.batch = batch →
      ∀ a' ∈ [a], a'.batchNo = batchNo ∧ a'.batch = batch := fun a ha a' ha' => by
    rw [List.mem_singleton.mp ha']
    exact ha
  cases h with
  | settled s' a hlog ha _ _ hothers _ => exact ⟨⟨[a], hlog, hnew a ha⟩, hothers⟩
  | retry s' a hlog ha _ _ _ hout =>
    exact ⟨⟨[a], hlog, hnew a ha⟩, fun key hkey => (hout key).resolve_right fun h => hkey h.1⟩
  | limited s' a hlog ha _ _ _ hout => exact ⟨⟨[a], hlog, hnew a ha⟩, fun key _ => by rw [hout]⟩
  | left s' a ended hlog ha _ _ _ hout => exact ⟨⟨[a], hlog, hnew a ha⟩, fun key _ => by rw [hout]⟩

theorem nTried (h : AttemptStep call batchNo batch s r) : r.1.nTried = s.nTried := by
  cases h with
  | settled _ _ _ _ htried => exact htried
  | retry _ _ _ _ htried => exact htried
  | limited _ _ _ _ htried => exact htried
  | left _ _ _ _ _ htried => exact htried

theorem asked (h : AttemptStep call batchNo batch s r) : Asked batchNo r.1 := by
  have hlast : ∀ {s' : ReviewState} {a : ReviewAttempt}, s'.log = s.log ++ [a] →
      a.batchNo = batchNo ∧ a.batch = batch → Asked batchNo s' := fun {s' a} hlog ha =>
    ⟨a, hlog ▸ List.mem_append_right _ List.mem_cons_self, ha.1⟩
  cases h with
  | settled _ _ hlog ha => exact hlast hlog ha
  | retry _ _ hlog ha => exact hlast hlog ha
  | limited _ _ hlog ha => exact hlast hlog ha
  | left _ _ _ hlog ha => exact hlast hlog ha

theorem justified (h : AttemptStep call batchNo batch s r) (hs : Justified call.limits s) :
    Justified call.limits r.1 := by
  -- an entry that was there before has its reply still in the log
  have hkept : ∀ key v, s.out key = some v → v.keep = false →
      ∃ a ∈ r.1.log, a.SaidFalse call.limits key := fun key v hv hkeep => by
    obtain ⟨a, ha, hsaid⟩ := hs key v hv hkeep
    exact ⟨a, h.within.mem ha, hsaid⟩
  intro key v hv hkeep
  cases h with
  | settled s' a hlog _ _ _ hothers htaken =>
    -- a key of the batch has what this reply says, any other what it had
    by_cases hkey : key ∈ wantOf batch
    · obtain ⟨v', hv', hsaid⟩ := htaken key hkey
      obtain rfl : v = v' := Option.some.inj (hv.symm.trans hv')
      exact ⟨a, hlog ▸ List.mem_append_right _ List.mem_cons_self, hsaid hkeep⟩
    · exact hkept key v ((hothers key hkey).symm.trans hv) hkeep
  | retry s' a _ _ _ _ _ hout =>
    rcases hout key with hsame | ⟨-, hnone⟩
    · exact hkept key v (hsame.symm.trans hv) hkeep
    · cases hnone.symm.trans hv
  | limited s' a _ _ _ _ _ hout => exact hkept key v (hout ▸ hv) hkeep
  | left s' a _ _ _ _ _ _ hout => exact hkept key v (hout ▸ hv) hkeep

theorem batched_settled {s' : ReviewState} (h : AttemptStep call batchNo batch s (s', .settled)) :
    s'.settled = true ∧ Batched call.lib batchNo batch s' := by
  cases h with
  | settled _ a _ _ _ hsettled _ htaken =>
    refine ⟨hsettled, fun _ key hkey => ?_, fun hunsettled => ?_⟩
    · obtain ⟨v, hv, -⟩ := htaken key hkey
      rw [hv]
      rfl
    · rw [hsettled] at hunsettled
      cases hunsettled
  | left _ _ _ _ _ _ _ _ _ hended => simp at hended

theorem batched_retry {s' : ReviewState} (h : AttemptStep call batchNo batch s (s', .retry))
    (hunsettled : s.settled = false) :
    s'.settled = false ∧ Batched call.lib batchNo batch s' := by
  cases h with
  | retry _ a _ _ _ hsettled hflag _ =>
    have hstill : s'.settled = false := hsettled.trans hunsettled
    refine ⟨hstill, fun hyes => ?_, fun _ hall => ?_⟩
    · rw [hstill] at hyes
      cases hyes
    · rw [hflag] at hall
      cases hall
  | left _ _ _ _ _ _ _ _ _ hended => simp at hended

theorem batched_limited {s' : ReviewState} (h : AttemptStep call batchNo batch s (s', .limited))
    (hunsettled : s.settled = false) (hs : Batched call.lib batchNo batch s) :
    s'.settled = false ∧ Batched call.lib batchNo batch s' := by
  cases h with
  | limited _ a hlog _ _ hsettled hflag _ hexhausted =>
    have hstill : s'.settled = false := hsettled.trans hunsettled
    refine ⟨hstill, fun hyes => ?_, fun _ hall a' ha' hno => ?_⟩
    · rw [hstill] at hyes
      cases hyes
    · rw [hlog] at ha'
      rcases List.mem_append.mp ha' with ha' | ha'
      · exact hs.limited hunsettled (hflag.symm.trans hall) a' ha' hno
      · rw [List.mem_singleton.mp ha']
        exact hexhausted
  | left _ _ _ _ _ _ _ _ _ hended => simp at hended

theorem cooled_ne {s' : ReviewState} {e : TerminalKind}
    (h : AttemptStep call batchNo batch s (s', .cooled e)) : e ≠ .rateLimited := by
  cases h with
  | left _ _ _ _ _ _ _ _ _ hended =>
    rintro rfl
    simp at hended

end AttemptStep

/-! ## The loops -/

/-- What the loops inside a batch do, from a batch that is not settled. -/
structure LoopFacts (call : ReviewCall) (batchNo : Nat) (batch : List ReviewItem) (s : ReviewState)
    (r : ReviewState × LoopEnd) : Prop where
  within : InBatch batchNo batch s r.1
  justified : Justified call.limits s → Justified call.limits r.1
  on : r.2 = .on → Batched call.lib batchNo batch r.1
  error : ∀ e, r.2 = .cooled e ∨ r.2 = .raised e → e ≠ .rateLimited

variable (call script batchNo batch step)

/-- **The attempts on a model.** -/
theorem attempts_spec (model : String) (ns : List Nat) (s : ReviewState) (hunsettled : s.settled = false)
    (hs : Batched call.lib batchNo batch s) :
    LoopFacts call batchNo batch s (call.attempts script batchNo batch step model ns s) ∧
      (ns ≠ [] → Asked batchNo (call.attempts script batchNo batch step model ns s).1) := by
  induction ns generalizing s with
  | nil => exact ⟨⟨InBatch.refl s, id, fun _ => hs, by simp [ReviewCall.attempts]⟩, absurd rfl⟩
  | cons n rest ih =>
    have hstep := attemptStep call script batchNo batch step model (n ≠ 0) s
    unfold ReviewCall.attempts
    generalize call.attempt script batchNo batch step model (n ≠ 0) s = r at hstep
    obtain ⟨s', ended⟩ := r
    have hasked := hstep.asked
    cases ended with
    | settled =>
      exact ⟨⟨hstep.within, hstep.justified, fun _ => hstep.batched_settled.2, by simp⟩, fun _ => hasked⟩
    | limited =>
      exact ⟨⟨hstep.within, hstep.justified, fun _ => (hstep.batched_limited hunsettled hs).2, by simp⟩,
        fun _ => hasked⟩
    | cooled e =>
      refine ⟨⟨hstep.within, hstep.justified, nofun, fun e' he => ?_⟩, fun _ => hasked⟩
      obtain rfl : e = e' := by simpa using he
      exact hstep.cooled_ne
    | auth =>
      refine ⟨⟨hstep.within, hstep.justified, nofun, fun e' he => ?_⟩, fun _ => hasked⟩
      obtain rfl : .auth = e' := by simpa using he
      exact nofun
    | retry =>
      -- the flag is cleared, so nothing is asked of the attempts before
      obtain ⟨hstill, hbatched⟩ := hstep.batched_retry hunsettled
      obtain ⟨hfacts, -⟩ := ih s' hstill hbatched
      refine ⟨⟨hstep.within.trans hfacts.within, hfacts.justified ∘ hstep.justified, hfacts.on,
        hfacts.error⟩, fun _ => ?_⟩
      obtain ⟨a, ha, hno⟩ := hasked
      exact ⟨a, hfacts.within.mem ha, hno⟩

/-- **The models of a provider.** -/
theorem modelLoop_spec (models : List String) (s : ReviewState) (hunsettled : s.settled = false)
    (hs : Batched call.lib batchNo batch s) (htried : s.nTried ≠ 0 → Asked batchNo s) :
    LoopFacts call batchNo batch s (call.modelLoop script batchNo batch step models s) ∧
      ((call.modelLoop script batchNo batch step models s).1.nTried ≠ 0 →
        Asked batchNo (call.modelLoop script batchNo batch step models s).1) := by
  induction models generalizing s with
  | nil => exact ⟨⟨InBatch.refl s, id, fun _ => hs, by simp [ReviewCall.modelLoop]⟩, htried⟩
  | cons model models ih =>
    have hcounted : Batched call.lib batchNo batch { s with nTried := s.nTried + 1 } :=
      ⟨hs.settled, hs.limited⟩
    obtain ⟨hfacts, hasked⟩ := attempts_spec call script batchNo batch step model
      (List.range maxAttempts) { s with nTried := s.nTried + 1 } hunsettled hcounted
    have hwithin : InBatch batchNo batch s _ :=
      ⟨hfacts.within.log, hfacts.within.others⟩
    have hjustified : Justified call.limits s → Justified call.limits _ := fun h => hfacts.justified h
    replace hasked := hasked (by decide)
    unfold ReviewCall.modelLoop
    generalize call.attempts script batchNo batch step model (List.range maxAttempts)
      { s with nTried := s.nTried + 1 } = r at hfacts hasked hwithin hjustified
    obtain ⟨s', ended⟩ := r
    cases ended with
    | on =>
      simp only
      split
      · exact ⟨⟨hwithin, hjustified, hfacts.on, hfacts.error⟩, fun _ => hasked⟩
      · rename_i hstill
        obtain ⟨hrest, htried'⟩ := ih s' (eq_false_of_ne_true hstill) (hfacts.on rfl) fun _ => hasked
        exact ⟨⟨hwithin.trans hrest.within, hrest.justified ∘ hjustified, hrest.on, hrest.error⟩, htried'⟩
    | cooled e => exact ⟨⟨hwithin, hjustified, nofun, hfacts.error⟩, fun _ => hasked⟩
    | raised e => exact ⟨⟨hwithin, hjustified, nofun, hfacts.error⟩, fun _ => hasked⟩

variable {call script batchNo batch step}

/-- A batch ends the review with an error of the transport, or with `RateLimited` after quota
failures alone. -/
def StopsWith (lib : StrLib) (log : List ReviewAttempt) (ended : ReviewEnd) : Prop :=
  ∃ e, ended = .raised e ∧ (e = .rateLimited → ∃ no, (∃ a ∈ log, a.batchNo = no) ∧
    ∀ a ∈ log, a.batchNo = no → a.Exhausted lib)

structure BatchFacts (call : ReviewCall) (batchNo : Nat) (batch : List ReviewItem)
    (s : ReviewState) (r : ReviewState × Option ReviewEnd) : Prop where
  within : InBatch batchNo batch s r.1
  justified : Justified call.limits s → Justified call.limits r.1
  covered : r.2 = none → ∀ key ∈ wantOf batch, (r.1.out key).isSome = true
  stops : ∀ ended, r.2 = some ended → StopsWith call.lib r.1.log ended

theorem isSome_fallback {s : ReviewState} (hsettled : s.settled = true →
    ∀ key ∈ wantOf batch, (s.out key).isSome = true) {key : String} (hkey : key ∈ wantOf batch) :
    (ReviewCall.fallback batch s key).isSome = true := by
  unfold ReviewCall.fallback
  split
  · rfl
  · rename_i hno
    cases hflag : s.settled with
    | true => exact hsettled hflag key hkey
    | false =>
      cases hout : s.out key with
      | none => exact absurd ⟨hflag, hkey, hout⟩ hno
      | some v => rfl

theorem justified_fallback {limits : ScanLimits} {s : ReviewState} (h : Justified limits s) :
    Justified limits { s with out := ReviewCall.fallback batch s } := by
  intro key v hv hkeep
  replace hv : ReviewCall.fallback batch s key = some v := hv
  unfold ReviewCall.fallback at hv
  split at hv
  · obtain rfl := Option.some.inj hv
    cases hkeep
  · exact h key v hv hkeep

/-- **A batch.** -/
theorem reviewBatch_spec (script : Nat → Answer) (batchNo : Nat) (batch : List ReviewItem)
    {s : ReviewState} (hwalk : call.walk = [step])
    (hnew : ∀ a ∈ s.log, a.batchNo ≠ batchNo) :
    BatchFacts call batchNo batch s (call.reviewBatch script batchNo batch s) := by
  have hfresh : Batched call.lib batchNo batch
      { s with settled := false, limitedAll := true, nTried := 0 } :=
    ⟨nofun, fun _ _ a ha hno => absurd hno (hnew a ha)⟩
  obtain ⟨hfacts, htried⟩ := modelLoop_spec call script batchNo batch step step.models
    { s with settled := false, limitedAll := true, nTried := 0 } rfl hfresh (absurd rfl)
  have hwithin : InBatch batchNo batch s _ := ⟨hfacts.within.log, hfacts.within.others⟩
  have hjustified : Justified call.limits s → Justified call.limits _ := fun h => hfacts.justified h
  unfold ReviewCall.reviewBatch
  rw [hwalk, ReviewCall.providerLoop]
  generalize call.modelLoop script batchNo batch step step.models
    { s with settled := false, limitedAll := true, nTried := 0 } = r
    at hfacts htried hwithin hjustified
  obtain ⟨s', ended⟩ := r
  have hraised : ∀ e, ended = .cooled e ∨ ended = .raised e →
      BatchFacts call batchNo batch s (s', some (.raised e)) := fun e he => by
    refine ⟨hwithin, hjustified, nofun, fun ended' hended => ⟨e, (Option.some.inj hended).symm, ?_⟩⟩
    exact fun hlimited => absurd hlimited (hfacts.error e he)
  cases ended with
  | cooled e => exact hraised e (.inl rfl)
  | raised e => exact hraised e (.inr rfl)
  | on =>
    -- no step follows, so this is the state at the end of the batch
    obtain ⟨hsettled, hexhausted⟩ := hfacts.on rfl
    simp only [ReviewCall.providerLoop]
    split
    · rename_i hlimited
      refine ⟨hwithin, hjustified, nofun, fun ended' hended =>
        ⟨.rateLimited, (Option.some.inj hended).symm, fun _ => ⟨batchNo, htried hlimited.2.2, ?_⟩⟩⟩
      exact hexhausted hlimited.1 hlimited.2.1
    · rw [if_neg (List.cons_ne_nil step [])]
      refine ⟨⟨hwithin.log, fun key hkey => ?_⟩, fun h => justified_fallback (hjustified h),
        fun _ key hkey => isSome_fallback hsettled hkey, nofun⟩
      exact (if_neg fun h => hkey h.2.1).trans (hwithin.others key hkey)

end Attempt

/-! ## The run -/

section Run
variable {call : ReviewCall} {script : Nat → Answer}

/-- The state between two batches; the kept keys have been pre-checked. -/
structure Between (call : ReviewCall) (kept : String → Prop) (batchNo : Nat) (s : ReviewState) :
    Prop where
  justified : Justified call.limits s
  numbered : ∀ a ∈ s.log, a.batchNo < batchNo
  unasked : ∀ a ∈ s.log, ∀ key ∈ wantOf a.batch, call.prechecked key = false
  kept : ∀ key, kept key → call.prechecked key = true ∧ ∃ v, s.out key = some v ∧ v.keep = true

theorem Between.next {kept : String → Prop} {batchNo : Nat} {batch : List ReviewItem}
    {s : ReviewState} {r : ReviewState × Option ReviewEnd} (hs : Between call kept batchNo s)
    (hbatch : ∀ key ∈ wantOf batch, call.prechecked key = false)
    (h : BatchFacts call batchNo batch s r) : Between call kept (batchNo + 1) r.1 := by
  obtain ⟨new, hlog, hnew⟩ := h.within.log
  refine ⟨h.justified hs.justified, fun a ha => ?_, fun a ha => ?_, fun key hkey => ?_⟩
  · rcases List.mem_append.mp (hlog ▸ ha) with ha | ha
    · exact Nat.lt_succ_of_lt (hs.numbered a ha)
    · rw [(hnew a ha).1]
      exact Nat.lt_succ_self batchNo
  · rcases List.mem_append.mp (hlog ▸ ha) with ha | ha
    · exact hs.unasked a ha
    · rw [(hnew a ha).2]
      exact hbatch
  · obtain ⟨hprechecked, v, hv, hkeep⟩ := hs.kept key hkey
    have hother : key ∉ wantOf batch := fun hmem => by
      rw [hbatch key hmem] at hprechecked
      cases hprechecked
    exact ⟨hprechecked, v, (h.within.others key hother).trans hv, hkeep⟩

/-- **The batches.** -/
theorem reviewBatches_spec (script : Nat → Answer) {step : LegStep} (hwalk : call.walk = [step]) {kept : String → Prop}
    (batches : List (List ReviewItem)) (n : Nat) {s : ReviewState} (hs : Between call kept n s)
    (hbatches : ∀ batch ∈ batches, ∀ key ∈ wantOf batch, call.prechecked key = false) :
    (∃ m, Between call kept m (call.reviewBatches script (batches.zipIdx n) s).1) ∧
      ((call.reviewBatches script (batches.zipIdx n) s).2 = .returned ∧
          (∀ key, (s.out key).isSome = true ∨ (∃ batch ∈ batches, key ∈ wantOf batch) →
            ((call.reviewBatches script (batches.zipIdx n) s).1.out key).isSome = true) ∨
        StopsWith call.lib (call.reviewBatches script (batches.zipIdx n) s).1.log
          (call.reviewBatches script (batches.zipIdx n) s).2) := by
  induction batches generalizing n s with
  | nil =>
    refine ⟨⟨n, hs⟩, .inl ⟨rfl, fun key hkey => hkey.resolve_right ?_⟩⟩
    rintro ⟨batch, hbatch, -⟩
    cases hbatch
  | cons batch batches ih =>
    have hfacts := reviewBatch_spec script n batch hwalk fun a ha => Nat.ne_of_lt (hs.numbered a ha)
    have hnext := hs.next (hbatches batch List.mem_cons_self) hfacts
    rw [List.zipIdx_cons, ReviewCall.reviewBatches]
    generalize call.reviewBatch script n batch s = r at hfacts hnext
    obtain ⟨s', ended⟩ := r
    cases ended with
    | some ended => exact ⟨⟨n + 1, hnext⟩, .inr (hfacts.stops ended rfl)⟩
    | none =>
      obtain ⟨hbetween, hrest⟩ := ih (n + 1) hnext fun b hb => hbatches b (List.mem_cons_of_mem batch hb)
      refine ⟨hbetween, hrest.imp_left fun ⟨hreturned, hsome⟩ => ⟨hreturned, fun key hkey => hsome key ?_⟩⟩
      -- an entry stays unless the batch has its key, and then the batch has an entry for it
      by_cases hin : key ∈ wantOf batch
      · exact .inl (hfacts.covered rfl key hin)
      · rcases hkey with hkey | ⟨b, hb, hkey⟩
        · exact .inl (by rw [hfacts.within.others key hin]; exact hkey)
        · rcases List.mem_cons.mp hb with rfl | hb
          · exact absurd hkey hin
          · exact .inr ⟨b, hb, hkey⟩

theorem precheck_spec (items : List ReviewItem) :
    (call.precheck items).2 = items.filter (fun item => !call.prechecked item.key) ∧
      ∀ key, (call.precheck items).1 key =
        if call.prechecked key = true ∧ key ∈ wantOf items then
          some ⟨true, points "review-has-independent-sense", "review-precheck", false⟩ else none := by
  induction items using List.reverseRecOn with
  | nil => exact ⟨rfl, fun key => by simp [ReviewCall.precheck, wantOf]⟩
  | append_singleton items item ih =>
    obtain ⟨hpending, hout⟩ := ih
    have hlast : call.precheck (items ++ [item]) =
        if call.prechecked item.key then
          (Function.update (call.precheck items).1 item.key
            (some ⟨true, points "review-has-independent-sense", "review-precheck", false⟩),
            (call.precheck items).2)
        else ((call.precheck items).1, (call.precheck items).2 ++ [item]) := List.foldl_concat _ _ _ _
    rw [hlast]
    cases hitem : call.prechecked item.key with
    | true =>
      refine ⟨by simp [hpending, hitem], fun key => ?_⟩
      by_cases hkey : key = item.key
      · subst hkey
        simp [hitem, wantOf]
      · simp [hout, wantOf, hkey]
    | false =>
      refine ⟨by simp [hpending, hitem], fun key => ?_⟩
      by_cases hkey : key = item.key
      · subst hkey
        simp [hitem, hout]
      · simp [hout, wantOf, hkey]

theorem mem_batchesOf {pending : List ReviewItem} {key : String} :
    (∃ batch ∈ (stageRange true pending.length inflectionReviewBatch).map fun base =>
      (pending.drop base).take inflectionReviewBatch, key ∈ wantOf batch) ↔ key ∈ wantOf pending := by
  constructor
  · rintro ⟨batch, hbatch, hkey⟩
    obtain ⟨base, -, rfl⟩ := List.mem_map.mp hbatch
    obtain ⟨item, hitem, rfl⟩ := List.mem_map.mp hkey
    exact List.mem_map.mpr ⟨item, List.mem_of_mem_drop (List.mem_of_mem_take hitem), rfl⟩
  · intro hkey
    obtain ⟨item, hitem, rfl⟩ := List.mem_map.mp hkey
    have hwidth : 0 < inflectionReviewBatch := by decide
    obtain ⟨base, hbase, hin⟩ := exists_stageRange hwidth hitem
    exact ⟨_, List.mem_map.mpr ⟨base, hbase, rfl⟩, List.mem_map.mpr ⟨item, hin, rfl⟩⟩

theorem walk_of_named (hname : call.lib.normProvider (some call.baseProvider) ≠ "") :
    ∃ step, call.walk = [step] := by
  obtain ⟨step, hstep⟩ : ∃ step, resolveLegWalk call.lib call.tunneled "inflection_review"
      call.baseProvider (if call.models = [] then none else some call.models)
      (call.rings.map (·.map Prod.fst)) = some [step] := resolveLegWalk_named (by decide) hname
  exact ⟨step, by rw [ReviewCall.walk, hstep]; rfl⟩

/-- The items that the pre-check keeps. -/
def KeptBefore (call : ReviewCall) (items : List ReviewItem) (key : String) : Prop :=
  call.prechecked key = true ∧ key ∈ wantOf items

theorem between_start (items : List ReviewItem) :
    Between call (KeptBefore call items) 1 (call.start (call.precheck items).1) := by
  have hout : ∀ key, (call.start (call.precheck items).1).out key = _ := (precheck_spec items).2
  refine ⟨fun key v hv hkeep => ?_, nofun, nofun,
    fun key hkey => ⟨hkey.1, _, (hout key).trans (if_pos hkey), rfl⟩⟩
  rw [hout key] at hv
  split at hv
  · obtain rfl := Option.some.inj hv
    cases hkeep
  · cases hv

theorem mem_wantOf_pending {items : List ReviewItem} {key : String} :
    key ∈ wantOf (call.precheck items).2 ↔ key ∈ wantOf items ∧ call.prechecked key = false := by
  rw [(precheck_spec items).1]
  simp only [wantOf, List.mem_map, List.mem_filter, Bool.not_eq_true']
  constructor
  · rintro ⟨item, ⟨hitem, hno⟩, rfl⟩
    exact ⟨⟨item, hitem, rfl⟩, hno⟩
  · rintro ⟨⟨item, hitem, rfl⟩, hno⟩
    exact ⟨item, ⟨hitem, hno⟩, rfl⟩

end Run

/-! ## The promise -/

structure NeverDrops (call : ReviewCall) (items : List ReviewItem)
    (r : ReviewState × ReviewEnd) : Prop where
  /-- It raises one of the four errors, or has an entry for every key. -/
  ends : (∃ e, r.2 = .raised e) ∨
    r.2 = .returned ∧ ∀ item ∈ items, (r.1.out item.key).isSome = true
  /-- Only a reply that covers a batch drops a key of it. -/
  drops : ∀ key v, r.1.out key = some v → v.keep = false →
    ∃ a ∈ r.1.log, a.SaidFalse call.limits key
  /-- A key with a sense of its own is kept and is in no prompt. -/
  spared : ∀ item ∈ items, item.key ≠ "" →
    reviewHasIndependentSense call.py item.key call.anchorMap = true →
      (∃ v, r.1.out item.key = some v ∧ v.keep = true) ∧ ∀ a ∈ r.1.log, item.key ∉ wantOf a.batch
  /-- `RateLimited` is raised after a batch all of whose attempts ended in quota exhaustion. -/
  limited : r.2 = .raised .rateLimited → ∃ no, (∃ a ∈ r.1.log, a.batchNo = no) ∧
    ∀ a ∈ r.1.log, a.batchNo = no → a.Exhausted call.lib

/-- **A review never drops on uncertainty.** -/
theorem review_never_drops (call : ReviewCall) (script : Nat → Answer) (items : List ReviewItem)
    (hname : call.lib.normProvider (some call.baseProvider) ≠ "") :
    NeverDrops call items (call.inflectionReview script items) := by
  obtain ⟨step, hwalk⟩ := walk_of_named hname
  obtain ⟨⟨m, hbetween⟩, hends⟩ := reviewBatches_spec script hwalk _ 1
    (between_start items) fun batch hbatch key hkey =>
      (mem_wantOf_pending.mp (mem_batchesOf.mp ⟨batch, hbatch, hkey⟩)).2
  refine ⟨?_, hbetween.justified, fun item hitem hne hsense => ?_, fun hlimited => ?_⟩
  · rcases hends with ⟨hreturned, hsome⟩ | ⟨e, he, -⟩
    · refine .inr ⟨hreturned, fun item hitem => hsome item.key ?_⟩
      have hkey : item.key ∈ wantOf items := List.mem_map_of_mem hitem
      cases hprechecked : call.prechecked item.key with
      | true =>
        obtain ⟨-, v, hv, -⟩ := (between_start items).kept item.key ⟨hprechecked, hkey⟩
        exact .inl (Option.isSome_of_eq_some hv)
      | false => exact .inr (mem_batchesOf.mpr (mem_wantOf_pending.mpr ⟨hkey, hprechecked⟩))
    · exact .inl ⟨e, he⟩
  · have hprechecked : call.prechecked item.key = true := by
      simp [ReviewCall.prechecked, hne, hsense]
    obtain ⟨-, hkept⟩ := hbetween.kept item.key ⟨hprechecked, List.mem_map_of_mem hitem⟩
    refine ⟨hkept, fun a ha hkey => ?_⟩
    rw [hbetween.unasked a ha item.key hkey] at hprechecked
    cases hprechecked
  · rcases hends with ⟨hreturned, -⟩ | ⟨e, he, hquota⟩
    · cases hreturned.symm.trans hlimited
    · exact hquota (ReviewEnd.raised.inj (he.symm.trans hlimited))

/-- A review on the default provider, with a sense of its own for the empty key. -/
def petReview : ReviewCall where
  py := .ascii
  limits := ⟨1000, 4300⟩
  anchorMap := .obj [("", .obj [("candidates", .arr [.obj [("gloss", .str "a small cat")]])])]
  head := []
  provider := ""
  models := []
  ring := twoKeys
  rings := none
  tunneled := []

def petsItem : ReviewItem := ⟨"w:pets", "pets", "plural of pet"⟩

def emptyKeyItem : ReviewItem := ⟨"", "", ""⟩

/-- A reply that drops the item, after a refused key and a reply without an object. -/
def petsAnswers : Nat → Answer
  | 0 => .httpError 429 ""
  | 1 => .reply "no object" true
  | _ => .reply "\x7b\"results\": [\x7b\"key\": \"w:pets\", \"keep\": false\x7d]\x7d" true

theorem review_drops_pets :
    ((petReview.inflectionReview petsAnswers [petsItem]).1.out "w:pets").map (·.keep) = some false ∧
      NeverDrops petReview [petsItem] (petReview.inflectionReview petsAnswers [petsItem]) :=
  ⟨by decide +kernel, review_never_drops petReview petsAnswers [petsItem] (by decide +kernel)⟩

/-- The empty key is asked in spite of its sense, and where the provider is blank the name of
the provider is not bound at the end of the batch. -/
theorem empty_key_is_asked :
    ¬(∀ item ∈ [emptyKeyItem],
      reviewHasIndependentSense petReview.py item.key petReview.anchorMap = true →
        ∀ a ∈ (petReview.inflectionReview (fun _ => .failed) [emptyKeyItem]).1.log,
          item.key ∉ wantOf a.batch) ∧
    ({ petReview with provider := " " }.inflectionReview (fun _ => .failed) [petsItem]).2 =
      .unbound := by
  refine ⟨fun h => ?_, by decide +kernel⟩
  have hlog : (petReview.inflectionReview (fun _ => .failed) [emptyKeyItem]).1.log.map
      (fun a => wantOf a.batch) = [[""], [""]] := by decide +kernel
  have hfirst : [""] ∈ [[""], [""]] := List.mem_cons_self
  rw [← hlog] at hfirst
  obtain ⟨a, ha, hwant⟩ := List.mem_map.mp hfirst
  exact h emptyKeyItem List.mem_cons_self (by decide +kernel) a ha (by rw [hwant]; decide)

end HamZaboon
