import HamZaboon.Reviews.Events

/-! # What a prune deletes

The prune is documented as deleting, per card, the events beyond the
`keep_per_card` newest that are older than the cutoff.  Pass 3 selects them in
batches walked by an id cursor, and ranks each batch inside the rows beyond the
cursor only.  A row that the cursor has passed no longer counts towards the rank
of an older row with a larger id, so a victim can be missed when ids and
timestamps disagree.  This module says exactly when that does not happen
(`BatchSafe`).

The pass is read off the process as a big-step relation, `Deletes`, whose
derivations have one node per batch; both directions are inductions on it.
-/

namespace HamZaboon
open Library

variable {K : Type}

/-- The documented result: the rows the keep rule spares. -/
def survivors (p : PruneParams) (rows : List ReviewEvent) : List ReviewEvent :=
  rows.filter (fun e => !decide (p.keepPerCard < newestRank rows e ∧ e.createdAt < p.cutoff))

/-- Every victim that follows a batch boundary `w` still has `keep_per_card`
newer rows of its card with ids beyond `w`.  A boundary is a victim whose
position, in id order, is a multiple of the batch size. -/
def BatchSafe (p : PruneParams) (rows : List ReviewEvent) : Prop :=
  ∀ w ∈ victimsIn p rows, ∀ v ∈ victimsIn p rows, w.id < v.id →
    p.scan ∣ (victimsIn p rows).countP (fun x => x.id ≤ w.id) →
    p.keepPerCard < newestRank (beyond w.id rows) v

/-- The rows left once the rows with the ids of `chunk` are deleted. -/
def without (chunk rows : List ReviewEvent) : List ReviewEvent :=
  rows.filter (fun e => !chunk.any (fun v => v.id = e.id))

/-! ## Victims and deletions -/

theorem mem_victimsIn {p : PruneParams} {scope : List ReviewEvent} {e : ReviewEvent} :
    e ∈ victimsIn p scope ↔
      e ∈ scope ∧ p.keepPerCard < newestRank scope e ∧ e.createdAt < p.cutoff := by
  simp [victimsIn]

theorem mem_without {chunk rows : List ReviewEvent} {e : ReviewEvent} :
    e ∈ without chunk rows ↔ e ∈ rows ∧ ∀ v ∈ chunk, v.id ≠ e.id := by
  simp [without]

theorem without_append (a b rows : List ReviewEvent) :
    without b (without a rows) = without (a ++ b) rows := by
  unfold without
  rw [List.filter_filter]
  refine List.filter_congr (fun e _ => ?_)
  rw [List.any_append, Bool.not_or, Bool.and_comm]

theorem beyond_without {last : Nat} {chunk rows : List ReviewEvent}
    (h : ∀ v ∈ chunk, v.id ≤ last) : beyond last (without chunk rows) = beyond last rows := by
  unfold beyond without
  rw [List.filter_filter]
  refine List.filter_congr (fun e _ => ?_)
  by_cases hl : last < e.id
  · have hno : chunk.any (fun v => v.id = e.id) = false := by
      rw [List.any_eq_false]
      intro v hv hid
      have := h v hv
      have := of_decide_eq_true hid
      omega
    simp [hl, hno]
  · simp [hl]

theorem beyond_sublist_of_le {a b : Nat} (h : a ≤ b) (rows : List ReviewEvent) :
    (beyond b rows).Sublist (beyond a rows) := by
  have hb : beyond b rows = (beyond a rows).filter (fun e => b < e.id) := by
    unfold beyond
    rw [List.filter_filter]
    refine List.filter_congr (fun e _ => ?_)
    by_cases hlt : b < e.id
    · simp [hlt, Nat.lt_of_le_of_lt h hlt]
    · simp [hlt]
  rw [hb]
  exact List.filter_sublist

theorem newestRank_mono {small large : List ReviewEvent} (h : small.Sublist large)
    (e : ReviewEvent) : newestRank small e ≤ newestRank large e :=
  rowNumber_mono _ _ h e

/-! ## The delete pass as a relation -/

/-- `Deletes p last rows rows'`: pass 3, with its cursor at `last` and `rows` in
the table, leaves `rows'`. -/
inductive Deletes (p : PruneParams) : Nat → List ReviewEvent → List ReviewEvent → Prop
  /-- No victim is left. -/
  | none {last rows} (h : victimBatch p last rows = []) : Deletes p last rows rows
  /-- The batch was not full. -/
  | short {last rows} (h : (victimBatch p last rows).length < p.scan) :
      Deletes p last rows (without (victimBatch p last rows) rows)
  /-- The batch was full, and the cursor moves to its last id. -/
  | full {last rows rows'} (h : p.scan ≤ (victimBatch p last rows).length)
      (hd : Deletes p (lastId (victimBatch p last rows)) (without (victimBatch p last rows) rows)
        rows') :
      Deletes p last rows rows'

variable {p : PruneParams}

theorem victimBatch_sublist (p : PruneParams) (last : Nat) (rows : List ReviewEvent) :
    (victimBatch p last rows).Sublist (victimsIn p (beyond last rows)) :=
  List.take_sublist _ _

theorem mem_victimBatch {last : Nat} {rows : List ReviewEvent} {v : ReviewEvent}
    (hv : v ∈ victimBatch p last rows) :
    v ∈ rows ∧ last < v.id ∧ p.keepPerCard < newestRank (beyond last rows) v := by
  obtain ⟨hb, hr, _⟩ := mem_victimsIn.mp ((victimBatch_sublist p last rows).subset hv)
  exact ⟨(mem_beyond.mp hb).1, (mem_beyond.mp hb).2, hr⟩

theorem idSorted_victimBatch {last : Nat} {rows : List ReviewEvent} (h : IdSorted rows) :
    IdSorted (victimBatch p last rows) :=
  ((h.filter _).filter _).sublist (victimBatch_sublist p last rows)

theorem lt_lastId_victimBatch {last : Nat} {rows : List ReviewEvent}
    (hfull : p.scan ≤ (victimBatch p last rows).length) :
    last < lastId (victimBatch p last rows) := by
  have hne : victimBatch p last rows ≠ [] := by
    intro h
    rw [h] at hfull
    exact absurd hfull (Nat.not_le_of_lt (scan_pos p))
  obtain ⟨z, hz, hid⟩ := exists_lastId hne
  rw [← hid]
  exact (mem_victimBatch hz).2.1

/-- **A row within the newest `keep_per_card` beyond the cursor is never
deleted**: later scopes are smaller, so its rank only improves. -/
theorem Deletes.keeps {last : Nat} {rows rows' : List ReviewEvent} (h : Deletes p last rows rows')
    (hs : IdSorted rows) {e : ReviewEvent} (he : e ∈ rows)
    (hrank : (newestRank (beyond last rows) e : Int) ≤ p.keepPerCard) : e ∈ rows' := by
  -- no batch of this cursor contains `e`, since ids are unique
  have absent : ∀ {last rows}, IdSorted rows → e ∈ rows →
      (newestRank (beyond last rows) e : Int) ≤ p.keepPerCard →
      e ∈ without (victimBatch p last rows) rows := by
    intro last rows hs he hrank
    refine mem_without.mpr ⟨he, fun v hv hid => ?_⟩
    obtain ⟨hvr, _, hv⟩ := mem_victimBatch hv
    rw [hs.eq_of_id hvr he hid] at hv
    omega
  induction h with
  | none _ => exact he
  | short _ => exact absent hs he hrank
  | @full last rows rows' hfull _ ih =>
    refine ih (hs.filter _) (absent hs he hrank) ?_
    have hle := Nat.le_of_lt (lt_lastId_victimBatch hfull)
    have hsub : (beyond (lastId (victimBatch p last rows))
        (without (victimBatch p last rows) rows)).Sublist (beyond last rows) := by
      rw [beyond_without (fun v hv => (idSorted_victimBatch hs).le_lastId hv)]
      exact beyond_sublist_of_le hle rows
    have := newestRank_mono hsub e
    omega

/-! ## Exactness of the pass

The induction carries a split `done ++ todo` of the victims of the whole table:
whole batches that were deleted, and what is left. -/

section Exactness
variable {rows₀ : List ReviewEvent}

/-- The cursor stands on a batch boundary of the victims of `rows₀`. -/
structure AtBoundary (p : PruneParams) (rows₀ done todo : List ReviewEvent) : Prop where
  split : victimsIn p rows₀ = done ++ todo
  whole : p.scan ∣ done.length

/-- `BatchSafe` for the boundaries from `last` on. -/
def SafeFrom (p : PruneParams) (rows₀ : List ReviewEvent) (last : Nat) : Prop :=
  ∀ w ∈ victimsIn p rows₀, ∀ v ∈ victimsIn p rows₀, last ≤ w.id → w.id < v.id →
    p.scan ∣ (victimsIn p rows₀).countP (fun x => x.id ≤ w.id) →
    p.keepPerCard < newestRank (beyond w.id rows₀) v

theorem safeFrom_zero : SafeFrom p rows₀ 0 ↔ BatchSafe p rows₀ :=
  ⟨fun h w hw v hv hlt hd => h w hw v hv (Nat.zero_le _) hlt hd,
    fun h w hw v hv _ hlt hd => h w hw v hv hlt hd⟩

namespace AtBoundary
variable {done todo : List ReviewEvent}

theorem mem_todo (hb : AtBoundary p rows₀ done todo) (hs : IdSorted rows₀)
    (hpos : ∀ e ∈ rows₀, 0 < e.id) {v : ReviewEvent} (hv : v ∈ todo) : lastId done < v.id := by
  have hsv : IdSorted (done ++ todo) := hb.split ▸ hs.filter _
  by_cases hd : done = []
  · subst hd
    have hmem : v ∈ victimsIn p rows₀ := by rw [hb.split]; exact hv
    exact hpos v (mem_victimsIn.mp hmem).1
  · obtain ⟨z, hz, hid⟩ := exists_lastId hd
    rw [← hid]
    exact (List.pairwise_append.mp hsv).2.2 z hz v hv

theorem le_lastId_done (hb : AtBoundary p rows₀ done todo) (hs : IdSorted rows₀)
    {v : ReviewEvent} (hv : v ∈ done) : v.id ≤ lastId done := by
  have hsv : IdSorted (done ++ todo) := hb.split ▸ hs.filter _
  exact IdSorted.le_lastId (hsv.sublist (List.sublist_append_left _ _)) hv

theorem victimsIn_beyond (hb : AtBoundary p rows₀ done todo) (hs : IdSorted rows₀)
    (hpos : ∀ e ∈ rows₀, 0 < e.id) :
    victimsIn p (beyond (lastId done) rows₀) =
      todo.filter (fun e => p.keepPerCard < newestRank (beyond (lastId done) rows₀) e) := by
  have htodo : todo = (victimsIn p rows₀).filter (fun e => lastId done < e.id) := by
    have h1 : done.filter (fun e => lastId done < e.id) = [] := by
      refine List.filter_eq_nil_iff.mpr (fun e he => ?_)
      simpa using hb.le_lastId_done hs he
    have h2 : todo.filter (fun e => lastId done < e.id) = todo := by
      refine List.filter_eq_self.mpr (fun e he => ?_)
      simpa using hb.mem_todo hs hpos he
    rw [hb.split, List.filter_append, h1, h2, List.nil_append]
  conv_rhs => rw [htodo]
  unfold victimsIn beyond
  rw [List.filter_filter, List.filter_filter, List.filter_filter]
  refine List.filter_congr (fun e _ => ?_)
  -- a low rank beyond the cursor is a low rank in the whole table
  have hmono : newestRank (rows₀.filter (fun e => lastId done < e.id)) e ≤ newestRank rows₀ e :=
    newestRank_mono List.filter_sublist e
  rw [Bool.eq_iff_iff]
  simp only [Bool.and_eq_true, decide_eq_true_eq]
  constructor
  · rintro ⟨⟨hr, ho⟩, hl⟩
    exact ⟨⟨hr, hl⟩, by omega, ho⟩
  · rintro ⟨⟨hr, hl⟩, _, ho⟩
    exact ⟨⟨hr, ho⟩, hl⟩

theorem countP_split (hb : AtBoundary p rows₀ done todo) (hs : IdSorted rows₀) {w : Nat}
    (hw : lastId done ≤ w) :
    (victimsIn p rows₀).countP (fun x => x.id ≤ w) =
      done.length + todo.countP (fun x => x.id ≤ w) := by
  rw [hb.split, List.countP_append]
  congr 1
  refine List.countP_eq_length.mpr (fun e he => ?_)
  exact decide_eq_true (Nat.le_trans (hb.le_lastId_done hs he) hw)

theorem not_dvd (hb : AtBoundary p rows₀ done todo) (hs : IdSorted rows₀)
    (hpos : ∀ e ∈ rows₀, 0 < e.id) {w : ReviewEvent} (hw : w ∈ todo)
    (hlt : todo.countP (fun x => x.id ≤ w.id) < p.scan) :
    ¬ p.scan ∣ (victimsIn p rows₀).countP (fun x => x.id ≤ w.id) := by
  rw [hb.countP_split hs (Nat.le_of_lt (hb.mem_todo hs hpos hw)), Nat.dvd_add_right hb.whole]
  intro hdvd
  have hzero := Nat.eq_zero_of_dvd_of_lt hdvd hlt
  exact absurd (decide_eq_true (Nat.le_refl w.id)) (by simpa using List.countP_eq_zero.mp hzero w hw)

theorem dvd_lastId (hb : AtBoundary p rows₀ done todo) (hs : IdSorted rows₀)
    (hpos : ∀ e ∈ rows₀, 0 < e.id) :
    p.scan ∣ (victimsIn p rows₀).countP (fun x => x.id ≤ lastId done) := by
  have hzero : todo.countP (fun x => x.id ≤ lastId done) = 0 := by
    refine List.countP_eq_zero.mpr (fun e he => ?_)
    have := hb.mem_todo hs hpos he
    simpa using this
  rw [hb.countP_split hs (Nat.le_refl _), hzero]
  exact hb.whole

end AtBoundary

theorem take_filter_eq_take {α : Type} {q : α → Bool} {n : Nat} {l : List α}
    (h : ∀ x ∈ l.take n, q x = true) : (l.filter q).take n = l.take n := by
  have hsplit : l.filter q = l.take n ++ (l.drop n).filter q := by
    conv_lhs => rw [← List.take_append_drop n l, List.filter_append, List.filter_eq_self.mpr h]
  rcases Nat.lt_or_ge l.length n with hlt | hge
  · rw [hsplit, List.drop_of_length_le (Nat.le_of_lt hlt), List.filter_nil, List.append_nil,
      List.take_take, Nat.min_self]
  · rw [hsplit, List.take_append_of_le_length (by rw [List.length_take]; omega),
      List.take_take, Nat.min_self]

theorem lastId_append {a b : List ReviewEvent} (h : b ≠ []) : lastId (a ++ b) = lastId b := by
  unfold lastId
  rw [List.getLast?_append_of_ne_nil _ h]

namespace AtBoundary
variable {done todo : List ReviewEvent}

theorem advance (hb : AtBoundary p rows₀ done todo) (hfull : p.scan ≤ (todo.take p.scan).length) :
    AtBoundary p rows₀ (done ++ todo.take p.scan) (todo.drop p.scan) where
  split := by rw [hb.split, List.append_assoc, List.take_append_drop]
  whole := by
    have hlen : (todo.take p.scan).length = p.scan :=
      Nat.le_antisymm (List.length_take_le _ _) hfull
    rw [List.length_append, hlen]
    exact Nat.dvd_add hb.whole (Nat.dvd_refl _)

theorem victimBatch_eq (hb : AtBoundary p rows₀ done todo) (hs : IdSorted rows₀)
    (hpos : ∀ e ∈ rows₀, 0 < e.id)
    (hlow : ∀ x ∈ todo.take p.scan, p.keepPerCard < newestRank (beyond (lastId done) rows₀) x) :
    victimBatch p (lastId done) (without done rows₀) = todo.take p.scan := by
  unfold victimBatch
  rw [beyond_without (fun v hv => hb.le_lastId_done hs hv), hb.victimsIn_beyond hs hpos]
  exact take_filter_eq_take (fun x hx => decide_eq_true (hlow x hx))

theorem mem_or_eq (hb : AtBoundary p rows₀ done todo) (hs : IdSorted rows₀) {w : ReviewEvent}
    (hw : w ∈ victimsIn p rows₀) (hle : lastId done ≤ w.id) : w.id = lastId done ∨ w ∈ todo := by
  rw [hb.split] at hw
  rcases List.mem_append.mp hw with hw | hw
  · exact Or.inl (Nat.le_antisymm (hb.le_lastId_done hs hw) hle)
  · exact Or.inr hw

theorem mem_todo_of_lt (hb : AtBoundary p rows₀ done todo) (hs : IdSorted rows₀) {v : ReviewEvent}
    (hv : v ∈ victimsIn p rows₀) (hlt : lastId done < v.id) : v ∈ todo := by
  rcases hb.mem_or_eq hs hv (Nat.le_of_lt hlt) with h | h
  · omega
  · exact h

theorem safeFrom_of_short (hb : AtBoundary p rows₀ done todo) (hs : IdSorted rows₀)
    (hpos : ∀ e ∈ rows₀, 0 < e.id) (hlen : todo.length < p.scan)
    (hlow : ∀ x ∈ todo, p.keepPerCard < newestRank (beyond (lastId done) rows₀) x) :
    SafeFrom p rows₀ (lastId done) := by
  intro w hw v hv hle hlt hdvd
  rcases hb.mem_or_eq hs hw hle with heq | hwt
  · rw [heq]
    exact hlow v (hb.mem_todo_of_lt hs hv (by omega))
  · exact absurd hdvd (hb.not_dvd hs hpos hwt (Nat.lt_of_le_of_lt List.countP_le_length hlen))

theorem safeFrom_advance (hb : AtBoundary p rows₀ done todo) (hs : IdSorted rows₀)
    (hpos : ∀ e ∈ rows₀, 0 < e.id) (hfull : p.scan ≤ (todo.take p.scan).length)
    (hlow : ∀ x ∈ todo.take p.scan, p.keepPerCard < newestRank (beyond (lastId done) rows₀) x) :
    SafeFrom p rows₀ (lastId (done ++ todo.take p.scan)) ↔ SafeFrom p rows₀ (lastId done) := by
  have hne : todo.take p.scan ≠ [] := by
    intro h
    rw [h] at hfull
    exact absurd hfull (Nat.not_le_of_lt (scan_pos p))
  have hb' := hb.advance hfull
  obtain ⟨z, hz, hzid⟩ := exists_lastId hne
  have hztodo : z ∈ todo := List.mem_of_mem_take hz
  have hzv : z ∈ victimsIn p rows₀ := by
    rw [hb.split]
    exact List.mem_append_right _ hztodo
  have hcur : lastId (done ++ todo.take p.scan) = z.id := by rw [lastId_append hne, hzid]
  have hle : lastId done ≤ z.id := Nat.le_of_lt (hb.mem_todo hs hpos hztodo)
  rw [hcur]
  constructor
  · intro h w hw v hv hlew hlt hdvd
    by_cases hzw : z.id ≤ w.id
    · exact h w hw v hv hzw hlt hdvd
    rcases hb.mem_or_eq hs hw hlew with heq | hwt
    · rw [heq]
      have hvt := hb.mem_todo_of_lt hs hv (by omega)
      rw [← List.take_append_drop p.scan todo] at hvt
      rcases List.mem_append.mp hvt with hvt | hvt
      · exact hlow v hvt
      · -- a victim of a later batch is held low by the end of this one
        have hzlt : z.id < v.id := hcur ▸ hb'.mem_todo hs hpos hvt
        have hdz : p.scan ∣ (victimsIn p rows₀).countP (fun x => x.id ≤ z.id) :=
          hcur ▸ hb'.dvd_lastId hs hpos
        have hz' := h z hzv v hv (Nat.le_refl _) hzlt hdz
        have hmono := newestRank_mono (beyond_sublist_of_le hle rows₀) v
        omega
    · -- `w` lies strictly inside this batch
      refine absurd hdvd (hb.not_dvd hs hpos hwt ?_)
      have hdrop : (todo.drop p.scan).countP (fun x => x.id ≤ w.id) = 0 := by
        refine List.countP_eq_zero.mpr (fun e he => ?_)
        have : z.id < e.id := hcur ▸ hb'.mem_todo hs hpos he
        simp only [decide_eq_true_eq]
        omega
      have htake : (todo.take p.scan).countP (fun x => x.id ≤ w.id) < (todo.take p.scan).length := by
        refine Nat.lt_of_le_of_ne List.countP_le_length (fun h => ?_)
        have := of_decide_eq_true (List.countP_eq_length.mp h z hz)
        omega
      have hsplit : todo.countP (fun x => x.id ≤ w.id) =
          (todo.take p.scan).countP (fun x => x.id ≤ w.id) +
            (todo.drop p.scan).countP (fun x => x.id ≤ w.id) := by
        rw [← List.countP_append, List.take_append_drop]
      have hscan := List.length_take_le p.scan todo
      omega
  · intro h w hw v hv hlew hlt hdvd
    exact h w hw v hv (Nat.le_trans hle hlew) hlt hdvd

theorem misses (hb : AtBoundary p rows₀ done todo) (hs : IdSorted rows₀)
    (hpos : ∀ e ∈ rows₀, 0 < e.id) {rows' : List ReviewEvent}
    (h : Deletes p (lastId done) (without done rows₀) rows') {x : ReviewEvent} (hx : x ∈ todo)
    (hrank : (newestRank (beyond (lastId done) rows₀) x : Int) ≤ p.keepPerCard) :
    rows' ≠ without (victimsIn p rows₀) rows₀ ∧ ¬ SafeFrom p rows₀ (lastId done) := by
  have hxv : x ∈ victimsIn p rows₀ := by
    rw [hb.split]
    exact List.mem_append_right _ hx
  have hlt := hb.mem_todo hs hpos hx
  have hxrow : x ∈ without done rows₀ := by
    refine mem_without.mpr ⟨(mem_victimsIn.mp hxv).1, fun v hv => ?_⟩
    have := hb.le_lastId_done hs hv
    omega
  have hscope : beyond (lastId done) (without done rows₀) = beyond (lastId done) rows₀ :=
    beyond_without (fun v hv => hb.le_lastId_done hs hv)
  have hkept : x ∈ rows' := h.keeps (hs.filter _) hxrow (by rw [hscope]; exact hrank)
  constructor
  · rintro rfl
    exact (mem_without.mp hkept).2 x hxv rfl
  · intro hsafe
    by_cases hd : done = []
    · -- nothing was deleted yet, so the scope is the whole table
      have hall : beyond (lastId done) rows₀ = rows₀ := by
        subst hd
        exact List.filter_eq_self.mpr (fun e he => decide_eq_true (hpos e he))
      rw [hall] at hrank
      have := (mem_victimsIn.mp hxv).2.1
      omega
    · obtain ⟨z, hz, hid⟩ := exists_lastId hd
      have hzv : z ∈ victimsIn p rows₀ := by
        rw [hb.split]
        exact List.mem_append_left _ hz
      have := hsafe z hzv x hxv (Nat.le_of_eq hid.symm) (by omega) (hid ▸ hb.dvd_lastId hs hpos)
      rw [hid] at this
      omega

end AtBoundary

/-- **Pass 3 deletes all the victims exactly when every boundary from its cursor
on is safe.** -/
theorem Deletes.exact {last : Nat} {rows rows' : List ReviewEvent} (h : Deletes p last rows rows')
    (hs : IdSorted rows₀) (hpos : ∀ e ∈ rows₀, 0 < e.id) :
    ∀ {done todo : List ReviewEvent}, AtBoundary p rows₀ done todo → last = lastId done →
      rows = without done rows₀ →
      (rows' = without (victimsIn p rows₀) rows₀ ↔ SafeFrom p rows₀ last) := by
  induction h with
  | none h =>
    rintro done todo hb rfl rfl
    by_cases hlow : ∀ x ∈ todo.take p.scan,
        p.keepPerCard < newestRank (beyond (lastId done) rows₀) x
    · rw [hb.victimBatch_eq hs hpos hlow, List.take_eq_nil_iff] at h
      obtain rfl : todo = [] := h.resolve_left (Nat.ne_of_gt (scan_pos p))
      have hall : victimsIn p rows₀ = done := by rw [hb.split, List.append_nil]
      refine iff_of_true (by rw [hall]) (hb.safeFrom_of_short hs hpos (scan_pos p) ?_)
      exact fun x hx => absurd hx List.not_mem_nil
    · simp only [not_forall] at hlow
      obtain ⟨x, hx, hrank⟩ := hlow
      obtain ⟨h1, h2⟩ := hb.misses hs hpos (Deletes.none h) (List.mem_of_mem_take hx)
        (Int.not_lt.mp hrank)
      exact iff_of_false h1 h2
  | short h =>
    rintro done todo hb rfl rfl
    by_cases hlow : ∀ x ∈ todo.take p.scan,
        p.keepPerCard < newestRank (beyond (lastId done) rows₀) x
    · have hbatch := hb.victimBatch_eq hs hpos hlow
      rw [hbatch, List.length_take] at h
      have hlen : todo.length < p.scan := by omega
      rw [List.take_of_length_le (Nat.le_of_lt hlen)] at hbatch hlow
      refine iff_of_true ?_ (hb.safeFrom_of_short hs hpos hlen hlow)
      rw [hbatch, without_append, hb.split]
    · simp only [not_forall] at hlow
      obtain ⟨x, hx, hrank⟩ := hlow
      obtain ⟨h1, h2⟩ := hb.misses hs hpos (Deletes.short h) (List.mem_of_mem_take hx)
        (Int.not_lt.mp hrank)
      exact iff_of_false h1 h2
  | full h hd ih =>
    rintro done todo hb rfl rfl
    by_cases hlow : ∀ x ∈ todo.take p.scan,
        p.keepPerCard < newestRank (beyond (lastId done) rows₀) x
    · have hbatch := hb.victimBatch_eq hs hpos hlow
      rw [hbatch] at h ih
      have hne : todo.take p.scan ≠ [] := by
        intro hnil
        rw [hnil] at h
        exact absurd h (Nat.not_le_of_lt (scan_pos p))
      rw [← hb.safeFrom_advance hs hpos h hlow, lastId_append hne]
      exact ih (hb.advance h) (lastId_append hne).symm (without_append _ _ _)
    · simp only [not_forall] at hlow
      obtain ⟨x, hx, hrank⟩ := hlow
      obtain ⟨h1, h2⟩ := hb.misses hs hpos (Deletes.full h hd) (List.mem_of_mem_take hx)
        (Int.not_lt.mp hrank)
      exact iff_of_false h1 h2

end Exactness

/-! ## The whole prune -/

/-- `Pruned p s s'`: an undisturbed prune of `s` ends in `s'`. -/
def Pruned (p : PruneParams) (s s' : WordStore K) : Prop :=
  ∃ n, PruneRun.batches p n (PruneRun.start, s) = (PruneRun.finished, s')

theorem batches_finished (p : PruneParams) (n : Nat) (s : WordStore K) :
    PruneRun.batches p n (.finished, s) = (.finished, s) := by
  induction n with
  | zero => rfl
  | succ n ih => exact ih

theorem Pruned.unique {p : PruneParams} {s a b : WordStore K} (ha : Pruned p s a)
    (hb : Pruned p s b) : a = b := by
  obtain ⟨m, ha⟩ := ha
  obtain ⟨n, hb⟩ := hb
  have hm : PruneRun.batches p (m + n) (PruneRun.start, s) = (.finished, a) := by
    rw [batches_add, ha, batches_finished]
  have hn : PruneRun.batches p (m + n) (PruneRun.start, s) = (.finished, b) := by
    rw [Nat.add_comm, batches_add, hb, batches_finished]
  exact (Prod.mk.inj (hm.symm.trans hn)).2

theorem scanning_ends (p : PruneParams) (s : WordStore K) :
    ∀ (k last : Nat) totals, (beyond last s.reviewEvents.rows).length ≤ k →
      ∃ n items, PruneRun.batches p n (.scanning last totals, s) = (.reconciling items, s) := by
  intro k
  induction k with
  | zero =>
    intro last totals hk
    have hnil : beyond last s.reviewEvents.rows = [] := List.length_eq_zero_iff.mp (Nat.le_zero.mp hk)
    exact ⟨1, totals, by simp [PruneRun.batches, PruneRun.next, hnil]⟩
  | succ k ih =>
    intro last totals hk
    let page := (beyond last s.reviewEvents.rows).take p.scan
    by_cases hnil : page = []
    · exact ⟨1, totals, by simp only [PruneRun.batches, PruneRun.next]; rw [if_pos hnil]⟩
    by_cases hshort : page.length < p.scan
    · refine ⟨1, tallyFrom ReviewEvent.card ReviewEvent.lapse totals page, ?_⟩
      simp only [PruneRun.batches, PruneRun.next]
      rw [if_neg hnil, if_pos hshort]
    -- a full page: its last row is no longer beyond the next cursor
    obtain ⟨z, hz, hid⟩ := exists_lastId hnil
    have hzmem := mem_beyond.mp (List.mem_of_mem_take hz)
    have hsub := beyond_sublist_of_le (Nat.le_of_lt (hid ▸ hzmem.2)) s.reviewEvents.rows
    have hlt : (beyond (lastId page) s.reviewEvents.rows).length <
        (beyond last s.reviewEvents.rows).length := by
      refine Nat.lt_of_le_of_ne hsub.length_le (fun h => ?_)
      have hin : z ∈ beyond (lastId page) s.reviewEvents.rows := by
        rw [hsub.eq_of_length h]
        exact List.mem_of_mem_take hz
      have := (mem_beyond.mp hin).2
      omega
    obtain ⟨n, items, hn⟩ := ih (lastId page)
      (tallyFrom ReviewEvent.card ReviewEvent.lapse totals page) (by omega)
    refine ⟨n + 1, items, ?_⟩
    rw [← hn]
    simp only [PruneRun.batches, PruneRun.next]
    rw [if_neg hnil, if_neg hshort]

theorem reconciling_ends (p : PruneParams) :
    ∀ (k : Nat) items (s : WordStore K), items.length ≤ k →
      ∃ n s', PruneRun.batches p n (.reconciling items, s) = (.deleting 0, s') ∧
        s'.reviewEvents = s.reviewEvents := by
  intro k
  induction k with
  | zero =>
    intro items s hk
    obtain rfl : items = [] := List.length_eq_zero_iff.mp (Nat.le_zero.mp hk)
    exact ⟨1, s, rfl, rfl⟩
  | succ k ih =>
    intro items s hk
    by_cases hnil : items = []
    · subst hnil
      exact ⟨1, s, rfl, rfl⟩
    have hpos := scan_pos p
    have hlen := List.length_pos_iff.mpr hnil
    obtain ⟨n, s', hn, hev⟩ := ih (items.drop p.scan) (s.reconcileCards (items.take p.scan))
      (by rw [List.length_drop]; omega)
    refine ⟨n + 1, s', ?_, by rw [hev, reviewEvents_reconcileCards]⟩
    rw [← hn]
    simp only [PruneRun.batches, PruneRun.next]
    rw [if_neg hnil]

theorem rows_deleteEvents (s : WordStore K) (chunk : List ReviewEvent) :
    (s.deleteEvents chunk).reviewEvents.rows = without chunk s.reviewEvents.rows := rfl

theorem deleting_ends (p : PruneParams) :
    ∀ (k last : Nat) (s : WordStore K), s.reviewEvents.rows.length ≤ k →
      ∃ n s', PruneRun.batches p n (.deleting last, s) = (.finished, s') ∧
        Deletes p last s.reviewEvents.rows s'.reviewEvents.rows := by
  intro k
  induction k with
  | zero =>
    intro last s hk
    have hnil : victimBatch p last s.reviewEvents.rows = [] := by
      rw [List.length_eq_zero_iff.mp (Nat.le_zero.mp hk)]
      simp [victimBatch, victimsIn, beyond]
    exact ⟨1, s, by simp only [PruneRun.batches, PruneRun.next]; rw [if_pos hnil],
      Deletes.none hnil⟩
  | succ k ih =>
    intro last s hk
    let chunk := victimBatch p last s.reviewEvents.rows
    by_cases hnil : chunk = []
    · exact ⟨1, s, by simp only [PruneRun.batches, PruneRun.next]; rw [if_pos hnil],
        Deletes.none hnil⟩
    by_cases hshort : chunk.length < p.scan
    · refine ⟨1, s.deleteEvents chunk, ?_, Deletes.short hshort⟩
      simp only [PruneRun.batches, PruneRun.next]
      rw [if_neg hnil, if_pos hshort]
    -- a full batch removes at least one row
    have hlt : (without chunk s.reviewEvents.rows).length < s.reviewEvents.rows.length := by
      refine Nat.lt_of_le_of_ne (List.length_filter_le _ _) (fun h => ?_)
      obtain ⟨z, hz, -⟩ := exists_lastId hnil
      have hkeep := List.length_filter_eq_length_iff.mp h z (mem_victimBatch hz).1
      have hgone : z ∉ without chunk s.reviewEvents.rows := fun hin => (mem_without.mp hin).2 z hz rfl
      exact hgone (List.mem_filter.mpr ⟨(mem_victimBatch hz).1, hkeep⟩)
    obtain ⟨n, s', hn, hd⟩ := ih (lastId chunk) (s.deleteEvents chunk)
      (by rw [rows_deleteEvents]; omega)
    refine ⟨n + 1, s', ?_, Deletes.full (Nat.le_of_not_lt hshort) hd⟩
    rw [← hn]
    simp only [PruneRun.batches, PruneRun.next]
    rw [if_neg hnil, if_neg hshort]

theorem exists_pruned (p : PruneParams) (s : WordStore K) :
    ∃ s', Pruned p s s' ∧ Deletes p 0 s.reviewEvents.rows s'.reviewEvents.rows := by
  obtain ⟨a, items, ha⟩ := scanning_ends p s _ 0 [] (Nat.le_refl _)
  obtain ⟨b, s₁, hb, hev⟩ := reconciling_ends p _ items s (Nat.le_refl _)
  obtain ⟨c, s', hc, hd⟩ := deleting_ends p _ 0 s₁ (Nat.le_refl _)
  refine ⟨s', ⟨a + (b + c), ?_⟩, by rw [← hev]; exact hd⟩
  rw [batches_add, batches_add, PruneRun.start, ha, hb, hc]

theorem survivors_eq (p : PruneParams) {rows : List ReviewEvent} (hs : IdSorted rows) :
    survivors p rows = without (victimsIn p rows) rows := by
  refine List.filter_congr (fun e he => ?_)
  congr 1
  rw [Bool.eq_iff_iff, List.any_eq_true, decide_eq_true_eq]
  constructor
  · exact fun h => ⟨e, mem_victimsIn.mpr ⟨he, h⟩, by simp⟩
  · rintro ⟨v, hv, hid⟩
    rw [← hs.eq_of_id (mem_victimsIn.mp hv).1 he (of_decide_eq_true hid)]
    exact (mem_victimsIn.mp hv).2

theorem Pruned.rows_eq_iff {p : PruneParams} {s s' : WordStore K} (h : Pruned p s s') :
    s'.reviewEvents.rows = survivors p s.reviewEvents.rows ↔ BatchSafe p s.reviewEvents.rows := by
  obtain ⟨s₁, h₁, hd⟩ := exists_pruned p s
  obtain rfl := h.unique h₁
  rw [survivors_eq p (idSorted_rows s), ← safeFrom_zero]
  have hstart : AtBoundary p s.reviewEvents.rows [] (victimsIn p s.reviewEvents.rows) :=
    ⟨rfl, Nat.dvd_zero _⟩
  refine hd.exact (idSorted_rows s) s.reviewEvents.positive hstart rfl ?_
  exact (List.filter_eq_self.mpr (fun e _ => rfl)).symm

theorem Pruned.keeps {p : PruneParams} {s s' : WordStore K} (h : Pruned p s s') {e : ReviewEvent}
    (he : e ∈ s.reviewEvents.rows)
    (hrank : (newestRank s.reviewEvents.rows e : Int) ≤ p.keepPerCard) :
    e ∈ s'.reviewEvents.rows := by
  obtain ⟨s₁, h₁, hd⟩ := exists_pruned p s
  obtain rfl := h.unique h₁
  have hall : beyond 0 s.reviewEvents.rows = s.reviewEvents.rows :=
    List.filter_eq_self.mpr (fun e he => decide_eq_true (s.reviewEvents.positive e he))
  exact hd.keeps (idSorted_rows s) he (by rw [hall]; exact hrank)

theorem BatchSafe.of_one {p : PruneParams} {rows : List ReviewEvent} {b : Int}
    (h : BatchSafe { p with batch := 1 } rows) : BatchSafe { p with batch := b } rows :=
  fun w hw v hv hlt _ => h w hw v hv hlt (Nat.one_dvd _)

theorem batchSafe_of_large {p : PruneParams} {rows : List ReviewEvent}
    (h : (victimsIn p rows).length < p.scan) : BatchSafe p rows := by
  intro w hw v hv hlt hdvd
  have hle : (victimsIn p rows).countP (fun x => x.id ≤ w.id) ≤ (victimsIn p rows).length :=
    List.countP_le_length
  have hzero := Nat.eq_zero_of_dvd_of_lt hdvd (by omega)
  exact absurd (decide_eq_true (Nat.le_refl w.id)) (List.countP_eq_zero.mp hzero w hw)

/-- **When a prune deletes exactly the victims.**  It always ends, and never
deletes one of the `keep_per_card` newest rows of a card; it leaves exactly the
survivors if and only if its batches are safe, and its result is independent of
the batch size if and only if batches of one are. -/
theorem prune_exact_iff (p : PruneParams) (s : WordStore K) :
    (∃ s', Pruned p s s') ∧
    (∀ s', Pruned p s s' →
      (s'.reviewEvents.rows = survivors p s.reviewEvents.rows ↔
        BatchSafe p s.reviewEvents.rows) ∧
      ∀ e ∈ s.reviewEvents.rows, (newestRank s.reviewEvents.rows e : Int) ≤ p.keepPerCard →
        e ∈ s'.reviewEvents.rows) ∧
    ((∀ (b c : Int) sb sc, Pruned { p with batch := b } s sb → Pruned { p with batch := c } s sc →
        sb.reviewEvents.rows = sc.reviewEvents.rows) ↔
      BatchSafe { p with batch := 1 } s.reviewEvents.rows) := by
  obtain ⟨s₁, h₁, -⟩ := exists_pruned p s
  refine ⟨⟨s₁, h₁⟩, fun s' h => ⟨h.rows_eq_iff, fun e he hr => h.keeps he hr⟩, ?_, ?_⟩
  · intro h
    let big : Int := (victimsIn p s.reviewEvents.rows).length + 1
    obtain ⟨sb, hb, -⟩ := exists_pruned { p with batch := big } s
    obtain ⟨sc, hc, -⟩ := exists_pruned { p with batch := 1 } s
    have hbig : BatchSafe { p with batch := big } s.reviewEvents.rows := by
      refine batchSafe_of_large ?_
      show (victimsIn p s.reviewEvents.rows).length < (max 1 big).toNat
      omega
    rw [← hc.rows_eq_iff, ← h big 1 sb sc hb hc]
    exact hb.rows_eq_iff.mpr hbig
  · intro h b c sb sc hb hc
    rw [hb.rows_eq_iff.mpr h.of_one, hc.rows_eq_iff.mpr h.of_one]
    rfl

/-- One card whose second event is older than its first and its third. -/
def backdatedStore : WordStore Int :=
  let s₀ : WordStore Int := ⟨SerialTable.empty, SerialTable.empty⟩
  let add := fun (s : WordStore Int) (time : Instant) =>
    s.insertReviewEvent 7 1 3 .srsReview "direct_button" none none time
  add (add (add s₀ 30) 10) 20

/-- Keep one event, everything is old, batches of one. -/
def keepOne : PruneParams where
  now := 100
  retentionDays := 0
  keepPerCard := 1
  batch := 1

/-- With batches of one, the third event is a victim that the prune misses. -/
theorem prune_misses_victim :
    ¬ (∀ (p : PruneParams) (s s' : WordStore Int), 1 ≤ p.batch → Pruned p s s' →
        s'.reviewEvents.rows = survivors p s.reviewEvents.rows) := by
  intro h
  have hrun := h keepOne backdatedStore
    (PruneRun.batches keepOne 8 (PruneRun.start, backdatedStore)).2 (by decide)
    ⟨8, Prod.ext (by decide) rfl⟩
  exact absurd hrun (by decide)

end HamZaboon
