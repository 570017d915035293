import HamZaboon.Quota.Daily
import HamZaboon.Library.Runs

/-! # Daily quotas across midnight

A reservation and its release are two calls with other work, and possibly
midnight, between them.  A release always decrements the counter of the day it
runs on, so a release that comes after midnight refunds a unit of the new day,
unless nothing was used on it.  `QuotaSystem` runs reservations and releases of
every user with day changes in between and remembers which day each reservation
was made on; the counters are exact as long as releases are `Timely`.
-/

namespace HamZaboon
open Library

inductive Quota
  | session
  | wordQuery
  | grammarTip
  deriving DecidableEq, Repr

def QuotaStore.used (s : QuotaStore) (q : Quota) (u : UserId) (d : Day) : Int :=
  match q with
  | .session => s.slotsUsed u d
  | .wordQuery => wordColumns.used s u d
  | .grammarTip => grammarColumns.used s u d

/-- The family's `reserve`.  A session slot has no bypass. -/
def QuotaStore.reserve (s : QuotaStore) (q : Quota) (today : Day) (u : UserId) (limit : Int)
    (bypass : Bool) : QuotaStore × Bool :=
  match q with
  | .session => s.consumeSessionSlot today u limit
  | .wordQuery => s.reserveWordQuery today u limit bypass
  | .grammarTip => s.reserveGrammarTip today u limit bypass

/-- The family's `release`. -/
def QuotaStore.release (s : QuotaStore) (q : Quota) (today : Day) (u : UserId) : QuotaStore :=
  match q with
  | .session => s.releaseSessionSlot today u
  | .wordQuery => s.releaseWordQuery today u
  | .grammarTip => s.releaseGrammarTip today u

/-- One granted unit: its family, its user and the day it was granted on. -/
structure Reservation where
  quota : Quota
  userId : UserId
  day : Day
  deriving DecidableEq, Repr

/-- The store, the day, the reservations that may still be released, and what was
granted and released so far. -/
structure QuotaSystem where
  store : QuotaStore
  today : Day
  inFlight : List Reservation
  granted : List Reservation
  released : List Reservation

inductive QuotaEvent
  | reserve (q : Quota) (u : UserId) (limit : Int) (bypass : Bool)
  /-- The `i`-th reservation in flight is given back. -/
  | release (i : Nat)
  | nextDay

def QuotaSystem.step (s : QuotaSystem) : QuotaEvent → QuotaSystem
  | .reserve q u limit bypass =>
      match s.store.reserve q s.today u limit bypass with
      | (store, true) =>
          { s with
            store := store
            inFlight := s.inFlight ++ [⟨q, u, s.today⟩]
            granted := s.granted ++ [⟨q, u, s.today⟩] }
      | (_, false) => s
  | .release i =>
      match s.inFlight[i]? with
      | none => s
      | some r =>
          { s with
            store := s.store.release r.quota s.today r.userId
            inFlight := s.inFlight.eraseIdx i
            released := s.released ++ [r] }
  | .nextDay => { s with today := s.today + 1 }

/-- Grants of today less the releases of grants of today. -/
def QuotaSystem.outstanding (s : QuotaSystem) (q : Quota) (u : UserId) : Int :=
  s.granted.count ⟨q, u, s.today⟩ - s.released.count ⟨q, u, s.today⟩

/-- Today's counters are what is outstanding, and never negative. -/
def QuotaSystem.Exact (s : QuotaSystem) : Prop :=
  ∀ q u, s.store.used q u s.today = s.outstanding q u ∧ 0 ≤ s.store.used q u s.today

/-- Nothing was granted yet, and nothing is counted today or later. -/
structure QuotaSystem.Fresh (s : QuotaSystem) : Prop where
  inFlight : s.inFlight = []
  granted : s.granted = []
  released : s.released = []
  used : ∀ q u d, s.today ≤ d → s.store.used q u d = 0

/-- A reservation of an earlier day is given back only while nothing is counted
today. -/
def QuotaSystem.Timely (s : QuotaSystem) : QuotaEvent → Prop
  | .release i =>
      ∀ r, s.inFlight[i]? = some r → r.day = s.today ∨ s.store.used r.quota r.userId s.today = 0
  | _ => True

/-! ## One operation -/

/-- The columns of the two families of a user's row are different columns. -/
structure Apart (c c' : DailyColumns) : Prop where
  count : ∀ u n d, c'.count (c.set u n d) = c'.count u
  date : ∀ u n d, c'.date (c.set u n d) = c'.date u

theorem word_apart_grammar : Apart wordColumns grammarColumns := ⟨fun _ _ _ => rfl, fun _ _ _ => rfl⟩

theorem grammar_apart_word : Apart grammarColumns wordColumns := ⟨fun _ _ _ => rfl, fun _ _ _ => rfl⟩

section Columns
variable {c c' : DailyColumns} {s s' : QuotaStore} {today : Day} {u : UserId} {limit : Int}
  {bypass : Bool}

theorem used_eq_of_lookup {s s' : QuotaStore} {v : UserId}
    (h : s'.users.lookup v = s.users.lookup v) (d : Day) : c.used s' v d = c.used s v d := by
  unfold DailyColumns.used
  rw [h]

theorem used_reserve_granted (h : c.reserve s today u limit bypass = (s', true))
    (hlater : ∀ d, today < d → c.used s u d = 0) (v : UserId) {d : Day} (hd : today ≤ d) :
    c.used s' v d = c.used s v d + if v = u ∧ d = today then 1 else 0 := by
  obtain ⟨-, -, row, hrow, hlook⟩ := reserve_granted h
  by_cases hv : v = u
  · subst hv
    have hnew : c.used s' v d = if d = today then c.used s v today + 1 else 0 := by
      unfold DailyColumns.used
      rw [hlook v, if_pos rfl]
      simp only [Option.map_some, Option.getD_some, currentDailyCount, c.count_set, c.date_set,
        Option.some.injEq, eq_comm (a := today)]
      rfl
    rw [hnew]
    by_cases hdt : d = today
    · simp [hdt]
    · have hlt : today < d := Int.lt_iff_le_and_ne.mpr ⟨hd, Ne.symm hdt⟩
      simp [hdt, hlater d hlt]
  · have hsame : c.used s' v d = c.used s v d :=
      used_eq_of_lookup (by rw [hlook v, if_neg hv]) d
    simp [hv, hsame]

theorem used_reserve_apart (ha : Apart c c') (h : c.reserve s today u limit bypass = (s', true))
    (v : UserId) (d : Day) : c'.used s' v d = c'.used s v d := by
  obtain ⟨-, -, row, hrow, hlook⟩ := reserve_granted h
  by_cases hv : v = u
  · subst hv
    unfold DailyColumns.used
    rw [hlook v, if_pos rfl, hrow]
    simp only [Option.map_some, Option.getD_some, ha.count, ha.date]
  · exact used_eq_of_lookup (by rw [hlook v, if_neg hv]) d

theorem used_release (h : 0 ≤ c.used s u today) (v : UserId) (d : Day) :
    c.used (c.release s today u) v d =
      if v = u ∧ d = today then max (c.used s u today - 1) 0 else c.used s v d := by
  by_cases hv : v = u
  · subst hv
    unfold DailyColumns.used at h ⊢
    rw [lookup_release]
    cases hl : s.users.lookup v with
    | none =>
      show (0 : Int) = if v = v ∧ d = today then max (0 - 1) 0 else 0
      split <;> rfl
    | some row =>
      rw [hl] at h
      simp only [Option.map_some, Option.getD_some, if_true, true_and] at h ⊢
      exact count_decrement row d h
  · rw [used_eq_of_lookup, if_neg (fun h => hv h.1)]
    rw [lookup_release]
    cases s.users.lookup v <;> simp [hv]

theorem used_release_apart (ha : Apart c c') (v : UserId) (d : Day) :
    c'.used (c.release s today u) v d = c'.used s v d := by
  unfold DailyColumns.used
  rw [lookup_release]
  cases s.users.lookup v with
  | none => rfl
  | some row =>
    simp only [Option.map_some, Option.getD_some]
    split
    · have hcd : c'.count (c.decrement today row) = c'.count row ∧
          c'.date (c.decrement today row) = c'.date row := by
        unfold DailyColumns.decrement
        split
        · split
          · exact ⟨ha.count _ _ _, ha.date _ _ _⟩
          · exact ⟨rfl, rfl⟩
        · exact ⟨rfl, rfl⟩
      rw [hcd.1, hcd.2]
    · rfl

end Columns

theorem used_of_reserve {s s' : QuotaStore} {q : Quota} {today : Day} {u : UserId} {limit : Int}
    {bypass : Bool} (h : s.reserve q today u limit bypass = (s', true))
    (hlater : ∀ d, today < d → s.used q u d = 0) (q' : Quota) (v : UserId) {d : Day}
    (hd : today ≤ d) :
    s'.used q' v d =
      s.used q' v d + if (⟨q', v, d⟩ : Reservation) = ⟨q, u, today⟩ then 1 else 0 := by
  simp only [Reservation.mk.injEq]
  cases q with
  | session =>
    obtain ⟨-, rfl⟩ := consumeSessionSlot_granted h
    cases q' with
    | session =>
      simp only [QuotaStore.used, slotsUsed_setSlots, Prod.mk.injEq, true_and]
      by_cases hk : u = v ∧ today = d
      · obtain ⟨rfl, rfl⟩ := hk
        simp
      · rw [if_neg hk, if_neg (fun h => hk ⟨h.1.symm, h.2.symm⟩), Int.add_zero]
    | wordQuery => simp [QuotaStore.used, DailyColumns.used]
    | grammarTip => simp [QuotaStore.used, DailyColumns.used]
  | wordQuery =>
    have hslots := (reserve_granted h).2.1
    cases q' with
    | session => simp [QuotaStore.used, QuotaStore.slotsUsed, hslots]
    | wordQuery => simpa [QuotaStore.used] using used_reserve_granted h hlater v hd
    | grammarTip => simpa [QuotaStore.used] using used_reserve_apart word_apart_grammar h v d
  | grammarTip =>
    have hslots := (reserve_granted h).2.1
    cases q' with
    | session => simp [QuotaStore.used, QuotaStore.slotsUsed, hslots]
    | wordQuery => simpa [QuotaStore.used] using used_reserve_apart grammar_apart_word h v d
    | grammarTip => simpa [QuotaStore.used] using used_reserve_granted h hlater v hd

theorem used_lt_of_reserve {s s' : QuotaStore} {q : Quota} {today : Day} {u : UserId} {limit : Int}
    (h : s.reserve q today u limit false = (s', true)) (hlim : 0 ≤ limit) :
    s.used q u today < limit := by
  cases q with
  | session => exact (consumeSessionSlot_granted h).1
  | wordQuery => exact (reserve_granted h).1 rfl hlim
  | grammarTip => exact (reserve_granted h).1 rfl hlim

theorem used_of_release {s : QuotaStore} {q : Quota} {today : Day} {u : UserId}
    (h : 0 ≤ s.used q u today) (q' : Quota) (v : UserId) (d : Day) :
    (s.release q today u).used q' v d =
      if (⟨q', v, d⟩ : Reservation) = ⟨q, u, today⟩ then max (s.used q u today - 1) 0
      else s.used q' v d := by
  simp only [Reservation.mk.injEq]
  cases q with
  | session =>
    cases q' with
    | session =>
      simp only [QuotaStore.used, QuotaStore.release, true_and]
      rw [slotsUsed_release h]
      simp only [Prod.mk.injEq, eq_comm (a := u), eq_comm (a := today)]
    | wordQuery => simp [QuotaStore.used, DailyColumns.used, QuotaStore.release]
    | grammarTip => simp [QuotaStore.used, DailyColumns.used, QuotaStore.release]
  | wordQuery =>
    cases q' with
    | session => simp [QuotaStore.used, QuotaStore.slotsUsed, QuotaStore.release,
        QuotaStore.releaseWordQuery, DailyColumns.release]
    | wordQuery =>
      simpa [QuotaStore.used, QuotaStore.release, QuotaStore.releaseWordQuery] using
        used_release (c := wordColumns) h v d
    | grammarTip =>
      simpa [QuotaStore.used, QuotaStore.release, QuotaStore.releaseWordQuery] using
        used_release_apart word_apart_grammar v d
  | grammarTip =>
    cases q' with
    | session => simp [QuotaStore.used, QuotaStore.slotsUsed, QuotaStore.release,
        QuotaStore.releaseGrammarTip, DailyColumns.release]
    | wordQuery =>
      simpa [QuotaStore.used, QuotaStore.release, QuotaStore.releaseGrammarTip] using
        used_release_apart grammar_apart_word v d
    | grammarTip =>
      simpa [QuotaStore.used, QuotaStore.release, QuotaStore.releaseGrammarTip] using
        used_release (c := grammarColumns) h v d

/-! ## Runs -/

/-- The invariant of timely runs: today's counters and those of later days count
what is in flight. -/
structure QuotaSystem.Sound (s : QuotaSystem) : Prop where
  settled : ∀ r, s.granted.count r = s.released.count r + s.inFlight.count r
  past : ∀ r ∈ s.inFlight, r.day ≤ s.today
  used : ∀ q u d, s.today ≤ d → s.store.used q u d = s.inFlight.count ⟨q, u, d⟩

theorem QuotaSystem.Sound.exact {s : QuotaSystem} (h : s.Sound) : s.Exact := by
  intro q u
  have hs := h.settled ⟨q, u, s.today⟩
  rw [h.used q u s.today (Int.le_refl _), QuotaSystem.outstanding]
  omega

theorem QuotaSystem.Fresh.sound {s : QuotaSystem} (h : s.Fresh) : s.Sound where
  settled r := by rw [h.granted, h.released, h.inFlight]; rfl
  past r hr := by rw [h.inFlight] at hr; cases hr
  used q u d hd := by rw [h.used q u d hd, h.inFlight]; rfl

theorem QuotaSystem.Sound.later {s : QuotaSystem} (h : s.Sound) (q : Quota) (u : UserId) {d : Day}
    (hd : s.today < d) : s.store.used q u d = 0 := by
  rw [h.used q u d (Int.le_of_lt hd), List.count_eq_zero_of_not_mem]
  · rfl
  · intro hmem
    exact absurd hd (Int.not_lt.mpr (h.past _ hmem))

theorem QuotaSystem.Sound.reserve {s : QuotaSystem} (h : s.Sound) (q : Quota) (u : UserId)
    (limit : Int) (bypass : Bool) : (s.step (.reserve q u limit bypass)).Sound := by
  cases hr : s.store.reserve q s.today u limit bypass with
  | mk store ok =>
    cases ok with
    | false =>
      simp only [QuotaSystem.step, hr]
      exact h
    | true =>
      simp only [QuotaSystem.step, hr]
      constructor
      · intro r
        simp only [List.count_append, h.settled r]
        omega
      · intro r hr
        rcases List.mem_append.mp hr with hr | hr
        · exact h.past r hr
        · obtain rfl := List.mem_singleton.mp hr
          exact Int.le_refl _
      · intro q' v d hd
        rw [used_of_reserve hr (fun d hd => h.later q u hd) q' v hd, h.used q' v d hd,
          List.count_append, List.count_singleton]
        simp only [beq_iff_eq, eq_comm (a := (⟨q, u, s.today⟩ : Reservation))]
        split <;> simp

theorem QuotaSystem.Sound.nextDay {s : QuotaSystem} (h : s.Sound) : (s.step .nextDay).Sound where
  settled := h.settled
  past r hr := Int.le_trans (h.past r hr) (Int.le_add_one (Int.le_refl _))
  used q u d hd := h.used q u d (Int.le_trans (Int.le_add_one (Int.le_refl _)) hd)

theorem count_eraseIdx {l : List Reservation} {i : Nat} {r : Reservation} (h : l[i]? = some r)
    (x : Reservation) : l.count x = (l.eraseIdx i).count x + if r = x then 1 else 0 := by
  induction l generalizing i with
  | nil => cases h
  | cons y l ih =>
    cases i with
    | zero =>
      obtain rfl := Option.some.inj h
      rw [List.eraseIdx_cons_zero, List.count_cons]
      simp only [beq_iff_eq]
    | succ i =>
      rw [List.eraseIdx_cons_succ, List.count_cons, List.count_cons, ih h]
      omega

theorem QuotaSystem.Sound.release {s : QuotaSystem} (h : s.Sound) {i : Nat}
    (ht : s.Timely (.release i)) : (s.step (.release i)).Sound := by
  cases hi : s.inFlight[i]? with
  | none =>
    simp only [QuotaSystem.step, hi]
    exact h
  | some r =>
    simp only [QuotaSystem.step, hi]
    have hused : 0 ≤ s.store.used r.quota r.userId s.today := by
      rw [h.used _ _ _ (Int.le_refl _)]
      exact Int.natCast_nonneg _
    constructor
    · intro x
      have hs := h.settled x
      rw [count_eraseIdx hi x] at hs
      simp only [List.count_append, List.count_singleton, beq_iff_eq]
      omega
    · exact fun x hx => h.past x (List.mem_of_mem_eraseIdx hx)
    · intro q v d hd
      have hcount := count_eraseIdx hi ⟨q, v, d⟩
      simp only [used_of_release hused]
      by_cases hx : (⟨q, v, d⟩ : Reservation) = ⟨r.quota, r.userId, s.today⟩
      · obtain ⟨rfl, rfl, rfl⟩ := Reservation.mk.inj hx
        have hcounted := h.used r.quota r.userId s.today (Int.le_refl _)
        rw [if_pos rfl]
        rcases ht r hi with hday | hzero
        · -- a release of today: the counter was positive
          have hr : r = ⟨r.quota, r.userId, s.today⟩ := by rw [← hday]
          rw [if_pos hr] at hcount
          omega
        · omega
      · rw [if_neg hx, h.used q v d hd]
        have hr : ¬ r = ⟨q, v, d⟩ := by
          rintro rfl
          have hday : d = s.today := Int.le_antisymm (h.past _ (List.mem_of_getElem? hi)) hd
          exact hx (congrArg (Reservation.mk q v) hday)
        rw [if_neg hr] at hcount
        omega

theorem QuotaSystem.Sound.step {s : QuotaSystem} (h : s.Sound) (e : QuotaEvent) (ht : s.Timely e) :
    (s.step e).Sound := by
  cases e with
  | reserve q u limit bypass => exact h.reserve q u limit bypass
  | release i => exact h.release ht
  | nextDay => exact h.nextDay

/-- The event asks for units of `q` and `u` under limits up to `limit` only. -/
def QuotaEvent.Within (q : Quota) (u : UserId) (limit : Int) : QuotaEvent → Prop
  | .reserve q' u' limit' bypass =>
      (⟨q', u'⟩ : Quota × UserId) = (q, u) → bypass = false ∧ 0 ≤ limit' ∧ limit' ≤ limit
  | _ => True

theorem QuotaSystem.Sound.within_step {s : QuotaSystem} (h : s.Sound) {e : QuotaEvent}
    (ht : s.Timely e) {q : Quota} {u : UserId} {limit : Int} (hlim : 0 ≤ limit)
    (hw : e.Within q u limit) (hb : s.store.used q u s.today ≤ limit) :
    (s.step e).store.used q u (s.step e).today ≤ limit := by
  cases e with
  | reserve q' u' limit' bypass =>
    cases hr : s.store.reserve q' s.today u' limit' bypass with
    | mk store ok =>
      cases ok with
      | false =>
        simp only [QuotaSystem.step, hr]
        exact hb
      | true =>
        simp only [QuotaSystem.step, hr]
        rw [used_of_reserve hr (fun d hd => h.later q' u' hd) q u (Int.le_refl _)]
        split
        · rename_i heq
          obtain ⟨rfl, rfl, -⟩ := Reservation.mk.inj heq
          obtain ⟨rfl, hpos, hle⟩ := hw rfl
          have := used_lt_of_reserve hr hpos
          omega
        · omega
  | release i =>
    cases hi : s.inFlight[i]? with
    | none =>
      simp only [QuotaSystem.step, hi]
      exact hb
    | some r =>
      simp only [QuotaSystem.step, hi]
      have hused : 0 ≤ s.store.used r.quota r.userId s.today := by
        rw [h.used _ _ _ (Int.le_refl _)]
        exact Int.natCast_nonneg _
      rw [used_of_release hused]
      split
      · rename_i heq
        obtain ⟨rfl, rfl, -⟩ := Reservation.mk.inj heq
        omega
      · exact hb
  | nextDay =>
    have hnext : s.store.used q u (s.today + 1) = 0 := h.later q u (Int.lt_succ _)
    show s.store.used q u (s.today + 1) ≤ limit
    omega

end HamZaboon
