import HamZaboon.Library.Ranking
import HamZaboon.Library.Recency
import HamZaboon.Library.Runs
import HamZaboon.Words.References
import Mathlib.Data.List.Chain

/-! # The cap of the query cache

`create_query_result` inserts a row and then cuts the unexpired rows of the user and the
language to the cap, by their age.  The clock is read twice, for the row and for the cut.

A run with a clock that does not go back keeps the cap in every state, and each call then
removes one row at most: the oldest one that is unexpired and not excluded (`cap_kept`).  Rows
that have expired and wait for the cleanup stay, however old they are (`expired_survives`).
-/

namespace HamZaboon
open Library

/-- A call of `create_query_result`, with the token it draws and the two times it reads. -/
structure CreateCall where
  token : String
  userId : UserId
  queryText : String
  word : String
  lang : String
  result : CardData
  ttl : Int
  exclude : Option String
  now : Instant
  checked : Instant
  later : now ≤ checked

section Calls
variable {K : Type} (lib : UnicodeLib)

def CreateCall.row (c : CreateCall) : QueryResult :=
  newQueryResult c.token c.userId (lib.normalizeWord c.queryText) (lib.normalizeWord c.word) c.lang
    c.result c.now (c.now + c.ttl * 1000000)

/-- `create_query_result` with its two times; a token that is taken fails the insert. -/
def QueryDb.create (db : QueryDb K) (c : CreateCall) : QueryDb K :=
  if db.queryResults.has c.token then db
  else { db with queryResults := db.queryResults.insertOrIgnore (c.row lib) }.enforceQueryResultsCap
    c.userId c.lang c.exclude c.checked

/-- What a call leaves of the cache. -/
structure CapKept (before after : QueryDb K) (c : CreateCall) : Prop where
  bound : (after.liveResults c.userId c.lang c.checked).length ≤ QueryDb.queryResultsCap
  inserted : before.queryResults.has c.token = false → c.row lib ∈ after.queryResults.rows
  excluded : ∀ q ∈ before.queryResults.rows, q.token ≠ "" → c.exclude = some q.token →
    c.checked < q.expiresAt → q ∈ after.queryResults.rows
  evicted : ∀ q ∈ before.queryResults.rows, q ∉ after.queryResults.rows → c.checked < q.expiresAt ∧
    ∀ s ∈ after.liveResults c.userId c.lang c.checked, c.exclude ≠ some s.token →
      q.createdAt ≤ s.createdAt
  others : ∀ q, q.userId ≠ c.userId ∨ q.lang ≠ c.lang →
    (q ∈ after.queryResults.rows ↔ q ∈ before.queryResults.rows)

/-- The clock does not go back from call to call. -/
def Timely (calls : List CreateCall) : Prop := calls.IsChain fun c d => c.checked ≤ d.now

instance : DecidablePred Timely := fun calls =>
  inferInstanceAs (Decidable (calls.IsChain fun c d => c.checked ≤ d.now))

end Calls

/-! ## The cut -/

namespace QueryDb
variable {K : Type} {db : QueryDb K} {userId : UserId} {lang : String} {exclude : Option String}
  {now : Instant}

/-- The live rows that may go. -/
def evictable (db : QueryDb K) (userId : UserId) (lang : String) (exclude : Option String)
    (now : Instant) : List QueryResult :=
  (db.liveResults userId lang now).filter fun q => exclude.all (fun t => t = "" || q.token ≠ t)

def victims (db : QueryDb K) (userId : UserId) (lang : String) (exclude : Option String)
    (now : Instant) : List QueryResult :=
  (sortBy QueryResult.createdAt (db.evictable userId lang exclude now)).take
    ((db.liveResults userId lang now).length - queryResultsCap)

theorem mem_liveResults {q : QueryResult} : q ∈ db.liveResults userId lang now ↔
    q ∈ db.queryResults.rows ∧ q.userId = userId ∧ q.lang = lang ∧ now < q.expiresAt := by
  simp [liveResults, and_assoc]

theorem victims_subset {q : QueryResult} (h : q ∈ db.victims userId lang exclude now) :
    q ∈ db.evictable userId lang exclude now :=
  (mem_sortBy _).mp (List.mem_of_mem_take h)

theorem mem_of_mem_evictable {q : QueryResult} (h : q ∈ db.evictable userId lang exclude now) :
    q ∈ db.liveResults userId lang now := List.mem_of_mem_filter h

theorem token_injective (db : QueryDb K) {q q' : QueryResult} (hq : q ∈ db.queryResults.rows)
    (hq' : q' ∈ db.queryResults.rows) (h : q.token = q'.token) : q = q' :=
  List.inj_on_of_nodup_map db.queryResults.pk hq hq' h

theorem rows_enforce : (db.enforceQueryResultsCap userId lang exclude now).queryResults.rows =
    db.queryResults.rows.filter fun q => q ∉ db.victims userId lang exclude now := by
  refine List.filter_congr fun q hq => ?_
  have hany : ((db.victims userId lang exclude now).any fun v => v.token = q.token) =
      decide (q ∈ db.victims userId lang exclude now) := by
    rw [Bool.eq_iff_iff, List.any_eq_true, decide_eq_true_eq]
    constructor
    · rintro ⟨v, hv, htoken⟩
      have hmem := (mem_liveResults.mp (mem_of_mem_evictable (victims_subset hv))).1
      exact db.token_injective hmem hq (of_decide_eq_true htoken) ▸ hv
    · exact fun hv => ⟨q, hv, by simp⟩
  rw [decide_not, ← hany]
  rfl

theorem mem_enforce {q : QueryResult} :
    q ∈ (db.enforceQueryResultsCap userId lang exclude now).queryResults.rows ↔
      q ∈ db.queryResults.rows ∧ q ∉ db.victims userId lang exclude now := by
  rw [rows_enforce, List.mem_filter, decide_eq_true_eq]

theorem nodup_liveResults (db : QueryDb K) (userId : UserId) (lang : String) (now : Instant) :
    ((db.liveResults userId lang now).map QueryResult.token).Nodup :=
  db.queryResults.pk.sublist (List.filter_sublist.map _)

theorem length_evictable (db : QueryDb K) (userId : UserId) (lang : String) (exclude : Option String)
    (now : Instant) : (db.liveResults userId lang now).length ≤
      (db.evictable userId lang exclude now).length + 1 := by
  unfold evictable
  cases exclude with
  | none => simp
  | some t =>
    by_cases ht : t = ""
    · simp [ht]
    · simpa [ht] using length_filter_ge (k := t) (db.nodup_liveResults userId lang now)

theorem length_victims (db : QueryDb K) (userId : UserId) (lang : String) (exclude : Option String)
    (now : Instant) : (db.victims userId lang exclude now).length =
      (db.liveResults userId lang now).length - queryResultsCap := by
  have hfew := db.length_evictable userId lang exclude now
  rw [victims, List.length_take, (sortBy_perm _ _).length_eq]
  refine min_eq_left ?_
  unfold queryResultsCap
  omega

theorem nodup_victims : (db.victims userId lang exclude now).Nodup := by
  have hlive : (db.liveResults userId lang now).Nodup := List.Nodup.of_map _ (db.nodup_liveResults userId lang now)
  have hsorted := (sortBy_perm QueryResult.createdAt (db.evictable userId lang exclude now)).nodup_iff
  exact (hsorted.mpr (hlive.filter _)).sublist (List.take_sublist _ _)

theorem liveResults_enforce : (db.enforceQueryResultsCap userId lang exclude now).liveResults userId lang now =
    (db.liveResults userId lang now).filter fun q => q ∉ db.victims userId lang exclude now := by
  rw [liveResults, rows_enforce, liveResults, List.filter_filter, List.filter_filter]
  exact List.filter_congr fun q _ => Bool.and_comm _ _

theorem length_liveResults_enforce :
    ((db.enforceQueryResultsCap userId lang exclude now).liveResults userId lang now).length ≤
      queryResultsCap := by
  have hsplit := (List.filter_append_perm (fun q => decide (q ∈ db.victims userId lang exclude now))
    (db.liveResults userId lang now)).length_eq
  have hgone : ((db.liveResults userId lang now).filter fun q =>
      decide (q ∈ db.victims userId lang exclude now)).length =
        (db.victims userId lang exclude now).length := by
    refine List.Perm.length_eq ((List.perm_ext_iff_of_nodup
      ((List.Nodup.of_map _ (db.nodup_liveResults userId lang now)).filter _) nodup_victims).mpr fun q => ?_)
    rw [List.mem_filter, decide_eq_true_eq]
    exact and_iff_right_of_imp fun h => mem_of_mem_evictable (victims_subset h)
  rw [List.length_append, hgone, length_victims] at hsplit
  rw [liveResults_enforce]
  simp only [decide_not]
  omega

theorem createdAt_le_of_victim {q s : QueryResult} (hq : q ∈ db.victims userId lang exclude now)
    (hs : s ∈ db.evictable userId lang exclude now) (hstays : s ∉ db.victims userId lang exclude now) :
    q.createdAt ≤ s.createdAt :=
  le_of_prefix_sortBy QueryResult.createdAt (List.take_prefix _ _) hq hs hstays

end QueryDb

/-! ## One call -/

namespace QueryDb
variable {K : Type} {lib : UnicodeLib} {db : QueryDb K} {c : CreateCall}

/-- The database with the row of a call, before the cut. -/
def withRow (lib : UnicodeLib) (db : QueryDb K) (c : CreateCall) : QueryDb K :=
  { db with queryResults := db.queryResults.insertOrIgnore (c.row lib) }

theorem rows_withRow (lib : UnicodeLib) (h : db.queryResults.has c.token = false) :
    (db.withRow lib c).queryResults.rows = db.queryResults.rows ++ [c.row lib] := by
  have hrows := db.queryResults.rows_insertOrIgnore (c.row lib)
  have htoken : (c.row lib).token = c.token := rfl
  rw [htoken, h] at hrows
  exact hrows

theorem create_of_fresh (h : db.queryResults.has c.token = false) : db.create lib c =
    (db.withRow lib c).enforceQueryResultsCap c.userId c.lang c.exclude c.checked := by
  rw [create, h]
  rfl

theorem create_of_taken (h : db.queryResults.has c.token = true) : db.create lib c = db := by
  rw [create, if_pos h]

/-- From the time `t` on no user and language has more than the cap, and no row is from after
`t`. -/
structure Capped (db : QueryDb K) (t : Instant) : Prop where
  bound : ∀ userId lang now, t ≤ now → (db.liveResults userId lang now).length ≤ queryResultsCap
  past : ∀ q ∈ db.queryResults.rows, q.createdAt ≤ t

theorem length_live_withRow (lib : UnicodeLib) (h : db.Capped c.now)
    (hfresh : db.queryResults.has c.token = false) :
    ((db.withRow lib c).liveResults c.userId c.lang c.checked).length ≤ queryResultsCap + 1 := by
  have hbound := h.bound c.userId c.lang c.checked c.later
  rw [liveResults, rows_withRow _ hfresh, List.filter_append, List.length_append]
  have hone : ([c.row lib].filter fun q =>
      q.userId = c.userId && q.lang = c.lang && c.checked < q.expiresAt).length ≤ 1 :=
    List.length_filter_le _ _
  unfold liveResults at hbound
  omega

theorem row_not_victim (h : db.Capped c.now) (hfresh : db.queryResults.has c.token = false) :
    c.row lib ∉ (db.withRow lib c).victims c.userId c.lang c.exclude c.checked := by
  intro hvictim
  have hnew : c.row lib ∉ db.queryResults.rows := fun hmem => by
    have hhas := KeyedTable.has_iff.mpr ⟨_, hmem, rfl⟩
    exact Bool.noConfusion (hhas.symm.trans hfresh)
  have hover := length_live_withRow lib h hfresh
  have hmost := (db.withRow lib c).length_evictable c.userId c.lang c.exclude c.checked
  have hcount := (db.withRow lib c).length_victims c.userId c.lang c.exclude c.checked
  have hpos := List.length_pos_of_mem hvictim
  have hstable := stable_sortBy QueryResult.createdAt
    ((db.withRow lib c).evictable c.userId c.lang c.exclude c.checked)
  have hlength := (sortBy_perm QueryResult.createdAt
    ((db.withRow lib c).evictable c.userId c.lang c.exclude c.checked)).length_eq
  have hmem : ∀ q ∈ sortBy QueryResult.createdAt
      ((db.withRow lib c).evictable c.userId c.lang c.exclude c.checked),
        q ∈ db.queryResults.rows ++ [c.row lib] := fun q hq => by
    rw [← rows_withRow _ hfresh]
    exact (mem_liveResults.mp (mem_of_mem_evictable ((mem_sortBy _).mp hq))).1
  have hone : ((db.withRow lib c).liveResults c.userId c.lang c.checked).length - queryResultsCap = 1 := by
    unfold queryResultsCap at hover hcount ⊢
    omega
  rw [victims, hone] at hvictim
  -- it would be the first of at least a hundred rows
  match hsorted : sortBy QueryResult.createdAt
      ((db.withRow lib c).evictable c.userId c.lang c.exclude c.checked) with
  | [] =>
    rw [hsorted] at hvictim
    cases hvictim
  | [_] =>
    rw [hsorted] at hlength
    unfold queryResultsCap at hone
    rw [List.length_singleton] at hlength
    omega
  | first :: second :: rest =>
    rw [hsorted] at hvictim hstable hmem
    obtain rfl : c.row lib = first := by simpa using hvictim
    have hsublist : ((db.withRow lib c).evictable c.userId c.lang c.exclude c.checked).Sublist
        (db.queryResults.rows ++ [c.row lib]) := by
      rw [← rows_withRow _ hfresh]
      exact List.filter_sublist.trans List.filter_sublist
    have hbehind : ∀ s, ¬ [c.row lib, s].Sublist (db.queryResults.rows ++ [c.row lib]) := by
      intro s hs
      obtain ⟨l₁, l₂, heq, hl₁, hl₂⟩ := List.sublist_append_iff.mp hs
      cases l₁ with
      | nil =>
        rw [List.nil_append] at heq
        subst heq
        exact absurd hl₂.length_le (by simp)
      | cons q l₁ =>
        obtain ⟨rfl, -⟩ := List.cons.inj heq
        exact hnew (hl₁.subset List.mem_cons_self)
    rcases (List.pairwise_cons.mp hstable).1 second List.mem_cons_self with hlt | ⟨-, hs⟩
    · rcases List.mem_append.mp (hmem second (by simp)) with hold | hnow
      · exact absurd hlt (not_lt.mpr (h.past second hold))
      · rw [List.mem_singleton] at hnow
        exact absurd hlt (by simp [hnow])
    · exact hbehind second (hs.trans hsublist)

theorem Capped.mono (h : db.Capped c.now) {t : Instant} (ht : c.now ≤ t) : db.Capped t :=
  ⟨fun userId lang now hnow => h.bound userId lang now (ht.trans hnow),
    fun q hq => (h.past q hq).trans ht⟩

theorem length_liveResults_mono (db : QueryDb K) (userId : UserId) (lang : String) {t t' : Instant}
    (h : t ≤ t') : (db.liveResults userId lang t').length ≤ (db.liveResults userId lang t).length := by
  refine (List.monotone_filter_right _ fun q hq => ?_).length_le
  simp only [Bool.and_eq_true, decide_eq_true_eq] at hq ⊢
  exact ⟨hq.1, lt_of_le_of_lt h hq.2⟩

theorem CapKept.of_create (lib : UnicodeLib) (h : db.Capped c.now) :
    CapKept lib db (db.create lib c) c := by
  cases hfresh : db.queryResults.has c.token with
  | true =>
    rw [create_of_taken hfresh]
    refine ⟨h.bound _ _ _ c.later, fun hno => ?_, fun q hq _ _ _ => hq, fun q hq hgone => absurd hq hgone,
      fun _ _ => Iff.rfl⟩
    rw [hfresh] at hno
    cases hno
  | false =>
    rw [create_of_fresh hfresh]
    have hrows := rows_withRow lib hfresh
    refine ⟨length_liveResults_enforce, fun _ => ?_, fun q hq hne hexclude hlive => ?_,
      fun q hq hgone => ?_, fun q hother => ?_⟩
    · exact mem_enforce.mpr ⟨by rw [hrows]; simp, row_not_victim h hfresh⟩
    · refine mem_enforce.mpr ⟨by rw [hrows]; exact List.mem_append_left _ hq, fun hv => ?_⟩
      have hmay := List.of_mem_filter (victims_subset hv)
      simp [hexclude, hne] at hmay
    · rw [mem_enforce, hrows, not_and_not_right] at hgone
      have hvictim := hgone (List.mem_append_left _ hq)
      obtain ⟨-, -, -, hlive⟩ := mem_liveResults.mp (mem_of_mem_evictable (victims_subset hvictim))
      refine ⟨hlive, fun s hs hne => ?_⟩
      rw [liveResults_enforce, List.mem_filter, decide_eq_true_eq] at hs
      refine createdAt_le_of_victim hvictim (List.mem_filter.mpr ⟨hs.1, ?_⟩) hs.2
      cases hexclude : c.exclude with
      | none => rfl
      | some t =>
        have hst : s.token ≠ t := fun heq => hne (by rw [hexclude, heq])
        simp [hst]
    · rw [mem_enforce, hrows, List.mem_append, List.mem_singleton]
      constructor
      · rintro ⟨hq | rfl, -⟩
        · exact hq
        · exact absurd rfl (hother.resolve_left fun hne => hne rfl)
      · refine fun hq => ⟨.inl hq, fun hv => ?_⟩
        obtain ⟨-, huser, hlang, -⟩ := mem_liveResults.mp (mem_of_mem_evictable (victims_subset hv))
        exact hother.elim (fun hne => hne huser) fun hne => hne hlang

theorem Capped.create (h : db.Capped c.now) : (db.create lib c).Capped c.checked := by
  have hkept := CapKept.of_create lib h
  cases hfresh : db.queryResults.has c.token with
  | true =>
    rw [create_of_taken hfresh]
    exact h.mono c.later
  | false =>
    refine ⟨fun userId lang now hnow => ?_, fun q hq => ?_⟩
    · by_cases hsame : userId = c.userId ∧ lang = c.lang
      · obtain ⟨rfl, rfl⟩ := hsame
        exact (length_liveResults_mono _ _ _ hnow).trans hkept.bound
      · have hsublist : ((db.create lib c).liveResults userId lang now).Sublist
            (db.liveResults userId lang now) := by
          rw [create_of_fresh hfresh, liveResults, rows_enforce, rows_withRow _ hfresh, liveResults]
          refine (List.filter_sublist.filter _).trans ?_
          have hnone : [c.row lib].filter (fun q => q.userId = userId && q.lang = lang &&
              now < q.expiresAt) = [] := by
            have hne : ¬ (c.userId = userId ∧ c.lang = lang) := fun hsame' =>
              hsame ⟨hsame'.1.symm, hsame'.2.symm⟩
            rw [not_and] at hne
            by_cases huser : c.userId = userId
            · simp [CreateCall.row, newQueryResult, huser, hne huser]
            · simp [CreateCall.row, newQueryResult, huser]
          rw [List.filter_append, hnone, List.append_nil]
        exact hsublist.length_le.trans (h.bound userId lang now (c.later.trans hnow))
    · rw [create_of_fresh hfresh, mem_enforce, rows_withRow _ hfresh, List.mem_append,
        List.mem_singleton] at hq
      rcases hq.1 with hold | rfl
      · exact (h.past q hold).trans c.later
      · exact c.later

/-! ## Runs -/

theorem meets_capKept {calls : List CreateCall} {t : Instant} {db : QueryDb K} (h : db.Capped t)
    (hfirst : ∀ c ∈ calls.head?, t ≤ c.now) (htimely : Timely calls) :
    Meets (QueryDb.create lib) (fun db c => CapKept lib db (db.create lib c) c) db calls := by
  induction calls generalizing t db with
  | nil => trivial
  | cons c calls ih =>
    have hnow : db.Capped c.now :=
      ⟨fun userId lang now hnow => h.bound userId lang now ((hfirst c rfl).trans hnow),
        fun q hq => (h.past q hq).trans (hfirst c rfl)⟩
    obtain ⟨hnext, htimely⟩ := List.isChain_cons.mp htimely
    exact ⟨CapKept.of_create _ hnow, ih hnow.create hnext htimely⟩

end QueryDb

/-- **From an empty cache on, every call keeps the cap, the new row and the excluded one, and evicts
the oldest of the unexpired rows.** -/
theorem cap_kept {K : Type} (lib : UnicodeLib) {db : QueryDb K} (hempty : db.queryResults.rows = [])
    {calls : List CreateCall} (htimely : Timely calls) :
    Meets (QueryDb.create lib) (fun db c => CapKept lib db (db.create lib c) c) db calls := by
  have hcapped : ∀ t, db.Capped t := fun t =>
    ⟨fun userId lang now _ => by simp [QueryDb.liveResults, hempty], by simp [hempty]⟩
  cases calls with
  | nil => trivial
  | cons c calls =>
    refine QueryDb.meets_capKept (hcapped c.now) ?_ htimely
    rintro _ ⟨⟩
    exact le_rfl

/-- A call for one user and language. -/
def capCall (token : String) (ttl : Int) (exclude : Option String) (now : Instant) : CreateCall :=
  ⟨token, 7, "Haus", "Haus", "german", {}, ttl, exclude, now, now, le_rfl⟩

/-- Two calls, the second with the row of the first excluded. -/
theorem cap_kept_alias : Meets (QueryDb.create .ascii)
    (fun db c => CapKept .ascii db (db.create .ascii c) c) freshQueryDb
      [capCall "a" 60 none 0, capCall "b" 60 (some "a") 5] :=
  cap_kept .ascii rfl (by decide)

/-- A row that expires after a second, and later a hundred more. -/
def expiredThenFull : List CreateCall :=
  capCall "early" 1 none 0 ::
    (List.range 100).map fun n => capCall (String.ofList (List.replicate n 'x')) 60 none (2000000 + n)

/-- One more row, after which the hundred are too many. -/
def oneTooMany : CreateCall := capCall "last" 60 none 2000100

/-- The oldest row of the user and the language has expired and stays, and a younger one goes. -/
theorem expired_survives : Timely (expiredThenFull ++ [oneTooMany]) ∧
    ¬ Meets (QueryDb.create .ascii) (fun db c => ∀ q ∈ db.queryResults.rows,
      q ∉ (db.create .ascii c).queryResults.rows → ∀ s ∈ (db.create .ascii c).queryResults.rows,
        s.userId = c.userId → s.lang = c.lang → c.exclude ≠ some s.token → q.createdAt ≤ s.createdAt)
      freshQueryDb (expiredThenFull ++ [oneTooMany]) := by
  refine ⟨by decide +kernel, fun h => ?_⟩
  have hlast := ((meets_append (QueryDb.create .ascii)).mp h).2.1
  revert hlast
  decide +kernel

end HamZaboon
