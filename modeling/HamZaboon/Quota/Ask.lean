import HamZaboon.Quota.Midnight

/-! # The word-query operation

`ask` of `services/word_query.py`: registration guard, validation, duplicate
check, reservation, AI card, cached-word check, persistence, usage line.  Every
call it awaits may return or raise; `AskWorld` says what each of them does, so a
run of `ask` is a function of the store and the world.  What is of interest is
how often the reserved unit is given back.
-/

namespace HamZaboon
open Library

/-- The exceptions `ask` tells apart. -/
inductive Exn
  | timeout
  | cardPreparation
  | sqlite
  | other
  /-- A `BaseException` that is not an `Exception`, such as a cancelled task. -/
  | cancelled
  deriving DecidableEq, Repr

/-- Whether `except Exception` catches it. -/
def Exn.caught : Exn → Bool
  | .cancelled => false
  | _ => true

/-- How a transaction run in a worker thread ends for its caller. -/
inductive WriteEnd
  | done
  /-- It raised and wrote nothing. -/
  | lost (e : Exn)
  /-- It committed, and the awaiting task was interrupted. -/
  | doneThenRaised (e : Exn)
  deriving DecidableEq, Repr

/-- A Python value where a card dictionary is expected. -/
inductive AiValue
  /-- `None`, an empty text, an empty list, zero or `False`. -/
  | falsy
  /-- Any other value that is not a dictionary. -/
  | truthy
  | dict (card : CardData)
  deriving DecidableEq, Repr

/-- The card, if the value is a dictionary with a word. -/
def AiValue.usable : AiValue → Option CardData
  | .dict card => if card.wordText = "" then none else some card
  | _ => none

/-- `json.loads` of a stored result. -/
inductive JsonLoad
  /-- One of the errors `ask` catches. -/
  | corrupt
  | raised (e : Exn)
  | value (v : AiValue)
  deriving DecidableEq, Repr

/-- A row `find_unexpired_query_by_word` returns. -/
structure CachedRow where
  token : String
  word : String
  resultJson : JsonLoad
  deriving DecidableEq, Repr

/-- `AskResult.kind`. -/
inductive AskKind
  | ok
  | duplicate
  | invalidInput
  | registrationRequired
  | quotaExhausted
  | aiTimeout
  | aiError
  | cardPrepError
  | persistError
  deriving DecidableEq, Repr

structure AskResult where
  kind : AskKind
  token : Option String := none
  cardData : Option CardData := none
  usageText : Option String := none
  errorKey : Option String := none
  deriving DecidableEq, Repr

/-- What every call of one `ask` does. -/
structure AskWorld where
  /-- The days the reservation, the release and the usage line read. -/
  reserveDay : Day
  releaseDay : Day
  usageDay : Day
  getUser : Option Exn
  /-- `validate_word_query` of the text. -/
  errorKey : Option String
  findDuplicate : Except Exn (Option String)
  /-- `daily_word_query_limit_for_plan`. -/
  limit : String → Int
  bypassLimits : Bool
  reserve : WriteEnd
  generateCard : Except Exn AiValue
  release : WriteEnd
  findByWord : Except Exn (Option CachedRow)
  createAlias : Except Exn String
  createQueryResult : Except Exn String
  touchStreak : Except Exn Unit
  getUserAgain : Option Exn
  usageText : Option Exn

/-- How a run ended: the store, whether a unit was reserved, how often it was
given back, and what the caller sees. -/
structure AskRun where
  store : QuotaStore
  reserved : Bool
  releases : Nat
  outcome : Except Exn AskResult

/-- `plan or "free"`. -/
def User.planOrFree (row : User) : String :=
  if row.plan.getD "" = "" then "free" else row.plan.getD ""

def wordQueryUsageText (row : User) (limit : String → Int) (today : Day) : String :=
  let used := currentDailyCount row.wordsAskedToday row.wordsAskedDate today
  let limit := limit row.planOrFree
  if limit < 0 then s!"📊 استفاده امروز: {used} / نامحدود"
  else s!"📊 استفاده امروز: {used}/{limit} · باقی‌مانده: {max (limit - used) 0}"

def formatUsage (row : Option User) (limits : String → Int) (limit : Int) (today : Day) : String :=
  match row with
  | none => s!"📊 استفاده امروز: 1/{limit}"
  | some row => wordQueryUsageText row limits today

section Ask
variable (w : AskWorld) (userId : UserId)

/-- A run that reserved and raised without giving back. -/
def raised (s : QuotaStore) (e : Exn) : AskRun := ⟨s, true, 0, .error e⟩

/-- `release_word_query`, then `next` on the store it leaves. -/
def releaseThen (s : QuotaStore) (next : Except Exn AskResult) : AskRun :=
  match w.release with
  | .done => ⟨s.releaseWordQuery w.releaseDay userId, true, 1, next⟩
  | .lost e => ⟨s, true, 0, .error e⟩
  | .doneThenRaised e => ⟨s.releaseWordQuery w.releaseDay userId, true, 1, .error e⟩

/-- `release_word_query`, and the result `kind`. -/
def failWith (s : QuotaStore) (kind : AskKind) : AskRun :=
  releaseThen w userId s (.ok { kind := kind })

/-- The last part: persistence and the usage line. -/
def persist (s : QuotaStore) (limit : Int) (card : CardData) : AskRun :=
  match w.createQueryResult with
  | .error e => if e.caught then failWith w userId s .persistError else raised s e
  | .ok token =>
      match w.touchStreak with
      | .error e => if e.caught then failWith w userId s .persistError else raised s e
      | .ok () =>
          match w.getUserAgain with
          | some e => raised s e
          | none =>
              match w.usageText with
              | some e => raised s e
              | none =>
                  ⟨s, true, 0, .ok
                    { kind := .ok
                      token := some token
                      cardData := some card
                      usageText := some
                        (formatUsage (s.users.lookup userId) w.limit limit w.usageDay) }⟩

/-- The word is cached: give the unit back and alias the text. -/
def duplicateOf (s : QuotaStore) (row : CachedRow) : AskRun :=
  releaseThen w userId s
    (match w.createAlias with
    | .error .sqlite => .ok { kind := .duplicate, token := some row.token }
    | .error e => .error e
    | .ok _ => .ok { kind := .duplicate, token := some row.token })

/-- The cached row, when its stored card is usable. -/
def CachedRow.usable (row : CachedRow) : Bool :=
  match row.resultJson with
  | .value v => v.usable.isSome
  | _ => false

/-- From a usable card on. -/
def withCard (s : QuotaStore) (limit : Int) (skipDuplicate : Bool) (card : CardData) : AskRun :=
  if skipDuplicate then persist w userId s limit card
  else
    match w.findByWord with
    | .error e => raised s e
    | .ok none => persist w userId s limit card
    | .ok (some row) =>
        match row.resultJson with
        | .raised e => raised s e
        | _ => if row.usable then duplicateOf w userId s row else persist w userId s limit card

/-- From the reservation on. -/
def afterReserve (s : QuotaStore) (limit : Int) (skipDuplicate : Bool) : AskRun :=
  match w.generateCard with
  | .error .timeout => failWith w userId s .aiTimeout
  | .error .cardPreparation => failWith w userId s .cardPrepError
  | .error .cancelled => raised s .cancelled
  | .error _ => failWith w userId s .aiError
  | .ok value =>
      match value.usable with
      | some card => withCard w userId s limit skipDuplicate card
      | none =>
          -- the warning evaluates `(data or {}).get("word")` before the release
          if value = .truthy then raised s .other else failWith w userId s .persistError

def ask (s : QuotaStore) (skipDuplicate : Bool) : AskRun :=
  let refuse := fun r : AskResult => (⟨s, false, 0, .ok r⟩ : AskRun)
  let abort := fun e : Exn => (⟨s, false, 0, .error e⟩ : AskRun)
  match w.getUser with
  | some e => abort e
  | none =>
  match s.users.lookup userId with
  | none => refuse { kind := .registrationRequired }
  | some row =>
  if row.targetLang.getD "" = "" ∨ row.goal.getD "" = "" ∨ row.level.getD "" = "" then
    refuse { kind := .registrationRequired }
  else
  match w.errorKey with
  | some key => refuse { kind := .invalidInput, errorKey := some key }
  | none =>
  match w.findDuplicate with
  | .error e => abort e
  | .ok dup =>
  if dup.isSome ∧ skipDuplicate = false then refuse { kind := .duplicate, token := dup }
  else
    let limit := w.limit row.planOrFree
    match w.reserve with
    | .lost e => abort e
    | .done =>
        match s.reserveWordQuery w.reserveDay userId limit w.bypassLimits with
        | (_, false) => refuse { kind := .quotaExhausted }
        | (s, true) => afterReserve w userId s limit skipDuplicate
    | .doneThenRaised e =>
        match s.reserveWordQuery w.reserveDay userId limit w.bypassLimits with
        | (_, false) => abort e
        | (s, true) => raised s e

end Ask

/-! ## Settling the reserved unit -/

/-- The unit is given back exactly once, and kept by an `ok` result. -/
def AskRun.Settled (r : AskRun) : Prop :=
  match r.outcome with
  | .ok result => r.releases = if result.kind = .ok then 0 else 1
  | .error _ => r.releases = 1

section Settling
variable (w : AskWorld) (skipDuplicate : Bool)

/-- The AI returned a card with a word. -/
def AskWorld.card : Option CardData :=
  match w.generateCard with
  | .ok value => value.usable
  | .error _ => none

/-- The cached row a run finds. -/
def AskWorld.cached : Option CachedRow :=
  match w.findByWord with
  | .ok row => if skipDuplicate then none else row
  | .error _ => none

/-- A cached row with a usable card ends the run as a duplicate. -/
def AskWorld.isDuplicate : Bool := (w.cached skipDuplicate).any CachedRow.usable

/-- Storing the card, or touching the streak after it, raises. -/
def AskWorld.persistRaises : Option Exn :=
  match w.createQueryResult, w.touchStreak with
  | .error e, _ => some e
  | .ok _, .error e => some e
  | .ok _, .ok _ => none

/-- The run gets to a release. -/
def AskWorld.givesBack : Prop :=
  w.card = none ∨ w.isDuplicate skipDuplicate = true ∨ w.persistRaises.isSome = true

/-- No call raises where `ask` does not release: the reservation and the AI call
are not interrupted, the AI does not return a value without `get`, the lookup of
the cached word and the reading of its row return, persistence is not
interrupted, the usage line is built, and a release that is due is not lost. -/
structure AskWorld.Guarded : Prop where
  reserve : ∀ e, w.reserve ≠ .doneThenRaised e
  generate : w.generateCard ≠ .error .cancelled
  value : w.generateCard ≠ .ok .truthy
  lookup : w.card.isSome = true → skipDuplicate = false → ∀ e, w.findByWord ≠ .error e
  load : w.card.isSome = true → ∀ row, w.cached skipDuplicate = some row →
    ∀ e, row.resultJson ≠ .raised e
  persist : w.card.isSome = true → w.isDuplicate skipDuplicate = false →
    w.persistRaises ≠ some .cancelled
  report : ¬ w.givesBack skipDuplicate → w.getUserAgain = none ∧ w.usageText = none
  release : w.givesBack skipDuplicate → ∀ e, w.release ≠ .lost e

end Settling

section Proof
variable {w : AskWorld} {userId : UserId} {s : QuotaStore} {limit : Int} {skipDuplicate : Bool}

theorem not_settled_raised (s : QuotaStore) (e : Exn) : ¬ (raised s e).Settled := by
  simp [AskRun.Settled, raised]

theorem settled_releaseThen (s : QuotaStore) (next : Except Exn AskResult)
    (hnext : ∀ r, next = .ok r → r.kind ≠ .ok) :
    (releaseThen w userId s next).Settled ↔ ∀ e, w.release ≠ .lost e := by
  unfold releaseThen AskRun.Settled
  cases hr : w.release with
  | done =>
    cases next with
    | error e => simp
    | ok r => simp [hnext r rfl]
  | lost e => simp
  | doneThenRaised e => simp

theorem settled_failWith (s : QuotaStore) {kind : AskKind} (hk : kind ≠ .ok) :
    (failWith w userId s kind).Settled ↔ ∀ e, w.release ≠ .lost e :=
  settled_releaseThen s _ (fun r hr => by
    obtain rfl := Except.ok.inj hr
    exact hk)

theorem settled_persist (s : QuotaStore) (limit : Int) (card : CardData) :
    (persist w userId s limit card).Settled ↔
      w.persistRaises ≠ some .cancelled ∧
      (w.persistRaises = none → w.getUserAgain = none ∧ w.usageText = none) ∧
      (w.persistRaises.isSome = true → ∀ e, w.release ≠ .lost e) := by
  -- an exception of the two writes is caught unless it is a cancellation
  have hraise : ∀ e : Exn,
      (if e.caught then failWith w userId s .persistError else raised s e).Settled ↔
        e ≠ .cancelled ∧ ∀ e, w.release ≠ .lost e := by
    intro e
    cases e with
    | cancelled => simpa [Exn.caught] using not_settled_raised s .cancelled
    | timeout => simpa [Exn.caught] using settled_failWith s (by decide)
    | cardPreparation => simpa [Exn.caught] using settled_failWith s (by decide)
    | sqlite => simpa [Exn.caught] using settled_failWith s (by decide)
    | other => simpa [Exn.caught] using settled_failWith s (by decide)
  unfold persist AskWorld.persistRaises
  cases w.createQueryResult with
  | error e => simpa using hraise e
  | ok token =>
    cases w.touchStreak with
    | error e => simpa using hraise e
    | ok _ =>
      cases w.getUserAgain with
      | some e => simpa using not_settled_raised s e
      | none =>
        cases w.usageText with
        | some e => simpa using not_settled_raised s e
        | none => simp [AskRun.Settled]

theorem settled_duplicateOf (s : QuotaStore) (row : CachedRow) :
    (duplicateOf w userId s row).Settled ↔ ∀ e, w.release ≠ .lost e := by
  refine settled_releaseThen s _ (fun r hr => ?_)
  split at hr
  · obtain rfl := Except.ok.inj hr
    exact AskKind.noConfusion
  · cases hr
  · obtain rfl := Except.ok.inj hr
    exact AskKind.noConfusion

theorem settled_withCard (s : QuotaStore) (limit : Int) (card : CardData) :
    (withCard w userId s limit skipDuplicate card).Settled ↔
      (skipDuplicate = false → ∀ e, w.findByWord ≠ .error e) ∧
      (∀ row, w.cached skipDuplicate = some row → ∀ e, row.resultJson ≠ .raised e) ∧
      (w.isDuplicate skipDuplicate = true → ∀ e, w.release ≠ .lost e) ∧
      (w.isDuplicate skipDuplicate = false →
        w.persistRaises ≠ some .cancelled ∧
        (w.persistRaises = none → w.getUserAgain = none ∧ w.usageText = none) ∧
        (w.persistRaises.isSome = true → ∀ e, w.release ≠ .lost e)) := by
  have hpersist : (persist w userId s limit card).Settled ↔ _ := settled_persist s limit card
  unfold withCard AskWorld.isDuplicate AskWorld.cached
  cases skipDuplicate with
  | true =>
    cases w.findByWord <;> simpa using hpersist
  | false =>
    cases w.findByWord with
    | error e => simpa using not_settled_raised s e
    | ok found =>
      cases found with
      | none => simpa using hpersist
      | some row =>
        cases hj : row.resultJson with
        | raised e => simpa [hj] using not_settled_raised s e
        | corrupt => simpa [hj, CachedRow.usable] using hpersist
        | value v =>
          cases hu : row.usable with
          | false => simpa [hj, hu] using hpersist
          | true => simpa [hj, hu] using settled_duplicateOf s row

theorem settled_afterReserve (s : QuotaStore) (limit : Int) :
    (afterReserve w userId s limit skipDuplicate).Settled ↔
      (w.generateCard ≠ .error .cancelled ∧ w.generateCard ≠ .ok .truthy) ∧
      (w.card = none → ∀ e, w.release ≠ .lost e) ∧
      (∀ card, w.card = some card →
        (withCard w userId s limit skipDuplicate card).Settled) := by
  unfold afterReserve AskWorld.card
  cases w.generateCard with
  | error e =>
    cases e with
    | cancelled => simpa using not_settled_raised s .cancelled
    | timeout => simpa using settled_failWith s (by decide)
    | cardPreparation => simpa using settled_failWith s (by decide)
    | sqlite => simpa using settled_failWith s (by decide)
    | other => simpa using settled_failWith s (by decide)
  | ok value =>
    cases hv : value.usable with
    | some card =>
      have hne : value ≠ .truthy := by
        rintro rfl
        cases hv
      simp [hv, hne]
    | none =>
      by_cases ht : value = .truthy
      · subst ht
        simpa [AiValue.usable] using not_settled_raised s .other
      · simpa [hv, ht] using settled_failWith s (by decide)

theorem guarded_iff :
    w.Guarded skipDuplicate ↔
      (∀ e, w.reserve ≠ .doneThenRaised e) ∧
      (afterReserve w userId s limit skipDuplicate).Settled := by
  rw [settled_afterReserve]
  constructor
  · intro h
    refine ⟨h.reserve, ⟨h.generate, h.value⟩, fun hc => h.release (Or.inl hc), fun card hcard => ?_⟩
    have hsome : w.card.isSome = true := by rw [hcard]; rfl
    refine (settled_withCard s limit card).mpr ⟨h.lookup hsome, h.load hsome,
      fun hd => h.release (Or.inr (Or.inl hd)), fun hd => ⟨h.persist hsome hd, fun hp => ?_,
        fun hp => h.release (Or.inr (Or.inr hp))⟩⟩
    refine h.report (fun hg => ?_)
    rcases hg with hg | hg | hg
    · rw [hcard] at hg
      cases hg
    · rw [hd] at hg
      cases hg
    · rw [hp] at hg
      cases hg
  · rintro ⟨hres, ⟨hgen, hval⟩, hnone, hcard⟩
    have parts : w.card.isSome = true → _ := fun hsome =>
      (settled_withCard s limit (w.card.get hsome)).mp (hcard _ (Option.some_get hsome).symm)
    constructor
    · exact hres
    · exact hgen
    · exact hval
    · exact fun hsome => (parts hsome).1
    · exact fun hsome => (parts hsome).2.1
    · exact fun hsome hd => ((parts hsome).2.2.2 hd).1
    · intro hg
      have hsome : w.card.isSome = true :=
        Option.isSome_iff_ne_none.mpr (fun h => hg (Or.inl h))
      have hd : w.isDuplicate skipDuplicate = false :=
        Bool.not_eq_true _ ▸ fun h => hg (Or.inr (Or.inl h))
      refine ((parts hsome).2.2.2 hd).2.1 ?_
      exact Option.not_isSome_iff_eq_none.mp (fun h => hg (Or.inr (Or.inr h)))
    · intro hg
      by_cases hc : w.card = none
      · exact hnone hc
      have hsome : w.card.isSome = true := Option.isSome_iff_ne_none.mpr hc
      cases hd : w.isDuplicate skipDuplicate with
      | true => exact (parts hsome).2.2.1 hd
      | false =>
        refine ((parts hsome).2.2.2 hd).2.2 ?_
        rcases hg with hg | hg | hg
        · exact absurd hg hc
        · rw [hd] at hg
          cases hg
        · exact hg

/-- What a run of `ask` does: it ends before a unit is reserved, it continues with a
reserved unit, or it is interrupted in between. -/
theorem ask_cases (w : AskWorld) (userId : UserId) (s : QuotaStore) (skipDuplicate : Bool) :
    (∃ outcome, ask w userId s skipDuplicate = ⟨s, false, 0, outcome⟩) ∨
    (∃ s' limit, w.reserve = .done ∧
      s.reserveWordQuery w.reserveDay userId limit w.bypassLimits = (s', true) ∧
      ask w userId s skipDuplicate = afterReserve w userId s' limit skipDuplicate) ∨
    (∃ s' e, w.reserve = .doneThenRaised e ∧ ask w userId s skipDuplicate = raised s' e) := by
  unfold ask
  cases w.getUser with
  | some e => exact Or.inl ⟨_, rfl⟩
  | none =>
    cases s.users.lookup userId with
    | none => exact Or.inl ⟨_, rfl⟩
    | some row =>
      simp only
      split
      · exact Or.inl ⟨_, rfl⟩
      cases w.errorKey with
      | some key => exact Or.inl ⟨_, rfl⟩
      | none =>
        cases w.findDuplicate with
        | error e => exact Or.inl ⟨_, rfl⟩
        | ok dup =>
          simp only
          split
          · exact Or.inl ⟨_, rfl⟩
          cases hreserve : w.reserve with
          | lost e => exact Or.inl ⟨_, rfl⟩
          | done =>
            cases hgrant : s.reserveWordQuery w.reserveDay userId (w.limit row.planOrFree)
                w.bypassLimits with
            | mk s' granted =>
              cases granted with
              | false => exact Or.inl ⟨_, rfl⟩
              | true => exact Or.inr (Or.inl ⟨s', _, rfl, hgrant, rfl⟩)
          | doneThenRaised e =>
            cases s.reserveWordQuery w.reserveDay userId (w.limit row.planOrFree)
                w.bypassLimits with
            | mk s' granted =>
              cases granted with
              | false => exact Or.inl ⟨_, rfl⟩
              | true => exact Or.inr (Or.inr ⟨s', e, rfl, rfl⟩)

theorem reserved_releaseThen (s : QuotaStore) (next : Except Exn AskResult) :
    (releaseThen w userId s next).reserved = true := by
  unfold releaseThen
  split <;> rfl

theorem reserved_persist (s : QuotaStore) (limit : Int) (card : CardData) :
    (persist w userId s limit card).reserved = true := by
  unfold persist failWith
  repeat' split
  all_goals first | exact reserved_releaseThen _ _ | rfl

theorem reserved_afterReserve (s : QuotaStore) (limit : Int) :
    (afterReserve w userId s limit skipDuplicate).reserved = true := by
  unfold afterReserve withCard failWith duplicateOf
  repeat' split
  all_goals first | exact reserved_releaseThen _ _ | exact reserved_persist _ _ _ | rfl

end Proof

/-- **When every reserved unit is settled.**  A run of `ask` that reserved gives
the unit back exactly once, or keeps it with an `ok` result, if and only if no call
raises where `ask` does not release; a run that did not reserve releases nothing
and leaves the counters alone. -/
theorem ask_settles_iff (w : AskWorld) (userId : UserId) (s : QuotaStore) (skipDuplicate : Bool) :
    ((ask w userId s skipDuplicate).reserved = true →
      ((ask w userId s skipDuplicate).Settled ↔ w.Guarded skipDuplicate)) ∧
    ((ask w userId s skipDuplicate).reserved = false →
      (ask w userId s skipDuplicate).releases = 0 ∧ (ask w userId s skipDuplicate).store = s) := by
  rcases ask_cases w userId s skipDuplicate with
    ⟨outcome, hask⟩ | ⟨s', limit, hreserve, -, hask⟩ | ⟨s', e, hreserve, hask⟩
  · rw [hask]
    exact ⟨fun h => absurd h Bool.noConfusion, fun _ => ⟨rfl, rfl⟩⟩
  · rw [hask]
    refine ⟨fun _ => ?_, fun h => ?_⟩
    · have hiff : w.Guarded skipDuplicate ↔ (∀ e, w.reserve ≠ .doneThenRaised e) ∧
          (afterReserve w userId s' limit skipDuplicate).Settled := guarded_iff
      rw [hiff, hreserve]
      exact ⟨fun h => ⟨fun e => WriteEnd.noConfusion, h⟩, fun h => h.2⟩
    · rw [reserved_afterReserve] at h
      cases h
  · rw [hask]
    refine ⟨fun _ => iff_of_false (not_settled_raised s' e) (fun h => h.reserve e hreserve), ?_⟩
    exact fun h => absurd h Bool.noConfusion

/-! ## The counter after a run -/

section Counter
variable {w : AskWorld} {userId : UserId} {s : QuotaStore} {limit : Int} {skipDuplicate : Bool}

/-- The store a run leaves: the one it reserved in, with one release or none. -/
def AskRun.Balanced (w : AskWorld) (userId : UserId) (s : QuotaStore) (r : AskRun) : Prop :=
  (r.releases = 0 ∧ r.store = s) ∨
    (r.releases = 1 ∧ r.store = s.releaseWordQuery w.releaseDay userId)

end Counter

/-- A registered user who asked nothing today. -/
def registeredStore : QuotaStore where
  slots := KeyedTable.empty
  users := KeyedTable.empty.insertOrIgnore
    ⟨7, true, some "free", some "de", some "travel", some "A1", none, none, some 0, none, none, none⟩

/-- The AI answers, and the lookup of the cached word finds the database locked. -/
def lockedWorld : AskWorld where
  reserveDay := 20000
  releaseDay := 20000
  usageDay := 20000
  getUser := none
  errorKey := none
  findDuplicate := .ok none
  limit := fun _ => 3
  bypassLimits := false
  reserve := .done
  generateCard := .ok (.dict { word := some "Haus" })
  release := .done
  findByWord := .error .sqlite
  createAlias := .ok "a"
  createQueryResult := .ok "t"
  touchStreak := .ok ()
  getUserAgain := none
  usageText := none

/-- The reserved unit is never given back. -/
theorem ask_leaks_unit :
    ¬ (∀ (w : AskWorld) (userId : UserId) (s : QuotaStore) (skipDuplicate : Bool),
        (ask w userId s skipDuplicate).reserved = true →
        (ask w userId s skipDuplicate).Settled) := by
  intro h
  have hleak : (0 : Nat) = 1 := h lockedWorld 7 registeredStore false (by decide)
  cases hleak

end HamZaboon
