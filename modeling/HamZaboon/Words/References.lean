import HamZaboon.Words.QueryResults
import HamZaboon.Library.Runs

/-! # References to saved words

Three kinds of rows point at a saved word: its review events, the results linked
to it, and the results marked saved.  Four operations remove words, and they
differ in what they clear: toggling a word off clears only the result it was
toggled from, a deletion detaches only the results that are linked, and a reset
leaves the results alone.  A run keeps every reference alive exactly when no word
is removed that something not cleared with it points at
(`references_kept_iff`).
-/

namespace HamZaboon
open Library

/-- The operations on words, with the days and instants they read. -/
inductive WordOp
  | add (userId : UserId) (word lang : String) (card : Option CardData) (entryManual : Bool)
      (today : Day) (now : Instant)
  | toggle (token : String) (userId : UserId) (today : Day) (now : Instant)
  | delete (wordId : WordId) (userId : UserId)
  | grade (zone : Zone) (activity : ActivityType) (req : GradeRequest) (faults : GradeFaults)
  | query (token : String) (userId : UserId) (queryText word lang : String) (result : CardData)
      (ttl : Int) (exclude : Option String) (now : Instant)
  | cleanup (now : Instant)
  | reset (userId : UserId)

variable {K : Type}

def QueryDb.step [Field K] [LinearOrder K] [FloorRing K] [Elementary K] [OfNat K 5]
    (lib : UnicodeLib) (db : QueryDb K) : WordOp → QueryDb K
  | .add userId word lang card entryManual today now =>
      { db with
        toDb := (db.toDb.addSavedWord lib userId word lang card entryManual today now).1 }
  | .toggle token userId today now => (db.toggleSave lib token userId today now).1
  | .delete wordId userId => (db.deleteSavedWord wordId userId).1
  | .grade zone activity req faults =>
      { db with toDb := (db.toDb.gradeTransaction zone activity req faults).2 }
  | .query token userId queryText word lang result ttl exclude now =>
      db.createQueryResult lib token userId queryText word lang result ttl exclude now
  | .cleanup now => db.cleanupExpiredQueryResults now
  | .reset userId => { db with toDb := db.toDb.resetUserProgress userId }

/-- **No dangling reference**: every event and every linked result names a word
that exists, and every result marked saved is about a word its user has saved. -/
structure NoDangling (lib : UnicodeLib) (db : QueryDb K) : Prop where
  events : ∀ e ∈ db.reviewEvents.rows, ∃ w ∈ db.savedWords.rows, w.id = e.wordId
  links : ∀ q ∈ db.queryResults.rows, ∀ id, q.savedWordId = some id →
    ∃ w ∈ db.savedWords.rows, w.id = id
  marks : ∀ q ∈ db.queryResults.rows, q.savedAt ≠ none →
    ∃ w ∈ db.savedWords.rows, w.indexKey = q.wordKey lib

/-- No dangling reference, the unique index of the words, and events that belong
to the owner of their word. -/
structure Sound (lib : UnicodeLib) (db : QueryDb K) : Prop extends NoDangling lib db where
  unique : ∀ w ∈ db.savedWords.rows, ∀ w' ∈ db.savedWords.rows, w.indexKey = w'.indexKey →
    w.id = w'.id
  cards : ∀ e ∈ db.reviewEvents.rows, ∃ w ∈ db.savedWords.rows, w.card = e.card

namespace QueryDb

def toggledOff (db : QueryDb K) (lib : UnicodeLib) (token : String) (userId : UserId)
    (now : Instant) : Option (SavedWord K) :=
  match db.getQueryResult token userId now with
  | none => none
  | some row =>
      if row.resultJson = .unreadable ∨ lib.normalizeWord row.word = "" then none
      else db.toDb.savedUnder (userId, row.lang, lib.normalizeWord row.word)

/-- No result outside `cleared` is linked to the word, or marked saved and about
it. -/
def Unreferenced (db : QueryDb K) (lib : UnicodeLib) (cleared : QueryResult → Bool)
    (w : SavedWord K) : Prop :=
  ∀ q ∈ db.queryResults.rows, cleared q = false →
    (q.savedAt ≠ none → w.indexKey ≠ q.wordKey lib) ∧ q.savedWordId ≠ some w.id

/-- **When an operation leaves no reference behind**: nothing that it does not
clear points at a word it removes. -/
def Clears (lib : UnicodeLib) (db : QueryDb K) : WordOp → Prop
  | .toggle token userId _ now => ∀ w, db.toggledOff lib token userId now = some w →
      (∀ e ∈ db.reviewEvents.rows, e.wordId ≠ w.id) ∧
        db.Unreferenced lib (fun q => q.token = token) w
  | .delete wordId userId => ∀ w ∈ db.savedWords.rows, w.card = (userId, wordId) →
      db.Unreferenced lib (fun q => q.savedWordId = some wordId && q.userId = userId) w
  | .reset userId => ∀ w ∈ db.savedWords.rows, w.userId = userId →
      db.Unreferenced lib (fun _ => false) w
  | _ => True

end QueryDb

/-! ## What operations keep -/

variable {lib : UnicodeLib} {db db' : QueryDb K}

theorem Db.savedUnder_some {db : Db K} {key : UserId × String × String} {w : SavedWord K}
    (h : db.savedUnder key = some w) : w ∈ db.savedWords.rows ∧ w.indexKey = key :=
  ⟨List.mem_of_find?_eq_some h, by simpa using List.find?_some h⟩

theorem Db.savedUnder_none {db : Db K} {key : UserId × String × String}
    (h : db.savedUnder key = none) : ∀ w ∈ db.savedWords.rows, w.indexKey ≠ key := by
  intro w hw
  simpa using List.find?_eq_none.mp h w hw

/-- An operation that removes the words `gone` keeps soundness when the other
words stay, and every reference of the result is one to a word of the result or
an old one that points at no removed word. -/
theorem Sound.transfer (h : Sound lib db) (gone : SavedWord K → Prop)
    (hunique : ∀ w ∈ db'.savedWords.rows, ∀ w' ∈ db'.savedWords.rows, w.indexKey = w'.indexKey →
      w.id = w'.id)
    (hwords : ∀ w ∈ db.savedWords.rows, ¬ gone w →
      ∃ w' ∈ db'.savedWords.rows, w'.card = w.card ∧ w'.indexKey = w.indexKey)
    (hevents : ∀ e ∈ db'.reviewEvents.rows, (∃ w ∈ db'.savedWords.rows, w.card = e.card) ∨
      e ∈ db.reviewEvents.rows ∧ ∀ w ∈ db.savedWords.rows, gone w → w.card ≠ e.card)
    (hresults : ∀ q ∈ db'.queryResults.rows, (q.savedAt = none ∧ q.savedWordId = none) ∨
      q ∈ db.queryResults.rows ∧ ∀ w ∈ db.savedWords.rows, gone w →
        (q.savedAt ≠ none → w.indexKey ≠ q.wordKey lib) ∧ q.savedWordId ≠ some w.id) :
    Sound lib db' := by
  have hcards : ∀ e ∈ db'.reviewEvents.rows, ∃ w ∈ db'.savedWords.rows, w.card = e.card := by
    intro e he
    rcases hevents e he with hnew | ⟨hold, hkept⟩
    · exact hnew
    · obtain ⟨w, hw, hcard⟩ := h.cards e hold
      obtain ⟨w', hw', hcard', -⟩ := hwords w hw (fun hgone => hkept w hw hgone hcard)
      exact ⟨w', hw', hcard'.trans hcard⟩
  refine ⟨⟨?_, ?_, ?_⟩, hunique, hcards⟩
  · intro e he
    obtain ⟨w, hw, hcard⟩ := hcards e he
    exact ⟨w, hw, congrArg Prod.snd hcard⟩
  · intro q hq id hid
    rcases hresults q hq with ⟨-, hnone⟩ | ⟨hold, hkept⟩
    · rw [hnone] at hid
      cases hid
    · obtain ⟨w, hw, rfl⟩ := h.links q hold id hid
      obtain ⟨w', hw', hcard', -⟩ := hwords w hw (fun hgone => (hkept w hw hgone).2 hid)
      exact ⟨w', hw', congrArg Prod.snd hcard'⟩
  · intro q hq hmark
    rcases hresults q hq with ⟨hnone, -⟩ | ⟨hold, hkept⟩
    · exact absurd hnone hmark
    · obtain ⟨w, hw, hkey⟩ := h.marks q hold hmark
      obtain ⟨w', hw', -, hkey'⟩ := hwords w hw (fun hgone => (hkept w hw hgone).1 hmark hkey)
      exact ⟨w', hw', hkey'.trans hkey⟩

theorem Sound.grow (h : Sound lib db)
    (hunique : ∀ w ∈ db'.savedWords.rows, ∀ w' ∈ db'.savedWords.rows, w.indexKey = w'.indexKey →
      w.id = w'.id)
    (hwords : ∀ w ∈ db.savedWords.rows,
      ∃ w' ∈ db'.savedWords.rows, w'.card = w.card ∧ w'.indexKey = w.indexKey)
    (hevents : ∀ e ∈ db'.reviewEvents.rows, (∃ w ∈ db'.savedWords.rows, w.card = e.card) ∨
      e ∈ db.reviewEvents.rows)
    (hresults : ∀ q ∈ db'.queryResults.rows, (q.savedAt = none ∧ q.savedWordId = none) ∨
      q ∈ db.queryResults.rows) :
    Sound lib db' := by
  refine h.transfer (fun _ => False) hunique (fun w hw _ => hwords w hw) ?_ ?_
  · intro e he
    exact (hevents e he).imp_right fun hold => ⟨hold, fun _ _ hno => hno.elim⟩
  · intro q hq
    exact (hresults q hq).imp_right fun hold => ⟨hold, fun _ _ hno => hno.elim⟩

theorem Sound.results (h : Sound lib db) (hdb : db'.toDb = db.toDb)
    (hresults : ∀ q ∈ db'.queryResults.rows, (q.savedAt = none ∧ q.savedWordId = none) ∨
      q ∈ db.queryResults.rows) : Sound lib db' := by
  refine h.grow ?_ ?_ ?_ hresults
  · rw [hdb]
    exact h.unique
  · rw [hdb]
    exact fun w hw => ⟨w, hw, rfl, rfl⟩
  · rw [hdb]
    exact fun e he => Or.inr he

theorem Sound.rewrite (h : Sound lib db) {f : SavedWord K → SavedWord K}
    (hcard : ∀ w, (f w).card = w.card) (hkey : ∀ w, (f w).indexKey = w.indexKey)
    (hwords : db'.savedWords.rows = db.savedWords.rows.map f)
    (hevents : ∀ e ∈ db'.reviewEvents.rows,
      (∃ w ∈ db.savedWords.rows, w.card = e.card) ∨ e ∈ db.reviewEvents.rows)
    (hresults : db'.queryResults = db.queryResults) : Sound lib db' := by
  refine h.grow ?_ ?_ ?_ ?_
  · rw [hwords]
    intro w hw w' hw' heq
    obtain ⟨x, hx, rfl⟩ := List.mem_map.mp hw
    obtain ⟨x', hx', rfl⟩ := List.mem_map.mp hw'
    rw [hkey, hkey] at heq
    have hid := h.unique x hx x' hx' heq
    calc (f x).id = x.id := congrArg Prod.snd (hcard x)
      _ = x'.id := hid
      _ = (f x').id := (congrArg Prod.snd (hcard x')).symm
  · intro w hw
    rw [hwords]
    exact ⟨f w, List.mem_map_of_mem hw, hcard w, hkey w⟩
  · intro e he
    refine (hevents e he).imp_left ?_
    rintro ⟨w, hw, hwe⟩
    rw [hwords]
    exact ⟨f w, List.mem_map_of_mem hw, (hcard w).trans hwe⟩
  · rw [hresults]
    exact fun q hq => Or.inr hq

theorem Sound.remove (h : Sound lib db) (p : SavedWord K → Bool) (cleared : QueryResult → Bool)
    (hwords : db'.savedWords.rows = db.savedWords.rows.filter (fun w => !p w))
    (hevents : ∀ e ∈ db'.reviewEvents.rows, e ∈ db.reviewEvents.rows ∧
      ∀ w ∈ db.savedWords.rows, p w = true → w.card ≠ e.card)
    (hresults : db'.queryResults.rows =
      db.queryResults.rows.map (fun q => if cleared q then q.detach else q))
    (hclear : ∀ w ∈ db.savedWords.rows, p w = true → db.Unreferenced lib cleared w) :
    Sound lib db' := by
  refine h.transfer (fun w => p w = true) ?_ ?_ (fun e he => Or.inr (hevents e he)) ?_
  · rw [hwords]
    intro w hw w' hw'
    exact h.unique w (List.mem_of_mem_filter hw) w' (List.mem_of_mem_filter hw')
  · intro w hw hkept
    rw [hwords]
    exact ⟨w, List.mem_filter.mpr ⟨hw, by simpa using hkept⟩, rfl, rfl⟩
  · intro q hq
    rw [hresults] at hq
    obtain ⟨x, hx, rfl⟩ := List.mem_map.mp hq
    by_cases hcleared : cleared x = true
    · rw [if_pos hcleared]
      exact Or.inl ⟨rfl, rfl⟩
    · rw [if_neg hcleared]
      exact Or.inr ⟨hx, fun w hw hp => hclear w hw hp x hx (by simpa using hcleared)⟩

theorem NoDangling.unreferenced (h : Sound lib db) (h' : NoDangling lib db')
    (p : SavedWord K → Bool) (cleared : QueryResult → Bool)
    (hwords : db'.savedWords.rows = db.savedWords.rows.filter (fun w => !p w))
    (hresults : db'.queryResults.rows =
      db.queryResults.rows.map (fun q => if cleared q then q.detach else q))
    {w : SavedWord K} (hw : w ∈ db.savedWords.rows) (hp : p w = true) :
    db.Unreferenced lib cleared w := by
  intro q hq hkept
  have hq' : q ∈ db'.queryResults.rows := by
    rw [hresults]
    exact List.mem_map.mpr ⟨q, hq, by rw [hkept]; rfl⟩
  have hnot : ∀ w' ∈ db'.savedWords.rows, w'.id ≠ w.id := by
    intro w' hw' hid
    rw [hwords, List.mem_filter] at hw'
    obtain rfl := db.savedWords.key_injective hw'.1 hw hid
    simp [hp] at hw'
  constructor
  · intro hmark hkey
    obtain ⟨w', hw', hkey'⟩ := h'.marks q hq' hmark
    have hold : w' ∈ db.savedWords.rows := by
      rw [hwords] at hw'
      exact List.mem_of_mem_filter hw'
    exact hnot w' hw' (h.unique w' hold w hw (hkey'.trans hkey.symm))
  · intro hlink
    obtain ⟨w', hw', hid⟩ := h'.links q hq' w.id hlink
    exact hnot w' hw' hid

/-! ## Each operation -/

section Inserting
variable [Zero K] [OfNat K 5]

theorem Sound.insertWord (h : Sound lib db) {userId : UserId} {word lang : String}
    (card : Option CardData) (entryManual : Bool) (today : Day) (now : Instant)
    (hnone : db.toDb.savedUnder (userId, lang, lib.normalizeWord word) = none) :
    Sound lib
      { db with toDb := db.toDb.insertWord lib userId word lang card entryManual today now } := by
  have hfresh := Db.savedUnder_none hnone
  refine h.grow ?_ ?_ (fun e he => Or.inr he) (fun q hq => Or.inr hq)
  · intro w hw w' hw' heq
    rcases List.mem_append.mp hw with hw | hw <;> rcases List.mem_append.mp hw' with hw' | hw'
    · exact h.unique w hw w' hw' heq
    · obtain rfl := List.mem_singleton.mp hw'
      exact absurd heq (hfresh w hw)
    · obtain rfl := List.mem_singleton.mp hw
      exact absurd heq.symm (hfresh w' hw')
    · rw [List.mem_singleton.mp hw, List.mem_singleton.mp hw']
  · exact fun w hw => ⟨w, List.mem_append_left _ hw, rfl, rfl⟩

theorem Sound.addSavedWord (h : Sound lib db) (userId : UserId) (word lang : String)
    (card : Option CardData) (entryManual : Bool) (today : Day) (now : Instant) :
    Sound lib { db with
      toDb := (db.toDb.addSavedWord lib userId word lang card entryManual today now).1 } := by
  unfold Db.addSavedWord
  by_cases hempty : lib.normalizeWord word = ""
  · rw [if_pos hempty]
    exact h
  · rw [if_neg hempty]
    cases hsaved : db.toDb.savedUnder (userId, lang, lib.normalizeWord word) with
    | none => exact h.insertWord card entryManual today now hsaved
    | some existing =>
      cases card with
      | none => exact h
      | some c =>
        refine h.rewrite (f := fun w => if w.indexKey = (userId, lang, lib.normalizeWord word) then
          w.fillCard c else w) ?_ ?_ ?_ (fun e he => Or.inr he) rfl
        · intro w
          split <;> rfl
        · intro w
          split <;> rfl
        · refine List.map_congr_left (fun w _ => ?_)
          simp only [decide_eq_true_eq]

end Inserting

theorem Sound.markQueryResultSaved (h : Sound lib db) {token : String} {row : QueryResult}
    (now : Instant) (hrow : db.queryResults.lookup token = some row)
    (hsaved : ∃ w ∈ db.savedWords.rows, w.indexKey = row.wordKey lib) :
    Sound lib (db.markQueryResultSaved token none now) := by
  have hrows : ∀ q ∈ (db.markQueryResultSaved token none now).queryResults.rows,
      ∃ x ∈ db.queryResults.rows, q.savedWordId = x.savedWordId ∧ q.wordKey lib = x.wordKey lib ∧
        (x = row ∨ q = x) := by
    intro q hq
    obtain ⟨x, hx, rfl⟩ := List.mem_map.mp hq
    by_cases htoken : x.token = token
    · have hxrow : x = row := List.inj_on_of_nodup_map db.queryResults.pk hx
        (KeyedTable.mem_of_lookup hrow) (htoken.trans (KeyedTable.key_of_lookup hrow).symm)
      rw [if_pos (decide_eq_true htoken)]
      exact ⟨x, hx, Option.or_none, rfl, Or.inl hxrow⟩
    · rw [if_neg (by simpa using htoken)]
      exact ⟨x, hx, rfl, rfl, Or.inr rfl⟩
  refine ⟨⟨h.events, ?_, ?_⟩, h.unique, h.cards⟩
  · intro q hq id hid
    obtain ⟨x, hx, hlink, -, -⟩ := hrows q hq
    exact h.links x hx id (hlink ▸ hid)
  · intro q hq hmark
    obtain ⟨x, hx, -, hkey, rfl | rfl⟩ := hrows q hq
    · rw [hkey]
      exact hsaved
    · exact h.marks q hx hmark

theorem Sound.clearQueryResultSaved (h : Sound lib db) (token : String) :
    Sound lib (db.clearQueryResultSaved token) := by
  refine h.results rfl (fun q hq => ?_)
  obtain ⟨x, hx, rfl⟩ := List.mem_map.mp hq
  by_cases htoken : x.token = token
  · rw [if_pos (decide_eq_true htoken)]
    exact Or.inl ⟨rfl, rfl⟩
  · rw [if_neg (by simpa using htoken)]
    exact Or.inr hx

theorem Sound.cleanupExpiredQueryResults (h : Sound lib db) (now : Instant) :
    Sound lib (db.cleanupExpiredQueryResults now) :=
  h.results rfl fun _ hq => Or.inr (List.mem_of_mem_filter hq)

theorem Sound.createQueryResult (h : Sound lib db) (token : String) (userId : UserId)
    (queryText word lang : String) (result : CardData) (ttl : Int) (exclude : Option String)
    (now : Instant) :
    Sound lib
      (db.createQueryResult lib token userId queryText word lang result ttl exclude now) := by
  unfold QueryDb.createQueryResult
  split
  · exact h
  · rename_i hfree
    refine h.results rfl (fun q hq => ?_)
    have hq' := List.mem_of_mem_filter hq
    rw [KeyedTable.rows_insertOrIgnore] at hq'
    split at hq'
    · exact Or.inr hq'
    · rcases List.mem_append.mp hq' with hold | hnew
      · exact Or.inr hold
      · obtain rfl := List.mem_singleton.mp hnew
        exact Or.inl ⟨rfl, rfl⟩

theorem Sound.gradeTransaction [Field K] [LinearOrder K] [FloorRing K] [Elementary K]
    (h : Sound lib db) (zone : Zone) (activity : ActivityType) (req : GradeRequest)
    (faults : GradeFaults) :
    Sound lib { db with toDb := (db.toDb.gradeTransaction zone activity req faults).2 } := by
  have hends := gradeTransaction_cases db.toDb zone activity req faults
  rcases hends with ⟨e, hrun⟩ | ⟨report, db', hrun, hno, hyes⟩
  · rw [hrun]
    exact h
  · rw [hrun]
    cases hok : report.ok with
    | false =>
      rw [hno hok]
      exact h
    | true =>
      have hwrites := hyes hok
      obtain ⟨s, d, next, done, hword⟩ := hwrites.word
      refine h.rewrite ?_ ?_ hword ?_ rfl
      · intro w
        dsimp only
        split
        · split <;> rfl
        · rfl
      · intro w
        dsimp only
        split
        · split <;> rfl
        · rfl
      · intro e he
        have he' : e ∈ db'.reviewEvents.rows := he
        rw [hwrites.events] at he'
        rcases List.mem_append.mp he' with hold | hnew
        · exact Or.inr hold
        · obtain ⟨source, -, rfl⟩ := List.mem_map.mp hnew
          exact Or.inl hwrites.found

theorem QueryDb.toggleSave_cases [Zero K] [OfNat K 5] (db : QueryDb K) (lib : UnicodeLib)
    (token : String) (userId : UserId) (today : Day) (now : Instant) :
    let db' := (db.toggleSave lib token userId today now).1
    (db.toggledOff lib token userId now = none ∧ db' = db) ∨
      (db.toggledOff lib token userId now = none ∧ db' = db.clearQueryResultSaved token) ∨
      (∃ w, db.toggledOff lib token userId now = some w ∧ w ∈ db.savedWords.rows ∧
        db' = { db with
          toDb := { db.toDb with
            savedWords := db.savedWords.deleteWhere (fun x => x.id = w.id) }
          queryResults := (db.clearQueryResultSaved token).queryResults }) ∨
      ∃ row, db.toggledOff lib token userId now = none ∧ db.queryResults.lookup token = some row ∧
        row.userId = userId ∧
        db.toDb.savedUnder (userId, row.lang, lib.normalizeWord row.word) = none ∧
        db' = { db with
          toDb := db.toDb.insertWord lib userId row.word row.lang row.resultJson.cardData? true
            today now }.markQueryResultSaved token none now := by
  unfold QueryDb.toggleSave QueryDb.toggledOff
  cases hget : db.getQueryResult token userId now with
  | none => exact Or.inl ⟨rfl, rfl⟩
  | some row =>
    obtain ⟨hrow, huser⟩ : db.queryResults.lookup token = some row ∧ row.userId = userId := by
      obtain ⟨hrow, hlive⟩ := Option.filter_eq_some_iff.mp hget
      simp only [Bool.and_eq_true, decide_eq_true_eq] at hlive
      exact ⟨hrow, hlive.1⟩
    by_cases hread : row.resultJson = .unreadable
    · simp [hread]
    · by_cases hempty : lib.normalizeWord row.word = ""
      · refine Or.inr (Or.inl ?_)
        simp [hread, hempty, Db.toggleReviewWord]
      · simp only [hread, hempty, or_self, if_false, Db.toggleReviewWord]
        cases hsaved : db.toDb.savedUnder (userId, row.lang, lib.normalizeWord row.word) with
        | none => exact Or.inr (Or.inr (Or.inr ⟨row, rfl, hrow, huser, hsaved, rfl⟩))
        | some w =>
          exact Or.inr (Or.inr (Or.inl ⟨w, rfl, (Db.savedUnder_some hsaved).1, rfl⟩))

theorem QueryDb.deleteSavedWord_cases (db : QueryDb K) (wordId : WordId) (userId : UserId) :
    ((∀ w ∈ db.savedWords.rows, w.card ≠ (userId, wordId)) ∧
        (db.deleteSavedWord wordId userId).1 = db) ∨
      (db.deleteSavedWord wordId userId).1 =
        { db with
          savedWords := db.savedWords.deleteWhere (fun w => w.card = (userId, wordId))
          reviewEvents := db.reviewEvents.deleteWhere (fun e => e.card = (userId, wordId))
          queryResults := db.queryResults.updateWhere
            (fun q => q.savedWordId = some wordId && q.userId = userId) (·.detach) token_detach } := by
  unfold QueryDb.deleteSavedWord Db.deleteSavedWord
  by_cases hfound : db.savedWords.rows.any (fun w => w.card = (userId, wordId)) = true
  · rw [if_pos hfound]
    exact Or.inr rfl
  · rw [if_neg hfound]
    refine Or.inl ⟨?_, rfl⟩
    intro w hw hcard
    exact hfound (List.any_eq_true.mpr ⟨w, hw, decide_eq_true hcard⟩)

section Steps
variable [Field K] [LinearOrder K] [FloorRing K] [Elementary K] [OfNat K 5]

theorem Sound.step (h : Sound lib db) (op : WordOp) (hclears : db.Clears lib op) :
    Sound lib (db.step lib op) := by
  cases op with
  | add userId word lang card entryManual today now =>
    exact h.addSavedWord userId word lang card entryManual today now
  | toggle token userId today now =>
    show Sound lib (db.toggleSave lib token userId today now).1
    obtain ⟨-, hdb⟩ | ⟨-, hdb⟩ | ⟨w, hoff, hw, hdb⟩ | ⟨row, -, hrow, huser, hsaved, hdb⟩ :=
      db.toggleSave_cases lib token userId today now
    · rw [hdb]
      exact h
    · rw [hdb]
      exact h.clearQueryResultSaved token
    · obtain ⟨hevents, hresults⟩ := hclears w hoff
      have hsame : ∀ x ∈ db.savedWords.rows, decide (x.id = w.id) = true → x = w :=
        fun x hx hid => db.savedWords.key_injective hx hw (of_decide_eq_true hid)
      rw [hdb]
      refine h.remove (fun x => decide (x.id = w.id)) (fun q => q.token = token) rfl ?_ rfl ?_
      · intro e he
        refine ⟨he, fun x hx hid hcard => ?_⟩
        obtain rfl := hsame x hx hid
        exact hevents e he (congrArg Prod.snd hcard).symm
      · intro x hx hid
        obtain rfl := hsame x hx hid
        exact hresults
    · rw [hdb]
      refine (h.insertWord row.resultJson.cardData? true today now hsaved).markQueryResultSaved now
        hrow ⟨_, List.mem_append_right _ (List.mem_singleton.mpr rfl), ?_⟩
      rw [← huser]
      rfl
  | delete wordId userId =>
    show Sound lib (db.deleteSavedWord wordId userId).1
    obtain ⟨-, hdb⟩ | hdb := db.deleteSavedWord_cases wordId userId
    · rw [hdb]
      exact h
    · rw [hdb]
      refine h.remove (fun w => decide (w.card = (userId, wordId)))
        (fun q => q.savedWordId = some wordId && q.userId = userId) rfl ?_ rfl ?_
      · intro e he
        obtain ⟨hold, hkept⟩ := List.mem_filter.mp he
        refine ⟨hold, fun w _ hp hcard => ?_⟩
        have hgone : e.card = (userId, wordId) := hcard ▸ of_decide_eq_true hp
        simp [hgone] at hkept
      · exact fun w hw hp => hclears w hw (of_decide_eq_true hp)
  | grade zone activity req faults => exact h.gradeTransaction zone activity req faults
  | query token userId queryText word lang result ttl exclude now =>
    exact h.createQueryResult token userId queryText word lang result ttl exclude now
  | cleanup now => exact h.cleanupExpiredQueryResults now
  | reset userId =>
    refine h.remove (fun w => decide (w.userId = userId)) (fun _ => false) rfl ?_
      (List.map_id _).symm ?_
    · intro e he
      obtain ⟨hold, hkept⟩ := List.mem_filter.mp he
      refine ⟨hold, fun w _ hp hcard => ?_⟩
      have hgone : e.userId = userId :=
        (congrArg Prod.fst hcard).symm.trans (of_decide_eq_true hp)
      simp [hgone] at hkept
    · exact fun w hw hp => hclears w hw (of_decide_eq_true hp)

theorem NoDangling.clears (h : Sound lib db) (op : WordOp) (h' : NoDangling lib (db.step lib op)) :
    db.Clears lib op := by
  cases op with
  | add | grade | query | cleanup => trivial
  | toggle token userId today now =>
    intro w hw
    obtain ⟨hoff, -⟩ | ⟨hoff, -⟩ | ⟨x, hoff, hx, hdb⟩ | ⟨row, hoff, -⟩ :=
      db.toggleSave_cases lib token userId today now
    · simp [hoff] at hw
    · simp [hoff] at hw
    · obtain rfl := Option.some.inj (hoff.symm.trans hw)
      have hstep : NoDangling lib (db.toggleSave lib token userId today now).1 := h'
      rw [hdb] at hstep
      constructor
      · intro e he hid
        obtain ⟨y, hy, hyid⟩ := hstep.events e he
        have hkept := (List.mem_filter.mp hy).2
        simp [hyid, hid] at hkept
      · exact hstep.unreferenced h (fun y => decide (y.id = x.id)) _ rfl rfl hx (by simp)
    · simp [hoff] at hw
  | delete wordId userId =>
    intro w hw hcard
    obtain ⟨hno, -⟩ | hdb := db.deleteSavedWord_cases wordId userId
    · exact absurd hcard (hno w hw)
    · have hstep : NoDangling lib (db.deleteSavedWord wordId userId).1 := h'
      rw [hdb] at hstep
      exact hstep.unreferenced h (fun w => decide (w.card = (userId, wordId))) _ rfl rfl hw
        (decide_eq_true hcard)
  | reset userId =>
    intro w hw huser
    exact h'.unreferenced h (fun w => decide (w.userId = userId)) (fun _ => false) rfl
      (List.map_id _).symm hw (decide_eq_true huser)

/-- **References to saved words.**  From a sound database a run leaves no dangling
reference in any of its states exactly when each of its operations clears what
points at the words it removes. -/
theorem references_kept_iff {db : QueryDb K} (h : Sound lib db) (ops : List WordOp) :
    Always (QueryDb.step lib) (NoDangling lib) db ops ↔
      Meets (QueryDb.step lib) (QueryDb.Clears lib) db ops :=
  always_iff_meets (QueryDb.step lib) (fun _ hs => hs.toNoDangling)
    (fun _ op hs hC => hs.step op hC) (fun _ op hs hP => hP.clears hs op) h ops

end Steps

/-- The elementary functions of the runs below. -/
local instance elementaryRatReferences : Elementary ℚ := .firstOrder ℚ

def freshQueryDb : QueryDb ℚ where
  savedWords := .empty
  reviewEvents := .empty
  slots := .empty
  users := .empty
  gradeLedger := .empty
  studySessions := .empty
  queryResults := .empty

theorem sound_freshQueryDb (lib : UnicodeLib) : Sound lib freshQueryDb where
  events := by simp [freshQueryDb]
  links := by simp [freshQueryDb]
  marks := by simp [freshQueryDb]
  unique := by simp [freshQueryDb]
  cards := by simp [freshQueryDb]

/-- A word is asked for, saved and graded. -/
def savedAndGraded : List WordOp :=
  [.query "t" 7 "Haus" "Haus" "german" { word := some "Haus" } 2592000 none 0, .toggle "t" 7 20000 1,
    .grade ⟨fun _ => 20000, fun _ => 0⟩ .firstExposure
      { wordId := 1, userId := 7, grade := 3, gradeSource := some "direct_button", now := 2,
        today := 20000 } {}]

theorem references_kept_saved : Always (QueryDb.step .ascii) (NoDangling .ascii) freshQueryDb
    savedAndGraded :=
  (references_kept_iff (sound_freshQueryDb .ascii) savedAndGraded).mpr
    ⟨trivial, fun _ hw => (nomatch hw), trivial, trivial⟩

/-- Toggled off again, the word leaves its review event behind. -/
theorem toggle_leaves_event :
    ∃ e ∈ (run (QueryDb.step .ascii) freshQueryDb
        (savedAndGraded ++ [.toggle "t" 7 20000 3])).reviewEvents.rows,
      ∀ w ∈ (run (QueryDb.step .ascii) freshQueryDb
        (savedAndGraded ++ [.toggle "t" 7 20000 3])).savedWords.rows, w.id ≠ e.wordId := by
  decide +kernel

end HamZaboon
