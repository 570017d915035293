import HamZaboon.Factory.Registry
import Mathlib.Data.List.Infix

/-! # Batch tickets

The claim, commit and recovery transactions of `factory/core/registry.py`, and
the operations of the registry as one machine.  `stepped` says what each of them
changes, so that no later proof goes through the refusals again.
-/

namespace HamZaboon
open Library

/-- `text LIKE pattern`: `%` stands for any text, `_` for any character, and
ASCII letters match in either case. -/
def sqlLike : List Char → List Char → Bool
  | [], text => text.isEmpty
  | '%' :: pattern, text => text.tails.any (sqlLike pattern)
  | '_' :: pattern, text =>
    match text with
    | [] => false
    | _ :: text => sqlLike pattern text
  | c :: pattern, text =>
    match text with
    | [] => false
    | d :: text => c.toLower = d.toLower && sqlLike pattern text

namespace FactoryRegistry

/-! ## Claims -/

def langOf (s : FactoryRegistry) (ticket : String) : Option String :=
  (s.batches.lookup ticket).map (·.lang)

/-- The item is a claimed or done one of the card, under a ticket of the language. -/
def isClaimOf (s : FactoryRegistry) (lang preCardId : String) (item : BatchItem) : Bool :=
  item.preCardId = preCardId && item.isLive && s.langOf item.ticket = some lang

/-- `EXISTS (SELECT 1 FROM batch_items …)`. -/
def taken (s : FactoryRegistry) (lang preCardId : String) : Bool :=
  s.batchItems.rows.any (s.isClaimOf lang preCardId)

/-- `ORDER BY p.lemma_key, p.pre_card_id`. -/
def pendingLe (a b : Precard) : Bool :=
  if a.lemmaKey = b.lemmaKey then textLe a.preCardId.toList b.preCardId.toList
  else textLe a.lemmaKey.toList b.lemmaKey.toList

/-- The query of `claim_batch` and `get_pending`. -/
def pending (s : FactoryRegistry) (lang : String) : List Precard :=
  (s.precards.rows.filter fun p =>
    p.lang = lang && p.status = .active && p.convertedFinalId.isNone &&
      !s.taken lang p.preCardId).insertionSort fun a b => pendingLe a b = true

/-- `value is True`. -/
def isTrue : JsonValue → Bool
  | .bool value => value
  | _ => false

def getPending (s : FactoryRegistry) (lang : String) (stage : Option String) : List String :=
  match stage with
  | none => (s.pending lang).map (·.preCardId)
  | some stage =>
    let flagged := (s.lemmas.rows.filter fun r =>
      r.lang = lang && isTrue (r.stages.get stage)).map (·.lemmaKey)
    ((s.pending lang).filter fun p => p.lemmaKey ∈ flagged).map (·.preCardId)

/-- `_batch_prefix`, of a date text without its hyphens. -/
def batchPrefix (lang datestr : String) : List Char :=
  "FINAL-".toList ++ lang.toList ++ ['-'] ++ datestr.toList.filter (· ≠ '-') ++ ['-']

/-- `"%02d" % n`. -/
def twoDigits (n : Nat) : List Char :=
  let digits := Nat.toDigits 10 n
  if digits.length < 2 then '0' :: digits else digits

/-- `int(ticket.rsplit("-", 1)[-1])`, of the digits `claim_batch` writes. -/
def ticketNumber (ticket : String) : Option Nat :=
  let digits := (ticket.toList.reverse.takeWhile (· ≠ '-')).reverse
  if digits ≠ [] && digits.all Char.isDigit then some (Nat.ofDigitChars 10 digits 0) else none

/-- The sequence numbers of the tickets with the prefix. -/
def takenNumbers (s : FactoryRegistry) (batchPrefix : List Char) : List Nat :=
  (s.batches.rows.filter fun b => sqlLike (batchPrefix ++ ['%']) b.ticket.toList).filterMap
    fun b => ticketNumber b.ticket

def nextTicket (s : FactoryRegistry) (lang datestr : String) : String :=
  let start := batchPrefix lang datestr
  String.ofList (start ++ twoDigits (((s.takenNumbers start).max?.map (· + 1)).getD 1))

/-- The cards a claim takes: `LIMIT max(0, int(quota))`. -/
def claimed (s : FactoryRegistry) (lang : String) (quota : Int) : List Precard :=
  (s.pending lang).take quota.toNat

def withItems (s : FactoryRegistry) (ticket : String) (cards : List Precard) : FactoryRegistry :=
  let items := cards.foldl (fun items p => items.insertOrIgnore ⟨ticket, p.preCardId, .claimed⟩)
    s.batchItems
  { s with batchItems := items }

def wholeSeconds (now : Int) : Int := now / 1000000

/-- `claim_batch` at the moment `now` (in microseconds), under the given or today's date. -/
def claimBatch (s : FactoryRegistry) (lang : String) (quota : Int) (datestr : String) (now : Int) :
    Except RegistryError (FactoryRegistry × String) :=
  let cards := s.claimed lang quota
  let ticket := s.nextTicket lang datestr
  if s.batches.has ticket then .error (.integrityError "UNIQUE constraint failed: batches.ticket")
  else
    let batches := s.batches.insertOrIgnore
      ⟨ticket, lang, quota, ⟨wholeSeconds now, quota, cards.length, 0⟩⟩
    .ok ({ s with batches := batches }.withItems ticket cards, ticket)

/-! ### Tickets are new -/

theorem sqlLike_append (start rest : List Char) : sqlLike (start ++ ['%']) (start ++ rest) = true := by
  induction start with
  | nil =>
    rw [List.nil_append, List.nil_append, sqlLike, List.any_eq_true]
    exact ⟨[], (List.mem_tails _ _).mpr (List.nil_suffix), rfl⟩
  | cons c start ih =>
    by_cases hany : c = '%'
    · subst hany
      rw [List.cons_append, List.cons_append, sqlLike, List.any_eq_true]
      exact ⟨start ++ rest, (List.mem_tails _ _).mpr (List.suffix_cons _ _), ih⟩
    · by_cases hone : c = '_'
      · subst hone
        rw [List.cons_append, List.cons_append, sqlLike]
        exact ih
      · rw [List.cons_append, List.cons_append, sqlLike]
        · simp [ih]
        · exact hany
        · exact hone

theorem ofDigitChars_twoDigits (n : Nat) : Nat.ofDigitChars 10 (twoDigits n) 0 = n := by
  simp only [twoDigits]
  split
  · rw [Nat.ofDigitChars_cons]
    exact Nat.ofDigitChars_ten_toDigits
  · exact Nat.ofDigitChars_ten_toDigits

theorem isDigit_of_mem_twoDigits {n : Nat} {c : Char} (h : c ∈ twoDigits n) : c.isDigit = true := by
  have hdigits : ∀ c ∈ Nat.toDigits 10 n, c.isDigit = true := fun c hc =>
    Nat.isDigit_of_mem_toDigits (by omega) (by omega) hc
  simp only [twoDigits] at h
  split at h
  · rcases List.mem_cons.mp h with rfl | h
    · rfl
    · exact hdigits c h
  · exact hdigits c h

theorem ticketNumber_twoDigits (start : List Char) (n : Nat) :
    ticketNumber (String.ofList (start ++ ['-'] ++ twoDigits n)) = some n := by
  have hdigit : ∀ c ∈ (twoDigits n).reverse, decide (c ≠ '-') = true := by
    intro c hc
    refine decide_eq_true fun heq => ?_
    have hc' := isDigit_of_mem_twoDigits (List.mem_reverse.mp hc)
    rw [heq] at hc'
    cases hc'
  have hne : twoDigits n ≠ [] := by
    simp only [twoDigits]
    split
    · exact List.cons_ne_nil _ _
    · exact Nat.toDigits_ne_nil
  have htail : (String.ofList (start ++ ['-'] ++ twoDigits n)).toList.reverse.takeWhile (· ≠ '-') =
      (twoDigits n).reverse := by
    rw [String.toList_ofList, List.reverse_append, List.takeWhile_append_of_pos hdigit]
    simp
  simp only [ticketNumber]
  rw [htail, List.reverse_reverse, ofDigitChars_twoDigits]
  refine if_pos ?_
  simp only [Bool.and_eq_true, decide_eq_true_eq, List.all_eq_true]
  exact ⟨hne, fun c hc => isDigit_of_mem_twoDigits hc⟩

theorem nextTicket_new (s : FactoryRegistry) (lang datestr : String) :
    s.batches.has (s.nextTicket lang datestr) = false := by
  refine Bool.eq_false_iff.mpr fun hhas => ?_
  obtain ⟨batch, hmem, hticket⟩ := KeyedTable.has_iff.mp hhas
  generalize hnext : ((s.takenNumbers (batchPrefix lang datestr)).max?.map (· + 1)).getD 1 = next
    at hticket
  have hnumber : next ∈ s.takenNumbers (batchPrefix lang datestr) := by
    refine List.mem_filterMap.mpr ⟨batch, List.mem_filter.mpr ⟨hmem, ?_⟩, ?_⟩
    · rw [hticket, nextTicket, hnext, String.toList_ofList]
      exact sqlLike_append _ _
    · rw [hticket, nextTicket, hnext]
      exact ticketNumber_twoDigits _ _
  -- the next number is one more than the largest
  obtain ⟨top, htop⟩ := Option.isSome_iff_exists.mp (List.isSome_max?_of_mem hnumber)
  have hle := (List.max?_eq_some_iff.mp htop).2 next hnumber
  rw [htop] at hnext
  simp only [Option.map_some, Option.getD_some] at hnext
  omega

/-- **A claim never fails.** -/
theorem claimBatch_ok (s : FactoryRegistry) (lang : String) (quota : Int) (datestr : String)
    (now : Int) : ∃ s', s.claimBatch lang quota datestr now = .ok (s', s.nextTicket lang datestr) := by
  simp only [claimBatch, nextTicket_new]
  exact ⟨_, rfl⟩

/-! ## Completion -/

/-- `SELECT COUNT(*) FROM batch_items WHERE ticket=? AND status='done'`. -/
def doneCount (s : FactoryRegistry) (ticket : String) : Nat :=
  s.batchItems.rows.countP fun item => item.ticket = ticket && item.status = .done

/-- `UPDATE batch_items SET status=? WHERE …`. -/
def setItems (s : FactoryRegistry) (p : BatchItem → Bool) (status : ItemStatus) :
    FactoryRegistry :=
  let items := s.batchItems.updateWhere p (fun r => { r with status := status }) fun _ => rfl
  { s with batchItems := items }

/-- `UPDATE batches SET progress=? WHERE ticket=?`. -/
def setProgress (s : FactoryRegistry) (ticket : String) (f : TicketProgress → TicketProgress) :
    FactoryRegistry :=
  let batches := s.batches.updateWhere (·.ticket = ticket)
    (fun r => { r with progress := f r.progress }) fun _ => rfl
  { s with batches := batches }

/-- The writes of `complete_batch_item`. -/
def applied (s : FactoryRegistry) (lang ticket preCardId : String) (finalId : Option String) :
    FactoryRegistry :=
  let s := s.setItems (fun r => r.ticket = ticket && r.preCardId = preCardId) .done
  let s := s.setConverted lang preCardId finalId
  s.setProgress ticket fun p => { p with done := s.doneCount ticket }

@[simp] theorem precards_applied (s : FactoryRegistry) (lang ticket preCardId : String)
    (finalId : Option String) :
    (s.applied lang ticket preCardId finalId).precards =
      (s.setConverted lang preCardId finalId).precards := rfl

@[simp] theorem batchItems_applied (s : FactoryRegistry) (lang ticket preCardId : String)
    (finalId : Option String) :
    (s.applied lang ticket preCardId finalId).batchItems =
      (s.setItems (fun r => r.ticket = ticket && r.preCardId = preCardId) .done).batchItems := rfl

def completeBatchItem (s : FactoryRegistry) (ticket preCardId : String)
    (finalId : Option String) : FactoryRegistry × Bool :=
  match s.batchItems.lookup (ticket, preCardId) with
  | none => (s, false)
  | some item =>
    if item.status = .done then (s, false)
    else match s.batches.lookup ticket with
      | none => (s, false)
      | some batch =>
        if (s.precards.lookup (batch.lang, preCardId)).any fun row =>
            convertedElsewhere row finalId then (s, false)
        else (s.applied batch.lang ticket preCardId finalId, true)

/-! ## Recovery -/

/-- `requeue_stale` at the moment `now`; the lease a claim or a recovery wrote is
always read back. -/
def requeueStale (s : FactoryRegistry) (ticket : String) (staleSeconds now : Int) :
    FactoryRegistry × Nat :=
  match s.batches.lookup ticket with
  | none => (s, 0)
  | some batch =>
    if now - batch.progress.leasedAt * 1000000 ≤ staleSeconds * 1000000 then (s, 0)
    else
      let stale := fun r : BatchItem => r.ticket = ticket && r.status = .claimed
      ((s.setItems stale .queued).setProgress ticket fun p =>
        { p with leasedAt := wholeSeconds now }, s.batchItems.rows.countP stale)

end FactoryRegistry

/-! ## The machine -/

inductive RegistryOp
  | registerLanguage (code packVersion : String)
  | upsertLemma (u : FactoryRegistry.LemmaUpdate)
  | addPrecard (lang lemmaKey : String) (gloss senseCefr legacyId createdRun : Option String)
  | markMerged (lang : String) (survivorId : Option String) (droppedId : String)
  | markConverted (lang preCardId : String) (finalId : Option String)
  | claimBatch (lang : String) (quota : Int) (datestr : String) (now : Int)
  | completeBatchItem (ticket preCardId : String) (finalId : Option String)
  | requeueStale (ticket : String) (staleSeconds now : Int)

namespace FactoryRegistry

/-- One transaction; one that raises is rolled back. -/
def step (lib : RegistryLib) (s : FactoryRegistry) : RegistryOp → FactoryRegistry
  | .registerLanguage code packVersion => s.registerLanguage code packVersion
  | .upsertLemma u => (s.upsertLemma lib u).toOption.getD s
  | .addPrecard lang lemmaKey gloss senseCefr legacyId createdRun =>
    ((s.addPrecard lib lang lemmaKey gloss senseCefr legacyId createdRun).map (·.1)).toOption.getD s
  | .markMerged lang survivorId droppedId => (s.markMerged lang survivorId droppedId).1
  | .markConverted lang preCardId finalId => (s.markConverted lang preCardId finalId).1
  | .claimBatch lang quota datestr now =>
    ((s.claimBatch lang quota datestr now).map (·.1)).toOption.getD s
  | .completeBatchItem ticket preCardId finalId =>
    (s.completeBatchItem ticket preCardId finalId).1
  | .requeueStale ticket staleSeconds now => (s.requeueStale ticket staleSeconds now).1

/-! ## What a transaction changes -/

/-- The change a transaction makes to cards, tickets and items. -/
inductive Stepped (s : FactoryRegistry) : RegistryOp → FactoryRegistry → Prop
  | kept {op : RegistryOp} {s' : FactoryRegistry} : s'.precards = s.precards →
      s'.batches = s.batches → s'.batchItems = s.batchItems → Stepped s op s'
  | added {op : RegistryOp} {s' : FactoryRegistry} (row : Precard) :
      s'.precards = s.precards.insertOrIgnore row → s'.batches = s.batches →
      s'.batchItems = s.batchItems → row.status = .active → row.mergedInto = none →
      row.convertedFinalId = none → Stepped s op s'
  | merged (lang survivor dropped : String) : survivor ≠ "" → survivor ≠ dropped →
      s.precards.has (lang, dropped) = true →
      Stepped s (.markMerged lang (some survivor) dropped) (s.setMerged lang survivor dropped)
  | converted (lang preCardId : String) (finalId : Option String) (row : Precard) :
      s.precards.lookup (lang, preCardId) = some row → convertedElsewhere row finalId = false →
      Stepped s (.markConverted lang preCardId finalId) (s.setConverted lang preCardId finalId)
  | claimed (lang : String) (quota : Int) (datestr : String) (now : Int) (ticket : String)
      {s' : FactoryRegistry} : s.batches.has ticket = false → s'.precards = s.precards →
      s'.batches = s.batches.insertOrIgnore ⟨ticket, lang, quota,
        ⟨wholeSeconds now, quota, (s.claimed lang quota).length, 0⟩⟩ →
      s'.batchItems = (s.withItems ticket (s.claimed lang quota)).batchItems →
      Stepped s (.claimBatch lang quota datestr now) s'
  | completed (ticket preCardId : String) (finalId : Option String) (item : BatchItem)
      (batch : Batch) : s.batchItems.lookup (ticket, preCardId) = some item →
      s.batches.lookup ticket = some batch → item.status ≠ .done →
      ((s.precards.lookup (batch.lang, preCardId)).any fun row =>
        convertedElsewhere row finalId) = false →
      Stepped s (.completeBatchItem ticket preCardId finalId)
        (s.applied batch.lang ticket preCardId finalId)
  | requeued (ticket : String) (staleSeconds now : Int) :
      Stepped s (.requeueStale ticket staleSeconds now)
        ((s.setItems (fun r => r.ticket = ticket && r.status = .claimed) .queued).setProgress
          ticket fun p => { p with leasedAt := wholeSeconds now })

theorem completeBatchItem_cases (s : FactoryRegistry) (ticket preCardId : String)
    (finalId : Option String) :
    (s.completeBatchItem ticket preCardId finalId = (s, false)) ∨
    ∃ item batch, s.batchItems.lookup (ticket, preCardId) = some item ∧
      s.batches.lookup ticket = some batch ∧ item.status ≠ .done ∧
      ((s.precards.lookup (batch.lang, preCardId)).any fun row =>
        convertedElsewhere row finalId) = false ∧
      s.completeBatchItem ticket preCardId finalId =
        (s.applied batch.lang ticket preCardId finalId, true) := by
  unfold completeBatchItem
  cases hitem : s.batchItems.lookup (ticket, preCardId) with
  | none => exact .inl rfl
  | some item =>
    by_cases hdone : item.status = .done
    · exact .inl (if_pos hdone)
    · cases hbatch : s.batches.lookup ticket with
      | none => exact .inl (if_neg hdone)
      | some batch =>
        by_cases helse : ((s.precards.lookup (batch.lang, preCardId)).any fun row =>
            convertedElsewhere row finalId) = true
        · refine .inl ?_
          simp only [hdone, helse, if_false, if_true]
        · refine .inr ⟨item, batch, rfl, rfl, hdone, Bool.not_eq_true _ ▸ helse, ?_⟩
          simp only [hdone, helse, if_false]
          rfl

theorem stepped_upsertLemma (lib : RegistryLib) (s : FactoryRegistry) (u : LemmaUpdate) :
    Stepped s (.upsertLemma u) (s.step lib (.upsertLemma u)) := by
  simp only [step]
  cases hu : s.upsertLemma lib u with
  | error e => exact .kept rfl rfl rfl
  | ok s' =>
    obtain ⟨key, -, h⟩ := bind_eq_ok.mp hu
    obtain ⟨pos, -, h⟩ := bind_eq_ok.mp h
    cases h
    exact .kept rfl rfl rfl

theorem stepped_markMerged (lib : RegistryLib) (s : FactoryRegistry) (lang : String)
    (survivorId : Option String) (droppedId : String) :
    Stepped s (.markMerged lang survivorId droppedId)
      (s.step lib (.markMerged lang survivorId droppedId)) := by
  simp only [step, markMerged]
  cases survivorId with
  | none => exact .kept rfl rfl rfl
  | some survivor =>
    by_cases hsame : (survivor = "" || survivor = droppedId) = true
    · simp only [hsame, if_true]
      exact .kept rfl rfl rfl
    · cases hrow : s.precards.lookup (lang, droppedId) with
      | none =>
        simp only [hsame]
        exact .kept rfl rfl rfl
      | some row =>
        simp only [hsame]
        simp only [Bool.or_eq_true, decide_eq_true_eq, not_or] at hsame
        exact .merged _ _ _ hsame.1 hsame.2 (KeyedTable.has_iff_lookup.mpr ⟨row, hrow⟩)

theorem stepped_markConverted (lib : RegistryLib) (s : FactoryRegistry) (lang preCardId : String)
    (finalId : Option String) :
    Stepped s (.markConverted lang preCardId finalId)
      (s.step lib (.markConverted lang preCardId finalId)) := by
  simp only [step, markConverted]
  cases hrow : s.precards.lookup (lang, preCardId) with
  | none => exact .kept rfl rfl rfl
  | some row =>
    by_cases helse : convertedElsewhere row finalId = true
    · simp only [helse, if_true]
      exact .kept rfl rfl rfl
    · simp only [helse]
      exact .converted _ _ _ row hrow (Bool.not_eq_true _ ▸ helse)

theorem stepped_requeueStale (lib : RegistryLib) (s : FactoryRegistry) (ticket : String)
    (staleSeconds now : Int) :
    Stepped s (.requeueStale ticket staleSeconds now)
      (s.step lib (.requeueStale ticket staleSeconds now)) := by
  simp only [step, requeueStale]
  cases hbatch : s.batches.lookup ticket with
  | none => exact .kept rfl rfl rfl
  | some batch =>
    by_cases hfresh : now - batch.progress.leasedAt * 1000000 ≤ staleSeconds * 1000000
    · simp only [hfresh, if_true]
      exact .kept rfl rfl rfl
    · simp only [hfresh, if_false]
      exact .requeued _ _ _

/-- **What a transaction changes**, whatever it is. -/
theorem stepped (lib : RegistryLib) (s : FactoryRegistry) (op : RegistryOp) :
    Stepped s op (s.step lib op) := by
  cases op with
  | registerLanguage code packVersion => exact .kept rfl rfl rfl
  | upsertLemma u => exact stepped_upsertLemma lib s u
  | addPrecard lang lemmaKey gloss senseCefr legacyId createdRun =>
    simp only [step]
    cases hadd : s.addPrecard lib lang lemmaKey gloss senseCefr legacyId createdRun with
    | error e => exact .kept rfl rfl rfl
    | ok result =>
      obtain ⟨pid, -, h⟩ := bind_eq_ok.mp hadd
      cases h
      cases gloss with
      | none => exact .kept rfl rfl rfl
      | some gloss => exact .added _ rfl rfl rfl rfl rfl rfl
  | markMerged lang survivorId droppedId => exact stepped_markMerged lib s lang survivorId droppedId
  | markConverted lang preCardId finalId =>
    exact stepped_markConverted lib s lang preCardId finalId
  | claimBatch lang quota datestr now =>
    simp only [step, claimBatch]
    by_cases hticket : s.batches.has (s.nextTicket lang datestr) = true
    · simp only [hticket, if_true]
      exact .kept rfl rfl rfl
    · simp only [hticket]
      exact .claimed _ _ _ _ _ (Bool.not_eq_true _ ▸ hticket) rfl rfl rfl
  | completeBatchItem ticket preCardId finalId =>
    simp only [step]
    rcases s.completeBatchItem_cases ticket preCardId finalId with h | ⟨item, batch, hi, hb, hd, he, h⟩
    · rw [h]
      exact .kept rfl rfl rfl
    · rw [h]
      exact .completed _ _ _ item batch hi hb hd he
  | requeueStale ticket staleSeconds now => exact stepped_requeueStale lib s ticket staleSeconds now

end FactoryRegistry

end HamZaboon
