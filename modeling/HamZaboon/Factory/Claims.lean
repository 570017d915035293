import HamZaboon.Factory.Tickets
import HamZaboon.Library.Ranking
import Mathlib.Data.Prod.Lex

/-! # One live claim for a card

Every item is a card of its ticket's language, and a ticket counts its done
items, after any transactions.  That a card has one live claim is lost in one
place: `complete_batch_item` refuses done items only, so an item that went back
to the queue is committed although another ticket holds the card.

Claims take turns: a run of them hands out the pending cards of a language in
their order, each to one ticket (`claims_take_turns`).
-/

namespace HamZaboon
open Library

namespace FactoryRegistry

/-! ## Frames -/

section Frames
variable {s s' : FactoryRegistry} {op : RegistryOp}

theorem Stepped.has_precard (h : Stepped s op s') {key : String × String}
    (hkey : s.precards.has key = true) : s'.precards.has key = true := by
  cases h with
  | kept hp => rwa [hp]
  | added row hp =>
    obtain ⟨r, hr⟩ := KeyedTable.has_iff_lookup.mp hkey
    rw [hp, KeyedTable.has_iff_lookup]
    exact ⟨r, by rw [KeyedTable.lookup_insertOrIgnore, hr, Option.some_or]⟩
  | merged => rwa [setMerged, has_updatePrecard]
  | converted => rwa [setConverted, has_updatePrecard]
  | claimed _ _ _ _ _ _ hp => rwa [hp]
  | completed => rwa [precards_applied, setConverted, has_updatePrecard]
  | requeued => exact hkey

theorem langOf_setProgress (ticket : String) (f : TicketProgress → TicketProgress) (t : String) :
    (s.setProgress ticket f).langOf t = s.langOf t := by
  rw [langOf, langOf, setProgress, KeyedTable.lookup_updateWhere, Option.map_map]
  refine congrArg (fun g => (s.batches.lookup t).map g) (funext fun r => ?_)
  simp only [Function.comp]
  split <;> rfl

theorem langOf_insert {ticket lang : String} {row : Batch} (hticket : row.ticket = ticket)
    (hlang : row.lang = lang) (hnew : s.batches.has ticket = false) (hb : s'.batches =
      s.batches.insertOrIgnore row) (t : String) :
    s'.langOf t = if t = ticket then some lang else s.langOf t := by
  rw [langOf, hb, KeyedTable.lookup_insertOrIgnore, hticket]
  by_cases ht : t = ticket
  · rw [if_pos ht, if_pos ht.symm, ht, KeyedTable.lookup_eq_none.mpr hnew, Option.none_or,
      Option.map_some, hlang]
  · rw [if_neg ht, if_neg (Ne.symm ht), Option.or_none]
    rfl

theorem Stepped.langOf (h : Stepped s op s') {ticket lang : String}
    (hlang : s.langOf ticket = some lang) : s'.langOf ticket = some lang := by
  cases h with
  | kept _ hb => rwa [FactoryRegistry.langOf, hb]
  | added _ _ hb => rwa [FactoryRegistry.langOf, hb]
  | merged => exact hlang
  | converted => exact hlang
  | claimed lang' _ _ _ new hnew _ hb =>
    rw [langOf_insert rfl rfl hnew hb, if_neg]
    · exact hlang
    · rintro rfl
      rw [FactoryRegistry.langOf, KeyedTable.lookup_eq_none.mpr hnew] at hlang
      cases hlang
  | completed => exact (langOf_setProgress _ _ _).trans hlang
  | requeued => exact (langOf_setProgress _ _ _).trans hlang

end Frames

/-! ## Items belong to their tickets -/

/-- Every item is a card of its ticket's language. -/
def Ticketed (s : FactoryRegistry) : Prop :=
  ∀ item ∈ s.batchItems.rows, ∃ lang, s.langOf item.ticket = some lang ∧
    s.precards.has (lang, item.preCardId) = true

section Items
variable {s : FactoryRegistry}

theorem mem_claimed {lang : String} {quota : Int} {p : Precard} (h : p ∈ s.claimed lang quota) :
    p ∈ s.precards.rows ∧ p.lang = lang ∧ p.status = .active ∧
      s.taken lang p.preCardId = false := by
  have hmem := List.mem_of_mem_take h
  rw [pending, List.mem_insertionSort, List.mem_filter] at hmem
  simp only [Bool.and_eq_true, decide_eq_true_eq, Bool.not_eq_true'] at hmem
  exact ⟨hmem.1, hmem.2.1.1.1, hmem.2.1.1.2, hmem.2.2⟩

theorem nodup_claimed (lang : String) (quota : Int) :
    ((s.claimed lang quota).map (·.preCardId)).Nodup := by
  have hkeys : ((s.claimed lang quota).map fun p => (p.lang, p.preCardId)).Nodup := by
    refine List.Nodup.sublist ((List.take_sublist _ _).map _) ?_
    rw [pending, ((List.perm_insertionSort _ _).map _).nodup_iff]
    exact s.precards.pk.sublist (List.filter_sublist.map _)
  refine List.pairwise_map.mpr ((List.pairwise_map.mp hkeys).imp_of_mem ?_)
  intro a b ha hb hne heq
  exact hne (Prod.ext ((mem_claimed ha).2.1.trans (mem_claimed hb).2.1.symm) heq)

theorem Ticketed.no_items (h : Ticketed s) {ticket : String} (hnew : s.batches.has ticket = false) :
    ∀ item ∈ s.batchItems.rows, item.ticket ≠ ticket := by
  rintro item hitem rfl
  obtain ⟨lang, hlang, -⟩ := h item hitem
  rw [langOf, KeyedTable.lookup_eq_none.mpr hnew] at hlang
  cases hlang

theorem rows_withItems (h : Ticketed s) {ticket : String} (hnew : s.batches.has ticket = false)
    (lang : String) (quota : Int) :
    (s.withItems ticket (s.claimed lang quota)).batchItems.rows =
      s.batchItems.rows ++ (s.claimed lang quota).map fun p => ⟨ticket, p.preCardId, .claimed⟩ := by
  refine KeyedTable.rows_foldl_insertOrIgnore
    (fun p : Precard => BatchItem.mk ticket p.preCardId .claimed) _ ?_ ?_
  · intro p _
    refine Bool.eq_false_iff.mpr fun hhas => ?_
    obtain ⟨item, hitem, hkey⟩ := KeyedTable.has_iff.mp hhas
    exact h.no_items hnew item hitem (congrArg Prod.fst hkey)
  · exact List.pairwise_map.mpr ((List.pairwise_map.mp (nodup_claimed lang quota)).imp
      fun hne heq => hne (congrArg Prod.snd heq))

theorem ticketed_empty : Ticketed empty := by
  intro item hitem
  cases hitem

theorem Ticketed.step (lib : RegistryLib) (op : RegistryOp) (h : Ticketed s) :
    Ticketed (s.step lib op) := by
  have hstep := s.stepped lib op
  -- an item that was there under the same key keeps its ticket's language and its card
  have hold : ∀ item ∈ s.batchItems.rows, ∃ lang, (s.step lib op).langOf item.ticket = some lang ∧
      (s.step lib op).precards.has (lang, item.preCardId) = true := by
    intro item hitem
    obtain ⟨lang, hlang, hcard⟩ := h item hitem
    exact ⟨lang, hstep.langOf hlang, hstep.has_precard hcard⟩
  have hmap : ∀ (p : BatchItem → Bool) (status : ItemStatus) (item : BatchItem),
      item ∈ (s.setItems p status).batchItems.rows → ∃ lang,
        (s.step lib op).langOf item.ticket = some lang ∧
        (s.step lib op).precards.has (lang, item.preCardId) = true := by
    intro p status item hitem
    obtain ⟨r, hr, rfl⟩ := List.mem_map.mp hitem
    have hr' := hold r hr
    split <;> exact hr'
  intro item hitem
  generalize s.step lib op = s' at *
  cases hstep with
  | kept _ _ hi => exact hold item (hi ▸ hitem)
  | added _ _ _ hi => exact hold item (hi ▸ hitem)
  | merged => exact hold item hitem
  | converted => exact hold item hitem
  | claimed lang quota _ _ ticket hnew hp hb hi =>
    rw [hi, rows_withItems h hnew, List.mem_append] at hitem
    rcases hitem with hitem | hitem
    · exact hold item hitem
    · obtain ⟨p, hclaimed, rfl⟩ := List.mem_map.mp hitem
      obtain ⟨hmem, hlang, -⟩ := mem_claimed hclaimed
      refine ⟨lang, by rw [langOf_insert rfl rfl hnew hb, if_pos rfl], ?_⟩
      rw [hp, KeyedTable.has_iff]
      exact ⟨p, hmem, by rw [hlang]⟩
  | completed => exact hmap _ _ item hitem
  | requeued => exact hmap _ _ item hitem

end Items

/-! ## The counter of a ticket -/

/-- `progress.done` of every ticket is the number of its done items. -/
def DoneCounted (s : FactoryRegistry) : Prop :=
  ∀ batch ∈ s.batches.rows, batch.progress.done = s.doneCount batch.ticket

section Counter
variable {s : FactoryRegistry}

theorem doneCount_setItems {p : BatchItem → Bool} {status : ItemStatus} {ticket : String}
    (h : ∀ r ∈ s.batchItems.rows, p r = true → r.ticket = ticket → r.status ≠ .done ∧ status ≠ .done) :
    (s.setItems p status).doneCount ticket = s.doneCount ticket := by
  simp only [doneCount, setItems, KeyedTable.rows_updateWhere, List.countP_map]
  refine List.countP_congr fun r hr => ?_
  by_cases hp : p r = true
  · simp only [Function.comp, hp, if_true, Bool.and_eq_true, decide_eq_true_eq]
    constructor
    · rintro ⟨ht, hs⟩
      exact absurd hs (h r hr hp ht).2
    · rintro ⟨ht, hs⟩
      exact absurd hs (h r hr hp ht).1
  · simp only [Function.comp, hp, Bool.false_eq_true, if_false]

theorem doneCounted_empty : DoneCounted empty := by
  intro batch hbatch
  cases hbatch

theorem DoneCounted.step (lib : RegistryLib) (op : RegistryOp) (ht : Ticketed s)
    (h : DoneCounted s) : DoneCounted (s.step lib op) := by
  have hstep := s.stepped lib op
  generalize s.step lib op = s' at *
  have hkept : s'.batches = s.batches → s'.batchItems = s.batchItems → DoneCounted s' := by
    intro hb hi batch hbatch
    rw [hb] at hbatch
    rw [doneCount, hi]
    exact h batch hbatch
  cases hstep with
  | kept _ hb hi => exact hkept hb hi
  | added _ _ hb hi => exact hkept hb hi
  | merged => exact hkept rfl rfl
  | converted => exact hkept rfl rfl
  | claimed lang quota _ now ticket hnew _ hb hi =>
    intro batch hbatch
    -- the new items are claimed, so no count changes
    have hcount : s'.doneCount batch.ticket = s.doneCount batch.ticket := by
      rw [doneCount, hi, rows_withItems ht hnew, List.countP_append, List.countP_map]
      refine Nat.add_eq_left.mpr (List.countP_eq_zero.mpr fun p _ => ?_)
      simp
    rw [hcount]
    rw [hb, KeyedTable.rows_insertOrIgnore, hnew] at hbatch
    rcases List.mem_append.mp hbatch with hold | hold
    · exact h batch hold
    · obtain rfl := List.mem_singleton.mp hold
      refine (List.countP_eq_zero.mpr fun item hitem => ?_).symm
      simp [ht.no_items hnew item hitem]
  | completed ticket preCardId finalId item batch _ _ _ _ =>
    intro b hb
    obtain ⟨old, hold, rfl⟩ := List.mem_map.mp hb
    by_cases htick : old.ticket = ticket
    · simp only [htick, decide_true, if_true]
      rfl
    · simp only [htick, decide_false, Bool.false_eq_true, if_false]
      rw [h old hold]
      refine (doneCount_setItems fun r _ hr hrt => ?_).symm
      simp only [Bool.and_eq_true, decide_eq_true_eq] at hr
      exact absurd (hrt.symm.trans hr.1) htick
  | requeued ticket staleSeconds now =>
    intro b hb
    obtain ⟨old, hold, rfl⟩ := List.mem_map.mp hb
    have hcount : (s.setItems (fun r => r.ticket = ticket && r.status = .claimed) .queued).doneCount
        old.ticket = s.doneCount old.ticket := doneCount_setItems fun r _ hr _ => by
        simp only [Bool.and_eq_true, decide_eq_true_eq] at hr
        rw [hr.2]
        exact ⟨nofun, nofun⟩
    have hdone := (h old hold).trans hcount.symm
    split <;> exact hdone

end Counter

/-! ## Conversion receipts -/

/-- A card's conversion receipt, once there. -/
def receipt (s : FactoryRegistry) (lang preCardId : String) : Option String :=
  (s.precards.lookup (lang, preCardId)).bind (·.convertedFinalId)

/-- Every receipt of `s` stands in `s'` unchanged. -/
def KeepsReceipts (s s' : FactoryRegistry) : Prop :=
  ∀ lang preCardId finalId, s.receipt lang preCardId = some finalId →
    s'.receipt lang preCardId = some finalId

section Receipts
variable {s s' : FactoryRegistry}

theorem receipt_updatePrecard (lang preCardId : String) (f : Precard → Precard)
    (hf : ∀ r, ((f r).lang, (f r).preCardId) = (r.lang, r.preCardId)) (l p : String) :
    (s.updatePrecard lang preCardId f hf).receipt l p =
      (s.precards.lookup (l, p)).bind fun r =>
        if l = lang ∧ p = preCardId then (f r).convertedFinalId else r.convertedFinalId := by
  rw [receipt, lookup_updatePrecard, Option.bind_map]
  refine congrArg (s.precards.lookup (l, p)).bind (funext fun r => ?_)
  simp only [Function.comp]
  split <;> rfl

theorem keepsReceipts_setMerged (lang survivor dropped : String) :
    KeepsReceipts s (s.setMerged lang survivor dropped) := by
  intro l p finalId h
  rw [setMerged, receipt_updatePrecard]
  simp only [ite_self]
  exact h

theorem keepsReceipts_setConverted {lang preCardId : String} {finalId : Option String}
    (h : ((s.precards.lookup (lang, preCardId)).any fun row =>
      convertedElsewhere row finalId) = false) :
    KeepsReceipts s (s.setConverted lang preCardId finalId) := by
  intro l p f hf
  rw [setConverted, receipt_updatePrecard]
  obtain ⟨row, hrow, hrec⟩ := Option.bind_eq_some_iff.mp hf
  rw [hrow, Option.bind_some]
  split
  · rename_i heq
    rw [heq.1, heq.2] at hrow
    rw [hrow] at h
    simp only [Option.any_some, convertedElsewhere, hrec, Bool.and_eq_false_iff] at h
    have hsame : some f = finalId := by simpa using h
    exact hsame.symm
  · exact hrec

theorem Stepped.keepsReceipts {op : RegistryOp} (h : Stepped s op s') : KeepsReceipts s s' := by
  have hkept : s'.precards = s.precards → KeepsReceipts s s' := by
    intro hp l p f hf
    rwa [receipt, hp]
  cases h with
  | kept hp => exact hkept hp
  | added row hp =>
    intro l p f hf
    obtain ⟨r, hr, hrec⟩ := Option.bind_eq_some_iff.mp hf
    rw [receipt, hp, KeyedTable.lookup_insertOrIgnore, hr]
    exact hrec
  | merged => exact keepsReceipts_setMerged _ _ _
  | converted lang preCardId finalId row hrow helse =>
    exact keepsReceipts_setConverted (by rw [hrow]; exact helse)
  | claimed _ _ _ _ _ _ hp => exact hkept hp
  | completed _ _ _ _ _ _ _ _ helse => exact keepsReceipts_setConverted helse
  | requeued => exact hkept rfl

end Receipts

/-! ## Claims on a card -/

/-- How many items hold the card: claimed or done ones under tickets of its language. -/
def claimCount (s : FactoryRegistry) (lang preCardId : String) : Nat :=
  s.batchItems.rows.countP (s.isClaimOf lang preCardId)

/-- Every card has at most one live claim. -/
def OneClaimEach (s : FactoryRegistry) : Prop :=
  ∀ card ∈ s.precards.rows, s.claimCount card.lang card.preCardId ≤ 1

/-- A completion that is not refused, of an item that went back to the queue,
for a card that another ticket of the language holds. -/
def lateCompletion (s : FactoryRegistry) : RegistryOp → Bool
  | .completeBatchItem ticket preCardId finalId =>
    match s.batchItems.lookup (ticket, preCardId), s.batches.lookup ticket with
    | some item, some batch =>
      item.status = .queued && s.taken batch.lang preCardId &&
        !((s.precards.lookup (batch.lang, preCardId)).any fun row => convertedElsewhere row finalId)
    | _, _ => false
  | _ => false

section OneClaim
variable {s s' : FactoryRegistry}

theorem claimCount_eq_zero {lang preCardId : String} :
    s.claimCount lang preCardId = 0 ↔ s.taken lang preCardId = false := by
  rw [claimCount, List.countP_eq_zero, taken, List.any_eq_false]

theorem eq_of_countP_le_one {α : Type} {l : List α} {p : α → Bool} (h : l.countP p ≤ 1) {a b : α}
    (ha : a ∈ l) (hpa : p a = true) (hb : b ∈ l) (hpb : p b = true) : a = b := by
  rw [List.countP_eq_length_filter] at h
  have ha' := List.mem_filter.mpr ⟨ha, hpa⟩
  have hb' := List.mem_filter.mpr ⟨hb, hpb⟩
  obtain ⟨x, hx⟩ := List.length_eq_one_iff.mp (Nat.le_antisymm h (List.length_pos_of_mem ha'))
  rw [hx, List.mem_singleton] at ha' hb'
  rw [ha', hb']

theorem isClaimOf_iff {lang preCardId : String} {item : BatchItem} :
    s.isClaimOf lang preCardId item = true ↔
      item.preCardId = preCardId ∧ item.status ≠ .queued ∧ s.langOf item.ticket = some lang := by
  simp [isClaimOf, BatchItem.isLive, and_assoc]

theorem claimCount_claimed {lang ticket : String} {quota : Int} {row : Batch} (ht : Ticketed s)
    (hticket : row.ticket = ticket) (hlang : row.lang = lang) (hnew : s.batches.has ticket = false)
    (hb : s'.batches = s.batches.insertOrIgnore row)
    (hi : s'.batchItems = (s.withItems ticket (s.claimed lang quota)).batchItems) (l p : String) :
    s'.claimCount l p = s.claimCount l p +
      (s.claimed lang quota).countP fun card => card.preCardId = p && lang = l := by
  rw [claimCount, hi, rows_withItems ht hnew, List.countP_append, List.countP_map]
  congr 1
  · refine List.countP_congr fun item hitem => ?_
    rw [isClaimOf_iff, isClaimOf_iff, langOf_insert hticket hlang hnew hb,
      if_neg (ht.no_items hnew item hitem)]
  · refine List.countP_congr fun card _ => ?_
    rw [Function.comp, isClaimOf_iff, langOf_insert hticket hlang hnew hb, if_pos rfl]
    simp

theorem claimCount_applied {ticket preCardId : String} {finalId : Option String}
    {item : BatchItem} {batch : Batch}
    (hitem : s.batchItems.lookup (ticket, preCardId) = some item)
    (hbatch : s.batches.lookup ticket = some batch) (l p : String) :
    (s.applied batch.lang ticket preCardId finalId).claimCount l p =
      s.batchItems.rows.countP fun r =>
        if r.ticket = ticket ∧ r.preCardId = preCardId then preCardId = p && batch.lang = l
        else s.isClaimOf l p r := by
  have hlang : s.langOf ticket = some batch.lang := by rw [langOf, hbatch, Option.map_some]
  rw [claimCount, batchItems_applied, setItems, KeyedTable.rows_updateWhere, List.countP_map]
  refine List.countP_congr fun r _ => ?_
  have happlied : ∀ t, (s.applied batch.lang ticket preCardId finalId).langOf t = s.langOf t :=
    langOf_setProgress _ _
  rw [Function.comp, isClaimOf_iff, happlied]
  by_cases hkey : r.ticket = ticket ∧ r.preCardId = preCardId
  · obtain ⟨rfl, rfl⟩ := hkey
    simp [hlang]
  · rw [if_neg hkey, isClaimOf_iff, if_neg]
    simpa using hkey

theorem claimCount_claimed_le {lang ticket : String} {quota : Int} {row : Batch} (ht : Ticketed s)
    (hticket : row.ticket = ticket) (hlang : row.lang = lang) (hnew : s.batches.has ticket = false)
    (hb : s'.batches = s.batches.insertOrIgnore row)
    (hi : s'.batchItems = (s.withItems ticket (s.claimed lang quota)).batchItems) {l p : String}
    (h : s.claimCount l p ≤ 1) : s'.claimCount l p ≤ 1 := by
  rw [claimCount_claimed ht hticket hlang hnew hb hi]
  by_cases hnone : (s.claimed lang quota).countP (fun card => card.preCardId = p && lang = l) = 0
  · rw [hnone]
    exact h
  · obtain ⟨card, hcard, hkey⟩ := List.countP_pos_iff.mp (Nat.pos_of_ne_zero hnone)
    simp only [Bool.and_eq_true, decide_eq_true_eq] at hkey
    obtain ⟨rfl, rfl⟩ := hkey
    rw [claimCount_eq_zero.mpr (mem_claimed hcard).2.2.2, Nat.zero_add]
    have hcount := List.nodup_iff_count_le_one.mp (nodup_claimed (s := s) lang quota)
      card.preCardId
    rw [List.count_eq_countP, List.countP_map] at hcount
    refine Nat.le_trans (List.countP_mono_left fun x _ hx => ?_) hcount
    simpa using hx

theorem claimCount_applied_le {ticket preCardId : String} {finalId : Option String}
    {item : BatchItem} {batch : Batch}
    (hitem : s.batchItems.lookup (ticket, preCardId) = some item)
    (hbatch : s.batches.lookup ticket = some batch)
    (hfree : item.status = .queued → s.taken batch.lang preCardId = false) {l p : String}
    (h : s.claimCount l p ≤ 1) : (s.applied batch.lang ticket preCardId finalId).claimCount l p ≤ 1 := by
  rw [claimCount_applied hitem hbatch]
  -- the row of the item is the only one under its key
  have hkey : ∀ r ∈ s.batchItems.rows, r.ticket = ticket ∧ r.preCardId = preCardId → r = item := by
    intro r hr hk
    have hlookup := KeyedTable.lookup_of_mem hr
    rw [hk.1, hk.2, hitem] at hlookup
    exact (Option.some.inj hlookup).symm
  by_cases hqueued : item.status = .queued ∧ preCardId = p ∧ batch.lang = l
  · obtain ⟨hq, rfl, rfl⟩ := hqueued
    have hnone := List.countP_eq_zero.mp (claimCount_eq_zero.mpr (hfree hq))
    have hone := KeyedTable.countP_key (KeyedTable.has_iff_lookup.mpr ⟨item, hitem⟩)
    refine Nat.le_trans (List.countP_mono_left fun r hr hclaim => ?_) (Nat.le_of_eq hone)
    by_cases hk : r.ticket = ticket ∧ r.preCardId = preCardId
    · simp [hk]
    · rw [if_neg hk] at hclaim
      exact absurd hclaim (hnone r hr)
  · refine Nat.le_trans (Nat.le_of_eq (List.countP_congr fun r hr => ?_)) h
    by_cases hk : r.ticket = ticket ∧ r.preCardId = preCardId
    · obtain rfl := hkey r hr hk
      have hlang : s.langOf ticket = some batch.lang := by
        rw [langOf, hbatch, Option.map_some]
      rw [if_pos hk, isClaimOf_iff, hk.1, hk.2, hlang]
      simp only [Bool.and_eq_true, decide_eq_true_eq, Option.some.injEq]
      constructor
      · rintro ⟨hp, hl⟩
        exact ⟨hp, fun hq => hqueued ⟨hq, hp, hl⟩, hl⟩
      · rintro ⟨hp, -, hl⟩
        exact ⟨hp, hl⟩
    · rw [if_neg hk]

theorem claimCount_step (lib : RegistryLib) (op : RegistryOp) (ht : Ticketed s)
    (h : ∀ l p, s.claimCount l p ≤ 1) (hlate : s.lateCompletion op = false) (l p : String) :
    (s.step lib op).claimCount l p ≤ 1 := by
  have hstep := s.stepped lib op
  generalize s.step lib op = s' at *
  have hkept : s'.batches = s.batches → s'.batchItems = s.batchItems → s'.claimCount l p ≤ 1 := by
    intro hb hi
    have heq : s'.isClaimOf l p = s.isClaimOf l p := by
      funext item
      rw [isClaimOf, isClaimOf, langOf, langOf, hb]
    rw [claimCount, hi, heq]
    exact h l p
  cases hstep with
  | kept _ hb hi => exact hkept hb hi
  | added _ _ hb hi => exact hkept hb hi
  | merged => exact hkept rfl rfl
  | converted => exact hkept rfl rfl
  | claimed lang quota _ _ ticket hnew _ hb hi =>
    exact claimCount_claimed_le ht rfl rfl hnew hb hi (h l p)
  | completed ticket preCardId finalId item batch hitem hbatch hdone helse =>
    refine claimCount_applied_le hitem hbatch (fun hq => ?_) (h l p)
    simpa only [lateCompletion, hitem, hbatch, hq, helse, decide_true, Bool.true_and,
      Bool.not_false, Bool.and_true] using hlate
  | requeued ticket staleSeconds now =>
    refine Nat.le_trans ?_ (h l p)
    rw [claimCount]
    refine Nat.le_trans (Nat.le_of_eq List.countP_map) (List.countP_mono_left fun r _ hr => ?_)
    rw [Function.comp, isClaimOf_iff, langOf_setProgress] at hr
    rw [isClaimOf_iff]
    split at hr
    · exact absurd rfl hr.2.1
    · exact hr

theorem not_late_of_oneClaim (lib : RegistryLib) (op : RegistryOp) (ht : Ticketed s)
    (h : OneClaimEach (s.step lib op)) : s.lateCompletion op = false := by
  refine Bool.eq_false_iff.mpr fun hlate => ?_
  cases op with
  | completeBatchItem ticket preCardId finalId =>
    simp only [lateCompletion] at hlate
    split at hlate
    · rename_i item batch hitem hbatch
      simp only [Bool.and_eq_true, decide_eq_true_eq, Bool.not_eq_true'] at hlate
      obtain ⟨⟨hq, htaken⟩, helse⟩ := hlate
      have happlied : s.step lib (.completeBatchItem ticket preCardId finalId) =
          s.applied batch.lang ticket preCardId finalId := by
        simp [step, completeBatchItem, hitem, hbatch, hq, helse]
      have hmem := KeyedTable.mem_of_lookup hitem
      have hkey := KeyedTable.key_of_lookup hitem
      have hitemKey := Prod.mk.inj hkey
      -- the card of the item is there
      obtain ⟨lang, hlang, hcard⟩ := ht item hmem
      rw [hitemKey.1, langOf, hbatch, Option.map_some, Option.some.injEq] at hlang
      rw [hitemKey.2, ← hlang] at hcard
      have hcard' := (s.stepped lib (.completeBatchItem ticket preCardId finalId)).has_precard hcard
      obtain ⟨card, hrow, hkey⟩ := KeyedTable.has_iff.mp hcard'
      obtain ⟨hl, hp⟩ := Prod.mk.inj hkey
      have hone := h card hrow
      rw [hl, hp, happlied, claimCount_applied hitem hbatch] at hone
      -- the item and the other claim are two rows
      obtain ⟨other, hother, hclaim⟩ := List.any_eq_true.mp htaken
      have hsame := eq_of_countP_le_one hone hmem (by simp [hitemKey]) hother (by
        split
        · simp
        · exact hclaim)
      exact (isClaimOf_iff.mp hclaim).2.1 (hsame ▸ hq)
    · cases hlate
  | _ => cases hlate

end OneClaim

/-! ## Runs -/

/-- No receipt is ever changed: whatever stands at one moment of the run stands later. -/
def ReceiptsStand (lib : RegistryLib) (s : FactoryRegistry) (ops : List RegistryOp) : Prop :=
  ∀ a b c, ops = a ++ b ++ c → KeepsReceipts (run (step lib) s a) (run (step lib) s (a ++ b))

/-- **One live claim for a card.**  In a run from the empty registry each card
has at most one claimed or done item among its language's tickets, no receipt is
changed and every ticket counts its done items, exactly when no completion of
the run is late. -/
theorem one_live_claim_iff (lib : RegistryLib) (ops : List RegistryOp) :
    (Always (step lib) OneClaimEach empty ops ∧ ReceiptsStand lib empty ops ∧
        Always (step lib) DoneCounted empty ops) ↔
      Meets (step lib) (fun s op => s.lateCompletion op = false) empty ops := by
  have hclaims := always_iff_meets (step lib)
    (I := fun s => Ticketed s ∧ ∀ l p, s.claimCount l p ≤ 1) (P := OneClaimEach)
    (C := fun s op => s.lateCompletion op = false)
    (fun s hs card _ => hs.2 _ _)
    (fun s op hs hC => ⟨hs.1.step lib op, claimCount_step lib op hs.1 hs.2 hC⟩)
    (fun s op hs hP => not_late_of_oneClaim lib op hs.1 hP)
    ⟨ticketed_empty, fun _ _ => Nat.zero_le _⟩ ops
  have hreceipts : ReceiptsStand lib empty ops :=
    (related_iff_meets (step lib) (R := KeepsReceipts) (fun _ _ _ _ h => h)
      (fun a b c hab hbc l p f h => hbc l p f (hab l p f h))).mpr
      (meets_of_invariant (step lib) (I := fun _ => True) (fun _ _ _ => trivial)
        (fun s op _ => (s.stepped lib op).keepsReceipts) trivial ops)
  have hcounted : Always (step lib) DoneCounted empty ops :=
    always_of_meets (step lib) (I := fun s => Ticketed s ∧ DoneCounted s) (C := fun _ _ => True)
      (fun s hs => hs.2) (fun s op hs _ => ⟨hs.1.step lib op, hs.2.step lib op hs.1⟩)
      ⟨ticketed_empty, doneCounted_empty⟩
      (meets_of_invariant (step lib) (I := fun _ => True) (fun _ _ _ => trivial)
        (fun _ _ _ => trivial) trivial ops)
  exact ⟨fun h => hclaims.mp h.1, fun h => ⟨hclaims.mpr h, hreceipts, hcounted⟩⟩

/-- A worker finishes after its lease was recovered and the card was claimed again. -/
def lateRun : List RegistryOp :=
  [.addPrecard "en" "cat|noun" (some "a pet") none none none,
    .claimBatch "en" 5 "2026-09-04" 0, .requeueStale "FINAL-en-20260904-01" 1800 7200000000,
    .claimBatch "en" 5 "2026-09-04" 7200000000,
    .completeBatchItem "FINAL-en-20260904-01" "cat|noun::a pet" (some "F1")]

theorem card_claimed_twice :
    ¬ (Always (step .ascii) OneClaimEach empty lateRun ∧ ReceiptsStand .ascii empty lateRun ∧
      Always (step .ascii) DoneCounted empty lateRun) := by
  rintro ⟨h, -⟩
  have hlast := h.last
  revert hlast
  unfold OneClaimEach
  decide

/-! ## Claims take turns -/

/-- A call of `claim_batch`. -/
structure ClaimCall where
  lang : String
  quota : Int
  datestr : String
  now : Int

def ClaimCall.op (c : ClaimCall) : RegistryOp := .claimBatch c.lang c.quota c.datestr c.now

/-- How many cards of the language the calls ask for. -/
def wanted (lang : String) (claims : List ClaimCall) : Nat :=
  (claims.map fun c => if c.lang = lang then c.quota.toNat else 0).sum

section Turns
variable {s s' : FactoryRegistry}

theorem filter_notMem_left {α β : Type} [DecidableEq β] {f : α → β} {a b : List α}
    (h : ((a ++ b).map f).Nodup) : ((a ++ b).filter fun x => f x ∉ a.map f) = b := by
  rw [List.map_append, List.nodup_append] at h
  rw [List.filter_append, List.filter_eq_nil_iff.mpr, List.nil_append, List.filter_eq_self.mpr]
  · exact fun x hx => decide_eq_true fun hmem => h.2.2 _ hmem _ (List.mem_map_of_mem hx) rfl
  · exact fun x hx hdec => of_decide_eq_true hdec (List.mem_map_of_mem hx)

/-- The query sorts by this key. -/
def pendingKey (p : Precard) : List Char ×ₗ List Char :=
  toLex (p.lemmaKey.toList, p.preCardId.toList)

theorem pendingLe_iff (a b : Precard) : pendingLe a b = true ↔ pendingKey a ≤ pendingKey b := by
  rw [pendingLe, pendingKey, pendingKey, Prod.Lex.toLex_le_toLex]
  by_cases hkey : a.lemmaKey = b.lemmaKey
  · rw [if_pos hkey, textLe_iff]
    simp [hkey]
  · have hne : a.lemmaKey.toList ≠ b.lemmaKey.toList := fun h => hkey (String.toList_inj.mp h)
    rw [if_neg hkey, textLe_iff, le_iff_lt_or_eq]
    simp [hne]

theorem pending_eq_sortBy (lang : String) :
    s.pending lang = sortBy pendingKey (s.precards.rows.filter fun p =>
      p.lang = lang && p.status = .active && p.convertedFinalId.isNone &&
        !s.taken lang p.preCardId) := by
  have hle : (fun a b => pendingLe a b = true) = fun a b => pendingKey a ≤ pendingKey b :=
    funext₂ fun a b => propext (pendingLe_iff a b)
  simp only [pending, sortBy, hle]

theorem nodup_pending (lang : String) : ((s.pending lang).map (·.preCardId)).Nodup := by
  simpa [claimed] using s.nodup_claimed lang ((s.pending lang).length : Int)

theorem filter_pending (lang : String) (p : Precard → Bool) :
    (s.pending lang).filter p = sortBy pendingKey ((s.precards.rows.filter fun p =>
      p.lang = lang && p.status = .active && p.convertedFinalId.isNone &&
        !s.taken lang p.preCardId).filter p) := by
  have hkeys : ((s.pending lang).map pendingKey).Nodup := by
    refine List.Nodup.of_map (fun key => String.ofList (ofLex key).2) ?_
    simpa [pendingKey, Function.comp_def] using s.nodup_pending lang
  rw [pending_eq_sortBy] at hkeys ⊢
  exact filter_sortBy _ (((sortBy_perm _ _).map _).nodup_iff.mp hkeys) p

section Claim
variable {lang ticket : String} {quota : Int} {row : Batch}

theorem taken_claimed (h : Ticketed s) (hticket : row.ticket = ticket) (hlang : row.lang = lang)
    (hnew : s.batches.has ticket = false) (hb : s'.batches = s.batches.insertOrIgnore row)
    (hi : s'.batchItems = (s.withItems ticket (s.claimed lang quota)).batchItems)
    (l preCardId : String) :
    s'.taken l preCardId = true ↔ s.taken l preCardId = true ∨
      l = lang ∧ preCardId ∈ (s.claimed lang quota).map (·.preCardId) := by
  have hold : ∀ item ∈ s.batchItems.rows, s'.langOf item.ticket = s.langOf item.ticket :=
    fun item hitem => by
      rw [langOf_insert hticket hlang hnew hb, if_neg (h.no_items hnew item hitem)]
  have hgiven : s'.langOf ticket = some lang := by
    rw [langOf_insert hticket hlang hnew hb, if_pos rfl]
  rw [taken, taken, hi, rows_withItems h hnew, List.any_append, Bool.or_eq_true, List.any_map]
  refine or_congr ?_ ?_
  · simp only [List.any_eq_true, isClaimOf_iff]
    exact exists_congr fun item => and_congr_right fun hitem => by rw [hold item hitem]
  · simp only [List.any_eq_true, Function.comp_apply, isClaimOf_iff, hgiven, List.mem_map]
    constructor
    · rintro ⟨p, hp, hid, -, hl⟩
      exact ⟨(Option.some.inj hl).symm, p, hp, hid⟩
    · rintro ⟨rfl, p, hp, hid⟩
      exact ⟨p, hp, hid, ItemStatus.noConfusion, rfl⟩

theorem pending_claimed (h : Ticketed s) (hticket : row.ticket = ticket) (hlang : row.lang = lang)
    (hnew : s.batches.has ticket = false) (hp : s'.precards = s.precards)
    (hb : s'.batches = s.batches.insertOrIgnore row)
    (hi : s'.batchItems = (s.withItems ticket (s.claimed lang quota)).batchItems) (l : String) :
    s'.pending l = (s.pending l).drop (if lang = l then quota.toNat else 0) := by
  have hrows : s'.pending l = (s.pending l).filter fun p =>
      ¬ (l = lang ∧ p.preCardId ∈ (s.claimed lang quota).map (·.preCardId)) := by
    rw [filter_pending, pending_eq_sortBy, hp, List.filter_filter]
    refine congrArg _ (List.filter_congr fun p _ => ?_)
    rw [Bool.eq_iff_iff]
    simp only [Bool.and_eq_true, Bool.not_eq_true', ← Bool.not_eq_true, taken_claimed h hticket
      hlang hnew hb hi, decide_eq_true_eq]
    tauto
  rw [hrows]
  by_cases hl : lang = l
  · subst hl
    have hsplit := List.take_append_drop quota.toNat (s.pending lang)
    have hleft := filter_notMem_left (hsplit.symm ▸ s.nodup_pending lang)
    rw [hsplit] at hleft
    simpa [claimed] using hleft
  · simp [hl, Ne.symm hl]

end Claim

theorem claim_writes (lib : RegistryLib) (s : FactoryRegistry) (c : ClaimCall) :
    ∃ row, row.lang = c.lang ∧ s.batches.has row.ticket = false ∧
      (s.step lib c.op).precards = s.precards ∧
      (s.step lib c.op).batches = s.batches.insertOrIgnore row ∧
      (s.step lib c.op).batchItems =
        (s.withItems row.ticket (s.claimed c.lang c.quota)).batchItems := by
  have hnew := s.nextTicket_new c.lang c.datestr
  refine ⟨⟨s.nextTicket c.lang c.datestr, c.lang, c.quota,
    ⟨wholeSeconds c.now, c.quota, (s.claimed c.lang c.quota).length, 0⟩⟩, rfl, hnew, ?_⟩
  simp only [step, ClaimCall.op, claimBatch, hnew]
  exact ⟨rfl, rfl, rfl⟩

theorem claim_step (lib : RegistryLib) (h : Ticketed s) (c : ClaimCall) :
    ∃ ticket, (s.step lib c.op).langOf ticket = some c.lang ∧
      (s.step lib c.op).batchItems.rows = s.batchItems.rows ++
        (s.claimed c.lang c.quota).map (fun p => ⟨ticket, p.preCardId, .claimed⟩) ∧
      ∀ l, (s.step lib c.op).pending l =
        (s.pending l).drop (if c.lang = l then c.quota.toNat else 0) := by
  obtain ⟨row, hlang, hnew, hp, hb, hi⟩ := claim_writes lib s c
  exact ⟨row.ticket, by rw [langOf_insert rfl hlang hnew hb, if_pos rfl],
    by rw [hi, rows_withItems h hnew], pending_claimed h rfl hlang hnew hp hb hi⟩

theorem claims_run (lib : RegistryLib) (h : Ticketed s) (claims : List ClaimCall)
    (hs : run (step lib) s (claims.map ClaimCall.op) = s') :
    ∃ new, s'.batchItems.rows = s.batchItems.rows ++ new ∧ ∀ l,
      (new.filter fun item => s'.langOf item.ticket = some l).map (·.preCardId) =
        ((s.pending l).take (wanted l claims)).map (·.preCardId) ∧
      s'.pending l = (s.pending l).drop (wanted l claims) := by
  induction claims generalizing s with
  | nil =>
    obtain rfl : s = s' := hs
    exact ⟨[], by simp, fun l => by simp [wanted]⟩
  | cons c claims ih =>
    obtain ⟨ticket, hgiven, hrows, hpending⟩ := claim_step lib h c
    obtain ⟨new, hnew, hall⟩ := ih (h.step lib c.op) hs
    have hlang : s'.langOf ticket = some c.lang :=
      hs ▸ run_invariant (step lib) (fun s op h => (s.stepped lib op).langOf h) hgiven _
    refine ⟨(s.claimed c.lang c.quota).map (fun p => ⟨ticket, p.preCardId, .claimed⟩) ++ new,
      by rw [hnew, hrows, List.append_assoc], fun l => ?_⟩
    obtain ⟨htaken, hleft⟩ := hall l
    have hwanted : wanted l (c :: claims) =
        (if c.lang = l then c.quota.toNat else 0) + wanted l claims := List.sum_cons
    rw [hpending] at htaken hleft
    rw [hwanted, hleft, List.drop_drop, List.filter_append, List.map_append, htaken, List.take_add,
      List.map_append]
    refine ⟨congrArg (· ++ _) ?_, rfl⟩
    by_cases hl : c.lang = l
    · rw [if_pos hl, List.filter_eq_self.mpr (by simp [hlang, hl]), List.map_map, ← hl]
      rfl
    · rw [if_neg hl, List.take_zero, List.filter_eq_nil_iff.mpr (by simp [hlang, hl])]
      rfl

/-- **Claims take turns.**  A run of claims hands out the pending cards of a language in their
order, each to one ticket, whatever is claimed for other languages in between. -/
theorem claims_take_turns (lib : RegistryLib) (ops : List RegistryOp) (claims : List ClaimCall) :
    let s := run (step lib) empty ops
    let s' := run (step lib) s (claims.map ClaimCall.op)
    ∃ new, s'.batchItems.rows = s.batchItems.rows ++ new ∧ ∀ lang,
      (new.filter fun item => s'.langOf item.ticket = some lang).map (·.preCardId) =
        (s.getPending lang none).take (wanted lang claims) ∧
      s'.getPending lang none = (s.getPending lang none).drop (wanted lang claims) := by
  have hticketed := run_invariant (step lib) (fun s op h => h.step lib op) ticketed_empty ops
  obtain ⟨new, hrows, hall⟩ := claims_run lib hticketed claims rfl
  refine ⟨new, hrows, fun lang => ?_⟩
  obtain ⟨htaken, hleft⟩ := hall lang
  simp only [getPending, hleft, htaken, List.map_take, List.map_drop, and_self]

end Turns

end FactoryRegistry

end HamZaboon
