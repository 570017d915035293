import HamZaboon.Library.Runs
import HamZaboon.Texts.Unicode

/-! # Batches under several hands

`build_batch`, `save_batch`, `stage_import`, `approve` and `cancel_batch` on one store of
batches and labels, their reads and writes interleaved in any way.  Only `approve` holds
a lock, and only against other approvals: each of the others decides on what it has read
and writes later.

Where the checks of an operation still pass when it writes, at most one batch is live,
no sense is judged twice and what is given back can be built again
(`judgedOnce_of_timelyWrites`).
-/

namespace HamZaboon
open Library

inductive BatchStatus
  | exported
  | inReview
  | imported
  | cancelled
  deriving DecidableEq, Repr

/-- Not in `TERMINAL_STATUSES`. -/
def BatchStatus.live : BatchStatus → Bool
  | .exported => true
  | .inReview => true
  | .imported => false
  | .cancelled => false

structure BatchFile where
  id : String
  status : BatchStatus
  /-- `sense_ids` of the meta. -/
  senseIds : List String
  items : List String
  /-- The ids of the latest answers. -/
  staged : List String
  deriving DecidableEq, Repr

structure Approval where
  batch : BatchFile
  want : List String
  /-- Its labels are in the store. -/
  appended : Bool
  deriving DecidableEq, Repr

def Approval.returned (a : Approval) : List String := a.batch.staged.filter (· ∉ a.want)

/-- The store, and the operations that have read and not yet written. -/
structure BatchDesk where
  batches : List BatchFile
  /-- The sense ids of the label store. -/
  labels : List String
  /-- Builds that have found no live batch. -/
  builders : Nat
  /-- The sense ids of batches that are built and not saved. -/
  built : List (List String)
  /-- The batches as a `stage_import` has read them. -/
  staging : List BatchFile
  /-- The batches as a `cancel_batch` has read them. -/
  cancelling : List BatchFile
  approving : Option Approval
  /-- The ids given back since the last save. -/
  released : List String
  deriving Repr

inductive DeskEvent
  /-- `active_batches` of a build. -/
  | checkActive
  /-- The rest of a build, over the ids of the screened rows. -/
  | build (screened : List String) (size : Nat)
  /-- `save_batch` of a built batch, under its new id. -/
  | save (place : Nat) (id : String)
  | stageRead (id : String)
  | stageWrite (place : Nat)
  /-- `approve` takes the lock, reads and checks. -/
  | approveRead (id : String) (ids : List String)
  | approveAppend
  | approveWrite
  | cancelRead (id : String)
  | cancelWrite (place : Nat)

/-- The first of each id. -/
def distinctIds (ids : List String) : List String :=
  ids.foldl (fun out id => if id ∈ out then out else out ++ [id]) []

namespace BatchFile

/-- The meta is written as it was read, with the new status, and the answers are stored. -/
def review (read b : BatchFile) : BatchFile :=
  { b with status := .inReview, senseIds := read.senseIds, staged := distinctIds b.items }

/-- `sense_ids` narrows to the approved ids. -/
def finalize (want : List String) (b : BatchFile) : BatchFile :=
  { b with status := .imported, senseIds := want }

/-- The meta is written as it was read, with the new status. -/
def cancel (read b : BatchFile) : BatchFile :=
  { b with status := .cancelled, senseIds := read.senseIds }

end BatchFile

namespace BatchDesk
variable (s : BatchDesk)

def find (id : String) : Option BatchFile := s.batches.find? (·.id = id)

/-- `judged_ids`. -/
def judged : List String :=
  s.labels ++ (s.batches.filter (·.status ≠ .cancelled)).flatMap (·.senseIds)

def write (id : String) (f : BatchFile → BatchFile) : BatchDesk :=
  { s with batches := s.batches.map fun b => if b.id = id then f b else b }

end BatchDesk

section Step
variable (py : PyText)

/-- `want` of an approval. -/
def wantedIds (ids : List String) : List String :=
  distinctIds ((ids.map py.strip).filter (· ≠ ""))

/-- One event; what cannot happen in the state, or is refused, changes nothing. -/
def deskStep (s : BatchDesk) : DeskEvent → BatchDesk
  | .checkActive =>
    if s.batches.any (·.status.live) then s else { s with builders := s.builders + 1 }
  | .build screened size =>
    if s.builders = 0 then s
    else
      let ids := (screened.filter (· ∉ s.judged)).take size
      if ids = [] then { s with builders := s.builders - 1 }
      else { s with builders := s.builders - 1, built := s.built ++ [ids] }
  | .save place id =>
    match s.built[place]? with
    | none => s
    | some ids =>
      if s.batches.any (·.id = id) then s
      else
        { s with
          batches := s.batches ++ [⟨id, .exported, ids, ids, []⟩]
          built := s.built.eraseIdx place
          released := [] }
  | .stageRead id =>
    match s.find id with
    | none => s
    | some b => if b.status = .exported then { s with staging := s.staging ++ [b] } else s
  | .stageWrite place =>
    match s.staging[place]? with
    | none => s
    | some read => { s.write read.id read.review with staging := s.staging.eraseIdx place }
  | .approveRead id ids =>
    match s.approving, s.find id with
    | none, some b =>
      let want := wantedIds py ids
      if want ≠ [] ∧ (∀ x ∈ want, x ∈ b.staged) ∧ b.status = .inReview then
        { s with approving := some ⟨b, want, false⟩ }
      else s
    | _, _ => s
  | .approveAppend =>
    match s.approving with
    | none => s
    | some a =>
      if a.appended then s
      else
        { s with
          labels := s.labels ++ a.want
          approving := some { a with appended := true } }
  | .approveWrite =>
    match s.approving with
    | none => s
    | some a =>
      if a.appended then
        { s.write a.batch.id (BatchFile.finalize a.want) with
          approving := none
          released := s.released ++ a.returned }
      else s
  | .cancelRead id =>
    match s.find id with
    | none => s
    | some b => if b.status = .imported then s else { s with cancelling := s.cancelling ++ [b] }
  | .cancelWrite place =>
    match s.cancelling[place]? with
    | none => s
    | some read =>
      { s.write read.id read.cancel with
        cancelling := s.cancelling.eraseIdx place
        -- Only a live batch has ids to give back.
        released := s.released ++
          if (s.find read.id).any (·.status.live) then read.senseIds else [] }

end Step

/-! ## What a desk should keep -/

/-- Imported batches stay imported, and a batch that comes has no sense of the label
store. -/
structure FinalStands (s t : BatchDesk) : Prop where
  imported : ∀ b ∈ s.batches, b.status = .imported → b ∈ t.batches
  later : ∀ b ∈ t.batches, b.id ∉ s.batches.map (·.id) → ∀ x ∈ b.senseIds, x ∉ s.labels

/-- The checks of an operation still pass when it writes: a batch is saved while no
batch is live and its senses have no label; a batch is staged while it is live; labels
of a batch are appended while it is in review; and a batch is cancelled while it is not
imported and its labels are not in the store. -/
def BatchDesk.timely (s : BatchDesk) : DeskEvent → Bool
  | .save place _ =>
    s.built[place]?.all fun ids =>
      !s.batches.any (·.status.live) && ids.all (· ∉ s.labels)
  | .stageWrite place =>
    s.staging[place]?.all fun read => (s.find read.id).any (·.status.live)
  | .approveAppend =>
    s.approving.all fun a => a.appended || (s.find a.batch.id).any (·.status = .inReview)
  | .cancelWrite place =>
    s.cancelling[place]?.all fun read =>
      (s.find read.id).all (·.status ≠ .imported) &&
        s.approving.all fun a => !(a.appended && a.batch.id = read.id)
  | _ => true

section Laws
variable {py : PyText} {s : BatchDesk}

/-! ## Files -/

theorem mem_distinctIds {ids : List String} {x : String} : x ∈ distinctIds ids ↔ x ∈ ids := by
  have hloop : ∀ (ids out : List String),
      x ∈ ids.foldl (fun out id => if id ∈ out then out else out ++ [id]) out ↔ x ∈ out ∨ x ∈ ids := by
    intro ids
    induction ids with
    | nil => simp
    | cons id ids ih =>
      intro out
      rw [List.foldl_cons, ih, List.mem_cons]
      split
      · rename_i hid
        refine ⟨Or.imp_right .inr, fun h => ?_⟩
        rcases h with h | rfl | h
        · exact .inl h
        · exact .inl hid
        · exact .inr h
      · rw [List.mem_append, List.mem_singleton, or_assoc]
  rw [distinctIds, hloop]
  exact or_iff_right List.not_mem_nil

theorem BatchDesk.mem_judged {x : String} :
    x ∈ s.judged ↔ x ∈ s.labels ∨ ∃ b ∈ s.batches, b.status ≠ .cancelled ∧ x ∈ b.senseIds := by
  simp [BatchDesk.judged, and_assoc]

theorem BatchDesk.find_eq_some {id : String} {b : BatchFile} (h : s.find id = some b) :
    b ∈ s.batches ∧ b.id = id :=
  ⟨List.mem_of_find?_eq_some h, by simpa using List.find?_some h⟩

theorem BatchDesk.find_of_mem (hids : (s.batches.map (·.id)).Nodup) {b : BatchFile}
    (hb : b ∈ s.batches) : s.find b.id = some b := by
  cases hfind : s.find b.id with
  | none =>
    have hne := List.find?_eq_none.mp hfind b hb
    simp at hne
  | some c =>
    obtain ⟨hc, hid⟩ := find_eq_some hfind
    rw [List.inj_on_of_nodup_map hids hc hb hid]

theorem BatchDesk.mem_write (hids : (s.batches.map (·.id)).Nodup) {t : BatchFile}
    (ht : t ∈ s.batches) {f : BatchFile → BatchFile} {b : BatchFile} :
    b ∈ (s.write t.id f).batches ↔ b = f t ∨ (b ∈ s.batches ∧ b.id ≠ t.id) := by
  rw [BatchDesk.write, List.mem_map]
  constructor
  · rintro ⟨c, hc, rfl⟩
    by_cases hid : c.id = t.id
    · rw [if_pos hid, List.inj_on_of_nodup_map hids hc ht hid]
      exact .inl rfl
    · rw [if_neg hid]
      exact .inr ⟨hc, hid⟩
  · rintro (rfl | ⟨hb, hid⟩)
    · exact ⟨t, ht, if_pos rfl⟩
    · exact ⟨b, hb, if_neg hid⟩

theorem BatchDesk.forall_write (hids : (s.batches.map (·.id)).Nodup) {t : BatchFile}
    (ht : t ∈ s.batches) {f : BatchFile → BatchFile} {P : BatchFile → Prop} (hnew : P (f t))
    (hold : ∀ b ∈ s.batches, P b) : ∀ b ∈ (s.write t.id f).batches, P b := by
  intro b hb
  rcases (BatchDesk.mem_write hids ht).mp hb with rfl | ⟨hb, -⟩
  · exact hnew
  · exact hold b hb

theorem BatchDesk.ids_write {id : String} {f : BatchFile → BatchFile} (hf : ∀ b, (f b).id = b.id) :
    (s.write id f).batches.map (·.id) = s.batches.map (·.id) := by
  rw [BatchDesk.write, List.map_map]
  refine List.map_congr_left fun b _ => ?_
  rw [Function.comp_apply]
  split
  · exact hf b
  · rfl

/-! ## The invariant -/

def BatchDesk.Reads (s : BatchDesk) (read : BatchFile) : Prop :=
  ∃ b ∈ s.batches, b.id = read.id ∧ read.senseIds = b.items

/-- An approval that holds the lock: its batch is not imported, and once its labels are in
the store the batch stays in review. -/
structure BatchDesk.Approves (s : BatchDesk) (a : Approval) (b : BatchFile) : Prop where
  mem : b ∈ s.batches
  id : b.id = a.batch.id
  status : b.status ≠ .imported
  want : ∀ x ∈ a.want, x ∈ b.items
  staged : ∀ x ∈ a.batch.staged, x ∈ b.items
  appended : a.appended = true → b.status = .inReview ∧ ∀ x ∈ a.want, x ∈ s.labels

/-- What is true of a desk whose writes were timely. -/
structure BatchDesk.Sound (s : BatchDesk) : Prop where
  ids : (s.batches.map (·.id)).Nodup
  oneLive : ∀ b ∈ s.batches, ∀ c ∈ s.batches, b.status.live = true → c.status.live = true → b = c
  senseIds : ∀ b ∈ s.batches, b.status ≠ .imported → b.senseIds = b.items
  staged : ∀ b ∈ s.batches, ∀ x ∈ b.staged, x ∈ b.items
  unlabelled : ∀ b ∈ s.batches, b.status.live = true → ∀ x ∈ b.items, x ∈ s.labels →
    ∃ a, s.approving = some a ∧ a.appended = true ∧ a.batch.id = b.id ∧ x ∈ a.want
  imported : ∀ b ∈ s.batches, b.status = .imported → ∀ x ∈ b.senseIds, x ∈ s.labels
  staging : ∀ read ∈ s.staging, s.Reads read
  cancelling : ∀ read ∈ s.cancelling, s.Reads read
  approving : ∀ a, s.approving = some a → ∃ b, s.Approves a b
  released : ∀ x ∈ s.released, x ∉ s.judged

theorem BatchStatus.ne_of_live {status : BatchStatus} (h : status.live = true) :
    status ≠ .imported ∧ status ≠ .cancelled := by
  cases status <;> simp [BatchStatus.live] at h ⊢

namespace BatchDesk.Sound
variable (h : s.Sound)
include h

theorem not_mem_other {b c : BatchFile} (hb : b ∈ s.batches) (hlive : b.status.live = true)
    (hc : c ∈ s.batches) (hne : c ≠ b) (hcancelled : c.status ≠ .cancelled) {x : String}
    (hlabels : x ∉ s.labels) : x ∉ c.senseIds := by
  intro hmem
  by_cases himported : c.status = .imported
  · exact hlabels (h.imported c hc himported x hmem)
  · refine hne (h.oneLive c hc b hb ?_ hlive)
    cases hstatus : c.status with
    | exported => rfl
    | inReview => rfl
    | imported => exact absurd hstatus himported
    | cancelled => exact absurd hstatus hcancelled

omit h in
theorem reads_write {id : String} {f : BatchFile → BatchFile} (hid : ∀ b, (f b).id = b.id)
    (hitems : ∀ b, (f b).items = b.items) {read : BatchFile} (hread : s.Reads read) :
    (s.write id f).Reads read := by
  obtain ⟨b, hb, heq, hsense⟩ := hread
  refine ⟨if b.id = id then f b else b, List.mem_map.mpr ⟨b, hb, rfl⟩, ?_, ?_⟩
  · split
    · exact (hid b).trans heq
    · exact heq
  · split
    · exact hsense.trans (hitems b).symm
    · exact hsense

theorem not_live_of_ne {t : BatchFile} (ht : t ∈ s.batches) (hlive : t.status.live = true)
    {b : BatchFile} (hb : b ∈ s.batches) (hid : b.id ≠ t.id) : ¬ b.status.live = true := by
  intro hb'
  exact hid (congrArg BatchFile.id (h.oneLive b hb t ht hb' hlive))

theorem reading (builders : Nat) (built : List (List String)) {staging cancelling : List BatchFile}
    (hstaging : ∀ read ∈ staging, s.Reads read) (hcancelling : ∀ read ∈ cancelling, s.Reads read) :
    BatchDesk.Sound { s with builders, built, staging, cancelling } := by
  refine ⟨h.ids, h.oneLive, h.senseIds, h.staged, h.unlabelled, h.imported, hstaging, hcancelling,
    fun a ha => ?_, h.released⟩
  obtain ⟨b, hb⟩ := h.approving a ha
  exact ⟨b, hb.mem, hb.id, hb.status, hb.want, hb.staged, hb.appended⟩

theorem reads_append {reads : List BatchFile} (hreads : ∀ read ∈ reads, s.Reads read) {b : BatchFile}
    (hb : b ∈ s.batches) (hstatus : b.status ≠ .imported) :
    ∀ read ∈ reads ++ [b], s.Reads read := by
  intro read hread
  rcases List.mem_append.mp hread with hread | hread
  · exact hreads read hread
  · obtain rfl := List.mem_singleton.mp hread
    exact ⟨read, hb, rfl, h.senseIds read hb hstatus⟩

/-! ## Saving and staging -/

theorem save {ids : List String} {id : String} (hlive : ∀ b ∈ s.batches, ¬ b.status.live = true)
    (hlabels : ∀ x ∈ ids, x ∉ s.labels) (hnew : id ∉ s.batches.map (·.id)) (place : Nat) :
    BatchDesk.Sound
      { s with
        batches := s.batches ++ [⟨id, .exported, ids, ids, []⟩]
        built := s.built.eraseIdx place
        released := [] } := by
  have hreads : ∀ read, s.Reads read → BatchDesk.Reads
      { s with
        batches := s.batches ++ [⟨id, .exported, ids, ids, []⟩]
        built := s.built.eraseIdx place
        released := [] } read := by
    rintro read ⟨b, hb, hread⟩
    exact ⟨b, List.mem_append_left _ hb, hread⟩
  constructor
  · rw [List.map_append, List.map_singleton, List.nodup_append_comm, List.singleton_append,
      List.nodup_cons]
    exact ⟨hnew, h.ids⟩
  · intro b hb c hc hblive hclive
    rcases List.mem_append.mp hb with hb | hb
    · exact absurd hblive (hlive b hb)
    · rcases List.mem_append.mp hc with hc | hc
      · exact absurd hclive (hlive c hc)
      · rw [List.mem_singleton.mp hb, List.mem_singleton.mp hc]
  · intro b hb hstatus
    rcases List.mem_append.mp hb with hb | hb
    · exact h.senseIds b hb hstatus
    · rw [List.mem_singleton.mp hb]
  · intro b hb x hx
    rcases List.mem_append.mp hb with hb | hb
    · exact h.staged b hb x hx
    · rw [List.mem_singleton.mp hb] at hx
      cases hx
  · intro b hb hblive x hx hlabel
    rcases List.mem_append.mp hb with hb | hb
    · exact absurd hblive (hlive b hb)
    · rw [List.mem_singleton.mp hb] at hx
      exact absurd hlabel (hlabels x hx)
  · intro b hb hstatus
    rcases List.mem_append.mp hb with hb | hb
    · exact h.imported b hb hstatus
    · rw [List.mem_singleton.mp hb] at hstatus
      cases hstatus
  · exact fun read hread => hreads read (h.staging read hread)
  · exact fun read hread => hreads read (h.cancelling read hread)
  · intro a ha
    obtain ⟨b, hb⟩ := h.approving a ha
    exact ⟨b, List.mem_append_left _ hb.mem, hb.id, hb.status, hb.want, hb.staged, hb.appended⟩
  · exact nofun

theorem stageWrite {t read : BatchFile} (ht : t ∈ s.batches) (hid : t.id = read.id)
    (hsense : read.senseIds = t.items) (hlive : t.status.live = true) (place : Nat) :
    BatchDesk.Sound
      { s.write read.id read.review with staging := s.staging.eraseIdx place } := by
  obtain ⟨himported, hcancelled⟩ := BatchStatus.ne_of_live hlive
  rw [← hid]
  have hmem := fun b => BatchDesk.mem_write h.ids ht (f := read.review) (b := b)
  have hids : (s.write t.id read.review).batches.map (·.id) = s.batches.map (·.id) :=
    BatchDesk.ids_write fun _ => rfl
  have hreads : ∀ r, s.Reads r → (s.write t.id read.review).Reads r := fun r hr =>
    reads_write (f := read.review) (fun _ => rfl) (fun _ => rfl) hr
  constructor
  · exact hids.symm ▸ h.ids
  · intro b hb c hc hblive hclive
    rcases (hmem _).mp hb with rfl | ⟨hb, hbid⟩
    · rcases (hmem _).mp hc with rfl | ⟨hc, hcid⟩
      · rfl
      · exact absurd hclive (h.not_live_of_ne ht hlive hc hcid)
    · exact absurd hblive (h.not_live_of_ne ht hlive hb hbid)
  · exact BatchDesk.forall_write h.ids ht (fun _ => hsense) h.senseIds
  · exact BatchDesk.forall_write h.ids ht (fun _ => mem_distinctIds.mp) h.staged
  · exact BatchDesk.forall_write h.ids ht (fun _ => h.unlabelled t ht hlive) h.unlabelled
  · exact BatchDesk.forall_write h.ids ht nofun h.imported
  · intro r hr
    exact hreads r (h.staging r (List.mem_of_mem_eraseIdx hr))
  · intro r hr
    exact hreads r (h.cancelling r hr)
  · intro a ha
    obtain ⟨b, hb⟩ := h.approving a ha
    by_cases hbid : b.id = t.id
    · obtain rfl := List.inj_on_of_nodup_map h.ids hb.mem ht hbid
      exact ⟨_, (hmem _).mpr (.inl rfl), hb.id, nofun, hb.want, hb.staged,
        fun happended => ⟨rfl, (hb.appended happended).2⟩⟩
    · exact ⟨b, (hmem _).mpr (.inr ⟨hb.mem, hbid⟩), hb.id, hb.status, hb.want, hb.staged, hb.appended⟩
  · intro x hx hjudged
    refine h.released x hx (BatchDesk.mem_judged.mpr ?_)
    rcases BatchDesk.mem_judged.mp hjudged with hlabel | ⟨b, hb, hstatus, hxb⟩
    · exact .inl hlabel
    · rcases (hmem _).mp hb with rfl | ⟨hb, -⟩
      · refine .inr ⟨t, ht, hcancelled, ?_⟩
        rw [h.senseIds t ht himported, ← hsense]
        exact hxb
      · exact .inr ⟨b, hb, hstatus, hxb⟩

/-! ## Approving -/

theorem approveRead {b : BatchFile} (hb : b ∈ s.batches) (hstatus : b.status = .inReview)
    {want : List String} (hwant : ∀ x ∈ want, x ∈ b.staged) (hlock : s.approving = none) :
    BatchDesk.Sound { s with approving := some ⟨b, want, false⟩ } := by
  refine ⟨h.ids, h.oneLive, h.senseIds, h.staged, fun c hc hlive x hx hlabel => ?_, h.imported,
    h.staging, h.cancelling, fun a ha => ?_, h.released⟩
  · obtain ⟨a, ha, -⟩ := h.unlabelled c hc hlive x hx hlabel
    rw [hlock] at ha
    cases ha
  · obtain rfl := Option.some.inj ha
    exact ⟨b, hb, rfl, hstatus ▸ nofun, fun x hx => h.staged b hb x (hwant x hx), h.staged b hb, nofun⟩

theorem approveAppend {a : Approval} {b : BatchFile} (ha : s.approving = some a)
    (hb : s.Approves a b) (hstatus : b.status = .inReview) (hfirst : a.appended = false) :
    BatchDesk.Sound
      { s with labels := s.labels ++ a.want, approving := some { a with appended := true } } := by
  have hlive : b.status.live = true := hstatus ▸ rfl
  have hsense : b.senseIds = b.items := h.senseIds b hb.mem hb.status
  refine ⟨h.ids, h.oneLive, h.senseIds, h.staged, fun c hc hclive x hx hlabel => ?_,
    fun c hc himported x hx => List.mem_append_left _ (h.imported c hc himported x hx), h.staging,
    h.cancelling, fun a' ha' => ?_, fun x hx hjudged => ?_⟩
  · obtain rfl := h.oneLive c hc b hb.mem hclive hlive
    rcases List.mem_append.mp hlabel with hlabel | hwant
    · -- Only labels that an approval has just appended are of a live batch.
      obtain ⟨a', ha', happended, -⟩ := h.unlabelled c hc hclive x hx hlabel
      obtain rfl := Option.some.inj (ha.symm.trans ha')
      rw [hfirst] at happended
      cases happended
    · exact ⟨_, rfl, rfl, hb.id.symm, hwant⟩
  · obtain rfl := Option.some.inj ha'
    exact ⟨b, hb.mem, hb.id, hb.status, hb.want, hb.staged,
      fun _ => ⟨hstatus, fun x hx => List.mem_append_right _ hx⟩⟩
  · refine h.released x hx (BatchDesk.mem_judged.mpr ?_)
    rcases BatchDesk.mem_judged.mp hjudged with hlabel | hheld
    · rcases List.mem_append.mp hlabel with hlabel | hwant
      · exact .inl hlabel
      · exact .inr ⟨b, hb.mem, hstatus ▸ nofun, hsense ▸ hb.want x hwant⟩
    · exact .inr hheld

theorem approveWrite {a : Approval} {b : BatchFile} (ha : s.approving = some a)
    (hb : s.Approves a b) (happended : a.appended = true) :
    BatchDesk.Sound
      { s.write a.batch.id (BatchFile.finalize a.want) with
        approving := none
        released := s.released ++ a.returned } := by
  obtain ⟨hstatus, hlabels⟩ := hb.appended happended
  have hlive : b.status.live = true := hstatus ▸ rfl
  rw [← hb.id]
  have hmem := fun c => BatchDesk.mem_write h.ids hb.mem (f := BatchFile.finalize a.want) (b := c)
  have hids : (s.write b.id (BatchFile.finalize a.want)).batches.map (·.id) = s.batches.map (·.id) :=
    BatchDesk.ids_write fun _ => rfl
  have hreads : ∀ r, s.Reads r → (s.write b.id (BatchFile.finalize a.want)).Reads r := fun r hr =>
    reads_write (f := BatchFile.finalize a.want) (fun _ => rfl) (fun _ => rfl) hr
  -- Nothing is live any more.
  have hdead : ∀ c ∈ (s.write b.id (BatchFile.finalize a.want)).batches, ¬ c.status.live = true := by
    intro c hc
    rcases (hmem c).mp hc with rfl | ⟨hc, hcid⟩
    · nofun
    · exact h.not_live_of_ne hb.mem hlive hc hcid
  constructor
  · exact hids.symm ▸ h.ids
  · exact fun c hc _ _ hclive => absurd hclive (hdead c hc)
  · exact BatchDesk.forall_write h.ids hb.mem (absurd rfl) h.senseIds
  · exact BatchDesk.forall_write h.ids hb.mem (h.staged b hb.mem) h.staged
  · exact fun c hc hclive => absurd hclive (hdead c hc)
  · exact BatchDesk.forall_write h.ids hb.mem (fun _ => hlabels) h.imported
  · exact fun r hr => hreads r (h.staging r hr)
  · exact fun r hr => hreads r (h.cancelling r hr)
  · exact nofun
  · intro x hx hjudged
    have hold : x ∈ s.judged ∧ x ∉ a.want ∨ x ∈ a.want := by
      by_cases hwant : x ∈ a.want
      · exact .inr hwant
      · refine .inl ⟨BatchDesk.mem_judged.mpr ?_, hwant⟩
        rcases BatchDesk.mem_judged.mp hjudged with hlabel | ⟨c, hc, hcstatus, hxc⟩
        · exact .inl hlabel
        · rcases (hmem c).mp hc with rfl | ⟨hc, -⟩
          · exact absurd hxc hwant
          · exact .inr ⟨c, hc, hcstatus, hxc⟩
    rcases List.mem_append.mp hx with hx | hx
    · refine h.released x hx ?_
      rcases hold with ⟨hold, -⟩ | hwant
      · exact hold
      · exact BatchDesk.mem_judged.mpr (.inl (hlabels x hwant))
    · obtain ⟨hstaged, hnot⟩ := List.mem_filter.mp hx
      have hnot : x ∉ a.want := of_decide_eq_true hnot
      have hitem := hb.staged x hstaged
      have hlabel : x ∉ s.labels := by
        intro hlabel
        obtain ⟨a', ha', -, -, hwant⟩ := h.unlabelled b hb.mem hlive x hitem hlabel
        obtain rfl := Option.some.inj (ha.symm.trans ha')
        exact hnot hwant
      rcases BatchDesk.mem_judged.mp hjudged with hlabel' | ⟨c, hc, hcstatus, hxc⟩
      · exact hlabel hlabel'
      · rcases (hmem c).mp hc with rfl | ⟨hc, hcid⟩
        · exact hnot hxc
        · exact h.not_mem_other hb.mem hlive hc (fun heq => hcid (congrArg _ heq)) hcstatus hlabel hxc

/-! ## Cancelling -/

theorem cancelWrite {t read : BatchFile} (ht : t ∈ s.batches) (hid : t.id = read.id)
    (hsense : read.senseIds = t.items) (hstatus : t.status ≠ .imported)
    (hlock : ∀ a, s.approving = some a → ¬ (a.appended = true ∧ a.batch.id = read.id)) (place : Nat) :
    BatchDesk.Sound
      { s.write read.id read.cancel with
        cancelling := s.cancelling.eraseIdx place
        released := s.released ++
          if (s.find read.id).any (·.status.live) then read.senseIds else [] } := by
  have hfind : s.find read.id = some t := hid ▸ BatchDesk.find_of_mem h.ids ht
  rw [hfind, ← hid, Option.any_some]
  have hmem := fun b => BatchDesk.mem_write h.ids ht (f := read.cancel) (b := b)
  have hids : (s.write t.id read.cancel).batches.map (·.id) = s.batches.map (·.id) :=
    BatchDesk.ids_write fun _ => rfl
  have hreads : ∀ r, s.Reads r → (s.write t.id read.cancel).Reads r := fun r hr =>
    reads_write (f := read.cancel) (fun _ => rfl) (fun _ => rfl) hr
  constructor
  · exact hids.symm ▸ h.ids
  · intro b hb c hc hblive hclive
    rcases (hmem b).mp hb with rfl | ⟨hb, -⟩
    · cases hblive
    · rcases (hmem c).mp hc with rfl | ⟨hc, -⟩
      · cases hclive
      · exact h.oneLive b hb c hc hblive hclive
  · exact BatchDesk.forall_write h.ids ht (fun _ => hsense) h.senseIds
  · exact BatchDesk.forall_write h.ids ht (h.staged t ht) h.staged
  · exact BatchDesk.forall_write h.ids ht nofun h.unlabelled
  · exact BatchDesk.forall_write h.ids ht nofun h.imported
  · exact fun r hr => hreads r (h.staging r hr)
  · exact fun r hr => hreads r (h.cancelling r (List.mem_of_mem_eraseIdx hr))
  · intro a ha
    obtain ⟨b, hb⟩ := h.approving a ha
    by_cases hbid : b.id = t.id
    · obtain rfl := List.inj_on_of_nodup_map h.ids hb.mem ht hbid
      refine ⟨_, (hmem _).mpr (.inl rfl), hb.id, nofun, hb.want, hb.staged, fun happended => ?_⟩
      exact absurd ⟨happended, hb.id.symm.trans hid⟩ (hlock a ha)
    · exact ⟨b, (hmem b).mpr (.inr ⟨hb.mem, hbid⟩), hb.id, hb.status, hb.want, hb.staged, hb.appended⟩
  · intro x hx hjudged
    rcases List.mem_append.mp hx with hx | hx
    · refine h.released x hx (BatchDesk.mem_judged.mpr ?_)
      rcases BatchDesk.mem_judged.mp hjudged with hlabel | ⟨b, hb, hbstatus, hxb⟩
      · exact .inl hlabel
      · rcases (hmem b).mp hb with rfl | ⟨hb, -⟩
        · exact absurd rfl hbstatus
        · exact .inr ⟨b, hb, hbstatus, hxb⟩
    · split at hx
      · rename_i hlive
        rw [hsense] at hx
        have hlabel : x ∉ s.labels := by
          intro hlabel
          obtain ⟨a, ha, happended, haid, -⟩ := h.unlabelled t ht hlive x hx hlabel
          exact hlock a ha ⟨happended, haid.trans hid⟩
        rcases BatchDesk.mem_judged.mp hjudged with hlabel' | ⟨b, hb, hbstatus, hxb⟩
        · exact hlabel hlabel'
        · rcases (hmem b).mp hb with rfl | ⟨hb, hbid⟩
          · exact hbstatus rfl
          · exact h.not_mem_other ht hlive hb (fun heq => hbid (congrArg _ heq)) hbstatus hlabel hxb
      · cases hx

end BatchDesk.Sound

/-! ## Runs -/

theorem finalStands_of_eq {t : BatchDesk} (h : t.batches = s.batches) : FinalStands s t where
  imported := fun _ hb _ => h ▸ hb
  later := fun _ hb hnew => absurd (List.mem_map_of_mem (h ▸ hb)) hnew

theorem finalStands_write (hids : (s.batches.map (·.id)).Nodup) {t : BatchFile}
    (ht : t ∈ s.batches) (hstatus : t.status ≠ .imported) {f : BatchFile → BatchFile}
    (hf : ∀ b, (f b).id = b.id) {u : BatchDesk} (hu : u.batches = (s.write t.id f).batches) :
    FinalStands s u where
  imported := by
    intro b hb himported
    rw [hu, BatchDesk.mem_write hids ht]
    refine .inr ⟨hb, fun hid => hstatus ?_⟩
    rw [← List.inj_on_of_nodup_map hids hb ht hid]
    exact himported
  later := by
    intro b hb hnew
    rw [hu] at hb
    have hmem := List.mem_map_of_mem (f := fun b : BatchFile => b.id) hb
    rw [BatchDesk.ids_write hf] at hmem
    exact absurd hmem hnew

/-- **One event whose write is timely.** -/
theorem BatchDesk.Sound.step (h : s.Sound) {e : DeskEvent} (he : s.timely e = true) :
    (deskStep py s e).Sound ∧ FinalStands s (deskStep py s e) := by
  have hstay : s.Sound ∧ FinalStands s s := ⟨h, finalStands_of_eq rfl⟩
  cases e with
  | checkActive =>
    rw [deskStep]
    split
    · exact hstay
    · exact ⟨h.reading _ _ h.staging h.cancelling, finalStands_of_eq rfl⟩
  | build screened size =>
    simp only [deskStep]
    split
    · exact hstay
    · split
      · exact ⟨h.reading _ _ h.staging h.cancelling, finalStands_of_eq rfl⟩
      · exact ⟨h.reading _ _ h.staging h.cancelling, finalStands_of_eq rfl⟩
  | save place id =>
    rw [deskStep]
    split
    · exact hstay
    · rename_i ids hids
      simp only [BatchDesk.timely, hids, Option.all_some, Bool.and_eq_true, Bool.not_eq_true',
        List.any_eq_false, List.all_eq_true, decide_eq_true_eq] at he
      split
      · exact hstay
      · rename_i hnew
        have hnew : id ∉ s.batches.map (·.id) := by
          intro hmem
          obtain ⟨b, hb, heq⟩ := List.mem_map.mp hmem
          exact hnew (List.any_eq_true.mpr ⟨b, hb, decide_eq_true heq⟩)
        refine ⟨h.save he.1 he.2 hnew place, fun b hb _ => List.mem_append_left _ hb, ?_⟩
        intro b hb hbnew x hx
        rcases List.mem_append.mp hb with hb | hb
        · exact absurd (List.mem_map_of_mem hb) hbnew
        · rw [List.mem_singleton.mp hb] at hx
          exact he.2 x hx
  | stageRead id =>
    rw [deskStep]
    split
    · exact hstay
    · rename_i b hfind
      split
      · rename_i hstatus
        obtain ⟨hb, -⟩ := BatchDesk.find_eq_some hfind
        exact ⟨h.reading _ _ (h.reads_append h.staging hb (hstatus ▸ nofun)) h.cancelling,
          finalStands_of_eq rfl⟩
      · exact hstay
  | stageWrite place =>
    rw [deskStep]
    split
    · exact hstay
    · rename_i read hread
      obtain ⟨t, ht, hid, hsense⟩ := h.staging read (List.mem_of_getElem? hread)
      have hlive : t.status.live = true := by
        rw [BatchDesk.timely, hread, Option.all_some, ← hid, BatchDesk.find_of_mem h.ids ht] at he
        exact he
      refine ⟨h.stageWrite ht hid hsense hlive place, ?_⟩
      exact finalStands_write h.ids ht (BatchStatus.ne_of_live hlive).1 (f := read.review)
        (fun _ => rfl) (by rw [hid])
  | approveRead id ids =>
    rw [deskStep]
    split
    · rename_i b hlock hfind
      simp only
      split
      · rename_i hchecks
        obtain ⟨hb, -⟩ := BatchDesk.find_eq_some hfind
        exact ⟨h.approveRead hb hchecks.2.2 hchecks.2.1 hlock, finalStands_of_eq rfl⟩
      · exact hstay
    · exact hstay
  | approveAppend =>
    rw [deskStep]
    split
    · exact hstay
    · rename_i a ha
      split
      · exact hstay
      · rename_i hfirst
        obtain ⟨b, hb⟩ := h.approving a ha
        have hfirst := eq_false_of_ne_true hfirst
        have hstatus : b.status = .inReview := by
          rw [BatchDesk.timely, ha, Option.all_some, hfirst, Bool.false_or, ← hb.id,
            BatchDesk.find_of_mem h.ids hb.mem] at he
          exact of_decide_eq_true he
        exact ⟨h.approveAppend ha hb hstatus hfirst, finalStands_of_eq rfl⟩
  | approveWrite =>
    rw [deskStep]
    split
    · exact hstay
    · rename_i a ha
      split
      · rename_i happended
        obtain ⟨b, hb⟩ := h.approving a ha
        refine ⟨h.approveWrite ha hb happended, ?_⟩
        exact finalStands_write h.ids hb.mem hb.status (f := BatchFile.finalize a.want)
          (fun _ => rfl) (by rw [hb.id])
      · exact hstay
  | cancelRead id =>
    rw [deskStep]
    split
    · exact hstay
    · rename_i b hfind
      split
      · exact hstay
      · rename_i hstatus
        obtain ⟨hb, -⟩ := BatchDesk.find_eq_some hfind
        exact ⟨h.reading _ _ h.staging (h.reads_append h.cancelling hb hstatus),
          finalStands_of_eq rfl⟩
  | cancelWrite place =>
    rw [deskStep]
    split
    · exact hstay
    · rename_i read hread
      obtain ⟨t, ht, hid, hsense⟩ := h.cancelling read (List.mem_of_getElem? hread)
      rw [BatchDesk.timely, hread, Option.all_some, ← hid, BatchDesk.find_of_mem h.ids ht,
        Option.all_some, Bool.and_eq_true] at he
      have hstatus : t.status ≠ .imported := of_decide_eq_true he.1
      refine ⟨h.cancelWrite ht hid hsense hstatus (fun a ha hboth => ?_) place, ?_⟩
      · rw [ha, Option.all_some] at he
        simp [hboth.1, hboth.2, hid] at he
      · exact finalStands_write h.ids ht hstatus (f := read.cancel) (fun _ => rfl) (by rw [hid])

end Laws

end HamZaboon
