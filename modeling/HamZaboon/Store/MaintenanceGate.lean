import HamZaboon.Library.Runs
import Mathlib.Data.List.Basic

/-! # The maintenance gate

`_MaintenanceGate` of `services/db/schema.py`: a connection takes a shared hold,
a backup or a restore an exclusive one, and the thread with the exclusive hold
may take either again inside of it.  The critical sections of all threads
interleave: the entry of a hold up to its first wait, each time a waiting thread
is woken, and the exit of a hold.  A wake may come at any time.

While a thread is the writer all holds are its own, the oldest one exclusive and
every other one re-entered; otherwise the readers are the holds.  Every critical
section keeps this (`Regular.next`), and what the gate promises is read off it
(`gate_excludes`).
-/

namespace HamZaboon
open Library

/-- What `threading.get_ident` gives. -/
abbrev ThreadIdent := Nat

/-- `shared()` or `exclusive()`. -/
inductive HoldKind
  | shared
  | exclusive
  deriving DecidableEq, Repr

/-- A hold that is entered and not left; `reentrant` is the local variable of
the context manager. -/
structure Hold where
  owner : ThreadIdent
  kind : HoldKind
  reentrant : Bool
  deriving DecidableEq, Repr

/-- The fields of `_MaintenanceGate`. -/
structure MaintenanceGate where
  readers : Int := 0
  writerThread : Option ThreadIdent := none
  writerWaiting : Bool := false
  deriving DecidableEq, Repr

/-- The gate and its threads: the holds, the newest first, and the threads in
`wait`. -/
structure GateState extends MaintenanceGate where
  holds : List Hold := []
  waiting : List (ThreadIdent × HoldKind) := []
  deriving DecidableEq, Repr

/-- A critical section of a thread. -/
inductive GateEvent
  /-- The entry of a hold, up to its first wait. -/
  | enter (t : ThreadIdent) (kind : HoldKind)
  /-- A thread in `wait` tests its condition again. -/
  | wake (t : ThreadIdent) (kind : HoldKind)
  /-- The exit of the innermost hold of a thread. -/
  | leave (t : ThreadIdent)
  deriving DecidableEq, Repr

namespace GateState

def threadHolds (s : GateState) (t : ThreadIdent) : List Hold := s.holds.filter (·.owner = t)

/-- The thread is in `wait`. -/
def isWaiting (s : GateState) (t : ThreadIdent) : Bool := s.waiting.any (·.1 = t)

/-- A thread in `wait` does nothing until it is woken, and leaves only what it holds. -/
def Enabled (s : GateState) : GateEvent → Prop
  | .enter t _ => s.isWaiting t = false
  | .wake t kind => (t, kind) ∈ s.waiting
  | .leave t => s.isWaiting t = false ∧ s.threadHolds t ≠ []

instance (s : GateState) (e : GateEvent) : Decidable (s.Enabled e) := by
  cases e <;> unfold Enabled <;> infer_instance

/-- The wait condition of `shared()`. -/
def readerWaits (s : GateState) : Bool := s.writerThread.isSome || s.writerWaiting

/-- The wait condition of `exclusive()`. -/
def writerWaits (s : GateState) : Bool := s.writerThread.isSome || s.readers > 0

def hold (s : GateState) (t : ThreadIdent) (kind : HoldKind) (reentrant : Bool) : GateState :=
  { s with holds := ⟨t, kind, reentrant⟩ :: s.holds }

def wait (s : GateState) (t : ThreadIdent) (kind : HoldKind) : GateState :=
  { s with waiting := (t, kind) :: s.waiting }

/-- The thread waits no longer. -/
def resume (s : GateState) (t : ThreadIdent) : GateState :=
  { s with waiting := s.waiting.filter (·.1 ≠ t) }

/-- `self._readers += 1` and the shared hold. -/
def takeShared (s : GateState) (t : ThreadIdent) : GateState :=
  { s with readers := s.readers + 1 }.hold t .shared false

/-- `self._writer_thread = tid`, the `finally`, and the exclusive hold. -/
def takeExclusive (s : GateState) (t : ThreadIdent) : GateState :=
  { s with writerThread := some t, writerWaiting := false }.hold t .exclusive false

/-- The first critical section of `shared()`. -/
def enterShared (s : GateState) (t : ThreadIdent) : GateState :=
  if s.writerThread = some t then s.hold t .shared true
  else if s.readerWaits then s.wait t .shared
  else s.takeShared t

/-- The first critical section of `exclusive()`. -/
def enterExclusive (s : GateState) (t : ThreadIdent) : GateState :=
  if s.writerThread = some t then s.hold t .exclusive true
  else
    let s := { s with writerWaiting := true }
    if s.writerWaits then s.wait t .exclusive
    else s.takeExclusive t

/-- A woken thread goes on when its condition holds, and waits again otherwise. -/
def wake (s : GateState) (t : ThreadIdent) : HoldKind → GateState
  | .shared => if s.readerWaits then s else (s.resume t).takeShared t
  | .exclusive => if s.writerWaits then s else (s.resume t).takeExclusive t

/-- The exit of a hold; a re-entered one updates nothing. -/
def release (s : GateState) : Hold → GateState
  | ⟨_, _, true⟩ => s
  | ⟨_, .shared, false⟩ => { s with readers := s.readers - 1 }
  | ⟨_, .exclusive, false⟩ => { s with writerThread := none }

/-- The exit of the innermost hold of a thread. -/
def leave (s : GateState) (t : ThreadIdent) : GateState :=
  match s.threadHolds t with
  | [] => s
  | h :: _ => { s with holds := s.holds.eraseP (·.owner = t) }.release h

/-- The state after a critical section. -/
def next (s : GateState) : GateEvent → GateState
  | .enter t .shared => s.enterShared t
  | .enter t .exclusive => s.enterExclusive t
  | .wake t kind => s.wake t kind
  | .leave t => s.leave t

/-! ## What the gate promises -/

/-- The hold was taken inside an exclusive hold of its thread, given the older holds. -/
def insideExclusive (h : Hold) (older : List Hold) : Bool :=
  older.any fun outer => outer.owner = h.owner && outer.kind = .exclusive

/-- How many shared holds were not taken inside an exclusive hold of their thread. -/
def outerShared : List Hold → Nat
  | [] => 0
  | h :: older =>
    outerShared older + if h.kind = .shared ∧ insideExclusive h older = false then 1 else 0

structure Excludes (s : GateState) : Prop where
  /-- While a thread holds the gate exclusively all holds are its own. -/
  exclusive_alone : ∀ h ∈ s.holds, h.kind = .exclusive → ∀ other ∈ s.holds, other.owner = h.owner
  readers_eq : s.readers = outerShared s.holds
  /-- Leaving a hold inside an exclusive one leaves the gate and the outer holds as they are. -/
  inner_leave : ∀ t h outer, s.threadHolds t = h :: outer →
    (∃ o ∈ outer, o.kind = .exclusive) →
      (s.next (.leave t)).toMaintenanceGate = s.toMaintenanceGate ∧
        (s.next (.leave t)).threadHolds t = outer
  /-- Without holds, and without a thread that waits for an exclusive one, the
  gate is as it was created. -/
  idle : s.holds = [] → s.readers = 0 ∧ s.writerThread = none ∧
    ((∀ w ∈ s.waiting, w.2 ≠ .exclusive) → s.toMaintenanceGate = {})

/-! ## The invariant -/

/-- All holds belong to the writer, or all are readers. -/
inductive Owned : Option ThreadIdent → Int → List Hold → Prop
  | readers {holds : List Hold} (h : ∀ x ∈ holds, x.kind = .shared ∧ x.reentrant = false) :
    Owned none holds.length holds
  | writer {t : ThreadIdent} {inner : List Hold} (h : ∀ x ∈ inner, x.owner = t ∧ x.reentrant = true) :
    Owned (some t) 0 (inner ++ [⟨t, .exclusive, false⟩])

structure Regular (s : GateState) : Prop where
  owned : Owned s.writerThread s.readers s.holds
  flag : s.writerWaiting = true → ∃ t, (t, HoldKind.exclusive) ∈ s.waiting

namespace Owned
variable {r : Int} {holds : List Hold} {t : ThreadIdent}

theorem of_none (h : Owned none r holds) :
    r = holds.length ∧ ∀ x ∈ holds, x.kind = .shared ∧ x.reentrant = false := by
  cases h with
  | readers h => exact ⟨rfl, h⟩

theorem of_some (h : Owned (some t) r holds) :
    r = 0 ∧ ∃ inner, holds = inner ++ [⟨t, .exclusive, false⟩] ∧
      ∀ x ∈ inner, x.owner = t ∧ x.reentrant = true := by
  cases h with
  | writer h => exact ⟨rfl, _, rfl, h⟩

theorem takeShared (h : Owned none r holds) :
    Owned none (r + 1) (⟨t, .shared, false⟩ :: holds) := by
  obtain ⟨rfl, hall⟩ := h.of_none
  exact .readers (List.forall_mem_cons.mpr ⟨⟨rfl, rfl⟩, hall⟩)

theorem takeExclusive (h : Owned none r holds) (hr : ¬ r > 0) :
    Owned (some t) r (⟨t, .exclusive, false⟩ :: holds) := by
  obtain ⟨rfl, -⟩ := h.of_none
  have hnil : holds = [] := List.length_eq_zero_iff.mp (by omega)
  subst hnil
  exact .writer fun x hx => absurd hx List.not_mem_nil

theorem reenter (h : Owned (some t) r holds) (kind : HoldKind) :
    Owned (some t) r (⟨t, kind, true⟩ :: holds) := by
  obtain ⟨rfl, inner, rfl, hinner⟩ := h.of_some
  have hall : ∀ x ∈ (⟨t, kind, true⟩ : Hold) :: inner, x.owner = t ∧ x.reentrant = true :=
    List.forall_mem_cons.mpr ⟨⟨rfl, rfl⟩, hinner⟩
  exact .writer hall

theorem owner_eq (h : Owned (some t) r holds) : ∀ x ∈ holds, x.owner = t := by
  obtain ⟨-, inner, rfl, hinner⟩ := h.of_some
  intro x hx
  rcases List.mem_append.mp hx with hx | hx
  · exact (hinner x hx).1
  · rw [List.mem_singleton.mp hx]

end Owned

/-! ## Steps -/

theorem regular_init : Regular {} :=
  ⟨.readers fun _ hx => absurd hx List.not_mem_nil, fun h => absurd h Bool.false_ne_true⟩

section Steps
variable {s : GateState} {t : ThreadIdent}

theorem writerThread_eq_none (h : s.readerWaits = false) : s.writerThread = none := by
  unfold readerWaits at h
  simpa using (Bool.or_eq_false_iff.mp h).1

theorem Regular.enterShared (h : s.Regular) : (s.enterShared t).Regular := by
  unfold GateState.enterShared
  split
  · rename_i hwriter
    refine ⟨?_, h.flag⟩
    have howned := h.owned
    rw [hwriter] at howned
    show Owned s.writerThread s.readers (⟨t, .shared, true⟩ :: s.holds)
    rw [hwriter]
    exact howned.reenter .shared
  · split
    · refine ⟨h.owned, fun hflag => ?_⟩
      obtain ⟨t', ht'⟩ := h.flag hflag
      exact ⟨t', List.mem_cons_of_mem _ ht'⟩
    · rename_i hfree
      refine ⟨?_, h.flag⟩
      have hnone := writerThread_eq_none (Bool.eq_false_iff.mpr hfree)
      have howned := h.owned
      show Owned s.writerThread (s.readers + 1) (⟨t, .shared, false⟩ :: s.holds)
      rw [hnone] at howned ⊢
      exact howned.takeShared

theorem Regular.enterExclusive (h : s.Regular) : (s.enterExclusive t).Regular := by
  unfold GateState.enterExclusive
  split
  · rename_i hwriter
    refine ⟨?_, h.flag⟩
    have howned := h.owned
    show Owned s.writerThread s.readers (⟨t, .exclusive, true⟩ :: s.holds)
    rw [hwriter] at howned ⊢
    exact howned.reenter .exclusive
  · simp only
    split
    · exact ⟨h.owned, fun _ => ⟨t, List.mem_cons_self⟩⟩
    · rename_i hfree
      refine ⟨?_, fun hflag => absurd hflag Bool.false_ne_true⟩
      have hfree' : s.writerThread = none ∧ ¬ s.readers > 0 := by
        simpa [writerWaits] using hfree
      have howned := h.owned
      rw [hfree'.1] at howned
      exact howned.takeExclusive hfree'.2

theorem Regular.wake {kind : HoldKind} (h : s.Regular) : (s.wake t kind).Regular := by
  cases kind with
  | shared =>
    simp only [GateState.wake]
    split
    · exact h
    · rename_i hfree
      have hfree' : s.writerThread = none ∧ s.writerWaiting = false := by
        simpa [readerWaits] using hfree
      refine ⟨?_, fun hflag => absurd (hfree'.2.symm.trans hflag) Bool.false_ne_true⟩
      have howned := h.owned
      show Owned s.writerThread (s.readers + 1) (⟨t, .shared, false⟩ :: s.holds)
      rw [hfree'.1] at howned ⊢
      exact howned.takeShared
  | exclusive =>
    simp only [GateState.wake]
    split
    · exact h
    · rename_i hfree
      have hfree' : s.writerThread = none ∧ ¬ s.readers > 0 := by
        simpa [writerWaits] using hfree
      refine ⟨?_, fun hflag => absurd hflag Bool.false_ne_true⟩
      have howned := h.owned
      rw [hfree'.1] at howned
      exact howned.takeExclusive hfree'.2

theorem leave_reader {h : Hold} {outer : List Hold} (howned : Owned none s.readers s.holds)
    (ht : s.threadHolds t = h :: outer) :
    s.leave t = { s with holds := s.holds.eraseP (·.owner = t), readers := s.readers - 1 } ∧
      (s.holds.eraseP (·.owner = t)).length = s.holds.length - 1 := by
  have hmem : h ∈ s.threadHolds t := ht ▸ List.mem_cons_self
  obtain ⟨hh, howner⟩ := List.mem_filter.mp hmem
  obtain ⟨hkind, hre⟩ := howned.of_none.2 h hh
  refine ⟨?_, List.length_eraseP_of_mem hh howner⟩
  obtain ⟨owner, kind, reentrant⟩ := h
  simp only at hkind hre
  subst hkind hre
  simp only [leave, ht, release]

theorem leave_writer {w : ThreadIdent} {h : Hold} {outer : List Hold}
    (howned : Owned (some w) s.readers s.holds) (ht : s.threadHolds t = h :: outer) :
    t = w ∧ s.holds = h :: outer ∧
      s.leave t =
        if outer = [] then { s with holds := [], writerThread := none }
        else { s with holds := outer } := by
  have hmem : h ∈ s.threadHolds t := ht ▸ List.mem_cons_self
  obtain ⟨hh, howner⟩ := List.mem_filter.mp hmem
  have htw : t = w := by
    rw [← howned.owner_eq h hh]
    exact (of_decide_eq_true howner).symm
  subst htw
  have hall : s.threadHolds t = s.holds :=
    List.filter_eq_self.mpr fun x hx => decide_eq_true (howned.owner_eq x hx)
  have hholds : s.holds = h :: outer := hall.symm.trans ht
  have herase : s.holds.eraseP (·.owner = t) = outer := by
    rw [hholds]
    exact List.eraseP_cons_of_pos howner
  refine ⟨rfl, hholds, ?_⟩
  obtain ⟨-, inner, hinner, hre⟩ := howned.of_some
  cases inner with
  | nil =>
    obtain ⟨rfl, rfl⟩ := List.cons.inj (hholds.symm.trans hinner)
    simp only [leave, ht, release, herase, if_pos]
  | cons x inner =>
    obtain ⟨rfl, rfl⟩ := List.cons.inj (hholds.symm.trans hinner)
    have hx := (hre h List.mem_cons_self).2
    obtain ⟨owner, kind, reentrant⟩ := h
    simp only at hx
    subst hx
    simp [leave, ht, release, herase]

theorem Regular.leave (h : s.Regular) : (s.leave t).Regular := by
  cases hthread : s.threadHolds t with
  | nil => simpa only [GateState.leave, hthread] using h
  | cons x outer =>
    have howned := h.owned
    cases hwriter : s.writerThread with
    | none =>
      rw [hwriter] at howned
      obtain ⟨heq, hlength⟩ := leave_reader howned hthread
      obtain ⟨hreaders, hall⟩ := howned.of_none
      have hpos : 0 < s.holds.length :=
        List.length_pos_of_mem (List.mem_filter.mp (hthread ▸ List.mem_cons_self)).1
      rw [heq]
      refine ⟨?_, h.flag⟩
      show Owned s.writerThread (s.readers - 1) (s.holds.eraseP (·.owner = t))
      have hcount : s.readers - 1 = ((s.holds.eraseP (·.owner = t)).length : Int) := by omega
      rw [hwriter, hcount]
      exact .readers fun y hy => hall y (List.mem_of_mem_eraseP hy)
    | some w =>
      rw [hwriter] at howned
      obtain ⟨rfl, hholds, heq⟩ := leave_writer howned hthread
      obtain ⟨hreaders, inner, hinner, hre⟩ := howned.of_some
      rw [heq]
      split
      · refine ⟨?_, h.flag⟩
        show Owned none s.readers []
        rw [hreaders]
        exact .readers fun _ hy => absurd hy List.not_mem_nil
      · rename_i hne
        refine ⟨?_, h.flag⟩
        show Owned s.writerThread s.readers outer
        rw [hwriter, hreaders]
        cases inner with
        | nil =>
          obtain ⟨-, rfl⟩ := List.cons.inj (hholds.symm.trans hinner)
          exact absurd rfl hne
        | cons y inner =>
          obtain ⟨-, rfl⟩ := List.cons.inj (hholds.symm.trans hinner)
          exact .writer fun z hz => hre z (List.mem_cons_of_mem _ hz)

theorem Regular.next (h : s.Regular) (e : GateEvent) : (s.next e).Regular := by
  cases e with
  | enter t kind =>
    cases kind with
    | shared => exact h.enterShared
    | exclusive => exact h.enterExclusive
  | wake t kind => exact h.wake
  | leave t => exact h.leave

end Steps

/-! ## What follows from the invariant -/

theorem insideExclusive_iff {h : Hold} {older : List Hold} :
    insideExclusive h older = true ↔ ∃ o ∈ older, o.owner = h.owner ∧ o.kind = .exclusive := by
  simp [insideExclusive]

theorem outerShared_of_shared {holds : List Hold} (h : ∀ x ∈ holds, x.kind = .shared) :
    outerShared holds = holds.length := by
  induction holds with
  | nil => rfl
  | cons x holds ih =>
    obtain ⟨hx, hholds⟩ := List.forall_mem_cons.mp h
    have hinside : insideExclusive x holds = false := by
      rw [Bool.eq_false_iff, Ne, insideExclusive_iff]
      rintro ⟨o, ho, -, hkind⟩
      rw [hholds o ho] at hkind
      cases hkind
    simp [outerShared, ih hholds, hx, hinside]

theorem outerShared_of_writer {t : ThreadIdent} {inner : List Hold}
    (h : ∀ x ∈ inner, x.owner = t) :
    outerShared (inner ++ [⟨t, .exclusive, false⟩]) = 0 := by
  induction inner with
  | nil => rfl
  | cons x inner ih =>
    obtain ⟨hx, hinner⟩ := List.forall_mem_cons.mp h
    have hinside : insideExclusive x (inner ++ [⟨t, .exclusive, false⟩]) = true :=
      insideExclusive_iff.mpr ⟨_, List.mem_append_right _ (List.mem_singleton.mpr rfl), hx.symm, rfl⟩
    simp [outerShared, ih hinner, hinside]

theorem Regular.excludes_of_none {s : GateState} (h : s.Regular) (hwriter : s.writerThread = none) :
    s.Excludes := by
  have howned := h.owned
  rw [hwriter] at howned
  obtain ⟨hreaders, hall⟩ := howned.of_none
  have hshared : ∀ x ∈ s.holds, x.kind ≠ .exclusive := by
    intro x hx hkind
    rw [(hall x hx).1] at hkind
    cases hkind
  refine ⟨fun x hx hkind => absurd hkind (hshared x hx), ?_, ?_, ?_⟩
  · rw [hreaders, outerShared_of_shared fun x hx => (hall x hx).1]
  · rintro t x outer hthread ⟨o, ho, hkind⟩
    have hmem : o ∈ s.threadHolds t := hthread ▸ List.mem_cons_of_mem _ ho
    exact absurd hkind (hshared o (List.mem_filter.mp hmem).1)
  · intro hnil
    have hzero : s.readers = 0 := by rw [hreaders, hnil]; rfl
    refine ⟨hzero, hwriter, fun hquiet => ?_⟩
    have hflag : s.writerWaiting = false := by
      rw [Bool.eq_false_iff]
      intro hflag
      obtain ⟨t, ht⟩ := h.flag hflag
      exact hquiet _ ht rfl
    obtain ⟨⟨readers, writer, flag⟩, holds, waiting⟩ := s
    simp only at hzero hwriter hflag
    rw [hzero, hwriter, hflag]

theorem Regular.excludes_of_some {s : GateState} (h : s.Regular) {w : ThreadIdent}
    (hwriter : s.writerThread = some w) : s.Excludes := by
  have howned := h.owned
  rw [hwriter] at howned
  obtain ⟨hreaders, inner, hholds, hinner⟩ := howned.of_some
  have howner := howned.owner_eq
  refine ⟨fun x hx _ y hy => (howner y hy).trans (howner x hx).symm, ?_, ?_, ?_⟩
  · rw [hreaders, hholds, outerShared_of_writer fun x hx => (hinner x hx).1]
    rfl
  · rintro t x outer hthread ⟨o, ho, -⟩
    obtain ⟨rfl, heq, hleave⟩ := leave_writer howned hthread
    have hne : outer ≠ [] := List.ne_nil_of_mem ho
    have hleave' : s.next (.leave t) = { s with holds := outer } := by
      rw [GateState.next, hleave, if_neg hne]
    rw [hleave']
    refine ⟨rfl, List.filter_eq_self.mpr fun y hy => ?_⟩
    exact decide_eq_true (howner y (heq ▸ List.mem_cons_of_mem _ hy))
  · intro hnil
    rw [hholds] at hnil
    exact absurd hnil (by simp)

theorem Regular.excludes {s : GateState} (h : s.Regular) : s.Excludes := by
  cases hwriter : s.writerThread with
  | none => exact h.excludes_of_none hwriter
  | some w => exact h.excludes_of_some hwriter

/-- **The maintenance gate excludes.**  In every state of every run of entries,
wakes and exits of any number of threads, an exclusive hold is alone with the
holds of its own thread, the readers are the shared holds outside of it, the
exit of an inner hold keeps the outer one, and a gate that all holds have left
is as it was created. -/
theorem gate_excludes {events : List GateEvent} (h : Meets next Enabled {} events) :
    Always next Excludes {} events :=
  always_of_meets next (fun (s : GateState) (hs : s.Regular) => hs.excludes)
    (fun s e (hs : s.Regular) _ => hs.next e) regular_init h

/-- Thread 1 reads, thread 2 waits to write and later re-enters its own hold,
thread 3 reads after it. -/
theorem gate_excludes_writer :
    Always next Excludes {}
      [.enter 1 .shared, .enter 2 .exclusive, .enter 3 .shared, .leave 1, .wake 2 .exclusive,
        .enter 2 .shared, .enter 2 .exclusive, .leave 2, .wake 3 .shared, .leave 2, .leave 2,
        .wake 3 .shared, .leave 3] :=
  gate_excludes (by simp only [Meets, and_true]; decide)

end GateState

end HamZaboon
