import HamZaboon.Lexicon.Sampling

/-! # The offset index of a dump

`build_kaikki_index.py`: one pass over a dump writes an index line for each entry,
with the place of its bytes, and saves a checkpoint every `batch` entries.  A build
that was stopped is resumed from its checkpoint and appends to the index.

However often it was stopped, every line of an index leads `fetch` back to its entry.
A resumed build has the index of a straight one exactly when it found no line behind
the checkpoint: what was written after it is written again (`index_resumed`).
-/

namespace HamZaboon
open Library

/-- `handle.readline()`, up to the end. -/
def dumpLines : List UInt8 → List (List UInt8)
  | [] => []
  | c :: bytes =>
    if c = 10 then [c] :: dumpLines bytes
    else
      match dumpLines bytes with
      | [] => [[c]]
      | line :: lines => (c :: line) :: lines

structure OffsetEntry where
  word : JsonValue
  pos : JsonValue
  offset : Nat
  length : Nat

/-- A checkpoint of the progress file. -/
structure IndexProgress where
  offset : Nat
  linesDone : Nat

/-- What a stopped build leaves for the next one. -/
structure IndexFiles where
  index : List OffsetEntry
  progress : Option IndexProgress

structure IndexScan where
  offset : Nat
  linesDone : Nat
  index : List OffsetEntry
  saved : Option IndexProgress
  /-- How many lines of the index are in the file for certain. -/
  flushed : Nat

structure IndexBuild (R : Type) where
  lib : SampleLib R
  /-- `json.loads(raw.decode("utf-8"))`; `none` for the errors that are caught. -/
  decode : List UInt8 → Option JsonValue
  /-- `not raw.strip()`. -/
  isBlankLine : List UInt8 → Bool
  /-- The index line of a word and a part of speech can be encoded. -/
  encodes : JsonValue → JsonValue → Bool
  batch : Nat
  batch_pos : 0 < batch
  dump : List UInt8

namespace IndexBuild
variable {R : Type} (b : IndexBuild R)

/-- `obj.get(name) if isinstance(obj, dict) else None`. -/
def field (name : String) : JsonValue → JsonValue
  | .obj entry => Dict.get entry name
  | _ => .null

/-- The word and the part of speech of a line that is indexed, none for one that is not;
`none` for an exception that ends the build. -/
def lineRow (raw : List UInt8) : Option (Option (JsonValue × JsonValue)) :=
  if b.isBlankLine raw then some none
  else
    match b.decode raw with
    | none => some none
    | some obj =>
      match b.lib.lemmaOf (field "word" obj) with
      | .error _ => some none
      | .ok _ =>
        if b.encodes (field "word" obj) (field "pos" obj) then
          some (some (field "word" obj, field "pos" obj))
        else none

/-- The bytes that are read at an offset. -/
def slice (offset length : Nat) : List UInt8 := (b.dump.drop offset).take length

/-- `fetch`; `none` where it raises. -/
def fetch (offset length : Nat) : Option JsonValue :=
  match b.decode (b.slice offset length) with
  | some (.obj entry) => if (entry.lookup "word").isSome then some (.obj entry) else none
  | _ => none

/-- One turn of the loop of `build_index`. -/
def readLine (s : IndexScan) (raw : List UInt8) : Option IndexScan :=
  (b.lineRow raw).map fun row =>
    let offset := s.offset + raw.length
    match row with
    | none => { s with offset := offset }
    | some (word, pos) =>
      let index := s.index ++ [⟨word, pos, s.offset, raw.length⟩]
      let linesDone := s.linesDone + 1
      if linesDone % b.batch = 0 then
        ⟨offset, linesDone, index, some ⟨offset, linesDone⟩, index.length⟩
      else ⟨offset, linesDone, index, s.saved, s.flushed⟩

/-- All lines of the dump. -/
def all : List (List UInt8) := dumpLines b.dump

def start (f : IndexFiles) : IndexProgress := f.progress.getD ⟨0, 0⟩

/-- A build begins: the file is appended to behind an offset, and else written anew. -/
def enter (f : IndexFiles) : IndexScan :=
  let index := if 0 < (start f).offset then f.index else []
  ⟨(start f).offset, (start f).linesDone, index, f.progress, index.length⟩

/-- What a build reads. -/
def rest (f : IndexFiles) : List (List UInt8) := dumpLines (b.dump.drop (start f).offset)

/-- A build that is stopped after some lines, with at least so many index lines in the file as
are said or flushed. -/
def stopped (f : IndexFiles) (stop : Nat × Nat) : Option IndexFiles :=
  (((b.rest f).take stop.1).foldlM b.readLine (enter f)).map fun s =>
    ⟨s.index.take (max s.flushed stop.2), s.saved⟩

/-- A build that comes to its end, with its index. -/
def finished (f : IndexFiles) : Option (List OffsetEntry) :=
  ((b.rest f).foldlM b.readLine (enter f)).map (·.index)

def noFiles : IndexFiles := ⟨[], none⟩

/-! ## The lines of a dump -/

theorem flatten_dumpLines (bytes : List UInt8) : (dumpLines bytes).flatten = bytes := by
  induction bytes with
  | nil => rfl
  | cons c bytes ih =>
    rw [dumpLines]
    split
    · rw [List.flatten_cons, ih, List.singleton_append]
    · conv_rhs => rw [← ih]
      cases dumpLines bytes <;> simp

theorem ne_nil_of_mem_dumpLines {bytes line : List UInt8} (h : line ∈ dumpLines bytes) :
    line ≠ [] := by
  induction bytes generalizing line with
  | nil => cases h
  | cons c bytes ih =>
    rw [dumpLines] at h
    split at h
    · rcases List.mem_cons.mp h with rfl | h
      · exact List.cons_ne_nil _ _
      · exact ih h
    · cases hlines : dumpLines bytes <;> rw [hlines] at h ih <;>
        rcases List.mem_cons.mp h with rfl | h
      · exact List.cons_ne_nil _ _
      · cases h
      · exact List.cons_ne_nil _ _
      · exact ih (List.mem_cons_of_mem _ h)

/-- Behind some lines the others are read. -/
theorem dumpLines_drop (bytes : List UInt8) (k : Nat) :
    dumpLines (bytes.drop ((dumpLines bytes).take k).flatten.length) = (dumpLines bytes).drop k := by
  induction bytes generalizing k with
  | nil => simp [dumpLines]
  | cons c bytes ih =>
    cases k with
    | zero => simp
    | succ k =>
      by_cases hc : c = 10
      · simpa [dumpLines, hc, Nat.add_comm] using ih k
      · have hrest := ih (k + 1)
        cases hlines : dumpLines bytes with
        | nil => simp [dumpLines, hc, hlines]
        | cons line lines => simpa [dumpLines, hc, hlines, Nat.add_right_comm] using hrest

/-! ## What a scan writes -/

/-- The index lines of some lines from an offset. -/
def entriesAt (offset : Nat) : List (List UInt8) → Option (List OffsetEntry)
  | [] => some []
  | raw :: lines =>
    (b.lineRow raw).bind fun row =>
      (entriesAt (offset + raw.length) lines).map fun es =>
        (row.map fun r => ⟨r.1, r.2, offset, raw.length⟩).toList ++ es

variable {b} {s s' : IndexScan} {f f' : IndexFiles} {lines : List (List UInt8)} {k : Nat}
  {es x : List OffsetEntry}

theorem entriesAt_append {offset : Nat} {xs ys : List (List UInt8)} {fs : List OffsetEntry}
    (hxs : b.entriesAt offset xs = some es)
    (hys : b.entriesAt (offset + xs.flatten.length) ys = some fs) :
    b.entriesAt offset (xs ++ ys) = some (es ++ fs) := by
  induction xs generalizing offset es with
  | nil =>
    obtain rfl := Option.some.inj hxs
    exact hys
  | cons raw xs ih =>
    obtain ⟨row, hrow, hrest⟩ := Option.bind_eq_some_iff.mp hxs
    obtain ⟨tail, htail, rfl⟩ := Option.map_eq_some_iff.mp hrest
    rw [List.flatten_cons, List.length_append, ← Nat.add_assoc] at hys
    rw [List.cons_append, entriesAt, hrow, Option.bind_some, ih htail hys, Option.map_some,
      List.append_assoc]

/-- What a scan has read and written, and where it saved its last checkpoint, if it did. -/
structure Scanned (b : IndexBuild R) (s : IndexScan) (lines : List (List UInt8)) (s' : IndexScan)
    (es : List OffsetEntry) : Prop where
  entries : b.entriesAt s.offset lines = some es
  offset : s'.offset = s.offset + lines.flatten.length
  linesDone : s'.linesDone = s.linesDone + es.length
  index : s'.index = s.index ++ es
  saved : (s'.saved = s.saved ∧ s'.flushed = s.flushed) ∨ ∃ k x y, lines.take k ≠ [] ∧
    b.entriesAt s.offset (lines.take k) = some x ∧ es = x ++ y ∧
    s'.saved = some ⟨s.offset + (lines.take k).flatten.length, s.linesDone + x.length⟩ ∧
    s'.flushed = s.index.length + x.length

theorem scanned_readLine {raw : List UInt8} (h : b.readLine s raw = some s') :
    ∃ es, Scanned b s [raw] s' es := by
  obtain ⟨row, hrow, rfl⟩ := Option.map_eq_some_iff.mp h
  have hentries : b.entriesAt s.offset [raw] = some
      (row.map fun r => ⟨r.1, r.2, s.offset, raw.length⟩).toList := by
    simp [entriesAt, hrow]
  cases row with
  | none => exact ⟨_, hentries, by simp, rfl, (List.append_nil _).symm, .inl ⟨rfl, rfl⟩⟩
  | some row =>
    refine ⟨_, hentries, ?_, ?_, ?_, ?_⟩
    all_goals dsimp only; split
    · simp
    · simp
    · rfl
    · rfl
    · rfl
    · rfl
    · exact .inr ⟨1, _, [], by simp, hentries, by simp, by simp, by simp⟩
    · exact .inl ⟨rfl, rfl⟩

theorem scanned_foldlM (h : lines.foldlM b.readLine s = some s') :
    ∃ es, Scanned b s lines s' es := by
  induction lines generalizing s with
  | nil =>
    obtain rfl := Option.some.inj h
    exact ⟨[], rfl, rfl, rfl, (List.append_nil _).symm, .inl ⟨rfl, rfl⟩⟩
  | cons raw lines ih =>
    rw [List.foldlM_cons] at h
    obtain ⟨s₁, hfirst, hrest⟩ := Option.bind_eq_some_iff.mp h
    obtain ⟨x, hx⟩ := scanned_readLine hfirst
    obtain ⟨y, hy⟩ := ih hrest
    have hxoffset : s₁.offset = s.offset + [raw].flatten.length := hx.offset
    refine ⟨x ++ y, entriesAt_append hx.entries (hxoffset ▸ hy.entries), ?_, ?_, ?_, ?_⟩
    · rw [hy.offset, hxoffset]
      simp [Nat.add_assoc]
    · rw [hy.linesDone, hx.linesDone, List.length_append, Nat.add_assoc]
    · rw [hy.index, hx.index, List.append_assoc]
    · rcases hy.saved with ⟨hsaved, hflushed⟩ | ⟨k, u, v, -, hu, rfl, hsaved, hflushed⟩
      · rw [hsaved, hflushed]
        rcases hx.saved with hkept | ⟨k, u, v, hk, hu, rfl, hsaved, hflushed⟩
        · exact .inl hkept
        · have hone : [raw].take k = [raw] := List.take_of_length_le (by cases k <;> simp at hk ⊢)
          rw [hone] at hu hsaved
          exact .inr ⟨1, u, v ++ y, by simp, hu, by simp, hsaved, hflushed⟩
      · refine .inr ⟨k + 1, x ++ u, v, by simp, ?_, by simp, ?_, ?_⟩
        · exact entriesAt_append hx.entries (hxoffset ▸ hu)
        · rw [hsaved, hxoffset, hx.linesDone]
          simp [Nat.add_assoc]
        · rw [hflushed, hx.index]
          simp [Nat.add_assoc]

/-! ## Runs of builds -/

/-- The index line leads to the entry it was made from. -/
def Fetched (b : IndexBuild R) (e : OffsetEntry) : Prop :=
  ∃ obj, b.fetch e.offset e.length = some obj ∧ field "word" obj = e.word ∧ field "pos" obj = e.pos

theorem fetched_of_lineRow {e : OffsetEntry}
    (h : b.lineRow (b.slice e.offset e.length) = some (some (e.word, e.pos))) : Fetched b e := by
  unfold lineRow at h
  split at h
  · cases h
  · cases hobj : b.decode (b.slice e.offset e.length) with
    | none => simp [hobj] at h
    | some obj =>
      simp only [hobj] at h
      split at h
      · cases h
      · next hlemma =>
        split at h
        · obtain ⟨hword, hpos⟩ := Prod.mk.inj (Option.some.inj (Option.some.inj h))
          refine ⟨obj, ?_, hword, hpos⟩
          rw [fetch, hobj]
          -- `normalize_lemma` has refused `None`
          have hnull : b.lib.lemmaOf .null = .error (.valueError "normalize_lemma: empty lemma") := rfl
          have hne : field "word" obj ≠ .null := fun heq => by
            rw [heq, hnull] at hlemma
            cases hlemma
          cases obj with
          | obj entry =>
            refine if_pos ?_
            cases hlookup : entry.lookup "word" with
            | none => exact absurd (by simp [field, Dict.get, hlookup]) hne
            | some word => rfl
          | _ => exact absurd rfl hne
        · cases h

theorem fetched_of_entriesAt {offset : Nat} (h : b.entriesAt offset lines = some es)
    (hdump : lines.flatten <+: b.dump.drop offset) : ∀ e ∈ es, Fetched b e := by
  induction lines generalizing offset es with
  | nil =>
    obtain rfl := Option.some.inj h
    simp
  | cons raw lines ih =>
    obtain ⟨row, hrow, hrest⟩ := Option.bind_eq_some_iff.mp h
    obtain ⟨tail, htail, rfl⟩ := Option.map_eq_some_iff.mp hrest
    obtain ⟨after, hafter⟩ := hdump
    rw [List.flatten_cons, List.append_assoc] at hafter
    have hslice : b.slice offset raw.length = raw := by
      rw [slice, ← hafter, List.take_left]
    intro e he
    rcases List.mem_append.mp he with he | he
    · obtain ⟨r, rfl, rfl⟩ := Option.map_eq_some_iff.mp (Option.mem_toList.mp he)
      exact fetched_of_lineRow (hslice.symm ▸ hrow)
    · refine ih htail ⟨after, ?_⟩ e he
      rw [← List.drop_drop, ← hafter, List.drop_left]

/-- The list is `es`, or longer. -/
def Extends (es l : List OffsetEntry) : Prop := es.length ≤ l.length ∧ (l.length = es.length → l = es)

theorem Extends.append {l : List OffsetEntry} (h : Extends es l) (u w : List OffsetEntry) :
    Extends (es ++ u) (l ++ u ++ w) := by
  simp only [Extends, List.length_append]
  refine ⟨by have := h.1; omega, fun hlen => ?_⟩
  obtain rfl := h.2 (by have := h.1; omega)
  rw [List.length_eq_zero_iff.mp (by omega : w.length = 0), List.append_nil]

/-- A build has begun behind `k` lines, whose index lines are `es`. -/
structure Entered (b : IndexBuild R) (s : IndexScan) (k : Nat) (es : List OffsetEntry) : Prop where
  offset : s.offset = (b.all.take k).flatten.length
  entries : b.entriesAt 0 (b.all.take k) = some es
  linesDone : s.linesDone = es.length
  index : Extends es s.index
  fetched : ∀ e ∈ s.index, Fetched b e

theorem entered_noProgress (index : List OffsetEntry) : Entered b (enter ⟨index, none⟩) 0 [] :=
  ⟨by rfl, rfl, rfl, ⟨Nat.le_refl _, fun _ => rfl⟩, fun e he => by cases he⟩

/-- A build begins at a checkpoint that is `j` lines further, with `w` behind it in the file. -/
theorem Entered.next {j : Nat} {u w : List OffsetEntry} {q : IndexProgress}
    (h : Entered b (enter f) k es)
    (hu : b.entriesAt (enter f).offset ((b.all.drop k).take j) = some u)
    (hq : q = ⟨(enter f).offset + ((b.all.drop k).take j).flatten.length,
      (enter f).linesDone + u.length⟩) (hpos : 0 < q.offset)
    (hfetched : ∀ e ∈ (enter f).index ++ u ++ w, Fetched b e) :
    Entered b (enter ⟨(enter f).index ++ u ++ w, some q⟩) (k + j) (es ++ u) := by
  have htake : b.all.take (k + j) = b.all.take k ++ (b.all.drop k).take j := List.take_add
  have hindex : (enter ⟨(enter f).index ++ u ++ w, some q⟩).index = (enter f).index ++ u ++ w :=
    if_pos hpos
  refine ⟨?_, ?_, ?_, hindex.symm ▸ h.index.append u w, hindex.symm ▸ hfetched⟩
  · rw [htake, List.flatten_append, List.length_append, ← h.offset]
    exact congrArg IndexProgress.offset hq
  · rw [htake]
    exact entriesAt_append h.entries (by rwa [Nat.zero_add, ← h.offset])
  · rw [List.length_append, ← h.linesDone]
    exact congrArg IndexProgress.linesDone hq

/-- The invariant of the files. -/
def Sound (b : IndexBuild R) (f : IndexFiles) : Prop :=
  (∀ p, f.progress = some p → 0 < p.offset) ∧ ∃ k es, Entered b (enter f) k es

theorem Entered.rest (h : Entered b (enter f) k es) : b.rest f = b.all.drop k :=
  (congrArg (fun o => dumpLines (b.dump.drop o)) h.offset).trans (dumpLines_drop _ _)

theorem Entered.fetched_scan (h : Entered b (enter f) k es) (hlines : lines <+: b.rest f)
    (hs : Scanned b (enter f) lines s x) : ∀ e ∈ s.index, Fetched b e := by
  obtain ⟨after, hafter⟩ := hlines
  have hdump : lines.flatten <+: b.dump.drop (enter f).offset :=
    ⟨after.flatten, by rw [← List.flatten_append, hafter]; exact flatten_dumpLines _⟩
  intro e he
  rw [hs.index] at he
  exact (List.mem_append.mp he).elim (h.fetched e) (fetched_of_entriesAt hs.entries hdump e)

theorem Sound.stopped {stop : Nat × Nat} (h : Sound b f) (hf : b.stopped f stop = some f') :
    Sound b f' := by
  obtain ⟨hpos, k, es, hentered⟩ := h
  obtain ⟨s, hscan, rfl⟩ := Option.map_eq_some_iff.mp hf
  obtain ⟨x, hs⟩ := scanned_foldlM hscan
  have hfetched := hentered.fetched_scan (List.take_prefix _ _) hs
  rw [hentered.rest] at hs
  -- the last checkpoint is behind `j` lines; `v` are the index lines behind it
  have hnext : ∀ {j : Nat} {u v : List OffsetEntry} {q : IndexProgress}, x = u ++ v →
      b.entriesAt (enter f).offset ((b.all.drop k).take j) = some u →
      s.saved = some q → q = ⟨(enter f).offset + ((b.all.drop k).take j).flatten.length,
        (enter f).linesDone + u.length⟩ → 0 < q.offset →
      s.flushed = (enter f).index.length + u.length →
      Sound b ⟨s.index.take (max s.flushed stop.2), s.saved⟩ := by
    rintro j u v q rfl hu hsaved hq hqpos hflushed
    have hfile : s.index.take (max s.flushed stop.2) =
        (enter f).index ++ u ++ v.take (max s.flushed stop.2 - s.flushed) := by
      rw [hs.index, ← List.append_assoc, List.take_append, List.length_append, ← hflushed,
        List.take_of_length_le (by rw [List.length_append, ← hflushed]; exact Nat.le_max_left _ _)]
    have hkept : ∀ e ∈ s.index.take (max s.flushed stop.2), Fetched b e :=
      fun e he => hfetched e (List.mem_of_mem_take he)
    rw [hfile] at hkept ⊢
    rw [hsaved]
    exact ⟨by simpa using hqpos, k + j, es ++ u, hentered.next hu hq hqpos hkept⟩
  rcases hs.saved with ⟨hsaved, hflushed⟩ | ⟨j, u, v, hne, hu, hx, hsaved, hflushed⟩
  · cases hp : f.progress with
    | none =>
      have hnone : s.saved = none := hsaved.trans hp
      exact ⟨by simp [hnone], 0, [], hnone ▸ entered_noProgress _⟩
    | some p =>
      exact hnext (j := 0) (List.nil_append x).symm rfl (hsaved.trans hp)
        (by simp [enter, start, hp]) (hpos p hp) hflushed
  · rw [List.take_take] at hne hu hsaved
    refine hnext hx hu hsaved rfl ?_ hflushed
    -- no line of the dump is empty
    obtain ⟨line, hline⟩ := List.exists_mem_of_ne_nil _ hne
    have hmem := ne_nil_of_mem_dumpLines (List.mem_of_mem_drop (List.mem_of_mem_take hline))
    have hbytes := List.length_pos_iff.mpr fun hnil => hmem (List.flatten_eq_nil_iff.mp hnil _ hline)
    exact Nat.add_pos_right _ hbytes

theorem sound_noFiles : Sound b noFiles := ⟨by simp [noFiles], 0, [], entered_noProgress _⟩

theorem Sound.run {stops : List (Nat × Nat)} (h : Sound b f)
    (hf : stops.foldlM b.stopped f = some f') : Sound b f' := by
  induction stops generalizing f with
  | nil => exact Option.some.inj hf ▸ h
  | cons stop stops ih =>
    rw [List.foldlM_cons] at hf
    obtain ⟨f₁, hfirst, hrest⟩ := Option.bind_eq_some_iff.mp hf
    exact ih (h.stopped hfirst) hrest

theorem exists_foldlM (h : b.entriesAt s.offset lines = some es) :
    ∃ s', lines.foldlM b.readLine s = some s' := by
  induction lines generalizing s es with
  | nil => exact ⟨s, rfl⟩
  | cons raw lines ih =>
    obtain ⟨row, hrow, hrest⟩ := Option.bind_eq_some_iff.mp h
    obtain ⟨tail, htail, -⟩ := Option.map_eq_some_iff.mp hrest
    obtain ⟨s₁, hs₁⟩ : ∃ s₁, b.readLine s raw = some s₁ := ⟨_, by rw [readLine, hrow]; rfl⟩
    obtain ⟨x, hx⟩ := scanned_readLine hs₁
    have hoffset : s₁.offset = s.offset + raw.length := by simpa using hx.offset
    rw [List.foldlM_cons, hs₁]
    exact ih (hoffset ▸ htail)

/-- **A resumed index** leads to the entries of the dump, and is that of a straight build exactly
when the last build began with as many index lines as its checkpoint counts. -/
theorem index_resumed (b : IndexBuild R) (stops : List (Nat × Nat)) {index : List OffsetEntry}
    (hstops : stops.foldlM b.stopped noFiles = some f) (hindex : b.finished f = some index) :
    (∀ e ∈ index, Fetched b e) ∧
      (b.finished noFiles = some index ↔ (enter f).index.length = (enter f).linesDone) := by
  obtain ⟨-, k, es, hentered⟩ := sound_noFiles.run hstops
  obtain ⟨s, hscan, rfl⟩ := Option.map_eq_some_iff.mp hindex
  obtain ⟨x, hs⟩ := scanned_foldlM hscan
  have hall : b.entriesAt 0 b.all = some (es ++ x) := by
    have hrest : b.entriesAt (0 + (b.all.take k).flatten.length) (b.all.drop k) = some x := by
      rw [Nat.zero_add, ← hentered.offset, ← hentered.rest]
      exact hs.entries
    rw [← List.take_append_drop k b.all]
    exact entriesAt_append hentered.entries hrest
  have hstraight : b.finished noFiles = some (es ++ x) := by
    obtain ⟨s', hs'⟩ := exists_foldlM (s := enter noFiles) hall
    obtain ⟨y, hy⟩ := scanned_foldlM hs'
    obtain rfl : es ++ x = y := Option.some.inj (hall.symm.trans hy.entries)
    rw [finished, show b.rest noFiles = b.all from rfl, hs', Option.map_some, hy.index]
    rfl
  rw [hstraight, Option.some.injEq, hs.index, List.append_cancel_right_eq, hentered.linesDone]
  exact ⟨hs.index ▸ hentered.fetched_scan List.prefix_rfl hs, fun h => h ▸ rfl,
    fun h => (hentered.index.2 h).symm⟩

/-- Words of one letter, with a checkpoint at every second one. -/
def threeLetters : IndexBuild Unit where
  lib := SampleJob.catAndDog.lib
  decode raw := raw.head?.map fun c => .obj [("word", .str (.singleton (.ofNat c.toNat)))]
  isBlankLine _ := false
  encodes _ _ := true
  batch := 2
  batch_pos := by decide
  dump := [97, 10, 98, 10, 99, 10]

def letterEntry (c : Char) (offset : Nat) : OffsetEntry := ⟨.str (.singleton c), .null, offset, 2⟩

/-- Stopped before the end, behind all three lines. -/
def stoppedLetters : IndexFiles :=
  ⟨[letterEntry 'a' 0, letterEntry 'b' 2, letterEntry 'c' 4], some ⟨4, 2⟩⟩

/-- The third line is behind the checkpoint, and is indexed twice. -/
theorem index_resumed_threeLetters :
    [(3, 3)].foldlM threeLetters.stopped noFiles = some stoppedLetters ∧
      threeLetters.finished stoppedLetters = some (stoppedLetters.index ++ [letterEntry 'c' 4]) ∧
      (∀ e ∈ stoppedLetters.index ++ [letterEntry 'c' 4], Fetched threeLetters e) ∧
      threeLetters.finished noFiles ≠ some (stoppedLetters.index ++ [letterEntry 'c' 4]) := by
  obtain ⟨hfetched, hiff⟩ := index_resumed threeLetters [(3, 3)] rfl rfl
  exact ⟨rfl, rfl, hfetched, hiff.not.mpr (by decide)⟩

end IndexBuild

end HamZaboon
