import HamZaboon.Library.Latest
import HamZaboon.Library.Runs
import HamZaboon.Texts.Decoded

/-! # Resuming a judge run

`run_judge_async` over one progress file: a session reads the votes on the file,
judges the rows that have none that is well formed, appends a line for each, and
returns all of them.  Rows settle in any order, judging one can raise, and the process
can be killed at any byte of an append.

As long as an append starts a line and no session reads a file that ends inside a
character, no vote is lost (`votesKept_of_wholeLines`).  A kill inside an append leaves
a line without its end, and the next session appends behind it.
-/

namespace HamZaboon
open Library

/-- The progress file: its text, and whether the first bytes of one more character
follow. -/
structure ProgressFile where
  text : List Char
  cutChar : Bool

def voteRecord (key vote : JsonTree) : JsonTree :=
  .obj [(points "key", key), (points "vote", vote)]

def isWellformedVote (vote : JsonTree) : Bool :=
  isObject vote &&
    match treeGet vote "verdict" with
    | .str verdict => verdict ∈ ["LINK", "NONE", "FAILED"].map points
    | _ => false

/-- A row's key, unless the row is no dict. -/
abbrev JudgeRow := Option JsonTree

section Judge
variable {κ : Type} [DecidableEq κ] (py : PyText) (limits : ScanLimits)
  -- Two keys are one key of a dict when they are in one class.
  (keyClass : JsonTree → κ)

/-! ## The start of a session -/

def voteOf : JsonTree → Option (JsonTree × JsonTree)
  | .obj entries => do
    let key ← entries.lookup (points "key")
    let vote ← entries.lookup (points "vote")
    return (key, vote)
  | _ => none

/-- Votes by the class of their key, the last one for each. -/
def votesByKey (votes : List (JsonTree × JsonTree)) : List (κ × JsonTree) :=
  votes.foldl (fun done v => setEntry done (keyClass v.1) v.2) []

/-- `_read_progress`.  A text that ends inside a character is no UTF-8, and the error is
not caught; a blank line is no JSON either. -/
def readProgress (file : ProgressFile) : Except Unit (List (κ × JsonTree)) :=
  if file.cutChar then .error ()
  else
    (loadLines limits ((splitLines .universal file.text).map (trim py.isSpace))).map fun values =>
      votesByKey keyClass (values.filterMap voteOf)

/-- The loop over the rows: keys it has seen, votes that stand, keys to be judged. -/
structure Resume (κ : Type) where
  seen : List κ
  stored : List (κ × JsonTree)
  fresh : List JsonTree

def Resume.row (r : Resume κ) : JudgeRow → Resume κ
  | none => r
  | some key =>
    if keyClass key ∈ r.seen then r
    else
      match r.stored.lookup (keyClass key) with
      | none => { r with seen := keyClass key :: r.seen, fresh := r.fresh ++ [key] }
      | some vote =>
        if isWellformedVote vote then { r with seen := keyClass key :: r.seen }
        else
          { seen := keyClass key :: r.seen
            stored := r.stored.filter fun e => e.1 ≠ keyClass key
            fresh := r.fresh ++ [key] }

def resumeRows (rows : List JudgeRow) (stored : List (κ × JsonTree)) : Resume κ :=
  rows.foldl (Resume.row keyClass) ⟨[], stored, []⟩

/-! ## Sessions -/

structure JudgeSession (κ : Type) where
  rows : List JudgeRow
  stored : List (κ × JsonTree)
  fresh : List JsonTree
  votes : List (κ × JsonTree)
  /-- The keys whose judging has raised. -/
  failed : List κ

def JudgeSession.pending (session : JudgeSession κ) : List JsonTree :=
  session.fresh.filter fun key =>
    keyClass key ∉ session.votes.map (·.1) ∧ keyClass key ∉ session.failed

/-- What a session returns: a vote that was just made replaces a stored one. -/
def JudgeSession.out (session : JudgeSession κ) : List (κ × JsonTree) :=
  session.fresh.foldl (fun out key =>
    setEntry out (keyClass key) ((session.votes.lookup (keyClass key)).getD .null)) session.stored

/-- A run of sessions over one file. -/
structure JudgeRun (κ : Type) where
  file : ProgressFile
  session : Option (JudgeSession κ)
  /-- The keys and votes of the lines that were completely written. -/
  written : List (JsonTree × JsonTree)
  /-- The rows and the result of the session that has just returned. -/
  returned : Option (List JudgeRow × List (κ × JsonTree))
  /-- A session could not read the file. -/
  unread : Bool

/-- No file yet. -/
def noProgress : JudgeRun κ := ⟨⟨[], false⟩, none, [], none, false⟩

/-- An append that a kill cuts: whose it is, how many characters are written, and
whether some bytes of the next one are. -/
structure CutAppend where
  place : Nat
  vote : JsonTree
  chars : Nat
  inChar : Bool

inductive JudgeEvent
  | start (rows : List JudgeRow)
  /-- The pending row at the place is judged, and its line is appended. -/
  | judged (place : Nat) (vote : JsonTree)
  /-- Judging it raises. -/
  | failed (place : Nat)
  | killed (append : Option CutAppend)
  | finished

/-- The line of the pending row at a place, with its key. -/
def JudgeSession.line (session : JudgeSession κ) (place : Nat) (vote : JsonTree) :
    Option (JsonTree × List Char) := do
  let key ← (session.pending keyClass)[place]?
  let line ← jsonDumps limits (voteRecord key vote)
  return (key, line)

/-- What is left of the file and of the lines by an append that is cut. -/
def JudgeRun.cut (s : JudgeRun κ) (a : CutAppend) (key : JsonTree) (line : List Char) : JudgeRun κ :=
  { s with
    file :=
      { text := s.file.text ++ (line ++ ['\n']).take a.chars
        cutChar := a.inChar && ((line ++ ['\n']).drop a.chars).head?.any fun c => 1 < c.utf8Size }
    session := none
    -- A record that lacks nothing but its line feed counts as written.
    written := if line.length ≤ a.chars then s.written ++ [(key, a.vote)] else s.written }

/-- One event; what cannot happen in the state changes nothing. -/
def judgeStep (s : JudgeRun κ) : JudgeEvent → JudgeRun κ
  | .start rows =>
    match readProgress py limits keyClass s.file with
    | .error _ => { s with session := none, returned := none, unread := true }
    | .ok stored =>
      let resumed := resumeRows keyClass rows stored
      { s with session := some ⟨rows, resumed.stored, resumed.fresh, [], []⟩, returned := none }
  | .judged place vote =>
    match s.session.bind fun session => (session.line limits keyClass place vote).map (session, ·) with
    | none => s
    | some (session, key, line) =>
      { s with
        file := { s.file with text := s.file.text ++ line ++ ['\n'] }
        session := some { session with votes := session.votes ++ [(keyClass key, vote)] }
        written := s.written ++ [(key, vote)] }
  | .failed place =>
    match s.session with
    | none => s
    | some session =>
      match (session.pending keyClass)[place]? with
      | none => s
      | some key =>
        { s with session := some { session with failed := session.failed ++ [keyClass key] } }
  | .killed none => { s with session := none }
  | .killed (some a) =>
    match s.session.bind fun session => session.line limits keyClass a.place a.vote with
    | none => s
    | some (key, line) => s.cut a key line
  | .finished =>
    match s.session with
    | none => s
    | some session =>
      if session.pending keyClass = [] then
        -- The first exception is raised once all rows have settled.
        if session.failed = [] then
          { s with session := none, returned := some (session.rows, session.out keyClass) }
        else { s with session := none }
      else s

/-! ## What a run should keep -/

/-- No row with a well-formed vote on a line is judged again; a session returns the last
vote of each key, which is the well-formed one where there is one, and one for each
row. -/
structure VotesKept (s : JudgeRun κ) : Prop where
  read : s.unread = false
  notAgain : ∀ session, s.session = some session → ∀ v ∈ s.written, isWellformedVote v.2 = true →
    ∀ key ∈ session.pending keyClass, keyClass key ≠ keyClass v.1
  last : ∀ rows out, s.returned = some (rows, out) →
    ∀ k, out.lookup k = (votesByKey keyClass s.written).lookup k
  wellformed : ∀ rows out, s.returned = some (rows, out) → ∀ v ∈ s.written,
    isWellformedVote v.2 = true → out.lookup (keyClass v.1) = some v.2
  every : ∀ rows out, s.returned = some (rows, out) → ∀ key, some key ∈ rows →
    (out.lookup (keyClass key)).isSome = true

/-- A session that starts finds no part of a character at the end of the file, and an
append is the start of a line. -/
def JudgeRun.wholeLines (s : JudgeRun κ) : JudgeEvent → Bool
  | .start _ => !s.file.cutChar
  | .judged _ _ => atLineStart s.file.text
  | .killed (some _) => atLineStart s.file.text
  | _ => true

end Judge

section Laws
variable {κ : Type} [DecidableEq κ] {py : PyText} {limits : ScanLimits} {keyClass : JsonTree → κ}

/-! ## The lines of the file -/

def voteRecords (written : List (JsonTree × JsonTree)) : List JsonTree :=
  written.map fun v => voteRecord v.1 v.2

/-- The text of a file with the lines of these votes.  The last one can lack its line
feed, and a line that is cut short can follow. -/
inductive HoldsVotes (limits : ScanLimits) : List (JsonTree × JsonTree) → List Char → Prop
  | whole {written : List (JsonTree × JsonTree)} {lines : List (List Char)} :
      Written limits (voteRecords written) lines → HoldsVotes limits written (joinLines lines)
  | noFeed {written : List (JsonTree × JsonTree)} {lines : List (List Char)} {key vote : JsonTree}
      {line : List Char} :
      Written limits (voteRecords written) lines →
      jsonDumps limits (voteRecord key vote) = some line →
      HoldsVotes limits (written ++ [(key, vote)]) (joinLines lines ++ line)
  | torn {written : List (JsonTree × JsonTree)} {lines : List (List Char)} {key vote : JsonTree}
      {torn rest : List Char} :
      Written limits (voteRecords written) lines →
      jsonDumps limits (voteRecord key vote) = some (torn ++ rest) → torn ≠ [] → rest ≠ [] →
      HoldsVotes limits written (joinLines lines ++ torn)

theorem voteRecords_append (written : List (JsonTree × JsonTree)) (key vote : JsonTree) :
    voteRecords (written ++ [(key, vote)]) = voteRecords written ++ [voteRecord key vote] :=
  List.map_append

theorem filterMap_voteRecords (written : List (JsonTree × JsonTree)) :
    (voteRecords written).filterMap voteOf = written := by
  induction written with
  | nil => rfl
  | cons v written ih =>
    have hv : voteOf (voteRecord v.1 v.2) = some v := rfl
    rw [voteRecords, List.map_cons, List.filterMap_cons_some hv]
    exact congrArg (v :: ·) ih

theorem atLineStart_append {text tail : List Char} (hne : tail ≠ []) (hfeed : '\n' ∉ tail) :
    atLineStart (text ++ tail) = false := by
  rw [atLineStart, List.getLast?_append_of_ne_nil _ hne, List.getLast?_eq_some_getLast hne,
    Option.all_some, decide_eq_false_iff_not]
  intro heq
  exact hfeed (heq ▸ List.getLast_mem hne)

theorem line_ne_nil {key vote : JsonTree} {line : List Char}
    (h : jsonDumps limits (voteRecord key vote) = some line) : line ≠ [] := by
  obtain ⟨s, rfl⟩ := exists_line_obj h
  exact List.cons_ne_nil _ _

theorem HoldsVotes.whole_of_atLineStart {written : List (JsonTree × JsonTree)} {text : List Char}
    (h : HoldsVotes limits written text) (hstart : atLineStart text = true) :
    ∃ lines, Written limits (voteRecords written) lines ∧ text = joinLines lines := by
  cases h with
  | whole hlines => exact ⟨_, hlines, rfl⟩
  | noFeed _ hline =>
    rw [atLineStart_append (line_ne_nil hline) (feed_not_mem_line hline)] at hstart
    cases hstart
  | torn _ hline hne _ =>
    have hfeed := feed_not_mem_line hline
    rw [List.mem_append, not_or] at hfeed
    rw [atLineStart_append hne hfeed.1] at hstart
    cases hstart

theorem HoldsVotes.append {written : List (JsonTree × JsonTree)} {lines : List (List Char)}
    {key vote : JsonTree} {line : List Char} (h : Written limits (voteRecords written) lines)
    (hline : jsonDumps limits (voteRecord key vote) = some line) :
    HoldsVotes limits (written ++ [(key, vote)]) (joinLines lines ++ line ++ ['\n']) := by
  have hlines := h.append (.cons hline .nil)
  rw [← voteRecords_append] at hlines
  have htext : joinLines (lines ++ [line]) = joinLines lines ++ line ++ ['\n'] := by
    rw [joinLines_append, joinLines_cons, List.append_assoc]
    rfl
  rw [← htext]
  exact .whole hlines

theorem HoldsVotes.cut {written : List (JsonTree × JsonTree)} {lines : List (List Char)}
    {key vote : JsonTree} {line : List Char} (h : Written limits (voteRecords written) lines)
    (hline : jsonDumps limits (voteRecord key vote) = some line) (n : Nat) :
    HoldsVotes limits (if line.length ≤ n then written ++ [(key, vote)] else written)
      (joinLines lines ++ (line ++ ['\n']).take n) := by
  by_cases hn : line.length ≤ n
  · rw [if_pos hn]
    rcases Nat.eq_or_lt_of_le hn with rfl | hlt
    · rw [List.take_left]
      exact .noFeed h hline
    · rw [List.take_of_length_le (by simp; omega), ← List.append_assoc]
      exact HoldsVotes.append h hline
  · rw [if_neg hn, List.take_append_of_le_length (by omega)]
    by_cases hzero : n = 0
    · subst hzero
      rw [List.take_zero, List.append_nil]
      exact .whole h
    · have hparts : line = line.take n ++ line.drop n := (List.take_append_drop n line).symm
      rw [hparts] at hline
      refine .torn h hline ?_ ?_
      · rw [Ne, List.take_eq_nil_iff, not_or]
        exact ⟨hzero, fun hnil => hn (by simp [hnil])⟩
      · rw [Ne, List.drop_eq_nil_iff]
        omega

/-! ## Reading the file -/

section Read
variable (hopen : py.isSpace '{' = false) (hclose : py.isSpace '}' = false)
include hopen hclose

theorem trim_line {entries : List (List Nat × JsonTree)} {line : List Char}
    (h : jsonDumps limits (.obj entries) = some line) : trim py.isSpace line = line := by
  obtain ⟨s, rfl⟩ := exists_line_obj h
  refine trim_eq_self hopen fun c hc => ?_
  rw [← List.cons_append, List.getLast?_append_of_ne_nil _ (List.cons_ne_nil _ _)] at hc
  obtain rfl := Option.some.inj hc
  exact hclose

theorem trim_lines {written : List (JsonTree × JsonTree)} {lines : List (List Char)}
    (h : Written limits (voteRecords written) lines) : lines.map (trim py.isSpace) = lines := by
  induction written generalizing lines with
  | nil =>
    cases h
    rfl
  | cons v written ih =>
    cases h with
    | cons hline h => rw [List.map_cons, trim_line hopen hclose hline, ih h]

omit hclose in
theorem loads_trim_torn {entries : List (List Nat × JsonTree)} {torn rest : List Char}
    (h : jsonDumps limits (.obj entries) = some (torn ++ rest)) (hne : torn ≠ []) (hrest : rest ≠ []) :
    jsonLoads limits (trim py.isSpace torn) = .error .invalid := by
  obtain ⟨s, hs⟩ := exists_line_obj h
  obtain ⟨t, rfl⟩ : ∃ t, torn = '{' :: t := by
    cases torn with
    | nil => exact absurd rfl hne
    | cons c t => exact ⟨t, by rw [(List.cons.inj hs).1]⟩
  obtain ⟨spaces, hspaces⟩ : trim py.isSpace ('{' :: t) <+: '{' :: t := by
    rw [trim, List.dropWhile_cons_of_neg (by simp [hopen])]
    exact List.rdropWhile_prefix _ _
  rw [← hspaces, List.append_assoc] at h
  exact loads_of_dumps_prefix h (by simp [hrest])

/-- **The votes of the lines are read, and nothing else.** -/
theorem readProgress_of_holds {written : List (JsonTree × JsonTree)} {file : ProgressFile}
    (h : HoldsVotes limits written file.text) (hchar : file.cutChar = false) :
    readProgress py limits keyClass file = .ok (votesByKey keyClass written) := by
  have hunbroken : ∀ v ∈ voteRecords written, Unbroken .universal v :=
    fun v _ => unbroken_universal v
  have hlines : loadLines limits ((splitLines .universal file.text).map (trim py.isSpace)) =
      .ok (voteRecords written) := by
    generalize file.text = text at h
    cases h with
    | whole hwritten =>
      rw [(splitLines_eq_iff _).mpr (hwritten.unbroken_iff.mpr hunbroken),
        trim_lines hopen hclose hwritten, hwritten.loadLines]
    | @noFeed written lines key vote line hwritten hline =>
      have hends : ∀ c ∈ line, LineEnds.universal.isEnd c = false :=
        (line_unbroken_iff hline).mpr (unbroken_universal _)
      rw [splitLines_joinLines (hwritten.unbroken_iff.mpr fun v _ => unbroken_universal v),
        splitLines_last hends, if_neg (line_ne_nil hline), List.map_append,
        trim_lines hopen hclose hwritten, List.map_singleton, trim_line hopen hclose hline,
        (hwritten.append (.cons hline .nil)).loadLines, voteRecords_append]
    | @torn written lines key vote torn rest hwritten hline hne hrest =>
      have hends : ∀ c ∈ torn, LineEnds.universal.isEnd c = false := fun c hc =>
        (line_unbroken_iff hline).mpr (unbroken_universal _) c (List.mem_append_left rest hc)
      rw [splitLines_joinLines (hwritten.unbroken_iff.mpr hunbroken), splitLines_last hends,
        if_neg hne, List.map_append, trim_lines hopen hclose hwritten, List.map_singleton,
        loadLines_append, hwritten.loadLines, loadLines, loads_trim_torn hopen hline hne hrest]
      simp [loadLines, Except.bind, Except.map]
  rw [readProgress, hchar, hlines]
  simp only [Bool.false_eq_true, if_false, Except.map, filterMap_voteRecords]

end Read

/-! ## Votes by their keys -/

theorem lookup_votesByKey_append (written : List (JsonTree × JsonTree)) (key vote : JsonTree)
    (k : κ) : (votesByKey keyClass (written ++ [(key, vote)])).lookup k =
      if k = keyClass key then some vote else (votesByKey keyClass written).lookup k := by
  rw [votesByKey, List.foldl_append]
  exact lookup_setEntry _ _ _ _

/-- A well-formed vote is the last one of its key. -/
def VotesSettled (keyClass : JsonTree → κ) (written : List (JsonTree × JsonTree)) : Prop :=
  written.Pairwise fun v w => keyClass v.1 = keyClass w.1 → isWellformedVote v.2 = false

omit [DecidableEq κ] in
theorem VotesSettled.append {written : List (JsonTree × JsonTree)} {key : JsonTree}
    (h : VotesSettled keyClass written)
    (hopen : ∀ v ∈ written, keyClass v.1 = keyClass key → isWellformedVote v.2 = false)
    (vote : JsonTree) : VotesSettled keyClass (written ++ [(key, vote)]) := by
  refine List.pairwise_append.mpr ⟨h, List.pairwise_singleton _ _, fun v hv w hw => ?_⟩
  obtain rfl := List.mem_singleton.mp hw
  exact hopen v hv

theorem VotesSettled.lookup {written : List (JsonTree × JsonTree)} (h : VotesSettled keyClass written)
    {v : JsonTree × JsonTree} (hv : v ∈ written) (hvote : isWellformedVote v.2 = true) :
    (votesByKey keyClass written).lookup (keyClass v.1) = some v.2 := by
  induction written using List.reverseRecOn with
  | nil => cases hv
  | append_singleton written w ih =>
    obtain ⟨hwritten, -, hlast⟩ := List.pairwise_append.mp h
    rw [lookup_votesByKey_append]
    rcases List.mem_append.mp hv with hv | hv
    · have hne : keyClass v.1 ≠ keyClass w.1 := by
        intro heq
        have hnot := hlast v hv w List.mem_cons_self heq
        rw [hvote] at hnot
        cases hnot
      rw [if_neg hne]
      exact ih hwritten hv
    · obtain rfl := List.mem_singleton.mp hv
      exact if_pos rfl

/-! ## The start of a session -/

/-- What the loop over the rows has done with the stored votes. -/
structure Resumed (keyClass : JsonTree → κ) (stored : List (κ × JsonTree)) (r : Resume κ) : Prop where
  fresh_seen : ∀ key ∈ r.fresh, keyClass key ∈ r.seen
  others : ∀ k, k ∉ r.fresh.map keyClass → r.stored.lookup k = stored.lookup k
  fresh : ∀ key ∈ r.fresh, ∀ vote, stored.lookup (keyClass key) = some vote →
    isWellformedVote vote = false
  seen : ∀ k ∈ r.seen, k ∈ r.fresh.map keyClass ∨ (r.stored.lookup k).isSome = true

theorem Resumed.push {stored : List (κ × JsonTree)} {r : Resume κ} (h : Resumed keyClass stored r)
    {key : JsonTree} {rest : List (κ × JsonTree)}
    (hrest : ∀ k, k ≠ keyClass key → rest.lookup k = r.stored.lookup k)
    (hkey : ∀ vote, stored.lookup (keyClass key) = some vote → isWellformedVote vote = false) :
    Resumed keyClass stored ⟨keyClass key :: r.seen, rest, r.fresh ++ [key]⟩ where
  fresh_seen := by
    intro key' hkey'
    rcases List.mem_append.mp hkey' with hkey' | hkey'
    · exact List.mem_cons_of_mem _ (h.fresh_seen key' hkey')
    · obtain rfl := List.mem_singleton.mp hkey'
      exact List.mem_cons_self
  others := by
    intro k hk
    rw [List.map_append, List.mem_append, not_or] at hk
    rw [hrest k fun heq => hk.2 (by simp [heq]), h.others k hk.1]
  fresh := by
    intro key' hkey'
    rcases List.mem_append.mp hkey' with hkey' | hkey'
    · exact h.fresh key' hkey'
    · obtain rfl := List.mem_singleton.mp hkey'
      exact hkey
  seen := by
    intro k hk
    rw [List.map_append, List.mem_append]
    by_cases heq : k = keyClass key
    · exact .inl (.inr (by simp [heq]))
    · rcases h.seen k ((List.mem_cons.mp hk).resolve_left heq) with hfresh | hstored
      · exact .inl (.inl hfresh)
      · rw [← hrest k heq] at hstored
        exact .inr hstored

theorem Resumed.row {stored : List (κ × JsonTree)} {r : Resume κ} (h : Resumed keyClass stored r)
    (row : JudgeRow) : Resumed keyClass stored (r.row keyClass row) := by
  cases row with
  | none => exact h
  | some key =>
    rw [Resume.row]
    by_cases hseen : keyClass key ∈ r.seen
    · rw [if_pos hseen]
      exact h
    · rw [if_neg hseen]
      have hfresh : keyClass key ∉ r.fresh.map keyClass := by
        rintro hmem
        obtain ⟨key', hkey', heq⟩ := List.mem_map.mp hmem
        exact hseen (heq ▸ h.fresh_seen key' hkey')
      have hsame := h.others _ hfresh
      split
      · rename_i hnone
        rw [hnone] at hsame
        refine h.push (fun _ _ => rfl) fun vote hvote => ?_
        rw [← hsame] at hvote
        cases hvote
      · rename_i vote hvote
        by_cases hwellformed : isWellformedVote vote = true
        · rw [if_pos hwellformed]
          refine ⟨fun key' hkey' => List.mem_cons_of_mem _ (h.fresh_seen key' hkey'), h.others,
            h.fresh, fun k hk => ?_⟩
          rcases List.mem_cons.mp hk with rfl | hk
          · exact .inr (by rw [hvote]; rfl)
          · exact h.seen k hk
        · rw [if_neg hwellformed]
          refine h.push (fun k hk => ?_) fun vote' hvote' => ?_
          · rw [lookup_filter_ne, if_neg hk]
          · rw [← hsame, hvote] at hvote'
            obtain rfl := Option.some.inj hvote'
            exact eq_false_of_ne_true hwellformed

theorem Resume.mem_seen_row {r : Resume κ} {row : JudgeRow} {k : κ} :
    k ∈ (r.row keyClass row).seen ↔ k ∈ r.seen ∨ row.map keyClass = some k := by
  cases row with
  | none => simp [Resume.row]
  | some key =>
    have hcons : k ∈ keyClass key :: r.seen ↔ k ∈ r.seen ∨ keyClass key = k := by
      rw [List.mem_cons, or_comm, eq_comm]
    rw [Resume.row, Option.map_some, Option.some_inj]
    split
    · rename_i hseen
      refine ⟨.inl, fun h => ?_⟩
      rcases h with h | rfl
      · exact h
      · exact hseen
    · split
      · exact hcons
      · split
        · exact hcons
        · exact hcons

theorem resumed_rows (rows : List JudgeRow) (stored : List (κ × JsonTree)) :
    Resumed keyClass stored (resumeRows keyClass rows stored) ∧
      ∀ key, some key ∈ rows → keyClass key ∈ (resumeRows keyClass rows stored).seen := by
  induction rows using List.reverseRecOn with
  | nil =>
    refine ⟨⟨?_, fun _ _ => rfl, ?_, ?_⟩, ?_⟩ <;> intro _ hmem <;> cases hmem
  | append_singleton rows row ih =>
    obtain ⟨hresumed, hseen⟩ := ih
    rw [resumeRows, List.foldl_append] at *
    refine ⟨hresumed.row row, fun key hkey => ?_⟩
    rw [List.foldl_cons, List.foldl_nil, Resume.mem_seen_row]
    rcases List.mem_append.mp hkey with hkey | hkey
    · exact .inl (hseen key hkey)
    · obtain rfl := List.mem_singleton.mp hkey
      exact .inr rfl

/-! ## Runs -/

/-- What is true of a session under way, where these lines are written. -/
structure JudgeSession.Sound (keyClass : JsonTree → κ) (written : List (JsonTree × JsonTree))
    (session : JudgeSession κ) : Prop where
  stored : ∀ k, k ∉ session.fresh.map keyClass →
    session.stored.lookup k = (votesByKey keyClass written).lookup k
  votes : ∀ k vote, session.votes.lookup k = some vote →
    (votesByKey keyClass written).lookup k = some vote
  pending : ∀ key ∈ session.pending keyClass, ∀ v ∈ written, keyClass v.1 = keyClass key →
    isWellformedVote v.2 = false
  rows : ∀ key, some key ∈ session.rows → keyClass key ∈ session.fresh.map keyClass ∨
    (session.stored.lookup (keyClass key)).isSome = true

/-- What is true of a run whose lines are whole. -/
structure JudgeRun.Sound (limits : ScanLimits) (keyClass : JsonTree → κ) (s : JudgeRun κ) : Prop where
  read : s.unread = false
  holds : HoldsVotes limits s.written s.file.text
  settled : VotesSettled keyClass s.written
  session : ∀ session, s.session = some session → session.Sound keyClass s.written
  busy : s.session.isSome = true → s.returned = none
  last : ∀ rows out, s.returned = some (rows, out) →
    ∀ k, out.lookup k = (votesByKey keyClass s.written).lookup k
  every : ∀ rows out, s.returned = some (rows, out) → ∀ key, some key ∈ rows →
    (out.lookup (keyClass key)).isSome = true

theorem mem_pending {session : JudgeSession κ} {key : JsonTree} :
    key ∈ session.pending keyClass ↔ key ∈ session.fresh ∧
      keyClass key ∉ session.votes.map (·.1) ∧ keyClass key ∉ session.failed := by
  simp [JudgeSession.pending]

theorem sound_start {written : List (JsonTree × JsonTree)} (h : VotesSettled keyClass written)
    (rows : List JudgeRow) :
    JudgeSession.Sound keyClass written
      ⟨rows, (resumeRows keyClass rows (votesByKey keyClass written)).stored,
        (resumeRows keyClass rows (votesByKey keyClass written)).fresh, [], []⟩ := by
  obtain ⟨hresumed, hseen⟩ : Resumed keyClass (votesByKey keyClass written)
      (resumeRows keyClass rows (votesByKey keyClass written)) ∧ _ := resumed_rows rows _
  refine ⟨hresumed.others, nofun, fun key hkey v hv heq => ?_, fun key hkey => ?_⟩
  · by_contra hvote
    have hlookup := h.lookup hv (eq_true_of_ne_false hvote)
    rw [heq] at hlookup
    exact hvote (hresumed.fresh key (mem_pending.mp hkey).1 v.2 hlookup)
  · exact hresumed.seen _ (hseen key hkey)

theorem JudgeSession.Sound.judged {written : List (JsonTree × JsonTree)} {session : JudgeSession κ}
    (h : session.Sound keyClass written) {key : JsonTree} (hkey : key ∈ session.pending keyClass)
    (vote : JsonTree) :
    JudgeSession.Sound keyClass (written ++ [(key, vote)])
      { session with votes := session.votes ++ [(keyClass key, vote)] } := by
  obtain ⟨hfresh, hnew, -⟩ := mem_pending.mp hkey
  refine ⟨fun k hk => ?_, fun k vote' hvote' => ?_, fun key' hkey' v hv heq => ?_, h.rows⟩
  · have hne : k ≠ keyClass key := by
      rintro rfl
      exact hk (List.mem_map_of_mem hfresh)
    rw [lookup_votesByKey_append, if_neg hne]
    exact h.stored k hk
  · rw [lookup_votesByKey_append]
    rw [List.lookup_append, lookup_cons_eq] at hvote'
    by_cases hk : k = keyClass key
    · subst hk
      rw [lookup_eq_none_of_not_mem hnew] at hvote'
      simpa using hvote'
    · rw [if_neg hk]
      rw [if_neg hk, List.lookup_nil, Option.or_none] at hvote'
      exact h.votes k vote' hvote'
  · obtain ⟨hfresh', hnew', hfailed'⟩ := mem_pending.mp hkey'
    rw [List.map_append, List.mem_append, not_or] at hnew'
    rcases List.mem_append.mp hv with hv | hv
    · exact h.pending key' (mem_pending.mpr ⟨hfresh', hnew'.1, hfailed'⟩) v hv heq
    · obtain rfl := List.mem_singleton.mp hv
      exact absurd (List.mem_singleton.mpr heq.symm) hnew'.2

theorem JudgeSession.Sound.failed {written : List (JsonTree × JsonTree)} {session : JudgeSession κ}
    (h : session.Sound keyClass written) (k : κ) :
    JudgeSession.Sound keyClass written { session with failed := session.failed ++ [k] } := by
  refine ⟨h.stored, h.votes, fun key hkey => ?_, h.rows⟩
  obtain ⟨hfresh, hnew, hfailed⟩ := mem_pending.mp hkey
  rw [List.mem_append, not_or] at hfailed
  exact h.pending key (mem_pending.mpr ⟨hfresh, hnew, hfailed.1⟩)

theorem lookup_out {session : JudgeSession κ} (k : κ) :
    (session.out keyClass).lookup k =
      if k ∈ session.fresh.map keyClass then some ((session.votes.lookup k).getD .null)
      else session.stored.lookup k := by
  rw [JudgeSession.out]
  generalize session.stored = start
  induction session.fresh using List.reverseRecOn with
  | nil => rfl
  | append_singleton fresh key ih =>
    rw [List.foldl_append, List.foldl_cons, List.foldl_nil, lookup_setEntry, ih, List.map_append,
      List.map_singleton]
    by_cases hk : k = keyClass key
    · simp [hk]
    · simp [hk]

/-- **A session that has settled returns the last vote of each key**, and one for each
row. -/
theorem JudgeSession.Sound.finished {written : List (JsonTree × JsonTree)}
    {session : JudgeSession κ} (h : session.Sound keyClass written)
    (hpending : session.pending keyClass = []) (hfailed : session.failed = []) :
    (∀ k, (session.out keyClass).lookup k = (votesByKey keyClass written).lookup k) ∧
      ∀ key, some key ∈ session.rows → ((session.out keyClass).lookup (keyClass key)).isSome = true := by
  have hsettled : ∀ k ∈ session.fresh.map keyClass, ∃ vote, session.votes.lookup k = some vote := by
    intro k hk
    obtain ⟨key, hkey, rfl⟩ := List.mem_map.mp hk
    rw [← Option.isSome_iff_exists, List.lookup_isSome_iff]
    by_contra hnone
    have hmem : key ∈ session.pending keyClass := by
      refine mem_pending.mpr ⟨hkey, fun hvote => hnone ?_, by simp [hfailed]⟩
      obtain ⟨e, he, heq⟩ := List.mem_map.mp hvote
      exact ⟨e, he, by simp [heq]⟩
    rw [hpending] at hmem
    cases hmem
  constructor
  · intro k
    rw [lookup_out]
    by_cases hk : k ∈ session.fresh.map keyClass
    · obtain ⟨vote, hvote⟩ := hsettled k hk
      rw [if_pos hk, hvote, Option.getD_some, h.votes k vote hvote]
    · rw [if_neg hk, h.stored k hk]
  · intro key hkey
    rw [lookup_out]
    split
    · rfl
    · rename_i hfresh
      exact (h.rows key hkey).resolve_left hfresh

theorem JudgeSession.line_eq_some {session : JudgeSession κ} {place : Nat} {vote key : JsonTree}
    {line : List Char} :
    session.line limits keyClass place vote = some (key, line) ↔
      (session.pending keyClass)[place]? = some key ∧
        jsonDumps limits (voteRecord key vote) = some line := by
  simp only [JudgeSession.line, Option.bind_eq_bind, Option.bind_eq_some_iff, Option.pure_def,
    Option.some_inj, Prod.mk.injEq]
  constructor
  · rintro ⟨key', hkey, line', hline, rfl, rfl⟩
    exact ⟨hkey, hline⟩
  · rintro ⟨hkey, hline⟩
    exact ⟨key, hkey, line, hline, rfl, rfl⟩

theorem sound_noProgress : JudgeRun.Sound limits keyClass (noProgress : JudgeRun κ) := by
  have hempty : HoldsVotes limits [] (joinLines []) := .whole .nil
  exact ⟨rfl, hempty, .nil, nofun, nofun, nofun, nofun⟩

theorem JudgeRun.Sound.settles {s : JudgeRun κ} (h : s.Sound limits keyClass)
    {session : JudgeSession κ} (hsession : s.session = some session) {key : JsonTree}
    (hkey : key ∈ session.pending keyClass) (vote : JsonTree) :
    VotesSettled keyClass (s.written ++ [(key, vote)]) :=
  h.settled.append ((h.session session hsession).pending key hkey) vote

theorem JudgeRun.Sound.idle {s : JudgeRun κ} (h : s.Sound limits keyClass)
    {session : JudgeSession κ} (hsession : s.session = some session) : s.returned = none :=
  h.busy (by rw [hsession]; rfl)

theorem JudgeRun.Sound.judged {s : JudgeRun κ} (h : s.Sound limits keyClass)
    {session : JudgeSession κ} (hsession : s.session = some session) {key vote : JsonTree}
    (hkey : key ∈ session.pending keyClass) {line : List Char}
    (hline : jsonDumps limits (voteRecord key vote) = some line)
    (he : atLineStart s.file.text = true) :
    JudgeRun.Sound limits keyClass
      { s with
        file := { s.file with text := s.file.text ++ line ++ ['\n'] }
        session := some { session with votes := session.votes ++ [(keyClass key, vote)] }
        written := s.written ++ [(key, vote)] } := by
  obtain ⟨lines, hlines, htext⟩ := h.holds.whole_of_atLineStart he
  have hidle : ∀ out, s.returned ≠ some out := fun out hout => nomatch (h.idle hsession).symm.trans hout
  refine ⟨h.read, ?_, h.settles hsession hkey vote, fun session' hsession' => ?_,
    fun _ => h.idle hsession, fun _ _ hreturned => absurd hreturned (hidle _),
    fun _ _ hreturned => absurd hreturned (hidle _)⟩
  · simp only [htext]
    exact HoldsVotes.append hlines hline
  · obtain rfl := Option.some.inj hsession'
    exact (h.session session hsession).judged hkey vote

theorem JudgeRun.Sound.cut {s : JudgeRun κ} (h : s.Sound limits keyClass)
    {session : JudgeSession κ} (hsession : s.session = some session) {key : JsonTree}
    (hkey : key ∈ session.pending keyClass) {line : List Char} {a : CutAppend}
    (hline : jsonDumps limits (voteRecord key a.vote) = some line)
    (he : atLineStart s.file.text = true) : (s.cut a key line).Sound limits keyClass := by
  obtain ⟨lines, hlines, htext⟩ := h.holds.whole_of_atLineStart he
  have hidle : ∀ out, s.returned ≠ some out := fun out hout => nomatch (h.idle hsession).symm.trans hout
  refine ⟨h.read, ?_, ?_, nofun, nofun, fun _ _ hreturned => absurd hreturned (hidle _),
    fun _ _ hreturned => absurd hreturned (hidle _)⟩
  · simp only [JudgeRun.cut, htext]
    exact HoldsVotes.cut hlines hline a.chars
  · simp only [JudgeRun.cut]
    split
    · exact h.settles hsession hkey a.vote
    · exact h.settled

theorem JudgeRun.Sound.finished {s : JudgeRun κ} (h : s.Sound limits keyClass)
    {session : JudgeSession κ} (hsession : s.session = some session)
    (hpending : session.pending keyClass = []) (hfailed : session.failed = []) :
    JudgeRun.Sound limits keyClass
      { s with session := none, returned := some (session.rows, session.out keyClass) } := by
  have hout := (h.session session hsession).finished hpending hfailed
  refine ⟨h.read, h.holds, h.settled, nofun, nofun, fun rows out hreturned => ?_,
    fun rows out hreturned => ?_⟩
  · obtain ⟨rfl, rfl⟩ := Prod.mk.inj (Option.some.inj hreturned)
    exact hout.1
  · obtain ⟨rfl, rfl⟩ := Prod.mk.inj (Option.some.inj hreturned)
    exact hout.2

theorem JudgeRun.Sound.stopped {s : JudgeRun κ} (h : s.Sound limits keyClass) :
    JudgeRun.Sound limits keyClass { s with session := none } :=
  ⟨h.read, h.holds, h.settled, nofun, nofun, h.last, h.every⟩

/-- **One event.** -/
theorem JudgeRun.Sound.step (hopen : py.isSpace '{' = false) (hclose : py.isSpace '}' = false)
    {s : JudgeRun κ} (h : s.Sound limits keyClass) {e : JudgeEvent} (he : s.wholeLines e = true) :
    (judgeStep py limits keyClass s e).Sound limits keyClass := by
  cases e with
  | start rows =>
    have hchar : s.file.cutChar = false := by simpa [JudgeRun.wholeLines] using he
    rw [judgeStep, readProgress_of_holds hopen hclose h.holds hchar]
    refine ⟨h.read, h.holds, h.settled, fun session hsession => ?_, fun _ => rfl, nofun, nofun⟩
    obtain rfl := Option.some.inj hsession
    exact sound_start h.settled rows
  | judged place vote =>
    rw [judgeStep]
    split
    · exact h
    · rename_i session key line hbind
      obtain ⟨session', hsession, hline⟩ := Option.bind_eq_some_iff.mp hbind
      obtain ⟨⟨key', line'⟩, hline, heq⟩ := Option.map_eq_some_iff.mp hline
      cases heq
      obtain ⟨hplace, hdumps⟩ := JudgeSession.line_eq_some.mp hline
      exact h.judged hsession (List.mem_of_getElem? hplace) hdumps he
  | failed place =>
    rw [judgeStep]
    split
    · exact h
    · rename_i session hsession
      split
      · exact h
      · refine ⟨h.read, h.holds, h.settled, fun session' hsession' => ?_,
          fun _ => h.idle hsession, h.last, h.every⟩
        obtain rfl := Option.some.inj hsession'
        exact (h.session session hsession).failed _
  | killed append =>
    cases append with
    | none => exact h.stopped
    | some a =>
      rw [judgeStep]
      split
      · exact h
      · rename_i key line hbind
        obtain ⟨session, hsession, hline⟩ := Option.bind_eq_some_iff.mp hbind
        obtain ⟨hplace, hdumps⟩ := JudgeSession.line_eq_some.mp hline
        exact h.cut hsession (List.mem_of_getElem? hplace) hdumps he
  | finished =>
    rw [judgeStep]
    split
    · exact h
    · rename_i session hsession
      split
      · rename_i hpending
        split
        · rename_i hfailed
          exact h.finished hsession hpending hfailed
        · exact h.stopped
      · exact h

theorem JudgeRun.Sound.votesKept {s : JudgeRun κ} (h : s.Sound limits keyClass) :
    VotesKept keyClass s where
  read := h.read
  notAgain := by
    intro session hsession v hv hvote key hkey heq
    have hnot := (h.session session hsession).pending key hkey v hv heq.symm
    rw [hvote] at hnot
    cases hnot
  last := h.last
  wellformed := by
    intro rows out hreturned v hv hvote
    rw [h.last rows out hreturned]
    exact h.settled.lookup hv hvote
  every := h.every

/-- **No vote is lost in a run whose appends start lines.** -/
theorem votesKept_of_wholeLines (hopen : py.isSpace '{' = false) (hclose : py.isSpace '}' = false)
    {events : List JudgeEvent}
    (h : Meets (judgeStep py limits keyClass) (fun s e => s.wholeLines e = true) noProgress events) :
    Always (judgeStep py limits keyClass) (VotesKept keyClass) noProgress events :=
  always_of_meets (judgeStep py limits keyClass) (fun _ hs => hs.votesKept)
    (fun _ _ hs he => hs.step hopen hclose he) sound_noProgress h

end Laws

def textClass : JsonTree → List Nat
  | .str text => text
  | _ => []

def noneVote : JsonTree := .obj [(points "verdict", textTree "NONE")]

def twoRows : List JudgeRow := [some (textTree "w:a"), some (textTree "w:b")]

/-- The first session judges one row and is killed, the second one judges the other. -/
theorem votesKept_killed_between : Always (judgeStep .ascii ⟨100, 4300⟩ textClass)
    (VotesKept textClass) noProgress
    [.start twoRows, .judged 0 noneVote, .killed none, .start twoRows, .judged 0 noneVote,
      .finished] :=
  votesKept_of_wholeLines rfl rfl ⟨rfl, rfl, rfl, rfl, rfl, rfl, trivial⟩

/-- The first session is killed inside its append; the vote that the second one appends
behind is lost, and the third one judges the row again. -/
theorem vote_lost_behind_torn_line : ¬ Always (judgeStep .ascii ⟨100, 4300⟩ textClass)
    (VotesKept textClass) noProgress
    [.start twoRows, .killed (some ⟨0, noneVote, 5, false⟩), .start twoRows, .judged 0 noneVote,
      .judged 0 noneVote, .finished, .start twoRows] := by
  intro h
  refine h.last.notAgain _ rfl (textTree "w:a", noneVote) List.mem_cons_self rfl
    (textTree "w:a") List.mem_cons_self rfl

end HamZaboon
