import HamZaboon.Precard.EscalationStore

/-! # What the escalation queue keeps

The reader of the queue keeps the last record of each queue id, where the stamps do
not decrease (`dedupeQueue_perm`).  So it keeps the last record of each lemma, part of
speech and sense id exactly when no two of these have one id
(`queue_keepsLast_iff`).

A queue id joins three parts by dashes, and a part can have dashes of its own: two ids
are one exactly when their parts, cut at the dashes, are the same pieces in a row
(`buildQueueId_eq_iff`).
-/

namespace HamZaboon
open Library

variable {py : PyText} {display : JsonTree → String} {limits : ScanLimits}

/-! ## Ids -/

/-- The three parts cut at their dashes, one behind the other. -/
def idPieces (py : PyText) (identity : SenseIdentity) : List (List Char) :=
  [identity.word, identity.pos, identity.senseId].flatMap fun text =>
    (sanitizeComponent py text).toList.splitOn '-'

theorem splitOn_injective {α : Type} [DecidableEq α] (x : α) :
    Function.Injective (List.splitOn x) := fun l m h => by
  calc l = [x].intercalate (l.splitOn x) := (List.intercalate_splitOn x).symm
    _ = [x].intercalate (m.splitOn x) := congrArg _ h
    _ = m := List.intercalate_splitOn x

theorem toList_joinDashes (a b c : String) :
    ("-".intercalate [a, b, c]).toList = a.toList ++ '-' :: (b.toList ++ '-' :: c.toList) := by
  rw [String.toList_intercalate]
  simp [List.intercalate_cons_cons]

/-- **Two identities have one queue id exactly when their pieces are the same.** -/
theorem buildQueueId_eq_iff {a b : SenseIdentity} {idA idB : String}
    (ha : buildQueueId py a.word a.pos a.senseId = some idA)
    (hb : buildQueueId py b.word b.pos b.senseId = some idB) :
    idA = idB ↔ idPieces py a = idPieces py b := by
  have hpieces : ∀ (i : SenseIdentity),
      ("-".intercalate ([i.word, i.pos, i.senseId].map (sanitizeComponent py))).toList.splitOn '-' =
        idPieces py i := by
    intro i
    rw [List.map_cons, List.map_cons, List.map_cons, List.map_nil, toList_joinDashes,
      List.splitOn_append_cons_self, List.splitOn_append_cons_self]
    simp [idPieces]
  obtain ⟨-, rfl⟩ := buildQueueId_eq_some.mp ha
  obtain ⟨-, rfl⟩ := buildQueueId_eq_some.mp hb
  rw [← hpieces a, ← hpieces b, (splitOn_injective '-').eq_iff, ← String.toList_inj,
    String.toList_append, String.toList_append, List.append_cancel_left_eq]

theorem toList_esc (s : String) : ("esc-" ++ s).toList = 'e' :: ("sc-".toList ++ s.toList) := by
  rw [String.toList_append]
  rfl

theorem mem_dashSeparators {c : Char} {inRun : Bool} {cs : List Char}
    (h : c ∈ dashSeparators py inRun cs) : c = '-' ∨ isQueueSeparator py c = false := by
  induction cs generalizing inRun with
  | nil => cases h
  | cons x cs ih =>
    rw [dashSeparators] at h
    split at h
    · split at h
      · exact ih h
      · rcases List.mem_cons.mp h with rfl | h
        · exact .inl rfl
        · exact ih h
    · rename_i hx
      rcases List.mem_cons.mp h with rfl | h
      · exact .inr (eq_false_of_ne_true hx)
      · exact ih h

theorem last_sanitizeComponent (text : String) :
    ∀ c ∈ (sanitizeComponent py text).toList.getLast?, py.isSpace c = false := by
  intro c hc
  rw [sanitizeComponent, String.toList_ofList] at hc
  have hdash : c ≠ '-' := of_decide_eq_false (getLast?_trim c hc)
  have hmem : c ∈ dashSeparators py false (py.strip text).toList := by
    have htrimmed := List.mem_of_mem_getLast? hc
    exact (List.dropWhile_sublist _).subset ((List.rdropWhile_prefix _ _).sublist.subset htrimmed)
  have hseparator := (mem_dashSeparators hmem).resolve_left hdash
  simp only [isQueueSeparator, Bool.or_eq_false_iff] at hseparator
  exact hseparator.2

theorem strip_queueId (hletter : py.isSpace 'e' = false) {identity : SenseIdentity}
    {queueId : String}
    (h : buildQueueId py identity.word identity.pos identity.senseId = some queueId) :
    py.strip queueId = queueId := by
  obtain ⟨⟨-, -, hsense⟩, rfl⟩ := buildQueueId_eq_some.mp h
  have hne : (sanitizeComponent py identity.senseId).toList ≠ [] := by
    rwa [Ne, String.toList_eq_nil_iff]
  rw [UnicodeLib.strip, ← String.toList_inj, String.toList_ofList, toList_esc,
    List.map_cons, List.map_cons, List.map_cons, List.map_nil, toList_joinDashes]
  refine trim_eq_self hletter fun c hc => last_sanitizeComponent identity.senseId c ?_
  rw [Option.mem_def] at hc ⊢
  rw [← hc]
  simp [List.getLast?_append, List.getLast?_cons, List.getLast?_eq_some_getLast hne]

/-! ## Lines -/

/-- The queue id that is written for an identity. -/
def idOf (py : PyText) (identity : SenseIdentity) : String :=
  (buildQueueId py identity.word identity.pos identity.senseId).getD ""

theorem queueLine_read (hletter : py.isSpace 'e' = false) {record line : JsonTree} {now : String}
    (h : queueLine py display record now = .ok line) :
    (∃ queueId, buildQueueId py (identityOf py display record).word
        (identityOf py display record).pos (identityOf py display record).senseId = some queueId) ∧
      queueIdOf py display line = some (idOf py (identityOf py display record)) ∧
      stampOf py display line = py.strip (createdAtOf py display record now) := by
  simp only [queueLine] at h
  split at h
  · cases h
  split at h
  · cases h
  split at h
  · cases h
  rename_i queueId hid
  obtain rfl := Except.ok.inj h
  have hstrip := strip_queueId hletter hid
  have hne : queueId ≠ "" := by
    obtain ⟨-, rfl⟩ := buildQueueId_eq_some.mp hid
    intro hempty
    have hlist := congrArg String.toList hempty
    rw [toList_esc] at hlist
    cases hlist
  refine ⟨⟨queueId, hid⟩, ?_, ?_⟩
  · have hclean : cleanTree py display (textTree queueId) = queueId := by
      rw [cleanTree_textTree, hstrip]
    have hread : ∀ value entries, value = JsonTree.obj entries →
        treeGet value "queue_id" = textTree queueId → queueIdOf py display value = some queueId := by
      rintro value entries rfl hget
      simp only [queueIdOf, isObject, if_true, hget, hclean, if_neg hne]
    rw [idOf, hid]
    exact hread _ _ rfl rfl
  · have hget : ∀ value, treeGet value "created_at" =
        textTree (createdAtOf py display record now) →
        stampOf py display value = py.strip (createdAtOf py display record now) := by
      intro value hvalue
      rw [stampOf, hvalue, cleanTree_textTree]
    exact hget _ rfl

/-! ## The reader's loop -/

theorem keepLatest_eq {latest : List (String × (Nat × JsonTree))} {place : Nat} {value : JsonTree}
    {queueId : String} (hid : queueIdOf py display value = some queueId)
    (hstamp : ∀ e ∈ latest, stampOf py display e.2.2 ≤ stampOf py display value) :
    keepLatest py display latest place value = setEntry latest queueId (place, value) := by
  simp only [keepLatest, hid]
  split
  · rfl
  · rename_i place' prev hprev
    have hmem : (queueId, (place', prev)) ∈ latest := by
      obtain ⟨before, behind, rfl, -⟩ := List.lookup_eq_some_iff.mp hprev
      exact List.mem_append_right before List.mem_cons_self
    rw [if_pos (hstamp _ hmem)]

theorem foldl_keepLatest {key : JsonTree → String} {values : List (JsonTree × Nat)}
    {latest : List (String × (Nat × JsonTree))}
    (hkey : ∀ v ∈ values, queueIdOf py display v.1 = some (key v.1))
    (hsorted : values.Pairwise fun v w => stampOf py display v.1 ≤ stampOf py display w.1)
    (hlatest : ∀ e ∈ latest, ∀ v ∈ values, stampOf py display e.2.2 ≤ stampOf py display v.1) :
    values.foldl (fun latest v => keepLatest py display latest v.2 v.1) latest =
      (values.map fun v => (key v.1, (v.2, v.1))).foldl (fun d e => setEntry d e.1 e.2) latest := by
  induction values generalizing latest with
  | nil => rfl
  | cons v values ih =>
    obtain ⟨hv, hvalues⟩ := List.forall_mem_cons.mp hkey
    obtain ⟨hfirst, hrest⟩ := List.pairwise_cons.mp hsorted
    rw [List.foldl_cons, List.map_cons, List.foldl_cons,
      keepLatest_eq hv fun e he => hlatest e he v List.mem_cons_self]
    refine ih hvalues hrest fun e he w hw => ?_
    rcases mem_setEntry he with he | rfl
    · exact hlatest e he w (List.mem_cons_of_mem _ hw)
    · exact hfirst w hw

/-- **Of values whose stamps do not decrease, the last of each queue id is returned.** -/
theorem dedupeQueue_perm {key : JsonTree → String} {values : List JsonTree}
    (hkey : ∀ v ∈ values, queueIdOf py display v = some (key v))
    (hsorted : values.Pairwise fun v w => stampOf py display v ≤ stampOf py display w) :
    (dedupeQueue py display values).Perm
      ((lastEntries (values.map fun v => (key v, v))).map (·.2)) := by
  have hfst : values.zipIdx.map (·.1) = values := List.zipIdx_map_fst 0 values
  have hkey' : ∀ v ∈ values.zipIdx, queueIdOf py display v.1 = some (key v.1) := fun v hv =>
    hkey v.1 (hfst ▸ List.mem_map_of_mem hv)
  have hsorted' : values.zipIdx.Pairwise fun v w =>
      stampOf py display v.1 ≤ stampOf py display w.1 := by
    rwa [← hfst, List.pairwise_map] at hsorted
  have hdrop : (values.map fun v => (key v, v)) =
      (values.zipIdx.map fun v => (key v.1, (v.2, v.1))).map fun e => (e.1, e.2.2) := by
    conv_lhs => rw [← hfst]
    rw [List.map_map, List.map_map]
    rfl
  rw [hdrop, lastEntries_mapValues, List.map_map, dedupeQueue,
    foldl_keepLatest hkey' hsorted' fun e he => absurd he List.not_mem_nil]
  exact ((sortBy_perm _ _).trans (perm_lastEntries _)).map _

/-! ## The last record of each identity -/

/-- The identities of the calls with the values of their lines. -/
def identityEntries (py : PyText) (display : JsonTree → String) (calls : List (JsonTree × String))
    (lines : List JsonTree) : List (SenseIdentity × JsonTree) :=
  (calls.map fun call => identityOf py display call.1).zip lines

/-- The reader returns one record for each identity that was enqueued, the last one, and
no two identities share a queue id. -/
def KeepsLast (py : PyText) (display : JsonTree → String) (limits : ScanLimits)
    (calls : List (JsonTree × String)) (lines : List JsonTree) (sink : List Char) : Prop :=
  (∃ kept, loadQueueDeduped py display limits sink = .ok kept ∧
    kept.Perm ((lastEntries (identityEntries py display calls lines)).map (·.2))) ∧
  ∀ a ∈ calls, ∀ b ∈ calls,
    idOf py (identityOf py display a.1) = idOf py (identityOf py display b.1) →
      identityOf py display a.1 = identityOf py display b.1

/-- The stamps of the calls, as the reader compares them. -/
def callStamps (py : PyText) (display : JsonTree → String) (calls : List (JsonTree × String)) :
    List String :=
  calls.map fun call => py.strip (createdAtOf py display call.1 call.2)

section Written
variable {calls : List (JsonTree × String)} {lines : List JsonTree}
  (h : List.Forall₂ (fun call line => queueLine py display call.1 call.2 = .ok line) calls lines)
include h

theorem keys_identityEntries : (identityEntries py display calls lines).map (·.1) =
    calls.map fun call => identityOf py display call.1 := by
  rw [identityEntries, List.map_fst_zip]
  rw [List.length_map, h.length_eq]

theorem identityEntries_ids (hletter : py.isSpace 'e' = false) :
    ((identityEntries py display calls lines).map fun e => (idOf py e.1, e.2)) =
      lines.map fun line => ((queueIdOf py display line).getD "", line) := by
  induction h with
  | nil => rfl
  | cons hline _ ih =>
    obtain ⟨-, hid, -⟩ := queueLine_read hletter hline
    rw [List.map_cons, ← ih, hid, Option.getD_some]
    rfl

theorem stamps_lines (hletter : py.isSpace 'e' = false) :
    lines.map (stampOf py display) = callStamps py display calls := by
  induction h with
  | nil => rfl
  | cons hline _ ih =>
    obtain ⟨-, -, hstamp⟩ := queueLine_read hletter hline
    rw [List.map_cons, ih, hstamp]
    rfl

theorem queueIds_lines (hletter : py.isSpace 'e' = false) :
    ∀ line ∈ lines, queueIdOf py display line = some ((queueIdOf py display line).getD "") := by
  induction h with
  | nil => exact fun line hline => absurd hline List.not_mem_nil
  | cons hline _ ih =>
    obtain ⟨-, hid, -⟩ := queueLine_read hletter hline
    refine List.forall_mem_cons.mpr ⟨?_, ih⟩
    rw [hid, Option.getD_some]

theorem idOf_eq_iff (hletter : py.isSpace 'e' = false) {a b : JsonTree × String} (ha : a ∈ calls)
    (hb : b ∈ calls) :
    idOf py (identityOf py display a.1) = idOf py (identityOf py display b.1) ↔
      idPieces py (identityOf py display a.1) = idPieces py (identityOf py display b.1) := by
  have hbuilt : ∀ call ∈ calls, ∃ queueId, buildQueueId py (identityOf py display call.1).word
      (identityOf py display call.1).pos (identityOf py display call.1).senseId = some queueId := by
    clear ha hb
    induction h with
    | nil => exact fun call hcall => absurd hcall List.not_mem_nil
    | cons hline _ ih => exact List.forall_mem_cons.mpr ⟨(queueLine_read hletter hline).1, ih⟩
  obtain ⟨idA, hidA⟩ := hbuilt a ha
  obtain ⟨idB, hidB⟩ := hbuilt b hb
  rw [idOf, idOf, hidA, hidB]
  exact buildQueueId_eq_iff hidA hidB

end Written

/-- **The queue keeps the last record of each identity exactly when different
identities have different pieces**, where its lines are kept. -/
theorem queue_keepsLast_iff (hletter : py.isSpace 'e' = false) {calls : List (JsonTree × String)}
    {lines : List JsonTree} {sink : List Char}
    (hcalls : enqueueAll py display limits calls = .ok (lines, sink))
    (htimes : (callStamps py display calls).Pairwise (· ≤ ·))
    (hkeeps : QueueKeepsLines py display calls) :
    KeepsLast py display limits calls lines sink ↔
      ∀ a ∈ calls, ∀ b ∈ calls,
        idPieces py (identityOf py display a.1) = idPieces py (identityOf py display b.1) →
          identityOf py display a.1 = identityOf py display b.1 := by
  obtain ⟨-, hlines⟩ := saveAll_ok enqueueEscalation_appends hcalls
  obtain ⟨-, hread⟩ := (escalationsLossless_iff hcalls).mpr hkeeps
  have hpieces : ∀ a ∈ calls, ∀ b ∈ calls, _ := fun a ha b hb =>
    idOf_eq_iff hlines hletter (a := a) (b := b) ha hb
  constructor
  · rintro ⟨-, hids⟩ a ha b hb heq
    exact hids a ha b hb ((hpieces a ha b hb).mpr heq)
  · intro hinjective
    have hids : ∀ a ∈ calls, ∀ b ∈ calls,
        idOf py (identityOf py display a.1) = idOf py (identityOf py display b.1) →
          identityOf py display a.1 = identityOf py display b.1 := fun a ha b hb heq =>
      hinjective a ha b hb ((hpieces a ha b hb).mp heq)
    refine ⟨⟨dedupeQueue py display lines, ?_, ?_⟩, hids⟩
    · rw [loadQueueDeduped, hread]
      rfl
    · have hsorted : lines.Pairwise fun v w => stampOf py display v ≤ stampOf py display w := by
        rwa [← stamps_lines hlines hletter, List.pairwise_map] at htimes
      refine (dedupeQueue_perm (queueIds_lines hlines hletter) hsorted).trans ?_
      rw [← identityEntries_ids hlines hletter, perm_last_map_iff, keys_identityEntries hlines]
      simp only [List.forall_mem_map]
      exact hids

/-- Two words that differ in a dash. -/
def iceCreams : List (JsonTree × String) := [wordEscalation "ice cream", wordEscalation "ice-cream"]

theorem iceCreams_keepLines : QueueKeepsLines .ascii (fun _ => "") iceCreams := by
  intro call hcall line hline
  have htexts : ∀ call ∈ iceCreams, ∀ n ∈ ((queueLine .ascii (fun _ => "") call.1 call.2).toOption.map
      textPoints).getD [], n ∉ [0x85, 0x2028, 0x2029] := by decide +kernel
  have htext := htexts call hcall
  rwa [hline] at htext

/-- What the queue keeps of the two. -/
theorem iceCreams_keepsLast_iff : ∃ lines sink,
    enqueueAll .ascii (fun _ => "") ⟨100, 4300⟩ iceCreams = .ok (lines, sink) ∧
      (KeepsLast .ascii (fun _ => "") ⟨100, 4300⟩ iceCreams lines sink ↔
        ∀ a ∈ iceCreams, ∀ b ∈ iceCreams,
          idPieces .ascii (identityOf .ascii (fun _ => "") a.1) =
              idPieces .ascii (identityOf .ascii (fun _ => "") b.1) →
            identityOf .ascii (fun _ => "") a.1 = identityOf .ascii (fun _ => "") b.1) :=
  ⟨_, _, rfl, queue_keepsLast_iff (by decide) rfl (by decide +kernel) iceCreams_keepLines⟩

/-- They are enqueued at one time, and one of them is returned. -/
theorem iceCreams_one_lost : ∃ lines sink,
    enqueueAll .ascii (fun _ => "") ⟨100, 4300⟩ iceCreams = .ok (lines, sink) ∧
      (callStamps .ascii (fun _ => "") iceCreams).Pairwise (· ≤ ·) ∧
      (loadQueueDeduped .ascii (fun _ => "") ⟨100, 4300⟩ sink).toOption.map List.length = some 1 ∧
      ¬ KeepsLast .ascii (fun _ => "") ⟨100, 4300⟩ iceCreams lines sink := by
  refine ⟨_, _, rfl, by decide +kernel, by decide +kernel, ?_⟩
  rintro ⟨-, hids⟩
  have hsame := hids _ List.mem_cons_self _ (List.mem_cons_of_mem _ List.mem_cons_self)
    (by decide +kernel)
  exact absurd hsame (by decide +kernel)

end HamZaboon
