import HamZaboon.Presets.Registry
import Mathlib.Data.List.Perm.Basic

/-! # Places in the fallback chain

`get_fallback_chain_presets` lists the enabled presets of the chain, the normal
group before the emergency one.  `insert_preset_at_rank` and
`reindex_preset_priority` rewrite the priorities of one group to `0, 1, 2, …`.
Both write the ranks of an arrangement of the group's names, and the chain then
lists that arrangement whatever the priorities were (`chainNames_writeRanks`).
-/

namespace HamZaboon
open Library

namespace PresetRow

/-- `enabled=1 AND in_fallback_chain=1`. -/
def inChain (row : PresetRow) : Bool := row.enabled && row.inFallbackChain

/-- `enabled=1 AND is_emergency=? AND in_fallback_chain=1`. -/
def inGroup (isEmergency : Bool) (row : PresetRow) : Bool :=
  row.inChain && row.isEmergency == isEmergency

/-- `ORDER BY priority ASC, name ASC`. -/
def groupRank (row : PresetRow) : Int ×ₗ String := toLex (row.priority, row.name)

/-- `ORDER BY is_emergency ASC, priority ASC, name ASC`. -/
def chainRank (row : PresetRow) : Bool ×ₗ Int ×ₗ String := toLex (row.isEmergency, row.groupRank)

end PresetRow

/-- `UPDATE ai_presets SET priority=i WHERE name=n` for the names in order. -/
def writeRanks (presets : KeyedTable String PresetRow (·.name)) (names : List String) :
    KeyedTable String PresetRow (·.name) :=
  names.zipIdx.foldl
    (fun t entry => t.updateWhere (fun row => row.name = entry.1)
      (fun row => { row with priority := entry.2 }) fun _ => rfl)
    presets

namespace PresetStore

def getFallbackChainPresets (s : PresetStore) : List PresetRow :=
  sortBy PresetRow.chainRank (s.presets.rows.filter (·.inChain))

/-- The names both placing functions read. -/
def groupNames (s : PresetStore) (isEmergency : Bool) : List String :=
  (sortBy PresetRow.groupRank (s.presets.rows.filter (·.inGroup isEmergency))).map (·.name)

def insertPresetAtRank (s : PresetStore) (name : String) (targetRank : Int) (asEmergency : Bool) :
    Except PresetError PresetStore :=
  let names := (s.groupNames asEmergency).filter (· ≠ name)
  let count : Int := names.length
  if 0 ≤ targetRank ∧ targetRank ≤ count then
    .ok { s with presets := writeRanks s.presets (names.insertIdx targetRank.toNat name) }
  else .error (.rankOutOfRange targetRank 0 count)

def reindexPresetPriority (s : PresetStore) (name : String) (targetRank : Int)
    (groupIsEmergency : Bool) : Except PresetError PresetStore :=
  let targetIdx := targetRank - 1
  let names := s.groupNames groupIsEmergency
  let count : Int := names.length
  if 1 ≤ targetRank ∧ targetRank ≤ count then
    match names.idxOf? name with
    | none => .error (.notInGroup name)
    | some currentIdx =>
      if (currentIdx : Int) = targetIdx then .ok s
      else
        .ok { s with
          presets := writeRanks s.presets
            ((names.eraseIdx currentIdx).insertIdx targetIdx.toNat name) }
  else .error (.rankOutOfRange targetRank 1 count)

/-- The preset is enabled and put in the chain. -/
def enterChain (s : PresetStore) (name : String) : PresetStore :=
  { s with
    presets := s.presets.updateWhere (fun row => row.name = name)
      (fun row => { row with enabled := true, inFallbackChain := true }) fun _ => rfl }

def chainNames (s : PresetStore) (isEmergency : Bool) : List String :=
  (s.getFallbackChainPresets.filter (·.isEmergency == isEmergency)).map (·.name)

/-- How many other presets of the group are enabled and in the chain. -/
def otherMembers (s : PresetStore) (name : String) (isEmergency : Bool) : Nat :=
  s.presets.rows.countP fun row => row.inGroup isEmergency && row.name ≠ name

/-- The preset stands at position `k` of its group, all others as before. -/
structure Placed (s s' : PresetStore) (name : String) (isEmergency : Bool) (k : Nat) : Prop where
  at_rank : (s'.chainNames isEmergency)[k]? = some name
  own_order : (s'.chainNames isEmergency).filter (· ≠ name) =
    (s.chainNames isEmergency).filter (· ≠ name)
  other_order : s'.chainNames (!isEmergency) = s.chainNames (!isEmergency)

/-! ## The chain and its groups -/

theorem nodup_names (s : PresetStore) (p : PresetRow → Bool) :
    ((s.presets.rows.filter p).map (·.name)).Nodup :=
  s.presets.pk.sublist (List.filter_sublist.map _)

theorem nodup_groupRank (s : PresetStore) (p : PresetRow → Bool) :
    ((s.presets.rows.filter p).map PresetRow.groupRank).Nodup := by
  refine List.Nodup.of_map (fun rank : Int ×ₗ String => (ofLex rank).2) ?_
  rw [List.map_map]
  exact s.nodup_names p

theorem nodup_chainRank (s : PresetStore) (p : PresetRow → Bool) :
    ((s.presets.rows.filter p).map PresetRow.chainRank).Nodup := by
  refine List.Nodup.of_map (fun rank : Bool ×ₗ Int ×ₗ String => (ofLex rank).2) ?_
  rw [List.map_map]
  exact s.nodup_groupRank p

theorem chainNames_eq_groupNames (s : PresetStore) (e : Bool) :
    s.chainNames e = s.groupNames e := by
  unfold chainNames groupNames getFallbackChainPresets
  refine congrArg (List.map PresetRow.name) ?_
  rw [filter_sortBy _ (s.nodup_chainRank _), List.filter_filter]
  have hgroup : s.presets.rows.filter (fun row => row.isEmergency == e && row.inChain) =
      s.presets.rows.filter (·.inGroup e) :=
    List.filter_congr fun row _ => Bool.and_comm _ _
  rw [hgroup]
  refine (sortBy_eq_of_perm _ (sortBy_perm _ _) ?_).symm
  refine (pairwise_lt_sortBy _ (s.nodup_chainRank _)).imp_of_mem fun {a b} ha hb hlt => ?_
  have hflag : ∀ row ∈ sortBy PresetRow.chainRank (s.presets.rows.filter (·.inGroup e)),
      row.isEmergency = e := by
    intro row hrow
    have hin := (List.mem_filter.mp ((mem_sortBy _).mp hrow)).2
    exact eq_of_beq (Bool.and_eq_true_iff.mp hin).2
  rcases Prod.Lex.toLex_lt_toLex.mp hlt with h | h
  · exact absurd h (by rw [hflag a ha, hflag b hb]; exact lt_irrefl _)
  · exact h.2

theorem mem_chainNames {s : PresetStore} {e : Bool} {name : String} :
    name ∈ s.chainNames e ↔ ∃ row, s.presets.lookup name = some row ∧ row.inGroup e = true := by
  rw [chainNames_eq_groupNames, groupNames, List.mem_map]
  constructor
  · rintro ⟨row, hrow, rfl⟩
    obtain ⟨hmem, hin⟩ := List.mem_filter.mp ((mem_sortBy _).mp hrow)
    exact ⟨row, KeyedTable.lookup_of_mem hmem, hin⟩
  · rintro ⟨row, hrow, hin⟩
    exact ⟨row, (mem_sortBy _).mpr (List.mem_filter.mpr ⟨KeyedTable.mem_of_lookup hrow, hin⟩),
      KeyedTable.key_of_lookup hrow⟩

theorem nodup_chainNames (s : PresetStore) (e : Bool) : (s.chainNames e).Nodup := by
  rw [chainNames_eq_groupNames]
  exact ((sortBy_perm _ _).map _).nodup_iff.mpr (s.nodup_names _)

theorem length_others (s : PresetStore) (name : String) (e : Bool) :
    ((s.chainNames e).filter (· ≠ name)).length = s.otherMembers name e := by
  rw [chainNames_eq_groupNames, groupNames, otherMembers, ← List.countP_eq_length_filter,
    List.countP_map, ((sortBy_perm _ _).countP_eq _), List.countP_filter]
  exact List.countP_congr fun row _ => by simp [and_comm]

end PresetStore

/-! ## Writing ranks -/

namespace PresetRow

/-- The row with its position among `names` for its priority, where it is one of them. -/
def ranked (names : List String) (row : PresetRow) : PresetRow :=
  if row.name ∈ names then { row with priority := names.idxOf row.name } else row

@[simp] theorem name_ranked (names : List String) (row : PresetRow) :
    (row.ranked names).name = row.name := by
  unfold ranked
  split <;> rfl

@[simp] theorem inGroup_ranked (names : List String) (row : PresetRow) (e : Bool) :
    (row.ranked names).inGroup e = row.inGroup e := by
  unfold ranked
  split <;> rfl

end PresetRow

theorem rows_writeRanks (t : KeyedTable String PresetRow (·.name)) {names : List String}
    (hnodup : names.Nodup) : (writeRanks t names).rows = t.rows.map (·.ranked names) := by
  suffices h : ∀ (n : Nat) (t : KeyedTable String PresetRow (·.name)),
      ((names.zipIdx n).foldl
        (fun (t : KeyedTable String PresetRow (·.name)) entry =>
          t.updateWhere (fun row => row.name = entry.1)
            (fun row => { row with priority := entry.2 }) fun _ => rfl) t).rows =
        t.rows.map fun row =>
          if row.name ∈ names then { row with priority := (n + names.idxOf row.name : Nat) }
          else row by
    have hzero := h 0 t
    simp only [Nat.zero_add] at hzero
    exact hzero
  induction names with
  | nil => simp
  | cons a names ih =>
    intro n t
    obtain ⟨ha, hnodup⟩ := List.nodup_cons.mp hnodup
    rw [List.zipIdx_cons, List.foldl_cons, ih hnodup, KeyedTable.rows_updateWhere, List.map_map]
    refine List.map_congr_left fun row _ => ?_
    by_cases hrow : row.name = a
    · simp [hrow, ha]
    · have hpos : (a :: names).idxOf row.name = names.idxOf row.name + 1 :=
        List.idxOf_cons_ne _ (Ne.symm hrow)
      simp [hrow, hpos, Nat.add_assoc, Nat.add_comm 1]

namespace PresetStore

/-- The store with an arrangement of names written as ranks. -/
def withRanks (s : PresetStore) (names : List String) : PresetStore :=
  { s with presets := writeRanks s.presets names }

/-- The row after its name's rank is written and `p` has entered the chain. -/
def placedRow (names : List String) (p : String) (row : PresetRow) : PresetRow :=
  if row.name = p then { row.ranked names with enabled := true, inFallbackChain := true }
  else row.ranked names

@[simp] theorem name_placedRow (names : List String) (p : String) (row : PresetRow) :
    (placedRow names p row).name = row.name := by
  unfold placedRow
  split <;> simp

theorem rows_place (s : PresetStore) {names : List String} (hnodup : names.Nodup) (p : String) :
    ((s.withRanks names).enterChain p).presets.rows = s.presets.rows.map (placedRow names p) := by
  show ((writeRanks s.presets names).rows.map fun row => _) = _
  rw [rows_writeRanks _ hnodup, List.map_map]
  refine List.map_congr_left fun row _ => ?_
  simp only [Function.comp, placedRow, PresetRow.name_ranked, decide_eq_true_eq]

section Place
variable {s : PresetStore} {p : String} {row : PresetRow} {names : List String}

theorem inGroup_placedRow {x : PresetRow} (hx : x.name ≠ p) (e : Bool) :
    (placedRow names p x).inGroup e = x.inGroup e := by
  rw [placedRow, if_neg hx, PresetRow.inGroup_ranked]

theorem inGroup_placedRow_self (hname : row.name = p) (e : Bool) :
    (placedRow names p row).inGroup e = (row.isEmergency == e) := by
  have hflag : (row.ranked names).isEmergency = row.isEmergency := by
    unfold PresetRow.ranked
    split <;> rfl
  rw [placedRow, if_pos hname]
  simp [PresetRow.inGroup, PresetRow.inChain, hflag]

theorem priority_placedRow {x : PresetRow} (hx : x.name ∈ names) :
    (placedRow names p x).priority = names.idxOf x.name := by
  have hranked : (x.ranked names).priority = names.idxOf x.name := by
    rw [PresetRow.ranked, if_pos hx]
  unfold placedRow
  split <;> exact hranked

theorem eq_row_of_name (hrow : s.presets.lookup p = some row) {x : PresetRow}
    (hx : x ∈ s.presets.rows) (hxp : x.name = p) : x = row := by
  have hlookup := KeyedTable.lookup_of_mem hx
  rw [hxp, hrow] at hlookup
  exact (Option.some.inj hlookup).symm

theorem name_mem_chainNames {x : PresetRow} (hx : x ∈ s.presets.rows) {e : Bool} :
    x.name ∈ s.chainNames e ↔ x.inGroup e = true := by
  rw [mem_chainNames]
  constructor
  · rintro ⟨y, hy, hyin⟩
    rw [KeyedTable.lookup_of_mem hx] at hy
    exact Option.some.inj hy ▸ hyin
  · exact fun h => ⟨x, KeyedTable.lookup_of_mem hx, h⟩

theorem inGroup_placedRow_eq (hrow : s.presets.lookup p = some row)
    (hmem : ∀ n, n ∈ names ↔ n = p ∨ n ∈ s.chainNames row.isEmergency) {x : PresetRow}
    (hx : x ∈ s.presets.rows) :
    (placedRow names p x).inGroup row.isEmergency = decide (x.name ∈ names) := by
  rw [Bool.eq_iff_iff, decide_eq_true_eq, hmem, name_mem_chainNames hx]
  by_cases hxp : x.name = p
  · have hself : (placedRow names p x).inGroup row.isEmergency = true := by
      rw [eq_row_of_name hrow hx hxp, inGroup_placedRow_self (KeyedTable.key_of_lookup hrow),
        beq_self_eq_true]
    exact iff_of_true hself (.inl hxp)
  · rw [inGroup_placedRow hxp, or_iff_right hxp]

theorem chainNames_place (hrow : s.presets.lookup p = some row) (hnodup : names.Nodup)
    (hmem : ∀ n, n ∈ names ↔ n = p ∨ n ∈ s.chainNames row.isEmergency) :
    ((s.withRanks names).enterChain p).chainNames row.isEmergency = names := by
  rw [chainNames_eq_groupNames, groupNames, rows_place s hnodup]
  have hfilter : (s.presets.rows.map (placedRow names p)).filter (·.inGroup row.isEmergency) =
      (s.presets.rows.filter (·.name ∈ names)).map (placedRow names p) := by
    rw [List.filter_map]
    exact congrArg _ (List.filter_congr fun x hx => inGroup_placedRow_eq hrow hmem hx)
  have hnames : (fun x : PresetRow => x.name) ∘ placedRow names p = (·.name) :=
    funext (name_placedRow names p)
  rw [hfilter]
  refine map_sortBy_eq _ ?_ hnodup ?_
  · rw [List.map_map, hnames]
    refine (List.perm_ext_iff_of_nodup (s.nodup_names _) hnodup).mpr fun n => ?_
    simp only [List.mem_map, List.mem_filter, decide_eq_true_eq]
    constructor
    · rintro ⟨x, ⟨-, hx⟩, rfl⟩
      exact hx
    · intro hn
      rcases (hmem n).mp hn with rfl | h
      · have hname := KeyedTable.key_of_lookup hrow
        exact ⟨row, ⟨KeyedTable.mem_of_lookup hrow, hname.symm ▸ hn⟩, hname⟩
      · obtain ⟨y, hy, -⟩ := mem_chainNames.mp h
        have hyname := KeyedTable.key_of_lookup hy
        exact ⟨y, ⟨KeyedTable.mem_of_lookup hy, hyname.symm ▸ hn⟩, hyname⟩
  · intro a ha b hb hlt
    obtain ⟨x, hx, rfl⟩ := List.mem_map.mp ha
    obtain ⟨y, hy, rfl⟩ := List.mem_map.mp hb
    rw [name_placedRow, name_placedRow] at hlt
    have hxn := of_decide_eq_true (List.mem_filter.mp hx).2
    have hyn := of_decide_eq_true (List.mem_filter.mp hy).2
    refine Prod.Lex.toLex_lt_toLex.mpr (Or.inl ?_)
    show (placedRow names p x).priority < (placedRow names p y).priority
    rw [priority_placedRow hxn, priority_placedRow hyn]
    exact_mod_cast hlt

theorem placedRow_of_other (hrow : s.presets.lookup p = some row)
    (hmem : ∀ n, n ∈ names ↔ n = p ∨ n ∈ s.chainNames row.isEmergency) {x : PresetRow}
    (hx : x ∈ s.presets.rows) (hflag : x.isEmergency ≠ row.isEmergency) :
    placedRow names p x = x := by
  have hxp : x.name ≠ p := fun hxp => hflag (by rw [eq_row_of_name hrow hx hxp])
  have hxn : x.name ∉ names := by
    rw [hmem, name_mem_chainNames hx]
    rintro (h | h)
    · exact hxp h
    · exact hflag (eq_of_beq (Bool.and_eq_true_iff.mp h).2)
  rw [placedRow, if_neg hxp, PresetRow.ranked, if_neg hxn]

theorem chainNames_place_other (hrow : s.presets.lookup p = some row) (hnodup : names.Nodup)
    (hmem : ∀ n, n ∈ names ↔ n = p ∨ n ∈ s.chainNames row.isEmergency) :
    ((s.withRanks names).enterChain p).chainNames (!row.isEmergency) =
      s.chainNames (!row.isEmergency) := by
  rw [chainNames_eq_groupNames, chainNames_eq_groupNames, groupNames, groupNames,
    rows_place s hnodup]
  have hin : ∀ x ∈ s.presets.rows,
      (placedRow names p x).inGroup (!row.isEmergency) = x.inGroup (!row.isEmergency) := by
    intro x hx
    by_cases hxp : x.name = p
    · rw [eq_row_of_name hrow hx hxp, inGroup_placedRow_self (KeyedTable.key_of_lookup hrow),
        PresetRow.inGroup]
      cases row.isEmergency <;> simp
    · exact inGroup_placedRow hxp _
  have hsame : ∀ x ∈ s.presets.rows.filter (·.inGroup (!row.isEmergency)),
      placedRow names p x = x := by
    intro x hx
    obtain ⟨hxmem, hxin⟩ := List.mem_filter.mp hx
    refine placedRow_of_other hrow hmem hxmem ?_
    rw [eq_of_beq (Bool.and_eq_true_iff.mp hxin).2]
    exact Bool.not_ne_self _
  rw [List.filter_map, List.filter_congr (q := (·.inGroup (!row.isEmergency))) hin]
  rw [List.map_congr_left hsame, List.map_id']

/-- **What the chain lists.**  After the ranks of an arrangement of the group and
of `p` are written and `p` is in the chain, the group reads as the arrangement,
and the other group as before. -/
theorem chainNames_writeRanks (hrow : s.presets.lookup p = some row) (hnodup : names.Nodup)
    (hmem : ∀ n, n ∈ names ↔ n = p ∨ n ∈ s.chainNames row.isEmergency) :
    ((s.withRanks names).enterChain p).chainNames row.isEmergency = names ∧
      ((s.withRanks names).enterChain p).chainNames (!row.isEmergency) =
        s.chainNames (!row.isEmergency) :=
  ⟨chainNames_place hrow hnodup hmem, chainNames_place_other hrow hnodup hmem⟩

theorem filter_insertIdx (k : Nat) (l : List String) :
    (l.insertIdx k p).filter (· ≠ p) = l.filter (· ≠ p) := by
  induction l generalizing k with
  | nil => cases k <;> simp
  | cons a l ih =>
    cases k with
    | zero => simp
    | succ k => rw [List.insertIdx_succ_cons, List.filter_cons, List.filter_cons, ih]

theorem placed_writeRanks (hrow : s.presets.lookup p = some row) {k : Nat}
    (hk : k ≤ s.otherMembers p row.isEmergency) :
    Placed s ((s.withRanks (((s.chainNames row.isEmergency).filter (· ≠ p)).insertIdx k p)).enterChain p)
      p row.isEmergency k := by
  rw [← length_others] at hk
  have hothers := (s.nodup_chainNames row.isEmergency).filter (· ≠ p)
  have hnodup : (((s.chainNames row.isEmergency).filter (· ≠ p)).insertIdx k p).Nodup := by
    rw [(List.perm_insertIdx p _ hk).nodup_iff]
    exact List.nodup_cons.mpr ⟨by simp, hothers⟩
  obtain ⟨hown, hother⟩ := chainNames_writeRanks hrow hnodup fun n => by
    rw [List.mem_insertIdx hk, List.mem_filter, decide_eq_true_eq]
    by_cases hn : n = p <;> simp [hn]
  refine ⟨?_, ?_, hother⟩
  · rw [hown, List.getElem?_insertIdx_self, if_pos hk]
  · rw [hown, filter_insertIdx, List.filter_filter]
    simp only [Bool.and_self]

theorem chainNames_enterChain (hrow : s.presets.lookup p = some row) (hin : row.inChain = true)
    (e : Bool) : (s.enterChain p).chainNames e = s.chainNames e := by
  obtain ⟨henabled, hchain⟩ := Bool.and_eq_true_iff.mp hin
  have hrows : (s.enterChain p).presets.rows = s.presets.rows := by
    show (s.presets.rows.map fun x => _) = _
    conv_rhs => rw [← List.map_id s.presets.rows]
    refine List.map_congr_left fun x hx => ?_
    split
    · rename_i hxp
      have hlookup := KeyedTable.lookup_of_mem hx
      rw [of_decide_eq_true hxp, hrow] at hlookup
      cases hlookup
      have henter := congrArg₂ (fun enabled inFallbackChain : Bool =>
        { row with enabled := enabled, inFallbackChain := inFallbackChain }) henabled hchain
      exact henter.symm
    · rfl
  rw [chainNames, chainNames, getFallbackChainPresets, getFallbackChainPresets, hrows]

theorem lookup_withRanks (hrow : s.presets.lookup p = some row) (hnodup : names.Nodup) :
    (s.withRanks names).presets.lookup p = some (row.ranked names) := by
  have hmem : row.ranked names ∈ (s.withRanks names).presets.rows := by
    show _ ∈ (writeRanks s.presets names).rows
    rw [rows_writeRanks _ hnodup]
    exact List.mem_map_of_mem (KeyedTable.mem_of_lookup hrow)
  have hname : (row.ranked names).name = p := by
    rw [PresetRow.name_ranked, KeyedTable.key_of_lookup hrow]
  exact hname ▸ KeyedTable.lookup_of_mem hmem

end Place

/-! ## The placing functions -/

section Placing
variable {s : PresetStore} {p : String} {row : PresetRow}

theorem insertPresetAtRank_eq (s : PresetStore) (p : String) (k : Int) (e : Bool) :
    s.insertPresetAtRank p k e =
      if 0 ≤ k ∧ k ≤ s.otherMembers p e then
        .ok (s.withRanks (((s.chainNames e).filter (· ≠ p)).insertIdx k.toNat p))
      else .error (.rankOutOfRange k 0 (s.otherMembers p e)) := by
  rw [insertPresetAtRank, ← length_others, chainNames_eq_groupNames]
  rfl

theorem mem_chainNames_self (hrow : s.presets.lookup p = some row) :
    p ∈ s.chainNames row.isEmergency ↔ row.inChain = true := by
  rw [mem_chainNames, hrow]
  simp [PresetRow.inGroup]

theorem erase_chainNames (s : PresetStore) (p : String) (e : Bool) :
    (s.chainNames e).erase p = (s.chainNames e).filter (· ≠ p) := by
  rw [(s.nodup_chainNames e).erase_eq_filter]
  exact List.filter_congr fun n _ => by rw [Bool.eq_iff_iff]; simp

theorem length_chainNames {e : Bool} (hin : p ∈ s.chainNames e) :
    (s.chainNames e).length = s.otherMembers p e + 1 := by
  have hlen := List.length_erase_of_mem hin
  have hpos := List.length_pos_of_mem hin
  rw [erase_chainNames, length_others] at hlen
  omega

theorem reindexPresetPriority_of_notMem {e : Bool} (hout : p ∉ s.chainNames e) (k : Int) :
    ∃ err, s.reindexPresetPriority p k e = .error err := by
  rw [chainNames_eq_groupNames] at hout
  unfold reindexPresetPriority
  simp only [List.idxOf?_eq_none_iff.mpr hout]
  split <;> exact ⟨_, rfl⟩

theorem reindexPresetPriority_of_mem {e : Bool} (hin : p ∈ s.chainNames e) (k : Int) :
    s.reindexPresetPriority p k e =
      if 1 ≤ k ∧ k ≤ s.otherMembers p e + 1 then
        if (s.chainNames e)[(k - 1).toNat]? = some p then .ok s
        else .ok (s.withRanks (((s.chainNames e).filter (· ≠ p)).insertIdx (k - 1).toNat p))
      else .error (.rankOutOfRange k 1 (s.otherMembers p e + 1)) := by
  obtain ⟨i, hi⟩ := Option.isSome_iff_exists.mp (List.isSome_idxOf?.mpr hin)
  obtain ⟨hlt, hget, -⟩ := List.idxOf?_eq_some_iff.mp hi
  have hnodup := s.nodup_chainNames e
  have herase : (s.chainNames e).eraseIdx i = (s.chainNames e).filter (· ≠ p) := by
    have heq := List.erase_eq_eraseIdx (s.chainNames e) p
    simp only [hi] at heq
    rw [← heq, erase_chainNames]
  unfold reindexPresetPriority
  rw [← chainNames_eq_groupNames]
  simp only [length_chainNames hin, hi, Int.natCast_add, Int.cast_ofNat_Int, herase]
  split
  · rename_i hk
    have hat : ((i : Int) = k - 1) ↔ (s.chainNames e)[(k - 1).toNat]? = some p := by
      have hsome : (s.chainNames e)[i]? = some p := by rw [List.getElem?_eq_getElem hlt, hget]
      constructor
      · intro h
        rwa [← h, Int.toNat_natCast]
      · intro h
        have hidx := (List.getElem?_inj hlt hnodup).mp (hsome.trans h.symm)
        omega
    simp only [hat]
    rfl
  · rfl

theorem insertPresetAtRank_places (hrow : s.presets.lookup p = some row) (k : Int) :
    if 0 ≤ k ∧ k ≤ s.otherMembers p row.isEmergency then
      ∃ s', s.insertPresetAtRank p k row.isEmergency = .ok s' ∧
        Placed s (s'.enterChain p) p row.isEmergency k.toNat
    else ∃ e, s.insertPresetAtRank p k row.isEmergency = .error e := by
  rw [insertPresetAtRank_eq]
  split
  · rename_i hk
    exact ⟨_, rfl, placed_writeRanks hrow (by omega)⟩
  · exact ⟨_, rfl⟩

theorem reindexPresetPriority_places (hrow : s.presets.lookup p = some row)
    (hin : row.inChain = true) (k : Int) :
    if 0 ≤ k - 1 ∧ k - 1 ≤ s.otherMembers p row.isEmergency then
      ∃ s', s.reindexPresetPriority p k row.isEmergency = .ok s' ∧
        Placed s s' p row.isEmergency (k - 1).toNat
    else ∃ e, s.reindexPresetPriority p k row.isEmergency = .error e := by
  have hmem := (mem_chainNames_self hrow).mpr hin
  rw [reindexPresetPriority_of_mem hmem]
  split
  · rename_i hk
    rw [if_pos (by omega)]
    split
    · rename_i hat
      exact ⟨s, rfl, hat, rfl, rfl⟩
    · have hk' : (k - 1).toNat ≤ s.otherMembers p row.isEmergency := by omega
      have hplaced := placed_writeRanks hrow hk'
      have hnodup : (((s.chainNames row.isEmergency).filter (· ≠ p)).insertIdx
          (k - 1).toNat p).Nodup := by
        rw [← length_others] at hk'
        rw [(List.perm_insertIdx p _ hk').nodup_iff]
        exact List.nodup_cons.mpr ⟨by simp, (s.nodup_chainNames _).filter _⟩
      have hranked := lookup_withRanks hrow hnodup
      have hstill : (row.ranked (((s.chainNames row.isEmergency).filter (· ≠ p)).insertIdx
          (k - 1).toNat p)).inChain = true := by
        unfold PresetRow.ranked
        split <;> exact hin
      refine ⟨_, rfl, ?_, ?_, ?_⟩
      · rw [← chainNames_enterChain hranked hstill]
        exact hplaced.at_rank
      · rw [← chainNames_enterChain hranked hstill]
        exact hplaced.own_order
      · rw [← chainNames_enterChain hranked hstill]
        exact hplaced.other_order
  · rw [if_neg (by omega)]
    exact ⟨_, rfl⟩

end Placing

/-- **Placement is exact.**  A preset inserted at rank `k` of its own group, once
it is in the chain, stands at position `k` there with all others in their order;
ranks beyond the other members of the group raise.  Reindexing does the same for
the 1-based rank of a preset that is in the chain, and raises for any other. -/
theorem placement_exact {s : PresetStore} {p : String} {row : PresetRow}
    (hrow : s.presets.lookup p = some row) (k : Int) :
    (if 0 ≤ k ∧ k ≤ s.otherMembers p row.isEmergency then
      ∃ s', s.insertPresetAtRank p k row.isEmergency = .ok s' ∧
        Placed s (s'.enterChain p) p row.isEmergency k.toNat
    else ∃ e, s.insertPresetAtRank p k row.isEmergency = .error e) ∧
    (row.inChain = true →
      if 0 ≤ k - 1 ∧ k - 1 ≤ s.otherMembers p row.isEmergency then
        ∃ s', s.reindexPresetPriority p k row.isEmergency = .ok s' ∧
          Placed s s' p row.isEmergency (k - 1).toNat
      else ∃ e, s.reindexPresetPriority p k row.isEmergency = .error e) ∧
    (row.inChain = false → ∃ e, s.reindexPresetPriority p k row.isEmergency = .error e) := by
  refine ⟨insertPresetAtRank_places hrow k, fun hin => reindexPresetPriority_places hrow hin k, ?_⟩
  intro hout
  refine reindexPresetPriority_of_notMem (fun hmem => ?_) k
  rw [(mem_chainNames_self hrow).mp hmem] at hout
  cases hout

/-- Three presets: `a` and `b` share a priority, `c` is disabled. -/
def withTiedPresets : PresetStore where
  presets :=
    { rows := [
        { name := "c", priority := 0, enabled := false
          inputCostPerMillion := none, outputCostPerMillion := none },
        { name := "b", priority := 7, enabled := true
          inputCostPerMillion := none, outputCostPerMillion := none },
        { name := "a", priority := 7, enabled := true
          inputCostPerMillion := none, outputCostPerMillion := none }]
      pk := by decide }
  presetGroups := KeyedTable.empty
  aiPrimaryPreset := none
  aiFallbackPreset := none

/-- The disabled preset goes between the two tied ones. -/
theorem insert_between_tied :
    ∃ s', withTiedPresets.insertPresetAtRank "c" 1 false = .ok s' ∧
      Placed withTiedPresets (s'.enterChain "c") "c" false 1 := by
  have h := (placement_exact (s := withTiedPresets) (p := "c") rfl 1).1
  rw [if_pos (by decide)] at h
  exact h

/-- The same preset cannot be reindexed to the second rank. -/
theorem disabled_preset_not_reindexed :
    withTiedPresets.presets.has "c" = true ∧
      (0 : Int) ≤ 2 - 1 ∧ (2 : Int) - 1 ≤ withTiedPresets.otherMembers "c" false ∧
      withTiedPresets.reindexPresetPriority "c" 2 false = .error (.notInGroup "c") := by
  refine ⟨by decide, by decide, by decide, ?_⟩
  rfl

end PresetStore

end HamZaboon
