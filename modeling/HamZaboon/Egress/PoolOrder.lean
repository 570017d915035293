import HamZaboon.Library.Json
import HamZaboon.Library.Results
import HamZaboon.Library.Tiers

/-! # The order of the whitelist

`order_pool_by_rank` of `factory/precard/provider_lease_policy.py`: the servers of the
pool that a probe found alive, in the order of the probe, and behind them the others as
they stood.

The second loop asks whether an id has come before, the first one does not.  So a
server with two alive rows stands in the pool twice, and where ids can be keys every
other pool is a permutation (`order_pool_by_rank_iff`).
-/

namespace HamZaboon
open Library

inductive PyKey
  | null
  | num (q : ℚ)
  | text (s : String)
  deriving DecidableEq

/-- The key that a value is; `none` for the `TypeError` of a list or a dictionary. -/
def pyKey : JsonValue → Option PyKey
  | .null => some .null
  | .bool value => some (.num (if value then 1 else 0))
  | .int n => some (.num n)
  | .float q => some (.num q)
  | .str s => some (.text s)
  | .arr _ | .obj _ => none

def dictsOf (values : List JsonValue) : List Dict :=
  values.filterMap fun
    | .obj d => some d
    | _ => none

/-- The servers that both loops look at: dictionaries with an id. -/
def pooledDicts (servers : List JsonValue) : List Dict :=
  (dictsOf servers).filter fun s => (s.get "id").truthy

/-- A server of the pool, with the key that its id is. -/
structure KeyedServer where
  entry : Dict
  id : PyKey
  key_id : pyKey (entry.get "id") = some id

/-- A server of the pool; `none` for the `TypeError` of an id that can be no key. -/
def keyedServer (s : Dict) : Option KeyedServer :=
  match h : pyKey (s.get "id") with
  | some id => some ⟨s, id, h⟩
  | none => none

/-- The servers with their ids, as `by_id` takes them. -/
def keyedServers (servers : List JsonValue) : Option (List KeyedServer) :=
  (pooledDicts servers).mapM keyedServer

/-- `by_id.get(id)`: the last server that has the id. -/
def byId (pool : List KeyedServer) (id : PyKey) : Option KeyedServer :=
  pool.reverse.find? fun s => s.id = id

structure ProbeRow where
  id : PyKey
  alive : Bool

/-- The rows of the ranking; the lookup in `by_id` hashes the id of each, alive or not. -/
def rankedRows (ranked : List JsonValue) : Option (List ProbeRow) :=
  (dictsOf ranked).mapM fun row =>
    (pyKey (row.get "id")).map fun id => ⟨id, (row.get "alive").truthy⟩

def aliveServers (pool : List KeyedServer) (rows : List ProbeRow) : List KeyedServer :=
  rows.filterMap fun row => if row.alive then byId pool row.id else none

/-- The second loop, with `ordered` and `ordered_ids`. -/
def appendOthers (ordered : List KeyedServer) (orderedIds : List PyKey) :
    List KeyedServer → List KeyedServer
  | [] => ordered
  | s :: pool =>
      if s.id ∈ orderedIds then appendOthers ordered orderedIds pool
      else appendOthers (ordered ++ [s]) (orderedIds ++ [s.id]) pool

/-- `order_pool_by_rank`; `none` for a `TypeError`. -/
def orderPoolByRank (servers ranked : List JsonValue) : Option (List KeyedServer) := do
  let pool ← keyedServers servers
  let rows ← rankedRows ranked
  let ordered := aliveServers pool rows
  return appendOthers ordered (ordered.map (·.id)) pool

/-! ## What is asked of the order -/

def serverIds (servers : List JsonValue) : List PyKey :=
  (pooledDicts servers).filterMap fun s => pyKey (s.get "id")

def aliveIds (ranked : List JsonValue) : List PyKey :=
  ((dictsOf ranked).filter fun row => (row.get "alive").truthy).filterMap fun row =>
    pyKey (row.get "id")

/-- Each server once and nothing else: first those with an alive row, by their first one,
and then the others by their first places. -/
structure RankOrdered (servers ranked : List JsonValue) (out : List KeyedServer) : Prop where
  input : ∀ s ∈ out, .obj s.entry ∈ servers
  nodup : (out.map (·.id)).Nodup
  complete : ∀ id, id ∈ out.map (·.id) ↔ id ∈ serverIds servers
  order : ∃ front rest, out.map (·.id) = front ++ rest ∧
    (∀ id ∈ front, id ∈ aliveIds ranked) ∧ (∀ id ∈ rest, id ∉ aliveIds ranked) ∧
    (front.Pairwise fun a b => (aliveIds ranked).idxOf a < (aliveIds ranked).idxOf b) ∧
    rest.Pairwise fun a b => (serverIds servers).idxOf a < (serverIds servers).idxOf b

/-- Every id can be a key, and no server has two alive rows. -/
structure RankedOnce (servers ranked : List JsonValue) : Prop where
  server_keys : ∀ s ∈ pooledDicts servers, (pyKey (s.get "id")).isSome = true
  row_keys : ∀ row ∈ dictsOf ranked, (pyKey (row.get "id")).isSome = true
  once : ((aliveIds ranked).filter (· ∈ serverIds servers)).Nodup

/-! ## The pool and the ranking -/

theorem mem_dictsOf {d : Dict} {values : List JsonValue} : d ∈ dictsOf values ↔ .obj d ∈ values := by
  unfold dictsOf
  rw [List.mem_filterMap]
  constructor
  · rintro ⟨value, hvalue, hd⟩
    cases value <;> cases hd
    exact hvalue
  · exact fun h => ⟨_, h, rfl⟩

theorem keyedServer_eq_some {s : Dict} {p : KeyedServer} (h : keyedServer s = some p) : p.entry = s := by
  unfold keyedServer at h
  split at h
  · obtain rfl := Option.some.inj h
    rfl
  · cases h

theorem isSome_keyedServer (s : Dict) :
    (keyedServer s).isSome = (pyKey (s.get "id")).isSome := by
  unfold keyedServer
  split <;> simp_all

section Lookups
variable {servers ranked : List JsonValue} {pool : List KeyedServer} {rows : List ProbeRow}

theorem exists_poolServers : (∃ pool, keyedServers servers = some pool) ↔
    ∀ s ∈ pooledDicts servers, (pyKey (s.get "id")).isSome = true := by
  rw [← Option.isSome_iff_exists, keyedServers, isSome_mapM]
  simp only [isSome_keyedServer]

theorem exists_rankedRows : (∃ rows, rankedRows ranked = some rows) ↔
    ∀ row ∈ dictsOf ranked, (pyKey (row.get "id")).isSome = true := by
  rw [← Option.isSome_iff_exists, rankedRows, isSome_mapM]
  simp only [Option.isSome_map]

theorem input_of_poolServers (h : keyedServers servers = some pool) {p : KeyedServer} (hp : p ∈ pool) :
    .obj p.entry ∈ servers := by
  obtain ⟨s, hs, hsp⟩ := exists_of_mem_mapM h hp
  rw [keyedServer_eq_some hsp]
  exact mem_dictsOf.mp (List.mem_of_mem_filter hs)

theorem ids_poolServers (h : keyedServers servers = some pool) :
    pool.map (·.id) = serverIds servers := by
  unfold keyedServers at h
  unfold serverIds
  generalize pooledDicts servers = dicts at h
  induction forall₂_of_mapM h with
  | nil => rfl
  | @cons s p dicts pool hs hall ih =>
    have hid : pyKey (s.get "id") = some p.id := keyedServer_eq_some hs ▸ p.key_id
    simp [hid, ih (mapM_of_forall₂ hall)]

theorem ids_rankedRows (h : rankedRows ranked = some rows) :
    (rows.filter (·.alive)).map (·.id) = aliveIds ranked := by
  unfold rankedRows at h
  unfold aliveIds
  generalize dictsOf ranked = dicts at h
  induction forall₂_of_mapM h with
  | nil => rfl
  | @cons row r dicts rows hr hall ih =>
    obtain ⟨id, hid, rfl⟩ := Option.map_eq_some_iff.mp hr
    have hrest := ih (mapM_of_forall₂ hall)
    by_cases halive : (row.get "alive").truthy = true
    · simp [halive, hid, hrest]
    · simp [halive, hrest]

theorem byId_eq_some {id : PyKey} {p : KeyedServer} (h : byId pool id = some p) :
    p ∈ pool ∧ p.id = id :=
  ⟨List.mem_reverse.mp (List.mem_of_find?_eq_some h), by simpa using List.find?_some h⟩

theorem isSome_byId {id : PyKey} : (byId pool id).isSome = true ↔ id ∈ pool.map (·.id) := by
  simp [byId, List.find?_isSome]

/-! ## The two loops -/

theorem mem_aliveServers {p : KeyedServer} (hp : p ∈ aliveServers pool rows) : p ∈ pool := by
  obtain ⟨row, -, hrow⟩ := List.mem_filterMap.mp hp
  split at hrow
  · exact (byId_eq_some hrow).1
  · cases hrow

theorem ids_aliveServers (pool : List KeyedServer) (rows : List ProbeRow) :
    (aliveServers pool rows).map (·.id) =
      ((rows.filter (·.alive)).map (·.id)).filter (· ∈ pool.map (·.id)) := by
  unfold aliveServers
  induction rows with
  | nil => rfl
  | cons row rows ih =>
    by_cases halive : row.alive = true
    · have hthere : row.id ∈ pool.map (·.id) ↔ (byId pool row.id).isSome = true := isSome_byId.symm
      cases hfound : byId pool row.id with
      | none =>
        rw [hfound] at hthere
        have habsent : row.id ∉ pool.map (·.id) := fun hmem => by cases hthere.mp hmem
        simp only [List.filterMap_cons, List.filter_cons, halive, hfound, if_true, List.map_cons,
          habsent, decide_false, ih]
        rfl
      | some p =>
        have hmem : row.id ∈ pool.map (·.id) := hthere.mpr (by rw [hfound]; rfl)
        simp only [List.filterMap_cons, List.filter_cons, halive, hfound, if_true, List.map_cons,
          hmem, decide_true, ih, (byId_eq_some hfound).2]
    · rw [Bool.not_eq_true] at halive
      simp [halive, ih]

theorem mem_appendOthers {ordered : List KeyedServer} {orderedIds : List PyKey} {p : KeyedServer}
    (hp : p ∈ appendOthers ordered orderedIds pool) : p ∈ ordered ∨ p ∈ pool := by
  induction pool generalizing ordered orderedIds with
  | nil => exact Or.inl hp
  | cons s pool ih =>
    unfold appendOthers at hp
    split at hp
    · exact (ih hp).imp_right (List.mem_cons_of_mem s)
    · rcases ih hp with hp | hp
      · rcases List.mem_append.mp hp with hp | hp
        · exact Or.inl hp
        · exact Or.inr (List.mem_singleton.mp hp ▸ List.mem_cons_self)
      · exact Or.inr (List.mem_cons_of_mem s hp)

theorem ids_appendOthers (ordered : List KeyedServer) :
    (appendOthers ordered (ordered.map (·.id)) pool).map (·.id) =
      addNew (ordered.map (·.id)) (pool.map (·.id)) := by
  induction pool generalizing ordered with
  | nil => rfl
  | cons s pool ih =>
    have hnext := ih (ordered ++ [s])
    rw [List.map_append] at hnext
    rw [appendOthers, List.map_cons, addNew]
    split
    · exact ih ordered
    · exact hnext

theorem orderPoolByRank_eq (hpool : keyedServers servers = some pool)
    (hrows : rankedRows ranked = some rows) :
    orderPoolByRank servers ranked = some (appendOthers (aliveServers pool rows)
      ((aliveServers pool rows).map (·.id)) pool) := by
  rw [orderPoolByRank, hpool, hrows]
  rfl

/-- **The ids of the whitelist.**  The alive rows of the pool as they come, repeats and
all, and what is new behind them. -/
theorem ids_orderPoolByRank {out : List KeyedServer} (h : orderPoolByRank servers ranked = some out) :
    out.map (·.id) =
      addNew ((aliveIds ranked).filter (· ∈ serverIds servers)) (serverIds servers) := by
  obtain ⟨pool, hpool, hrest⟩ := Option.bind_eq_some_iff.mp h
  obtain ⟨rows, hrows, -⟩ := Option.bind_eq_some_iff.mp hrest
  obtain rfl := Option.some.inj ((orderPoolByRank_eq hpool hrows).symm.trans h)
  rw [ids_appendOthers, ids_aliveServers, ids_rankedRows hrows, ids_poolServers hpool]

theorem input_of_orderPoolByRank {out : List KeyedServer}
    (h : orderPoolByRank servers ranked = some out) {s : KeyedServer} (hs : s ∈ out) :
    .obj s.entry ∈ servers := by
  obtain ⟨pool, hpool, hrest⟩ := Option.bind_eq_some_iff.mp h
  obtain ⟨rows, hrows, -⟩ := Option.bind_eq_some_iff.mp hrest
  obtain rfl := Option.some.inj ((orderPoolByRank_eq hpool hrows).symm.trans h)
  exact input_of_poolServers hpool ((mem_appendOthers hs).elim mem_aliveServers id)

end Lookups

/-! ## When the order is a permutation -/

/-- **The order of the whitelist.**  Every server stands in it once, the alive ones first
in the order of their first alive row and the others as they stood, exactly when the ids
can be keys and no server of the pool has two alive rows. -/
theorem order_pool_by_rank_iff (servers ranked : List JsonValue) :
    (∃ out, orderPoolByRank servers ranked = some out ∧ RankOrdered servers ranked out) ↔
      RankedOnce servers ranked := by
  constructor
  · rintro ⟨out, hout, hordered⟩
    obtain ⟨pool, hpool, hrest⟩ := Option.bind_eq_some_iff.mp hout
    obtain ⟨rows, hrows, -⟩ := Option.bind_eq_some_iff.mp hrest
    refine ⟨exists_poolServers.mp ⟨pool, hpool⟩, exists_rankedRows.mp ⟨rows, hrows⟩, ?_⟩
    obtain ⟨r, hr, -⟩ := addNew_eq ((aliveIds ranked).filter (· ∈ serverIds servers)) (serverIds servers)
    have hnodup := hordered.nodup
    rw [ids_orderPoolByRank hout, hr] at hnodup
    exact (List.nodup_append.mp hnodup).1
  · intro honce
    obtain ⟨pool, hpool⟩ := exists_poolServers.mpr honce.server_keys
    obtain ⟨rows, hrows⟩ := exists_rankedRows.mpr honce.row_keys
    have hout := orderPoolByRank_eq hpool hrows
    have hids := ids_orderPoolByRank hout
    refine ⟨_, hout, fun s => input_of_orderPoolByRank hout, ?_, fun id => ?_, ?_⟩
    · rw [hids]
      exact nodup_addNew honce.once
    · rw [hids, mem_addNew, List.mem_filter, decide_eq_true_iff]
      exact ⟨fun h => h.elim And.right fun hserver => hserver, Or.inr⟩
    · obtain ⟨rest, hrest, -, hnew⟩ := addNew_eq ((aliveIds ranked).filter (· ∈ serverIds servers))
        (serverIds servers)
      obtain ⟨rest', hrest', horder⟩ := addNew_ordered
        ((aliveIds ranked).filter (· ∈ serverIds servers)) (serverIds servers)
      obtain rfl : rest = rest' := List.append_cancel_left (hrest.symm.trans hrest')
      refine ⟨_, rest, hids.trans hrest, fun id hid => List.mem_of_mem_filter hid, ?_,
        filter_ordered honce.once, horder⟩
      intro id hid halive
      obtain ⟨hserver, hother⟩ := (hnew id).mp hid
      exact hother (List.mem_filter.mpr ⟨halive, decide_eq_true hserver⟩)

def twoPooled : List JsonValue := [.obj [("id", .str "s1")], .obj [("id", .str "s2")]]

/-- A ranking that names a server twice. -/
def doubledRanking : List JsonValue :=
  [.obj [("id", .str "s2"), ("alive", .bool true)], .obj [("id", .str "s2"), ("alive", .bool true)]]

/-- A server with two alive rows stands in the pool twice. -/
theorem doubled_row_doubles_server :
    (orderPoolByRank twoPooled doubledRanking).map (fun out => out.map (·.id)) =
        some [.text "s2", .text "s2", .text "s1"] ∧
      ¬ ∃ out, orderPoolByRank twoPooled doubledRanking = some out ∧
        RankOrdered twoPooled doubledRanking out := by
  have hout : (orderPoolByRank twoPooled doubledRanking).map (fun out => out.map (·.id)) =
      some [.text "s2", .text "s2", .text "s1"] := by decide
  refine ⟨hout, ?_⟩
  rintro ⟨out, h, hordered⟩
  rw [h] at hout
  have hids : out.map (·.id) = [.text "s2", .text "s2", .text "s1"] := Option.some.inj hout
  have hnodup := hordered.nodup
  rw [hids] at hnodup
  exact absurd hnodup (by decide)

end HamZaboon
