import HamZaboon.Egress.Leases
import HamZaboon.Egress.Proving
import HamZaboon.Library.Json
import HamZaboon.Library.Ranking
import HamZaboon.Texts.PyFloat

/-! # The provider cycle

`run_cycle` (`factory/net/provider_cycle.py`) over the selector of
`factory/net/tunnel_selection.py`: cached rows, a snapshot of the pool, pings, checks,
the cooling of exits whose quota is used up, and the row of the winner.  What the
injected functions return or raise is given for each exit; a cycle asks each of them
once for an exit.
-/

namespace HamZaboon
open Library

variable {E : Type}

structure CycleLib extends StrLib where
  /-- `float(value)`; `none` where it raises. -/
  float : JsonValue → Option PyFloat
  /-- `int(value)`; `none` where it raises. -/
  int : JsonValue → Option Int

/-! ## Rows of the pool -/

inductive PoolRow
  | text (value : String)
  | dict (entries : Dict)
  /-- Any other value, with the `id` and `source` that are read of it. -/
  | object (id source : JsonValue)

def textOr : JsonValue → String
  | .str value => value
  | _ => ""

def PoolRow.rowId : PoolRow → String
  | .text value => value
  | .dict entries => textOr (entries.get "id")
  | .object id _ => textOr id

/-- `_row_source`; a text has no source. -/
def PoolRow.rowSource (lib : StrLib) : PoolRow → String
  | .text _ => ""
  | .dict entries => lib.lower (textOr (entries.get "source"))
  | .object _ source => lib.lower (textOr source)

def dedupRows (rows : List PoolRow) : List PoolRow :=
  rows.foldl (fun out row =>
    if row.rowId = "" || out.any (·.rowId = row.rowId) then out else out ++ [row]) []

def paidSourceTag : String := "paid"

def orderPaidFirst (lib : StrLib) (rows : List PoolRow) : List PoolRow :=
  rows.filter (fun row => row.rowSource lib = paidSourceTag) ++
    rows.filter fun row => row.rowSource lib ≠ paidSourceTag

/-- The id that `refresh_candidates` takes of a row. -/
def PoolRow.candidateId : PoolRow → String
  | .text value => value
  | .dict entries => textOr (entries.get "id")
  | .object .. => ""

def refreshCandidates (lib : StrLib) (poolRows : List PoolRow) : List String :=
  (orderPaidFirst lib (dedupRows poolRows)).foldl (fun ids row =>
    if row.candidateId ≠ "" ∧ row.candidateId ∉ ids then ids ++ [row.candidateId] else ids) []

/-! ## The selector -/

/-- `Selection`; no lease is taken. -/
structure Selection where
  exitId : String
  whitelisted : Bool
  servedFrom : String
  deriving DecidableEq, Repr

/-- `TunnelSelector.select`; `none` is `NoTunnelExit`. -/
def select (lib : StrLib) (store refresh : String → Except E (List PoolRow)) (provider : String) :
    Option Selection :=
  if provider = "" then none
  else
    let cached := (store provider).toOption.getD []
    match (cached.map (·.rowId)).find? (· ≠ "") with
    | some exitId => some ⟨exitId, true, "cache"⟩
    | none =>
      match refresh provider with
      | .error _ => none
      | .ok raw =>
        (((orderPaidFirst lib (dedupRows raw)).map (·.rowId)).find? (· ≠ "")).map
          fun exitId => ⟨exitId, false, "subscription"⟩

/-- `_CycleSource(ids).refresh()`. -/
def cycleSource (ids : List String) : List PoolRow :=
  (ids.filter (· ≠ "")).map fun sid => .dict [("id", .str sid), ("source", .str paidSourceTag)]

/-! ## The injected functions -/

structure CycleStore (E : Type) where
  read : String → Except E (List JsonValue)
  write : String → List Dict → Except E Unit

/-- What a cycle is called with besides the provider. -/
structure CycleCall (E : Type) where
  store : Option (CycleStore E)
  poolFn : Except E (List PoolRow)
  pingFn : String → Except E JsonValue
  /-- The verdict and the info; anything else that is returned raises in `_check`. -/
  checkFn : String → Except E (JsonValue × JsonValue)
  rememberFn : String → String → Rat → Except E Unit
  keyName : String
  batch : JsonValue
  keep : JsonValue
  tunneled : List String

/-- A state of the machine, as it is reported. -/
inductive CycleState
  | cacheCheck (provider : String) (hit : Bool) (cached : Nat) (keyName : String)
  | refresh (provider : String) (raw unique : Nat) (candidates : List String) (tunneled : Bool)
  | ping (provider : String) (pinged reachable : Nat) (latencies : List (String × Rat))
  | prove (provider : String) (batch : Int) (keep : Option Int) (order : List String)
      (proof : Proof String)
  | remember (provider exit : String) (latencyMs : Option Rat) (written : Bool)
      (remembered : Option Bool)
  | done (provider : String) (winner : Option String) (count : Nat) (cacheHit : Bool)
      (error : Option String)

/-- `state["state"]`. -/
def CycleState.name : CycleState → String
  | cacheCheck .. => "cache_check"
  | refresh .. => "refresh"
  | ping .. => "ping"
  | prove .. => "prove"
  | remember .. => "remember"
  | done .. => "done"

/-- `STATES`. -/
def cycleStates : List String := ["cache_check", "refresh", "ping", "prove", "remember", "done"]

/-- What a cycle returns, and what it called the injected functions with. -/
structure CycleRun where
  provider : String
  winner : Option String
  payload : JsonValue
  count : Nat
  error : Option String
  cacheHit : Bool
  states : List CycleState
  linesFa : List String
  /-- The exits `check_fn` was called with. -/
  checked : List String := []
  /-- The calls of `cool_fn`, whose errors are swallowed. -/
  cooled : List (String × String × JsonValue) := []
  /-- The call of `store.write`. -/
  write : Option (String × List Dict) := none

namespace CycleLib
variable (lib : CycleLib)

def latencyNumber (value : JsonValue) : Rat :=
  match lib.float value with
  | some (.finite ms) => ms
  | _ => 0

def safeBatch (batch : JsonValue) : Int := (lib.int (if batch.truthy then batch else .int 5)).getD 5

/-! ## The lines of the interface -/

def faLine (name : String) : CycleState → String
  | .cacheCheck _ hit cached _ =>
    if hit then "چرخه " ++ name ++ ": حافظه: برخورد (" ++ toString cached ++ " مورد)"
    else "چرخه " ++ name ++ ": حافظه: عدم برخورد (" ++ toString cached ++ " مورد)"
  | .refresh _ raw unique _ _ =>
    "چرخه " ++ name ++ ": تازه‌سازی: " ++ toString unique ++ " خروجی از " ++ toString raw ++ " ردیف"
  | .ping _ pinged reachable _ =>
    "چرخه " ++ name ++ ": پینگ: " ++ toString reachable ++ " از " ++ toString pinged ++ " در دسترس"
  | .prove _ batch _ order proof =>
    "چرخه " ++ name ++ ": اثبات: " ++ toString proof.clean.length ++ " تمیز از " ++
      toString order.length ++ " (بسته‌های " ++ toString batch ++ "تایی)"
  | .remember _ exit latencyMs _ _ =>
    let ms := lib.latencyNumber (.float (latencyMs.getD 0))
    if exit ≠ "" then
      "چرخه " ++ name ++ ": یادآوری: " ++ exit ++ " (" ++ toString (ms.num.tdiv ms.den) ++
        " میلی‌ثانیه)"
    else "چرخه " ++ name ++ ": یادآوری: بدون برنده (ثبت نشد)"
  | .done _ winner count _ error =>
    if winner.getD "" ≠ "" then
      "چرخه " ++ name ++ ": نتیجه: " ++ toString count ++ " مدل روی " ++ winner.getD ""
    else
      "چرخه " ++ name ++ ": نتیجه: توقف (" ++
        (if error.getD "" ≠ "" then error.getD "" else "بدون خروجی") ++ ")"

/-- `build_fa_lines`, of the states that a cycle reports: one of each name, in order. -/
def buildFaLines (provider : String) (states : List CycleState) : List String :=
  let name := lib.normProvider (some provider)
  states.map (lib.faLine (if name ≠ "" then name else provider))

end CycleLib

def cycleDepth : JsonValue → Int
  | .int keep => if keep ≤ 0 then 1 else keep
  | _ => 1

/-- `len(payload)`, or 0. -/
def payloadCount : JsonValue → Nat
  | .str value => value.length
  | .arr items => items.length
  | .obj entries => entries.length
  | _ => 0

namespace CycleCall
variable (lib : CycleLib) (call : CycleCall E)

def cachedRows (want : String) : List Dict :=
  (((call.store.elim (.ok []) (·.read want)).toOption.getD []).filterMap fun
    | .obj row => some row
    | _ => none)

def hitId (want : String) : String :=
  (((call.cachedRows want).map fun row => textOr (row.get "id")).find? (· ≠ "")).getD ""

/-- The rows of the pool, none where `pool_fn` raises. -/
def poolRows : List PoolRow := call.poolFn.toOption.getD []

def candidates (want : String) : List String :=
  let candidates := refreshCandidates lib.toStrLib call.poolRows
  let hit := call.hitId want
  if hit ≠ "" ∧ hit ∈ candidates then hit :: candidates.filter (· ≠ hit) else candidates

def latency (exit : String) : Option Rat :=
  match call.pingFn exit with
  | .ok .null => none
  | .ok ms => some (lib.latencyNumber ms)
  | .error _ => none

def pingOrder (candidates : List String) : List String :=
  sortBy (fun exit => (call.latency lib exit).getD 0)
      (candidates.filter fun exit => (call.latency lib exit).isSome) ++
    candidates.filter fun exit => (call.latency lib exit).isNone

/-- What `_check` leaves in the side table. -/
def checkInfo (exit : String) : Dict :=
  match call.checkFn exit with
  | .ok (_, .obj info) => info
  | _ => [("http", .null)]

/-- What `_check` returns. -/
def checkVerdict (exit : String) : String :=
  match call.checkFn exit with
  | .ok (.str verdict, _) =>
    if verdict = "clean" then "clean" else if verdict = "blocked" then "blocked" else "unknown"
  | _ => "unknown"

/-- The order in which the exits are proved: the selector's choice first. -/
def proveOrder (want : String) (order : List String) : List String :=
  match select (E := E) lib.toStrLib (fun _ => .ok []) (fun _ => .ok (cycleSource order)) want with
  | some selection => selection.exitId :: order.filter (· ≠ selection.exitId)
  | none => order

/-- The code of an exit in the side table. -/
def httpCode (infos : List (String × Dict)) (exit : String) : JsonValue :=
  Dict.get ((infos.lookup exit).getD []) "http"

def quotaHttpCode : JsonValue := .int 429

/-- The row of the winner before the cached rows of the other exits. -/
def mergedRows (cached : List Dict) (winner : String) (latency : Rat) : List Dict :=
  [("id", .str winner), ("latency_ms", .float latency)] ::
    cached.filter fun row => !(row.get "id").pyEq (.str winner)

/-- The end of a cycle without a winner. -/
def park (want error : String) (states : List CycleState) (checked : List String)
    (cooled : List (String × String × JsonValue)) : CycleRun :=
  let states := states ++
    [.remember want "" none false none, .done want none 0 false (some error)]
  { provider := want
    winner := none
    payload := .null
    count := 0
    error := some error
    cacheHit := false
    states := states
    linesFa := lib.buildFaLines want states
    checked := checked
    cooled := cooled }

def serve (want winner : String) (info : Dict) (states : List CycleState) (checked : List String)
    (cooled : List (String × String × JsonValue)) : CycleRun :=
  let payload := info.get "payload"
  let count := payloadCount payload
  let latency := lib.latencyNumber ((info.lookup "latency_ms").getD (.float 0))
  let merged := mergedRows (call.cachedRows want) winner latency
  let written := call.store.elim false fun store => (store.write want merged).toBool
  let remembered := (call.rememberFn winner want latency).toBool
  let cacheHit := call.hitId want ≠ "" && winner = call.hitId want
  let states := states ++ [.remember want winner (some latency) written (some remembered),
    .done want (some winner) count cacheHit none]
  { provider := want
    winner := some winner
    payload := payload
    count := count
    error := none
    cacheHit := cacheHit
    states := states
    linesFa := lib.buildFaLines want states
    checked := checked
    cooled := cooled
    write := call.store.map fun _ => (want, merged) }

def runCycle (provider : Option String) : CycleRun :=
  let want := lib.normProvider provider
  let cached := call.cachedRows want
  let candidates := call.candidates lib want
  let width := lib.safeBatch call.batch
  let states := [
    .cacheCheck want (call.hitId want ≠ "") cached.length call.keyName,
    .refresh want call.poolRows.length candidates.length candidates (want ∈ call.tunneled)]
  if candidates.isEmpty then
    park lib want "no exit available (pool empty)"
      (states ++ [.ping want 0 0 [], .prove want width none [] {}]) [] []
  else
    let latencies := candidates.filterMap fun exit => (call.latency lib exit).map (exit, ·)
    let order := call.pingOrder lib candidates
    let width := if width ≤ 0 then (order.length : Int) else width
    let depth := cycleDepth call.keep
    let ordered := proveOrder (E := E) lib want order
    let proving := proveWith (E := E) (fun exit => .ok (call.checkVerdict exit)) width depth ordered
    let infos := proving.calls.map fun exit => (exit, call.checkInfo exit)
    let cooled := (ordered.filter fun exit =>
      (httpCode infos exit).pyEq quotaHttpCode && exit ∉ proving.proof.clean).map
        fun exit => (exit, want, httpCode infos exit)
    let states := states ++ [.ping want candidates.length latencies.length latencies,
      .prove want width (some depth) ordered proving.proof]
    match proving.proof.clean.head?.filter (· ≠ "") with
    | some winner =>
      call.serve lib want winner ((infos.lookup winner).getD []) states proving.calls cooled
    | none =>
      park lib want "no clean exit (all blocked or unknown)" states proving.calls cooled

end CycleCall

end HamZaboon
