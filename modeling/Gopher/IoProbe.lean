import Gopher.Lib.BpfMap
import Gopher.Lib.Running
import Gopher.Lib.Text
import Mathlib.Algebra.BigOperators.Group.List.Basic
import Mathlib.Data.Nat.Dist
import Mathlib.Logic.Function.Basic
import Mathlib.Order.Lattice.Nat
import Mathlib.Order.Nat

namespace Gopher.IoProbe

open Lib

def IO_ENTRIES_MAX : ℕ := 5 * 1024
def IO_LATENCY_ENTRIES_MAX : ℕ := 100
def DEFAULT_REPORT_PERIOD : UInt64 := 30 * 1000000000

inductive IoIssue
  | issueStart | issueDriver | issueDevice | issueDeviceEnd | issueEnd
  deriving DecidableEq, Repr

inductive IoStage
  | block | driver | device
  deriving DecidableEq, Repr

structure IoEntity where
  major : Int32
  firstMinor : Int32
  deriving DecidableEq

structure LatencyStats where
  max : UInt64
  last : UInt64
  sum : UInt64
  jitter : UInt64
  count : UInt32
  deriving DecidableEq

structure IoTrace where
  entity : IoEntity
  procId : UInt32
  comm : Text
  rwbs : Text
  dataLen : UInt32
  ts : IoIssue → UInt64

-- `ts` is the time of `io_latency_ts`.
structure IoLatency where
  ts : UInt64
  entity : IoEntity
  procId : UInt32
  comm : Text
  rwbs : Text
  dataLen : UInt32
  latency : IoStage → LatencyStats

structure IoTraceArgs where
  target : IoEntity
  reportPeriod : UInt64
  sampleInterval : UInt64

-- The maps that the programs share. The two arrays have their one element from the start,
-- so that looking it up does not fail. A request is known by its address.
structure Maps where
  ioArgsMap : IoTraceArgs
  ioSampleMap : UInt64
  ioTraceMap : BpfMap UInt64 IoTrace
  ioLatencyMap : BpfMap IoEntity IoLatency

-- What is read of a `struct request`.
structure Request where
  rqDisk : Option IoEntity
  cmdFlags : UInt32
  dataLen : UInt32
  startTimeNs : UInt64

structure Task where
  pidTgid : UInt64
  comm : Text

section Stats

def initLatencyStats (delta : UInt64) : LatencyStats :=
  { max := delta, last := delta, sum := delta, jitter := 0, count := 1 }

def calcLatencyStats (stats : LatencyStats) (delta : UInt64) : LatencyStats :=
  let jitter := if stats.last > delta then stats.last - delta else delta - stats.last
  { max := if stats.max > delta then stats.max else delta
    sum := stats.sum + delta
    jitter := if jitter > stats.jitter then jitter else stats.jitter
    count := stats.count + 1
    last := delta }

-- The times between which a stage lasts.
def IoStage.begins : IoStage → IoIssue
  | block => .issueStart
  | driver => .issueStart
  | device => .issueDevice

def IoStage.ends : IoStage → IoIssue
  | block => .issueEnd
  | driver => .issueDevice
  | device => .issueDeviceEnd

def delta (stage : IoStage) (ioTrace : IoTrace) : UInt64 :=
  ioTrace.ts stage.ends - ioTrace.ts stage.begins

def calcLatency (ioLatency : IoLatency) (ioTrace : IoTrace) : IoLatency :=
  let lastIoLatency := (ioLatency.latency .block).max
  let init := (ioLatency.latency .block).max = 0
  let ioLatency :=
    { ioLatency with
      latency := fun stage =>
        if init then initLatencyStats (delta stage ioTrace)
        else calcLatencyStats (ioLatency.latency stage) (delta stage ioTrace) }
  if delta .block ioTrace > lastIoLatency then
    { ioLatency with
      procId := ioTrace.procId
      dataLen := ioTrace.dataLen
      comm := ioTrace.comm
      rwbs := ioTrace.rwbs }
  else ioLatency

def isNormalIoTrace (ioTrace : IoTrace) : Bool :=
  if ioTrace.ts .issueStart = 0 then false
  else if ioTrace.ts .issueDriver = 0 then false
  else if ioTrace.ts .issueDevice = 0 then false
  else if ioTrace.ts .issueDeviceEnd = 0 then false
  else if ioTrace.ts .issueEnd = 0 then false
  else if ioTrace.ts .issueEnd ≤ ioTrace.ts .issueStart then false
  else if ioTrace.ts .issueDevice ≤ ioTrace.ts .issueStart then false
  else if ioTrace.ts .issueDeviceEnd ≤ ioTrace.ts .issueDevice then false
  else true

end Stats

section Report

def getReportPeriod (args : IoTraceArgs) : UInt64 :=
  if args.reportPeriod ≠ 0 then args.reportPeriod else DEFAULT_REPORT_PERIOD

-- `is_report_tmout`, with the time that is left in the record. One of its two branches
-- reads the clock.
def isReportTmout (args : IoTraceArgs) (now ts : UInt64) : Bool × UInt64 :=
  if ts = 0 then (false, now)
  else if now > ts ∧ now - ts ≥ getReportPeriod args then (true, ts)
  else (false, ts)

def noStats : LatencyStats := { max := 0, last := 0, sum := 0, jitter := 0, count := 0 }

-- The record that is kept, and the one that is sent.
def reportIoLatency (args : IoTraceArgs) (now : UInt64) (ioLatency : IoLatency) :
    IoLatency × Option IoLatency :=
  let (tmout, ts) := isReportTmout args now ioLatency.ts
  let ioLatency := { ioLatency with ts }
  if tmout then
    ({ ioLatency with
        procId := 0
        dataLen := 0
        ts := 0
        comm := []
        rwbs := []
        latency := fun _ => noStats }, some ioLatency)
  else (ioLatency, none)

end Report

section Traces

def isSampleTmout (currentTs : UInt64) (maps : Maps) : Bool × Maps :=
  let sampleInterval := maps.ioArgsMap.sampleInterval
  if sampleInterval = 0 then (true, maps)
  else if maps.ioSampleMap = 0 then (true, { maps with ioSampleMap := currentTs })
  else if maps.ioSampleMap < currentTs ∧ currentTs - maps.ioSampleMap ≥ sampleInterval then
    (true, { maps with ioSampleMap := currentTs })
  else (false, maps)

def isTargetDev (args : IoTraceArgs) (entity : IoEntity) : Bool :=
  if args.target.major ≠ 0 then args.target = entity else true

def blkFillRwbs (op : UInt32) : Text :=
  let flag (bit : UInt32) (char : Char) : Char := if op &&& (1 <<< bit) ≠ 0 then char else '#'
  let first :=
    match (op &&& 0xff).toNat with
    | 1 | 7 => 'W'
    | 3 => 'D'
    | 5 => 'E'
    | 2 => 'F'
    | 0 => 'R'
    | _ => 'N'
  [first, flag 17 'F', flag 19 'A', flag 11 'S', flag 12 'M']

-- The pointer to an element is its key, with the value that it has.
def lkupIoTrace (req : Option UInt64) (maps : Maps) : Option (UInt64 × IoTrace) := do
  let ioReq ← req
  let ioTrace ← maps.ioTraceMap.lookup ioReq
  return (ioReq, ioTrace)

def Maps.putTrace (maps : Maps) (ioReq : UInt64) (ioTrace : IoTrace) : Maps :=
  { maps with ioTraceMap := maps.ioTraceMap.update IO_ENTRIES_MAX ioReq ioTrace }

def newIoTrace (entity : IoEntity) (request : Request) (task : Task) : IoTrace :=
  let procId := (task.pidTgid >>> 32).toUInt32
  { entity
    procId
    comm := if procId ≠ 0 then task.comm else []
    rwbs := blkFillRwbs request.cmdFlags
    dataLen := request.dataLen
    ts := fun _ => 0 }

def getIoTrace (req : Option UInt64) (request : Request) (task : Task) (now : UInt64)
    (maps : Maps) : Option (UInt64 × IoTrace) × Maps :=
  match req with
  | none => (none, maps)
  | some ioReq =>
      match lkupIoTrace req maps with
      | some found => (some found, maps)
      | none =>
          match isSampleTmout now maps with
          | (false, maps) => (none, maps)
          | (true, maps) =>
              match request.rqDisk with
              | none => (none, maps)
              | some entity =>
                  if isTargetDev maps.ioArgsMap entity then
                    let maps := maps.putTrace ioReq (newIoTrace entity request task)
                    (lkupIoTrace req maps, maps)
                  else (none, maps)

def IoTrace.setTs (ioTrace : IoTrace) (issue : IoIssue) (ts : UInt64) : IoTrace :=
  { ioTrace with ts := Function.update ioTrace.ts issue ts }

end Traces

section Hooks

def blockRqIssue (req : Option UInt64) (request : Request) (task : Task) (sampleNow now : UInt64)
    (maps : Maps) : Maps :=
  match getIoTrace req request task sampleNow maps with
  | (none, maps) => maps
  | (some (ioReq, ioTrace), maps) =>
      let ioTrace := ioTrace.setTs .issueStart request.startTimeNs
      let ioTrace := if ioTrace.ts .issueDriver = 0 then ioTrace.setTs .issueDriver now else ioTrace
      maps.putTrace ioReq (ioTrace.setTs .issueDevice now)

def nvmeSetupCmd (req : Option UInt64) (request : Request) (task : Task) (sampleNow now : UInt64)
    (maps : Maps) : Maps :=
  match getIoTrace req request task sampleNow maps with
  | (none, maps) => maps
  | (some (ioReq, ioTrace), maps) => maps.putTrace ioReq (ioTrace.setTs .issueDriver now)

def scsiDispatchCmd (req : Option UInt64) (now : UInt64) (maps : Maps) : Maps :=
  match lkupIoTrace req maps with
  | none => maps
  | some (ioReq, ioTrace) => maps.putTrace ioReq (ioTrace.setTs .issueDevice now)

def scsiDone (req : Option UInt64) (now : UInt64) (maps : Maps) : Maps :=
  match lkupIoTrace req maps with
  | none => maps
  | some (ioReq, ioTrace) => maps.putTrace ioReq (ioTrace.setTs .issueDeviceEnd now)

def blkMqCompleteRequest (req : Option UInt64) (now : UInt64) (maps : Maps) : Maps :=
  match lkupIoTrace req maps with
  | none => maps
  | some (ioReq, ioTrace) =>
      if ioTrace.ts .issueDeviceEnd = 0 then
        maps.putTrace ioReq (ioTrace.setTs .issueDeviceEnd now)
      else maps

def newIoLatency (entity : IoEntity) : IoLatency :=
  { ts := 0, entity, procId := 0, comm := [], rwbs := [], dataLen := 0,
    latency := fun _ => noStats }

def Maps.putLatency (maps : Maps) (entity : IoEntity) (ioLatency : IoLatency) : Maps :=
  { maps with
    ioLatencyMap := maps.ioLatencyMap.update IO_LATENCY_ENTRIES_MAX entity ioLatency }

-- The pointer to an element is the value, under the entity of the trace.
def getIoLatency (ioTrace : IoTrace) (maps : Maps) : Option IoLatency × Maps :=
  match maps.ioLatencyMap.lookup ioTrace.entity with
  | some ioLatency => (some ioLatency, maps)
  | none =>
      let maps := maps.putLatency ioTrace.entity (newIoLatency ioTrace.entity)
      (maps.ioLatencyMap.lookup ioTrace.entity, maps)

-- What happens to a device: a trace is completed, in the way the program leaves it, or a
-- record is sent.
inductive Item
  | completed (ioTrace : IoTrace)
  | reported (ioLatency : IoLatency)

def blockRqComplete (req : Option UInt64) (error : Int32) (now reportNow : UInt64) (maps : Maps) :
    Maps × List Item :=
  match lkupIoTrace req maps with
  | none => (maps, [])
  | some (ioReq, ioTrace) =>
      match getIoLatency ioTrace maps with
      | (none, maps) => (maps, [.completed ioTrace])
      | (some ioLatency, maps) =>
          let ioTrace := if error = 0 then ioTrace.setTs .issueEnd now else ioTrace
          let (maps, report) :=
            if error = 0 ∧ isNormalIoTrace ioTrace then
              let (ioLatency, report) :=
                reportIoLatency maps.ioArgsMap reportNow (calcLatency ioLatency ioTrace)
              (maps.putLatency ioTrace.entity ioLatency, report)
            else (maps, none)
          ({ maps with ioTraceMap := maps.ioTraceMap.delete ioReq },
            .completed ioTrace :: (report.map Item.reported).toList)

-- A run of one of the programs, or a new setting. `sampleNow`, `now` and `reportNow` are what
-- the clock says each time that it is read.
inductive Event
  | loadIoArgs (args : IoTraceArgs)
  | blockRqIssue (req : Option UInt64) (request : Request) (task : Task) (sampleNow now : UInt64)
  | nvmeSetupCmd (req : Option UInt64) (request : Request) (task : Task) (sampleNow now : UInt64)
  | scsiDispatchCmd (req : Option UInt64) (now : UInt64)
  | scsiDone (req : Option UInt64) (now : UInt64)
  | blkMqCompleteRequest (req : Option UInt64) (now : UInt64)
  | blockRqComplete (req : Option UInt64) (error : Int32) (now reportNow : UInt64)

def react (maps : Maps) : Event → Maps × List Item
  | .loadIoArgs args => ({ maps with ioArgsMap := args }, [])
  | .blockRqIssue req request task sampleNow now =>
      (blockRqIssue req request task sampleNow now maps, [])
  | .nvmeSetupCmd req request task sampleNow now =>
      (nvmeSetupCmd req request task sampleNow now maps, [])
  | .scsiDispatchCmd req now => (scsiDispatchCmd req now maps, [])
  | .scsiDone req now => (scsiDone req now maps, [])
  | .blkMqCompleteRequest req now => (blkMqCompleteRequest req now maps, [])
  | .blockRqComplete req error now reportNow => blockRqComplete req error now reportNow maps

-- The maps, and all that has happened to the devices.
structure Observed where
  maps : Maps
  items : List Item

def observe (observed : Observed) (event : Event) : Observed :=
  let (maps, items) := react observed.maps event
  ⟨maps, observed.items ++ items⟩

def noArgs : IoTraceArgs := { target := ⟨0, 0⟩, reportPeriod := 0, sampleInterval := 0 }

def initial : Observed :=
  ⟨{ ioArgsMap := noArgs, ioSampleMap := 0, ioTraceMap := [], ioLatencyMap := [] }, []⟩

end Hooks

section Folds

variable {stats : LatencyStats} {latencies : List ℕ}

-- What the statistics of a stage are for the latencies that it had.
structure Folds (stats : LatencyStats) (latencies : List ℕ) : Prop where
  max : stats.max.toNat = peak latencies
  last : stats.last.toNat = latencies.getLast?.getD 0
  sum : stats.sum.toNat = latencies.sum % 2 ^ 64
  jitter : stats.jitter.toNat = peak (changes Nat.dist latencies)
  count : stats.count.toNat = latencies.length % 2 ^ 32

theorem folds_noStats : Folds noStats [] := ⟨rfl, rfl, rfl, rfl, rfl⟩

theorem folds_initLatencyStats (delta : UInt64) :
    Folds (initLatencyStats delta) [delta.toNat] where
  max := (Nat.zero_max delta.toNat).symm
  last := rfl
  sum := (Nat.mod_eq_of_lt delta.toNat_lt).symm
  jitter := rfl
  count := rfl

theorem toNat_greater (a b : UInt64) : (if a > b then a else b).toNat = a.toNat ⊔ b.toNat := by
  split
  · rename_i hgt
    exact (Nat.max_eq_left (Nat.le_of_lt (UInt64.lt_iff_toNat_lt.mp hgt))).symm
  · rename_i hgt
    exact (Nat.max_eq_right (UInt64.le_iff_toNat_le.mp (UInt64.not_lt.mp hgt))).symm

theorem toNat_jitter (a b : UInt64) :
    (if a > b then a - b else b - a).toNat = Nat.dist a.toNat b.toNat := by
  split
  · rename_i hgt
    have hle := UInt64.le_of_lt hgt
    rw [UInt64.toNat_sub_of_le _ _ hle, Nat.dist_eq_sub_of_le_right (UInt64.le_iff_toNat_le.mp hle)]
  · rename_i hgt
    have hle := UInt64.not_lt.mp hgt
    rw [UInt64.toNat_sub_of_le _ _ hle, Nat.dist_eq_sub_of_le (UInt64.le_iff_toNat_le.mp hle)]

-- One more latency. The first one is not compared, so that there has to be one.
theorem Folds.calc (h : Folds stats latencies) (hne : latencies ≠ []) (delta : UInt64) :
    Folds (calcLatencyStats stats delta) (latencies ++ [delta.toNat]) where
  max := by
    rw [peak_concat, ← h.max]
    exact toNat_greater _ _
  last := by
    rw [List.getLast?_concat]
    rfl
  sum := by
    rw [List.sum_append, List.sum_singleton, Nat.add_mod, ← h.sum, Nat.mod_eq_of_lt delta.toNat_lt]
    exact UInt64.toNat_add _ _
  jitter := by
    have hlast : latencies.getLast? = some stats.last.toNat := by
      rw [h.last, List.getLast?_eq_some_getLast hne]
      rfl
    rw [peak_changes_concat _ _ _ hlast, ← h.jitter, ← toNat_jitter]
    exact (toNat_greater _ _).trans (Nat.max_comm _ _)
  count := by
    rw [List.length_append, List.length_singleton, Nat.add_mod, ← h.count]
    exact UInt32.toNat_add _ _

end Folds

section Stages

variable {ioTrace : IoTrace} {ioLatency : IoLatency} {traces : List IoTrace}

-- How long a stage took.
def stageLatency (stage : IoStage) (ioTrace : IoTrace) : ℕ :=
  (ioTrace.ts stage.ends).toNat - (ioTrace.ts stage.begins).toNat

theorem begins_lt_ends (h : isNormalIoTrace ioTrace = true) (stage : IoStage) :
    ioTrace.ts stage.begins < ioTrace.ts stage.ends := by
  simp only [isNormalIoTrace, Bool.if_false_left, Bool.and_eq_true, Bool.not_eq_eq_eq_not,
    Bool.not_true, decide_eq_false_iff_not] at h
  obtain ⟨-, -, -, -, -, hend, hdevice, hdeviceEnd, -⟩ := h
  cases stage with
  | block => exact UInt64.not_le.mp hend
  | driver => exact UInt64.not_le.mp hdevice
  | device => exact UInt64.not_le.mp hdeviceEnd

theorem toNat_delta (h : isNormalIoTrace ioTrace = true) (stage : IoStage) :
    (delta stage ioTrace).toNat = stageLatency stage ioTrace :=
  UInt64.toNat_sub_of_le _ _ (UInt64.le_of_lt (begins_lt_ends h stage))

theorem stageLatency_pos (h : isNormalIoTrace ioTrace = true) (stage : IoStage) :
    0 < stageLatency stage ioTrace :=
  Nat.sub_pos_of_lt (UInt64.lt_iff_toNat_lt.mp (begins_lt_ends h stage))

theorem not_normal_of_no_end (h : ioTrace.ts .issueEnd = 0) : isNormalIoTrace ioTrace = false := by
  unfold isNormalIoTrace
  rw [if_pos h]
  split_ifs <;> rfl

-- The statistics of all stages, for the same traces.
def Tracks (ioLatency : IoLatency) (traces : List IoTrace) : Prop :=
  ∀ stage, Folds (ioLatency.latency stage) (traces.map (stageLatency stage))

-- No block latency is zero, so that the greatest one says if there was a trace.
theorem Tracks.block_max_eq_zero_iff (h : Tracks ioLatency traces)
    (hnormal : ∀ ioTrace ∈ traces, isNormalIoTrace ioTrace = true) :
    (ioLatency.latency .block).max = 0 ↔ traces = [] := by
  rw [← UInt64.toNat_inj, (h .block).max, UInt64.toNat_zero]
  constructor
  · intro hpeak
    have hzero := peak_eq_bot_iff.mp hpeak
    refine List.eq_nil_iff_forall_not_mem.mpr fun ioTrace hmem => ?_
    have := stageLatency_pos (hnormal ioTrace hmem) .block
    have : stageLatency .block ioTrace = 0 := hzero _ (List.mem_map_of_mem hmem)
    omega
  · rintro rfl
    rfl

theorem calcLatency_latency (stage : IoStage) :
    (calcLatency ioLatency ioTrace).latency stage =
      if (ioLatency.latency .block).max = 0 then initLatencyStats (delta stage ioTrace)
      else calcLatencyStats (ioLatency.latency stage) (delta stage ioTrace) := by
  rw [calcLatency]
  dsimp only
  split <;> rfl

theorem calcLatency_entity : (calcLatency ioLatency ioTrace).entity = ioLatency.entity := by
  rw [calcLatency]
  dsimp only
  split <;> rfl

theorem Tracks.calc (h : Tracks ioLatency traces)
    (hnormal : ∀ ioTrace ∈ traces, isNormalIoTrace ioTrace = true)
    (hlast : isNormalIoTrace ioTrace = true) :
    Tracks (calcLatency ioLatency ioTrace) (traces ++ [ioTrace]) := by
  intro stage
  rw [calcLatency_latency, List.map_append, List.map_singleton, ← toNat_delta hlast]
  by_cases hempty : traces = []
  · rw [if_pos ((h.block_max_eq_zero_iff hnormal).mpr hempty), hempty]
    exact folds_initLatencyStats _
  · rw [if_neg fun hzero => hempty ((h.block_max_eq_zero_iff hnormal).mp hzero)]
    exact (h stage).calc (fun hnil => hempty (List.map_eq_nil_iff.mp hnil)) _

end Stages

section Reports

-- The traces that were completed on a device since its last report.
def addItem (entity : IoEntity) (traces : List IoTrace) : Item → List IoTrace
  | .completed ioTrace => if ioTrace.entity = entity then traces ++ [ioTrace] else traces
  | .reported ioLatency => if ioLatency.entity = entity then [] else traces

def sinceReport (entity : IoEntity) (items : List Item) : List IoTrace :=
  items.foldl (addItem entity) []

def normalSinceReport (entity : IoEntity) (items : List Item) : List IoTrace :=
  (sinceReport entity items).filter isNormalIoTrace

variable {entity : IoEntity} {items : List Item} {ioTrace : IoTrace}

theorem sinceReport_concat (item : Item) :
    sinceReport entity (items ++ [item]) = addItem entity (sinceReport entity items) item :=
  List.foldl_append

theorem isNormal_of_mem (h : ioTrace ∈ normalSinceReport entity items) :
    isNormalIoTrace ioTrace = true :=
  (List.mem_filter.mp h).2

theorem normal_completed_self (hnormal : isNormalIoTrace ioTrace = true) :
    normalSinceReport ioTrace.entity (items ++ [.completed ioTrace]) =
      normalSinceReport ioTrace.entity items ++ [ioTrace] := by
  rw [normalSinceReport, sinceReport_concat, addItem, if_pos rfl, List.filter_append,
    List.filter_singleton, hnormal]
  rfl

theorem normal_completed_of_ne (hne : ioTrace.entity ≠ entity) :
    normalSinceReport entity (items ++ [.completed ioTrace]) = normalSinceReport entity items := by
  rw [normalSinceReport, sinceReport_concat, addItem, if_neg hne, normalSinceReport]

theorem normal_completed_of_not (hnormal : isNormalIoTrace ioTrace = false) :
    normalSinceReport entity (items ++ [.completed ioTrace]) = normalSinceReport entity items := by
  by_cases heq : ioTrace.entity = entity
  · rw [normalSinceReport, sinceReport_concat, addItem, if_pos heq, List.filter_append,
      List.filter_singleton, hnormal]
    exact List.append_nil _
  · exact normal_completed_of_ne heq

theorem normal_reported_self (ioLatency : IoLatency) :
    normalSinceReport ioLatency.entity (items ++ [.reported ioLatency]) = [] := by
  rw [normalSinceReport, sinceReport_concat, addItem, if_pos rfl]
  rfl

theorem normal_reported_of_ne {ioLatency : IoLatency} (hne : ioLatency.entity ≠ entity) :
    normalSinceReport entity (items ++ [.reported ioLatency]) = normalSinceReport entity items := by
  rw [normalSinceReport, sinceReport_concat, addItem, if_neg hne, normalSinceReport]

end Reports

section Traces

variable {maps : Maps} {req : Option UInt64} {ioReq : UInt64} {ioTrace : IoTrace}

-- A trace that is kept has not ended.
structure Unended (maps : Maps) : Prop where
  nodup : (maps.ioTraceMap.map Prod.fst).Nodup
  noEnd : ∀ ioReq ioTrace, maps.ioTraceMap.lookup ioReq = some ioTrace → ioTrace.ts .issueEnd = 0

theorem lookup_of_lkupIoTrace (h : lkupIoTrace req maps = some (ioReq, ioTrace)) :
    maps.ioTraceMap.lookup ioReq = some ioTrace := by
  simp only [lkupIoTrace, Option.bind_eq_bind, Option.bind_eq_some_iff] at h
  obtain ⟨found, -, trace, hlookup, hpair⟩ := h
  cases hpair
  exact hlookup

theorem Unended.found (h : Unended maps) (hfound : lkupIoTrace req maps = some (ioReq, ioTrace)) :
    ioTrace.ts .issueEnd = 0 :=
  h.noEnd _ _ (lookup_of_lkupIoTrace hfound)

theorem Unended.putTrace (h : Unended maps) (hnoEnd : ioTrace.ts .issueEnd = 0) :
    Unended (maps.putTrace ioReq ioTrace) where
  nodup := BpfMap.nodup_update h.nodup
  noEnd other trace hlookup := by
    change BpfMap.lookup (BpfMap.update _ _ _ _) other = some trace at hlookup
    by_cases hfits : BpfMap.Fits IO_ENTRIES_MAX maps.ioTraceMap ioReq
    · rw [BpfMap.lookup_update hfits] at hlookup
      split_ifs at hlookup with heq
      · cases hlookup
        exact hnoEnd
      · exact h.noEnd other trace hlookup
    · rw [BpfMap.update_of_not_fits hfits] at hlookup
      exact h.noEnd other trace hlookup

theorem setTs_of_ne {issue : IoIssue} {ts : UInt64} (hne : issue ≠ .issueEnd) :
    (ioTrace.setTs issue ts).ts .issueEnd = ioTrace.ts .issueEnd :=
  Function.update_of_ne hne.symm _ _

theorem Unended.putTs {issue : IoIssue} (h : Unended maps) (hnoEnd : ioTrace.ts .issueEnd = 0)
    (hne : issue ≠ .issueEnd) (ts : UInt64) :
    Unended (maps.putTrace ioReq (ioTrace.setTs issue ts)) :=
  h.putTrace ((setTs_of_ne hne).trans hnoEnd)

theorem isSampleTmout_maps (now : UInt64) (maps : Maps) :
    (isSampleTmout now maps).2.ioTraceMap = maps.ioTraceMap ∧
      (isSampleTmout now maps).2.ioLatencyMap = maps.ioLatencyMap := by
  unfold isSampleTmout
  dsimp only
  split_ifs <;> exact ⟨rfl, rfl⟩

-- What a program that does not complete a request leaves.
structure Quiet (before after : Maps) : Prop where
  unended : Unended after
  latencies : after.ioLatencyMap = before.ioLatencyMap

theorem Quiet.refl (h : Unended maps) : Quiet maps maps := ⟨h, rfl⟩

theorem quiet_isSampleTmout (h : Unended maps) (now : UInt64) :
    Quiet maps (isSampleTmout now maps).2 := by
  obtain ⟨htraces, hlatencies⟩ := isSampleTmout_maps now maps
  refine ⟨⟨?_, ?_⟩, hlatencies⟩
  · rw [htraces]
    exact h.nodup
  · rw [htraces]
    exact h.noEnd

theorem quiet_getIoTrace (h : Unended maps) (req : Option UInt64) (request : Request) (task : Task)
    (now : UInt64) :
    Quiet maps (getIoTrace req request task now maps).2 ∧
      ∀ found, (getIoTrace req request task now maps).1 = some found →
        found.2.ts .issueEnd = 0 := by
  cases req with
  | none => exact ⟨.refl h, fun found hfound => nomatch hfound⟩
  | some ioReq =>
      rw [getIoTrace]
      cases hlkup : lkupIoTrace (some ioReq) maps with
      | some pair =>
          refine ⟨.refl h, fun found hfound => ?_⟩
          cases hfound
          exact h.found hlkup
      | none =>
          have hquiet := quiet_isSampleTmout h now
          rcases hsample : isSampleTmout now maps with ⟨tmout, sampled⟩
          rw [hsample] at hquiet
          cases tmout with
          | false => exact ⟨hquiet, fun found hfound => nomatch hfound⟩
          | true =>
              cases request.rqDisk with
              | none => exact ⟨hquiet, fun found hfound => nomatch hfound⟩
              | some entity =>
                  dsimp only
                  split
                  · have hput : Unended (sampled.putTrace ioReq (newIoTrace entity request task)) :=
                      hquiet.unended.putTrace rfl
                    exact ⟨⟨hput, hquiet.latencies⟩, fun found hfound => hput.found hfound⟩
                  · exact ⟨hquiet, fun found hfound => nomatch hfound⟩

-- A time that is stored through the pointer that a program got.
theorem quiet_got (h : Unended maps) (request : Request) (task : Task) (now : UInt64)
    (store : IoTrace → IoTrace)
    (hstore : ∀ ioTrace, (store ioTrace).ts .issueEnd = ioTrace.ts .issueEnd) :
    Quiet maps
      (match getIoTrace req request task now maps with
      | (none, maps) => maps
      | (some (ioReq, ioTrace), maps) => maps.putTrace ioReq (store ioTrace)) := by
  obtain ⟨hquiet, hfound⟩ := quiet_getIoTrace h req request task now
  rcases hget : getIoTrace req request task now maps with ⟨found, got⟩
  rw [hget] at hquiet hfound
  cases found with
  | none => exact hquiet
  | some pair =>
      exact ⟨hquiet.unended.putTrace ((hstore _).trans (hfound pair rfl)), hquiet.latencies⟩

theorem quiet_found (h : Unended maps) (store : UInt64 → IoTrace → Maps)
    (hstore : ∀ ioReq ioTrace, ioTrace.ts .issueEnd = 0 → Quiet maps (store ioReq ioTrace)) :
    Quiet maps
      (match lkupIoTrace req maps with
      | none => maps
      | some (ioReq, ioTrace) => store ioReq ioTrace) := by
  cases hlkup : lkupIoTrace req maps with
  | none => exact .refl h
  | some pair => exact hstore pair.1 pair.2 (h.found hlkup)

theorem quiet_putTs {issue : IoIssue} (h : Unended maps) (hne : issue ≠ .issueEnd)
    (ts : UInt64) (ioReq : UInt64) (ioTrace : IoTrace) (hnoEnd : ioTrace.ts .issueEnd = 0) :
    Quiet maps (maps.putTrace ioReq (ioTrace.setTs issue ts)) :=
  ⟨h.putTs hnoEnd hne ts, rfl⟩

end Traces

section Observed

variable {maps : Maps} {items : List Item}

-- What holds of the records of the devices, in the map and on their way.
structure Inv (observed : Observed) : Prop where
  unended : Unended observed.maps
  entity : ∀ entity ioLatency, observed.maps.ioLatencyMap.lookup entity = some ioLatency →
    ioLatency.entity = entity
  tracks : ∀ entity ioLatency, observed.maps.ioLatencyMap.lookup entity = some ioLatency →
    Tracks ioLatency (normalSinceReport entity observed.items)
  absent : ∀ entity, observed.maps.ioLatencyMap.lookup entity = none →
    normalSinceReport entity observed.items = []
  sent : ∀ earlier ioLatency, earlier ++ [.reported ioLatency] <+: observed.items →
    Tracks ioLatency (normalSinceReport ioLatency.entity earlier)

theorem Inv.quiet {after : Maps} (h : Inv ⟨maps, items⟩) (hquiet : Quiet maps after) :
    Inv ⟨after, items⟩ where
  unended := hquiet.unended
  entity entity ioLatency hlookup := by
    rw [hquiet.latencies] at hlookup
    exact h.entity entity ioLatency hlookup
  tracks entity ioLatency hlookup := by
    rw [hquiet.latencies] at hlookup
    exact h.tracks entity ioLatency hlookup
  absent entity hlookup := by
    rw [hquiet.latencies] at hlookup
    exact h.absent entity hlookup
  sent := h.sent

theorem sent_completed {earlier : List Item} {ioLatency : IoLatency} {ioTrace : IoTrace}
    (hearlier : earlier ++ [.reported ioLatency] <+: items ++ [.completed ioTrace]) :
    earlier ++ [.reported ioLatency] <+: items := by
  rcases List.prefix_concat_iff.mp hearlier with heq | hearlier
  · have := (List.append_inj' heq rfl).2
    cases this
  · exact hearlier

-- A trace that is not normal leaves everything as it is.
theorem Inv.completed (h : Inv ⟨maps, items⟩) {ioTrace : IoTrace}
    (hnormal : isNormalIoTrace ioTrace = false) :
    Inv ⟨maps, items ++ [.completed ioTrace]⟩ where
  unended := h.unended
  entity := h.entity
  tracks entity ioLatency hlookup := by
    rw [normal_completed_of_not hnormal]
    exact h.tracks entity ioLatency hlookup
  absent entity hlookup := by
    rw [normal_completed_of_not hnormal]
    exact h.absent entity hlookup
  sent earlier ioLatency hearlier := h.sent earlier ioLatency (sent_completed hearlier)

theorem lookup_putLatency {entity other : IoEntity} {ioLatency : IoLatency}
    (hfits : BpfMap.Fits IO_LATENCY_ENTRIES_MAX maps.ioLatencyMap entity) :
    (maps.putLatency entity ioLatency).ioLatencyMap.lookup other =
      if other = entity then some ioLatency else maps.ioLatencyMap.lookup other :=
  BpfMap.lookup_update hfits

-- A record is made, or changed.
theorem Inv.putLatency {more : List Item} {entity : IoEntity} {ioLatency : IoLatency}
    (h : Inv ⟨maps, items⟩)
    (hfits : BpfMap.Fits IO_LATENCY_ENTRIES_MAX maps.ioLatencyMap entity)
    (hothers : ∀ other ≠ entity, normalSinceReport other more = normalSinceReport other items)
    (hentity : ioLatency.entity = entity)
    (htracks : Tracks ioLatency (normalSinceReport entity more))
    (hsent : ∀ earlier sent, earlier ++ [.reported sent] <+: more →
      Tracks sent (normalSinceReport sent.entity earlier)) :
    Inv ⟨maps.putLatency entity ioLatency, more⟩ where
  unended := ⟨h.unended.nodup, h.unended.noEnd⟩
  entity other found hlookup := by
    rw [lookup_putLatency hfits] at hlookup
    split_ifs at hlookup with heq
    · cases hlookup
      exact hentity.trans heq.symm
    · exact h.entity other found hlookup
  tracks other found hlookup := by
    rw [lookup_putLatency hfits] at hlookup
    split_ifs at hlookup with heq
    · cases hlookup
      rw [heq]
      exact htracks
    · rw [hothers other heq]
      exact h.tracks other found hlookup
  absent other hlookup := by
    rw [lookup_putLatency hfits] at hlookup
    split_ifs at hlookup with heq
    rw [hothers other heq]
    exact h.absent other hlookup
  sent := hsent

-- The record that a completion finds, made if there is room for it.
theorem Inv.getIoLatency (h : Inv ⟨maps, items⟩) (ioTrace : IoTrace) :
    Inv ⟨(getIoLatency ioTrace maps).2, items⟩ ∧
      (getIoLatency ioTrace maps).1 =
        (getIoLatency ioTrace maps).2.ioLatencyMap.lookup ioTrace.entity := by
  rw [IoProbe.getIoLatency]
  cases hlookup : maps.ioLatencyMap.lookup ioTrace.entity with
  | some ioLatency => exact ⟨h, hlookup.symm⟩
  | none =>
      refine ⟨?_, rfl⟩
      by_cases hfits : BpfMap.Fits IO_LATENCY_ENTRIES_MAX maps.ioLatencyMap ioTrace.entity
      · refine h.putLatency hfits (fun _ _ => rfl) rfl ?_ h.sent
        rw [h.absent _ hlookup]
        exact fun stage => folds_noStats
      · have hsame : (maps.putLatency ioTrace.entity (newIoLatency ioTrace.entity)).ioLatencyMap =
            maps.ioLatencyMap := BpfMap.update_of_not_fits hfits
        exact h.quiet ⟨⟨h.unended.nodup, h.unended.noEnd⟩, hsame⟩

-- The record that stays, without a report and with one.
theorem reportIoLatency_cases {args : IoTraceArgs} {now : UInt64} {ioLatency kept : IoLatency}
    {report : Option IoLatency} (h : reportIoLatency args now ioLatency = (kept, report)) :
    kept.entity = ioLatency.entity ∧
      ((report = none ∧ kept.latency = ioLatency.latency) ∨
        ∃ sent, report = some sent ∧ kept.latency = (fun _ => noStats) ∧
          sent.entity = ioLatency.entity ∧ sent.latency = ioLatency.latency) := by
  rw [reportIoLatency] at h
  rcases htmout : isReportTmout args now ioLatency.ts with ⟨tmout, ts⟩
  rw [htmout] at h
  cases tmout with
  | false =>
      cases h
      exact ⟨rfl, .inl ⟨rfl, rfl⟩⟩
  | true =>
      cases h
      exact ⟨rfl, .inr ⟨_, rfl, rfl, rfl, rfl⟩⟩

theorem Tracks.of_latency {ioLatency other : IoLatency} {traces : List IoTrace}
    (h : Tracks ioLatency traces) (heq : other.latency = ioLatency.latency) :
    Tracks other traces := by
  intro stage
  rw [heq]
  exact h stage

theorem Inv.tracks_completed (h : Inv ⟨maps, items⟩) {ioTrace : IoTrace} {ioLatency : IoLatency}
    (hlookup : maps.ioLatencyMap.lookup ioTrace.entity = some ioLatency)
    (hnormal : isNormalIoTrace ioTrace = true) :
    Tracks (calcLatency ioLatency ioTrace)
      (normalSinceReport ioTrace.entity (items ++ [.completed ioTrace])) := by
  rw [normal_completed_self hnormal]
  exact (h.tracks _ _ hlookup).calc (fun _ hmem => isNormal_of_mem hmem) hnormal

-- A normal trace is added to the record of its device, which may then be sent.
theorem Inv.calcLatency (h : Inv ⟨maps, items⟩) {ioTrace : IoTrace} {ioLatency : IoLatency}
    (hlookup : maps.ioLatencyMap.lookup ioTrace.entity = some ioLatency)
    (hnormal : isNormalIoTrace ioTrace = true) (now : UInt64) :
    let (kept, report) :=
      reportIoLatency maps.ioArgsMap now (IoProbe.calcLatency ioLatency ioTrace)
    Inv ⟨maps.putLatency ioTrace.entity kept,
      items ++ .completed ioTrace :: (report.map Item.reported).toList⟩ := by
  have hfits : BpfMap.Fits IO_LATENCY_ENTRIES_MAX maps.ioLatencyMap ioTrace.entity :=
    .inl (by rw [hlookup]; rfl)
  have hentity : (IoProbe.calcLatency ioLatency ioTrace).entity = ioTrace.entity :=
    calcLatency_entity.trans (h.entity _ _ hlookup)
  have htracks := h.tracks_completed hlookup hnormal
  have hothers : ∀ other ≠ ioTrace.entity,
      normalSinceReport other (items ++ [.completed ioTrace]) = normalSinceReport other items :=
    fun other hne => normal_completed_of_ne hne.symm
  have hsent : ∀ earlier sent, earlier ++ [.reported sent] <+: items ++ [.completed ioTrace] →
      Tracks sent (normalSinceReport sent.entity earlier) :=
    fun earlier sent hearlier => h.sent earlier sent (sent_completed hearlier)
  rcases hreport : reportIoLatency maps.ioArgsMap now (IoProbe.calcLatency ioLatency ioTrace) with
    ⟨kept, report⟩
  obtain ⟨hkept, ⟨rfl, hlatency⟩ | ⟨sent, rfl, hlatency, hsentEntity, hsentLatency⟩⟩ :=
    reportIoLatency_cases hreport
  · exact h.putLatency hfits hothers (hkept.trans hentity) (htracks.of_latency hlatency) hsent
  · have hreported : sent.entity = ioTrace.entity := hsentEntity.trans hentity
    have hitems : items ++ .completed ioTrace :: ((some sent).map Item.reported).toList =
        (items ++ [.completed ioTrace]) ++ [.reported sent] := by
      rw [List.append_assoc]
      rfl
    dsimp only
    rw [hitems]
    refine h.putLatency hfits (fun other hne => ?_) (hkept.trans hentity) ?_ ?_
    · rw [normal_reported_of_ne (by rw [hreported]; exact hne.symm), hothers other hne]
    · rw [← hreported, normal_reported_self]
      intro stage
      rw [hlatency]
      exact folds_noStats
    · intro earlier other hearlier
      rcases List.prefix_concat_iff.mp hearlier with heq | hearlier
      · obtain ⟨rfl, hother⟩ := List.append_inj' heq rfl
        cases hother
        rw [hreported]
        exact htracks.of_latency hsentLatency
      · exact hsent earlier other hearlier

theorem Unended.delete (h : Unended maps) (ioReq : UInt64) :
    Unended { maps with ioTraceMap := maps.ioTraceMap.delete ioReq } where
  nodup := BpfMap.nodup_delete h.nodup
  noEnd other ioTrace hlookup := by
    rw [BpfMap.lookup_delete h.nodup] at hlookup
    split_ifs at hlookup
    exact h.noEnd other ioTrace hlookup

theorem Inv.blockRqComplete (h : Inv ⟨maps, items⟩) (req : Option UInt64) (error : Int32)
    (now reportNow : UInt64) :
    let (after, more) := blockRqComplete req error now reportNow maps
    Inv ⟨after, items ++ more⟩ := by
  rw [IoProbe.blockRqComplete]
  cases hlkup : lkupIoTrace req maps with
  | none =>
      dsimp only
      rw [List.append_nil]
      exact h
  | some pair =>
      obtain ⟨ioReq, ioTrace⟩ := pair
      have hnoEnd := h.unended.found hlkup
      obtain ⟨hinv, hgot⟩ := h.getIoLatency ioTrace
      dsimp only
      rcases hget : IoProbe.getIoLatency ioTrace maps with ⟨found, got⟩
      rw [hget] at hinv hgot
      cases found with
      | none => exact hinv.completed (not_normal_of_no_end hnoEnd)
      | some ioLatency =>
          dsimp only
          by_cases herror : error = 0
          · rw [if_pos herror]
            by_cases hnormal : isNormalIoTrace (ioTrace.setTs .issueEnd now) = true
            · have hcalc := @Inv.calcLatency _ _ hinv (ioTrace.setTs .issueEnd now) _ hgot.symm
                hnormal reportNow
              rw [if_pos ⟨herror, hnormal⟩]
              exact hcalc.quiet ⟨hcalc.unended.delete ioReq, rfl⟩
            · rw [if_neg fun hboth => hnormal hboth.2]
              have hidle := hinv.completed (Bool.eq_false_of_not_eq_true hnormal)
              exact hidle.quiet ⟨hidle.unended.delete ioReq, rfl⟩
          -- a trace with an error gets no end
          · rw [if_neg herror, if_neg fun hboth => herror hboth.1]
            have hidle := hinv.completed (not_normal_of_no_end hnoEnd)
            exact hidle.quiet ⟨hidle.unended.delete ioReq, rfl⟩

theorem Inv.observe {observed : Observed} (h : Inv observed) (event : Event) :
    Inv (observe observed event) := by
  obtain ⟨maps, items⟩ := observed
  have hquiet {after : Maps} (hquiet : Quiet maps after) : Inv ⟨after, items ++ []⟩ := by
    rw [List.append_nil]
    exact h.quiet hquiet
  have hopen := h.unended
  cases event with
  | loadIoArgs args => exact hquiet ⟨⟨hopen.nodup, hopen.noEnd⟩, rfl⟩
  | blockRqIssue req request task sampleNow now =>
      refine hquiet (quiet_got hopen request task sampleNow _ fun ioTrace => ?_)
      rw [setTs_of_ne (by decide)]
      split
      · rw [setTs_of_ne (by decide), setTs_of_ne (by decide)]
      · rw [setTs_of_ne (by decide)]
  | nvmeSetupCmd req request task sampleNow now =>
      exact hquiet (quiet_got hopen request task sampleNow _ fun ioTrace =>
        setTs_of_ne (by decide))
  | scsiDispatchCmd req now => exact hquiet (quiet_found hopen _ (quiet_putTs hopen (by decide) now))
  | scsiDone req now => exact hquiet (quiet_found hopen _ (quiet_putTs hopen (by decide) now))
  | blkMqCompleteRequest req now =>
      refine hquiet (quiet_found hopen _ fun ioReq ioTrace hnoEnd => ?_)
      split
      · exact quiet_putTs hopen (by decide) now ioReq ioTrace hnoEnd
      · exact .refl hopen
  | blockRqComplete req error now reportNow => exact h.blockRqComplete req error now reportNow

theorem inv_initial : Inv initial where
  unended := ⟨List.nodup_nil, fun _ _ hlookup => nomatch hlookup⟩
  entity _ _ hlookup := nomatch hlookup
  tracks _ _ hlookup := nomatch hlookup
  absent _ _ := rfl
  sent earlier ioLatency hearlier := by
    have := List.append_eq_nil_iff.mp (List.prefix_nil.mp hearlier)
    cases this.2

theorem inv_run (events : List Event) : Inv (events.foldl IoProbe.observe initial) :=
  List.foldlRecOn events IoProbe.observe inv_initial fun _ h event _ => h.observe event

-- The record of a device, in the map and in a report, holds the folds of each stage over the
-- normal traces since the last report. Of these no stage ends before it begins.
theorem ioLatency_folds (events : List Event) :
    let observed := events.foldl IoProbe.observe initial
    (∀ entity ioLatency, observed.maps.ioLatencyMap.lookup entity = some ioLatency → ∀ stage,
      Folds (ioLatency.latency stage)
        ((normalSinceReport entity observed.items).map (stageLatency stage))) ∧
    (∀ earlier ioLatency, earlier ++ [.reported ioLatency] <+: observed.items → ∀ stage,
      Folds (ioLatency.latency stage)
        ((normalSinceReport ioLatency.entity earlier).map (stageLatency stage))) ∧
    ∀ ioTrace, isNormalIoTrace ioTrace = true → ∀ stage,
      ioTrace.ts stage.begins < ioTrace.ts stage.ends ∧
        (delta stage ioTrace).toNat = stageLatency stage ioTrace :=
  ⟨(inv_run events).tracks, (inv_run events).sent,
    fun _ hnormal stage => ⟨begins_lt_ends hnormal stage, toNat_delta hnormal stage⟩⟩

-- A request that starts at `start` and takes 10 for each of its steps.
def oneRequest (start : UInt64) (error : Int32) : List Event :=
  let req := some 0x1000
  [ .blockRqIssue req ⟨some ⟨8, 0⟩, 1, 512, start⟩ ⟨0x700000007, []⟩ (start + 10) (start + 10),
    .scsiDispatchCmd req (start + 20),
    .scsiDone req (start + 30),
    .blockRqComplete req error (start + 40) (start + 50) ]

-- The second one fails.
theorem ioLatency_folds_two :
    ∃ ioLatency,
      ((oneRequest 5 0 ++ oneRequest 100 (-5) ++ oneRequest 200 0).foldl IoProbe.observe
        initial).maps.ioLatencyMap.lookup ⟨8, 0⟩ = some ioLatency ∧
      Folds (ioLatency.latency .block) [40, 40] ∧ Folds (ioLatency.latency .device) [10, 10] := by
  obtain ⟨ioLatency, hlookup⟩ := Option.isSome_iff_exists.mp
    (show (((oneRequest 5 0 ++ oneRequest 100 (-5) ++ oneRequest 200 0).foldl IoProbe.observe
      initial).maps.ioLatencyMap.lookup ⟨8, 0⟩).isSome = true by decide +kernel)
  have hfolds := (ioLatency_folds _).1 _ ioLatency hlookup
  refine ⟨ioLatency, hlookup, ?_, ?_⟩
  · have hblock := hfolds .block
    rwa [show List.map _ _ = [40, 40] by decide +kernel] at hblock
  · have hdevice := hfolds .device
    rwa [show List.map _ _ = [10, 10] by decide +kernel] at hdevice

end Observed

end Gopher.IoProbe
