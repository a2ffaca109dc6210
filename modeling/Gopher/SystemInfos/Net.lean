import Gopher.Lib.Fgets
import Gopher.Lib.Places
import Gopher.Lib.Sscanf
import Gopher.Lib.Strstr
import Mathlib.Data.Rat.Defs

namespace Gopher.SystemInfos

open Lib

def LINE_BUF_LEN : ℕ := 512
def NET_DEVICE_NAME_SIZE : ℕ := 16
def NETDEV_FIELD_NUM : ℕ := 8

-- A line that `fgets` reads at once.
def IsLine (line : Text) : Prop := '\n' ∉ line ∧ line.length < LINE_BUF_LEN - 1

-- The members of `struct probe_params` that these probes read.
structure ProbeParam where
  period : UInt32
  dropsCountThr : UInt32
  logs : Bool
  resPercentUpper : Int8

-- struct net_dev_stat
structure NetDevStat where
  devName : Text
  netStatus : Bool
  rxBytes : UInt64
  rxPackets : UInt64
  rxDropped : UInt64
  rxErrs : UInt64
  txPackets : UInt64
  txDropped : UInt64
  txBytes : UInt64
  txErrs : UInt64
  tcSentDropCount : UInt64
  tcSentOverlimitsCount : UInt64
  tcBacklogCount : UInt64
  tcEcnMark : UInt64
  deriving DecidableEq

-- What `memset` leaves.
def NetDevStat.zero : NetDevStat := ⟨[], false, 0, 0, 0, 0, 0, 0, 0, 0, 0, 0, 0, 0⟩

-- The kernel gives no device a name for which the array `dev_name` has no room.
def getNetdevName (line : Text) : Text :=
  (line.takeWhile (· ≠ ':')).filter (· ≠ ' ')

-- "%*s %llu %llu %llu %llu %*Lu %*Lu %*Lu %*Lu %llu %llu %llu %llu %*Lu %*Lu %*Lu %*Lu"
def netDevFormat : List ScanDirective :=
  [.skipS, .d, .d, .d, .d, .skipD, .skipD, .skipD, .skipD, .d, .d, .d, .d,
    .skipD, .skipD, .skipD, .skipD]

-- A value stored through a pointer to `unsigned long long`.
def storeU64 : Scanned → UInt64
  | .text _ => 0
  | .number n => clampU64 n

-- The pointers of the call, in their order.
def netDevPointers : List (UInt64 → NetDevStat → NetDevStat) :=
  [fun value stats => { stats with rxBytes := value },
    fun value stats => { stats with rxPackets := value },
    fun value stats => { stats with rxErrs := value },
    fun value stats => { stats with rxDropped := value },
    fun value stats => { stats with txBytes := value },
    fun value stats => { stats with txPackets := value },
    fun value stats => { stats with txErrs := value },
    fun value stats => { stats with txDropped := value }]

-- The second part is whether all fields were there. Those in front of a missing one are stored.
def getNetdevFileds (netDevInfo : Text) (stats : NetDevStat) : NetDevStat × Bool :=
  let values := sscanf netDevFormat netDevInfo
  ((netDevPointers.zip values).foldl (fun stats one => one.1 (storeU64 one.2) stats) stats,
    decide (NETDEV_FIELD_NUM ≤ values.length))

-- The first line of `operstate`, `none` when the file or the line cannot be read.
def getNetdevStatus (operstate : Option Text) (stats : NetDevStat) : NetDevStat :=
  match operstate with
  | none => { stats with netStatus := false }
  | some line => { stats with netStatus := sameIgnoringCase (splitNewlineSymbol line) ['u', 'p'] }

-- The values that one output of `tc` has set so far.
structure QdiscStat where
  drop : Option UInt64
  limit : Option UInt64
  backlog : Option UInt64
  ecn : Option UInt64

-- TRY_SET_QDISC_STAT; `none` is the jump to `err`.
def trySetQdiscStat (keyword line : Text) (field : Option UInt64) : Option (Option UInt64) :=
  if field.isSome then some field
  else
    match strstr keyword line with
    | none => some field
    | some pos =>
        match sscanf [.skipS, .d] pos with
        | [] => none
        | value :: _ => some (some (storeU64 value))

-- One line, until the jump to `err`. The second part is whether there was none.
def qdiscLine (stat : QdiscStat) (line : Text) : QdiscStat × Bool :=
  match trySetQdiscStat "dropped".toList line stat.drop with
  | none => (stat, false)
  | some drop =>
      match trySetQdiscStat "overlimits".toList line stat.limit with
      | none => ({ stat with drop := drop }, false)
      | some limit =>
          match trySetQdiscStat "backlog".toList line stat.backlog with
          | none => ({ stat with drop := drop, limit := limit }, false)
          | some backlog =>
              match trySetQdiscStat "ecn_mark".toList line stat.ecn with
              | none => ({ stat with drop := drop, limit := limit, backlog := backlog }, false)
              | some ecn => (⟨drop, limit, backlog, ecn⟩, true)

def qdiscLines : QdiscStat → List Text → QdiscStat × Bool
  | stat, [] => (stat, true)
  | stat, line :: lines =>
      match qdiscLine stat line with
      | (stat, true) => qdiscLines stat lines
      | (stat, false) => (stat, false)

-- `output` is what `tc` prints, `none` when `popen` fails. Nobody looks at what this returns.
def getNetdevQdisc (output : Option Text) (stats : NetDevStat) : NetDevStat :=
  match output with
  | none => stats
  | some output =>
      let (stat, ok) := qdiscLines ⟨none, none, none, none⟩ (fgetsAll LINE_BUF_LEN output)
      let complete := ok && stat.drop.isSome && stat.limit.isSome && stat.backlog.isSome
      { stats with
        tcSentDropCount := stat.drop.getD stats.tcSentDropCount
        tcSentOverlimitsCount := stat.limit.getD stats.tcSentOverlimitsCount
        tcBacklogCount := stat.backlog.getD stats.tcBacklogCount
        tcEcnMark := stat.ecn.getD (if complete then 0 else stats.tcEcnMark) }

-- g_phy_netdev_list
def isPhysicalNetdev (phyNetdevList : List Text) (devName : Text) : Bool :=
  phyNetdevList.contains devName

section Output

-- The counters an event may be about.
inductive NetCounter where
  | txDropped
  | rxDropped
  | txErrs
  | rxErrs
  deriving DecidableEq

def NetCounter.of : NetCounter → NetDevStat → UInt64
  | .txDropped, stats => stats.txDropped
  | .rxDropped, stats => stats.rxDropped
  | .txErrs, stats => stats.txErrs
  | .rxErrs, stats => stats.rxErrs

def NetCounter.metrics : NetCounter → String
  | .txDropped => "tx_dropped"
  | .rxDropped => "rx_dropped"
  | .txErrs => "tx_errs"
  | .rxErrs => "rx_errs"

-- In front of the number.
def NetCounter.message : NetCounter → String
  | .txDropped => "net device tx queue drops("
  | .rxDropped => "net device rx queue drops("
  | .txErrs => "net device tx queue errors("
  | .rxErrs => "net device rx queue errors("

-- A call of `report_logs`.
structure NetEvent where
  entityName : String
  entityId : Text
  metrics : String
  dev : Text
  message : Text
  deriving DecidableEq

-- The four checks of `report_netdev`, the difference in wrapping arithmetic.
def reportCounter (newInfo oldInfo : NetDevStat) (param : ProbeParam) (counter : NetCounter) :
    List NetEvent :=
  let delta := counter.of newInfo - counter.of oldInfo
  if 0 < param.dropsCountThr ∧ param.dropsCountThr.toUInt64 < delta then
    [⟨"nic", newInfo.devName, counter.metrics, newInfo.devName,
      counter.message.toList ++ decimalText delta.toNat ++ [')', '.']⟩]
  else []

def reportNetdev (newInfo oldInfo : NetDevStat) (param : ProbeParam) : List NetEvent :=
  if param.logs then
    [.txDropped, .rxDropped, .txErrs, .rxErrs].flatMap (reportCounter newInfo oldInfo param)
  else []

-- `(new > old) ? (new - old) : 0`
def clampedDelta (new old : UInt64) : UInt64 :=
  if old < new then new - old else 0

-- `(new > old) ? SPEED_VALUE(old, new, period) : 0`
def clampedSpeed (new old : UInt64) (period : UInt32) : ℚ :=
  if old < new then ((new - old).toNat : ℚ) / 1024 / period.toNat else 0

-- The fields of the line that is printed for a device.
structure NicRecord where
  devName : Text
  up : Bool
  rxBytes : UInt64
  rxPackets : UInt64
  rxErrs : UInt64
  rxDropped : UInt64
  txBytes : UInt64
  txPackets : UInt64
  txErrs : UInt64
  txDropped : UInt64
  rxSpeed : ℚ
  txSpeed : ℚ
  tcSentDropCount : UInt64
  tcSentOverlimitsCount : UInt64
  tcBacklogCount : UInt64
  tcEcnMark : UInt64
  deriving DecidableEq

def nicRecord (new old : NetDevStat) (param : ProbeParam) : NicRecord where
  devName := new.devName
  up := new.netStatus
  rxBytes := clampedDelta new.rxBytes old.rxBytes
  rxPackets := clampedDelta new.rxPackets old.rxPackets
  rxErrs := clampedDelta new.rxErrs old.rxErrs
  rxDropped := clampedDelta new.rxDropped old.rxDropped
  txBytes := clampedDelta new.txBytes old.txBytes
  txPackets := clampedDelta new.txPackets old.txPackets
  txErrs := clampedDelta new.txErrs old.txErrs
  txDropped := clampedDelta new.txDropped old.txDropped
  rxSpeed := clampedSpeed new.rxBytes old.rxBytes param.period
  txSpeed := clampedSpeed new.txBytes old.txBytes param.period
  tcSentDropCount := clampedDelta new.tcSentDropCount old.tcSentDropCount
  tcSentOverlimitsCount := clampedDelta new.tcSentOverlimitsCount old.tcSentOverlimitsCount
  tcBacklogCount := new.tcBacklogCount
  tcEcnMark := new.tcEcnMark

structure NicOutput where
  record : NicRecord
  events : List NetEvent
  deriving DecidableEq

def nicOutput (new old : NetDevStat) (param : ProbeParam) : NicOutput :=
  ⟨nicRecord new old param, reportNetdev new old param⟩

end Output

-- What one round finds: `/proc/net/dev`, and for each device its state and what `tc` prints.
structure NetInput where
  netDev : Text
  operstate : Text → Option Text
  qdisc : Text → Option Text
  param : ProbeParam

-- One turn of the loop in `system_net_probe` over the slots of `g_dev_stats`; `none` is an
-- access behind their end.
def netLine (phyNetdevList : List Text) (input : NetInput)
    (loop : Places.Loop NetDevStat NicOutput) (line : Text) :
    Option (Places.Loop NetDevStat NicOutput) :=
  if line.contains '|' then some loop
  else if phyNetdevList.length < loop.index then some loop
  else
    let devName := getNetdevName line
    if isPhysicalNetdev phyNetdevList devName then do
      let slot ← loop.slots[loop.index]?
      let temp := { slot with devName := truncated NET_DEVICE_NAME_SIZE devName }
      match getNetdevFileds line temp with
      | (stats, false) => some { loop with slots := loop.slots.set loop.index stats }
      | (stats, true) =>
          let stats := getNetdevStatus (input.operstate stats.devName) stats
          let stats := getNetdevQdisc (input.qdisc stats.devName) stats
          some (loop.store stats (nicOutput stats temp input.param))
    else some loop

-- A round in which the file can be opened.
def systemNetProbe (phyNetdevList : List Text) (devStats : List NetDevStat) (input : NetInput) :
    Option (List NetDevStat × List NicOutput) := do
  let loop ← (fgetsAll LINE_BUF_LEN input.netDev).foldlM (netLine phyNetdevList input)
    ⟨devStats, 0, []⟩
  return (loop.slots, loop.outputs)

-- `system_net_init`, once the devices are known.
def systemNetInit (phyNetdevList : List Text) : List NetDevStat :=
  List.replicate phyNetdevList.length NetDevStat.zero

section Events

variable (new old : NetDevStat) (param : ProbeParam) (counter : NetCounter)

-- The delta printed for the counter of an event.
def NicRecord.delta (record : NicRecord) : NetCounter → UInt64
  | .txDropped => record.txDropped
  | .rxDropped => record.rxDropped
  | .txErrs => record.txErrs
  | .rxErrs => record.rxErrs

theorem delta_nicRecord :
    (nicRecord new old param).delta counter = clampedDelta (counter.of new) (counter.of old) := by
  cases counter <;> rfl

theorem metrics_injective {first second : NetCounter} (h : first.metrics = second.metrics) :
    first = second := by
  cases first <;> cases second <;> first | rfl | exact absurd h (by decide)

theorem mem_reportNetdev_iff :
    (∃ event ∈ reportNetdev new old param, event.metrics = counter.metrics) ↔
      param.logs = true ∧ 0 < param.dropsCountThr ∧
        param.dropsCountThr.toUInt64 < counter.of new - counter.of old := by
  have hall : counter ∈ [NetCounter.txDropped, .rxDropped, .txErrs, .rxErrs] := by
    cases counter <;> simp
  constructor
  · rintro ⟨event, hevent, hmetrics⟩
    rw [reportNetdev] at hevent
    split_ifs at hevent with hlogs
    · obtain ⟨other, -, hother⟩ := List.mem_flatMap.mp hevent
      rw [reportCounter] at hother
      split_ifs at hother with hthr
      · rw [List.mem_singleton] at hother
        subst hother
        have hsame : other = counter := metrics_injective hmetrics
        subst hsame
        exact ⟨hlogs, hthr⟩
      · cases hother
    · cases hevent
  · rintro ⟨hlogs, hthr⟩
    have hevent : ∃ event ∈ reportCounter new old param counter,
        event.metrics = counter.metrics := by
      rw [reportCounter, if_pos hthr]
      exact ⟨_, List.mem_singleton_self _, rfl⟩
    obtain ⟨event, hmem, hmetrics⟩ := hevent
    rw [reportNetdev, if_pos hlogs]
    exact ⟨event, List.mem_flatMap.mpr ⟨counter, hall, hmem⟩, hmetrics⟩

-- Whether events are asked for at all.
def ProbeParam.Reports (param : ProbeParam) : Prop :=
  param.logs = true ∧ 0 < param.dropsCountThr.toNat

-- The two readings of a counter, the new one first. A counter that went backwards is
-- harmless only when the difference that wraps stays within the threshold.
def InStep (param : ProbeParam) (new old : ℕ) : Prop :=
  (param.Reports → old ≤ new ∨ 2 ^ 64 + new ≤ param.dropsCountThr.toNat + old) ∧
    (¬ param.Reports → new ≤ param.dropsCountThr.toNat + old)

theorem toNat_clampedDelta (new old : UInt64) :
    (clampedDelta new old).toNat = new.toNat - old.toNat := by
  rw [clampedDelta]
  split_ifs with h
  · exact UInt64.toNat_sub_of_le _ _ (UInt64.le_of_lt h)
  · rw [UInt64.lt_iff_toNat_lt] at h
    rw [UInt64.toNat_zero]
    omega

theorem agrees_iff_inStep :
    ((param.logs = true ∧ 0 < param.dropsCountThr ∧
        param.dropsCountThr.toUInt64 < counter.of new - counter.of old) ↔
      param.dropsCountThr.toNat < (counter.of new).toNat - (counter.of old).toNat) ↔
    InStep param (counter.of new).toNat (counter.of old).toNat := by
  generalize counter.of new = new
  generalize counter.of old = old
  have hnew := new.toNat_lt
  have hold := old.toNat_lt
  have hthr := param.dropsCountThr.toNat_lt
  have hdelta : (new - old).toNat = (2 ^ 64 - old.toNat + new.toNat) % 2 ^ 64 :=
    UInt64.toNat_sub new old
  rw [InStep, ProbeParam.Reports, UInt64.lt_iff_toNat_lt, UInt32.lt_iff_toNat_lt,
    UInt32.toNat_toUInt64, UInt32.toNat_zero, hdelta]
  by_cases hreports : param.logs = true ∧ 0 < param.dropsCountThr.toNat
  · simp only [hreports, true_and, not_true, false_implies, and_true, true_implies]
    omega
  · have hnone : ¬ (param.logs = true ∧ 0 < param.dropsCountThr.toNat ∧
        param.dropsCountThr.toNat < (2 ^ 64 - old.toNat + new.toNat) % 2 ^ 64) :=
      fun h => hreports ⟨h.1, h.2.1⟩
    simp only [hnone, hreports, false_iff, false_implies, true_and, not_false_eq_true,
      true_implies]
    omega

theorem reportNetdev_agrees_iff :
    (∀ counter : NetCounter,
      (∃ event ∈ (nicOutput new old param).events, event.metrics = counter.metrics) ↔
        param.dropsCountThr.toNat < ((nicOutput new old param).record.delta counter).toNat) ↔
    ∀ counter : NetCounter, InStep param (counter.of new).toNat (counter.of old).toNat := by
  refine forall_congr' fun counter => ?_
  rw [nicOutput, mem_reportNetdev_iff, delta_nicRecord, toNat_clampedDelta, agrees_iff_inStep]

-- A driver that starts to count from zero again.
def resetOld : NetDevStat := { NetDevStat.zero with devName := ['e', 't', 'h', '0'], rxDropped := 100 }

def resetNew : NetDevStat := { resetOld with rxDropped := 0 }

theorem not_reportNetdev_agrees :
    ¬ ∀ (new old : NetDevStat) (param : ProbeParam) (counter : NetCounter),
      (∃ event ∈ (nicOutput new old param).events, event.metrics = counter.metrics) ↔
        param.dropsCountThr.toNat < ((nicOutput new old param).record.delta counter).toNat := by
  intro h
  have hreset := h resetNew resetOld ⟨5, 10, true, 0⟩ .rxDropped
  rw [nicOutput, mem_reportNetdev_iff] at hreset
  revert hreset
  decide

end Events

end Gopher.SystemInfos
