import Gopher.SystemInfos.Net

namespace Gopher.SystemInfos

open Lib

def DISK_NAME_LEN : ℕ := 32
def DISKSTAT_FIELD_NUM : ℕ := 9

-- disk_stats
structure DiskStats where
  diskName : Text
  rdIos : UInt32
  rdSectors : UInt32
  rdTicks : UInt32
  wrIos : UInt32
  wrSectors : UInt32
  wrTicks : UInt32
  ioTicks : UInt32
  timeInQueue : UInt32
  deriving DecidableEq

-- What `memset` leaves.
def DiskStats.zero : DiskStats := ⟨[], 0, 0, 0, 0, 0, 0, 0, 0⟩

-- disk_io_stats, exact where the source has a `float`
structure DiskIoStats where
  rdSpeed : ℚ
  rdkbSpeed : ℚ
  rdAwait : ℚ
  rareqSz : ℚ
  wrSpeed : ℚ
  wrkbSpeed : ℚ
  wrAwait : ℚ
  wareqSz : ℚ
  util : ℚ
  aquSz : ℚ
  deriving DecidableEq

def DiskIoStats.zero : DiskIoStats := ⟨0, 0, 0, 0, 0, 0, 0, 0, 0, 0⟩

-- "%*Lu %*Lu %s %lu %*Lu %lu %u %lu %*Lu %lu %u %*Lu %u %u %*Lu %*Lu %*Lu %*Lu"
def diskstatsFormat : List ScanDirective :=
  [.skipD, .skipD, .s, .d, .skipD, .d, .d, .d, .skipD, .d, .d, .skipD, .d, .d,
    .skipD, .skipD, .skipD, .skipD]

-- The array has room for every name the kernel gives a disk.
def storeText : Scanned → Text
  | .text word => word
  | .number _ => []

-- "%u"
def storeU32 (value : Scanned) : UInt32 := (storeU64 value).toUInt32

-- The upper half of "%lu", for which a member of 32 bits has no room. It lands in the next
-- member, which the next conversion writes again.
def storeUpper (value : Scanned) : UInt32 := (storeU64 value >>> 32).toUInt32

-- The pointers of the call, in their order.
def diskstatsPointers : List (Scanned → DiskStats → DiskStats) :=
  [fun value stats => { stats with diskName := storeText value },
    fun value stats => { stats with rdIos := storeU32 value, rdSectors := storeUpper value },
    fun value stats => { stats with rdSectors := storeU32 value, rdTicks := storeUpper value },
    fun value stats => { stats with rdTicks := storeU32 value },
    fun value stats => { stats with wrIos := storeU32 value, wrSectors := storeUpper value },
    fun value stats => { stats with wrSectors := storeU32 value, wrTicks := storeUpper value },
    fun value stats => { stats with wrTicks := storeU32 value },
    fun value stats => { stats with ioTicks := storeU32 value },
    fun value stats => { stats with timeInQueue := storeU32 value }]

def getDiskstatsFields (line : Text) (stats : DiskStats) : DiskStats × Bool :=
  let values := sscanf diskstatsFormat line
  ((diskstatsPointers.zip values).foldl (fun stats one => one.1 one.2 stats) stats,
    decide (DISKSTAT_FIELD_NUM ≤ values.length))

-- S_VALUE(m, n, p)
def sValue (m n : UInt32) (p : Int32) : ℚ := ((n - m).toNat : ℚ) / p.toInt

-- `rd_await` and `rareq_sz`, or the two of writing.
def perIo (lastIos curIos lastTicks curTicks lastSectors curSectors : UInt32) : ℚ × ℚ :=
  if curIos - lastIos = 0 then (0, 0)
  else
    (((curTicks - lastTicks).toNat : ℚ) / (curIos - lastIos).toNat,
      ((curSectors - lastSectors).toNat : ℚ) / (curIos - lastIos).toNat / 2)

def calDiskIoStats (last cur : DiskStats) (period : Int32) : DiskIoStats :=
  let rd := perIo last.rdIos cur.rdIos last.rdTicks cur.rdTicks last.rdSectors cur.rdSectors
  let wr := perIo last.wrIos cur.wrIos last.wrTicks cur.wrTicks last.wrSectors cur.wrSectors
  { rdAwait := rd.1
    rareqSz := rd.2
    wrAwait := wr.1
    wareqSz := wr.2
    rdSpeed := sValue last.rdIos cur.rdIos period
    wrSpeed := sValue last.wrIos cur.wrIos period
    rdkbSpeed := sValue last.rdSectors cur.rdSectors period / 2
    wrkbSpeed := sValue last.wrSectors cur.wrSectors period / 2
    util := sValue last.ioTicks cur.ioTicks period / 10
    aquSz := sValue last.timeInQueue cur.timeInQueue period / 1000 }

-- The event of a saturated disk, with the number of its message.
structure DiskEvent where
  entityId : Text
  dev : Text
  util : ℚ
  deriving DecidableEq

def reportDiskIostat (diskName : Text) (ioInfo : DiskIoStats) (param : ProbeParam) :
    List DiskEvent :=
  if param.logs && decide (0 < param.resPercentUpper) &&
      decide ((param.resPercentUpper.toInt : ℚ) < ioInfo.util) then
    [⟨diskName, diskName, ioInfo.util⟩]
  else []

structure DiskOutput where
  diskName : Text
  ioDatas : DiskIoStats
  events : List DiskEvent
  deriving DecidableEq

-- g_disk_stats and g_first_flag
structure DiskState where
  diskStats : List DiskStats
  firstFlag : Bool
  deriving DecidableEq

structure DiskInput where
  diskstats : Text
  param : ProbeParam

-- One turn of the loop in `system_iostat_probe` over the slots of `g_disk_stats`; `none` is an
-- access behind their end.
def diskLine (diskDevNum : ℕ) (firstFlag : Bool) (param : ProbeParam)
    (loop : Places.Loop DiskStats DiskOutput) (line : Text) :
    Option (Places.Loop DiskStats DiskOutput) :=
  if diskDevNum ≤ loop.index then some loop
  else do
    let temp ← loop.slots[loop.index]?
    match getDiskstatsFields line temp with
    | (stats, false) => some { loop with slots := loop.slots.set loop.index stats }
    | (stats, true) =>
        let ioDatas := if firstFlag then DiskIoStats.zero
          else calDiskIoStats temp stats param.period.toInt32
        some (loop.store stats
          ⟨stats.diskName, ioDatas, reportDiskIostat stats.diskName ioDatas param⟩)

-- The flag stays when `fgets` finds no line although the end of the file was not seen. The
-- return value, -1 in that case, is left out.
def systemIostatProbe (diskDevNum : ℕ) (state : DiskState) (input : DiskInput) :
    Option (DiskState × List DiskOutput) := do
  let lines := fgetsAll LINE_BUF_LEN input.diskstats
  let loop ← lines.foldlM (diskLine diskDevNum state.firstFlag input.param) ⟨state.diskStats, 0, []⟩
  let fails := decide (loop.index < diskDevNum) &&
    decide (EndsComplete LINE_BUF_LEN input.diskstats)
  return (⟨loop.slots, state.firstFlag && fails⟩, loop.outputs)

-- `system_iostat_init`, once the number of disks is known.
def systemIostatInit (diskDevNum : ℕ) : DiskState :=
  ⟨List.replicate diskDevNum DiskStats.zero, true⟩

end Gopher.SystemInfos
