import Gopher.Lib.Lines
import Gopher.Lib.Places
import Gopher.SystemInfos.Disk
import Mathlib.Algebra.GroupWithZero.Basic
import Mathlib.Algebra.Order.Field.Rat
import Mathlib.Data.Nat.Cast.Order.Ring
import Mathlib.Tactic.NormNum.Basic

namespace Gopher.SystemInfos

open Lib

-- What the kernel lets a network device be called.
structure DevName where
  text : Text
  ne_nil : text ≠ []
  legal : ∀ char ∈ text, isBlank char = false ∧ char ≠ ':'
  short : text.length < NET_DEVICE_NAME_SIZE

-- A device in `/proc/net/dev`.
structure NetDevRow where
  name : DevName
  rxBytes : UInt64
  rxPackets : UInt64
  rxErrs : UInt64
  rxDropped : UInt64
  rxFifo : UInt64
  rxFrame : UInt64
  rxCompressed : UInt64
  rxMulticast : UInt64
  txBytes : UInt64
  txPackets : UInt64
  txErrs : UInt64
  txDropped : UInt64
  txFifo : UInt64
  txColls : UInt64
  txCarrier : UInt64
  txCompressed : UInt64

def NetDevRow.numbers (row : NetDevRow) : List UInt64 :=
  [row.rxBytes, row.rxPackets, row.rxErrs, row.rxDropped, row.rxFifo, row.rxFrame,
    row.rxCompressed, row.rxMulticast, row.txBytes, row.txPackets, row.txErrs, row.txDropped,
    row.txFifo, row.txColls, row.txCarrier, row.txCompressed]

-- The line of a device, with any padding of the numbers.
structure NetDevRow.Shown (row : NetDevRow) (line : Text) : Prop where
  isLine : IsLine line
  shape : ∃ indent numbers,
    line = List.replicate indent ' ' ++ (row.name.text ++ ':' :: ' ' :: numbers) ∧
      words isBlank numbers = row.numbers.map fun n => decimalText n.toNat

-- The file is its two heading lines, in whose place there may be any others of the kind, and a
-- line for each device.
def NetDevFile (rows : List NetDevRow) (file : Text) : Prop :=
  ∃ headings lines, file = printed (headings ++ lines) ∧
    (∀ heading ∈ headings, '|' ∈ heading ∧ IsLine heading) ∧
    List.Forall₂ NetDevRow.Shown rows lines

section Lines

variable {row : NetDevRow} {line : Text} {stats : NetDevStat}

-- What is stored of the line of a device.
def NetDevRow.store (row : NetDevRow) (stats : NetDevStat) : NetDevStat :=
  { stats with
    rxBytes := row.rxBytes
    rxPackets := row.rxPackets
    rxErrs := row.rxErrs
    rxDropped := row.rxDropped
    txBytes := row.txBytes
    txPackets := row.txPackets
    txErrs := row.txErrs
    txDropped := row.txDropped }

theorem storeU64_number (n : UInt64) : storeU64 (.number (n.toNat : ℤ)) = n := by
  rw [storeU64, clampU64_ofNat n.toNat_lt, UInt64.ofNat_toNat]

theorem isBlank_of_mem_label (row : NetDevRow) :
    ∀ char ∈ row.name.text ++ [':'], isBlank char = false := by
  intro char hchar
  rcases List.mem_append.mp hchar with hchar | hchar
  · exact (row.name.legal char hchar).1
  · rw [List.mem_singleton.mp hchar]
    rfl

theorem words_shown {indent : ℕ} {numbers : Text} (row : NetDevRow) :
    words isBlank (List.replicate indent ' ' ++ (row.name.text ++ ':' :: ' ' :: numbers) ++ ['\n']) =
      (row.name.text ++ [':']) :: words isBlank numbers := by
  have hindent : ∀ char ∈ List.replicate indent ' ', isBlank char = true := by
    intro char hchar
    rw [List.eq_of_mem_replicate hchar]
    rfl
  have hshape : List.replicate indent ' ' ++ (row.name.text ++ ':' :: ' ' :: numbers) ++ ['\n'] =
      List.replicate indent ' ' ++ ((row.name.text ++ [':']) ++ ' ' :: (numbers ++ '\n' :: [])) := by
    simp
  rw [hshape, words_append_of_seps hindent, words_append_cons _ rfl,
    words_of_no_sep (isBlank_of_mem_label row) (by simp), words_append_cons _ rfl, words_nil, List.append_nil]
  rfl

theorem getNetdevFileds_shown (hline : row.Shown line) (stats : NetDevStat) :
    getNetdevFileds (line ++ ['\n']) stats = (row.store stats, true) := by
  obtain ⟨indent, numbers, rfl, hnumbers⟩ := hline.shape
  have hvalues : sscanf netDevFormat
      (List.replicate indent ' ' ++ (row.name.text ++ ':' :: ' ' :: numbers) ++ ['\n']) =
      [row.rxBytes, row.rxPackets, row.rxErrs, row.rxDropped, row.txBytes, row.txPackets,
        row.txErrs, row.txDropped].map fun n => Scanned.number n.toNat := by
    rw [sscanf_eq, words_shown, hnumbers, netDevFormat, 
      scanWords_skipS (isBlank_of_mem_label row) (by simp)]
    simp [NetDevRow.numbers]
  rw [getNetdevFileds, hvalues]
  simp [netDevPointers, storeU64_number, NetDevRow.store, NETDEV_FIELD_NUM]

theorem getNetdevName_shown (hline : row.Shown line) :
    getNetdevName (line ++ ['\n']) = row.name.text := by
  obtain ⟨indent, numbers, rfl, -⟩ := hline.shape
  have hfront : ∀ char ∈ List.replicate indent ' ' ++ row.name.text, decide (char ≠ ':') = true := by
    intro char hchar
    rcases List.mem_append.mp hchar with hchar | hchar
    · rw [List.eq_of_mem_replicate hchar]
      rfl
    · simpa using (row.name.legal char hchar).2
  have hshape : List.replicate indent ' ' ++ (row.name.text ++ ':' :: ' ' :: numbers) ++ ['\n'] =
      (List.replicate indent ' ' ++ row.name.text) ++ ':' :: ' ' :: (numbers ++ ['\n']) := by
    simp
  have hname : ∀ char ∈ row.name.text, decide (char ≠ ' ') = true := by
    intro char hchar
    have hblank := (row.name.legal char hchar).1
    rw [decide_eq_true_eq]
    rintro rfl
    cases hblank
  have hindent : (List.replicate indent ' ').filter (· ≠ ' ') = [] := by simp
  rw [getNetdevName, hshape, List.takeWhile_append_of_pos hfront,
    List.takeWhile_cons_of_neg (by simp), List.append_nil, List.filter_append, hindent,
    List.nil_append, List.filter_eq_self.mpr hname]

-- No other part of the line can hold the mark of the headings.
theorem contains_bar_shown (hline : row.Shown line) :
    (line ++ ['\n']).contains '|' = row.name.text.contains '|' := by
  obtain ⟨indent, numbers, rfl, hnumbers⟩ := hline.shape
  have hbar : '|' ∉ numbers := by
    intro hmem
    obtain ⟨word, hword, hin⟩ := exists_mem_words hmem (show isBlank '|' = false from rfl)
    rw [hnumbers] at hword
    obtain ⟨n, -, rfl⟩ := List.mem_map.mp hword
    rcases mem_decimalText hin with hminus | hdigit
    · exact absurd hminus (by decide)
    · exact absurd hdigit (by decide)
  have hindent : '|' ∉ List.replicate indent ' ' := by simp
  rw [Bool.eq_iff_iff, List.contains_iff_mem, List.contains_iff_mem]
  simp [hbar, hindent]

end Lines

section Round

variable (phyNetdevList : List Text) (input : NetInput)

-- The devices that get as far as a slot.
def NetDevRow.Monitored (row : NetDevRow) : Bool :=
  !row.name.text.contains '|' && isPhysicalNetdev phyNetdevList row.name.text

-- The slot behind the reading of a device, as it stands before and after.
def NetDevRow.temp (row : NetDevRow) (slot : NetDevStat) : NetDevStat :=
  { slot with devName := row.name.text }

def NetDevRow.read (row : NetDevRow) (slot : NetDevStat) : NetDevStat :=
  getNetdevQdisc (input.qdisc row.name.text)
    (getNetdevStatus (input.operstate row.name.text) (row.store (row.temp slot)))

variable {phyNetdevList} {input} {row : NetDevRow} {line : Text}
  {loop : Places.Loop NetDevStat NicOutput}

theorem devName_getNetdevStatus (operstate : Option Text) (stats : NetDevStat) :
    (getNetdevStatus operstate stats).devName = stats.devName := by
  cases operstate <;> rfl

theorem devName_getNetdevQdisc (output : Option Text) (stats : NetDevStat) :
    (getNetdevQdisc output stats).devName = stats.devName := by
  cases output <;> rfl

theorem truncated_name (row : NetDevRow) : truncated NET_DEVICE_NAME_SIZE row.name.text = row.name.text :=
  List.take_of_length_le (by have := row.name.short; omega)

theorem netLine_of_not_monitored (hline : row.Shown line)
    (hrow : row.Monitored phyNetdevList = false) :
    netLine phyNetdevList input loop (line ++ ['\n']) = some loop := by
  rw [netLine, contains_bar_shown hline, getNetdevName_shown hline]
  rw [NetDevRow.Monitored, Bool.and_eq_false_iff] at hrow
  rcases hrow with hbar | hphysical
  · rw [if_pos (by simpa using hbar)]
  · simp only [hphysical, Bool.false_eq_true, if_false, ite_self]

theorem netLine_of_monitored (hline : row.Shown line) (hrow : row.Monitored phyNetdevList = true)
    (hlength : loop.slots.length = phyNetdevList.length) {slot : NetDevStat}
    (hslot : loop.slots[loop.index]? = some slot) :
    netLine phyNetdevList input loop (line ++ ['\n']) =
      some (loop.store (row.read input slot)
        (nicOutput (row.read input slot) (row.temp slot) input.param)) := by
  have hindex := (List.getElem?_eq_some_iff.mp hslot).1
  rw [NetDevRow.Monitored, Bool.and_eq_true, Bool.not_eq_true'] at hrow
  rw [netLine, contains_bar_shown hline, getNetdevName_shown hline, hrow.1, if_neg Bool.false_ne_true,
    if_neg (by omega)]
  simp only [hrow.2, if_true, hslot, truncated_name]
  rw [Option.bind_eq_bind, Option.bind_some, getNetdevFileds_shown hline]
  simp only [devName_getNetdevStatus]
  rfl

-- The lines as `fgets` gives them.
theorem forall₂_newline {α : Type} {shown : α → Text → Prop} {rows : List α} {lines : List Text}
    (hlines : List.Forall₂ shown rows lines) :
    List.Forall₂ (fun row line => ∃ text, shown row text ∧ line = text ++ ['\n']) rows
      (lines.map fun line => line ++ ['\n']) := by
  induction hlines with
  | nil => exact .nil
  | cons hline _ ih => exact .cons ⟨_, hline, rfl⟩ ih

theorem isLine_of_shown {rows : List NetDevRow} {lines : List Text}
    (hlines : List.Forall₂ NetDevRow.Shown rows lines) : ∀ line ∈ lines, IsLine line := by
  induction hlines with
  | nil => simp
  | cons hline _ ih => exact List.forall_mem_cons.mpr ⟨hline.isLine, ih⟩

theorem length_filter_monitored {rows : List NetDevRow}
    (hnames : (rows.map fun row => row.name.text).Nodup) :
    (rows.filter (NetDevRow.Monitored phyNetdevList)).length ≤ phyNetdevList.length := by
  have hnodup : ((rows.filter (NetDevRow.Monitored phyNetdevList)).map
      fun row => row.name.text).Nodup :=
    hnames.sublist (List.filter_sublist.map _)
  have hsubset : (rows.filter (NetDevRow.Monitored phyNetdevList)).map
      (fun row => row.name.text) ⊆ phyNetdevList := by
    intro name hname
    obtain ⟨row, hrow, rfl⟩ := List.mem_map.mp hname
    have hmonitored := (List.mem_filter.mp hrow).2
    rw [NetDevRow.Monitored, Bool.and_eq_true] at hmonitored
    exact List.contains_iff_mem.mp hmonitored.2
  have hle := (hnodup.subperm hsubset).length_le
  rwa [List.length_map] at hle

-- One round on a file that shows some devices, each of them once.
theorem systemNetProbe_eq {rows : List NetDevRow} (hfile : NetDevFile rows input.netDev)
    (hnames : (rows.map fun row => row.name.text).Nodup) {devStats : List NetDevStat}
    (hlength : devStats.length = phyNetdevList.length) :
    systemNetProbe phyNetdevList devStats input =
      some
        (Places.overwrite (NetDevRow.read input) (rows.filter (NetDevRow.Monitored phyNetdevList))
            devStats,
          List.zipWith (fun row slot => nicOutput (row.read input slot) (row.temp slot) input.param)
            (rows.filter (NetDevRow.Monitored phyNetdevList)) devStats) := by
  obtain ⟨headings, lines, hprinted, hheadings, hlines⟩ := hfile
  have hall : ∀ line ∈ headings ++ lines, '\n' ∉ line ∧ line.length < LINE_BUF_LEN - 1 := by
    intro line hline
    rcases List.mem_append.mp hline with hline | hline
    · exact (hheadings line hline).2
    · exact isLine_of_shown hlines line hline
  have hskip : (headings.map fun line => line ++ ['\n']).foldlM (netLine phyNetdevList input)
      ⟨devStats, 0, []⟩ = some ⟨devStats, 0, []⟩ := by
    clear hprinted hall
    induction headings with
    | nil => rfl
    | cons heading headings ih =>
        have hbar : (heading ++ ['\n']).contains '|' = true :=
          List.contains_iff_mem.mpr
            (List.mem_append_left _ (hheadings heading List.mem_cons_self).1)
        rw [List.map_cons, List.foldlM_cons, netLine, if_pos hbar]
        exact ih fun other hother => hheadings other (List.mem_cons_of_mem heading hother)
  have hroom : 0 + (rows.filter (NetDevRow.Monitored phyNetdevList)).length ≤ devStats.length := by
    rw [Nat.zero_add, hlength]
    exact length_filter_monitored hnames
  have hrows : (lines.map fun line => line ++ ['\n']).foldlM (netLine phyNetdevList input)
      ⟨devStats, 0, []⟩ = _ :=
    Places.foldlM_eq phyNetdevList.length
      (fun row line loop hline hrow => by
        obtain ⟨text, htext, rfl⟩ := hline
        exact netLine_of_not_monitored htext hrow)
      (fun row line loop slot hline hrow hcount hslot => by
        obtain ⟨text, htext, rfl⟩ := hline
        exact netLine_of_monitored htext hrow hcount hslot)
      (forall₂_newline hlines) ⟨devStats, 0, []⟩ hlength hroom
  rw [systemNetProbe, hprinted, fgetsAll_printed_of_lt (by decide) hall, List.map_append,
    List.foldlM_append, hskip]
  simp only [Option.bind_eq_bind, Option.bind_some, hrows]
  simp

end Round

section Rounds

-- A round, with the devices that its file shows.
structure NetRound where
  rows : List NetDevRow
  input : NetInput
  file : NetDevFile rows input.netDev
  nodup : (rows.map fun row => row.name.text).Nodup

-- The counters of a device of which deltas are printed.
inductive NetField where
  | rxBytes
  | rxPackets
  | rxErrs
  | rxDropped
  | txBytes
  | txPackets
  | txErrs
  | txDropped
  deriving DecidableEq

def NetField.ofRow : NetField → NetDevRow → UInt64
  | .rxBytes, row => row.rxBytes
  | .rxPackets, row => row.rxPackets
  | .rxErrs, row => row.rxErrs
  | .rxDropped, row => row.rxDropped
  | .txBytes, row => row.txBytes
  | .txPackets, row => row.txPackets
  | .txErrs, row => row.txErrs
  | .txDropped, row => row.txDropped

def NetField.ofStat : NetField → NetDevStat → UInt64
  | .rxBytes, stats => stats.rxBytes
  | .rxPackets, stats => stats.rxPackets
  | .rxErrs, stats => stats.rxErrs
  | .rxDropped, stats => stats.rxDropped
  | .txBytes, stats => stats.txBytes
  | .txPackets, stats => stats.txPackets
  | .txErrs, stats => stats.txErrs
  | .txDropped, stats => stats.txDropped

def NetField.ofRecord : NetField → NicRecord → UInt64
  | .rxBytes, record => record.rxBytes
  | .rxPackets, record => record.rxPackets
  | .rxErrs, record => record.rxErrs
  | .rxDropped, record => record.rxDropped
  | .txBytes, record => record.txBytes
  | .txPackets, record => record.txPackets
  | .txErrs, record => record.txErrs
  | .txDropped, record => record.txDropped

variable {phyNetdevList : List Text} {input : NetInput} {field : NetField}

theorem ofRecord_nicRecord (new old : NetDevStat) (param : ProbeParam) :
    field.ofRecord (nicRecord new old param) = clampedDelta (field.ofStat new) (field.ofStat old) := by
  cases field <;> rfl

theorem ofStat_temp (row : NetDevRow) (slot : NetDevStat) :
    field.ofStat (row.temp slot) = field.ofStat slot := by
  cases field <;> rfl

theorem ofStat_getNetdevQdisc (output : Option Text) (stats : NetDevStat) :
    field.ofStat (getNetdevQdisc output stats) = field.ofStat stats := by
  cases output <;> cases field <;> rfl

theorem ofStat_getNetdevStatus (operstate : Option Text) (stats : NetDevStat) :
    field.ofStat (getNetdevStatus operstate stats) = field.ofStat stats := by
  cases operstate <;> cases field <;> rfl

theorem ofStat_read (row : NetDevRow) (slot : NetDevStat) :
    field.ofStat (row.read input slot) = field.ofRow row := by
  rw [NetDevRow.read, ofStat_getNetdevQdisc, ofStat_getNetdevStatus]
  cases field <;> rfl

theorem devName_read (row : NetDevRow) (slot : NetDevStat) :
    (row.read input slot).devName = row.name.text := by
  rw [NetDevRow.read, devName_getNetdevQdisc, devName_getNetdevStatus]
  rfl

-- The value of a counter in what a slot held, zero in one that was never read into.
def NetField.ofHeld (field : NetField) (reading : Option NetDevRow) : UInt64 :=
  reading.elim 0 field.ofRow

-- The slot stands for what its place held.
def NetHolds (reading : Option NetDevRow) (slot : NetDevStat) : Prop :=
  ∀ field : NetField, field.ofStat slot = field.ofHeld reading

-- What is printed for a device, from the rounds before.
def NetPrints (phyNetdevList : List Text) (earlier : List (List NetDevRow)) (place : ℕ)
    (row : NetDevRow) (out : NicOutput) : Prop :=
  out.record.devName = row.name.text ∧
    ∀ field : NetField, field.ofRecord out.record = clampedDelta (field.ofRow row)
      (field.ofHeld
        (Places.held (earlier.map (List.filter (NetDevRow.Monitored phyNetdevList))) place))

theorem prints_round (input : NetInput) {rows : List NetDevRow} {earlier : List (List NetDevRow)}
    {devStats : List NetDevStat} (hroom : rows.length ≤ devStats.length)
    (hholds : Places.Holds NetHolds
      (earlier.map (List.filter (NetDevRow.Monitored phyNetdevList))) devStats) :
    Places.Prints (NetPrints phyNetdevList earlier) rows (List.zipWith
      (fun row slot => nicOutput (row.read input slot) (row.temp slot) input.param) rows devStats) := by
  refine ⟨by rw [List.length_zipWith]; omega, fun place row out hrow hout => ?_⟩
  obtain ⟨hplace, -⟩ := List.getElem?_eq_some_iff.mp hrow
  have hslot := List.getElem?_eq_getElem (Nat.lt_of_lt_of_le hplace hroom)
  rw [List.getElem?_zipWith, hrow, hslot] at hout
  cases hout
  refine ⟨devName_read row _, fun field => ?_⟩
  rw [nicOutput, ofRecord_nicRecord, ofStat_read, ofStat_temp, hholds place _ hslot field]

-- The slots after some rounds.
structure NetInv (phyNetdevList : List Text) (earlier : List (List NetDevRow))
    (devStats : List NetDevStat) : Prop where
  length : devStats.length = phyNetdevList.length
  holds : Places.Holds NetHolds
    (earlier.map (List.filter (NetDevRow.Monitored phyNetdevList))) devStats

theorem systemNetProbe_prints (round : NetRound) {earlier : List (List NetDevRow)}
    {devStats : List NetDevStat} (hinv : NetInv phyNetdevList earlier devStats) :
    ∃ next outs, systemNetProbe phyNetdevList devStats round.input = some (next, outs) ∧
      NetInv phyNetdevList (earlier ++ [round.rows]) next ∧
      Places.Prints (NetPrints phyNetdevList earlier)
        (round.rows.filter (NetDevRow.Monitored phyNetdevList)) outs := by
  have hroom : (round.rows.filter (NetDevRow.Monitored phyNetdevList)).length ≤ devStats.length := by
    rw [hinv.length]
    exact length_filter_monitored round.nodup
  refine ⟨_, _, systemNetProbe_eq round.file round.nodup hinv.length, ⟨?_, ?_⟩,
    prints_round round.input hroom hinv.holds⟩
  · exact (Places.length_overwrite hroom).trans hinv.length
  · rw [List.map_append]
    exact hinv.holds.overwrite (fun row slot field => ofStat_read row slot) hroom

end Rounds

section Disk

-- What the kernel calls a disk.
structure DiskName where
  text : Text
  ne_nil : text ≠ []
  legal : ∀ char ∈ text, isBlank char = false
  short : text.length < DISK_NAME_LEN

-- A disk in `/proc/diskstats`.
structure DiskRow where
  major : ℕ
  minor : ℕ
  name : DiskName
  rdIos : UInt64
  rdMerges : UInt64
  rdSectors : UInt64
  rdTicks : UInt64
  wrIos : UInt64
  wrMerges : UInt64
  wrSectors : UInt64
  wrTicks : UInt64
  inFlight : UInt64
  ioTicks : UInt64
  timeInQueue : UInt64
  further : List UInt64

def DiskRow.numbers (row : DiskRow) : List UInt64 :=
  [row.rdIos, row.rdMerges, row.rdSectors, row.rdTicks, row.wrIos, row.wrMerges, row.wrSectors,
    row.wrTicks, row.inFlight, row.ioTicks, row.timeInQueue] ++ row.further

-- The line of a disk, with any padding.
structure DiskRow.Shown (row : DiskRow) (line : Text) : Prop where
  isLine : IsLine line
  words : words isBlank line = decimalText row.major :: decimalText row.minor :: row.name.text ::
    row.numbers.map fun n => decimalText n.toNat

def DiskFile (rows : List DiskRow) (file : Text) : Prop :=
  ∃ lines, file = printed lines ∧ List.Forall₂ DiskRow.Shown rows lines

-- The counters of a disk as they are kept.
def DiskRow.stats (row : DiskRow) : DiskStats :=
  ⟨row.name.text, row.rdIos.toUInt32, row.rdSectors.toUInt32, row.rdTicks.toUInt32,
    row.wrIos.toUInt32, row.wrSectors.toUInt32, row.wrTicks.toUInt32, row.ioTicks.toUInt32,
    row.timeInQueue.toUInt32⟩

structure DiskRound where
  rows : List DiskRow
  input : DiskInput
  file : DiskFile rows input.diskstats
  nodup : (rows.map fun row => row.name.text).Nodup
  period : input.param.period.toInt32.toInt ≠ 0

variable {row : DiskRow} {line : Text} {diskDevNum : ℕ}

theorem storeU32_number (n : UInt64) : storeU32 (.number (n.toNat : ℤ)) = n.toUInt32 := by
  rw [storeU32, storeU64_number]

theorem getDiskstatsFields_shown (hline : row.Shown line) (stats : DiskStats) :
    getDiskstatsFields (line ++ ['\n']) stats = (row.stats, true) := by
  have hwords : words isBlank (line ++ ['\n']) = words isBlank line := by
    rw [words_append_cons line rfl, words_nil, List.append_nil]
  have hvalues : sscanf diskstatsFormat (line ++ ['\n']) = .text row.name.text ::
      [row.rdIos, row.rdSectors, row.rdTicks, row.wrIos, row.wrSectors, row.wrTicks,
        row.ioTicks, row.timeInQueue].map fun n => Scanned.number n.toNat := by
    rw [sscanf_eq, hwords, hline.words, diskstatsFormat]
    simp only [scanWords_skipD, scanWords_s row.name.legal row.name.ne_nil, DiskRow.numbers,
      List.cons_append, List.nil_append, List.map_cons, scanWords_d]
    rw [scanWords_of_not_stored (by simp [ScanDirective.skipD])]
    rfl
  rw [getDiskstatsFields, hvalues]
  simp [diskstatsPointers, storeU32_number, storeText, DiskRow.stats, DISKSTAT_FIELD_NUM]

-- The members of two earlier readings that a calculation with the current one looks at are
-- equal. The ticks are looked at when there were accesses.
structure Alike (cur first second : DiskStats) : Prop where
  rdIos : first.rdIos = second.rdIos
  rdSectors : first.rdSectors = second.rdSectors
  rdTicks : first.rdIos ≠ cur.rdIos → first.rdTicks = second.rdTicks
  wrIos : first.wrIos = second.wrIos
  wrSectors : first.wrSectors = second.wrSectors
  wrTicks : first.wrIos ≠ cur.wrIos → first.wrTicks = second.wrTicks
  ioTicks : first.ioTicks = second.ioTicks
  timeInQueue : first.timeInQueue = second.timeInQueue

section Calculation

variable {n first second ios lastIos : UInt32} {p : Int32}

theorem eq_of_sub_eq (h : n - first = n - second) : first = second := by
  grind

theorem sValue_inj (hp : p.toInt ≠ 0) (h : sValue first n p = sValue second n p) :
    first = second := by
  have hp' : (p.toInt : ℚ) ≠ 0 := by exact_mod_cast hp
  rw [sValue, sValue, div_left_inj' hp'] at h
  exact eq_of_sub_eq (UInt32.toNat_inj.mp (by exact_mod_cast h))

theorem perIo_congr {firstTicks secondTicks ticks sectors lastSectors : UInt32}
    (h : lastIos ≠ ios → firstTicks = secondTicks) :
    perIo lastIos ios firstTicks ticks lastSectors sectors =
      perIo lastIos ios secondTicks ticks lastSectors sectors := by
  rw [perIo, perIo]
  split_ifs with hios
  · rfl
  · rw [h fun hsame => hios (by rw [hsame, UInt32.sub_self])]

theorem perIo_inj {firstTicks secondTicks ticks sectors firstSectors secondSectors : UInt32}
    (hios : lastIos ≠ ios)
    (h : (perIo lastIos ios firstTicks ticks firstSectors sectors).1 =
      (perIo lastIos ios secondTicks ticks secondSectors sectors).1) : firstTicks = secondTicks := by
  have hne : ios - lastIos ≠ 0 := by
    intro hzero
    exact hios (by grind)
  have hcast : ((ios - lastIos).toNat : ℚ) ≠ 0 := by
    have hnat : (ios - lastIos).toNat ≠ 0 := fun hnat => hne (UInt32.toNat_inj.mp hnat)
    exact_mod_cast hnat
  rw [perIo, perIo, if_neg hne, if_neg hne, div_left_inj' hcast] at h
  exact eq_of_sub_eq (UInt32.toNat_inj.mp (by exact_mod_cast h))

theorem calDiskIoStats_eq_iff (hp : p.toInt ≠ 0) (cur last other : DiskStats) :
    calDiskIoStats last cur p = calDiskIoStats other cur p ↔ Alike cur last other := by
  have htwo : (2 : ℚ) ≠ 0 := by norm_num
  constructor
  · intro h
    have hrd : last.rdIos = other.rdIos := sValue_inj hp (congrArg DiskIoStats.rdSpeed h)
    have hwr : last.wrIos = other.wrIos := sValue_inj hp (congrArg DiskIoStats.wrSpeed h)
    refine ⟨hrd, ?_, ?_, hwr, ?_, ?_, ?_, ?_⟩
    · exact sValue_inj hp ((div_left_inj' htwo).mp (congrArg DiskIoStats.rdkbSpeed h))
    · intro hne
      have hawait := congrArg DiskIoStats.rdAwait h
      simp only [calDiskIoStats, ← hrd] at hawait
      exact perIo_inj hne hawait
    · exact sValue_inj hp ((div_left_inj' htwo).mp (congrArg DiskIoStats.wrkbSpeed h))
    · intro hne
      have hawait := congrArg DiskIoStats.wrAwait h
      simp only [calDiskIoStats, ← hwr] at hawait
      exact perIo_inj hne hawait
    · exact sValue_inj hp
        ((div_left_inj' (by norm_num : (10 : ℚ) ≠ 0)).mp (congrArg DiskIoStats.util h))
    · exact sValue_inj hp
        ((div_left_inj' (by norm_num : (1000 : ℚ) ≠ 0)).mp (congrArg DiskIoStats.aquSz h))
  · intro h
    simp only [calDiskIoStats, ← h.rdIos, ← h.wrIos, ← h.rdSectors, ← h.wrSectors, ← h.ioTicks,
      ← h.timeInQueue, perIo_congr h.rdTicks, perIo_congr h.wrTicks]

-- The zeros of the first round are what no change gives.
theorem calDiskIoStats_self (cur : DiskStats) : calDiskIoStats cur cur p = DiskIoStats.zero := by
  simp [calDiskIoStats, perIo, sValue, DiskIoStats.zero]

end Calculation

-- What a round reads of a disk.
structure DiskReading where
  row : DiskRow
  period : Int32
  period_ne : period.toInt ≠ 0

def DiskRound.readings (round : DiskRound) : List DiskReading :=
  round.rows.map fun row => ⟨row, round.input.param.period.toInt32, round.period⟩

def DiskReading.key (reading : DiskReading) : Text := reading.row.name.text

-- What stands in a slot before and after it is read into.
def DiskReading.ofHeld (reading : Option DiskReading) : DiskStats :=
  reading.elim DiskStats.zero fun reading => reading.row.stats

-- No round so far has shown all disks there were at the start.
def FirstFlag (diskDevNum : ℕ) (earlier : List (List DiskReading)) : Prop :=
  ∀ readings ∈ earlier, readings.length < diskDevNum

instance (diskDevNum : ℕ) (earlier : List (List DiskReading)) :
    Decidable (FirstFlag diskDevNum earlier) :=
  inferInstanceAs (Decidable (∀ readings ∈ earlier, _))

-- What is printed for a disk, from the rounds before.
def DiskPrints (diskDevNum : ℕ) (earlier : List (List DiskReading)) (place : ℕ)
    (reading : DiskReading) (out : DiskOutput) : Prop :=
  out.diskName = reading.key ∧
    out.ioDatas =
      if FirstFlag diskDevNum earlier then DiskIoStats.zero
      else calDiskIoStats (DiskReading.ofHeld (Places.held (earlier.map (List.take diskDevNum)) place))
        reading.row.stats reading.period

-- The state after some rounds.
structure DiskInv (diskDevNum : ℕ) (earlier : List (List DiskReading)) (state : DiskState) :
    Prop where
  length : state.diskStats.length = diskDevNum
  holds : Places.Holds (fun reading slot => slot = DiskReading.ofHeld reading)
    (earlier.map (List.take diskDevNum)) state.diskStats
  firstFlag : state.firstFlag = decide (FirstFlag diskDevNum earlier)

def diskOutput (firstFlag : Bool) (param : ProbeParam) (row : DiskRow) (slot : DiskStats) :
    DiskOutput :=
  let ioDatas := if firstFlag then DiskIoStats.zero
    else calDiskIoStats slot row.stats param.period.toInt32
  ⟨row.name.text, ioDatas, reportDiskIostat row.name.text ioDatas param⟩

theorem diskLine_shown {firstFlag : Bool} {param : ProbeParam}
    {loop : Places.Loop DiskStats DiskOutput} (hline : row.Shown line)
    (hlength : loop.slots.length = diskDevNum) {slot : DiskStats}
    (hslot : loop.slots[loop.index]? = some slot) :
    diskLine diskDevNum firstFlag param loop (line ++ ['\n']) =
      some (loop.store row.stats (diskOutput firstFlag param row slot)) := by
  have hindex := (List.getElem?_eq_some_iff.mp hslot).1
  rw [diskLine, if_neg (by omega), hslot, Option.bind_eq_bind, Option.bind_some,
    getDiskstatsFields_shown hline]
  rfl

-- Lines of further disks are read and left alone.
theorem foldlM_diskLine_full {firstFlag : Bool} {param : ProbeParam}
    {loop : Places.Loop DiskStats DiskOutput} (hfull : diskDevNum ≤ loop.index) (lines : List Text) :
    lines.foldlM (diskLine diskDevNum firstFlag param) loop = some loop := by
  induction lines with
  | nil => rfl
  | cons line lines ih =>
      rw [List.foldlM_cons, diskLine, if_pos hfull]
      exact ih

theorem isLine_of_disk_shown {rows : List DiskRow} {lines : List Text}
    (hlines : List.Forall₂ DiskRow.Shown rows lines) : ∀ line ∈ lines, IsLine line := by
  induction hlines with
  | nil => simp
  | cons hline _ ih => exact List.forall_mem_cons.mpr ⟨hline.isLine, ih⟩

theorem foldlM_disk_shown {firstFlag : Bool} {param : ProbeParam} {rows : List DiskRow}
    {lines : List Text} (hlines : List.Forall₂ DiskRow.Shown rows lines)
    {slots : List DiskStats} (hlength : slots.length = diskDevNum) :
    (lines.map fun line => line ++ ['\n']).foldlM (diskLine diskDevNum firstFlag param)
        ⟨slots, 0, []⟩ =
      some
        { slots := Places.overwrite (fun row _ => row.stats) (rows.take diskDevNum) slots
          index := (rows.take diskDevNum).length
          outputs := List.zipWith (diskOutput firstFlag param) (rows.take diskDevNum) slots } := by
  have hnewlines := forall₂_newline hlines
  generalize (lines.map fun line => line ++ ['\n']) = lines at hnewlines ⊢
  have hroom : 0 + ((rows.take diskDevNum).filter fun _ => true).length ≤ slots.length := by
    rw [List.filter_true, List.length_take, hlength]
    omega
  have hfirst : (lines.take diskDevNum).foldlM (diskLine diskDevNum firstFlag param)
      ⟨slots, 0, []⟩ = _ :=
    Places.foldlM_eq diskDevNum (fun _ _ _ _ hrow => Bool.noConfusion hrow)
      (fun row line loop slot hline _ hcount hslot => by
        obtain ⟨text, htext, rfl⟩ := hline
        exact diskLine_shown htext hcount hslot)
      (List.forall₂_take diskDevNum hnewlines) ⟨slots, 0, []⟩ hlength hroom
  conv_lhs => rw [← List.take_append_drop diskDevNum lines]
  rw [List.foldlM_append, hfirst, Option.bind_eq_bind, Option.bind_some]
  have hlines := hnewlines.length_eq
  by_cases hfull : diskDevNum ≤ rows.length
  · rw [foldlM_diskLine_full (by simp [hfull])]
    simp
  · have hnone : lines.drop diskDevNum = [] := List.drop_eq_nil_of_le (by omega)
    rw [hnone]
    simp

theorem endsComplete_printed {lines : List Text} (hlines : ∀ line ∈ lines, IsLine line) :
    EndsComplete LINE_BUF_LEN (printed lines) := by
  intro line hline
  rw [fgetsAll_printed_of_lt (by decide) hlines, List.getLast?_map] at hline
  obtain ⟨last, -, rfl⟩ := Option.map_eq_some_iff.mp hline
  exact .inl (by simp)

theorem systemIostatProbe_eq (round : DiskRound) {state : DiskState}
    (hlength : state.diskStats.length = diskDevNum) :
    systemIostatProbe diskDevNum state round.input =
      some
        (⟨Places.overwrite (fun row _ => row.stats) (round.rows.take diskDevNum) state.diskStats,
            state.firstFlag && decide (round.rows.length < diskDevNum)⟩,
          List.zipWith (diskOutput state.firstFlag round.input.param)
            (round.rows.take diskDevNum) state.diskStats) := by
  obtain ⟨lines, hprinted, hlines⟩ := round.file
  have hall := isLine_of_disk_shown hlines
  rw [systemIostatProbe, hprinted]
  simp only [fgetsAll_printed_of_lt (by decide) hall, foldlM_disk_shown hlines hlength,
    endsComplete_printed hall, Option.bind_eq_bind, Option.bind_some, decide_true, Bool.and_true]
  have hfails : decide (min diskDevNum round.rows.length < diskDevNum) =
      decide (round.rows.length < diskDevNum) := by
    rw [decide_eq_decide]
    omega
  rw [List.length_take, hfails]
  rfl

theorem firstFlag_concat (earlier : List (List DiskReading)) (readings : List DiskReading) :
    FirstFlag diskDevNum (earlier ++ [readings]) ↔
      FirstFlag diskDevNum earlier ∧ readings.length < diskDevNum := by
  simp only [FirstFlag, List.forall_mem_append, List.forall_mem_singleton]

theorem systemIostatProbe_prints (round : DiskRound) {earlier : List (List DiskReading)}
    {state : DiskState} (hinv : DiskInv diskDevNum earlier state) :
    ∃ next outs, systemIostatProbe diskDevNum state round.input = some (next, outs) ∧
      DiskInv diskDevNum (earlier ++ [round.readings]) next ∧
      Places.Prints (DiskPrints diskDevNum earlier) (round.readings.take diskDevNum) outs := by
  have hroom : (round.readings.take diskDevNum).length ≤ state.diskStats.length := by
    rw [List.length_take, hinv.length]
    omega
  have hreadings : round.readings.length = round.rows.length := List.length_map _
  have hslots : Places.overwrite (fun (row : DiskRow) (_ : DiskStats) => row.stats)
      (round.rows.take diskDevNum) state.diskStats =
      Places.overwrite (fun (reading : DiskReading) (_ : DiskStats) => reading.row.stats)
        (round.readings.take diskDevNum) state.diskStats := by
    rw [Places.overwrite, Places.overwrite, DiskRound.readings, ← List.map_take,
      List.zipWith_map_left, List.length_map]
  refine ⟨_, _, systemIostatProbe_eq round hinv.length, ⟨?_, ?_, ?_⟩, ?_, ?_⟩
  · dsimp only
    rw [hslots, Places.length_overwrite hroom, hinv.length]
  · dsimp only
    rw [hslots, List.map_append]
    exact hinv.holds.overwrite (fun _ _ => rfl) hroom
  · dsimp only
    rw [hinv.firstFlag, ← Bool.decide_and, decide_eq_decide, firstFlag_concat, hreadings]
  · rw [List.length_zipWith, List.length_take, List.length_take, hinv.length, hreadings]
    omega
  · intro place reading out hreading hout
    obtain ⟨hplace, -⟩ := List.getElem?_eq_some_iff.mp hreading
    have hslot := List.getElem?_eq_getElem (Nat.lt_of_lt_of_le hplace hroom)
    rw [DiskRound.readings, ← List.map_take, List.getElem?_map] at hreading
    obtain ⟨row, hrow, rfl⟩ := Option.map_eq_some_iff.mp hreading
    rw [List.getElem?_zipWith, hrow, hslot] at hout
    cases hout
    refine ⟨rfl, ?_⟩
    rw [diskOutput, hinv.firstFlag, ← hinv.holds place _ hslot]
    simp

end Disk

section Own

-- The value that stands for the device's own previous one is that value, or no less than the
-- current one, as that is.
def SameDelta (now held prev : ℕ) : Prop := held = prev ∨ now ≤ held ∧ now ≤ prev

instance (now held prev : ℕ) : Decidable (SameDelta now held prev) :=
  inferInstanceAs (Decidable (_ ∨ _))

theorem clampedDelta_eq_iff (now held prev : UInt64) :
    clampedDelta now held = clampedDelta now prev ↔ SameDelta now.toNat held.toNat prev.toNat := by
  rw [← UInt64.toNat_inj, toNat_clampedDelta, toNat_clampedDelta, SameDelta]
  omega

def NetDevRow.key (row : NetDevRow) : Text := row.name.text

def NicOutput.name (out : NicOutput) : Text := out.record.devName

-- The deltas printed for a device are those to a reading of it.
def NetOwn (prev row : NetDevRow) (out : NicOutput) : Prop :=
  ∀ field : NetField, field.ofRecord out.record = clampedDelta (field.ofRow row) (field.ofRow prev)

-- The device whose reading stood at the place of a device had the same values.
def NetFits (phyNetdevList : List Text) (earlier : List (List NetDevRow)) (place : ℕ)
    (row prev : NetDevRow) : Prop :=
  ∀ field : NetField, SameDelta (field.ofRow row).toNat
    (field.ofHeld (Places.held (earlier.map (List.filter (NetDevRow.Monitored phyNetdevList)))
      place)).toNat (field.ofRow prev).toNat

def DiskOwn (prev reading : DiskReading) (out : DiskOutput) : Prop :=
  out.ioDatas = calDiskIoStats prev.row.stats reading.row.stats reading.period

-- The same for a disk. As long as no round has shown all disks, nothing is subtracted.
def DiskFits (diskDevNum : ℕ) (earlier : List (List DiskReading)) (place : ℕ)
    (reading prev : DiskReading) : Prop :=
  Alike reading.row.stats
    (if FirstFlag diskDevNum earlier then reading.row.stats
      else DiskReading.ofHeld (Places.held (earlier.map (List.take diskDevNum)) place))
    prev.row.stats

variable (phyNetdevList : List Text) (diskDevNum : ℕ)

theorem forall_mem_take_iff {α : Type} {items : List α} (hnodup : items.Nodup) {count : ℕ} :
    (∀ item ∈ items, item ∈ items.take count) ↔ items.length ≤ count := by
  constructor
  · intro h
    by_contra hlong
    have hlt : count < items.length := by omega
    have hdrop : items[count] ∈ items.drop count := by
      rw [List.drop_eq_getElem_cons hlt]
      exact List.mem_cons_self
    exact List.disjoint_take_drop hnodup (Nat.le_refl count) (h _ (List.getElem_mem hlt)) hdrop
  · intro hle item hitem
    rwa [List.take_of_length_le hle]

theorem netRounds_own_iff (run : List NetRound) :
    ∃ outputs, Places.runRounds (systemNetProbe phyNetdevList) (systemNetInit phyNetdevList)
        (run.map NetRound.input) = some outputs ∧
      (Places.Own NetDevRow.key NicOutput.name NetOwn (run.map NetRound.rows) outputs ↔
        Places.Fits NetDevRow.key (List.filter (NetDevRow.Monitored phyNetdevList))
          (NetFits phyNetdevList) (run.map NetRound.rows)) ∧
      (Places.OncePerRound NetDevRow.key NicOutput.name (run.map NetRound.rows) outputs ↔
        ∀ round ∈ run, ∀ row ∈ round.rows, row.Monitored phyNetdevList = true) := by
  have hinit : NetInv phyNetdevList [] (systemNetInit phyNetdevList) :=
    ⟨List.length_replicate, Places.Holds.replicate (fun field => by cases field <;> rfl) _⟩
  obtain ⟨outputs, hrun, hprints⟩ := Places.runRounds_eq (NetInv phyNetdevList)
    (fun earlier devStats round hinv => systemNetProbe_prints round hinv) run hinit
  have hkeys : ∀ rows ∈ run.map NetRound.rows, (rows.map NetDevRow.key).Nodup := by
    intro rows hrows
    obtain ⟨round, -, rfl⟩ := List.mem_map.mp hrows
    exact round.nodup
  refine ⟨outputs, hrun, ?_, ?_⟩
  · refine Places.own_iff hprints (fun _ _ _ _ h => h.1) (fun earlier place row out prev h => ?_)
      (fun rows => List.filter_sublist) hkeys
    refine forall_congr' fun field => ?_
    rw [h.2 field]
    exact clampedDelta_eq_iff _ _ _
  · refine (Places.oncePerRound_iff hprints (fun _ _ _ _ h => h.1)
      (fun rows => List.filter_sublist) hkeys).trans ?_
    simp only [List.forall_mem_map, List.mem_filter]
    exact forall₂_congr fun round _ => forall₂_congr fun row hrow => and_iff_right hrow

theorem diskRounds_own_iff (run : List DiskRound) :
    ∃ outputs, Places.runRounds (systemIostatProbe diskDevNum) (systemIostatInit diskDevNum)
        (run.map DiskRound.input) = some outputs ∧
      (Places.Own DiskReading.key DiskOutput.diskName DiskOwn (run.map DiskRound.readings) outputs ↔
        Places.Fits DiskReading.key (List.take diskDevNum) (DiskFits diskDevNum)
          (run.map DiskRound.readings)) ∧
      (Places.OncePerRound DiskReading.key DiskOutput.diskName (run.map DiskRound.readings) outputs ↔
        ∀ round ∈ run, round.rows.length ≤ diskDevNum) := by
  have hinit : DiskInv diskDevNum [] (systemIostatInit diskDevNum) := by
    refine ⟨List.length_replicate, ?_, (decide_eq_true (by simp [FirstFlag])).symm⟩
    have hzero : DiskStats.zero = DiskReading.ofHeld none := rfl
    exact @Places.Holds.replicate _ _ (fun reading slot => slot = DiskReading.ofHeld reading) _
      hzero diskDevNum
  obtain ⟨outputs, hrun, hprints⟩ := Places.runRounds_eq (DiskInv diskDevNum)
    (fun earlier state round hinv => systemIostatProbe_prints round hinv) run hinit
  have hkeys : ∀ readings ∈ run.map DiskRound.readings, (readings.map DiskReading.key).Nodup := by
    intro readings hreadings
    obtain ⟨round, -, rfl⟩ := List.mem_map.mp hreadings
    rw [DiskRound.readings, List.map_map]
    exact round.nodup
  refine ⟨outputs, hrun, ?_, ?_⟩
  · refine Places.own_iff hprints (fun _ _ _ _ h => h.1) (fun earlier place reading out prev h => ?_)
      (fun readings => List.take_sublist _ _) hkeys
    rw [List.nil_append] at h
    rw [DiskOwn, h.2, DiskFits, ← calDiskIoStats_eq_iff reading.period_ne]
    split_ifs
    · rw [calDiskIoStats_self]
    · rfl
  · refine (Places.oncePerRound_iff hprints (fun _ _ _ _ h => h.1)
      (fun readings => List.take_sublist _ _) hkeys).trans ?_
    have hall : ∀ readings ∈ run.map DiskRound.readings,
        ((∀ reading ∈ readings, reading ∈ readings.take diskDevNum) ↔
          readings.length ≤ diskDevNum) := fun readings hreadings =>
      forall_mem_take_iff (hkeys readings hreadings).of_map
    rw [forall₂_congr hall, List.forall_mem_map]
    simp only [DiskRound.readings, List.length_map]

-- Both files: when the deltas are those of the device itself, and when every device that is
-- listed is printed once.
theorem deltas_own_iff (phyNetdevList : List Text) (netRun : List NetRound) (diskDevNum : ℕ)
    (diskRun : List DiskRound) :
    (∃ outputs, Places.runRounds (systemNetProbe phyNetdevList) (systemNetInit phyNetdevList)
          (netRun.map NetRound.input) = some outputs ∧
        (Places.Own NetDevRow.key NicOutput.name NetOwn (netRun.map NetRound.rows) outputs ↔
          Places.Fits NetDevRow.key (List.filter (NetDevRow.Monitored phyNetdevList))
            (NetFits phyNetdevList) (netRun.map NetRound.rows)) ∧
        (Places.OncePerRound NetDevRow.key NicOutput.name (netRun.map NetRound.rows) outputs ↔
          ∀ round ∈ netRun, ∀ row ∈ round.rows, row.Monitored phyNetdevList = true)) ∧
    (∃ outputs, Places.runRounds (systemIostatProbe diskDevNum) (systemIostatInit diskDevNum)
          (diskRun.map DiskRound.input) = some outputs ∧
        (Places.Own DiskReading.key DiskOutput.diskName DiskOwn (diskRun.map DiskRound.readings)
            outputs ↔
          Places.Fits DiskReading.key (List.take diskDevNum) (DiskFits diskDevNum)
            (diskRun.map DiskRound.readings)) ∧
        (Places.OncePerRound DiskReading.key DiskOutput.diskName
            (diskRun.map DiskRound.readings) outputs ↔
          ∀ round ∈ diskRun, round.rows.length ≤ diskDevNum)) :=
  ⟨netRounds_own_iff phyNetdevList netRun, diskRounds_own_iff diskDevNum diskRun⟩

-- Two cards, the first of which is gone in the second round.
def eth (digit : Char) (hdigit : digit = '0' ∨ digit = '1') (rxBytes : UInt64) : NetDevRow :=
  ⟨⟨['e', 't', 'h', digit], by simp, by rcases hdigit with rfl | rfl <;> decide,
      by simp [NET_DEVICE_NAME_SIZE]⟩,
    rxBytes, 0, 0, 0, 0, 0, 0, 0, 0, 0, 0, 0, 0, 0, 0, 0⟩

def ethLine (digit : Char) (rxBytes : Text) : Text :=
  ['e', 't', 'h', digit] ++ ':' :: ' ' :: (rxBytes ++
    [' ', '0', ' ', '0', ' ', '0', ' ', '0', ' ', '0', ' ', '0', ' ', '0', ' ', '0', ' ', '0',
      ' ', '0', ' ', '0', ' ', '0', ' ', '0', ' ', '0', ' ', '0'])

theorem eth_shown {digit : Char} (hdigit : digit = '0' ∨ digit = '1') {rxBytes : UInt64}
    (hwords : words isBlank ((ethLine digit (decimalText rxBytes.toNat)).drop 6) =
      (eth digit hdigit rxBytes).numbers.map fun n => decimalText n.toNat)
    (hline : IsLine (ethLine digit (decimalText rxBytes.toNat))) :
    (eth digit hdigit rxBytes).Shown (ethLine digit (decimalText rxBytes.toNat)) :=
  ⟨hline, 0, _, rfl, hwords⟩

def headings : List Text :=
  ["Inter-|   Receive                            |  Transmit".toList,
    " face |bytes    packets errs drop fifo frame |bytes    packets errs drop fifo colls".toList]

theorem headings_shown : ∀ heading ∈ headings, '|' ∈ heading ∧ IsLine heading := by
  have hlines : ∀ heading ∈ headings,
      '|' ∈ heading ∧ '\n' ∉ heading ∧ heading.length < LINE_BUF_LEN - 1 := by decide
  exact hlines

def netInput (lines : List Text) : NetInput where
  netDev := printed (headings ++ lines)
  operstate := fun _ => none
  qdisc := fun _ => none
  param := ⟨5, 0, false, 0⟩

def unplugged : List NetRound :=
  [{ rows := [eth '0' (.inl rfl) 100, eth '1' (.inr rfl) 1000]
     input := netInput [ethLine '0' (decimalText 100), ethLine '1' (decimalText 1000)]
     file := ⟨headings, _, rfl, headings_shown, .cons
      (eth_shown (.inl rfl) (by decide) ⟨by decide, by decide⟩)
      (.cons (eth_shown (.inr rfl) (by decide) ⟨by decide, by decide⟩) .nil)⟩
     nodup := by decide },
    { rows := [eth '1' (.inr rfl) 1500]
      input := netInput [ethLine '1' (decimalText 1500)]
      file := ⟨headings, _, rfl, headings_shown, .cons
        (eth_shown (.inr rfl) (by decide) ⟨by decide, by decide⟩) .nil⟩
      nodup := by decide }]

-- Two disks, in the place of which the second and a new one are listed later.
def disk (letter : Char) (hletter : letter ∈ ['a', 'b', 'c']) (rdIos : UInt64) : DiskRow where
  major := 8
  minor := 0
  name := ⟨['s', 'd', letter], by simp, by revert letter; decide, by simp [DISK_NAME_LEN]⟩
  rdIos := rdIos
  rdMerges := 0
  rdSectors := 0
  rdTicks := 0
  wrIos := 0
  wrMerges := 0
  wrSectors := 0
  wrTicks := 0
  inFlight := 0
  ioTicks := 0
  timeInQueue := 0
  further := []

def diskText (letter : Char) (rdIos : Text) : Text :=
  "8 0 sd".toList ++ letter :: ' ' :: (rdIos ++ " 0 0 0 0 0 0 0 0 0 0".toList)

def diskInput (lines : List Text) : DiskInput := ⟨printed lines, ⟨5, 0, false, 0⟩⟩

def replaced : List DiskRound :=
  [{ rows := [disk 'a' (by decide) 100, disk 'b' (by decide) 1000]
     input := diskInput [diskText 'a' (decimalText 100), diskText 'b' (decimalText 1000)]
     file := ⟨_, rfl, .cons ⟨⟨by decide, by decide⟩, by decide⟩
      (.cons ⟨⟨by decide, by decide⟩, by decide⟩ .nil)⟩
     nodup := by decide
     period := by decide },
    { rows := [disk 'b' (by decide) 1500, disk 'c' (by decide) 0]
      input := diskInput [diskText 'b' (decimalText 1500), diskText 'c' (decimalText 0)]
      file := ⟨_, rfl, .cons ⟨⟨by decide, by decide⟩, by decide⟩
        (.cons ⟨⟨by decide, by decide⟩, by decide⟩ .nil)⟩
      nodup := by decide
      period := by decide }]

-- By their places, one card and one disk get the counters of another for their own.
theorem not_own_unplugged :
    (¬ ∃ outputs, Places.runRounds (systemNetProbe [['e', 't', 'h', '0'], ['e', 't', 'h', '1']])
        (systemNetInit [['e', 't', 'h', '0'], ['e', 't', 'h', '1']])
        (unplugged.map NetRound.input) = some outputs ∧
      Places.Own NetDevRow.key NicOutput.name NetOwn (unplugged.map NetRound.rows) outputs) ∧
    ¬ ∃ outputs, Places.runRounds (systemIostatProbe 2) (systemIostatInit 2)
        (replaced.map DiskRound.input) = some outputs ∧
      Places.Own DiskReading.key DiskOutput.diskName DiskOwn (replaced.map DiskRound.readings)
        outputs := by
  constructor
  · rintro ⟨outputs, hrun, hown⟩
    obtain ⟨others, hothers, hiff, -⟩ :=
      netRounds_own_iff [['e', 't', 'h', '0'], ['e', 't', 'h', '1']] unplugged
    rw [hrun] at hothers
    cases hothers
    have hfits := hiff.mp hown 1 _ rfl 0 (eth '1' (.inr rfl) 1500) rfl (eth '1' (.inr rfl) 1000)
      rfl .rxBytes
    revert hfits
    decide
  · rintro ⟨outputs, hrun, hown⟩
    obtain ⟨others, hothers, hiff, -⟩ := diskRounds_own_iff 2 replaced
    rw [hrun] at hothers
    cases hothers
    have hfits := (hiff.mp hown 1 _ rfl 0 _ rfl _ rfl).rdIos
    revert hfits
    decide

end Own

end Gopher.SystemInfos
