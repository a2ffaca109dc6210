import Gopher.Ipc
import Gopher.Lib.Lines
import Gopher.Lib.Words
import Gopher.SystemInfos.Net

-- The line of a process in `/proc/<pid>/stat` and the processes that are reported
-- (system_procs.c).

namespace Gopher.SystemInfos

open Gopher.Lib Gopher.Ipc

def PROC_NAME_MAX : ℕ := 64
def PROC_STAT_MAX : ℕ := 40
def PROC_IN_PROBE_RANGE : UInt8 := 1

-- `enum proc_stat_e`
inductive ProcStat
  | minFlt | majFlt | utime | stime | cutime | cstime | priority | nice | numThreads
  | starttime | vsize | rss | cpu
  deriving DecidableEq

def ProcStat.index : ProcStat → ℕ
  | minFlt => 10
  | majFlt => 12
  | utime => 14
  | stime => 15
  | cutime => 16
  | cstime => 17
  | priority => 18
  | nice => 19
  | numThreads => 20
  | starttime => 22
  | vsize => 23
  | rss => 24
  | cpu => 39

-- The members of `proc_info_t` that come from the line.
structure ProcInfo where
  procStartTime : UInt64
  procStatMinFlt : UInt64
  procStatMajFlt : UInt64
  procStatUtime : UInt64
  procStatStime : UInt64
  procStatCutime : UInt64
  procStatCstime : UInt64
  procStatPriority : UInt64
  procStatNice : UInt64
  procStatNumThreads : UInt64
  procStatVsize : UInt64
  procStatRss : UInt64
  procStatCpu : Int32
  deriving DecidableEq

def ProcInfo.zero : ProcInfo := ⟨0, 0, 0, 0, 0, 0, 0, 0, 0, 0, 0, 0, 0⟩

def doSetProcStat (procInfo : ProcInfo) (buf : Text) (index : ℕ) : ProcInfo :=
  let value := UInt64.ofInt (atoll buf)
  match index with
  | 10 => { procInfo with procStatMinFlt := value }
  | 12 => { procInfo with procStatMajFlt := value }
  | 14 => { procInfo with procStatUtime := value }
  | 15 => { procInfo with procStatStime := value }
  | 16 => { procInfo with procStatCutime := value }
  | 17 => { procInfo with procStatCstime := value }
  | 18 => { procInfo with procStatPriority := value }
  | 19 => { procInfo with procStatNice := value }
  | 20 => { procInfo with procStatNumThreads := value }
  | 22 => { procInfo with procStartTime := value }
  | 23 => { procInfo with procStatVsize := value }
  | 24 => { procInfo with procStatRss := value }
  | 39 => { procInfo with procStatCpu := Int32.ofInt value.toNat }
  | _ => procInfo

-- The separators that `strtok` gets.
def isStatSep (char : Char) : Bool := char = ' ' || char = '\t'

-- The loop over the words, the first of them at `index`.
def setProcStats : List Text → (index : ℕ) → ProcInfo → ProcInfo
  | [], _, procInfo => procInfo
  | p :: rest, index, procInfo =>
    if index < PROC_STAT_MAX
    then setProcStats rest (index + 1) (doSetProcStat procInfo p index)
    else procInfo

-- The words of the line as far as the buffer holds it.
def statWords (line : Text) : List Text := words isStatSep (splitNewlineSymbol line)

-- `none` is a file that cannot be opened.
def getProcStat (file : Option Text) (procInfo : ProcInfo) : Int × ProcInfo :=
  match file.bind (fgets LINE_BUF_LEN) with
  | none => (-1, procInfo)
  | some (line, _) => (0, setProcStats (statWords line) 1 procInfo)

-- What `awk` reads one after the other: the lines, with or without a newline at the end.
def records (text : Text) : List Text :=
  let lines := text.splitOn '\n'
  if lines.getLast? = some [] then lines.dropLast else lines

-- What "awk '\x7bprint $n\x7d'" prints. Its fields are separated by blanks and tabs.
def awkPrint (n : ℕ) (text : Text) : Text :=
  (records text).flatMap fun record => ((words isStatSep record)[n - 1]?.getD []) ++ ['\n']

-- `get_proc_start_time` (util.c) into an empty string in an array of `bufLen` bytes.
def getProcStartTime (file : Option Text) (bufLen : ℕ) : Text :=
  match file.bind fun text => fgets LINE_BUF_LEN (awkPrint 22 text) with
  | none => []
  | some (line, _) => truncated bufLen (splitNewlineSymbol line)

structure ProcKey where
  pid : UInt32
  startTime : UInt64
  deriving DecidableEq

structure ProcHash where
  key : ProcKey
  flag : UInt8
  info : ProcInfo
  deriving DecidableEq

-- What the probe finds under `/proc`. `commandStat` is the file as the command for the start
-- time reads it, which is earlier than `get_proc_stat` does.
structure ProcFs where
  isValidProc : UInt32 → Bool
  stat : UInt32 → Option Text
  commandStat : UInt32 → Option Text

-- The table, in the order in which it is iterated.
abbrev ProcMap := List ProcHash

def hashFindProc (procmap : ProcMap) (pid : UInt32) (stime : Text) : Option ProcHash :=
  procmap.find? fun proc => proc.key = ⟨pid, UInt64.ofInt (atoll stime)⟩

def updateProcInfos (fs : ProcFs) (pid : UInt32) (procInfo : ProcInfo) : ProcInfo :=
  (getProcStat (fs.stat pid) procInfo).2

def initOneProc (fs : ProcFs) (pid : UInt32) (stime : Text) : ProcHash where
  key := ⟨pid, UInt64.ofInt (atoll stime)⟩
  flag := PROC_IN_PROBE_RANGE
  info := updateProcInfos fs pid .zero

-- What the loop over the objects does with one.
def addSnooperObj (fs : ProcFs) (procmap : ProcMap) : SnooperObj → ProcMap
  | .proc pid =>
    let stime := getProcStartTime (fs.commandStat pid) PROC_NAME_MAX
    if (hashFindProc procmap pid stime).isNone then procmap ++ [initOneProc fs pid stime]
    else procmap
  | _ => procmap

def refreshProcFilterMap (fs : ProcFs) (ipcBody : IpcBody) : ProcMap :=
  ipcBody.objs.foldl (addSnooperObj fs) []

-- The table behind the probe, and the processes it has printed.
def systemProcProbe (fs : ProcFs) : ProcMap → ProcMap × List ProcHash
  | [] => ([], [])
  | proc :: rest =>
    let (procmap, printed) := systemProcProbe fs rest
    if ¬fs.isValidProc proc.key.pid then (procmap, printed)
    else if proc.flag = PROC_IN_PROBE_RANGE then
      let proc := { proc with info := updateProcInfos fs proc.key.pid proc.info }
      if proc.key.startTime ≠ proc.info.procStartTime then (procmap, printed)
      else (proc :: procmap, proc :: printed)
    else (proc :: procmap, printed)

-- What is printed in each of the periods.
def runProcProbe : List ProcFs → ProcMap → List (List ProcHash)
  | [], _ => []
  | fs :: rest, procmap =>
    (systemProcProbe fs procmap).2 :: runProcProbe rest (systemProcProbe fs procmap).1

-- What a member holds when it is set to a `u64`, and what it holds.
def ProcStat.value : ProcStat → UInt64 → ℤ
  | cpu, value => (Int32.ofInt value.toNat).toInt
  | _, value => value.toNat

def ProcInfo.get (procInfo : ProcInfo) : ProcStat → ℤ
  | .minFlt => procInfo.procStatMinFlt.toNat
  | .majFlt => procInfo.procStatMajFlt.toNat
  | .utime => procInfo.procStatUtime.toNat
  | .stime => procInfo.procStatStime.toNat
  | .cutime => procInfo.procStatCutime.toNat
  | .cstime => procInfo.procStatCstime.toNat
  | .priority => procInfo.procStatPriority.toNat
  | .nice => procInfo.procStatNice.toNat
  | .numThreads => procInfo.procStatNumThreads.toNat
  | .starttime => procInfo.procStartTime.toNat
  | .vsize => procInfo.procStatVsize.toNat
  | .rss => procInfo.procStatRss.toNat
  | .cpu => procInfo.procStatCpu.toInt

-- The line as the kernel prints it: the name between parentheses, a letter, and numbers from the
-- fourth field on.
structure StatLine where
  pid : UInt32
  comm : Text
  state : Char
  fields : List ℤ
  nul_notMem : '\x00' ∉ comm
  state_not_blank : isBlank state = false
  enough : 36 ≤ fields.length
  inRange : ∀ n ∈ fields, -2 ^ 63 ≤ n ∧ n < 2 ^ 64

namespace StatLine

-- The fields behind the first one.
def columns (line : StatLine) : List Text :=
  ('(' :: line.comm ++ [')']) :: [line.state] :: line.fields.map decimalText

def upTo (line : StatLine) (columns : List Text) : Text :=
  decimalText line.pid.toNat ++ columns.flatMap fun column => ' ' :: column

def text (line : StatLine) : Text :=
  line.upTo line.columns ++ ['\n']

-- The number at a documented position.
def field (line : StatLine) (index : ℕ) : ℤ :=
  line.fields.getD (index - 4) 0

-- The words `get_proc_stat` sees.
def words (line : StatLine) : List Text :=
  (fgets LINE_BUF_LEN line.text).elim [] fun one => statWords one.1

-- The name is one word.
def Plain (line : StatLine) : Prop :=
  ∀ char ∈ line.comm, isStatSep char = false ∧ char ≠ '\n'

-- The buffer holds the line up to the end of a field.
def Fits (line : StatLine) (index : ℕ) : Prop :=
  (line.upTo (line.columns.take (index - 1))).length < LINE_BUF_LEN

instance (line : StatLine) : Decidable line.Plain :=
  inferInstanceAs (Decidable (∀ char ∈ line.comm, _ ∧ _))

instance (line : StatLine) (index : ℕ) : Decidable (line.Fits index) :=
  inferInstanceAs (Decidable (_ < _))

end StatLine

-- Whatever the structure holds, the call leaves the number of the documented position in it.
def Assigns (line : StatLine) (stat : ProcStat) : Prop :=
  ∀ procInfo, (getProcStat (some line.text) procInfo).2.get stat =
    stat.value (UInt64.ofInt (line.field stat.index))

-- `atoll` ends at 2^63 - 1, of which an `int` keeps the lower bits.
def ProcStat.InRange (stat : ProcStat) (n : ℤ) : Prop :=
  n < 2 ^ 63 ∨ stat = cpu ∧ n % 2 ^ 32 = 2 ^ 32 - 1

-- With a name of one word the word at the index is the field. If it is not, or if the line is
-- longer than the buffer, the word that stands there must by chance read as the field.
def ReadsRight (line : StatLine) (stat : ProcStat) : Prop :=
  if line.Plain ∧ line.Fits stat.index then stat.InRange (line.field stat.index)
  else ∃ word, line.words[stat.index - 1]? = some word ∧
    stat.value (UInt64.ofInt (atoll word)) = stat.value (UInt64.ofInt (line.field stat.index))

variable {line : StatLine} {stat : ProcStat} {text : Text}

theorem doSetProcStat_get (procInfo : ProcInfo) (buf : Text) (index : ℕ) (stat : ProcStat) :
    (doSetProcStat procInfo buf index).get stat =
      if index = stat.index then stat.value (UInt64.ofInt (atoll buf)) else procInfo.get stat := by
  unfold doSetProcStat
  split
  all_goals cases stat
  all_goals first | rfl | exact (if_neg (by assumption)).symm

theorem ProcStat.index_lt (stat : ProcStat) : stat.index < PROC_STAT_MAX := by
  cases stat <;> decide

-- A member holds the word at its index, or what it held.
theorem setProcStats_get (pieces : List Text) (index : ℕ) (procInfo : ProcInfo) (stat : ProcStat) :
    (setProcStats pieces index procInfo).get stat =
      if index ≤ stat.index then
        (pieces[stat.index - index]?.map fun word => stat.value (UInt64.ofInt (atoll word))).getD
          (procInfo.get stat)
      else procInfo.get stat := by
  induction pieces generalizing index procInfo with
  | nil => simp [setProcStats]
  | cons p rest ih =>
      have hmax := stat.index_lt
      rw [setProcStats]
      by_cases hindex : index < PROC_STAT_MAX
      · rw [if_pos hindex, ih, doSetProcStat_get]
        rcases lt_trichotomy index stat.index with hlt | rfl | hlt
        · rw [if_pos (show index + 1 ≤ stat.index by omega), if_pos (Nat.le_of_lt hlt),
            if_neg (Nat.ne_of_lt hlt), show stat.index - index = stat.index - (index + 1) + 1 by omega,
            List.getElem?_cons_succ]
        · rw [if_neg (by omega), if_pos rfl, if_pos (le_refl _), Nat.sub_self,
            List.getElem?_cons_zero]
          rfl
        · rw [if_neg (by omega), if_neg (by omega), if_neg (by omega)]
      · rw [if_neg hindex, if_neg (by omega)]

theorem getProcStat_get (line : StatLine) (procInfo : ProcInfo) (stat : ProcStat) :
    (getProcStat (some line.text) procInfo).2.get stat =
      (line.words[stat.index - 1]?.map fun word => stat.value (UInt64.ofInt (atoll word))).getD
        (procInfo.get stat) := by
  have hne : line.text ≠ [] := by simp [StatLine.text]
  have hone : 1 ≤ stat.index := by cases stat <;> decide
  have hfgets := fgets_of_ne_nil LINE_BUF_LEN hne
  rw [getProcStat, Option.bind_some, StatLine.words]
  simp only [hfgets, Option.elim_some]
  rw [setProcStats_get, if_pos hone]

theorem assigns_iff_word : Assigns line stat ↔
    ∃ word, line.words[stat.index - 1]? = some word ∧
      stat.value (UInt64.ofInt (atoll word)) =
        stat.value (UInt64.ofInt (line.field stat.index)) := by
  unfold Assigns
  simp only [getProcStat_get]
  cases hword : line.words[stat.index - 1]? with
  | none =>
      -- A member that is not set differs between two structures.
      have hzero : ProcInfo.zero.get stat = 0 := by cases stat <;> rfl
      have hone : (⟨1, 1, 1, 1, 1, 1, 1, 1, 1, 1, 1, 1, 1⟩ : ProcInfo).get stat = 1 := by
        cases stat <;> rfl
      constructor
      · intro h
        have hfirst := h .zero
        have hsecond := h ⟨1, 1, 1, 1, 1, 1, 1, 1, 1, 1, 1, 1, 1⟩
        rw [Option.map_none, Option.getD_none] at hfirst hsecond
        omega
      · rintro ⟨word, hsome, -⟩
        cases hsome
  | some word =>
      simp only [Option.map_some, Option.getD_some, Option.some.injEq, exists_eq_left']
      exact ⟨fun h => h .zero, fun h _ => h⟩

-- One line of `fgets` without its newline.
theorem splitNewlineSymbol_fgets {size : ℕ} (htext : '\n' ∉ text) (rest : Text) :
    ∃ piece left, fgets size (text ++ '\n' :: rest) = some (piece, left) ∧
      splitNewlineSymbol piece = text.take (size - 1) := by
  obtain ⟨left, hfgets⟩ := fgets_line size htext rest
  refine ⟨_, left, hfgets, ?_⟩
  by_cases hroom : text.length < size - 1
  · have hlength : (text ++ ['\n']).length ≤ size - 1 := by
      rw [List.length_append, List.length_singleton]
      omega
    rw [List.take_of_length_le hlength, splitNewlineSymbol, if_pos List.getLast?_concat,
      List.dropLast_concat, List.take_of_length_le (Nat.le_of_lt hroom)]
  · have hnotMem : '\n' ∉ text.take (size - 1) := fun h => htext (List.mem_of_mem_take h)
    rw [List.take_append_of_le_length (Nat.not_lt.mp hroom), splitNewlineSymbol,
      if_neg fun h => hnotMem (List.mem_of_getLast? h)]

theorem isStatSep_of_not_blank {char : Char} (h : isBlank char = false) :
    isStatSep char = false ∧ char ≠ '\n' := by
  constructor
  · rw [Bool.eq_false_iff]
    intro hsep
    rcases (by simpa [isStatSep] using hsep : char = ' ' ∨ char = '\t') with rfl | rfl <;> cases h
  · rintro rfl
    cases h

theorem not_sep_decimalText {n : ℤ} : ∀ char ∈ decimalText n, isStatSep char = false ∧ char ≠ '\n' :=
  fun _ hchar => isStatSep_of_not_blank (isBlank_of_mem_decimalText hchar)

-- With a name of one word every field is a word.
theorem StatLine.Plain.columns (h : line.Plain) : ∀ column ∈ line.columns,
    (∀ char ∈ column, isStatSep char = false ∧ char ≠ '\n') ∧ column ≠ [] := by
  intro column hcolumn
  simp only [StatLine.columns, List.mem_cons, List.mem_map] at hcolumn
  rcases hcolumn with rfl | rfl | ⟨n, -, rfl⟩
  · refine ⟨fun char hchar => ?_, by simp⟩
    simp only [List.mem_append, List.mem_cons, List.not_mem_nil, or_false] at hchar
    rcases hchar with (rfl | hcomm) | rfl
    · exact ⟨rfl, by decide⟩
    · exact h char hcomm
    · exact ⟨rfl, by decide⟩
  · refine ⟨fun char hchar => ?_, by simp⟩
    rw [List.mem_singleton.mp hchar]
    exact isStatSep_of_not_blank line.state_not_blank
  · exact ⟨not_sep_decimalText, decimalText_ne_nil n⟩

theorem StatLine.Plain.newline_notMem (h : line.Plain) : '\n' ∉ line.upTo line.columns := by
  rw [StatLine.upTo, List.mem_append, List.mem_flatMap]
  rintro (hpid | ⟨column, hcolumn, hmem⟩)
  · exact (not_sep_decimalText _ hpid).2 rfl
  · rcases List.mem_cons.mp hmem with hblank | hmem
    · exact absurd hblank (by decide)
    · exact ((h.columns column hcolumn).1 _ hmem).2 rfl

theorem StatLine.take_upTo (line : StatLine) {size count : ℕ}
    (hroom : (line.upTo (line.columns.take count)).length ≤ size) :
    ∃ back, Behind isStatSep back ∧
      (line.upTo line.columns).take size = line.upTo (line.columns.take count) ++ back := by
  have hsplit : line.upTo line.columns = line.upTo (line.columns.take count) ++
      ((line.columns.drop count).flatMap (fun column => ' ' :: column) ++ []) := by
    rw [StatLine.upTo, StatLine.upTo, List.append_assoc, List.append_nil, ← List.flatMap_append,
      List.take_append_drop]
  have hbehind : Behind isStatSep
      ((line.columns.drop count).flatMap (fun column => ' ' :: column) ++ []) :=
    behind_columns rfl _ fun char hchar => by cases hchar
  exact ⟨_, hbehind.take _, by rw [hsplit, List.take_append, List.take_of_length_le hroom]⟩

-- The first `count` columns are words when the text is cut behind them.
theorem StatLine.Plain.words_take (h : line.Plain) {size count : ℕ}
    (hroom : (line.upTo (line.columns.take count)).length ≤ size) :
    ∃ rest, Lib.words isStatSep ((line.upTo line.columns).take size) =
      decimalText line.pid.toNat :: line.columns.take count ++ rest := by
  obtain ⟨back, hback, htake⟩ := line.take_upTo hroom
  have hcolumns : ∀ column ∈ line.columns.take count,
      (∀ char ∈ column, isStatSep char = false) ∧ column ≠ [] := by
    intro column hcolumn
    have hplain := h.columns column (List.mem_of_mem_take hcolumn)
    exact ⟨fun char hchar => (hplain.1 char hchar).1, hplain.2⟩
  refine ⟨Lib.words isStatSep back, ?_⟩
  rw [htake, StatLine.upTo, List.append_assoc,
    words_append_behind (fun char hchar => (not_sep_decimalText char hchar).1)
      (decimalText_ne_nil _) (behind_columns rfl _ hback),
    words_columns rfl hcolumns hback]
  rfl

theorem StatLine.columns_getElem? (line : StatLine) {index : ℕ} (hlow : 4 ≤ index)
    (hhigh : index ≤ 39) :
    line.columns[index - 2]? = some (decimalText (line.field index)) := by
  have hlength := line.enough
  rw [StatLine.columns, show index - 2 = index - 4 + 1 + 1 by omega, List.getElem?_cons_succ,
    List.getElem?_cons_succ, List.getElem?_map, StatLine.field, List.getD_eq_getElem?_getD,
    List.getElem?_eq_getElem (show index - 4 < line.fields.length by omega)]
  rfl

theorem StatLine.Plain.word_eq (h : line.Plain) {size index : ℕ} (hlow : 4 ≤ index)
    (hhigh : index ≤ 39) (hroom : (line.upTo (line.columns.take (index - 1))).length ≤ size) :
    (Lib.words isStatSep ((line.upTo line.columns).take size))[index - 1]? =
      some (decimalText (line.field index)) := by
  obtain ⟨rest, hwords⟩ := h.words_take hroom
  have hcolumn := line.columns_getElem? hlow hhigh
  have hlength : index - 2 < line.columns.length := (List.getElem?_eq_some_iff.mp hcolumn).1
  rw [hwords, show index - 1 = index - 2 + 1 by omega, List.cons_append, List.getElem?_cons_succ,
    List.getElem?_append_left (by rw [List.length_take]; omega), List.getElem?_take_of_lt (by omega),
    hcolumn]

theorem ProcStat.index_bounds (stat : ProcStat) : 4 ≤ stat.index ∧ stat.index ≤ 39 := by
  cases stat <;> decide

theorem StatLine.Plain.words_eq (h : line.Plain) (hfits : line.Fits stat.index) :
    line.words[stat.index - 1]? = some (decimalText (line.field stat.index)) := by
  obtain ⟨piece, rest, hfgets, hsplit⟩ :=
    @splitNewlineSymbol_fgets _ LINE_BUF_LEN h.newline_notMem []
  rw [StatLine.words, StatLine.text, hfgets, Option.elim_some, statWords, hsplit]
  exact h.word_eq stat.index_bounds.1 stat.index_bounds.2 (Nat.le_sub_one_of_lt hfits)

theorem StatLine.field_bounds (line : StatLine) (index : ℕ) :
    -2 ^ 63 ≤ line.field index ∧ line.field index < 2 ^ 64 := by
  rw [StatLine.field, List.getD_eq_getElem?_getD]
  cases hget : line.fields[index - 4]? with
  | none => exact ⟨by decide, by decide⟩
  | some n => exact line.inRange n (List.mem_of_getElem? hget)

theorem toNat_ofInt (n : ℤ) : ((UInt64.ofInt n).toNat : ℤ) = n % 2 ^ 64 := by
  simp only [UInt64.ofInt, UInt64.toNat_ofNat']
  omega

theorem value_clamp_iff {n : ℤ} (hlow : -2 ^ 63 ≤ n) (hhigh : n < 2 ^ 64) :
    stat.value (UInt64.ofInt (clampS64 n)) = stat.value (UInt64.ofInt n) ↔ stat.InRange n := by
  by_cases hroom : n < 2 ^ 63
  · rw [clampS64_of_mem hlow hroom]
    exact ⟨fun _ => .inl hroom, fun _ => rfl⟩
  · have hclamp : clampS64 n = 2 ^ 63 - 1 := by rw [clampS64]; omega
    have hfirst := toNat_ofInt (2 ^ 63 - 1)
    have hsecond := toNat_ofInt n
    rw [hclamp, ProcStat.InRange, or_iff_right hroom]
    cases stat
    case cpu =>
      simp only [ProcStat.value, Int32.toInt_ofInt, hfirst, hsecond, true_and]
      rw [show Int32.size = 4294967296 from rfl, Int.bmod_eq_emod, Int.bmod_eq_emod]
      constructor
      · intro h
        split at h <;> split at h <;> omega
      · intro h
        rw [if_pos (by omega), if_pos (by omega)]
        omega
    all_goals
      simp only [ProcStat.value, hfirst, hsecond, reduceCtorEq, false_and, iff_false]
      omega

-- The word of the first line that is taken for the start time when the process is registered.
def StatLine.commandWord (line : StatLine) : Text :=
  truncated PROC_NAME_MAX
    ((Lib.words isStatSep (line.text.takeWhile (· ≠ '\n')))[21]?.getD [])

-- With a name of one word that is the start time.
def StartRight (line : StatLine) : Prop :=
  if line.Plain then line.field 22 < 2 ^ 63
  else UInt64.ofInt (atoll line.commandWord) = UInt64.ofInt (line.field 22)

instance (line : StatLine) : Decidable (StartRight line) :=
  inferInstanceAs (Decidable (ite _ _ _))

theorem records_cons (htext : '\n' ∉ text) (rest : Text) :
    ∃ more, records (text ++ '\n' :: rest) = text :: more := by
  have hne := List.splitOn_ne_nil '\n' rest
  rw [records, List.splitOn_append_cons_self_of_not_mem htext]
  split
  · exact ⟨_, List.dropLast_cons_of_ne_nil hne⟩
  · exact ⟨_, rfl⟩

-- Which members the call sets to the field of the documented position.
theorem assigns_iff (line : StatLine) (stat : ProcStat) :
    Assigns line stat ↔ ReadsRight line stat := by
  rw [assigns_iff_word, ReadsRight]
  by_cases hplain : line.Plain ∧ line.Fits stat.index
  · obtain ⟨hlow, hhigh⟩ := line.field_bounds stat.index
    have hatoll : atoll (decimalText (line.field stat.index) ++ []) = _ :=
      atoll_decimalText (line.field stat.index) (by simp)
    rw [List.append_nil] at hatoll
    simp only [if_pos hplain, hplain.1.words_eq hplain.2, Option.some.injEq, exists_eq_left',
      hatoll]
    exact value_clamp_iff hlow hhigh
  · rw [if_neg hplain]

theorem takeWhile_newline (htext : '\n' ∉ text) (rest : Text) :
    (text ++ '\n' :: rest).takeWhile (· ≠ '\n') = text := by
  have hpos : ∀ char ∈ text, decide (char ≠ '\n') = true := fun char hchar =>
    decide_eq_true fun h : char = '\n' => htext (h ▸ hchar)
  rw [List.takeWhile_append_of_pos hpos, List.takeWhile_cons_of_neg (by simp), List.append_nil]

-- One word is printed in a line, which leaves less of it than the array does.
theorem getProcStartTime_text (line : StatLine) :
    getProcStartTime (some line.text) PROC_NAME_MAX = line.commandWord := by
  have hmem : '\n' ∈ line.text := List.mem_append_right _ List.mem_cons_self
  obtain ⟨first, rest, htext, hfirst⟩ := List.eq_append_cons_of_mem hmem
  rw [StatLine.commandWord, getProcStartTime, Option.bind_some, htext, takeWhile_newline hfirst]
  obtain ⟨more, hrecords⟩ := records_cons hfirst rest
  have hword : '\n' ∉ (Lib.words isStatSep first)[21]?.getD [] := by
    cases hget : (Lib.words isStatSep first)[21]? with
    | none => exact List.not_mem_nil
    | some word => exact fun h => hfirst (mem_of_mem_words (List.mem_of_getElem? hget) h)
  rw [awkPrint, hrecords, List.flatMap_cons, List.append_assoc]
  obtain ⟨piece, left, hfgets, hsplit⟩ := @splitNewlineSymbol_fgets _ LINE_BUF_LEN hword
    (more.flatMap fun record => ((Lib.words isStatSep record)[21]?.getD []) ++ ['\n'])
  have hmin : min (PROC_NAME_MAX - 1) (LINE_BUF_LEN - 1) = PROC_NAME_MAX - 1 := by decide
  simp only [Nat.add_one_sub_one, List.cons_append, List.nil_append, hfgets, hsplit, truncated,
    List.take_take, hmin]

theorem length_decimalText_le {n : ℤ} (hlow : -2 ^ 63 ≤ n) (hhigh : n < 2 ^ 64) :
    (decimalText n).length ≤ 21 := by
  have hdigits : (Nat.toDigits 10 n.natAbs).length ≤ 20 :=
    (Nat.length_toDigits_le_iff (by decide) (by decide)).mpr (by omega)
  rw [decimalText]
  split
  · rw [List.length_cons]
    omega
  · omega

theorem StatLine.Plain.commandWord (h : line.Plain) :
    line.commandWord = decimalText (line.field 22) := by
  have hword := h.word_eq (show 4 ≤ 22 by decide) (show 22 ≤ 39 by decide)
    (Nat.le_add_right (line.upTo (line.columns.take (22 - 1))).length
      (line.upTo line.columns).length)
  rw [List.take_of_length_le (Nat.le_add_left _ _)] at hword
  obtain ⟨hlow, hhigh⟩ := line.field_bounds 22
  rw [StatLine.commandWord, StatLine.text, takeWhile_newline h.newline_notMem, hword,
    Option.getD_some, truncated,
    List.take_of_length_le ((length_decimalText_le hlow hhigh).trans (by decide))]

theorem startTime_iff (line : StatLine) :
    UInt64.ofInt (atoll line.commandWord) = UInt64.ofInt (line.field 22) ↔ StartRight line := by
  rw [StartRight]
  by_cases hplain : line.Plain
  · obtain ⟨hlow, hhigh⟩ := line.field_bounds 22
    have hatoll : atoll (decimalText (line.field 22) ++ []) = _ :=
      atoll_decimalText (line.field 22) (by simp)
    have hvalue := @value_clamp_iff .starttime _ hlow hhigh
    rw [List.append_nil] at hatoll
    rw [if_pos hplain, hplain.commandWord, hatoll, ← UInt64.toNat_inj]
    simp only [ProcStat.value, ProcStat.InRange, reduceCtorEq, false_and, or_false] at hvalue
    rw [← hvalue]
    omega
  · rw [if_neg hplain]

-- A process from its registration on: the line at each of the times at which it is read. The
-- start time of a process does not change.
structure ProcLife where
  pid : UInt32
  starttime : ℤ
  registered : StatLine
  inited : StatLine
  rounds : List StatLine
  same : ∀ line ∈ registered :: inited :: rounds, line.pid = pid ∧ line.field 22 = starttime

namespace ProcLife

-- The lines that `get_proc_stat` reads.
def lines (life : ProcLife) : List StatLine := life.inited :: life.rounds

-- What is found under `/proc` when the process is registered, and in a period while it lives.
def Registers (life : ProcLife) (fs : ProcFs) : Prop :=
  fs.commandStat life.pid = some life.registered.text ∧ fs.stat life.pid = some life.inited.text

def Lives (life : ProcLife) (fs : ProcFs) (line : StatLine) : Prop :=
  fs.isValidProc life.pid = true ∧ fs.stat life.pid = some line.text

-- The process is printed in every period.
def KeepsReporting (life : ProcLife) (fs : ProcFs) (ipcBody : IpcBody) (periods : List ProcFs) :
    Prop :=
  ∀ printed ∈ runProcProbe periods (refreshProcFilterMap fs ipcBody),
    ∃ proc ∈ printed, proc.key.pid = life.pid

end ProcLife

-- What the probe makes of one process.
def probed (fs : ProcFs) (proc : ProcHash) : Option ProcHash :=
  let info := updateProcInfos fs proc.key.pid proc.info
  if fs.isValidProc proc.key.pid = true ∧ proc.key.startTime = info.procStartTime
  then some { proc with info := info } else none

theorem systemProcProbe_eq (fs : ProcFs) {procmap : ProcMap}
    (hflag : ∀ proc ∈ procmap, proc.flag = PROC_IN_PROBE_RANGE) :
    systemProcProbe fs procmap = (procmap.filterMap (probed fs), procmap.filterMap (probed fs)) := by
  induction procmap with
  | nil => rfl
  | cons proc rest ih =>
      obtain ⟨hproc, hrest⟩ := List.forall_mem_cons.mp hflag
      rw [systemProcProbe, ih hrest]
      by_cases hvalid : fs.isValidProc proc.key.pid = true
      · by_cases hstart : proc.key.startTime = (updateProcInfos fs proc.key.pid proc.info).procStartTime
        · rw [List.filterMap_cons_some (show probed fs proc = some _ from if_pos ⟨hvalid, hstart⟩)]
          simp [hvalid, hproc, hstart]
        · rw [List.filterMap_cons_none (show probed fs proc = none from
            if_neg fun h => hstart h.2)]
          simp [hvalid, hproc, hstart]
      · rw [List.filterMap_cons_none (show probed fs proc = none from if_neg fun h => hvalid h.1)]
        simp [hvalid]

-- All processes of the table are probed, and those with the id have the start time.
structure Tracks (pid : UInt32) (startTime : UInt64) (procmap : ProcMap) : Prop where
  flag : ∀ proc ∈ procmap, proc.flag = PROC_IN_PROBE_RANGE
  start : ∀ proc ∈ procmap, proc.key.pid = pid → proc.key.startTime = startTime

variable {pid : UInt32} {startTime : UInt64} {procmap : ProcMap} {fs : ProcFs}

theorem probed_eq_some {proc after : ProcHash} (h : probed fs proc = some after) :
    after.key = proc.key ∧ after.flag = proc.flag := by
  simp only [probed] at h
  split at h
  · cases h
    exact ⟨rfl, rfl⟩
  · cases h

theorem Tracks.filterMap (h : Tracks pid startTime procmap) :
    Tracks pid startTime (procmap.filterMap (probed fs)) := by
  constructor
  · intro after hafter
    obtain ⟨proc, hproc, hprobed⟩ := List.mem_filterMap.mp hafter
    rw [(probed_eq_some hprobed).2]
    exact h.flag proc hproc
  · intro after hafter hpid
    obtain ⟨proc, hproc, hprobed⟩ := List.mem_filterMap.mp hafter
    rw [(probed_eq_some hprobed).1] at hpid ⊢
    exact h.start proc hproc hpid

-- The start time in the key of a process that is registered now.
def keyStart (fs : ProcFs) (pid : UInt32) : UInt64 :=
  UInt64.ofInt (atoll (getProcStartTime (fs.commandStat pid) PROC_NAME_MAX))

theorem Tracks.addSnooperObj (h : Tracks pid (keyStart fs pid) procmap) (obj : SnooperObj) :
    Tracks pid (keyStart fs pid) (addSnooperObj fs procmap obj) := by
  cases obj with
  | proc other =>
      rw [SystemInfos.addSnooperObj]
      split
      · constructor
        · intro proc hproc
          rcases List.mem_append.mp hproc with hproc | hproc
          · exact h.flag proc hproc
          · rw [List.mem_singleton.mp hproc]
            rfl
        · intro proc hproc hpid
          rcases List.mem_append.mp hproc with hproc | hproc
          · exact h.start proc hproc hpid
          · obtain rfl := List.mem_singleton.mp hproc
            obtain rfl : other = pid := hpid
            rfl
      · exact h
  | con info => exact h
  | gaussdb db => exact h
  | max => exact h

-- An object adds its process, and takes none away.
theorem mem_addSnooperObj (obj : SnooperObj) (h : (∃ proc ∈ procmap, proc.key.pid = pid) ∨
    obj = .proc pid) : ∃ proc ∈ addSnooperObj fs procmap obj, proc.key.pid = pid := by
  cases obj with
  | proc other =>
      rw [addSnooperObj]
      cases hfind : hashFindProc procmap other
          (getProcStartTime (fs.commandStat other) PROC_NAME_MAX) with
      | none =>
          rw [if_pos Option.isNone_none]
          rcases h with ⟨proc, hproc, hpid⟩ | hobj
          · exact ⟨proc, List.mem_append_left _ hproc, hpid⟩
          · cases hobj
            exact ⟨_, List.mem_append_right _ List.mem_cons_self, rfl⟩
      | some found =>
          rw [if_neg (by simp)]
          rcases h with h | hobj
          · exact h
          · cases hobj
            have hkey := List.find?_some hfind
            refine ⟨found, List.mem_of_find?_eq_some hfind, ?_⟩
            rw [of_decide_eq_true hkey]
  | con info => exact h.resolve_right (by simp)
  | gaussdb db => exact h.resolve_right (by simp)
  | max => exact h.resolve_right (by simp)

theorem tracks_refresh (fs : ProcFs) (ipcBody : IpcBody) (pid : UInt32) :
    Tracks pid (keyStart fs pid) (refreshProcFilterMap fs ipcBody) := by
  have hall : ∀ (objs : List SnooperObj) (procmap : ProcMap), Tracks pid (keyStart fs pid) procmap →
      Tracks pid (keyStart fs pid) (objs.foldl (addSnooperObj fs) procmap) := by
    intro objs
    induction objs with
    | nil => exact fun procmap h => h
    | cons obj objs ih => exact fun procmap h => ih _ (h.addSnooperObj obj)
  exact hall ipcBody.objs [] ⟨by simp, by simp⟩

theorem mem_refresh (fs : ProcFs) {ipcBody : IpcBody} (hobj : .proc pid ∈ ipcBody.objs) :
    ∃ proc ∈ refreshProcFilterMap fs ipcBody, proc.key.pid = pid := by
  have hall : ∀ (objs : List SnooperObj) (procmap : ProcMap),
      (∃ proc ∈ procmap, proc.key.pid = pid) ∨ .proc pid ∈ objs →
        ∃ proc ∈ objs.foldl (addSnooperObj fs) procmap, proc.key.pid = pid := by
    intro objs
    induction objs with
    | nil => exact fun procmap h => h.resolve_right List.not_mem_nil
    | cons obj objs ih =>
        intro procmap h
        rcases h with h | h
        · exact ih _ (.inl (mem_addSnooperObj obj (.inl h)))
        · rcases List.mem_cons.mp h with h | h
          · exact ih _ (.inl (mem_addSnooperObj obj (.inr h.symm)))
          · exact ih _ (.inr h)
  exact hall ipcBody.objs [] (.inr hobj)

theorem start_of_assigns (h : Assigns line .starttime) (procInfo : ProcInfo) :
    (getProcStat (some line.text) procInfo).2.procStartTime = UInt64.ofInt (line.field 22) := by
  apply UInt64.toNat_inj.mp
  exact Int.ofNat_inj.mp (h procInfo)

-- Where the start time is stored as it stands in the line, the process stays if it was
-- registered with it.
theorem runProcProbe_iff {life : ProcLife} {periods : List ProcFs} {lines : List StatLine}
    (hperiods : List.Forall₂ life.Lives periods lines)
    (hassigns : ∀ line ∈ lines, Assigns line .starttime)
    (hstart : ∀ line ∈ lines, line.field 22 = life.starttime)
    (htracks : Tracks life.pid startTime procmap) (hmem : ∃ proc ∈ procmap, proc.key.pid = life.pid) :
    (∀ printed ∈ runProcProbe periods procmap, ∃ proc ∈ printed, proc.key.pid = life.pid) ↔
      (lines ≠ [] → startTime = UInt64.ofInt life.starttime) := by
  induction hperiods generalizing procmap with
  | nil => simp [runProcProbe]
  | @cons fs line periods lines hlives _ ih =>
      obtain ⟨hline, hlines⟩ := List.forall_mem_cons.mp hassigns
      obtain ⟨hfirst, hothers⟩ := List.forall_mem_cons.mp hstart
      obtain ⟨hvalid, hstat⟩ := hlives
      have hupdate : ∀ procInfo, (updateProcInfos fs life.pid procInfo).procStartTime =
          UInt64.ofInt life.starttime := by
        intro procInfo
        rw [updateProcInfos, hstat, start_of_assigns hline, hfirst]
      have hprinted : (∃ proc ∈ procmap.filterMap (probed fs), proc.key.pid = life.pid) ↔
          startTime = UInt64.ofInt life.starttime := by
        constructor
        · rintro ⟨after, hafter, hpid⟩
          obtain ⟨proc, hproc, hprobed⟩ := List.mem_filterMap.mp hafter
          rw [(probed_eq_some hprobed).1] at hpid
          simp only [probed] at hprobed
          split at hprobed
          · next hkeep =>
              rw [← htracks.start proc hproc hpid, hkeep.2, hpid, hupdate]
          · cases hprobed
        · intro heq
          obtain ⟨proc, hproc, hpid⟩ := hmem
          refine ⟨_, List.mem_filterMap.mpr ⟨proc, hproc, if_pos ⟨by rw [hpid]; exact hvalid, ?_⟩⟩,
            hpid⟩
          rw [hpid, hupdate, htracks.start proc hproc hpid, heq]
      rw [runProcProbe, systemProcProbe_eq fs htracks.flag, List.forall_mem_cons, hprinted]
      constructor
      · exact fun h _ => h.1
      · intro h
        have heq := h (List.cons_ne_nil line lines)
        exact ⟨heq, (ih hlines hothers htracks.filterMap (hprinted.mpr heq)).mpr fun _ => heq⟩

theorem keepsReporting_iff (life : ProcLife) (fs : ProcFs) (ipcBody : IpcBody)
    (periods : List ProcFs) (hobj : .proc life.pid ∈ ipcBody.objs) (hregisters : life.Registers fs)
    (hlives : List.Forall₂ life.Lives periods life.rounds) :
    ((∀ line ∈ life.lines, ∀ stat, Assigns line stat) ∧
        life.KeepsReporting fs ipcBody periods) ↔
      (∀ line ∈ life.lines, ∀ stat, ReadsRight line stat) ∧
        (life.rounds ≠ [] → StartRight life.registered) := by
  simp only [← assigns_iff]
  refine and_congr_right fun hassigns => ?_
  have hsame : ∀ line ∈ life.registered :: life.lines, line.field 22 = life.starttime :=
    fun line hline => (life.same line hline).2
  have hrun := runProcProbe_iff hlives
    (fun line hline => hassigns line (List.mem_cons_of_mem _ hline) .starttime)
    (fun line hline => hsame line (List.mem_cons_of_mem _ (List.mem_cons_of_mem _ hline)))
    (tracks_refresh fs ipcBody life.pid) (mem_refresh fs hobj)
  rw [ProcLife.KeepsReporting, hrun, keyStart, hregisters.1, getProcStartTime_text, ← startTime_iff,
    hsame life.registered List.mem_cons_self]

-- A process with the given name and number of threads, with the other numbers a small process has.
def statFields (threads : ℕ) : List ℤ :=
  [1, 7, 7, 0, -1, 4194560, 90, 80, 2, 3, 4, 5, 6, 7, 20, 0, (threads : ℤ), 0, 900, 4096, 12, -1, 1, 2, 3,
    4, 5, 0, 0, 0, 0, 0, 0, 0, 17, 1]

def statLineOf (comm : Text) (hcomm : '\x00' ∉ comm) (threads : ℕ) (hthreads : threads < 100) :
    StatLine where
  pid := 7
  comm := comm
  state := 'S'
  fields := statFields threads
  nul_notMem := hcomm
  state_not_blank := rfl
  enough := Nat.le_refl 36
  inRange := by
    intro n hn
    simp only [statFields, List.mem_cons, List.not_mem_nil, or_false] at hn
    omega

def bashLine : StatLine := statLineOf ['b', 'a', 's', 'h'] (by decide) 1 (by decide)

-- A name of three words, with one thread and with two.
def wordsLine (threads : ℕ) (hthreads : threads < 100) : StatLine :=
  statLineOf ['a', ' ', 'b', ' ', 'c'] (by decide) threads hthreads

def bodyOfOne : IpcBody where
  probeRangeFlags := 0
  snooperObjNum := 1
  probeFlags := 0
  probeParam := ⟨List.replicate PROBE_PARAMS_SIZE 2, List.length_replicate⟩
  snooperObjs := fun _ => .proc 7

def fsOf (line : StatLine) : ProcFs where
  isValidProc := fun _ => true
  stat := fun _ => some line.text
  commandStat := fun _ => some line.text

theorem mem_bodyOfOne : .proc 7 ∈ bodyOfOne.objs := by decide

-- One period, and the lines in it and before.
def lifeOf (first second : StatLine)
    (hfirst : first.pid = 7 ∧ first.field 22 = 900) (hsecond : second.pid = 7 ∧ second.field 22 = 900) :
    ProcLife where
  pid := 7
  starttime := 900
  registered := first
  inited := first
  rounds := [second]
  same := by simpa using ⟨hfirst, hsecond⟩

def bashLife : ProcLife := lifeOf bashLine bashLine ⟨rfl, rfl⟩ ⟨rfl, rfl⟩

def wordsLife : ProcLife :=
  lifeOf (wordsLine 1 (by decide)) (wordsLine 2 (by decide)) ⟨rfl, rfl⟩ ⟨rfl, rfl⟩

theorem readsRight_bashLine (stat : ProcStat) : ReadsRight bashLine stat := by
  have hplain : bashLine.Plain := by decide
  have hfits : bashLine.Fits stat.index := by cases stat <;> decide
  rw [ReadsRight, if_pos ⟨hplain, hfits⟩]
  exact .inl (by cases stat <;> decide)

theorem lives_fsOf (first second : StatLine) (hfirst hsecond) :
    List.Forall₂ (lifeOf first second hfirst hsecond).Lives [fsOf second] [second] :=
  .cons ⟨rfl, rfl⟩ .nil

theorem keepsReporting_iff_bash :
    (.proc bashLife.pid ∈ bodyOfOne.objs ∧ bashLife.Registers (fsOf bashLine) ∧
      List.Forall₂ bashLife.Lives [fsOf bashLine] bashLife.rounds) ∧
    (∀ line ∈ bashLife.lines, ∀ stat, Assigns line stat) ∧
      bashLife.KeepsReporting (fsOf bashLine) bodyOfOne [fsOf bashLine] := by
  have hlives : List.Forall₂ bashLife.Lives [fsOf bashLine] bashLife.rounds :=
    lives_fsOf bashLine bashLine _ _
  have hlines : ∀ line ∈ bashLife.lines, ∀ stat, ReadsRight line stat := by
    intro line hline stat
    simp only [bashLife, lifeOf, ProcLife.lines, List.mem_cons, List.not_mem_nil, or_false,
      or_self] at hline
    rw [hline]
    exact readsRight_bashLine stat
  have hstart : StartRight bashLine := by decide
  exact ⟨⟨mem_bodyOfOne, ⟨rfl, rfl⟩, hlives⟩,
    (keepsReporting_iff bashLife (fsOf bashLine) bodyOfOne [fsOf bashLine] mem_bodyOfOne ⟨rfl, rfl⟩
      hlives).mpr ⟨hlines, fun _ => hstart⟩⟩

-- With two blanks in the name, the number of threads stands where the start time is looked for.
theorem printed_wordsLife : runProcProbe [fsOf (wordsLine 2 (by decide))]
    (refreshProcFilterMap (fsOf (wordsLine 1 (by decide))) bodyOfOne) = [[]] := by
  decide +kernel

theorem not_keepsReporting_wordsLife :
    ¬∀ (life : ProcLife) (fs : ProcFs) (ipcBody : IpcBody) (periods : List ProcFs),
      .proc life.pid ∈ ipcBody.objs → life.Registers fs →
      List.Forall₂ life.Lives periods life.rounds →
      (∀ line ∈ life.lines, ∀ stat, Assigns line stat) ∧
        life.KeepsReporting fs ipcBody periods := by
  intro h
  obtain ⟨-, hkeeps⟩ := h wordsLife (fsOf (wordsLine 1 (by decide))) bodyOfOne
    [fsOf (wordsLine 2 (by decide))] mem_bodyOfOne ⟨rfl, rfl⟩ (lives_fsOf _ _ _ _)
  rw [ProcLife.KeepsReporting, printed_wordsLife] at hkeeps
  obtain ⟨proc, hproc, -⟩ := hkeeps [] List.mem_cons_self
  cases hproc

end Gopher.SystemInfos
