import Gopher.Lib.Lines
import Gopher.SystemInfos.Net
import Mathlib.Algebra.Order.Field.Rat
import Mathlib.Data.List.Forall2

namespace Gopher.SystemInfos

open Lib

def PROC_STAT_COL_NUM : ℕ := 8
def FULL_PER : UInt64 := 100
def HZ : UInt64 := 100
def USEC_PER_MSEC : UInt64 := 1000

-- `time_total` and `time_used`, or the two members of the same names.
structure Jiffies where
  total : UInt64
  used : UInt64
  deriving DecidableEq

-- The members that are set from a line of `/proc/stat`, without the prefix `cpu_`.
structure CpuStat where
  num : ℕ
  userTotalSecond : UInt64
  niceTotalSecond : UInt64
  systemTotalSecond : UInt64
  idleTotalSecond : UInt64
  iowaitTotalSecond : UInt64
  irqTotalSecond : UInt64
  softirqTotalSecond : UInt64
  stealTotalSecond : UInt64
  time : Jiffies
  utilPer : Option ℚ

def isSpaceChar (char : Char) : Bool := char = ' '

-- The fourth and the fifth column are idle and iowait. `none` is a column that is not there.
def getCpuTimeInJiff (cpuTotalLine : Text) : Option Jiffies :=
  match (words isSpaceChar cpuTotalLine).tail.take PROC_STAT_COL_NUM with
  | [user, nice, system, idle, iowait, irq, softirq, steal] =>
      let time := fun column => UInt64.ofInt (atoll column)
      some
        { total := time user + time nice + time system + time idle + time iowait + time irq +
            time softirq + time steal
          used := time user + time nice + time system + time irq + time softirq + time steal }
  | _ => none

-- The new pair of last and current times.
def getCpuTime (isFirstGet : Bool) (src : Text) (last cur : Jiffies) : Option (Jiffies × Jiffies) :=
  if isFirstGet then (getCpuTimeInJiff src).map fun time => (last, time)
  else (getCpuTimeInJiff src).map fun time => (cur, time)

-- The quotient, exact where the source has a `float`; `none` is the division by zero.
def utilOf (last cur : Jiffies) : Option ℚ :=
  if cur.total - last.total = 0 then none
  else some ((((cur.used - last.used) * FULL_PER).toNat : ℚ) / (cur.total - last.total).toNat)

-- The eight columns of the line that `sscanf` stores, as far as it gets.
def cpuColumnsFormat : List ScanDirective :=
  [.skipS, .d, .d, .d, .d, .d, .d, .d, .d, .skipD, .skipD]

def cpuColumnPointers : List (UInt64 → CpuStat → CpuStat) :=
  [fun value stat => { stat with userTotalSecond := value },
    fun value stat => { stat with niceTotalSecond := value },
    fun value stat => { stat with systemTotalSecond := value },
    fun value stat => { stat with idleTotalSecond := value },
    fun value stat => { stat with iowaitTotalSecond := value },
    fun value stat => { stat with irqTotalSecond := value },
    fun value stat => { stat with softirqTotalSecond := value },
    fun value stat => { stat with stealTotalSecond := value }]

-- What a line of a CPU changes in the two structures of its index.
def readCpuLine (isFirstGet : Bool) (line : Text) (cur old : CpuStat) :
    Option (CpuStat × CpuStat) := do
  let (last, time) ← getCpuTime isFirstGet line old.time cur.time
  let cur := { cur with time := time, utilPer := utilOf last time }
  let cur := (cpuColumnPointers.zip (sscanf cpuColumnsFormat line)).foldl
    (fun stat one => one.1 (storeU64 one.2) stat) cur
  return (cur, { old with time := last })

-- The lines behind the first one, with the structures that are still to come. `none` is an
-- access behind the end of the arrays.
def readCpuLines (isFirstGet : Bool) : List Text → List CpuStat → List CpuStat →
    Option (List CpuStat × List CpuStat)
  | [], curs, olds => some (curs, olds)
  | line :: lines, curs, olds =>
      if (strstr ['c', 'p', 'u'] line).isNone then readCpuLines isFirstGet lines curs olds
      else
        match curs, olds with
        | cur :: curs, old :: olds => do
            let (cur, old) ← readCpuLine isFirstGet line cur old
            let (curs, olds) ← readCpuLines isFirstGet lines curs olds
            return (cur :: curs, old :: olds)
        | _, _ => none

-- The structures that `cur_cpus` and `old_cpus` point to, and the globals of the line for all.
structure CpuState where
  curCpus : List CpuStat
  oldCpus : List CpuStat
  isFirstGet : Bool
  last : Jiffies
  cur : Jiffies
  utilPer : Option ℚ

def getProcStatInfo (state : CpuState) (procStat : Text) : Option CpuState :=
  match fgetsAll LINE_BUF_LEN procStat with
  | [] => some state
  | first :: lines => do
      let (last, cur) ← getCpuTime state.isFirstGet first state.last state.cur
      let (curCpus, oldCpus) ← readCpuLines state.isFirstGet lines state.curCpus state.oldCpus
      return { state with
        last := last, cur := cur, utilPer := utilOf last cur, curCpus := curCpus, oldCpus := oldCpus }

def jiffiesToMsecs (j : UInt64) : UInt64 := USEC_PER_MSEC / HZ * j

def msecsOf (cur old : UInt64) : UInt64 := if old < cur then jiffiesToMsecs (cur - old) else 0

-- What is printed for one CPU.
structure CpuOutput where
  num : ℕ
  user : UInt64
  nice : UInt64
  system : UInt64
  idle : UInt64
  iowait : UInt64
  irq : UInt64
  softirq : UInt64
  steal : UInt64
  utilPer : Option ℚ

def cpuOutput (cur old : CpuStat) : CpuOutput where
  num := cur.num
  user := msecsOf cur.userTotalSecond old.userTotalSecond
  nice := msecsOf cur.niceTotalSecond old.niceTotalSecond
  system := msecsOf cur.systemTotalSecond old.systemTotalSecond
  idle := msecsOf cur.idleTotalSecond old.idleTotalSecond
  iowait := msecsOf cur.iowaitTotalSecond old.iowaitTotalSecond
  irq := msecsOf cur.irqTotalSecond old.irqTotalSecond
  softirq := msecsOf cur.softirqTotalSecond old.softirqTotalSecond
  steal := msecsOf cur.stealTotalSecond old.stealTotalSecond
  utilPer := cur.utilPer

-- The lines of the CPUs and the one for all of them.
structure CpuRoundOutput where
  cpus : List CpuOutput
  utilPer : Option ℚ

-- A round in which every step succeeds; the program ends with the first that does not. The two
-- structures of an index change places with their pointers.
def systemCpuProbe (state : CpuState) (procStat : Text) :
    Option (CpuState × Option CpuRoundOutput) := do
  let state ← getProcStatInfo state procStat
  let swapped := { state with curCpus := state.oldCpus, oldCpus := state.curCpus }
  if state.isFirstGet then return ({ swapped with isFirstGet := false }, none)
  else return (swapped, some ⟨List.zipWith cpuOutput state.curCpus state.oldCpus, state.utilPer⟩)

-- `system_cpu_init`: what `malloc` gives has any content, only the numbers are set.
def systemCpuInit (curCpus oldCpus : List CpuStat) : CpuState where
  curCpus := curCpus.mapIdx fun i cpu => { cpu with num := i }
  oldCpus := oldCpus.mapIdx fun i cpu => { cpu with num := i }
  isFirstGet := true
  last := ⟨0, 0⟩
  cur := ⟨0, 0⟩
  utilPer := none

def cpuRounds : CpuState → List Text → Option (List (Option CpuRoundOutput))
  | _, [] => some []
  | state, procStat :: rounds => do
      let (state, output) ← systemCpuProbe state procStat
      let later ← cpuRounds state rounds
      return output :: later

section Lines

-- A line of `/proc/stat` for one CPU, or for all of them.
structure CpuLine where
  number : Option ℕ
  user : ℕ
  nice : ℕ
  system : ℕ
  idle : ℕ
  iowait : ℕ
  irq : ℕ
  softirq : ℕ
  steal : ℕ
  further : List ℕ
  further_ne : further ≠ []

namespace CpuLine

def label (line : CpuLine) : Text :=
  ['c', 'p', 'u'] ++ line.number.elim [] (Nat.toDigits 10)

def columns (line : CpuLine) : List ℕ :=
  [line.user, line.nice, line.system, line.idle, line.iowait, line.irq, line.softirq, line.steal]

def text (line : CpuLine) (gap : ℕ) : Text :=
  line.label ++ (List.replicate gap ' ' ++
    ((line.columns ++ line.further).map fun n : ℕ => decimalText n).flatMap fun word => ' ' :: word)

-- What follows the eight columns in the file.
def behind (line : CpuLine) : Text :=
  (line.further.map fun n : ℕ => decimalText n).flatMap (fun word => ' ' :: word) ++ ['\n']

-- The times in exact numbers.
def total (line : CpuLine) : ℕ :=
  line.user + line.nice + line.system + line.idle + line.iowait + line.irq + line.softirq +
    line.steal

def used (line : CpuLine) : ℕ :=
  line.user + line.nice + line.system + line.irq + line.softirq + line.steal

-- A column in 64 bits, with the clamp of `atoll`.
def kept64 (n : ℕ) : UInt64 := UInt64.ofInt (clampS64 n)

-- The times in 64 bits.
def kept (line : CpuLine) : Jiffies where
  total := kept64 line.user + kept64 line.nice + kept64 line.system + kept64 line.idle +
    kept64 line.iowait + kept64 line.irq + kept64 line.softirq + kept64 line.steal
  used := kept64 line.user + kept64 line.nice + kept64 line.system + kept64 line.irq +
    kept64 line.softirq + kept64 line.steal

end CpuLine

variable {line : CpuLine} {gap : ℕ} {text : Text}

theorem isSpaceChar_of_mem_decimalText {n : ℤ} {char : Char} (hchar : char ∈ decimalText n) :
    isSpaceChar char = false := by
  rcases mem_decimalText hchar with rfl | hdigit
  · rfl
  · rw [isSpaceChar, decide_eq_false_iff_not]
    rintro rfl
    cases hdigit

theorem isSpaceChar_of_mem_label {char : Char} (hchar : char ∈ line.label) :
    isSpaceChar char = false := by
  rcases List.mem_append.mp hchar with hchar | hchar
  · have hprefix : ∀ one ∈ ['c', 'p', 'u'], isSpaceChar one = false := by decide
    exact hprefix char hchar
  · cases hnumber : line.number with
    | none =>
        rw [hnumber] at hchar
        cases hchar
    | some k =>
        rw [hnumber] at hchar
        exact isSpaceChar_of_mem_decimalText (n := k)
          (by rw [decimalText, if_neg (by omega)]; exact hchar)

-- The eight columns stand in front of another one, which takes the newline.
theorem words_text (line : CpuLine) (gap : ℕ) :
    words isSpaceChar (line.text gap ++ ['\n']) = line.label ::
      ((line.columns.map fun n : ℕ => decimalText n) ++ words isSpaceChar line.behind) := by
  obtain ⟨first, further, hfurther⟩ := List.exists_cons_of_ne_nil line.further_ne
  have hbehind : Behind isSpaceChar line.behind := by
    rw [CpuLine.behind, hfurther]
    rintro char hchar
    cases hchar
    rfl
  have hwords : ∀ word ∈ line.columns.map fun n : ℕ => decimalText n,
      (∀ char ∈ word, isSpaceChar char = false) ∧ word ≠ [] := by
    intro word hword
    obtain ⟨n, -, rfl⟩ := List.mem_map.mp hword
    exact ⟨fun char hchar => isSpaceChar_of_mem_decimalText hchar, decimalText_ne_nil _⟩
  have hgap : ∀ char ∈ List.replicate gap ' ', isSpaceChar char = true := by
    intro char hchar
    rw [List.eq_of_mem_replicate hchar]
    rfl
  have hlabel : Behind isSpaceChar (List.replicate gap ' ' ++
      ((line.columns.map fun n : ℕ => decimalText n).flatMap (fun word => ' ' :: word) ++
        line.behind)) := by
    cases gap with
    | zero =>
        rintro char hchar
        cases hchar
        rfl
    | succ gap =>
        rintro char hchar
        cases hchar
        rfl
  rw [CpuLine.text, List.map_append, List.flatMap_append]
  simp only [List.append_assoc]
  rw [← CpuLine.behind, words_append_behind (fun char hchar => isSpaceChar_of_mem_label hchar)
      (by simp [CpuLine.label]) hlabel, words_append_of_seps hgap,
    words_columns rfl hwords hbehind]

theorem getCpuTimeInJiff_text (line : CpuLine) (gap : ℕ) :
    getCpuTimeInJiff (line.text gap ++ ['\n']) = some line.kept := by
  have hatoll : ∀ n : ℕ, UInt64.ofInt (atoll (decimalText n)) = CpuLine.kept64 n := by
    intro n
    have h : atoll (decimalText n ++ []) = clampS64 n := atoll_decimalText (n : ℤ) (by simp)
    rw [List.append_nil] at h
    rw [h, CpuLine.kept64]
  rw [getCpuTimeInJiff, words_text]
  simp only [CpuLine.columns, List.tail_cons, List.map_cons, List.cons_append, PROC_STAT_COL_NUM,
    List.take_succ_cons, List.take_zero, hatoll]
  rfl

theorem strstr_text (line : CpuLine) (gap : ℕ) :
    (strstr ['c', 'p', 'u'] (line.text gap ++ ['\n'])).isNone = false := by
  rw [CpuLine.text, CpuLine.label, List.append_assoc, List.append_assoc, strstr_mark]
  rfl

theorem foldl_cpuColumnPointers (values : List Scanned) (stat : CpuStat) :
    let after := (cpuColumnPointers.zip values).foldl
      (fun stat one => one.1 (storeU64 one.2) stat) stat
    after.time = stat.time ∧ after.utilPer = stat.utilPer := by
  have hpointers : ∀ one ∈ cpuColumnPointers.zip values, ∀ value stat,
      (one.1 value stat).time = stat.time ∧ (one.1 value stat).utilPer = stat.utilPer := by
    intro one hone
    have hmem : one.1 ∈ cpuColumnPointers := (List.of_mem_zip hone).1
    revert hmem
    generalize one.1 = pointer
    intro hmem value stat
    simp only [cpuColumnPointers, List.mem_cons, List.not_mem_nil, or_false] at hmem
    rcases hmem with rfl | rfl | rfl | rfl | rfl | rfl | rfl | rfl <;> exact ⟨rfl, rfl⟩
  generalize cpuColumnPointers.zip values = stores at hpointers
  induction stores generalizing stat with
  | nil => exact ⟨rfl, rfl⟩
  | cons one stores ih =>
      obtain ⟨hone, hrest⟩ := List.forall_mem_cons.mp hpointers
      obtain ⟨htime, hutil⟩ := ih (one.1 (storeU64 one.2) stat) hrest
      exact ⟨htime.trans (hone _ stat).1, hutil.trans (hone _ stat).2⟩

-- The time that becomes the last one.
def lastOf (isFirstGet : Bool) (cur old : CpuStat) : Jiffies :=
  if isFirstGet then old.time else cur.time

theorem readCpuLine_text (isFirstGet : Bool) (line : CpuLine) (gap : ℕ) (cur old : CpuStat) :
    ∃ after, readCpuLine isFirstGet (line.text gap ++ ['\n']) cur old =
        some (after, { old with time := lastOf isFirstGet cur old }) ∧
      after.time = line.kept ∧ after.utilPer = utilOf (lastOf isFirstGet cur old) line.kept := by
  have htime : getCpuTime isFirstGet (line.text gap ++ ['\n']) old.time cur.time =
      some (lastOf isFirstGet cur old, line.kept) := by
    rw [getCpuTime, getCpuTimeInJiff_text, lastOf]
    cases isFirstGet <;> rfl
  have hafter := foldl_cpuColumnPointers (sscanf cpuColumnsFormat (line.text gap ++ ['\n']))
    { cur with time := line.kept, utilPer := utilOf (lastOf isFirstGet cur old) line.kept }
  exact ⟨_, by rw [readCpuLine, htime]; rfl, hafter.1, hafter.2⟩

theorem readCpuLines_other (isFirstGet : Bool) {lines : List Text}
    (hlines : ∀ line ∈ lines, strstr ['c', 'p', 'u'] line = none) (curs olds : List CpuStat) :
    readCpuLines isFirstGet lines curs olds = some (curs, olds) := by
  induction lines with
  | nil => rfl
  | cons line lines ih =>
      obtain ⟨hline, hrest⟩ := List.forall_mem_cons.mp hlines
      unfold readCpuLines
      rw [if_pos (by rw [hline]; rfl), ih hrest]

-- The structures of each CPU that is listed, before and after its line.
structure ReadCpu (isFirstGet : Bool) (line : CpuLine) (cur old after last : CpuStat) : Prop where
  time : after.time = line.kept
  last : last.time = lastOf isFirstGet cur old
  util : after.utilPer = utilOf (lastOf isFirstGet cur old) line.kept

-- The line of a CPU in the file.
def CpuLine.Shown (line : CpuLine) (text : Text) : Prop :=
  IsLine text ∧ ∃ gap, text = line.text gap

theorem readCpuLines_shown (isFirstGet : Bool) {cpus : List CpuLine} {texts others : List Text}
    (htexts : List.Forall₂ CpuLine.Shown cpus texts)
    (hothers : ∀ line ∈ others, strstr ['c', 'p', 'u'] line = none) {curs olds : List CpuStat}
    (hcurs : cpus.length ≤ curs.length) (holds : olds.length = curs.length) :
    ∃ afters lasts,
      readCpuLines isFirstGet ((texts.map fun text => text ++ ['\n']) ++ others) curs olds =
        some (afters, lasts) ∧
      afters.length = curs.length ∧ lasts.length = curs.length ∧
      ∀ (i : ℕ) (cpu : CpuLine) (cur old : CpuStat), cpus[i]? = some cpu → curs[i]? = some cur →
        olds[i]? = some old → ∃ after last, afters[i]? = some after ∧ lasts[i]? = some last ∧
          ReadCpu isFirstGet cpu cur old after last := by
  induction htexts generalizing curs olds with
  | nil =>
      exact ⟨curs, olds, readCpuLines_other isFirstGet hothers curs olds, rfl, holds,
        fun i cpu cur old hcpu => by cases hcpu⟩
  | @cons cpu text cpus texts htext _ ih =>
      obtain ⟨-, gap, rfl⟩ := htext
      cases curs with
      | nil => cases hcurs
      | cons cur curs =>
          cases olds with
          | nil => cases holds
          | cons old olds =>
              obtain ⟨afters, lasts, hread, hafters, hlasts, hall⟩ :=
                @ih curs olds (by simpa using hcurs) (by simpa using holds)
              obtain ⟨after, hline, htime, hutil⟩ := readCpuLine_text isFirstGet cpu gap cur old
              refine ⟨after :: afters, { old with time := lastOf isFirstGet cur old } :: lasts,
                ?_, by simp [hafters], by simp [hlasts], fun i one other older hone hother holder => ?_⟩
              · rw [List.map_cons, List.cons_append, readCpuLines,
                  if_neg (by rw [strstr_text]; exact Bool.false_ne_true)]
                simp only [hline, hread, Option.bind_eq_bind, Option.bind_some]
                rfl
              · cases i with
                | zero =>
                    cases hone
                    cases hother
                    cases holder
                    exact ⟨after, _, rfl, rfl, htime, rfl, hutil⟩
                | succ i => exact hall i one other older hone hother holder

end Lines

section Rounds

structure StatSnapshot where
  all : CpuLine
  cpus : List CpuLine

-- The lines of the CPUs come first, and no other line has their name in it.
def StatFile (snapshot : StatSnapshot) (file : Text) : Prop :=
  ∃ texts others, file = printed texts ++ others ∧
    List.Forall₂ CpuLine.Shown (snapshot.all :: snapshot.cpus) texts ∧
    ∀ line ∈ fgetsAll LINE_BUF_LEN others, strstr ['c', 'p', 'u'] line = none

structure StatRound where
  snapshot : StatSnapshot
  file : Text
  shown : StatFile snapshot file

-- The same CPUs with strictly greater totals. The line for all of them has their sums.
structure Grows (prev cur : StatSnapshot) : Prop where
  all : prev.all.total < cur.all.total
  cpus : List.Forall₂ (fun before after => CpuLine.total before < CpuLine.total after)
    prev.cpus cur.cpus

theorem isLine_of_cpu_shown {cpus : List CpuLine} {texts : List Text}
    (htexts : List.Forall₂ CpuLine.Shown cpus texts) : ∀ text ∈ texts, IsLine text := by
  induction htexts with
  | nil => simp
  | cons htext _ ih => exact List.forall_mem_cons.mpr ⟨htext.1, ih⟩

theorem getProcStatInfo_shown {snapshot : StatSnapshot} {file : Text}
    (hfile : StatFile snapshot file) (state : CpuState)
    (hcurs : snapshot.cpus.length ≤ state.curCpus.length)
    (holds : state.oldCpus.length = state.curCpus.length) :
    ∃ afters lasts,
      getProcStatInfo state file =
        some { state with
          last := if state.isFirstGet then state.last else state.cur
          cur := snapshot.all.kept
          utilPer := utilOf (if state.isFirstGet then state.last else state.cur) snapshot.all.kept
          curCpus := afters
          oldCpus := lasts } ∧
      afters.length = state.curCpus.length ∧ lasts.length = state.curCpus.length ∧
      ∀ (i : ℕ) (cpu : CpuLine) (cur old : CpuStat), snapshot.cpus[i]? = some cpu →
        state.curCpus[i]? = some cur → state.oldCpus[i]? = some old →
        ∃ after last, afters[i]? = some after ∧ lasts[i]? = some last ∧
          ReadCpu state.isFirstGet cpu cur old after last := by
  obtain ⟨texts, others, rfl, htexts, hothers⟩ := hfile
  cases htexts with
  | @cons _ first _ texts hfirst hrest =>
      obtain ⟨afters, lasts, hread, hafters, hlasts, hall⟩ :=
        readCpuLines_shown state.isFirstGet hrest hothers hcurs holds
      refine ⟨afters, lasts, ?_, hafters, hlasts, hall⟩
      have hlines : ∀ text ∈ first :: texts, IsLine text :=
        List.forall_mem_cons.mpr ⟨hfirst.1, isLine_of_cpu_shown hrest⟩
      obtain ⟨-, gap, rfl⟩ := hfirst
      rw [getProcStatInfo, fgetsAll_append_of_lt (by decide) hlines, List.map_cons,
        List.cons_append]
      simp only [hread, getCpuTime, getCpuTimeInJiff_text, Option.map_some]
      cases state.isFirstGet <;> rfl

-- The state from the second round on: the structures that are read into next hold the times
-- that `malloc` gave for `old_cpus`.
structure CpuInv (initial : List CpuStat) (prev : StatSnapshot) (state : CpuState) : Prop where
  isFirstGet : state.isFirstGet = false
  cur : state.cur = prev.all.kept
  curs : state.curCpus.length = initial.length
  olds : state.oldCpus.length = initial.length
  initial : ∀ (i : ℕ) (cpu : CpuLine) (cur base : CpuStat), prev.cpus[i]? = some cpu →
    state.curCpus[i]? = some cur → initial[i]? = some base → cur.time = base.time

-- What is printed in a round of that kind.
structure PrintsUtil (initial : List CpuStat) (prev cur : StatSnapshot) (out : CpuRoundOutput) :
    Prop where
  all : out.utilPer = utilOf prev.all.kept cur.all.kept
  length : out.cpus.length = initial.length
  cpus : ∀ (i : ℕ) (cpu : CpuLine) (base : CpuStat) (printed : CpuOutput),
    cur.cpus[i]? = some cpu → initial[i]? = some base → out.cpus[i]? = some printed →
    printed.utilPer = utilOf base.time cpu.kept

variable {initial : List CpuStat} {prev : StatSnapshot} {state : CpuState} {round : StatRound}

theorem systemCpuProbe_first (round : StatRound) {curCpus oldCpus : List CpuStat}
    (hlength : curCpus.length = oldCpus.length)
    (hcpus : round.snapshot.cpus.length ≤ curCpus.length) :
    ∃ next, systemCpuProbe (systemCpuInit curCpus oldCpus) round.file = some (next, none) ∧
      CpuInv oldCpus round.snapshot next := by
  obtain ⟨afters, lasts, hread, hafters, hlasts, hall⟩ := getProcStatInfo_shown round.shown
    (systemCpuInit curCpus oldCpus) (by simpa [systemCpuInit] using hcpus)
    (by simpa [systemCpuInit] using hlength.symm)
  refine ⟨_, by rw [systemCpuProbe, hread]; rfl, rfl, rfl, ?_, ?_, ?_⟩
  · simpa [systemCpuInit, hlength] using hlasts
  · simpa [systemCpuInit, hlength] using hafters
  · intro i cpu cur base hcpu hcur hbase
    have hi : i < curCpus.length := by
      rw [hlength]
      exact (List.getElem?_eq_some_iff.mp hbase).1
    obtain ⟨after, last, -, hlast, hcpuRead⟩ := hall i cpu _ { base with num := i } hcpu
      (List.getElem?_eq_getElem (by simpa [systemCpuInit] using hi))
      (by simp [systemCpuInit, hbase])
    cases hlast.symm.trans hcur
    exact hcpuRead.last

theorem systemCpuProbe_next (round : StatRound) (hinv : CpuInv initial prev state)
    (hcpus : round.snapshot.cpus.length = prev.cpus.length)
    (hinitial : prev.cpus.length ≤ initial.length) :
    ∃ next out, systemCpuProbe state round.file = some (next, some out) ∧
      CpuInv initial round.snapshot next ∧ PrintsUtil initial prev round.snapshot out := by
  have hcurs := hinv.curs
  have holds := hinv.olds
  obtain ⟨afters, lasts, hread, hafters, hlasts, hall⟩ := getProcStatInfo_shown round.shown state
    (by omega) (by omega)
  rw [hinv.isFirstGet] at hread hall
  -- Every CPU that is listed has its structures.
  have hcpu : ∀ (i : ℕ) (cpu : CpuLine) (base : CpuStat), round.snapshot.cpus[i]? = some cpu →
      initial[i]? = some base → ∃ after last, afters[i]? = some after ∧ lasts[i]? = some last ∧
        last.time = base.time ∧ after.utilPer = utilOf base.time cpu.kept := by
    intro i cpu base hsnapshot hbase
    obtain ⟨hi, -⟩ := List.getElem?_eq_some_iff.mp hsnapshot
    have hcur := List.getElem?_eq_getElem (show i < state.curCpus.length by omega)
    have hold := List.getElem?_eq_getElem (show i < state.oldCpus.length by omega)
    have hprev := List.getElem?_eq_getElem (show i < prev.cpus.length by omega)
    obtain ⟨after, last, hafter, hlast, hcpuRead⟩ := hall i cpu _ _ hsnapshot hcur hold
    have hbaseTime := hinv.initial i _ _ base hprev hcur hbase
    have htime := hcpuRead.last
    have hutil := hcpuRead.util
    rw [lastOf, if_neg Bool.false_ne_true, hbaseTime] at htime hutil
    exact ⟨after, last, hafter, hlast, htime, hutil⟩
  refine ⟨_, _, by rw [systemCpuProbe, hread]; rfl, ⟨rfl, rfl, ?_, ?_, ?_⟩, ?_, ?_, ?_⟩
  · exact hlasts.trans hcurs
  · exact hafters.trans hcurs
  · intro i cpu cur base hsnapshot hcur hbase
    obtain ⟨after, last, -, hlast, htime, -⟩ := hcpu i cpu base hsnapshot hbase
    cases hlast.symm.trans hcur
    exact htime
  · rw [hinv.cur]
    rfl
  · have hlength : (List.zipWith cpuOutput afters lasts).length = initial.length := by
      rw [List.length_zipWith]
      omega
    exact hlength
  · intro i cpu base printed hsnapshot hbase hprinted
    obtain ⟨after, last, hafter, hlast, -, hutil⟩ := hcpu i cpu base hsnapshot hbase
    rw [List.getElem?_zipWith, hafter, hlast] at hprinted
    cases hprinted
    exact hutil

-- The rounds behind the first one.
theorem cpuRounds_next (rounds : List StatRound) (hinv : CpuInv initial prev state)
    (hinitial : prev.cpus.length ≤ initial.length)
    (hgrows : ∀ (r : ℕ) (before after : StatSnapshot),
      (prev :: rounds.map StatRound.snapshot)[r]? = some before →
      (prev :: rounds.map StatRound.snapshot)[r + 1]? = some after → Grows before after) :
    ∃ outs, cpuRounds state (rounds.map StatRound.file) = some outs ∧
      outs.length = rounds.length ∧
      ∀ (r : ℕ) (before after : StatSnapshot) (out : Option CpuRoundOutput),
        (prev :: rounds.map StatRound.snapshot)[r]? = some before →
        (prev :: rounds.map StatRound.snapshot)[r + 1]? = some after → outs[r]? = some out →
        ∃ printed, out = some printed ∧ PrintsUtil initial before after printed := by
  induction rounds generalizing prev state with
  | nil => exact ⟨[], rfl, rfl, fun r before after out _ _ hout => by cases hout⟩
  | cons round rounds ih =>
      have hlength := (hgrows 0 prev round.snapshot rfl rfl).cpus.length_eq
      obtain ⟨next, out, hprobe, hnext, hprints⟩ :=
        systemCpuProbe_next round hinv hlength.symm hinitial
      obtain ⟨outs, hrounds, houts, hall⟩ := ih hnext (by omega)
        fun r before after hbefore hafter => hgrows (r + 1) before after hbefore hafter
      refine ⟨some out :: outs, ?_, by simp [houts], fun r before after other hbefore hafter hother => ?_⟩
      · rw [List.map_cons, cpuRounds, hprobe]
        simp only [Option.bind_eq_bind, Option.bind_some, hrounds]
        rfl
      · cases r with
        | zero =>
            cases hbefore
            cases hafter
            cases hother
            exact ⟨out, rfl, hprints⟩
        | succ r => exact hall r before after other hbefore hafter hother

-- The percentage of the time used since the round before.
def UtilRight (prev cur : CpuLine) (util : Option ℚ) : Prop :=
  util = some (100 * ((cur.used : ℚ) - prev.used) / ((cur.total : ℚ) - prev.total))

-- What is counted from some base on, modulo 2 ^ 64, grows in the proportion of what is counted
-- from the round before on.
def InProportion (base : Jiffies) (prev cur : CpuLine) : Prop :=
  cur.kept.total - base.total ≠ 0 ∧
    (((cur.kept.used - base.used) * FULL_PER).toNat : ℤ) * ((cur.total : ℤ) - prev.total) =
      100 * ((cur.used : ℤ) - prev.used) * (cur.kept.total - base.total).toNat

instance (base : Jiffies) (prev cur : CpuLine) : Decidable (InProportion base prev cur) :=
  inferInstanceAs (Decidable (_ ∧ _))

theorem utilRight_iff {base : Jiffies} {prev cur : CpuLine} (hgrows : prev.total < cur.total) :
    UtilRight prev cur (utilOf base cur.kept) ↔ InProportion base prev cur := by
  have htotal : (cur.total : ℚ) - prev.total ≠ 0 := by
    rw [sub_ne_zero]
    exact_mod_cast hgrows.ne'
  rw [UtilRight, utilOf, InProportion]
  split_ifs with hzero
  · simp [hzero]
  · have hbase : ((cur.kept.total - base.total).toNat : ℚ) ≠ 0 := by
      have hnat : (cur.kept.total - base.total).toNat ≠ 0 := fun h =>
        hzero (UInt64.toNat_inj.mp h)
      exact_mod_cast hnat
    rw [Option.some_inj, div_eq_div_iff hbase htotal]
    constructor
    · intro h
      exact ⟨hzero, by exact_mod_cast h⟩
    · rintro ⟨-, h⟩
      exact_mod_cast h

-- Every round but the first prints the utilisation since the round before, for each CPU and for
-- all of them.
def CpuUtilsRight (snapshots : List StatSnapshot) (outs : List (Option CpuRoundOutput)) : Prop :=
  ∀ (r : ℕ) (prev cur : StatSnapshot) (out : Option CpuRoundOutput),
    snapshots[r]? = some prev → snapshots[r + 1]? = some cur → outs[r + 1]? = some out →
    ∃ printed, out = some printed ∧ UtilRight prev.all cur.all printed.utilPer ∧
      ∀ (i : ℕ) (before after : CpuLine) (cpu : CpuOutput), prev.cpus[i]? = some before →
        cur.cpus[i]? = some after → printed.cpus[i]? = some cpu →
        UtilRight before after cpu.utilPer

-- For all of them the base is the round before, for each CPU what `malloc` gave.
def CpuUtilsFit (initial : List CpuStat) (snapshots : List StatSnapshot) : Prop :=
  ∀ (r : ℕ) (prev cur : StatSnapshot), snapshots[r]? = some prev → snapshots[r + 1]? = some cur →
    InProportion prev.all.kept prev.all cur.all ∧
      ∀ (i : ℕ) (before after : CpuLine) (base : CpuStat), prev.cpus[i]? = some before →
        cur.cpus[i]? = some after → initial[i]? = some base → InProportion base.time before after

theorem rel_of_forall₂ {α β : Type} {rel : α → β → Prop} {first : List α} {second : List β}
    (h : List.Forall₂ rel first second) {i : ℕ} {one : α} {other : β} (hone : first[i]? = some one)
    (hother : second[i]? = some other) : rel one other := by
  induction h generalizing i with
  | nil => cases hone
  | cons hrel _ ih =>
      cases i with
      | zero =>
          cases hone
          cases hother
          exact hrel
      | succ i => exact ih hone hother

section Run

variable {run : List StatRound} {curCpus oldCpus : List CpuStat}

-- The first round prints nothing, each other one what it finds against the initial content.
theorem cpuRounds_prints (hlength : curCpus.length = oldCpus.length)
    (hcpus : ∀ round ∈ run, round.snapshot.cpus.length ≤ curCpus.length)
    (hgrows : ∀ (r : ℕ) (prev cur : StatSnapshot), (run.map StatRound.snapshot)[r]? = some prev →
      (run.map StatRound.snapshot)[r + 1]? = some cur → Grows prev cur) :
    ∃ outs, cpuRounds (systemCpuInit curCpus oldCpus) (run.map StatRound.file) = some outs ∧
      outs.length = run.length ∧
      ∀ (r : ℕ) (prev cur : StatSnapshot) (out : Option CpuRoundOutput),
        (run.map StatRound.snapshot)[r]? = some prev →
        (run.map StatRound.snapshot)[r + 1]? = some cur → outs[r + 1]? = some out →
        ∃ printed, out = some printed ∧ PrintsUtil oldCpus prev cur printed := by
  cases run with
  | nil => exact ⟨[], rfl, rfl, fun r prev cur out hprev => by cases hprev⟩
  | cons round rounds =>
      have hround := hcpus round List.mem_cons_self
      obtain ⟨next, hprobe, hinv⟩ := systemCpuProbe_first round hlength hround
      obtain ⟨outs, hrounds, houts, hall⟩ := cpuRounds_next rounds hinv (by omega) hgrows
      refine ⟨none :: outs, ?_, by simp [houts], hall⟩
      rw [List.map_cons, cpuRounds, hprobe]
      simp only [Option.bind_eq_bind, Option.bind_some, hrounds]
      rfl

theorem PrintsUtil.fits_of_right {initial : List CpuStat} {prev cur : StatSnapshot}
    {printed : CpuRoundOutput} (hprints : PrintsUtil initial prev cur printed)
    (hgrows : Grows prev cur) {i : ℕ} {before after : CpuLine} {base : CpuStat}
    (hbefore : prev.cpus[i]? = some before) (hafter : cur.cpus[i]? = some after)
    (hbase : initial[i]? = some base)
    (hright : ∀ cpu, printed.cpus[i]? = some cpu → UtilRight before after cpu.utilPer) :
    InProportion base.time before after := by
  have hi := (List.getElem?_eq_some_iff.mp hbase).1
  have hcpu := List.getElem?_eq_getElem (show i < printed.cpus.length by
    rw [hprints.length]; exact hi)
  have hutil := hright _ hcpu
  rw [hprints.cpus i after base _ hafter hbase hcpu] at hutil
  exact (utilRight_iff (rel_of_forall₂ hgrows.cpus hbefore hafter)).mp hutil

theorem cpuRounds_right_iff (hlength : curCpus.length = oldCpus.length)
    (hcpus : ∀ round ∈ run, round.snapshot.cpus.length ≤ curCpus.length)
    (hgrows : ∀ (r : ℕ) (prev cur : StatSnapshot), (run.map StatRound.snapshot)[r]? = some prev →
      (run.map StatRound.snapshot)[r + 1]? = some cur → Grows prev cur) :
    ∃ outs, cpuRounds (systemCpuInit curCpus oldCpus) (run.map StatRound.file) = some outs ∧
      (CpuUtilsRight (run.map StatRound.snapshot) outs ↔
        CpuUtilsFit oldCpus (run.map StatRound.snapshot)) := by
  obtain ⟨outs, hrun, houts, hall⟩ := cpuRounds_prints hlength hcpus hgrows
  refine ⟨outs, hrun, ?_, ?_⟩
  · intro hright r prev cur hprev hcur
    have hr : r + 1 < outs.length := by
      have hlt := (List.getElem?_eq_some_iff.mp hcur).1
      rw [List.length_map] at hlt
      omega
    have hout := List.getElem?_eq_getElem hr
    have hgrow := hgrows r prev cur hprev hcur
    obtain ⟨printed, hprinted, hprints⟩ := hall r prev cur _ hprev hcur hout
    obtain ⟨other, hother, hallRight, hcpusRight⟩ := hright r prev cur _ hprev hcur hout
    cases hprinted.symm.trans hother
    refine ⟨(utilRight_iff hgrow.all).mp (hprints.all ▸ hallRight), ?_⟩
    intro i before after base hbefore hafter hbase
    exact hprints.fits_of_right hgrow hbefore hafter hbase
      fun cpu hcpu => hcpusRight i before after cpu hbefore hafter hcpu
  · intro hfit r prev cur out hprev hcur hout
    have hgrow := hgrows r prev cur hprev hcur
    obtain ⟨printed, hprinted, hprints⟩ := hall r prev cur out hprev hcur hout
    obtain ⟨hallFit, hcpusFit⟩ := hfit r prev cur hprev hcur
    refine ⟨printed, hprinted, hprints.all ▸ (utilRight_iff hgrow.all).mpr hallFit, ?_⟩
    intro i before after cpu hbefore hafter hcpu
    have hi := (List.getElem?_eq_some_iff.mp hcpu).1
    have hbase := List.getElem?_eq_getElem (show i < oldCpus.length by
      rw [← hprints.length]; exact hi)
    rw [hprints.cpus i after _ cpu hafter hbase hcpu]
    exact (utilRight_iff (rel_of_forall₂ hgrow.cpus hbefore hafter)).mpr
      (hcpusFit i before after _ hbefore hafter hbase)

end Run

section Idle

-- A computer with one CPU that did something before the first round and nothing since.
def idleLine (number : Option ℕ) (idle : ℕ) : CpuLine :=
  ⟨number, 10, 0, 0, idle, 0, 0, 0, 0, [0, 0], by simp⟩

def idleRound (idle : ℕ) (hall : IsLine ((idleLine none idle).text 1))
    (hcpu : IsLine ((idleLine (some 0) idle).text 0)) : StatRound where
  snapshot := ⟨idleLine none idle, [idleLine (some 0) idle]⟩
  file := printed [(idleLine none idle).text 1, (idleLine (some 0) idle).text 0] ++ []
  shown := ⟨_, [], rfl, .cons ⟨hall, 1, rfl⟩ (.cons ⟨hcpu, 0, rfl⟩ .nil), by
    intro line hline
    cases hline⟩

def idleRun : List StatRound :=
  [idleRound 90 ⟨by decide, by decide⟩ ⟨by decide, by decide⟩,
    idleRound 190 ⟨by decide, by decide⟩ ⟨by decide, by decide⟩]

-- What `malloc` gives may well be zero.
def blankStat : CpuStat := ⟨0, 0, 0, 0, 0, 0, 0, 0, 0, ⟨0, 0⟩, none⟩

theorem grows_idleRun (r : ℕ) (prev cur : StatSnapshot)
    (hprev : (idleRun.map StatRound.snapshot)[r]? = some prev)
    (hcur : (idleRun.map StatRound.snapshot)[r + 1]? = some cur) : Grows prev cur := by
  cases r with
  | zero =>
      cases hprev
      cases hcur
      exact ⟨by decide, .cons (by decide) .nil⟩
  | succ r => simp [idleRun] at hcur

theorem length_idleRun : ∀ round ∈ idleRun, round.snapshot.cpus.length ≤ [blankStat].length := by
  intro round hround
  rcases List.mem_cons.mp hround with rfl | hround
  · exact Nat.le_refl 1
  · rw [List.mem_singleton.mp hround]
    exact Nat.le_refl 1

theorem cpuRounds_right_iff_idleRun :
    ∃ outs, cpuRounds (systemCpuInit [blankStat] [blankStat]) (idleRun.map StatRound.file) =
        some outs ∧
      (CpuUtilsRight (idleRun.map StatRound.snapshot) outs ↔
        CpuUtilsFit [blankStat] (idleRun.map StatRound.snapshot)) :=
  cpuRounds_right_iff rfl length_idleRun grows_idleRun

-- The CPU is printed with 5 percent for a round in which it was idle.
theorem not_right_idleRun :
    ¬ ∃ outs, cpuRounds (systemCpuInit [blankStat] [blankStat]) (idleRun.map StatRound.file) =
        some outs ∧ CpuUtilsRight (idleRun.map StatRound.snapshot) outs := by
  rintro ⟨outs, hrun, hright⟩
  obtain ⟨others, hothers, hlength, hall⟩ := @cpuRounds_prints idleRun [blankStat] [blankStat] rfl
    length_idleRun grows_idleRun
  rw [hrun] at hothers
  cases hothers
  have hone : 0 + 1 < outs.length := by
    rw [hlength]
    decide
  have hout := List.getElem?_eq_getElem hone
  obtain ⟨printed, hprinted, hprints⟩ := hall 0 _ _ _ rfl rfl hout
  obtain ⟨other, hother, -, hcpus⟩ := hright 0 _ _ _ rfl rfl hout
  cases hprinted.symm.trans hother
  have hfits := hprints.fits_of_right (i := 0) (grows_idleRun 0 _ _ rfl rfl) rfl rfl rfl
    fun cpu hcpu => hcpus 0 _ _ cpu rfl rfl hcpu
  revert hfits
  decide

end Idle

end Rounds

end Gopher.SystemInfos
