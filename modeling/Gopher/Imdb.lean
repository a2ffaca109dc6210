import Gopher.Lib.Run
import Gopher.Lib.Text
import Mathlib.Algebra.Group.Int.Defs
import Mathlib.Algebra.Group.Nat.Defs
import Mathlib.Data.Int.Notation
import Mathlib.Data.List.TakeWhile

namespace Gopher.Imdb

open Gopher.Lib

def METRIC_TYPE_LABEL : Text := "label".toList
def METRIC_TYPE_KEY : Text := "key".toList
def INVALID_METRIC_VALUE : Text := "(null)".toList
def MAX_LABELS_BUFFER_SIZE : ℕ := 512
def DEFAULT_PERIOD_RECORD_NUM : ℕ := 100
def THOUSAND : ℤ := 1000

structure Metric where
  type : Text
  name : Text
  val : Text
  deriving DecidableEq, Repr

structure Record where
  key : List UInt8
  updateTime : ℤ
  metrics : List Metric
  deriving DecidableEq, Repr

-- `records` is the uthash table in the order `HASH_ITER` visits it, the order of insertion.
structure Table where
  name : Text
  entityName : Text
  weighting : UInt8
  recordsCapability : UInt32
  records : List Record
  deriving DecidableEq, Repr

structure NodeInfo where
  systemUuid : Text
  hostIP : Text
  deriving DecidableEq, Repr

structure DataBaseMgr where
  tblsCapability : UInt32
  tables : List Table
  nodeInfo : NodeInfo
  deriving DecidableEq, Repr

structure TgidRecord where
  comm : Text
  containerId : Text
  podId : Text
  deriving DecidableEq, Repr

-- What one call reads outside the database: the clock, `g_recordTimeout`, the
-- record of a process (found in the cache or created), and the address of the host.
structure Env where
  now : ℤ
  recordTimeout : UInt32
  tgidRecord : Text → Option TgidRecord
  getSystemIp : Option Text

def tableCreate (name : Text) (capacity : UInt32) : Table where
  name := name
  entityName := []
  weighting := 0
  recordsCapability := capacity
  records := []

def tableSetEntityName (table : Table) (entityName : Text) : Table :=
  { table with entityName := entityName }

def recordUpdateTime (record : Record) (seconds : ℤ) : Record :=
  { record with updateTime := seconds }

def hashFindRecord (records : List Record) (record : Record) : Option Record :=
  records.find? (fun stored => stored.key == record.key)

def hashAddRecord (records : List Record) (record : Record) : List Record :=
  records ++ [record]

def hashDeleteRecord (records : List Record) (record : Record) : List Record :=
  records.erase record

def deleteOldRecord (records : List Record) (record : Record) : List Record :=
  match hashFindRecord records record with
  | some oldRecord => hashDeleteRecord records oldRecord
  | none => records

-- The old record goes first, and only then is the room counted.
def tableAddRecord (now : ℤ) (table : Table) (record : Record) : Table × ℤ :=
  let records := deleteOldRecord table.records record
  if table.recordsCapability.toNat ≤ records.length then ({ table with records := records }, -1)
  else ({ table with records := hashAddRecord records (recordUpdateTime record now) }, 0)

-- `size` is the room at `text`'s end, the terminating NUL included.
structure Cursor where
  text : Text
  size : ℤ
  deriving DecidableEq, Repr

-- `__snprintf` of one formatted piece.
def snprintf (cursor : Cursor) (piece : Text) : Option Cursor :=
  if cursor.size ≤ 0 then none
  else if cursor.size ≤ piece.length then none
  else some ⟨cursor.text ++ piece, cursor.size - piece.length⟩

-- The cast of a `uint32_t` to `int`.
def intOfLen (len : ℕ) : ℤ :=
  if len < 2 ^ 31 then len else len - 2 ^ 32

-- The format `%lld`.
def formatInt (n : ℤ) : Text :=
  if n < 0 then '-' :: Nat.toDigits 10 n.natAbs else Nat.toDigits 10 n.natAbs

def metricTypeSatisfyPrometheus (metric : Metric) : Bool :=
  ["counter".toList, "gauge".toList, "histogram".toList, "summary".toList].contains metric.type

def metricTypeIsLabel (metric : Metric) : Bool :=
  [METRIC_TYPE_LABEL, METRIC_TYPE_KEY].contains metric.type

def metricNameIsTgid (metric : Metric) : Bool :=
  sameIgnoringCase metric.name "tgid".toList

def formatLabel (name val : Text) : Text :=
  name ++ "=\"".toList ++ val ++ "\"".toList

def buildMetricLabels : (first : Bool) → List Metric → Cursor → Option Cursor
  | _, [], cursor => some cursor
  | first, metric :: metrics, cursor =>
      if !metricTypeIsLabel metric then buildMetricLabels first metrics cursor
      else if metric.val = INVALID_METRIC_VALUE then buildMetricLabels first metrics cursor
      else do
        let comma := if first then [] else [',']
        let cursor ← snprintf cursor (comma ++ formatLabel metric.name metric.val)
        buildMetricLabels false metrics cursor

def appendLabel (name val : Text) (cursor : Cursor) : Option Cursor :=
  if val = [] then some cursor else snprintf cursor (',' :: formatLabel name val)

def buildTgidLabels (env : Env) (record : Record) (cursor : Cursor) : Option Cursor :=
  -- the loop over the metrics leaves the last index it has seen in `tgid_idx`
  match record.metrics.reverse.find? metricNameIsTgid with
  | none => some cursor
  | some metric =>
      match env.tgidRecord metric.val with
      | none => some cursor
      | some tgidRecord => do
          let cursor ← appendLabel "comm".toList tgidRecord.comm cursor
          let cursor ← appendLabel "container_id".toList tgidRecord.containerId cursor
          appendLabel "pod_id".toList tgidRecord.podId cursor

-- An empty `hostIP` is asked for again; the answer kept in `nodeInfo` is the one
-- every later record of the same call would get.
def hostIP (env : Env) (nodeInfo : NodeInfo) : Option Text :=
  if nodeInfo.hostIP = [] then env.getSystemIp else some nodeInfo.hostIP

def buildPrometheusLabel (env : Env) (nodeInfo : NodeInfo) (record : Record) : Option Text := do
  let cursor ← snprintf ⟨[], MAX_LABELS_BUFFER_SIZE⟩ "\x7b".toList
  let cursor ← buildMetricLabels true record.metrics cursor
  let cursor ← buildTgidLabels env record cursor
  let ip ← hostIP env nodeInfo
  let machineId := nodeInfo.systemUuid ++ "-".toList ++ ip
  let cursor ← snprintf cursor (',' :: formatLabel "machine_id".toList machineId)
  let cursor ← snprintf cursor "\x7d".toList
  return cursor.text

def formatMetrics (entityName metricsName : Text) : Text :=
  "gala_gopher_".toList ++ (entityName ++ '_' :: metricsName)

def formatValue (labels val : Text) (timestamp : ℤ) : Text :=
  labels ++ ' ' :: (val ++ ' ' :: formatInt timestamp)

def buildMetrics (entityName metricsName : Text) (cursor : Cursor) : Option Cursor :=
  snprintf cursor (formatMetrics entityName metricsName)

def buildPrometheusMetrics (env : Env) (metric : Metric) (maxLen : ℕ) (entityName labels : Text) :
    Option Text := do
  let cursor ← buildMetrics entityName metric.name ⟨[], intOfLen maxLen⟩
  let cursor ← snprintf cursor (formatValue labels metric.val (env.now * THOUSAND) ++ ['\n'])
  return cursor.text

def recLoop (env : Env) (entityName labels : Text) : List Metric → (curMaxLen : ℕ) → Text
  | [], _ => []
  | metric :: metrics, curMaxLen =>
      if !metricTypeSatisfyPrometheus metric then recLoop env entityName labels metrics curMaxLen
      else if metric.val = INVALID_METRIC_VALUE then
        recLoop env entityName labels metrics curMaxLen
      else match buildPrometheusMetrics env metric curMaxLen entityName labels with
        -- the buffer is full, and what was printed so far is returned
        | none => []
        | some line => line ++ recLoop env entityName labels metrics (curMaxLen - line.length)

-- The text printed; the C function returns its length.
def rec2Prometheus (env : Env) (nodeInfo : NodeInfo) (record : Record) (entityName : Text)
    (maxLen : ℕ) : Text :=
  match buildPrometheusLabel env nodeInfo record with
  | none => []
  | some labels => recLoop env entityName labels record.metrics maxLen

def expired (env : Env) (record : Record) : Bool :=
  record.updateTime + env.recordTimeout.toNat < env.now

-- The records that stay and the text printed. `HASH_ITER` takes the next
-- element before the current one is deleted, so it visits the list as it was.
def tblLoop (env : Env) (nodeInfo : NodeInfo) (entityName : Text) :
    List Record → (index curMaxLen : ℕ) → List Record × Text
  | [], _, _ => ([], [])
  | record :: records, index, curMaxLen =>
      if DEFAULT_PERIOD_RECORD_NUM ≤ index then (record :: records, [])
      else if expired env record then tblLoop env nodeInfo entityName records index curMaxLen
      else
        let text := rec2Prometheus env nodeInfo record entityName curMaxLen
        if text.length = 0 then (record :: records, [])
        else
          let (kept, rest) :=
            tblLoop env nodeInfo entityName records (index + 1) (curMaxLen - text.length)
          (kept, text ++ rest)

-- The table, the bytes printed and the value returned. The final newline is
-- counted also when only the NUL fits.
def tbl2Prometheus (env : Env) (nodeInfo : NodeInfo) (table : Table) (maxLen : ℕ) :
    Table × Text × ℕ :=
  if table.records.length = 0 then (table, [], 0)
  else
    let (kept, text) := tblLoop env nodeInfo table.entityName table.records 0 maxLen
    let curMaxLen := maxLen - text.length
    let endSym := if 1 < curMaxLen then "\n".toList else []
    ({ table with records := kept }, text ++ endSym, text.length + 1)

-- The tables, the bytes printed, and the space left unless a table overflowed.
def tablesLoop (env : Env) (nodeInfo : NodeInfo) :
    List Table → (curMaxLen : ℕ) → List Table × Text × Option ℕ
  | [], curMaxLen => ([], [], some curMaxLen)
  | table :: tables, curMaxLen =>
      let (exported, text, ret) := tbl2Prometheus env nodeInfo table curMaxLen
      if curMaxLen ≤ ret then (exported :: tables, text, none)
      else
        let weighting := if 0 < ret then exported.weighting + 1 else exported.weighting
        let (others, rest, space) := tablesLoop env nodeInfo tables (curMaxLen - ret)
        ({ exported with weighting := weighting } :: others, text ++ rest, space)

def requeueTable : List Table → List Table
  | [] => []
  | first :: tables => tables ++ [{ first with weighting := 0 }]

def adjustLoop (tblName : Text) : (rounds : ℕ) → List Table → List Table
  | 0, tables => tables
  | rounds + 1, tables =>
      let requeued := requeueTable tables
      match requeued with
      | [] => requeued
      | first :: _ =>
          if first.weighting = 0 then requeued
          else if first.name = tblName then requeued
          else adjustLoop tblName rounds requeued

-- The source reads `tables[0]` without asking whether there is a table.
def adjustTblPrio (tables : List Table) : List Table :=
  match tables with
  | [] => []
  | first :: _ => if first.weighting = 0 then tables else adjustLoop first.name tables.length tables

-- `bufLen` is written only by a call that returns 0.
structure Export where
  mgr : DataBaseMgr
  buffer : Text
  bufLen : Option ℕ
  ret : ℤ
  deriving DecidableEq, Repr

def dataBase2Prometheus (env : Env) (mgr : DataBaseMgr) (maxLen : UInt32) : Export :=
  let (tables, text, space) := tablesLoop env mgr.nodeInfo mgr.tables maxLen.toNat
  match space with
  | none => ⟨{ mgr with tables := tables }, text, none, -1⟩
  | some curMaxLen =>
      ⟨{ mgr with tables := adjustTblPrio tables }, text, some (maxLen.toNat - curMaxLen), 0⟩

def dataBaseMgrCreate (capacity : UInt32) (nodeInfo : NodeInfo) : DataBaseMgr :=
  ⟨capacity, [], nodeInfo⟩

def dataBaseMgrAddTable (mgr : DataBaseMgr) (table : Table) : DataBaseMgr × ℤ :=
  if mgr.tables.length = mgr.tblsCapability.toNat then (mgr, -1)
  else if mgr.tables.any (fun stored => stored.name == table.name) then (mgr, -1)
  else ({ mgr with tables := mgr.tables ++ [table] }, 0)

-- The table found by its name is the one that takes the record.
def addRecordTo (now : ℤ) (tableName : Text) (record : Record) : List Table → List Table × ℤ
  | [] => ([], -1)
  | table :: tables =>
      if table.name = tableName then
        let (added, ret) := tableAddRecord now table record
        (added :: tables, ret)
      else
        let (others, ret) := addRecordTo now tableName record tables
        (table :: others, ret)

-- What the readers of exported texts have in common.

def expect (char : Char) : Text → Option Text
  | [] => none
  | first :: input => if first = char then some input else none

-- An integer as `%lld` prints it.
def readInteger (token : Text) : Option ℤ :=
  let n : ℤ := if token.head? = some '-' then -(Nat.ofDigitChars 10 token.tail 0 : ℤ)
    else Nat.ofDigitChars 10 token 0
  if formatInt n = token then some n else none

@[simp] theorem expect_cons (char : Char) (input : Text) :
    expect char (char :: input) = some input :=
  if_pos rfl

theorem expect_eq_some_iff {char : Char} {input rest : Text} :
    expect char input = some rest ↔ input = char :: rest := by
  cases input with
  | nil => simp [expect]
  | cons first input => simp [expect]

-- A word in front of a character that ends it.
theorem takeWhile_dropWhile_word {next : Char → Bool} {word : Text} {char : Char} (rest : Text)
    (hword : ∀ one ∈ word, next one = true) (hchar : next char = false) :
    (word ++ char :: rest).takeWhile next = word ∧
      (word ++ char :: rest).dropWhile next = char :: rest := by
  have hstop : ¬ next char = true := by simp [hchar]
  constructor
  · rw [List.takeWhile_append_of_pos hword, List.takeWhile_cons_of_neg hstop, List.append_nil]
  · rw [List.dropWhile_append_of_pos hword, List.dropWhile_cons_of_neg hstop]

theorem isDigit_of_mem_formatInt {n : ℤ} {char : Char} (hchar : char ∈ formatInt n) :
    char = '-' ∨ char.isDigit = true := by
  have hdigits : ∀ char ∈ Nat.toDigits 10 n.natAbs, char.isDigit = true :=
    fun char hmem => Nat.isDigit_of_mem_toDigits (by decide) (by decide) hmem
  unfold formatInt at hchar
  split_ifs at hchar
  · obtain rfl | hmem := List.mem_cons.mp hchar
    · exact .inl rfl
    · exact .inr (hdigits char hmem)
  · exact .inr (hdigits char hchar)

theorem readInteger_formatInt (n : ℤ) : readInteger (formatInt n) = some n := by
  have hvalue : (if (formatInt n).head? = some '-' then
      -(Nat.ofDigitChars 10 (formatInt n).tail 0 : ℤ)
        else Nat.ofDigitChars 10 (formatInt n) 0) = n := by
    by_cases hneg : n < 0
    · rw [formatInt, if_pos hneg, List.head?_cons, if_pos rfl, List.tail_cons,
        Nat.ofDigitChars_ten_toDigits]
      omega
    · rw [formatInt, if_neg hneg, if_neg, Nat.ofDigitChars_ten_toDigits]
      · omega
      · intro hhead
        have hdigit := Nat.isDigit_of_mem_toDigits (b := 10) (by decide) (by decide)
          (List.mem_of_head? hhead)
        revert hdigit
        decide
  rw [readInteger, hvalue]
  exact if_pos rfl

end Gopher.Imdb
