import Gopher.Imdb.Export.Labels
import Gopher.Imdb.Export.Theorems
import Gopher.Lib.CharBuffer

-- The export once more, over the characters of its buffer and with the lengths as the
-- source counts them. `none` is a write behind the end of a buffer, a string that does not
-- end inside it, an unsigned length that would fall below zero, or a table that is not there.

namespace Gopher.Imdb.InBuffer

open Gopher.Lib

-- `curMaxLen -= ret`
def lessen (len : ℕ) (ret : ℤ) : Option ℕ :=
  if 0 ≤ ret ∧ ret ≤ len then some (len - ret.toNat) else none

-- `__snprintf(&p, size, &size, ...)`: the place behind the text and the room left there,
-- unless the text does not fit.
def snprintf (buffer : CharBuffer) (p : ℕ) (size : ℤ) (text : Text) :
    Option (CharBuffer × Option (ℕ × ℤ)) :=
  if size ≤ 0 then some (buffer, none)
  else do
    let buffer ← buffer.vsnprintf p size.toNat text
    if size ≤ text.length then return (buffer, none)
    return (buffer, some (p + text.length, size - text.length))

def printPieces : List Text → CharBuffer → ℕ → ℤ → Option (CharBuffer × Option (ℕ × ℤ))
  | [], buffer, p, size => some (buffer, some (p, size))
  | piece :: pieces, buffer, p, size => do
      let (buffer, printed) ← snprintf buffer p size piece
      match printed with
      | none => return (buffer, none)
      | some (p, size) => printPieces pieces buffer p size

def buildPrometheusLabel (env : Env) (nodeInfo : NodeInfo) (record : Record)
    (buffer : CharBuffer) : Option (CharBuffer × Bool) := do
  let (buffer, printed) ← printPieces (earlyPieces env record) buffer 0 MAX_LABELS_BUFFER_SIZE
  match printed, hostIP env nodeInfo with
  | some (p, size), some ip => do
      let (buffer, printed) ← printPieces (latePieces nodeInfo ip) buffer p size
      return (buffer, printed.isSome)
  | _, _ => return (buffer, false)

def buildMetrics (entityName metricsName : Text) (buffer : CharBuffer) (p maxLen : ℕ) :
    Option (CharBuffer × Bool) := do
  let (buffer, printed) ← snprintf buffer p (intOfLen maxLen) (formatMetrics entityName metricsName)
  return (buffer, printed.isSome)

-- The number of characters printed.
def buildPrometheusMetrics (env : Env) (metric : Metric) (buffer : CharBuffer) (p maxLen : ℕ)
    (entityName labels : Text) : Option (CharBuffer × Option ℤ) := do
  let (buffer, built) ← buildMetrics entityName metric.name buffer p maxLen
  if !built then return (buffer, none)
  let name ← buffer.cString p
  let len := name.length
  let (buffer, printed) ← snprintf buffer (p + len) (intOfLen maxLen - len)
    (formatValue labels metric.val (env.now * THOUSAND) ++ ['\n'])
  return (buffer, printed.map fun left => intOfLen maxLen - left.2)

def recLoop (env : Env) (entityName labels : Text) :
    List Metric → CharBuffer → (curBuffer curMaxLen total : ℕ) → Option (CharBuffer × ℕ)
  | [], buffer, _, _, total => some (buffer, total)
  | metric :: metrics, buffer, curBuffer, curMaxLen, total =>
      if !metricTypeSatisfyPrometheus metric then
        recLoop env entityName labels metrics buffer curBuffer curMaxLen total
      else if metric.val = INVALID_METRIC_VALUE then
        recLoop env entityName labels metrics buffer curBuffer curMaxLen total
      else do
        let (buffer, ret) ←
          buildPrometheusMetrics env metric buffer curBuffer curMaxLen entityName labels
        match ret with
        | none => return (buffer, total)
        | some ret =>
            let curMaxLen ← lessen curMaxLen ret
            recLoop env entityName labels metrics buffer (curBuffer + ret.toNat) curMaxLen
              (total + ret.toNat)

def rec2Prometheus (env : Env) (nodeInfo : NodeInfo) (record : Record) (entityName : Text)
    (buffer : CharBuffer) (p maxLen : ℕ) : Option (CharBuffer × ℕ) := do
  let (labels, built) ← buildPrometheusLabel env nodeInfo record
    (List.replicate MAX_LABELS_BUFFER_SIZE '\x00')
  if !built then return (buffer, 0)
  let labels ← labels.cString 0
  recLoop env entityName labels record.metrics buffer p maxLen 0

-- What a loop leaves: the buffer, the place in it, the room there and the characters printed.
structure Progress where
  buffer : CharBuffer
  curBuffer : ℕ
  curMaxLen : ℕ
  total : ℕ

def tblLoop (env : Env) (nodeInfo : NodeInfo) (entityName : Text) :
    List Record → (index : ℕ) → Progress → Option (List Record × Progress)
  | [], _, progress => some ([], progress)
  | record :: records, index, progress =>
      if DEFAULT_PERIOD_RECORD_NUM ≤ index then some (record :: records, progress)
      else if expired env record then tblLoop env nodeInfo entityName records index progress
      else do
        let (buffer, ret) ← rec2Prometheus env nodeInfo record entityName progress.buffer
          progress.curBuffer progress.curMaxLen
        if ret = 0 then return (record :: records, { progress with buffer := buffer })
        let curMaxLen ← lessen progress.curMaxLen ret
        tblLoop env nodeInfo entityName records (index + 1)
          ⟨buffer, progress.curBuffer + ret, curMaxLen, progress.total + ret⟩

def tbl2Prometheus (env : Env) (nodeInfo : NodeInfo) (table : Table) (buffer : CharBuffer)
    (p maxLen : ℕ) : Option (Table × CharBuffer × ℕ) :=
  if table.records.length = 0 then some (table, buffer, 0)
  else do
    let (kept, progress) ←
      tblLoop env nodeInfo table.entityName table.records 0 ⟨buffer, p, maxLen, 0⟩
    let buffer ← progress.buffer.vsnprintf progress.curBuffer progress.curMaxLen ['\n']
    let _ ← lessen progress.curMaxLen 1
    return ({ table with records := kept }, buffer, progress.total + 1)

-- The room left, unless a table overflowed.
def tablesLoop (env : Env) (nodeInfo : NodeInfo) :
    List Table → CharBuffer → (cursor curMaxLen : ℕ) →
      Option (List Table × CharBuffer × Option ℕ)
  | [], buffer, _, curMaxLen => some ([], buffer, some curMaxLen)
  | table :: tables, buffer, cursor, curMaxLen => do
      let (exported, buffer, ret) ← tbl2Prometheus env nodeInfo table buffer cursor curMaxLen
      if curMaxLen ≤ ret then return (exported :: tables, buffer, none)
      let weighting := if 0 < ret then exported.weighting + 1 else exported.weighting
      let curMaxLen ← lessen curMaxLen ret
      let (others, buffer, space) ← tablesLoop env nodeInfo tables buffer (cursor + ret) curMaxLen
      return ({ exported with weighting := weighting } :: others, buffer, space)

structure Result where
  mgr : DataBaseMgr
  buffer : CharBuffer
  bufLen : Option ℕ
  ret : ℤ

def dataBase2Prometheus (env : Env) (mgr : DataBaseMgr) (maxLen : UInt32) (buffer : CharBuffer) :
    Option Result := do
  let (tables, buffer, space) ← tablesLoop env mgr.nodeInfo mgr.tables buffer 0 maxLen.toNat
  match space with
  | none => return ⟨{ mgr with tables := tables }, buffer, none, -1⟩
  | some curMaxLen =>
      -- `IMDB_AdjustTblPrio` reads the first table
      if tables = [] then none
      else
        let bufLen ← lessen maxLen.toNat curMaxLen
        return ⟨{ mgr with tables := adjustTblPrio tables }, buffer, some bufLen, 0⟩

end Gopher.Imdb.InBuffer

namespace Gopher.Imdb

open Gopher.Lib

def NoNul (text : Text) : Prop := '\x00' ∉ text

instance (text : Text) : Decidable (NoNul text) := inferInstanceAs (Decidable ('\x00' ∉ text))

-- The texts of a database are C strings.
def Record.CStrings (record : Record) : Prop :=
  ∀ metric ∈ record.metrics, NoNul metric.name ∧ NoNul metric.val

structure NodeCStrings (env : Env) (nodeInfo : NodeInfo) : Prop where
  systemUuid : NoNul nodeInfo.systemUuid
  hostIP : ∀ ip ∈ hostIP env nodeInfo, NoNul ip
  tgidRecord : ∀ tgid, ∀ tgidRecord ∈ env.tgidRecord tgid,
    NoNul tgidRecord.comm ∧ NoNul tgidRecord.containerId ∧ NoNul tgidRecord.podId

def Table.CStrings (table : Table) : Prop :=
  NoNul table.entityName ∧ ∀ record ∈ table.records, record.CStrings

theorem noNul_append {first second : Text} :
    NoNul (first ++ second) ↔ NoNul first ∧ NoNul second := by
  rw [NoNul, List.mem_append, not_or]
  rfl

theorem noNul_formatLabel {name val : Text} (hname : NoNul name) (hval : NoNul val) :
    NoNul (formatLabel name val) := by
  rw [formatLabel]
  simp only [noNul_append]
  exact ⟨⟨⟨hname, by decide⟩, hval⟩, by decide⟩

theorem noNul_cons_comma {text : Text} (htext : NoNul text) : NoNul (',' :: text) := by
  rw [NoNul, List.mem_cons, not_or]
  exact ⟨by decide, htext⟩

theorem noNul_metricPieces {metrics : List Metric} (first : Bool)
    (hmetrics : ∀ metric ∈ metrics, NoNul metric.name ∧ NoNul metric.val) :
    ∀ piece ∈ metricPieces first metrics, NoNul piece := by
  induction metrics generalizing first with
  | nil => simp [metricPieces]
  | cons metric metrics ih =>
      rw [List.forall_mem_cons] at hmetrics
      rw [metricPieces]
      split_ifs with hlabelled hfirst
      · rw [List.forall_mem_cons]
        exact ⟨noNul_formatLabel hmetrics.1.1 hmetrics.1.2, ih false hmetrics.2⟩
      · rw [List.forall_mem_cons]
        exact ⟨noNul_cons_comma (noNul_formatLabel hmetrics.1.1 hmetrics.1.2),
          ih false hmetrics.2⟩
      · exact ih first hmetrics.2

theorem noNul_appendedPiece {name val : Text} (hname : NoNul name) (hval : NoNul val) :
    ∀ piece ∈ appendedPiece name val, NoNul piece := by
  unfold appendedPiece
  split_ifs
  · simp
  · intro piece hpiece
    rw [List.mem_singleton.mp hpiece]
    exact noNul_cons_comma (noNul_formatLabel hname hval)

theorem noNul_tgidPieces {env : Env} {nodeInfo : NodeInfo} (hnode : NodeCStrings env nodeInfo)
    (record : Record) : ∀ piece ∈ tgidPieces env record, NoNul piece := by
  unfold tgidPieces
  cases record.metrics.reverse.find? metricNameIsTgid with
  | none => simp
  | some metric =>
      dsimp only
      cases htgid : env.tgidRecord metric.val with
      | none => simp
      | some tgidRecord =>
          obtain ⟨hcomm, hcontainer, hpod⟩ := hnode.tgidRecord metric.val tgidRecord htgid
          dsimp only
          intro piece hpiece
          rw [List.mem_append, List.mem_append] at hpiece
          obtain hpiece | hpiece | hpiece := hpiece
          · exact noNul_appendedPiece (by decide) hcomm piece hpiece
          · exact noNul_appendedPiece (by decide) hcontainer piece hpiece
          · exact noNul_appendedPiece (by decide) hpod piece hpiece

theorem noNul_flatten {pieces : List Text} (hpieces : ∀ piece ∈ pieces, NoNul piece) :
    NoNul pieces.flatten := by
  intro hmem
  obtain ⟨piece, hpiece, hnul⟩ := List.mem_flatten.mp hmem
  exact hpieces piece hpiece hnul

theorem noNul_labels {env : Env} {nodeInfo : NodeInfo} (hnode : NodeCStrings env nodeInfo)
    {record : Record} (hrecord : record.CStrings) {ip : Text}
    (hip : hostIP env nodeInfo = some ip) :
    NoNul (labelText env nodeInfo record ip) := by
  rw [labelText, ← List.flatten_append]
  apply noNul_flatten
  intro piece hpiece
  rw [List.mem_append, earlyPieces, List.mem_cons, List.mem_append, latePieces, List.mem_pair]
    at hpiece
  obtain (rfl | hmetric | htgid) | rfl | rfl := hpiece
  · decide
  · exact noNul_metricPieces true hrecord piece hmetric
  · exact noNul_tgidPieces hnode record piece htgid
  · apply noNul_cons_comma
    apply noNul_formatLabel
    · decide
    · simp only [noNul_append]
      exact ⟨⟨hnode.systemUuid, by decide⟩, hnode.hostIP ip hip⟩
  · decide

theorem noNul_formatMetrics {entityName metricsName : Text} (hentity : NoNul entityName)
    (hname : NoNul metricsName) : NoNul (formatMetrics entityName metricsName) := by
  have hhead : NoNul "gala_gopher_".toList := by decide +kernel
  unfold formatMetrics
  refine noNul_append.mpr ⟨hhead, noNul_append.mpr ⟨hentity, ?_⟩⟩
  rw [NoNul, List.mem_cons, not_or]
  exact ⟨by decide, hname⟩

namespace InBuffer

open CharBuffer

-- What `__snprintf` does in a buffer with `size` characters from `p` on.
theorem snprintf_spec {buffer : CharBuffer} {p : ℕ} {size : ℤ}
    (hroom : p + size.toNat ≤ buffer.length) (text : Text) :
    ∃ after, (size ≤ text.length ∧ snprintf buffer p size text = some (after, none) ∧
        Printed buffer p [] after) ∨
      (text.length < size ∧
        snprintf buffer p size text = some (after, some (p + text.length, size - text.length)) ∧
        Printed buffer p (text ++ ['\x00']) after) := by
  unfold snprintf
  by_cases hsize : size ≤ 0
  · exact ⟨buffer, .inl ⟨by omega, if_pos hsize, .refl buffer p⟩⟩
  obtain ⟨after, hwritten, hprinted, hwhole⟩ := Printed.of_vsnprintf hroom text
  refine ⟨after, ?_⟩
  rw [if_neg hsize, hwritten, Option.bind_eq_bind, Option.bind_some]
  by_cases hfits : size ≤ text.length
  · rw [if_pos hfits]
    have hpartly : Printed buffer p ([] ++ truncated size.toNat text) after := hprinted
    exact .inl ⟨hfits, rfl, hpartly.left (by omega)⟩
  · rw [if_neg hfits]
    exact .inr ⟨by omega, rfl, hwhole (by omega)⟩

theorem printPieces_spec (pieces : List Text) {buffer : CharBuffer} {p : ℕ} {size : ℤ}
    (hsize : 0 < size) (hroom : p + size.toNat ≤ buffer.length) :
    ∃ after, (size ≤ pieces.flatten.length ∧ printPieces pieces buffer p size = some (after, none) ∧
        Printed buffer p [] after) ∨
      (pieces.flatten.length < size ∧ printPieces pieces buffer p size =
          some (after, some (p + pieces.flatten.length, size - pieces.flatten.length)) ∧
        Printed buffer p pieces.flatten after ∧
        (pieces ≠ [] → Printed buffer p (pieces.flatten ++ ['\x00']) after)) := by
  induction pieces generalizing buffer p size with
  | nil =>
      refine ⟨buffer, .inr ⟨hsize, ?_, .refl buffer p, fun hne => absurd rfl hne⟩⟩
      simp [printPieces]
  | cons piece pieces ih =>
      rw [printPieces, List.flatten_cons, List.length_append]
      obtain ⟨middle, ⟨hlong, he, hmiddle⟩ | ⟨hfits, he, hmiddle⟩⟩ := snprintf_spec hroom piece
      · refine ⟨middle, .inl ⟨by push_cast; omega, ?_, hmiddle⟩⟩
        rw [he]
        rfl
      · have hpiece : Printed buffer p piece middle := hmiddle.left (by omega)
        have hroomRest : p + piece.length + (size - piece.length).toNat ≤ middle.length := by
          rw [hmiddle.length_eq]
          omega
        obtain ⟨after, ⟨hlong, hrest, hafter⟩ | ⟨hrestFits, hrest, hafter, hnul⟩⟩ :=
          ih (show 0 < size - piece.length by omega) hroomRest
        · refine ⟨after, .inl ⟨by push_cast; omega, ?_, ?_⟩⟩
          · rw [he]
            exact hrest
          · exact (hpiece.append hafter).left (by omega)
        · refine ⟨after, .inr ⟨by push_cast; omega, ?_, hpiece.append hafter, fun _ => ?_⟩⟩
          · rw [he]
            simp only [Option.bind_eq_bind, Option.bind_some, hrest]
            push_cast
            rw [Nat.add_assoc, Int.sub_sub]
          · by_cases hnil : pieces = []
            · rw [hnil, printPieces, Option.some.injEq, Prod.mk.injEq] at hrest
              rw [hnil, ← hrest.1, List.flatten_nil, List.append_nil]
              exact hmiddle
            · rw [List.append_assoc]
              exact hpiece.append (hnul hnil)

-- The labels are in their buffer, unless there is no address or they do not fit.
theorem buildPrometheusLabel_spec {env : Env} {nodeInfo : NodeInfo}
    (hnode : NodeCStrings env nodeInfo) {record : Record} (hrecord : record.CStrings)
    {buffer : CharBuffer} (hroom : buffer.length = MAX_LABELS_BUFFER_SIZE) :
    ∃ after, (Imdb.buildPrometheusLabel env nodeInfo record = none ∧
        buildPrometheusLabel env nodeInfo record buffer = some (after, false)) ∨
      ∃ labels, Imdb.buildPrometheusLabel env nodeInfo record = some labels ∧
        buildPrometheusLabel env nodeInfo record buffer = some (after, true) ∧
        after.cString 0 = some labels := by
  have hsize : (0 : ℤ) < MAX_LABELS_BUFFER_SIZE := by decide
  rw [buildPrometheusLabel_eq, buildPrometheusLabel]
  obtain ⟨middle, ⟨hlong, he, hmiddle⟩ | ⟨hfits, he, hmiddle, -⟩⟩ :=
    printPieces_spec (earlyPieces env record) (p := 0) hsize (by omega : _ ≤ buffer.length)
  · refine ⟨middle, .inl ⟨?_, ?_⟩⟩
    · cases hostIP env nodeInfo with
      | none => rfl
      | some ip =>
          rw [Option.bind_some, labelText, List.length_append, if_neg (by omega)]
    · rw [he]
      rfl
  · cases hip : hostIP env nodeInfo with
    | none =>
        refine ⟨middle, .inl ⟨rfl, ?_⟩⟩
        rw [he]
        rfl
    | some ip =>
        rw [Nat.zero_add] at he
        have hrest : (earlyPieces env record).flatten.length +
            ((MAX_LABELS_BUFFER_SIZE : ℤ) - (earlyPieces env record).flatten.length).toNat ≤
              middle.length := by
          rw [hmiddle.length_eq]
          omega
        rw [Option.bind_some, labelText, List.length_append]
        obtain ⟨after, ⟨hlong, hlate, -⟩ | ⟨hlateFits, hlate, -, hnul⟩⟩ :=
          printPieces_spec (latePieces nodeInfo ip) (by omega) hrest
        · refine ⟨after, .inl ⟨if_neg (by omega), ?_⟩⟩
          rw [he]
          simp only [Option.bind_eq_bind, Option.bind_some, hlate]
          rfl
        · refine ⟨after, .inr ⟨_, if_pos (by omega), ?_, ?_⟩⟩
          · rw [he]
            simp only [Option.bind_eq_bind, Option.bind_some, hlate]
            rfl
          · have hlast := hnul (List.cons_ne_nil _ _)
            have hwhole := hmiddle.append (by rwa [Nat.zero_add])
            rw [← List.append_assoc] at hwhole
            exact hwhole.cString (by omega) (noNul_labels hnode hrecord hip)

theorem buildPrometheusMetrics_spec (env : Env) {metric : Metric} {entityName : Text}
    (labels : Text) (hentity : NoNul entityName) (hname : NoNul metric.name)
    {buffer : CharBuffer} {p maxLen : ℕ} (hmax : maxLen < 2 ^ 31)
    (hroom : p + maxLen ≤ buffer.length) :
    ∃ after, (Imdb.buildPrometheusMetrics env metric maxLen entityName labels = none ∧
        buildPrometheusMetrics env metric buffer p maxLen entityName labels = some (after, none) ∧
        Printed buffer p [] after) ∨
      ∃ line, Imdb.buildPrometheusMetrics env metric maxLen entityName labels = some line ∧
        line.length < maxLen ∧ buildPrometheusMetrics env metric buffer p maxLen entityName labels =
          some (after, some (line.length : ℤ)) ∧
        Printed buffer p line after := by
  have hint : intOfLen maxLen = maxLen := if_pos hmax
  have hnul := noNul_formatMetrics hentity hname
  rw [buildPrometheusMetrics_eq env metric (by omega), buildPrometheusMetrics, buildMetrics, hint,
    metricLine]
  simp only [List.length_append]
  obtain ⟨middle, ⟨hlong, he, hmiddle⟩ | ⟨hfits, he, hmiddle⟩⟩ :=
    snprintf_spec (show p + (maxLen : ℤ).toNat ≤ buffer.length by omega)
      (formatMetrics entityName metric.name)
  · refine ⟨middle, .inl ⟨if_neg (by omega), ?_, hmiddle⟩⟩
    rw [he]
    rfl
  · have hhead := hmiddle.cString (by omega) hnul
    have hrest : p + (formatMetrics entityName metric.name).length +
        ((maxLen : ℤ) - (formatMetrics entityName metric.name).length).toNat ≤ middle.length := by
      rw [hmiddle.length_eq]
      omega
    have hname : Printed buffer p (formatMetrics entityName metric.name) middle :=
      hmiddle.left (by omega)
    obtain ⟨after, ⟨hlong, hvalue, hafter⟩ | ⟨hvalueFits, hvalue, hafter⟩⟩ := snprintf_spec hrest
      (formatValue labels metric.val (env.now * THOUSAND) ++ ['\n'])
    · rw [List.length_append, List.length_singleton] at hlong
      refine ⟨after, .inl ⟨if_neg (by omega), ?_, (hname.append hafter).left (by omega)⟩⟩
      rw [he]
      simp only [Option.bind_eq_bind, Option.bind_some, Option.isSome_some, Bool.not_true,
        Bool.false_eq_true, ite_false, Option.pure_def, hhead, hvalue, Option.map_none]
    · have hline : Printed buffer p (formatMetrics entityName metric.name ++
          (formatValue labels metric.val (env.now * THOUSAND) ++ ['\n'])) after :=
        hname.append (hafter.left (by omega))
      rw [List.length_append, List.length_singleton] at hvalueFits
      refine ⟨after, .inr ⟨_, if_pos ⟨by omega, hmax⟩, ?_, ?_, ?_⟩⟩
      · simp only [List.length_append, List.length_singleton]
        omega
      · rw [he]
        simp only [Option.bind_eq_bind, Option.bind_some, Option.isSome_some, Bool.not_true,
          Bool.false_eq_true, ite_false, Option.pure_def, hhead, hvalue, Option.map_some,
          List.length_append, List.length_singleton]
        push_cast
        congr 3
        omega
      · rw [List.append_assoc]
        exact hline

theorem lessen_eq {len ret : ℕ} (h : ret ≤ len) : lessen len ret = some (len - ret) := by
  rw [lessen, if_pos ⟨by omega, by omega⟩, Int.toNat_natCast]

section Loops

variable {env : Env} {nodeInfo : NodeInfo} {entityName : Text} {buffer : CharBuffer}
  {p maxLen : ℕ}

theorem recLoop_spec (labels : Text) (hentity : NoNul entityName) {metrics : List Metric}
    (hmetrics : ∀ metric ∈ metrics, NoNul metric.name ∧ NoNul metric.val) (total : ℕ)
    (hpos : 0 < maxLen) (hmax : maxLen < 2 ^ 31) (hroom : p + maxLen ≤ buffer.length) :
    let text := Imdb.recLoop env entityName labels metrics maxLen
    ∃ after, recLoop env entityName labels metrics buffer p maxLen total =
        some (after, total + text.length) ∧
      Printed buffer p text after ∧ text.length < maxLen := by
  induction metrics generalizing buffer p maxLen total with
  | nil => exact ⟨buffer, rfl, .refl buffer p, hpos⟩
  | cons metric metrics ih =>
      rw [List.forall_mem_cons] at hmetrics
      rw [recLoop, Imdb.recLoop]
      by_cases htype : (!metricTypeSatisfyPrometheus metric) = true
      · rw [if_pos htype, if_pos htype]
        exact ih hmetrics.2 total hpos hmax hroom
      rw [if_neg htype, if_neg htype]
      by_cases hval : metric.val = INVALID_METRIC_VALUE
      · rw [if_pos hval, if_pos hval]
        exact ih hmetrics.2 total hpos hmax hroom
      rw [if_neg hval, if_neg hval]
      obtain ⟨middle, ⟨hnone, he, hmiddle⟩ | ⟨line, hline, hfits, he, hmiddle⟩⟩ :=
        buildPrometheusMetrics_spec env labels hentity hmetrics.1.1 hmax hroom
      · rw [he, hnone]
        exact ⟨middle, rfl, hmiddle, hpos⟩
      · have hrest : p + line.length + (maxLen - line.length) ≤ middle.length := by
          rw [hmiddle.length_eq]
          omega
        obtain ⟨after, hloop, hafter, hshort⟩ :=
          ih hmetrics.2 (total + line.length) (show 0 < maxLen - line.length by omega)
            (by omega) hrest
        rw [he, hline]
        dsimp only
        rw [List.length_append]
        refine ⟨after, ?_, hmiddle.append hafter, by omega⟩
        simp only [Option.bind_eq_bind, Option.bind_some, lessen_eq hfits.le, Int.toNat_natCast,
          hloop, Nat.add_assoc]

theorem rec2Prometheus_spec (hnode : NodeCStrings env nodeInfo) {record : Record}
    (hrecord : record.CStrings) (hentity : NoNul entityName) (hpos : 0 < maxLen)
    (hmax : maxLen < 2 ^ 31) (hroom : p + maxLen ≤ buffer.length) :
    let text := Imdb.rec2Prometheus env nodeInfo record entityName maxLen
    ∃ after, rec2Prometheus env nodeInfo record entityName buffer p maxLen =
        some (after, text.length) ∧
      Printed buffer p text after ∧ text.length < maxLen := by
  rw [rec2Prometheus, Imdb.rec2Prometheus]
  obtain ⟨built, ⟨hnone, he⟩ | ⟨labels, hlabels, he, hstring⟩⟩ :=
    buildPrometheusLabel_spec hnode hrecord (List.length_replicate)
  · rw [he, hnone]
    exact ⟨buffer, rfl, .refl buffer p, hpos⟩
  · rw [he, hlabels]
    obtain ⟨after, hloop, hafter, hshort⟩ := recLoop_spec labels hentity hrecord 0 hpos hmax hroom
    refine ⟨after, ?_, hafter, hshort⟩
    rw [Nat.zero_add] at hloop
    simp only [Option.bind_eq_bind, Option.bind_some, Bool.not_true, Bool.false_eq_true, ite_false,
      hstring, hloop]

theorem tblLoop_spec (hnode : NodeCStrings env nodeInfo) (hentity : NoNul entityName)
    {records : List Record} (hrecords : ∀ record ∈ records, record.CStrings) (index total : ℕ)
    (hpos : 0 < maxLen) (hmax : maxLen < 2 ^ 31) (hroom : p + maxLen ≤ buffer.length) :
    let result := Imdb.tblLoop env nodeInfo entityName records index maxLen
    ∃ after, tblLoop env nodeInfo entityName records index ⟨buffer, p, maxLen, total⟩ =
        some (result.1, ⟨after, p + result.2.length, maxLen - result.2.length,
          total + result.2.length⟩) ∧
      Printed buffer p result.2 after ∧ result.2.length < maxLen := by
  induction records generalizing buffer p maxLen index total with
  | nil => exact ⟨buffer, rfl, .refl buffer p, hpos⟩
  | cons record records ih =>
      rw [List.forall_mem_cons] at hrecords
      rw [tblLoop, Imdb.tblLoop]
      by_cases hindex : DEFAULT_PERIOD_RECORD_NUM ≤ index
      · rw [if_pos hindex, if_pos hindex]
        exact ⟨buffer, rfl, .refl buffer p, hpos⟩
      rw [if_neg hindex, if_neg hindex]
      by_cases hexpired : expired env record = true
      · rw [if_pos hexpired, if_pos hexpired]
        exact ih hrecords.2 index total hpos hmax hroom
      rw [if_neg hexpired, if_neg hexpired]
      obtain ⟨middle, he, hmiddle, hshort⟩ :=
        rec2Prometheus_spec hnode hrecords.1 hentity hpos hmax hroom
      rw [he]
      dsimp only
      by_cases hzero : (Imdb.rec2Prometheus env nodeInfo record entityName maxLen).length = 0
      · rw [List.eq_nil_of_length_eq_zero hzero] at hmiddle
        simp only [Option.bind_eq_bind, Option.bind_some, hzero, ite_true]
        exact ⟨middle, rfl, hmiddle, hpos⟩
      · have hrest : p + (Imdb.rec2Prometheus env nodeInfo record entityName maxLen).length +
            (maxLen - (Imdb.rec2Prometheus env nodeInfo record entityName maxLen).length) ≤
              middle.length := by
          rw [hmiddle.length_eq]
          omega
        obtain ⟨after, hloop, hafter, hlong⟩ := ih hrecords.2 (index + 1)
          (total + (Imdb.rec2Prometheus env nodeInfo record entityName maxLen).length)
          (by omega) (by omega) hrest
        simp only [Option.bind_eq_bind, Option.bind_some, hzero, ite_false, lessen_eq hshort.le,
          hloop, List.length_append]
        refine ⟨after, ?_, hmiddle.append hafter, by omega⟩
        simp only [Nat.add_assoc, Nat.sub_sub]

-- The text of a table that leaves room behind it is as long as the function says, and ends
-- with a NUL.
theorem tbl2Prometheus_spec (hnode : NodeCStrings env nodeInfo) {table : Table}
    (htable : table.CStrings) (hpos : 0 < maxLen) (hmax : maxLen < 2 ^ 31)
    (hroom : p + maxLen ≤ buffer.length) :
    let result := Imdb.tbl2Prometheus env nodeInfo table maxLen
    ∃ after, tbl2Prometheus env nodeInfo table buffer p maxLen =
        some (result.1, after, result.2.2) ∧
      Printed buffer p result.2.1 after ∧
      (result.2.2 < maxLen →
        result.2.1.length = result.2.2 ∧ Ended buffer p result.2.1 after) := by
  rw [tbl2Prometheus, Imdb.tbl2Prometheus]
  by_cases hempty : table.records.length = 0
  · rw [if_pos hempty, if_pos hempty]
    exact ⟨buffer, rfl, .refl buffer p, fun _ => ⟨rfl, .refl buffer p⟩⟩
  rw [if_neg hempty, if_neg hempty]
  obtain ⟨middle, he, hmiddle, hshort⟩ :=
    tblLoop_spec hnode htable.1 htable.2 0 0 hpos hmax hroom
  have hrest : p + (Imdb.tblLoop env nodeInfo table.entityName table.records 0 maxLen).2.length +
      (maxLen - (Imdb.tblLoop env nodeInfo table.entityName table.records 0 maxLen).2.length) ≤
        middle.length := by
    rw [hmiddle.length_eq]
    omega
  obtain ⟨after, hnewline, hafter, hnul⟩ := Printed.of_vsnprintf hrest ['\n']
  have hlast : lessen (maxLen -
      (Imdb.tblLoop env nodeInfo table.entityName table.records 0 maxLen).2.length) 1 =
        some (maxLen - (Imdb.tblLoop env nodeInfo table.entityName table.records 0
          maxLen).2.length - 1) := lessen_eq (show 1 ≤ _ by omega)
  refine ⟨after, ?_, ?_, ?_⟩
  · rw [he]
    simp only [Option.bind_eq_bind, Option.bind_some, hnewline, hlast, Nat.zero_add]
    rfl
  · dsimp only
    refine hmiddle.append ?_
    by_cases hone : 1 < maxLen -
        (Imdb.tblLoop env nodeInfo table.entityName table.records 0 maxLen).2.length
    · rw [truncated, List.take_of_length_le (by rw [List.length_singleton]; omega)] at hafter
      rw [if_pos hone]
      exact hafter
    · rw [truncated, show maxLen - (Imdb.tblLoop env nodeInfo table.entityName table.records 0
        maxLen).2.length - 1 = 0 by omega, List.take_zero] at hafter
      rw [if_neg hone]
      exact hafter
  · intro hfits
    dsimp only at hfits ⊢
    rw [if_pos (by omega), List.length_append]
    refine ⟨rfl, fun hnil => absurd hnil (by simp), fun _ => ?_⟩
    rw [List.append_assoc]
    exact hmiddle.append (hnul (by rw [List.length_singleton]; omega))

theorem tablesLoop_spec (hnode : NodeCStrings env nodeInfo) {tables : List Table}
    (htables : ∀ table ∈ tables, table.CStrings) (hpos : 0 < maxLen) (hmax : maxLen < 2 ^ 31)
    (hroom : p + maxLen ≤ buffer.length) :
    let result := Imdb.tablesLoop env nodeInfo tables maxLen
    ∃ after, tablesLoop env nodeInfo tables buffer p maxLen =
        some (result.1, after, result.2.2) ∧
      Printed buffer p result.2.1 after ∧
      ∀ rest ∈ result.2.2, 0 < rest ∧ rest + result.2.1.length = maxLen ∧
        Ended buffer p result.2.1 after := by
  induction tables generalizing buffer p maxLen with
  | nil =>
      refine ⟨buffer, rfl, .refl buffer p, fun rest hrest => ?_⟩
      cases hrest
      exact ⟨hpos, rfl, .refl buffer p⟩
  | cons table tables ih =>
      rw [List.forall_mem_cons] at htables
      rw [tablesLoop, Imdb.tablesLoop]
      obtain ⟨middle, he, hmiddle, hlength⟩ :=
        tbl2Prometheus_spec hnode htables.1 hpos hmax hroom
      rw [he]
      dsimp only
      by_cases hover : maxLen ≤ (Imdb.tbl2Prometheus env nodeInfo table maxLen).2.2
      · rw [if_pos hover]
        refine ⟨middle, ?_, hmiddle, fun rest hrest => by cases hrest⟩
        simp only [Option.bind_eq_bind, Option.bind_some, if_pos hover]
        rfl
      · obtain ⟨htext, hended⟩ := hlength (by omega)
        have hrest : p + (Imdb.tbl2Prometheus env nodeInfo table maxLen).2.2 +
            (maxLen - (Imdb.tbl2Prometheus env nodeInfo table maxLen).2.2) ≤ middle.length := by
          rw [hmiddle.length_eq]
          omega
        obtain ⟨after, hloop, hafter, hleft⟩ := ih htables.2
          (show 0 < maxLen - (Imdb.tbl2Prometheus env nodeInfo table maxLen).2.2 by omega)
          (by omega) hrest
        rw [if_neg hover]
        refine ⟨after, ?_, ?_, fun rest hmem => ?_⟩
        · simp only [Option.bind_eq_bind, Option.bind_some, if_neg hover,
            lessen_eq (show (Imdb.tbl2Prometheus env nodeInfo table maxLen).2.2 ≤ maxLen by omega),
            hloop]
          rfl
        · refine hmiddle.append ?_
          rw [htext]
          exact hafter
        · obtain ⟨hrestPos, hsum, hrestEnded⟩ := hleft rest hmem
          refine ⟨hrestPos, ?_, ?_⟩
          · change rest + ((Imdb.tbl2Prometheus env nodeInfo table maxLen).2.1 ++
              (Imdb.tablesLoop env nodeInfo tables (maxLen -
                (Imdb.tbl2Prometheus env nodeInfo table maxLen).2.2)).2.1).length = maxLen
            rw [List.length_append, htext]
            omega
          · refine hended.append (by omega) ?_
            rw [htext]
            exact hrestEnded

end Loops

end InBuffer

-- In a buffer of `maxLen` characters the export never writes behind the end, no length falls
-- below zero, and the result is that of `dataBase2Prometheus`, its text in the buffer; if it
-- is 0, the text is `bufLen` long, room is left and a NUL ends it, unless there is no text.
theorem inBuffer_dataBase2Prometheus (env : Env) (mgr : DataBaseMgr) (maxLen : UInt32)
    (buffer : CharBuffer) (hne : mgr.tables ≠ []) (hpos : 1 ≤ maxLen.toNat)
    (hmax : maxLen.toNat < 2 ^ 31) (hnode : NodeCStrings env mgr.nodeInfo)
    (htables : ∀ table ∈ mgr.tables, table.CStrings) (hbuffer : buffer.length = maxLen.toNat) :
    let abstract := dataBase2Prometheus env mgr maxLen
    ∃ result, InBuffer.dataBase2Prometheus env mgr maxLen buffer = some result ∧
      result.mgr = abstract.mgr ∧ result.bufLen = abstract.bufLen ∧ result.ret = abstract.ret ∧
      buffer.Printed 0 abstract.buffer result.buffer ∧
      (result.ret = 0 → result.bufLen = some abstract.buffer.length ∧
        abstract.buffer.length < maxLen.toNat ∧ buffer.Ended 0 abstract.buffer result.buffer) := by
  obtain ⟨after, he, hprinted, hleft⟩ := InBuffer.tablesLoop_spec hnode htables hpos hmax
    (show 0 + maxLen.toNat ≤ buffer.length by omega)
  rw [InBuffer.dataBase2Prometheus, dataBase2Prometheus, he]
  dsimp only
  have hnames := tablesLoop_names env mgr.nodeInfo mgr.tables maxLen.toNat
  cases hspace : (tablesLoop env mgr.nodeInfo mgr.tables maxLen.toNat).2.2 with
  | none =>
      refine ⟨_, rfl, rfl, rfl, rfl, hprinted, fun hret => ?_⟩
      exact absurd (show (-1 : ℤ) = 0 from hret) (by decide)
  | some rest =>
      obtain ⟨hrest, hsum, hended⟩ := hleft rest hspace
      have hexported : (tablesLoop env mgr.nodeInfo mgr.tables maxLen.toNat).1 ≠ [] := by
        intro hnil
        rw [hnil, List.map_nil, eq_comm, List.map_eq_nil_iff] at hnames
        exact hne hnames
      simp only [Option.bind_eq_bind, Option.bind_some, if_neg hexported,
        InBuffer.lessen_eq (show rest ≤ maxLen.toNat by omega)]
      have hlength : maxLen.toNat - rest =
          (tablesLoop env mgr.nodeInfo mgr.tables maxLen.toNat).2.1.length := by omega
      have hroom : (tablesLoop env mgr.nodeInfo mgr.tables maxLen.toNat).2.1.length <
          maxLen.toNat := by omega
      exact ⟨_, rfl, rfl, rfl, rfl, hprinted, fun _ => ⟨congrArg some hlength, hroom, hended⟩⟩

-- The lines and the blank line take 105 characters, and one more for the NUL.
theorem inBuffer_dataBase2Prometheus_cut :
    ∃ result, InBuffer.dataBase2Prometheus cutEnv cutMgr 106 (List.replicate 106 'x') =
      some result ∧ result.ret = 0 ∧ result.bufLen = some 105 := by
  have hnode : NodeCStrings cutEnv cutMgr.nodeInfo := by
    refine ⟨by decide, by decide, fun tgid tgidRecord htgid => ?_⟩
    cases htgid
  have htables : ∀ table ∈ cutMgr.tables, table.CStrings := by
    unfold Table.CStrings Record.CStrings
    decide
  obtain ⟨result, hresult, -, hbufLen, hret, -⟩ :=
    inBuffer_dataBase2Prometheus cutEnv cutMgr 106 (List.replicate 106 'x') (by decide)
      (by decide) (by decide) hnode htables (by simp)
  exact ⟨result, hresult, hret.trans (by decide), hbufLen.trans (by decide)⟩

end Gopher.Imdb
