import Gopher.Imdb.Export.Grammar

-- What is read of a whole export, and what has left the tables for it.

namespace Gopher.Imdb

open Gopher.Lib

-- What `WriteMetricsLogs` makes of an export: one that failed is not written, and blank lines
-- say nothing to the reader.
def readExport (number : Text → Bool) (page : Export) : Option (List Sample) :=
  match page.bufLen with
  | none => some []
  | some bufLen =>
      ((completeLines (page.buffer.take bufLen)).filter (· ≠ [])).mapM (readLine number)

def recordSamples (env : Env) (nodeInfo : NodeInfo) (entityName : Text) (record : Record) :
    List Sample :=
  (record.metrics.filter reportable).map (sampleOf env nodeInfo record entityName)

-- Each metric of the record that is reported can be read.
def Record.Readable (number : Text → Bool) (env : Env) (nodeInfo : NodeInfo) (entityName : Text)
    (record : Record) : Prop :=
  ∀ metric ∈ record.metrics, reportable metric = true →
    Imdb.Readable number env nodeInfo record entityName metric

theorem mapM_eq_some_iff {α β : Type*} {read : α → Option β} {items : List α} {values : List β} :
    items.mapM read = some values ↔ items.map read = values.map some := by
  induction items generalizing values with
  | nil => cases values <;> simp
  | cons item items ih =>
      rw [List.mapM_cons, List.map_cons]
      simp only [Option.bind_eq_bind, Option.bind_eq_some_iff, Option.pure_def,
        Option.some.injEq]
      constructor
      · rintro ⟨value, hvalue, others, hothers, rfl⟩
        rw [hvalue, List.map_cons, ih.mp hothers]
      · intro h
        cases values with
        | nil => cases h
        | cons value others =>
            rw [List.map_cons, List.cons.injEq] at h
            exact ⟨value, h.1, others, ih.mpr h.2, rfl⟩

-- Two lists of the same parts are the same part by part.
theorem flatMap_map_eq_iff {α β γ : Type*} {f g : α → β → γ} {items : List α}
    {parts : α → List β} :
    (items.flatMap fun item => (parts item).map (f item)) =
        (items.flatMap fun item => (parts item).map (g item)) ↔
      ∀ item ∈ items, ∀ part ∈ parts item, f item part = g item part := by
  constructor
  · intro h
    induction items with
    | nil => exact fun _ hitem => absurd hitem List.not_mem_nil
    | cons item items ih =>
        rw [List.flatMap_cons, List.flatMap_cons] at h
        have hboth := List.append_inj h (by rw [List.length_map, List.length_map])
        exact List.forall_mem_cons.mpr ⟨List.map_inj_left.mp hboth.1, ih hboth.2⟩
  · exact fun h => List.flatMap_congr fun item hitem => List.map_congr_left (h item hitem)

section Lines

variable {number : Text → Bool} {env : Env} {nodeInfo : NodeInfo} {one : Taken}

-- What is taken has labels.
theorem labelText_of_taken {tables : List Table} {space : ℕ}
    (hone : one ∈ tablesTaken env nodeInfo tables space) :
    ∃ ip, hostIP env nodeInfo = some ip ∧ (buildPrometheusLabel env nodeInfo one.record).getD [] =
      labelText env nodeInfo one.record ip := by
  have hout := tablesTaken_outLines_ne_nil hone
  rw [outLines] at hout
  split_ifs at hout with hlabels
  · obtain ⟨labels, hlabels⟩ := Option.isSome_iff_exists.mp hlabels
    rw [hlabels, Option.getD_some]
    rw [buildPrometheusLabel_eq, Option.bind_eq_some_iff] at hlabels
    obtain ⟨ip, hip, hlabels⟩ := hlabels
    split_ifs at hlabels
    rw [Option.some.injEq] at hlabels
    exact ⟨ip, hip, hlabels.symm⟩
  · exact absurd rfl hout

-- The line of a metric of a record that is taken is read as its sample if it can be read.
theorem readLine_taken_iff (hnumber : ∀ text, number text = true → ' ' ∉ text)
    {tables : List Table} {space : ℕ} (hone : one ∈ tablesTaken env nodeInfo tables space)
    (metric : Metric) :
    readLine number (metricLine env one.table.entityName
        ((buildPrometheusLabel env nodeInfo one.record).getD []) metric) =
        some (sampleOf env nodeInfo one.record one.table.entityName metric) ↔
      Readable number env nodeInfo one.record one.table.entityName metric := by
  obtain ⟨ip, hip, hlabels⟩ := labelText_of_taken hone
  rw [hlabels, readLine_metricLine_iff hnumber hip]

end Lines

-- With nothing cut, the lines of the text are those of the records that are taken.
theorem text_of_noneCut {env : Env} {mgr : DataBaseMgr} {maxLen : UInt32} {rest : ℕ}
    (hnone : NoneCut env mgr maxLen)
    (hrest : (tablesLoop env mgr.nodeInfo mgr.tables maxLen.toNat).2.2 = some rest) :
    (completeLines (tablesLoop env mgr.nodeInfo mgr.tables maxLen.toNat).2.1).filter (· ≠ []) =
      (tablesTaken env mgr.nodeInfo mgr.tables maxLen.toNat).flatMap fun one =>
        recordLines env mgr.nodeInfo one.table.entityName one.record := by
  obtain ⟨-, lines, hlines, hfilter⟩ := tablesLoop_text env mgr.nodeInfo mgr.tables
    maxLen.toNat_lt hrest
  have hwhole : ((tablesTaken env mgr.nodeInfo mgr.tables maxLen.toNat).flatMap fun one =>
      outLines env mgr.nodeInfo one.table.entityName one.record one.space) =
        (tablesTaken env mgr.nodeInfo mgr.tables maxLen.toNat).flatMap fun one =>
          recordLines env mgr.nodeInfo one.table.entityName one.record :=
    List.flatMap_congr fun one hone => (tablesTaken_outLines hone).trans (hnone.1 one hone).1
  have hne : ((tablesTaken env mgr.nodeInfo mgr.tables maxLen.toNat).flatMap fun one =>
      recordLines env mgr.nodeInfo one.table.entityName one.record).filter (· ≠ []) =
        (tablesTaken env mgr.nodeInfo mgr.tables maxLen.toNat).flatMap fun one =>
          recordLines env mgr.nodeInfo one.table.entityName one.record := by
    refine List.filter_eq_self.mpr fun line hline => decide_eq_true ?_
    obtain ⟨one, -, hmem⟩ := List.mem_flatMap.mp hline
    exact recordLines_ne_nil hmem
  rw [hwhole, hne] at hfilter
  have hclean : ∀ line ∈ lines, '\n' ∉ line := by
    intro line hline
    by_cases hnil : line = []
    · rw [hnil]
      exact List.not_mem_nil
    · have hmem : line ∈ lines.filter (· ≠ []) :=
        List.mem_filter.mpr ⟨hline, decide_eq_true hnil⟩
      rw [hfilter] at hmem
      obtain ⟨one, hone, hmem⟩ := List.mem_flatMap.mp hmem
      exact (hnone.1 one hone).2 line hmem
  rw [hlines, completeLines_printed hclean, hfilter]

-- An export that cuts nothing is read as the samples of the records that have left the tables,
-- each once and nothing else, exactly when each of them can be read.
theorem exported_page_read_iff (number : Text → Bool)
    (hnumber : ∀ text, number text = true → ' ' ∉ text ∧ '\n' ∉ text) (env : Env)
    (mgr : DataBaseMgr) (hwf : mgr.WellFormed) (maxLen : UInt32)
    (hnone : NoneCut env mgr maxLen) :
    let page := dataBase2Prometheus env mgr maxLen
    let gone := missing env mgr.tables page.mgr.tables
    readExport number page = some (gone.flatMap fun one =>
        recordSamples env mgr.nodeInfo one.1.entityName one.2) ↔
      ∀ one ∈ gone, one.2.Readable number env mgr.nodeInfo one.1.entityName := by
  have hgone := missing_dataBase2Prometheus env hwf maxLen
  dsimp only
  rw [hgone, List.forall_mem_map, List.flatMap_map, readExport, dataBase2Prometheus]
  dsimp only
  cases hspace : (tablesLoop env mgr.nodeInfo mgr.tables maxLen.toNat).2.2 with
  | none =>
      have hover := (tablesLoop_overflows env mgr.nodeInfo mgr.tables maxLen.toNat_lt).mp hspace
      simp [hnone.2 hover]
  | some rest =>
      have hsum := (tablesLoop_text env mgr.nodeInfo mgr.tables maxLen.toNat_lt hspace).1
      have htake : (tablesLoop env mgr.nodeInfo mgr.tables maxLen.toNat).2.1.take
          (maxLen.toNat - rest) = (tablesLoop env mgr.nodeInfo mgr.tables maxLen.toNat).2.1 :=
        List.take_of_length_le (by omega)
      dsimp only
      rw [htake, text_of_noneCut hnone hspace, mapM_eq_some_iff, List.map_flatMap,
        List.map_flatMap]
      simp only [recordLines, recordSamples, List.map_map]
      refine flatMap_map_eq_iff.trans (forall₂_congr fun one hone => ?_)
      simp only [List.mem_filter, and_imp, Record.Readable]
      exact forall₃_congr fun metric _ _ =>
        readLine_taken_iff (fun text h => (hnumber text h).1) hone metric

-- Two tables, the second with a record that has expired.
def twoTables : DataBaseMgr where
  tblsCapability := 2
  tables := [{ tableCreate "tcp_link".toList 4 with
      entityName := "tcp".toList, records := [keyedRecord "::1".toList] },
    { tableCreate "udp_link".toList 4 with
      entityName := "udp".toList
      records := [{ keyedRecord "::2".toList with updateTime := -60 },
        { keyedRecord "::3".toList with key := [2] }] }]
  nodeInfo := cutMgr.nodeInfo

def keyedSample (entityName val : String) : Sample where
  name := ("gala_gopher_" ++ entityName ++ "_rx").toList
  labels := [("ip".toList, val.toList), ("machine_id".toList, "u-10.0.0.1".toList)]
  value := "1".toList
  timestamp := 7000

theorem exported_page_read_iff_twoTables :
    readExport allDigits (dataBase2Prometheus cutEnv twoTables 4096) =
      some [keyedSample "tcp" "::1", keyedSample "udp" "::3"] := by
  have hwf : twoTables.WellFormed := by
    constructor
    · decide
    · unfold twoTables
      simp only [List.forall_mem_cons]
      exact ⟨⟨by decide, by decide⟩, ⟨by decide, by decide⟩, fun _ h => absurd h List.not_mem_nil⟩
  have hnone : NoneCut cutEnv twoTables 4096 := by
    unfold NoneCut Taken.Whole
    decide +kernel
  refine ((exported_page_read_iff allDigits allDigits_noBlank cutEnv twoTables hwf 4096
    hnone).mpr ?_).trans (by decide +kernel)
  unfold Record.Readable
  simp only [readable_iff, PairReadable]
  decide +kernel

end Gopher.Imdb
