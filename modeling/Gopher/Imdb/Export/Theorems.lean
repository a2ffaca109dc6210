import Gopher.Imdb.Export

namespace Gopher.Imdb

open Gopher.Lib

theorem stored_iff_contents (tables : List Table) (name : Text) (record : Record) :
    Stored tables name record ↔
      ∃ contents ∈ tables.map Table.contents, contents.1 = name ∧ record ∈ contents.2.2 := by
  simp [Stored, Table.contents]

theorem stored_of_perm {tables others : List Table}
    (hperm : (tables.map Table.contents).Perm (others.map Table.contents)) (name : Text)
    (record : Record) : Stored tables name record ↔ Stored others name record := by
  simp only [stored_iff_contents, hperm.mem_iff]

theorem missing_congr (env : Env) {before after others : List Table}
    (hstored : ∀ table ∈ before, ∀ record, Stored after table.name record ↔
      Stored others table.name record) :
    missing env before after = missing env before others := by
  unfold missing
  refine List.flatMap_congr fun table htable => ?_
  simp only [hstored table htable]

theorem missing_self (env : Env) (tables : List Table) : missing env tables tables = [] := by
  unfold missing
  rw [List.flatMap_eq_nil_iff]
  intro table htable
  have hfilter : (table.records.filter fun record => !expired env record &&
      !decide (Stored tables table.name record)) = [] := by
    apply List.filter_eq_nil_iff.mpr
    intro record hrecord
    simp [show Stored tables table.name record from ⟨table, htable, rfl, hrecord⟩]
  rw [hfilter, List.map_nil]

-- The tables after the first one do not see what happened to it.
theorem missing_cons (env : Env) {table exported : Table} {tables others : List Table}
    (hname : exported.name = table.name) (hothers : others.map Table.name = tables.map Table.name)
    (hnodup : ((table :: tables).map Table.name).Nodup) :
    missing env (table :: tables) (exported :: others) =
      ((table.records.filter fun record =>
        !expired env record && !decide (record ∈ exported.records)).map fun record =>
          (table, record)) ++ missing env tables others := by
  obtain ⟨hhead, -⟩ := List.nodup_cons.mp hnodup
  have hfirst : ∀ record, Stored (exported :: others) table.name record ↔
      record ∈ exported.records := by
    intro record
    constructor
    · rintro ⟨stored, hstored, hstoredName, hrecord⟩
      obtain rfl | hmem := List.mem_cons.mp hstored
      · exact hrecord
      · rw [← hothers] at hhead
        exact absurd (hstoredName ▸ List.mem_map_of_mem hmem) hhead
    · intro hrecord
      exact ⟨exported, by simp, hname, hrecord⟩
  have hrest : missing env tables (exported :: others) = missing env tables others := by
    refine missing_congr env fun other hother record => ?_
    have hne : exported.name ≠ other.name := by
      rw [hname]
      intro he
      exact hhead (he ▸ List.mem_map_of_mem hother)
    simp [Stored, hne]
  rw [← hrest, missing, List.flatMap_cons]
  simp only [hfirst]
  rfl

section Tables

variable (env : Env) (nodeInfo : NodeInfo)

def tblBlank (table : Table) : List Text :=
  if table.records = [] then [] else [[]]

theorem tbl2Prometheus_ret (table : Table) {space : ℕ} (hspace : space < 2 ^ 32) :
    (tbl2Prometheus env nodeInfo table space).2.2 = tblLen env nodeInfo table space := by
  rw [tbl2Prometheus, tblLen, tblLines,
    ← tblLoop_text env nodeInfo table.entityName table.records 0 hspace]
  by_cases hnil : table.records = []
  · simp [hnil]
  · simp [hnil]

theorem tbl2Prometheus_text (table : Table) {space : ℕ} (hspace : space < 2 ^ 32)
    (hroom : tblLen env nodeInfo table space < space) :
    (tbl2Prometheus env nodeInfo table space).2.1 =
      printed (tblLines env nodeInfo table space ++ tblBlank table) := by
  rw [tblLen] at hroom
  rw [tbl2Prometheus, tblBlank]
  simp only [List.length_eq_zero_iff]
  by_cases hnil : table.records = []
  · simp [hnil, tblLines, tblTaken]
  · rw [if_neg hnil] at hroom
    have htext := tblLoop_text env nodeInfo table.entityName table.records 0 hspace
    rw [← tblLines] at htext
    simp only [hnil, ite_false, htext]
    rw [if_pos (by omega), printed_append]
    rfl

theorem printed_tbl_length (table : Table) (space : ℕ) :
    (printed (tblLines env nodeInfo table space ++ tblBlank table)).length =
      tblLen env nodeInfo table space := by
  rw [tblLen, tblBlank]
  by_cases hnil : table.records = []
  · simp [hnil, tblLines, tblTaken]
  · simp [hnil]

-- One round of the loop over the tables: the table overflows and the rest is
-- left alone, or its lines and its blank line go out.
theorem tablesLoop_cons_cases (table : Table) (tables : List Table) {space : ℕ}
    (hspace : space < 2 ^ 32) :
    ∃ exported, exported.name = table.name ∧
      exported.records = (tblLoop env nodeInfo table.entityName table.records 0 space).1 ∧
      ((space ≤ tblLen env nodeInfo table space ∧ ∃ text,
        tablesLoop env nodeInfo (table :: tables) space = (exported :: tables, text, none)) ∨
      (tblLen env nodeInfo table space < space ∧
        tablesLoop env nodeInfo (table :: tables) space =
          let rest := tablesLoop env nodeInfo tables (space - tblLen env nodeInfo table space)
          (exported :: rest.1,
            printed (tblLines env nodeInfo table space ++ tblBlank table) ++ rest.2.1,
            rest.2.2))) := by
  rw [tablesLoop]
  dsimp only
  rw [tbl2Prometheus_ret env nodeInfo table hspace]
  by_cases hover : space ≤ tblLen env nodeInfo table space
  · rw [if_pos hover, tbl2Prometheus_records]
    refine ⟨_, ?_, ?_, .inl ⟨hover, _, rfl⟩⟩ <;> rfl
  · have hroom : tblLen env nodeInfo table space < space := by omega
    rw [if_neg hover, tbl2Prometheus_records, tbl2Prometheus_text env nodeInfo table hspace hroom]
    refine ⟨_, ?_, ?_, .inr ⟨hroom, rfl⟩⟩ <;> rfl

theorem tablesLoop_missing {tables : List Table} (hnodup : (tables.map Table.name).Nodup)
    (hrecords : ∀ table ∈ tables, table.records.Nodup) {space : ℕ} (hspace : space < 2 ^ 32) :
    missing env tables (tablesLoop env nodeInfo tables space).1 =
      (tablesTaken env nodeInfo tables space).map fun one => (one.table, one.record) := by
  induction tables generalizing space with
  | nil => rfl
  | cons table tables ih =>
      have hfirst := tblLoop_missing env nodeInfo table.entityName
        (hrecords table (by simp)) 0 hspace
      have hnodupRest := (List.nodup_cons.mp hnodup).2
      obtain ⟨exported, hname, hkept, ⟨hover, text, he⟩ | ⟨hroom, he⟩⟩ :=
        tablesLoop_cons_cases env nodeInfo table tables hspace
      · rw [he, tablesTaken, if_pos hover, missing_cons env hname rfl hnodup, hkept, hfirst,
          missing_self]
        simp
      · have hsmall : space - tblLen env nodeInfo table space < 2 ^ 32 := by omega
        have hrest := ih hnodupRest (fun other hother => hrecords other (by simp [hother])) hsmall
        rw [he, tablesTaken, if_neg (by omega),
          missing_cons env hname (tablesLoop_names env nodeInfo tables _) hnodup, hkept,
          hfirst, hrest]
        simp

theorem tablesLoop_overflows (tables : List Table) {space : ℕ} (hspace : space < 2 ^ 32) :
    (tablesLoop env nodeInfo tables space).2.2 = none ↔
      overflows env nodeInfo tables space = true := by
  induction tables generalizing space with
  | nil => simp [tablesLoop, overflows]
  | cons table tables ih =>
      obtain ⟨exported, -, -, ⟨hover, text, he⟩ | ⟨hroom, he⟩⟩ :=
        tablesLoop_cons_cases env nodeInfo table tables hspace
      · simp [he, overflows, hover]
      · have hrest := ih (show space - tblLen env nodeInfo table space < 2 ^ 32 by omega)
        have hover : ¬ space ≤ tblLen env nodeInfo table space := by omega
        simp [he, overflows, hover, hrest]

-- Apart from the blank lines, the buffer holds the lines of what was taken.
theorem tablesLoop_text (tables : List Table) {space rest : ℕ} (hspace : space < 2 ^ 32)
    (hrest : (tablesLoop env nodeInfo tables space).2.2 = some rest) :
    rest + (tablesLoop env nodeInfo tables space).2.1.length = space ∧
    ∃ lines, (tablesLoop env nodeInfo tables space).2.1 = printed lines ∧
      lines.filter (· ≠ []) = ((tablesTaken env nodeInfo tables space).flatMap fun one =>
        outLines env nodeInfo one.table.entityName one.record one.space).filter (· ≠ []) := by
  induction tables generalizing space with
  | nil =>
      cases hrest
      exact ⟨rfl, [], rfl, rfl⟩
  | cons table tables ih =>
      obtain ⟨exported, -, -, ⟨hover, text, he⟩ | ⟨hroom, he⟩⟩ :=
        tablesLoop_cons_cases env nodeInfo table tables hspace
      · rw [he] at hrest
        cases hrest
      · rw [he] at hrest ⊢
        rw [tablesTaken, if_neg (by omega)]
        dsimp only at hrest ⊢
        have hlen := printed_tbl_length env nodeInfo table space
        obtain ⟨hsum, lines, hlines, hfilter⟩ :=
          ih (show space - tblLen env nodeInfo table space < 2 ^ 32 by omega) hrest
        refine ⟨?_, tblLines env nodeInfo table space ++ tblBlank table ++ lines, ?_, ?_⟩
        · rw [List.length_append, hlen]
          omega
        · rw [hlines, ← printed_append]
        · have hblank : (tblBlank table).filter (· ≠ []) = [] := by
            unfold tblBlank
            split_ifs <;> simp
          rw [List.filter_append, List.filter_append, hblank, hfilter, List.flatMap_append,
            List.filter_append, List.append_nil, List.flatMap_map]
          rfl

end Tables

theorem recordLines_ne_nil {env : Env} {nodeInfo : NodeInfo} {entityName : Text} {record : Record}
    {line : Text} (hline : line ∈ recordLines env nodeInfo entityName record) : line ≠ [] := by
  obtain ⟨metric, -, rfl⟩ := List.mem_map.mp hline
  have hhead : "gala_gopher_".toList ≠ [] := by decide
  exact List.append_ne_nil_of_left_ne_nil (List.append_ne_nil_of_left_ne_nil hhead _) _

theorem tblTaken_outLines {env : Env} {nodeInfo : NodeInfo} {entityName : Text}
    {records : List Record} {index space : ℕ} {one : Record × ℕ}
    (hone : one ∈ tblTaken env nodeInfo entityName records index space) :
    outLines env nodeInfo entityName one.1 one.2 ≠ [] := by
  induction records generalizing index space with
  | nil => simp [tblTaken] at hone
  | cons record records ih =>
      rw [tblTaken] at hone
      dsimp only at hone
      split_ifs at hone with hindex hexpired hout
      · simp at hone
      · exact ih hone
      · simp at hone
      · obtain rfl | hmem := List.mem_cons.mp hone
        · exact hout
        · exact ih hmem

theorem tablesTaken_outLines_ne_nil {env : Env} {nodeInfo : NodeInfo} {tables : List Table}
    {space : ℕ} {one : Taken} (hone : one ∈ tablesTaken env nodeInfo tables space) :
    outLines env nodeInfo one.table.entityName one.record one.space ≠ [] := by
  induction tables generalizing space with
  | nil => simp [tablesTaken] at hone
  | cons table tables ih =>
      rw [tablesTaken, List.mem_append] at hone
      obtain hmap | hrest := hone
      · obtain ⟨taken, htaken, rfl⟩ := List.mem_map.mp hmap
        exact tblTaken_outLines htaken
      · split_ifs at hrest
        · simp at hrest
        · exact ih hrest

theorem tablesTaken_outLines {env : Env} {nodeInfo : NodeInfo} {tables : List Table} {space : ℕ}
    {one : Taken} (hone : one ∈ tablesTaken env nodeInfo tables space) :
    outLines env nodeInfo one.table.entityName one.record one.space =
      fitting one.space (recordLines env nodeInfo one.table.entityName one.record) := by
  have hne := tablesTaken_outLines_ne_nil hone
  rw [outLines] at hne ⊢
  split_ifs at hne ⊢
  · rfl
  · exact absurd rfl hne

theorem missing_dataBase2Prometheus (env : Env) {mgr : DataBaseMgr} (hwf : mgr.WellFormed)
    (maxLen : UInt32) :
    missing env mgr.tables (dataBase2Prometheus env mgr maxLen).mgr.tables =
      (tablesTaken env mgr.nodeInfo mgr.tables maxLen.toNat).map
        fun one => (one.table, one.record) := by
  have hrecords : ∀ table ∈ mgr.tables, table.records.Nodup :=
    fun table htable => (hwf.tables_wellFormed table htable).keys_nodup.of_map _
  rw [← tablesLoop_missing env mgr.nodeInfo hwf.names_nodup hrecords maxLen.toNat_lt]
  rw [dataBase2Prometheus]
  dsimp only
  split
  · rfl
  · exact missing_congr env fun table _ record => stored_of_perm (adjustTblPrio_perm _) _ _

-- The lines of what was taken are all in the text exactly when each record fitted whole.
theorem whole_iff_subperm (env : Env) (nodeInfo : NodeInfo) (tables : List Table)
    {space rest : ℕ} (hspace : space < 2 ^ 32)
    (hrest : (tablesLoop env nodeInfo tables space).2.2 = some rest) :
    (∀ one ∈ tablesTaken env nodeInfo tables space, one.Whole env nodeInfo) ↔
      ((tablesTaken env nodeInfo tables space).flatMap fun one =>
        recordLines env nodeInfo one.table.entityName one.record).Subperm
          (completeLines (tablesLoop env nodeInfo tables space).2.1) := by
  obtain ⟨-, lines, hlines, hfilter⟩ := tablesLoop_text env nodeInfo tables hspace hrest
  have hbegins : ∀ one ∈ tablesTaken env nodeInfo tables space,
      outLines env nodeInfo one.table.entityName one.record one.space <+:
        recordLines env nodeInfo one.table.entityName one.record :=
    fun one _ => outLines_prefix _ _ _ _ _
  have hne : ∀ line ∈ (tablesTaken env nodeInfo tables space).flatMap fun one =>
      recordLines env nodeInfo one.table.entityName one.record, line ≠ [] := by
    intro line hline
    obtain ⟨one, -, hone⟩ := List.mem_flatMap.mp hline
    exact recordLines_ne_nil hone
  rw [hlines, subperm_completeLines_iff hne (flatMap_sublist hbegins) hfilter,
    flatMap_eq_iff_of_prefix hbegins]
  constructor
  · intro hwhole
    refine ⟨fun one hone => ?_, fun line hline => ?_⟩
    · rw [tablesTaken_outLines hone]
      exact (hwhole one hone).1
    · obtain ⟨one, hone, hmem⟩ := List.mem_flatMap.mp hline
      exact (hwhole one hone).2 line hmem
  · rintro ⟨hout, hnewline⟩ one hone
    refine ⟨?_, fun line hline => hnewline line (List.mem_flatMap.mpr ⟨one, hone, hline⟩)⟩
    rw [← tablesTaken_outLines hone]
    exact hout one hone

-- What left the tables went out line by line exactly when the end of the buffer
-- cut no record and no table overflowed after a record was taken.
theorem losesNothing_iff_noneCut (env : Env) (mgr : DataBaseMgr) (hwf : mgr.WellFormed)
    (maxLen : UInt32) : LosesNothing env mgr maxLen ↔ NoneCut env mgr maxLen := by
  have hover := tablesLoop_overflows env mgr.nodeInfo mgr.tables maxLen.toNat_lt
  simp only [LosesNothing, missing_dataBase2Prometheus env hwf, NoneCut, List.flatMap_map,
    ne_eq, List.map_eq_nil_iff]
  rw [dataBase2Prometheus]
  dsimp only
  cases hspace : (tablesLoop env mgr.nodeInfo mgr.tables maxLen.toNat).2.2 with
  | none =>
      rw [hspace] at hover
      simp only [hover.mp rfl]
      constructor
      · intro hnothing
        have hnil : tablesTaken env mgr.nodeInfo mgr.tables maxLen.toNat = [] := by
          by_contra hne
          obtain ⟨bufLen, hret, -⟩ := hnothing hne
          omega
        exact ⟨by simp [hnil], fun _ => hnil⟩
      · rintro ⟨-, hnil⟩ hne
        exact absurd (hnil trivial) hne
  | some rest =>
      have hnotOver : ¬ overflows env mgr.nodeInfo mgr.tables maxLen.toNat = true := by
        rw [← hover, hspace]
        simp
      have hsum := (tablesLoop_text env mgr.nodeInfo mgr.tables maxLen.toNat_lt hspace).1
      have htake : (tablesLoop env mgr.nodeInfo mgr.tables maxLen.toNat).2.1.take
          (maxLen.toNat - rest) = (tablesLoop env mgr.nodeInfo mgr.tables maxLen.toNat).2.1 :=
        List.take_of_length_le (by omega)
      rw [whole_iff_subperm env mgr.nodeInfo mgr.tables maxLen.toNat_lt hspace]
      constructor
      · intro hnothing
        refine ⟨?_, fun h => absurd h hnotOver⟩
        by_cases hnil : tablesTaken env mgr.nodeInfo mgr.tables maxLen.toNat = []
        · rw [hnil]
          exact List.nil_subperm
        · obtain ⟨bufLen, -, hlen, hperm⟩ := hnothing hnil
          cases hlen
          rwa [htake] at hperm
      · rintro ⟨hperm, -⟩ -
        refine ⟨maxLen.toNat - rest, rfl, rfl, ?_⟩
        rwa [htake]

def cutEnv : Env where
  now := 7
  recordTimeout := 60
  tgidRecord := fun _ => none
  getSystemIp := some "10.0.0.1".toList

def cutMetric (name : Text) : Metric where
  type := "gauge".toList
  name := name
  val := "1".toList

-- One record with two metrics, whose lines take 52 bytes each.
def cutMgr : DataBaseMgr where
  tblsCapability := 1
  tables := [{ tableCreate "tcp_link".toList 4 with
    entityName := "tcp".toList
    records := [⟨[1], 5, [cutMetric "rx".toList, cutMetric "tx".toList]⟩] }]
  nodeInfo := ⟨"u".toList, []⟩

theorem cutMgr_wellFormed : cutMgr.WellFormed := by
  constructor
  · decide
  · intro table htable
    obtain rfl := List.mem_singleton.mp htable
    exact ⟨by decide, by decide⟩

-- In 60 bytes only the first line fits and the second metric is gone; in 105
-- bytes both lines fit, but the blank line does not, and the call fails.
theorem cutMgr_losesSomething :
    cutMgr.WellFormed ∧ ¬ LosesNothing cutEnv cutMgr 60 ∧ ¬ LosesNothing cutEnv cutMgr 105 := by
  refine ⟨cutMgr_wellFormed, ?_, ?_⟩
  · intro hnothing
    obtain ⟨bufLen, -, hlen, hperm⟩ := hnothing (by decide)
    have hbuf : (dataBase2Prometheus cutEnv cutMgr 60).bufLen = some 53 := by decide
    rw [hbuf] at hlen
    cases hlen
    revert hperm
    decide
  · intro hnothing
    obtain ⟨bufLen, hret, -⟩ := hnothing (by decide)
    revert hret
    decide

theorem losesNothing_iff_noneCut_106 :
    cutMgr.WellFormed ∧ NoneCut cutEnv cutMgr 106 ∧ LosesNothing cutEnv cutMgr 106 := by
  have hnone : NoneCut cutEnv cutMgr 106 := by
    unfold NoneCut Taken.Whole
    decide
  exact ⟨cutMgr_wellFormed, hnone,
    (losesNothing_iff_noneCut cutEnv cutMgr cutMgr_wellFormed 106).mpr hnone⟩

end Gopher.Imdb
