import Gopher.Probe.Config.Kind

namespace Gopher.Probe.Config

open Gopher.Lib Gopher.Ipc

def Names (document : Json) (item : Item) : Prop :=
  (document.getObjectItem item.name).isSome

instance (document : Json) (item : Item) : Decidable (Names document item) :=
  inferInstanceAs (Decidable (_ = true))

-- What an item configures is as before.
def Item.Kept (before after : ProbeS) : Item → Prop
  | cmd => after.command = before.command ∧ after.chkCmd = before.chkCmd ∧
      after.probeRangeFlags = before.probeRangeFlags
  | snoopers => after.snooperConfs = before.snooperConfs ∧ after.snooperObjs = before.snooperObjs
  | params => after.probeParam = before.probeParam
  | state => after.flags = before.flags ∧ after.isRestart = before.isRestart ∧
      after.pid = before.pid

-- The change marks tell what a request has changed, and it changes nothing that
-- it does not name. The cmd and params items share one mark.
structure Detects (document : Json) (before after : ProbeS) : Prop where
  params : after.isParamsChg = true ↔
    after.probeParam ≠ before.probeParam ∨ after.probeRangeFlags ≠ before.probeRangeFlags
  snoopers : after.isSnooperChg = true ↔ after.snooperConfs ≠ before.snooperConfs
  omitted : ∀ item, ¬ Names document item → item.Kept before after
  omittedParams : ¬ Names document .cmd → ¬ Names document .params →
    after.isParamsChg = before.isParamsChg
  omittedSnoopers : ¬ Names document .snoopers → after.isSnooperChg = before.isSnooperChg

-- The range flags that a list of names stands for.
def rangeFlags (type : ProbeType) (objects : List Json) : UInt32 :=
  objects.foldl (fun flags object =>
    flags ||| (object.valuestring.map (getProbeRange type)).getD 0) 0

def requestedRange (type : ProbeType) (document : Json) : Option UInt32 :=
  ((document.getObjectItem Item.cmd.name).bind fun item =>
    item.getObjectItem "probe".toList).map fun objects => rangeFlags type objects.children

-- The request itself names parameters or ranges that are not those in force.
def AsksForOther (document : Json) (probe : ProbeS) : Prop :=
  (∃ flags ∈ requestedRange probe.probeType document, flags ≠ probe.probeRangeFlags) ∨
    ∃ item ∈ document.getObjectItem Item.params.name,
      (parseParams item probe.probeParam).1 ≠ probe.probeParam

-- What is not named by the request has the value that the cleared backup has, and
-- a mark that is not named has not been left set.
structure Comparable (document : Json) (probe : ProbeS) : Prop where
  params : AsksForOther document probe ∨
    (Names document .cmd ∨ probe.probeRangeFlags = 0) ∧
      (Names document .params ∨ probe.probeParam = zeroParams)
  paramsMark : Names document .cmd ∨ Names document .params ∨ probe.isParamsChg = false
  snoopers : Names document .snoopers ∨ probe.snooperConfs = [] ∧ probe.isSnooperChg = false

theorem compStrP_iff (first second : Option Text) :
    compStrP first second = true ↔ first ≠ second := by
  cases first <;> cases second <;> simp [compStrP]

-- The comparison of two configurations looks at every field of theirs.
theorem snooperIsModify_iff (conf backup : SnooperConf) :
    snooperIsModify conf backup = true ↔ conf ≠ backup := by
  cases conf <;> cases backup <;>
    simp only [snooperIsModify, Bool.or_eq_true, bne_iff_ne, compStrP_iff, ne_eq,
      SnooperConf.app.injEq, SnooperConf.gaussdb.injEq, SnooperConf.procId.injEq,
      SnooperConf.podId.injEq, SnooperConf.containerId.injEq, reduceCtorEq, not_false_eq_true]
  all_goals tauto

theorem snoopersModified_iff (confs backup : SnooperConfs) :
    (confs.length != backup.length || snoopersModified confs backup) = true ↔ confs ≠ backup := by
  induction confs generalizing backup with
  | nil => cases backup <;> simp [snoopersModified]
  | cons conf confs ih =>
      cases backup with
      | nil => simp
      | cons other backup =>
          have hrest := ih backup
          simp only [snoopersModified, List.length_cons, List.zip_cons_cons, List.any_cons,
            Bool.or_eq_true, bne_iff_ne, snooperIsModify_iff, ne_eq, List.cons.injEq] at hrest ⊢
          grind

namespace Item.Kept

theorem refl (item : Item) (probe : ProbeS) : item.Kept probe probe := by
  cases item <;> simp [Item.Kept]

theorem trans {item : Item} {first second third : ProbeS} (hfirst : item.Kept first second)
    (hsecond : item.Kept second third) : item.Kept first third := by
  cases item <;> simp_all [Item.Kept]

end Item.Kept

-- Each parser keeps to what its own item configures.
theorem parser_kept (env : Env) (item other : Item) (value : Json) (probe : ProbeS)
    (hother : other ≠ item) : other.Kept probe (item.parser env value probe).1 := by
  cases item with
  | cmd =>
      obtain ⟨written, h⟩ := probeParserCmd_writes env value probe
      simp only [Item.parser, h]
      cases other with
      | cmd => exact absurd rfl hother
      | snoopers => exact ⟨rfl, rfl⟩
      | params => rfl
      | state => exact ⟨rfl, rfl, rfl⟩
  | snoopers =>
      simp only [Item.parser, parseSnooper]
      cases other with
      | cmd => split <;> exact ⟨rfl, rfl, rfl⟩
      | snoopers => exact absurd rfl hother
      | params => split <;> rfl
      | state => split <;> exact ⟨rfl, rfl, rfl⟩
  | params =>
      cases other with
      | cmd => exact ⟨rfl, rfl, rfl⟩
      | snoopers => exact ⟨rfl, rfl⟩
      | params => exact absurd rfl hother
      | state => exact ⟨rfl, rfl, rfl⟩
  | state =>
      have hsettings := probeParserState_settings env value probe
      have hkept : ∀ item : Item,
          item.Kept probe.settings (probeParserState env value probe).1.settings := by
        intro item
        rw [hsettings]
        exact .refl item _
      cases other with
      | cmd => exact hkept .cmd
      | snoopers => exact hkept .snoopers
      | params => exact hkept .params
      | state => exact absurd rfl hother

theorem parser_probeType (env : Env) (item : Item) (value : Json) (probe : ProbeS) :
    (item.parser env value probe).1.probeType = probe.probeType := by
  cases item with
  | cmd =>
      obtain ⟨written, h⟩ := probeParserCmd_writes env value probe
      exact (congrArg ProbeS.probeType h).trans rfl
  | snoopers =>
      simp only [Item.parser, parseSnooper]
      split <;> rfl
  | params => rfl
  | state =>
      have hsettings := congrArg ProbeS.probeType (probeParserState_settings env value probe)
      exact hsettings

theorem applyItems_kept (env : Env) (document : Json) (items : List Item) (probe : ProbeS)
    (other : Item) (hother : other ∈ items → ¬ Names document other) :
    other.Kept probe (applyItems env document items probe).1 := by
  apply applyItems_relates other.Kept (Item.Kept.refl other) Item.Kept.trans
  intro item hitem value hvalue probe
  apply parser_kept
  rintro rfl
  exact hother hitem (by rw [Names, Option.mem_def.mp hvalue]; rfl)

-- A named item is parsed once, with its own part of the probe as it was before,
-- and what the parser makes of it stays.
theorem applyItems_named {env : Env} {document value : Json} {items : List Item} {probe : ProbeS}
    {item : Item} (hnodup : items.Nodup) (hmem : item ∈ items)
    (hvalue : document.getObjectItem item.name = some value)
    (haccepted : (applyItems env document items probe).2 = .ok) :
    ∃ reached next, item.Kept probe reached ∧ reached.probeType = probe.probeType ∧
      item.parser env value reached = (next, .ok) ∧
      item.Kept next (applyItems env document items probe).1 := by
  obtain ⟨earlier, later, rfl⟩ := List.append_of_mem hmem
  have hearlier : item ∉ earlier := fun h =>
    (List.nodup_append.mp hnodup).2.2 item h item List.mem_cons_self rfl
  have hlater : item ∉ later := (List.nodup_cons.mp (List.nodup_append.mp hnodup).2.1).1
  have hkept := applyItems_kept env document earlier probe item fun h => absurd h hearlier
  have htype : (applyItems env document earlier probe).1.probeType = probe.probeType :=
    applyItems_frame ProbeS.probeType env document earlier probe
      fun item _ value probe => parser_probeType env item value probe
  rw [applyItems_append] at haccepted ⊢
  rcases hfirst : applyItems env document earlier probe with ⟨reached, result⟩
  rw [hfirst] at hkept htype haccepted
  cases result with
  | error message => cases haccepted
  | ok =>
      dsimp only at haccepted ⊢
      rw [applyItems, hvalue] at haccepted ⊢
      dsimp only at haccepted ⊢
      rcases hparser : item.parser env value reached with ⟨next, result⟩
      rw [hparser] at haccepted
      cases result with
      | error message => cases haccepted
      | ok =>
          refine ⟨reached, next, hkept, htype, hparser, ?_⟩
          exact applyItems_kept env document later next item fun h => absurd h hlater

theorem probeParserRangeItems_ok {objects : List Json} {probe after : ProbeS}
    (hparse : probeParserRangeItems objects probe = (after, .ok)) :
    after.probeRangeFlags = objects.foldl (fun flags object =>
      flags ||| (object.valuestring.map (getProbeRange probe.probeType)).getD 0)
      probe.probeRangeFlags := by
  induction objects generalizing probe with
  | nil =>
      cases hparse
      rfl
  | cons object objects ih =>
      rw [probeParserRangeItems] at hparse
      cases hvalue : object.valuestring with
      | none =>
          rw [hvalue] at hparse
          cases hparse
      | some range =>
          rw [hvalue] at hparse
          have hrest := ih hparse
          rw [List.foldl_cons, hvalue]
          exact hrest

theorem probeParserCmd_range {env : Env} {item : Json} {probe after : ProbeS}
    (hcmd : probeParserCmd env item probe = (after, .ok)) :
    after.probeRangeFlags = ((item.getObjectItem "probe".toList).map fun objects =>
      rangeFlags probe.probeType objects.children).getD probe.probeRangeFlags := by
  obtain ⟨named, hset, hrange⟩ := probeParserCmd_ok hcmd
  have hnamed := setProbeBin_ok hset
  have hchk : (cmdChkCmd item named).probeRangeFlags = probe.probeRangeFlags ∧
      (cmdChkCmd item named).probeType = probe.probeType := by
    rw [hnamed, cmdChkCmd]
    split <;> exact ⟨rfl, rfl⟩
  obtain ⟨hnone, rfl⟩ | ⟨objects, hsome, hparse⟩ := hrange
  · rw [hnone]
    exact hchk.1
  · have hflags := probeParserRangeItems_ok hparse
    dsimp only [withCb] at hflags
    rw [hsome, hflags, hchk.2]
    rfl

section Accepted

variable {env : Env} {document : Json} {probe : ProbeS}
  (haccepted : (applyItems env document probeParsers probe).2 = .ok)

include haccepted

theorem applyItems_rangeFlags :
    (applyItems env document probeParsers probe).1.probeRangeFlags =
      (requestedRange probe.probeType document).getD probe.probeRangeFlags := by
  cases hvalue : document.getObjectItem Item.cmd.name with
  | none =>
      have hkept := applyItems_kept env document probeParsers probe .cmd
        fun _ => by simp [Names, hvalue]
      rw [hkept.2.2, requestedRange, hvalue]
      rfl
  | some item =>
      obtain ⟨reached, next, hbefore, htype, hparser, hafter⟩ :=
        applyItems_named (by decide) (by decide) hvalue haccepted
      rw [hafter.2.2, probeParserCmd_range hparser, htype, hbefore.2.2, requestedRange, hvalue]
      rfl

theorem applyItems_probeParam :
    (applyItems env document probeParsers probe).1.probeParam =
      ((document.getObjectItem Item.params.name).map fun item =>
        (parseParams item probe.probeParam).1).getD probe.probeParam := by
  cases hvalue : document.getObjectItem Item.params.name with
  | none =>
      exact applyItems_kept env document probeParsers probe .params fun _ => by simp [Names, hvalue]
  | some item =>
      obtain ⟨reached, next, hbefore, -, hparser, hafter⟩ :=
        applyItems_named (by decide) (by decide) hvalue haccepted
      have hparam : reached.probeParam = probe.probeParam := hbefore
      have hnext : (parseParams item reached.probeParam).1 = next.probeParam :=
        congrArg (fun outcome => outcome.1.probeParam) hparser
      rw [Option.map_some, Option.getD_some, ← hparam, hnext]
      exact hafter

end Accepted

-- The request asks for something else exactly when its parsers find it so.
theorem asksForOther_iff {env : Env} {document : Json} {probe : ProbeS}
    (haccepted : (applyItems env document probeParsers probe).2 = .ok) :
    AsksForOther document probe ↔
      (applyItems env document probeParsers probe).1.probeParam ≠ probe.probeParam ∨
        (applyItems env document probeParsers probe).1.probeRangeFlags ≠
          probe.probeRangeFlags := by
  rw [applyItems_rangeFlags haccepted, applyItems_probeParam haccepted, AsksForOther, or_comm]
  apply or_congr
  · cases document.getObjectItem Item.params.name <;> simp
  · cases requestedRange probe.probeType document <;> simp

-- What the comparison is made against: the cleared values where the request names
-- nothing.
theorem parseItems_backup (env : Env) (document : Json) (items flag : List Item) (ret : Result)
    (probe : ProbeS) (backup : Backup) (hnodup : items.Nodup)
    (haccepted : (applyItems env document items probe).2 = .ok) :
    let filled := (parseItems env document items flag ret probe backup).2.1
    (filled.probeRangeFlags =
        if .cmd ∈ items ∧ Names document .cmd then probe.probeRangeFlags
        else backup.probeRangeFlags) ∧
      (filled.snooperConfs =
        if .snoopers ∈ items ∧ Names document .snoopers then probe.snooperConfs
        else backup.snooperConfs) ∧
      filled.probeParam =
        if .params ∈ items ∧ Names document .params then probe.probeParam
        else backup.probeParam := by
  induction items generalizing flag ret probe backup with
  | nil => simp [parseItems]
  | cons item items ih =>
      obtain ⟨hfresh, hrest⟩ := List.nodup_cons.mp hnodup
      rw [applyItems] at haccepted
      cases hvalue : document.getObjectItem item.name with
      | none =>
          rw [hvalue] at haccepted
          rw [parseItems_absent env document item items flag ret probe backup hvalue]
          have habsent : ¬ Names document item := by simp [Names, hvalue]
          have hsame : ∀ other : Item, (other ∈ item :: items ∧ Names document other) ↔
              (other ∈ items ∧ Names document other) := by
            intro other
            by_cases hother : other = item
            · rw [hother]
              tauto
            · simp [hother]
          simp only [hsame]
          exact ih flag ret probe backup hrest haccepted
      | some value =>
          rw [hvalue] at haccepted
          dsimp only at haccepted
          rcases hparser : item.parser env value probe with ⟨next, result⟩
          rw [hparser] at haccepted
          cases result with
          | error message => cases haccepted
          | ok =>
              rw [(parseItems_accepted env document item items flag ret probe backup hvalue
                hparser).2]
              have hnamed : Names document item := by simp [Names, hvalue]
              have hloop := ih (flag ++ [item]) .ok next (item.backuper probe backup).2 hrest
                haccepted
              have hkept : ∀ other ≠ item, other.Kept probe next := fun other hother => by
                have := parser_kept env item other value probe hother
                rwa [hparser] at this
              dsimp only at hloop ⊢
              rw [hloop.1, hloop.2.1, hloop.2.2]
              cases item with
              | cmd =>
                  have hsnoopers := (hkept .snoopers (by simp)).1
                  have hparams : next.probeParam = probe.probeParam := hkept .params (by simp)
                  simp [hfresh, hnamed, hsnoopers, hparams, Item.backuper, probeBackupCmd]
              | snoopers =>
                  have hcmd := (hkept .cmd (by simp)).2.2
                  have hparams : next.probeParam = probe.probeParam := hkept .params (by simp)
                  simp [hfresh, hnamed, hcmd, hparams, Item.backuper, backupSnooper]
              | params =>
                  have hcmd := (hkept .cmd (by simp)).2.2
                  have hsnoopers := (hkept .snoopers (by simp)).1
                  simp [hfresh, hnamed, hcmd, hsnoopers, Item.backuper, probeBackupParams]
              | state =>
                  have hcmd := (hkept .cmd (by simp)).2.2
                  have hsnoopers := (hkept .snoopers (by simp)).1
                  have hparams : next.probeParam = probe.probeParam := hkept .params (by simp)
                  simp [hcmd, hsnoopers, hparams, Item.backuper]

-- A field against its backup: it has changed, or it is not named and had not the
-- cleared value.
theorem ne_backup_iff {α : Type*} {before after cleared : α} {named : Prop} [Decidable named]
    (hunnamed : ¬ named → after = before) :
    (after ≠ if named then before else cleared) ↔
      after ≠ before ∨ ¬ named ∧ before ≠ cleared := by
  by_cases hnamed : named
  · simp [hnamed]
  · simp [hnamed, hunnamed hnamed]

section Marks

variable {env : Env} {document : Json} {probe : ProbeS}
  (haccepted : (applyItems env document probeParsers probe).2 = .ok)

include haccepted

theorem paramsMark_iff :
    (setProbeModify (applyItems env document probeParsers probe).1
        (backupOf env document probe)).isParamsChg = true ↔
      AsksForOther document probe ∨
        ¬ Names document .cmd ∧ probe.probeRangeFlags ≠ 0 ∨
        ¬ Names document .params ∧ probe.probeParam ≠ zeroParams := by
  obtain ⟨hrange, -, hparam⟩ :=
    parseItems_backup env document probeParsers [] (.error none) probe zeroBackup (by decide)
      haccepted
  simp only [show Item.cmd ∈ probeParsers by decide, show Item.params ∈ probeParsers by decide,
    true_and] at hrange hparam
  have hcmd : ¬ Names document .cmd →
      (applyItems env document probeParsers probe).1.probeRangeFlags = probe.probeRangeFlags :=
    fun h => (applyItems_kept env document probeParsers probe .cmd fun _ => h).2.2
  have hparams : ¬ Names document .params →
      (applyItems env document probeParsers probe).1.probeParam = probe.probeParam :=
    fun h => applyItems_kept env document probeParsers probe .params fun _ => h
  rw [asksForOther_iff haccepted]
  simp only [setProbeModify, backupOf, hrange, hparam, Bool.or_eq_true, bne_iff_ne]
  rw [ne_backup_iff hcmd, ne_backup_iff hparams]
  simp only [zeroBackup]
  tauto

theorem snooperMark_iff :
    (setProbeModify (applyItems env document probeParsers probe).1
        (backupOf env document probe)).isSnooperChg = true ↔
      (applyItems env document probeParsers probe).1.snooperConfs ≠ probe.snooperConfs ∨
        ¬ Names document .snoopers ∧ probe.snooperConfs ≠ [] := by
  obtain ⟨-, hconfs, -⟩ :=
    parseItems_backup env document probeParsers [] (.error none) probe zeroBackup (by decide)
      haccepted
  simp only [show Item.snoopers ∈ probeParsers by decide, true_and] at hconfs
  have hsnoopers : ¬ Names document .snoopers →
      (applyItems env document probeParsers probe).1.snooperConfs = probe.snooperConfs :=
    fun h => (applyItems_kept env document probeParsers probe .snoopers fun _ => h).1
  simp only [setProbeModify, snoopersModified_iff, backupOf, hconfs]
  exact ne_backup_iff hsnoopers

end Marks

-- The marks that are set without a change are exactly those of values that are
-- not named and have not the cleared value.
theorem detects_iff {document : Json} {before after : ProbeS}
    (hparams : after.isParamsChg = true ↔ AsksForOther document before ∨
      ¬ Names document .cmd ∧ before.probeRangeFlags ≠ 0 ∨
      ¬ Names document .params ∧ before.probeParam ≠ zeroParams)
    (hsnoopers : after.isSnooperChg = true ↔ after.snooperConfs ≠ before.snooperConfs ∨
      ¬ Names document .snoopers ∧ before.snooperConfs ≠ [])
    (hasks : AsksForOther document before ↔ after.probeParam ≠ before.probeParam ∨
      after.probeRangeFlags ≠ before.probeRangeFlags)
    (hkept : ∀ item, ¬ Names document item → item.Kept before after) :
    Detects document before after ↔ Comparable document before := by
  have hconfs : ¬ Names document .snoopers → after.snooperConfs = before.snooperConfs :=
    fun h => (hkept .snoopers h).1
  have hnothing : ¬ Names document .cmd → ¬ Names document .params →
      ¬ AsksForOther document before := by
    intro hcmd hparams hother
    rcases hasks.mp hother with hparam | hrange
    · exact hparam (hkept .params hparams)
    · exact hrange (hkept .cmd hcmd).2.2
  constructor
  · intro hdetects
    have hparamsMark : after.isParamsChg = true ↔ AsksForOther document before :=
      hdetects.params.trans hasks.symm
    refine ⟨?_, ?_, ?_⟩
    · rw [hparams] at hparamsMark
      grind
    · by_contra hleft
      have hleft : ¬ Names document .cmd ∧ ¬ Names document .params ∧
          before.isParamsChg = true := by simpa [not_or] using hleft
      have hsame := hdetects.omittedParams hleft.1 hleft.2.1
      exact hnothing hleft.1 hleft.2.1 (hparamsMark.mp (hsame.trans hleft.2.2))
    · by_cases hnames : Names document .snoopers
      · exact .inl hnames
      · have hclear : ¬ after.isSnooperChg = true :=
          fun hset => hdetects.snoopers.mp hset (hconfs hnames)
        refine .inr ⟨?_, ?_⟩
        · by_contra hsome
          exact hclear (hsnoopers.mpr (.inr ⟨hnames, hsome⟩))
        · rw [← hdetects.omittedSnoopers hnames]
          exact Bool.eq_false_iff.mpr hclear
  · rintro ⟨hcleared, hparamsMark, hsnoopersMark⟩
    have hmark : after.isParamsChg = true ↔ AsksForOther document before := by
      rw [hparams]
      grind
    refine ⟨hmark.trans hasks, ?_, hkept, ?_, ?_⟩
    · rw [hsnoopers]
      grind
    · intro hcmd hparams
      have hbefore : before.isParamsChg = false :=
        (hparamsMark.resolve_left hcmd).resolve_left hparams
      rw [hbefore]
      exact Bool.eq_false_iff.mpr fun hset => hnothing hcmd hparams (hmark.mp hset)
    · intro hnames
      obtain ⟨hempty, hbefore⟩ := hsnoopersMark.resolve_left hnames
      rw [hbefore]
      apply Bool.eq_false_iff.mpr
      intro hset
      rcases hsnoopers.mp hset with hchanged | ⟨-, hsome⟩
      · exact hchanged (hconfs hnames)
      · exact hsome hempty

-- For every accepted request: the marks are right exactly when there is nothing
-- that the request does not name, apart from values that are clear anyway.
theorem changes_detected_iff {env : Env} {probes : Probes} {probeName : Text} {document : Json}
    {type : ProbeType} {probe : ProbeS}
    (haddressed : addressed env probes probeName type = some probe)
    (haccepts : Accepts env (some document) probe) :
    Detects document probe
        (probeOf (parseProbeJson env probes probeName (some document)).1 type) ↔
      Comparable document probe := by
  obtain ⟨_, hdocument, -, -, haccepted⟩ := id haccepts
  obtain rfl := Option.some.inj hdocument
  rw [parseProbeJson_of_addressed env probes probeName _ type probe haddressed,
    configureProbe_of_accepts haccepts, finishRequest_fst]
  simp only [probeOf, setProbe, if_true, Option.getD_some]
  apply detects_iff (paramsMark_iff haccepted) (snooperMark_iff haccepted)
    (asksForOther_iff haccepted)
  intro item hitem
  have hitems := applyItems_kept env document probeParsers probe item fun _ => hitem
  cases item <;> exact hitems

def afterRequest (before : ProbeS) (document : Json) : ProbeS :=
  probeOf (parseProbeJson refusingEnv (onlyTcp before) "tcp".toList (some document)).1 .tcp

def longReportPeriod : Json :=
  .object [("params".toList, .object [("report_period".toList, .number 10)])]

def stopRequest : Json :=
  .object [("state".toList, .string "stopped".toList)]

def snoopingProbe : ProbeS :=
  { newProbe .tcp with snooperConfs := [.procId 1] }

theorem changes_detected_report_period :
    Detects longReportPeriod (newProbe .tcp) (afterRequest (newProbe .tcp) longReportPeriod) := by
  have haddressed : addressed refusingEnv (onlyTcp (newProbe .tcp)) "tcp".toList .tcp =
      some (newProbe .tcp) := rfl
  have haccepts : Accepts refusingEnv (some longReportPeriod) (newProbe .tcp) :=
    ⟨_, rfl, rfl, by decide, by decide⟩
  apply (changes_detected_iff haddressed haccepts).mpr
  exact ⟨.inr ⟨.inr rfl, .inl (by decide)⟩, .inr (.inl (by decide)), .inr ⟨rfl, rfl⟩⟩

-- The parameters a probe starts with are not the cleared ones, so that a request
-- about its run state marks them as changed. One about its parameters marks the
-- snoopers.
theorem unnamed_item_marked_as_changed :
    ((afterRequest (newProbe .tcp) stopRequest).isParamsChg = true ∧
      (afterRequest (newProbe .tcp) stopRequest).probeParam = (newProbe .tcp).probeParam ∧
      (afterRequest (newProbe .tcp) stopRequest).probeRangeFlags =
        (newProbe .tcp).probeRangeFlags ∧
      (newProbe .tcp).isParamsChg = false) ∧
    (afterRequest snoopingProbe longReportPeriod).isSnooperChg = true ∧
      (afterRequest snoopingProbe longReportPeriod).snooperConfs = snoopingProbe.snooperConfs ∧
      snoopingProbe.isSnooperChg = false := by
  refine ⟨⟨?_, rfl, ?_, ?_⟩, ?_, ?_, ?_⟩ <;> decide

end Gopher.Probe.Config
