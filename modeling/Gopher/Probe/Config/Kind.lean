import Gopher.Lib.Run
import Gopher.Probe.Config.Theorems

namespace Gopher.Probe.Config

open Gopher.Lib

-- What decides how a probe is started.
structure Kind where
  isExtendProbe : Bool
  cb : Option ProbeCb
  probeEntry : Option Text
  deriving DecidableEq

def ProbeS.kind (probe : ProbeS) : Kind :=
  ⟨probe.isExtendProbe, probe.cb, probe.probeEntry⟩

-- A cmd item that was taken up: the bin it sets and what the system answered.
structure Command where
  env : Env
  bin : Option Text

namespace Command

def isExtend (command : Command) : Bool :=
  isExtendProbe command.env command.bin

def entry (command : Command) : Text :=
  truncated (MAX_PROBE_NAME_LEN - 1)
    ("probe_main_".toList ++ command.bin.getD "(null)".toList)

-- The kind that corresponds to the bin, with nothing from an earlier command.
def kind (command : Command) : Kind :=
  if command.isExtend then ⟨true, some .extend, none⟩
  else ⟨false, some .native, some command.entry⟩

-- What the cmd parser makes of the kind that was there before.
def apply (before : Kind) (command : Command) : Kind :=
  let isExtendProbe := command.isExtend || before.isExtendProbe
  ⟨isExtendProbe, some (if isExtendProbe then .extend else .native),
    if command.isExtend then before.probeEntry
    else some (before.probeEntry.getD command.entry)⟩

end Command

-- The bin that an accepted command stores.
def commandBin (env : Env) (bin : Text) : Option Text :=
  if bin.head? = some '$' then (baseName bin).bind env.getInstallDir else some bin

-- The command that a request has carried out, if it was accepted and has one.
def commandOf (env : Env) (json : Option Json) (probe : ProbeS) : Option Command :=
  json.bind fun document =>
    if env.backupMalloc ∧ (applyItems env document probeParsers probe).2 = .ok then
      (document.getObjectItem Item.cmd.name).map fun item =>
        ⟨env, commandBin env (cmdBin item probe.probeType)⟩
    else none

-- One request to the probe. Requests without a command and refused ones may come
-- in between.
def Handles (before : ProbeS) (command : Option Command) (after : ProbeS) : Prop :=
  ∃ env json, command = commandOf env json before ∧ after = (configureProbe env json before).1

theorem setProbeEntry_ok {env : Env} {probe after : ProbeS}
    (hset : setProbeEntry env probe = (after, .ok)) :
    after = { probe with
      probeEntry := some (probe.probeEntry.getD (Command.entry ⟨env, probe.bin⟩)) } := by
  unfold setProbeEntry at hset
  cases hentry : probe.probeEntry with
  | some entry =>
      rw [hentry, if_pos (Option.some_ne_none entry)] at hset
      rw [← (Prod.mk.inj hset).1, Option.getD_some, ← hentry]
  | none =>
      rw [hentry, if_neg (not_not_intro rfl)] at hset
      dsimp only at hset
      split at hset
      · cases hset
      · split at hset
        · exact (Prod.mk.inj hset).1.symm
        · cases hset

theorem setProbeBin_ok {env : Env} {bin : Text} {probe after : ProbeS}
    (hset : setProbeBin env bin probe = (after, .ok)) :
    after = { probe with
      bin := commandBin env bin
      isExtendProbe := isExtendProbe env (commandBin env bin) || probe.isExtendProbe
      probeEntry :=
        if isExtendProbe env (commandBin env bin) then probe.probeEntry
        else some (probe.probeEntry.getD (Command.entry ⟨env, commandBin env bin⟩)) } := by
  have hname : ∀ name : Option Text,
      (if isExtendProbe env name then ({ probe with bin := name, isExtendProbe := true }, Result.ok)
        else setProbeEntry env { probe with bin := name }) = (after, .ok) →
      after = { probe with
        bin := name
        isExtendProbe := isExtendProbe env name || probe.isExtendProbe
        probeEntry :=
          if isExtendProbe env name then probe.probeEntry
          else some (probe.probeEntry.getD (Command.entry ⟨env, name⟩)) } := by
    intro name hset
    cases hextend : isExtendProbe env name with
    | true =>
        rw [hextend, if_pos rfl] at hset
        exact (Prod.mk.inj hset).1.symm
    | false =>
        rw [hextend, if_neg Bool.false_ne_true] at hset
        exact setProbeEntry_ok hset
  unfold setProbeBin at hset
  unfold commandBin
  by_cases hdollar : bin.head? = some '$'
  · rw [if_pos hdollar] at hset ⊢
    cases hbase : baseName bin with
    | none =>
        rw [hbase] at hset
        cases hset
    | some name =>
        rw [hbase] at hset
        exact hname _ hset
  · rw [if_neg hdollar] at hset ⊢
    exact hname _ hset

theorem probeParserRangeItems_kind (objects : List Json) (probe : ProbeS) :
    (probeParserRangeItems objects probe).1.kind = probe.kind ∧
      (probeParserRangeItems objects probe).1.bin = probe.bin := by
  induction objects generalizing probe with
  | nil => exact ⟨rfl, rfl⟩
  | cons object objects ih =>
      rw [probeParserRangeItems]
      cases object.valuestring with
      | none => exact ⟨rfl, rfl⟩
      | some range => exact ih _

-- The settings of a command behind its bin and its check.
def withCb (probe : ProbeS) : ProbeS :=
  { probe with cb := some (if probe.isExtendProbe then .extend else .native) }

-- What an accepted command went through.
theorem probeParserCmd_ok {env : Env} {item : Json} {probe after : ProbeS}
    (hcmd : probeParserCmd env item probe = (after, .ok)) :
    ∃ named, setProbeBin env (cmdBin item probe.probeType) probe = (named, .ok) ∧
      ((item.getObjectItem "probe".toList = none ∧ after = withCb (cmdChkCmd item named)) ∨
        ∃ range, item.getObjectItem "probe".toList = some range ∧
          probeParserRange range (withCb (cmdChkCmd item named)) = (after, .ok)) := by
  unfold probeParserCmd at hcmd
  rcases hset : setProbeBin env (cmdBin item probe.probeType) probe with ⟨named, result⟩
  rw [hset] at hcmd
  cases result with
  | error message => cases hcmd
  | ok =>
      refine ⟨named, rfl, ?_⟩
      dsimp only at hcmd
      cases hrange : item.getObjectItem "probe".toList with
      | none =>
          rw [hrange] at hcmd
          exact .inl ⟨rfl, (Prod.mk.inj hcmd).1.symm⟩
      | some range =>
          rw [hrange] at hcmd
          exact .inr ⟨range, rfl, hcmd⟩

-- One accepted command: the bin is the new one, the kind is not made anew.
theorem probeParserCmd_kind {env : Env} {item : Json} {probe after : ProbeS}
    (hcmd : probeParserCmd env item probe = (after, .ok)) :
    let command : Command := ⟨env, commandBin env (cmdBin item probe.probeType)⟩
    after.bin = command.bin ∧ after.kind = command.apply probe.kind := by
  intro command
  obtain ⟨named, hset, hrange⟩ := probeParserCmd_ok hcmd
  have hnamed := setProbeBin_ok hset
  have hchk : (cmdChkCmd item named).bin = named.bin ∧
      (cmdChkCmd item named).isExtendProbe = named.isExtendProbe ∧
      (cmdChkCmd item named).probeEntry = named.probeEntry := by
    unfold cmdChkCmd
    split <;> exact ⟨rfl, rfl, rfl⟩
  have hafter : after.kind = ⟨named.isExtendProbe,
      some (if named.isExtendProbe then .extend else .native), named.probeEntry⟩ ∧
      after.bin = named.bin := by
    obtain ⟨-, rfl⟩ | ⟨range, -, hparse⟩ := hrange
    · simp [ProbeS.kind, withCb, hchk]
    · obtain ⟨hkind, hbin⟩ := probeParserRangeItems_kind range.children
        { withCb (cmdChkCmd item named) with probeRangeFlags := 0 }
      rw [probeParserRange] at hparse
      rw [hparse] at hkind hbin
      simp only at hkind hbin
      rw [hkind, hbin]
      simp [ProbeS.kind, withCb, hchk]
  refine ⟨hafter.2.trans (by rw [hnamed]), ?_⟩
  rw [hafter.1, hnamed]
  rfl

-- The kind with the bin.
def ProbeS.command (probe : ProbeS) : Kind × Option Text :=
  (probe.kind, probe.bin)

theorem command_of_settings {before after : ProbeS} (h : after.settings = before.settings) :
    after.command = before.command := by
  have hcommand := congrArg ProbeS.command h
  exact hcommand

-- The other parsers have nothing to do with the kind.
theorem parser_command (env : Env) (item : Item) (value : Json) (probe : ProbeS)
    (hcmd : item ≠ .cmd) : (item.parser env value probe).1.command = probe.command := by
  cases item with
  | cmd => exact absurd rfl hcmd
  | snoopers =>
      simp only [Item.parser, parseSnooper]
      split <;> rfl
  | params => rfl
  | state => exact command_of_settings (probeParserState_settings env value probe)

-- One request: the bin and the kind are those before, or what its command makes
-- of them.
theorem handles_command {before after : ProbeS} {command : Option Command}
    (hhandles : Handles before command after) :
    after.command = command.elim before.command fun command =>
      (command.apply before.kind, command.bin) := by
  obtain ⟨env, json, rfl, rfl⟩ := hhandles
  by_cases haccepts : Accepts env json before
  case neg =>
    obtain ⟨hsettings, -⟩ := configureProbe_refused env json before haccepts
    have hnone : commandOf env json before = none := by
      cases json with
      | none => rfl
      | some document =>
          simp only [commandOf, Option.bind_some]
          by_cases htaken : env.backupMalloc ∧
              (applyItems env document probeParsers before).2 = .ok
          · rw [if_pos htaken, Option.map_eq_none_iff, Option.eq_none_iff_forall_ne_some]
            intro item hitem
            have hhas : hasItem document probeParsers = true := by
              simp [hasItem, probeParsers, hitem]
            exact haccepts ⟨document, rfl, htaken.1, hhas, htaken.2⟩
          · exact if_neg htaken
    rw [hnone]
    exact command_of_settings hsettings
  case pos =>
    obtain ⟨document, rfl, hmalloc, -, htransaction⟩ := id haccepts
    rw [configureProbe_of_accepts haccepts, finishRequest_fst]
    have hcommand : commandOf env (some document) before =
        (document.getObjectItem Item.cmd.name).map fun item =>
          ⟨env, commandBin env (cmdBin item before.probeType)⟩ := if_pos ⟨hmalloc, htransaction⟩
    rw [hcommand]
    have hrest : ∀ probe : ProbeS,
        (applyItems env document [.snoopers, .params, .state] probe).1.command =
          probe.command := by
      intro probe
      apply applyItems_frame
      intro item hitem value probe
      exact parser_command env item value probe (by rintro rfl; simp at hitem)
    change (applyItems env document (.cmd :: [.snoopers, .params, .state]) before).1.command = _
    change (applyItems env document (.cmd :: [.snoopers, .params, .state]) before).2 = _
      at htransaction
    rw [applyItems] at htransaction ⊢
    cases hitem : document.getObjectItem Item.cmd.name with
    | none => exact hrest before
    | some item =>
        rw [hitem] at htransaction
        dsimp only at htransaction ⊢
        rcases hparser : Item.cmd.parser env item before with ⟨next, result⟩
        rw [hparser] at htransaction
        cases result with
        | error message => cases htransaction
        | ok =>
            obtain ⟨hbin, hkind⟩ := probeParserCmd_kind hparser
            exact (hrest next).trans (Prod.ext hkind hbin)

-- The kind after a sequence of commands: extend once one of them was, with the
-- entry of the first native one.
def settled (commands : List Command) : Kind :=
  let isExtendProbe := commands.any Command.isExtend
  ⟨isExtendProbe,
    if commands = [] then none else some (if isExtendProbe then .extend else .native),
    (commands.find? fun command => !command.isExtend).map Command.entry⟩

theorem settled_concat (commands : List Command) (command : Command) :
    settled (commands ++ [command]) = command.apply (settled commands) := by
  unfold settled Command.apply
  simp only [List.any_append, List.any_cons, List.any_nil, List.find?_append,
    List.append_eq_nil_iff, List.cons_ne_self, and_false, if_false, Bool.or_comm]
  cases hextend : command.isExtend <;>
    cases commands.find? fun command => !command.isExtend <;> simp [hextend]

-- The run: whatever was requested, the bin is that of the latest command and the
-- kind that of the whole sequence.
theorem run_command {type : ProbeType} {probe : ProbeS} {commands : List (Option Command)}
    (hrun : Run Handles (newProbe type) commands probe) :
    probe.command =
      (settled commands.reduceOption, commands.reduceOption.getLast?.bind Command.bin) := by
  induction commands using List.reverseRecOn generalizing probe with
  | nil =>
      cases hrun
      rfl
  | append_singleton commands command ih =>
      obtain ⟨middle, hbefore, hlast⟩ := hrun.split
      have hcommand := ih hbefore
      cases hlast with
      | cons hhandles hdone =>
          cases hdone
          have hlatest := handles_command hhandles
          rw [List.reduceOption_append]
          cases command with
          | none =>
              simp only [List.reduceOption_cons_of_none, List.reduceOption_nil, List.append_nil]
              exact hlatest.trans hcommand
          | some command =>
              have hkind : middle.kind = settled commands.reduceOption := congrArg Prod.fst hcommand
              rw [List.reduceOption_cons_of_some, List.reduceOption_nil, settled_concat,
                List.getLast?_concat, ← hkind]
              exact hlatest

-- The latest command decides exactly when there is nothing to be left over: all
-- commands so far are for extend binaries, or all are native and the first one
-- asked for the entry of the latest.
theorem settled_concat_eq_kind_iff (commands : List Command) (latest : Command) :
    settled (commands ++ [latest]) = latest.kind ↔
      (∀ command ∈ commands, command.isExtend = latest.isExtend) ∧
        (latest.isExtend = false → ∀ first ∈ commands.head?, first.entry = latest.entry) := by
  cases hlatest : latest.isExtend with
  | true =>
      have hnone : (commands.find? fun command => !command.isExtend) = none ↔
          ∀ command ∈ commands, command.isExtend = true := by
        simp [List.find?_eq_none]
      simp [settled, Command.kind, hlatest, List.find?_append, hnone]
  | false =>
      cases commands with
      | nil => simp [settled, Command.kind, hlatest]
      | cons first commands =>
          cases hfirst : first.isExtend with
          | true => simp [settled, Command.kind, hlatest, hfirst]
          | false => simp [settled, Command.kind, hlatest, hfirst]

-- After any sequence of requests to a new probe the bin is that of the latest
-- command. The kind is that of an earlier one as soon as the sequence has switched
-- between extend binaries and native libraries, or to another library.
theorem kind_follows_latest_command_iff {type : ProbeType} {probe : ProbeS}
    {commands : List (Option Command)} {earlier : List Command} {latest : Command}
    (hrun : Run Handles (newProbe type) commands probe)
    (hcommands : commands.reduceOption = earlier ++ [latest]) :
    probe.bin = latest.bin ∧
      (probe.kind = latest.kind ↔
        (∀ command ∈ earlier, command.isExtend = latest.isExtend) ∧
          (latest.isExtend = false → ∀ first ∈ earlier.head?, first.entry = latest.entry)) := by
  have hcommand := run_command hrun
  rw [hcommands, List.getLast?_concat] at hcommand
  have hkind : probe.kind = settled (earlier ++ [latest]) := congrArg Prod.fst hcommand
  refine ⟨congrArg Prod.snd hcommand, ?_⟩
  rw [hkind]
  exact settled_concat_eq_kind_iff earlier latest

-- Native libraries are found, and nothing else is.
def loadingEnv : Env :=
  { refusingEnv with dlopen := true, dlsym := fun _ => true }

def cmdRequest (bin : Text) : Option Json :=
  request "cmd".toList (.object [("bin".toList, .string bin)])

def afterBins (type : ProbeType) (bins : List Text) : ProbeS :=
  bins.foldl (fun probe bin => (configureProbe loadingEnv (cmdRequest bin) probe).1)
    (newProbe type)

def loading (bin : Text) : Command :=
  ⟨loadingEnv, some bin⟩

theorem run_afterBins_two {type : ProbeType} {first second : Text}
    (hfirst : commandOf loadingEnv (cmdRequest first) (newProbe type) = some (loading first))
    (hsecond : commandOf loadingEnv (cmdRequest second) (afterBins type [first]) =
      some (loading second)) :
    Run Handles (newProbe type) [some (loading first), some (loading second)]
      (afterBins type [first, second]) :=
  .cons ⟨_, _, hfirst.symm, rfl⟩ (.cons ⟨_, _, hsecond.symm, rfl⟩ (.nil _))

theorem kind_follows_latest_command_native :
    (afterBins .baseinfo ["system_infos".toList, "system_infos".toList]).kind =
      (loading "system_infos".toList).kind := by
  have hrun : Run Handles (newProbe .baseinfo)
      [some (loading "system_infos".toList), some (loading "system_infos".toList)]
      (afterBins .baseinfo ["system_infos".toList, "system_infos".toList]) :=
    run_afterBins_two (by rfl) (by rfl)
  have hcommands : [some (loading "system_infos".toList),
      some (loading "system_infos".toList)].reduceOption =
      [loading "system_infos".toList] ++ [loading "system_infos".toList] := rfl
  apply (kind_follows_latest_command_iff hrun hcommands).2.mpr
  simp

-- A native library after an extend binary is still run as an extend probe, and a
-- second library gets the entry of the first.
theorem kind_left_from_earlier_command :
    (Run Handles (newProbe .baseinfo)
        [some (loading "/usr/bin/tool".toList), some (loading "system_infos".toList)]
        (afterBins .baseinfo ["/usr/bin/tool".toList, "system_infos".toList]) ∧
      (afterBins .baseinfo ["/usr/bin/tool".toList, "system_infos".toList]).kind =
        ⟨true, some .extend, some "probe_main_system_infos".toList⟩ ∧
      (loading "system_infos".toList).kind =
        ⟨false, some .native, some "probe_main_system_infos".toList⟩) ∧
    Run Handles (newProbe .baseinfo)
        [some (loading "system_infos".toList), some (loading "virtualized_infos".toList)]
        (afterBins .baseinfo ["system_infos".toList, "virtualized_infos".toList]) ∧
      (afterBins .baseinfo ["system_infos".toList, "virtualized_infos".toList]).kind =
        ⟨false, some .native, some "probe_main_system_infos".toList⟩ ∧
      (loading "virtualized_infos".toList).kind =
        ⟨false, some .native, some "probe_main_virtualized_infos".toList⟩ := by
  refine ⟨⟨run_afterBins_two (by rfl) (by rfl), ?_, ?_⟩,
    run_afterBins_two (by rfl) (by rfl), ?_, ?_⟩
  · decide
  · decide
  · decide
  · decide

end Gopher.Probe.Config
