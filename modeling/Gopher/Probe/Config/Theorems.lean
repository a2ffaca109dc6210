import Gopher.Probe.Config.Rollback

namespace Gopher.Probe.Config

open Gopher.Lib

-- The probe that a request goes to, registered before or new.
def addressed (env : Env) (probes : Probes) (probeName : Text) (type : ProbeType) :
    Option ProbeS :=
  if getProbeTypeByName probeName = some type then getProbeByName env probes type else none

-- A probe that is not registered counts as a new one.
def probeOf (probes : Probes) (type : ProbeType) : ProbeS :=
  (probes type).getD (newProbe type)

-- The parsers take up every item of the request, and there is one. What is then
-- left to fail is the message to the probe.
def Accepts (env : Env) (json : Option Json) (probe : ProbeS) : Prop :=
  ∃ document, json = some document ∧ env.backupMalloc = true ∧
    hasItem document probeParsers = true ∧ (applyItems env document probeParsers probe).2 = .ok

-- The user has tried to start a probe that is not running, or to stop one that is.
def attempted (json : Json) (flags : StatusFlags) : StatusFlags :=
  match (json.getObjectItem Item.state.name).bind Json.valuestring with
  | none => flags
  | some state =>
      if sameIgnoringCase "running".toList state then
        if flags.running then flags else { flags with started := true, stopping := false }
      else if sameIgnoringCase "stopped".toList state then
        if flags.running then { flags with stopping := true, started := false } else flags
      else flags

-- The item comes after the three others and is looked at when they are accepted.
def flagsAfter (env : Env) (json : Option Json) (probe : ProbeS) : StatusFlags :=
  match json with
  | none => probe.flags
  | some json =>
      if env.backupMalloc ∧ (applyItems env json [.cmd, .snoopers, .params] probe).2 = .ok then
        attempted json probe.flags
      else probe.flags

-- A request that fails has changed nothing.
def Atomic (env : Env) (probes : Probes) (probeName : Text) (json : Option Json) : Prop :=
  (parseProbeJson env probes probeName json).2 ≠ .ok → ∀ type,
    ((parseProbeJson env probes probeName json).1 type).map
        (fun probe => (probe.settings, probe.flags)) =
      (probes type).map fun probe => (probe.settings, probe.flags)

theorem startProbe_refused (env : Env) (probe : ProbeS) {message : Option Text}
    (hrefused : (startProbe env probe).2 = .error message) :
    probe.flags.running = false ∧
      (startProbe env probe).1.flags = { probe.flags with started := true, stopping := false } := by
  unfold startProbe at hrefused ⊢
  split at hrefused
  case isTrue => cases hrefused
  case isFalse hrunning =>
    refine ⟨by simpa using hrunning, ?_⟩
    rw [if_neg hrunning]
    dsimp only
    split <;> rfl

theorem stopProbe_refused (env : Env) (probe : ProbeS) {message : Option Text}
    (hrefused : (stopProbe env probe).2 = .error message) :
    probe.flags.running = true ∧
      (stopProbe env probe).1.flags = { probe.flags with stopping := true, started := false } := by
  by_cases hrunning : probe.flags.running
  · refine ⟨hrunning, ?_⟩
    by_cases hextend : probe.isExtendProbe
    · by_cases hpid : probe.pid < 0
      · simp [stopProbe, hrunning, hextend, hpid]
      · simp [stopProbe, hrunning, hextend, hpid] at hrefused
    · by_cases hcancel : env.pthreadCancel
      · simp [stopProbe, hrunning, hextend, hcancel] at hrefused
      · simp [stopProbe, hrunning, hextend, hcancel]
  · simp [stopProbe, hrunning] at hrefused

-- The state parser refuses with the attempt recorded in the flags.
theorem probeParserState_refused (env : Env) (json item : Json) (probe : ProbeS)
    {message : Option Text} (hitem : json.getObjectItem Item.state.name = some item)
    (hrefused : (probeParserState env item probe).2 = .error message) :
    (probeParserState env item probe).1.flags = attempted json probe.flags := by
  unfold attempted
  rw [hitem, Option.bind_some]
  unfold probeParserState at hrefused ⊢
  cases hvalue : item.valuestring with
  | none => rfl
  | some state =>
      rw [hvalue] at hrefused
      dsimp only at hrefused ⊢
      by_cases hstart : sameIgnoringCase "running".toList state
      · rw [if_pos hstart] at hrefused ⊢
        obtain ⟨hrunning, hflags⟩ := startProbe_refused env probe hrefused
        rw [if_pos hstart, if_neg (by simp [hrunning])]
        exact hflags
      · rw [if_neg hstart] at hrefused ⊢
        rw [if_neg hstart]
        by_cases hstop : sameIgnoringCase "stopped".toList state
        · rw [if_pos hstop] at hrefused ⊢
          obtain ⟨hrunning, hflags⟩ := stopProbe_refused env probe hrefused
          rw [if_pos hstop, if_pos hrunning]
          exact hflags
        · rw [if_neg hstop, if_neg hstop]

theorem applyItems_singleton (env : Env) (json : Json) (item : Item) (probe : ProbeS) :
    applyItems env json [item] probe =
      match json.getObjectItem item.name with
      | none => (probe, .ok)
      | some value => item.parser env value probe := by
  rw [applyItems]
  cases json.getObjectItem item.name with
  | none => rfl
  | some value =>
      dsimp only
      rcases item.parser env value probe with ⟨next, result⟩
      cases result <;> rfl

theorem parser_flags (env : Env) (item : Item) (value : Json) (probe : ProbeS)
    (hstate : item ≠ .state) : (item.parser env value probe).1.flags = probe.flags := by
  cases item with
  | cmd =>
      obtain ⟨written, h⟩ := probeParserCmd_writes env value probe
      exact (congrArg ProbeS.flags h).trans rfl
  | snoopers =>
      simp only [Item.parser, parseSnooper]
      split <;> rfl
  | params => rfl
  | state => exact absurd rfl hstate

theorem applyItems_flags (env : Env) (json : Json) (items : List Item) (probe : ProbeS)
    (hstate : Item.state ∉ items) : (applyItems env json items probe).1.flags = probe.flags := by
  apply applyItems_frame
  intro item hitem value probe
  exact parser_flags env item value probe fun h => hstate (h ▸ hitem)

-- A refused request as a transaction: the flags record an attempt when the
-- refusal is that of the state parser, the last one.
theorem applyItems_refused_flags (env : Env) (json : Json) (probe : ProbeS)
    {message : Option Text}
    (hrefused : (applyItems env json probeParsers probe).2 = .error message) :
    (applyItems env json probeParsers probe).1.flags =
      if (applyItems env json [.cmd, .snoopers, .params] probe).2 = .ok then
        attempted json probe.flags
      else probe.flags := by
  have hflags := applyItems_flags env json [.cmd, .snoopers, .params] probe (by decide)
  have happend := applyItems_append env json [.cmd, .snoopers, .params] [.state] probe
  change applyItems env json probeParsers probe = _ at happend
  rw [happend] at hrefused ⊢
  rcases hfirst : applyItems env json [.cmd, .snoopers, .params] probe with ⟨next, result⟩
  rw [hfirst] at hflags hrefused
  cases result with
  | error message' =>
      rw [if_neg (by simp)]
      exact hflags
  | ok =>
      rw [if_pos rfl]
      dsimp only at hflags hrefused ⊢
      rw [applyItems_singleton] at hrefused ⊢
      cases hitem : json.getObjectItem Item.state.name with
      | none =>
          rw [hitem] at hrefused
          cases hrefused
      | some value =>
          rw [hitem] at hrefused
          rw [← hflags]
          exact probeParserState_refused env json value next hitem hrefused

theorem attempted_of_not_hasItem (json : Json) (flags : StatusFlags)
    (hnone : hasItem json probeParsers = false) : attempted json flags = flags := by
  have hstate : json.getObjectItem Item.state.name = none := by
    have hitem := List.any_eq_false.mp hnone .state (by decide)
    simpa using hitem
  rw [attempted, hstate]
  rfl

theorem configureProbe_of_error (env : Env) (json : Json) (probe : ProbeS)
    {message : Option Text} (hmalloc : env.backupMalloc = true)
    (herror : (parseItems env json probeParsers [] (.error none) probe zeroBackup).2.2 =
      .error message) :
    (configureProbe env (some json) probe).1 =
      (parseItems env json probeParsers [] (.error none) probe zeroBackup).1 := by
  rcases hloop : parseItems env json probeParsers [] (.error none) probe zeroBackup with
    ⟨next, backup, result⟩
  rw [hloop] at herror
  dsimp only at herror
  subst herror
  simp [configureProbe, hmalloc, hloop]

-- The request is refused before the end of the loop or has no item at all: the
-- settings are those before, the flags tell of the attempt.
theorem configureProbe_refused (env : Env) (json : Option Json) (probe : ProbeS)
    (hrefused : ¬ Accepts env json probe) :
    (configureProbe env json probe).1.settings = probe.settings ∧
      (configureProbe env json probe).1.flags = flagsAfter env json probe := by
  cases json with
  | none => exact ⟨rfl, rfl⟩
  | some json =>
      by_cases hmalloc : env.backupMalloc
      case neg => simp [configureProbe, flagsAfter, hmalloc]
      case pos =>
        obtain ⟨hresult, hflags, hprobe⟩ :=
          parseItems_refines env json probeParsers [] (.error none) probe zeroBackup
        simp only [flagsAfter, hmalloc, true_and]
        by_cases hitem : hasItem json probeParsers
        · rw [if_pos hitem] at hresult
          cases htransaction : (applyItems env json probeParsers probe).2 with
          | ok => exact absurd ⟨json, rfl, hmalloc, hitem, htransaction⟩ hrefused
          | error message =>
              rw [configureProbe_of_error env json probe hmalloc (hresult.trans htransaction),
                hflags]
              exact ⟨parseItems_restores env json probeParsers [] _ probe zeroBackup message
                (by simp) (by decide) htransaction, applyItems_refused_flags env json probe
                htransaction⟩
        · have hnone : hasItem json probeParsers = false := by simpa using hitem
          rw [if_neg hitem] at hresult
          rw [applyItems_of_not_hasItem env json probeParsers probe hnone] at hprobe
          rw [configureProbe_of_error env json probe hmalloc hresult, hprobe rfl,
            attempted_of_not_hasItem json _ hnone, ite_self]
          exact ⟨rfl, rfl⟩

theorem finishRequest_fails (env : Env) (probe : ProbeS) (backup : Backup)
    (hfails : (finishRequest env probe backup).2 ≠ .ok) :
    ∃ type message, env.sendIpcMsg type message = false := by
  unfold finishRequest at hfails
  dsimp only at hfails
  split at hfails
  · split at hfails
    · exact absurd rfl hfails
    case isFalse hsend =>
      rw [sendSnooperObj, Bool.or_eq_true, not_or] at hsend
      exact ⟨_, _, Bool.eq_false_iff.mpr hsend.2⟩
  · exact absurd rfl hfails

theorem finishRequest_fst (env : Env) (probe : ProbeS) (backup : Backup) :
    (finishRequest env probe backup).1 = setProbeModify probe backup := by
  unfold finishRequest
  dsimp only
  split
  · split <;> rfl
  · rfl

-- The backup that the loop has filled when it ends.
def backupOf (env : Env) (document : Json) (probe : ProbeS) : Backup :=
  (parseItems env document probeParsers [] (.error none) probe zeroBackup).2.1

theorem configureProbe_of_accepts {env : Env} {document : Json} {probe : ProbeS}
    (haccepts : Accepts env (some document) probe) :
    configureProbe env (some document) probe =
      finishRequest env (applyItems env document probeParsers probe).1
        (backupOf env document probe) := by
  obtain ⟨document', hdocument, hmalloc, hitem, htransaction⟩ := haccepts
  obtain rfl := Option.some.inj hdocument
  obtain ⟨hresult, -, hprobe⟩ :=
    parseItems_refines env document probeParsers [] (.error none) probe zeroBackup
  rw [if_pos hitem, htransaction] at hresult
  rw [← hprobe htransaction, backupOf]
  rcases hloop : parseItems env document probeParsers [] (.error none) probe zeroBackup with
    ⟨next, backup, result⟩
  rw [hloop] at hresult
  dsimp only at hresult
  subst hresult
  simp [configureProbe, hmalloc, hloop]

-- Once the parsers have accepted the request, only the message can fail.
theorem configureProbe_fails (env : Env) (json : Option Json) (probe : ProbeS)
    (haccepts : Accepts env json probe) (hfails : (configureProbe env json probe).2 ≠ .ok) :
    ∃ type message, env.sendIpcMsg type message = false := by
  obtain ⟨document, rfl, -, -, -⟩ := id haccepts
  rw [configureProbe_of_accepts haccepts] at hfails
  exact finishRequest_fails env _ _ hfails

theorem parseProbeJson_of_not_addressed (env : Env) (probes : Probes) (probeName : Text)
    (json : Option Json) (type : ProbeType)
    (hnone : addressed env probes probeName type = none) :
    (parseProbeJson env probes probeName json).1 type = probes type := by
  unfold parseProbeJson
  cases hname : getProbeTypeByName probeName with
  | none => rfl
  | some named =>
      dsimp only
      cases hprobe : getProbeByName env probes named with
      | none => rfl
      | some probe =>
          have hother : type ≠ named := by
            rintro rfl
            rw [addressed, if_pos hname, hprobe] at hnone
            cases hnone
          exact if_neg hother

theorem parseProbeJson_of_addressed (env : Env) (probes : Probes) (probeName : Text)
    (json : Option Json) (type : ProbeType) (probe : ProbeS)
    (hsome : addressed env probes probeName type = some probe) :
    parseProbeJson env probes probeName json =
      (setProbe probes type (configureProbe env json probe).1,
        (configureProbe env json probe).2) := by
  by_cases hname : getProbeTypeByName probeName = some type
  · rw [addressed, if_pos hname] at hsome
    simp [parseProbeJson, hname, hsome]
  · rw [addressed, if_neg hname] at hsome
    cases hsome

-- A request that fails leaves every other probe as it is. Of its own probe only
-- the run state may differ, where the flags record what the user has tried, unless
-- all the parsers have accepted and the message to the probe could not be sent.
theorem failed_request_keeps_settings (env : Env) (probes : Probes) (probeName : Text)
    (json : Option Json) (hfails : (parseProbeJson env probes probeName json).2 ≠ .ok)
    (type : ProbeType) :
    (addressed env probes probeName type = none →
      (parseProbeJson env probes probeName json).1 type = probes type) ∧
    ∀ probe, addressed env probes probeName type = some probe →
      (Accepts env json probe ∧ ∃ type message, env.sendIpcMsg type message = false) ∨
      ((probeOf (parseProbeJson env probes probeName json).1 type).settings = probe.settings ∧
        (probeOf (parseProbeJson env probes probeName json).1 type).flags =
          flagsAfter env json probe) := by
  refine ⟨parseProbeJson_of_not_addressed env probes probeName json type, ?_⟩
  intro probe hprobe
  rw [parseProbeJson_of_addressed env probes probeName json type probe hprobe] at hfails ⊢
  by_cases haccepts : Accepts env json probe
  · exact .inl ⟨haccepts, configureProbe_fails env json probe haccepts hfails⟩
  · right
    simp only [probeOf, setProbe, if_true, Option.getD_some]
    exact configureProbe_refused env json probe haccepts

-- Memory is granted and everything else refused.
def refusingEnv : Env where
  newProbe := true
  backupMalloc := true
  confMalloc := true
  access := fun _ => false
  dlopen := false
  dlsym := fun _ => false
  getInstallDir := fun _ => none
  checkCmd := fun _ => false
  pthreadCreate := false
  pthreadCancel := false
  snooperObjs := fun _ => []
  sendIpcMsg := fun _ _ => false

def onlyTcp (probe : ProbeS) : Probes :=
  fun type => if type = .tcp then some probe else none

def request (item : Text) (value : Json) : Option Json :=
  some (.object [(item, value)])

-- A probe that was configured and runs.
def configuredProbe : ProbeS :=
  { newProbe .tcp with
    bin := some "/opt/tcpprobe".toList
    isExtendProbe := true
    probeRangeFlags := 4
    cb := some .extend
    pid := 12
    flags := ⟨true, false, false, true⟩
    snooperConfs := [.procId 7]
    probeParam := { setDefaultParams with period := 30 } }

-- The command and the processes are taken up before the period is refused.
def shortReportPeriod : Option Json :=
  some (.object [
    ("cmd".toList, .object [("bin".toList, .string "/opt/other".toList),
      ("probe".toList, .array [.string "tcp_abnormal".toList])]),
    ("snoopers".toList, .object [("proc_id".toList, .array [.number 8])]),
    ("params".toList, .object [("report_period".toList, .number 1)])])

theorem failed_request_keeps_settings_report_period :
    (parseProbeJson refusingEnv (onlyTcp configuredProbe) "tcp".toList shortReportPeriod).2 =
        .error (some "params.report_period invalid value, must be in [5, 600]".toList) ∧
      (probeOf (parseProbeJson refusingEnv (onlyTcp configuredProbe) "tcp".toList
        shortReportPeriod).1 .tcp).settings = configuredProbe.settings := by
  have hfails : (parseProbeJson refusingEnv (onlyTcp configuredProbe) "tcp".toList
      shortReportPeriod).2 ≠ .ok := by decide +kernel
  refine ⟨by decide +kernel, ?_⟩
  rcases (failed_request_keeps_settings _ _ _ _ hfails .tcp).2 configuredProbe rfl with
    ⟨⟨document, hdocument, -, -, haccepted⟩, -⟩ | hkept
  · obtain rfl := Option.some.inj hdocument
    revert haccepted
    decide +kernel
  · exact hkept.1

-- A start that fails has set STARTED, a request that does not parse has registered
-- the probe it names, and a message that is not sent leaves the change mark set.
theorem failed_request_not_atomic :
    ¬ Atomic refusingEnv (onlyTcp (newProbe .tcp)) "tcp".toList
        (request "state".toList (.string "running".toList)) ∧
      ¬ Atomic refusingEnv (fun _ => none) "tcp".toList none ∧
      ¬ Atomic refusingEnv (onlyTcp { newProbe .tcp with
          flags := ⟨true, false, false, true⟩, probeRangeFlags := 1 }) "tcp".toList
        (request "state".toList (.string "running".toList)) := by
  refine ⟨?_, ?_, ?_⟩
  · intro h
    have hflags := congrArg (Option.map fun pair => pair.2.started) (h (by decide) .tcp)
    revert hflags
    decide
  · intro h
    have hsome := congrArg Option.isSome (h (by decide) .tcp)
    revert hsome
    decide
  · intro h
    have hmark := congrArg (Option.map fun pair => pair.1.isParamsChg) (h (by decide) .tcp)
    revert hmark
    decide

end Gopher.Probe.Config
