import Gopher.Probe.Params

namespace Gopher.Probe

open Gopher.Lib

-- The string in a `char` array.
def stringIn (array : Text) : Text :=
  array.takeWhile (· ≠ '\x00')

-- What a key of `param_keys` configures: a number or some arrays.
inductive ParamField
  | word (value : UInt32)
  | byte (value : UInt8)
  | arrays (contents : List Text)
  deriving DecidableEq

-- The value of a parameter does not depend on the bytes behind its strings.
def ParamField.value : ParamField → ParamField
  | word value => word value
  | byte value => byte value
  | arrays contents => arrays (contents.map stringIn)

-- The keys of `param_keys`, in its order.
inductive Param
  | samplePeriod
  | reportPeriod
  | latencyThr
  | dropsThr
  | resLowerThr
  | resUpperThr
  | reportEvent
  | metricsType
  | env
  | reportSourcePort
  | l7Protocol
  | supportSsl
  | pyroscopeServer
  | svgPeriod
  | perfSamplePeriod
  | svgDir
  | flameDir
  | debuggingDir
  | hostIpFields
  | devName
  | profilingAllThreads
  | continuousSampling
  | elfPath
  | kafkaPort
  deriving DecidableEq

namespace Param

def all : List Param :=
  [samplePeriod, reportPeriod, latencyThr, dropsThr, resLowerThr, resUpperThr, reportEvent,
    metricsType, env, reportSourcePort, l7Protocol, supportSsl, pyroscopeServer, svgPeriod,
    perfSamplePeriod, svgDir, flameDir, debuggingDir, hostIpFields, devName,
    profilingAllThreads, continuousSampling, elfPath, kafkaPort]

theorem mem_all (param : Param) : param ∈ all := by
  cases param <;> decide

def entry (param : Param) : ParamEntry :=
  paramKeys.get ⟨param.ctorIdx, by cases param <;> decide⟩

theorem map_entry_all : all.map entry = paramKeys := rfl

def parser : Param → ParamParser
  | samplePeriod => parserSamplePeirod
  | reportPeriod => parserReportPeirod
  | latencyThr => parserLatencyThr
  | dropsThr => parserDropsThr
  | resLowerThr => parserResLowerThr
  | resUpperThr => parserResUpperThr
  | reportEvent => parserReportEvent
  | metricsType => parserMetricsType
  | env => parserWorkEnv
  | reportSourcePort => parserReportTcpsport
  | l7Protocol => parserL7pro
  | supportSsl => parserSupportSsl
  | pyroscopeServer => parserPyscopeServer
  | svgPeriod => parserSvgPeriod
  | perfSamplePeriod => parserPerfSamplePeriod
  | svgDir => parserSvgDir
  | flameDir => parserFlameDir
  | debuggingDir => parserSysdebugingDir
  | hostIpFields => parseHostIpFields
  | devName => parserDevName
  | profilingAllThreads => parserProfilingAllThreads
  | continuousSampling => parserContinuousSampling
  | elfPath => parserElfPath
  | kafkaPort => parserKafkaPort

theorem parser_of_entry (param : Param) : param.entry.parser = param.parser := by
  cases param <;> rfl

def field : Param → ProbeParams → ParamField
  | samplePeriod, params => .word params.samplePeriod
  | reportPeriod, params => .word params.period
  | latencyThr, params => .word params.latencyThr
  | dropsThr, params => .word params.dropsCountThr
  | resLowerThr, params => .byte params.resPercentLower
  | resUpperThr, params => .byte params.resPercentUpper
  | reportEvent, params => .byte params.logs
  | metricsType, params => .byte params.metricsFlags
  | env, params => .byte params.envFlags
  | reportSourcePort, params => .byte params.cportFlag
  | l7Protocol, params => .word params.l7ProbeProtoFlags
  | supportSsl, params => .byte params.supportSsl
  | pyroscopeServer, params => .arrays [params.pyroscopeServer]
  | svgPeriod, params => .word params.svgPeriod
  | perfSamplePeriod, params => .word params.perfSamplePeriod
  | svgDir, params => .arrays [params.svgDir]
  | flameDir, params => .arrays [params.flameDir]
  | debuggingDir, params => .arrays [params.sysDebugingDir]
  | hostIpFields, params => .arrays params.hostIpList
  | devName, params => .arrays [params.targetDev, params.netcardList]
  | profilingAllThreads, params => .word params.enableAllThrds
  | continuousSampling, params => .byte params.continuousSamplingFlag
  | elfPath, params => .arrays [params.elfPath]
  | kafkaPort, params => .word params.kafkaPort

def value (param : Param) (params : ProbeParams) : ParamField :=
  (param.field params).value

def named (json : Json) (param : Param) : Option Json :=
  json.getObjectItem param.entry.param.key

def parse (param : Param) (item : Json) : ProbeParams → ProbeParams × Result :=
  param.parser param.entry.param item

end Param

-- The parameters that no key configures.
def ProbeParams.unkeyed (params : ProbeParams) : ProbeParams :=
  { zeroParams with
    jitterThr := params.jitterThr
    offlineThr := params.offlineThr
    filterPid := params.filterPid
    loadProbe := params.loadProbe
    filterTaskProbe := params.filterTaskProbe
    taskWhitelist := params.taskWhitelist
    targetComm := params.targetComm
    tgids := params.tgids }

-- The arrays of a `struct probe_params` have the sizes it declares.
structure ProbeParams.Sized (params : ProbeParams) : Prop where
  pyroscopeServer : params.pyroscopeServer.length = PYSCOPE_SERVER_URL_LEN
  svgDir : params.svgDir.length = PATH_LEN
  flameDir : params.flameDir.length = PATH_LEN
  sysDebugingDir : params.sysDebugingDir.length = MAX_PATH_LEN
  hostIpList : params.hostIpList.map List.length = List.replicate MAX_IP_NUM MAX_IP_LEN
  targetDev : params.targetDev.length = DEV_NAME
  netcardList : params.netcardList.length = MAX_PATH_LEN
  elfPath : params.elfPath.length = MAX_PATH_LEN

-- The flags of all the names in a list.
def requestedFlags (table : ParamFlags) (objects : List Json) : UInt32 :=
  objects.foldl (fun flags object =>
    flags ||| (object.valuestring.map (getParamsFlags table)).getD 0) 0

def hostIpTokens (item : Json) : List Text :=
  (((item.valuestring).getD []).splitOn ',').filter (· ≠ [])

-- What the request leaves in sight of the old values is the same: flags it does
-- not name, and the addresses behind its own.
def Param.Overlaid (item : Json) (first second : ProbeParams) : Param → Prop
  | metricsType =>
      first.metricsFlags ||| (requestedFlags paramMetricsFlags item.children).toUInt8 =
        second.metricsFlags ||| (requestedFlags paramMetricsFlags item.children).toUInt8
  | env =>
      first.envFlags ||| (requestedFlags paramEnvFlags item.children).toUInt8 =
        second.envFlags ||| (requestedFlags paramEnvFlags item.children).toUInt8
  | l7Protocol =>
      first.l7ProbeProtoFlags ||| requestedFlags paramL7proFlags item.children =
        second.l7ProbeProtoFlags ||| requestedFlags paramL7proFlags item.children
  | hostIpFields =>
      (first.hostIpList.drop (hostIpTokens item).length).map stringIn =
        (second.hostIpList.drop (hostIpTokens item).length).map stringIn
  | _ => True

theorem stringIn_snprintfTo {first second : Text} (hsize : first.length = second.length)
    (text : Text) : stringIn (snprintfTo first text) = stringIn (snprintfTo second text) := by
  have hempty : first = [] ↔ second = [] := by
    rw [← List.length_eq_zero_iff, hsize, List.length_eq_zero_iff]
  unfold snprintfTo stringIn
  by_cases hfirst : first = []
  · simp [hfirst, hempty.mp hfirst]
  · have hsecond : second ≠ [] := fun h => hfirst (hempty.mpr h)
    simp only [hfirst, hsecond, if_false, hsize, List.takeWhile_append]
    split <;> simp

@[simp] theorem length_snprintfTo (array text : Text) :
    (snprintfTo array text).length = array.length := by
  unfold snprintfTo
  by_cases harray : array = []
  · simp [harray]
  · have hpos := List.length_pos_iff.mpr harray
    simp [harray, truncated]
    omega

@[simp] theorem snprintfTo_snprintfTo (array text : Text) :
    snprintfTo (snprintfTo array text) text = snprintfTo array text := by
  by_cases harray : array = []
  · simp [harray, snprintfTo]
  · have hprinted : snprintfTo array text ≠ [] := by simp [snprintfTo, harray]
    conv_lhs => rw [snprintfTo, length_snprintfTo, if_neg hprinted]
    simp [snprintfTo, harray]

theorem setHostIps_again (entries tokens : List Text) :
    setHostIps (setHostIps entries tokens) tokens = setHostIps entries tokens := by
  induction entries generalizing tokens with
  | nil => simp [setHostIps]
  | cons entry entries ih =>
      cases tokens with
      | nil => rfl
      | cons token tokens => simp [setHostIps, ih]

-- Behind the tokens the old addresses are still there.
theorem setHostIps_eq_iff {first second : List Text} (tokens : List Text)
    (hsize : first.map List.length = second.map List.length) :
    (setHostIps first tokens).map stringIn = (setHostIps second tokens).map stringIn ↔
      (first.drop tokens.length).map stringIn = (second.drop tokens.length).map stringIn := by
  induction first generalizing second tokens with
  | nil =>
      obtain rfl : second = [] := by simpa using hsize.symm
      simp
  | cons entry first ih =>
      cases second with
      | nil => simp at hsize
      | cons entry' second =>
          cases tokens with
          | nil => simp [setHostIps]
          | cons token tokens =>
              simp only [List.map_cons, List.cons.injEq] at hsize
              simp only [setHostIps, List.map_cons, List.cons.injEq,
                stringIn_snprintfTo hsize.1 token, true_and, List.length_cons,
                List.drop_succ_cons]
              exact ih tokens hsize.2

-- What a parser does to the parameters, whatever they were: it writes to its own
-- field, from what was there and the item.
structure Param.Owns (param : Param) (update : ProbeParams → ProbeParams) : Prop where
  others : ∀ other ≠ param, ∀ params, other.field (update params) = other.field params
  unkeyed : ∀ params, (update params).unkeyed = params.unkeyed
  own : ∀ first second, param.field first = param.field second →
    param.field (update first) = param.field (update second)

namespace Param.Owns

variable {param : Param}

theorem id : param.Owns id :=
  ⟨fun _ _ _ => rfl, fun _ => rfl, fun _ _ h => h⟩

theorem comp {first second : ProbeParams → ProbeParams} (hfirst : param.Owns first)
    (hsecond : param.Owns second) : param.Owns (second ∘ first) where
  others other hother params :=
    (hsecond.others other hother _).trans (hfirst.others other hother params)
  unkeyed params := (hsecond.unkeyed _).trans (hfirst.unkeyed params)
  own params params' h := hsecond.own _ _ (hfirst.own params params' h)

end Param.Owns

-- A parser as one update with one result.
def Param.OwnedBy (param : Param) (parser : ParamParser) : Prop :=
  ∀ key item, ∃ update result, param.Owns update ∧
    ∀ params, parser key item params = (update params, result)

section Parsers

variable {param : Param}

theorem parserInt_owned {set : ProbeParams → ℤ → ProbeParams}
    (hset : ∀ value, param.Owns fun params => set params value) :
    param.OwnedBy (parserInt set) := by
  intro key item
  by_cases hbounds : item.valueint < key.min ∨ key.max < item.valueint
  · exact ⟨_, _, .id, fun params => if_pos hbounds⟩
  · exact ⟨_, _, hset _, fun params => if_neg hbounds⟩

theorem parserIntOrDefault_owned {set : ProbeParams → ℤ → ProbeParams}
    (hset : ∀ value, param.Owns fun params => set params value) :
    param.OwnedBy (parserIntOrDefault set) := by
  intro key item
  by_cases hzero : item.valueint = 0
  · exact ⟨_, _, hset _, fun params => if_pos hzero⟩
  · by_cases hbounds : item.valueint < key.min ∨ key.max < item.valueint
    · exact ⟨_, _, .id, fun params => (if_neg hzero).trans (if_pos hbounds)⟩
    · exact ⟨_, _, hset _, fun params => (if_neg hzero).trans (if_neg hbounds)⟩

theorem parserString_owned {set : ProbeParams → Text → ProbeParams}
    (hset : ∀ value, param.Owns fun params => set params value) :
    param.OwnedBy (parserString set) := by
  intro key item
  unfold parserString
  cases item.valuestring with
  | none => exact ⟨_, _, .id, fun params => rfl⟩
  | some value => exact ⟨_, _, hset value, fun params => rfl⟩

theorem parserFlags_owned {table : ParamFlags} {set : ProbeParams → UInt32 → ProbeParams}
    (hset : ∀ flags, param.Owns fun params => set params flags) :
    param.OwnedBy (parserFlags table set) := by
  intro key item
  unfold parserFlags
  induction item.children with
  | nil => exact ⟨_, _, .id, fun params => rfl⟩
  | cons object objects ih =>
      cases hvalue : object.valuestring with
      | none =>
          refine ⟨_, .error none, .id, fun params => ?_⟩
          simp only [parserFlagItems, hvalue]
          rfl
      | some value =>
          by_cases hflags : getParamsFlags table value = 0
          · refine ⟨_, valueError key value, .id, fun params => ?_⟩
            simp only [parserFlagItems, hvalue, if_pos hflags]
            rfl
          · obtain ⟨update, result, howns, hupdate⟩ := ih
            refine ⟨_, result, .comp (hset (getParamsFlags table value)) howns, fun params => ?_⟩
            simp only [parserFlagItems, hvalue, if_neg hflags]
            exact hupdate _

end Parsers

theorem Param.parser_owned (param : Param) : param.OwnedBy param.parser := by
  cases param
  all_goals
    simp only [Param.parser]
    first
      | apply parserInt_owned
      | apply parserIntOrDefault_owned
      | apply parserFlags_owned
      | apply parserString_owned
    intro value
    refine ⟨?_, fun _ => rfl, ?_⟩
    · intro other hother params
      cases other <;> first | rfl | exact absurd rfl hother
    · simp +contextual [Param.field]

-- An accepted item sets the same value from whatever was there.
section Accepted

variable {α : Type*} {part : ProbeParams → α} {key : ParamKey} {item : Json}
  {first second : ProbeParams}

theorem parserInt_same {set : ProbeParams → ℤ → ProbeParams}
    (hset : ∀ value, part (set first value) = part (set second value))
    (haccepted : (parserInt set key item first).2 = .ok) :
    part (parserInt set key item first).1 = part (parserInt set key item second).1 := by
  unfold parserInt at haccepted ⊢
  dsimp only at haccepted ⊢
  split at haccepted
  · cases haccepted
  case isFalse hbounds =>
    rw [if_neg hbounds, if_neg hbounds]
    exact hset _

theorem parserIntOrDefault_same {set : ProbeParams → ℤ → ProbeParams}
    (hset : ∀ value, part (set first value) = part (set second value))
    (haccepted : (parserIntOrDefault set key item first).2 = .ok) :
    part (parserIntOrDefault set key item first).1 =
      part (parserIntOrDefault set key item second).1 := by
  unfold parserIntOrDefault at haccepted ⊢
  dsimp only at haccepted ⊢
  by_cases hzero : item.valueint = 0
  · rw [if_pos hzero, if_pos hzero]
    exact hset _
  · rw [if_neg hzero] at haccepted ⊢
    rw [if_neg hzero]
    split at haccepted
    · cases haccepted
    case isFalse hbounds =>
      rw [if_neg hbounds, if_neg hbounds]
      exact hset _

theorem parserString_same {set : ProbeParams → Text → ProbeParams}
    (hset : ∀ value, part (set first value) = part (set second value))
    (haccepted : (parserString set key item first).2 = .ok) :
    part (parserString set key item first).1 = part (parserString set key item second).1 := by
  unfold parserString at haccepted ⊢
  cases hvalue : item.valuestring with
  | none =>
      rw [hvalue] at haccepted
      cases haccepted
  | some value => exact hset value

theorem parserString_again {set : ProbeParams → Text → ProbeParams}
    (hset : ∀ value, part (set (set first value) value) = part (set first value)) :
    part (parserString set key item (parserString set key item first).1).1 =
      part (parserString set key item first).1 := by
  unfold parserString
  cases item.valuestring with
  | none => rfl
  | some value => exact hset value

theorem parserString_ok {set : ProbeParams → Text → ProbeParams}
    (haccepted : (parserString set key item first).2 = .ok) (params : ProbeParams) :
    parserString set key item params = (set params (item.valuestring.getD []), .ok) := by
  unfold parserString at haccepted ⊢
  cases hvalue : item.valuestring with
  | none =>
      rw [hvalue] at haccepted
      cases haccepted
  | some value => rfl

-- A list of names that are all known has added up their flags.
theorem parserFlags_ok {table : ParamFlags} {set : ProbeParams → UInt32 → ProbeParams}
    (part : ProbeParams → α) (add : α → UInt32 → α)
    (hset : ∀ params flags, part (set params flags) = add (part params) flags)
    (hzero : ∀ old, add old 0 = old)
    (hadd : ∀ old flags flags', add (add old flags) flags' = add old (flags ||| flags'))
    (haccepted : (parserFlags table set key item first).2 = .ok) (params : ProbeParams) :
    part (parserFlags table set key item params).1 =
      add (part params) (requestedFlags table item.children) := by
  have hfold : ∀ (objects : List Json) (old : α) (flags : UInt32) (first params : ProbeParams),
      (parserFlagItems table set key objects first).2 = .ok → part params = add old flags →
      part (parserFlagItems table set key objects params).1 =
        add old (objects.foldl (fun flags object =>
          flags ||| (object.valuestring.map (getParamsFlags table)).getD 0) flags) := by
    intro objects
    induction objects with
    | nil => exact fun _ _ _ _ _ h => h
    | cons object objects ih =>
        intro old flags first params haccepted hold
        rw [parserFlagItems.eq_def] at haccepted
        rw [parserFlagItems.eq_def]
        cases hvalue : object.valuestring with
        | none =>
            simp only [hvalue] at haccepted
            cases haccepted
        | some value =>
            simp only [hvalue] at haccepted ⊢
            by_cases hknown : getParamsFlags table value = 0
            · rw [if_pos hknown] at haccepted
              cases haccepted
            · rw [if_neg hknown] at haccepted ⊢
              rw [List.foldl_cons, hvalue]
              apply ih old _ _ _ haccepted
              rw [hset, hold, hadd]
              rfl
  exact hfold item.children (part params) 0 first params haccepted (hzero _).symm

theorem parserMetricsType_ok (haccepted : (parserMetricsType key item first).2 = .ok)
    (params : ProbeParams) :
    (parserMetricsType key item params).1.metricsFlags =
      params.metricsFlags ||| (requestedFlags paramMetricsFlags item.children).toUInt8 :=
  parserFlags_ok ProbeParams.metricsFlags (fun old flags => old ||| flags.toUInt8)
    (fun _ _ => rfl) (by simp) (by simp [UInt8.or_assoc]) haccepted params

theorem parserWorkEnv_ok (haccepted : (parserWorkEnv key item first).2 = .ok)
    (params : ProbeParams) :
    (parserWorkEnv key item params).1.envFlags =
      params.envFlags ||| (requestedFlags paramEnvFlags item.children).toUInt8 :=
  parserFlags_ok ProbeParams.envFlags (fun old flags => old ||| flags.toUInt8)
    (fun _ _ => rfl) (by simp) (by simp [UInt8.or_assoc]) haccepted params

theorem parserL7pro_ok (haccepted : (parserL7pro key item first).2 = .ok)
    (params : ProbeParams) :
    (parserL7pro key item params).1.l7ProbeProtoFlags =
      params.l7ProbeProtoFlags ||| requestedFlags paramL7proFlags item.children :=
  parserFlags_ok ProbeParams.l7ProbeProtoFlags (fun old flags => old ||| flags)
    (fun _ _ => rfl) (by simp) (by simp [UInt32.or_assoc]) haccepted params

end Accepted

-- An accepted item leaves the same value after two states exactly when what it
-- does not write over looks the same in both.
theorem Param.parse_value_eq_iff {param : Param} {item : Json} {first second : ProbeParams}
    (hfirst : first.Sized) (hsecond : second.Sized) (haccepted : (param.parse item first).2 = .ok) :
    param.value (param.parse item first).1 = param.value (param.parse item second).1 ↔
      param.Overlaid item first second := by
  unfold Param.parse at haccepted ⊢
  generalize param.entry.param = key at haccepted ⊢
  cases param
  case metricsType =>
    have hflags := parserMetricsType_ok haccepted
    simp only [Param.value, Param.field, Param.parser, ParamField.value,
      ParamField.byte.injEq, Param.Overlaid]
    rw [hflags first, hflags second]
  case env =>
    have hflags := parserWorkEnv_ok haccepted
    simp only [Param.value, Param.field, Param.parser, ParamField.value,
      ParamField.byte.injEq, Param.Overlaid]
    rw [hflags first, hflags second]
  case l7Protocol =>
    have hflags := parserL7pro_ok haccepted
    simp only [Param.value, Param.field, Param.parser, ParamField.value,
      ParamField.word.injEq, Param.Overlaid]
    rw [hflags first, hflags second]
  case hostIpFields =>
    have hstrings := parserString_ok haccepted
    simp only [Param.value, Param.field, Param.parser, parseHostIpFields, ParamField.value,
      ParamField.arrays.injEq, Param.Overlaid]
    rw [hstrings first, hstrings second]
    exact setHostIps_eq_iff (hostIpTokens item) (hfirst.hostIpList.trans hsecond.hostIpList.symm)
  all_goals
    simp only [Param.Overlaid, iff_true, Param.parser] at haccepted ⊢
    first
      | exact parserInt_same (fun _ => rfl) haccepted
      | exact parserIntOrDefault_same (fun _ => rfl) haccepted
      | refine parserString_same (fun value => ?_) haccepted
        simp [Param.value, Param.field, ParamField.value,
          stringIn_snprintfTo (hfirst.pyroscopeServer.trans hsecond.pyroscopeServer.symm),
          stringIn_snprintfTo (hfirst.svgDir.trans hsecond.svgDir.symm),
          stringIn_snprintfTo (hfirst.flameDir.trans hsecond.flameDir.symm),
          stringIn_snprintfTo (hfirst.sysDebugingDir.trans hsecond.sysDebugingDir.symm),
          stringIn_snprintfTo (hfirst.targetDev.trans hsecond.targetDev.symm),
          stringIn_snprintfTo (hfirst.netcardList.trans hsecond.netcardList.symm),
          stringIn_snprintfTo (hfirst.elfPath.trans hsecond.elfPath.symm)]

-- Parsing an item once more writes the same into its field.
theorem Param.parse_field_again {param : Param} {item : Json} {params : ProbeParams}
    (haccepted : (param.parse item params).2 = .ok) :
    param.field (param.parse item (param.parse item params).1).1 =
      param.field (param.parse item params).1 := by
  unfold Param.parse at haccepted ⊢
  generalize param.entry.param = key at haccepted ⊢
  cases param
  case metricsType =>
    have hflags := parserMetricsType_ok haccepted
    simp only [Param.field, Param.parser, ParamField.byte.injEq]
    rw [hflags, hflags, UInt8.or_assoc, UInt8.or_self]
  case env =>
    have hflags := parserWorkEnv_ok haccepted
    simp only [Param.field, Param.parser, ParamField.byte.injEq]
    rw [hflags, hflags, UInt8.or_assoc, UInt8.or_self]
  case l7Protocol =>
    have hflags := parserL7pro_ok haccepted
    simp only [Param.field, Param.parser, ParamField.word.injEq]
    rw [hflags, hflags, UInt32.or_assoc, UInt32.or_self]
  all_goals
    simp only [Param.parser] at haccepted ⊢
    first
      | apply Eq.symm
        exact parserInt_same (fun _ => rfl) haccepted
      | apply Eq.symm
        exact parserIntOrDefault_same (fun _ => rfl) haccepted
      | refine parserString_again fun value => ?_
        simp [Param.field, setHostIps_again]

section Loop

variable (json : Json)

-- One key of the loop over the table.
theorem parseParamKeys_cons (param : Param) (keys : List Param) (ret : Result)
    (params : ProbeParams) :
    parseParamKeys json ((param :: keys).map Param.entry) ret params =
      match param.named json with
      | none => parseParamKeys json (keys.map Param.entry) ret params
      | some item =>
          if item.type ≠ param.entry.keyType then (params, typeError param.entry.param)
          else match param.parse item params with
            | (params, .ok) => parseParamKeys json (keys.map Param.entry) .ok params
            | (params, .error message) => (params, .error message) := by
  rw [List.map_cons, parseParamKeys, Param.parser_of_entry]
  rfl

-- Whether a request is accepted does not depend on the parameters before it.
theorem parseParamKeys_result (keys : List Param) (ret : Result) (first second : ProbeParams) :
    (parseParamKeys json (keys.map Param.entry) ret first).2 =
      (parseParamKeys json (keys.map Param.entry) ret second).2 := by
  induction keys generalizing ret first second with
  | nil => rfl
  | cons param keys ih =>
      rw [parseParamKeys_cons, parseParamKeys_cons]
      cases param.named json with
      | none => exact ih ret first second
      | some item =>
          obtain ⟨update, result, -, hparse⟩ := param.parser_owned param.entry.param item
          dsimp only
          split
          · rfl
          · simp only [Param.parse, hparse]
            cases result with
            | ok => exact ih .ok _ _
            | error message => rfl

-- What no named key writes to stays as it is.
theorem parseParamKeys_keeps {α : Type*} (part : ProbeParams → α) (keys : List Param)
    (ret : Result) (params : ProbeParams)
    (hkeeps : ∀ param ∈ keys, ∀ item ∈ param.named json, ∀ params,
      part (param.parse item params).1 = part params) :
    part (parseParamKeys json (keys.map Param.entry) ret params).1 = part params := by
  induction keys generalizing ret params with
  | nil => rfl
  | cons param keys ih =>
      have hrest : ∀ other ∈ keys, ∀ item ∈ other.named json, ∀ params,
          part (other.parse item params).1 = part params :=
        fun other hmem => hkeeps other (List.mem_cons_of_mem param hmem)
      rw [parseParamKeys_cons]
      cases hnamed : param.named json with
      | none => exact ih ret params hrest
      | some item =>
          have hparam := hkeeps param List.mem_cons_self item hnamed params
          dsimp only
          split
          · rfl
          · rcases hparse : param.parse item params with ⟨next, result⟩
            rw [hparse] at hparam
            cases result with
            | ok => exact (ih .ok next hrest).trans hparam
            | error message => exact hparam

theorem Param.parse_field_of_ne {param other : Param} (hother : other ≠ param) (item : Json)
    (params : ProbeParams) : other.field (param.parse item params).1 = other.field params := by
  obtain ⟨update, result, howns, hparse⟩ := param.parser_owned param.entry.param item
  rw [Param.parse, hparse]
  exact howns.others other hother params

-- A named key ends up with what its parser makes of its field as it was before the
-- request.
theorem parseParamKeys_named {param : Param} {item : Json} {keys : List Param} {ret : Result}
    {params : ProbeParams} (hnodup : keys.Nodup) (hmem : param ∈ keys)
    (hnamed : param.named json = some item)
    (haccepted : (parseParamKeys json (keys.map Param.entry) ret params).2 = .ok) :
    (param.parse item params).2 = .ok ∧
      param.field (parseParamKeys json (keys.map Param.entry) ret params).1 =
        param.field (param.parse item params).1 := by
  induction keys generalizing ret params with
  | nil => cases hmem
  | cons first keys ih =>
      obtain ⟨hfresh, hrest⟩ := List.nodup_cons.mp hnodup
      rw [parseParamKeys_cons] at haccepted ⊢
      by_cases hfirst : param = first
      · subst hfirst
        rw [hnamed] at haccepted ⊢
        dsimp only at haccepted ⊢
        split at haccepted
        · cases haccepted
        case isFalse htype =>
          rw [if_neg htype]
          rcases hparse : param.parse item params with ⟨next, result⟩
          rw [hparse] at haccepted
          cases result with
          | error message => cases haccepted
          | ok =>
              refine ⟨rfl, parseParamKeys_keeps json param.field keys .ok next ?_⟩
              intro other hother item _ params
              apply Param.parse_field_of_ne
              rintro rfl
              exact hfresh hother
      · have hkeys : param ∈ keys := (List.mem_cons.mp hmem).resolve_left hfirst
        cases hother : first.named json with
        | none =>
            rw [hother] at haccepted
            exact ih hrest hkeys haccepted
        | some other =>
            rw [hother] at haccepted
            dsimp only at haccepted ⊢
            split at haccepted
            · cases haccepted
            case isFalse htype =>
              rw [if_neg htype]
              have hkept := Param.parse_field_of_ne hfirst other params
              rcases hparse : first.parse other params with ⟨next, result⟩
              rw [hparse] at haccepted hkept
              cases result with
              | error message => cases haccepted
              | ok =>
                  obtain ⟨hok, hfield⟩ := ih hrest hkeys haccepted
                  obtain ⟨update, result, howns, hupdate⟩ :=
                    param.parser_owned param.entry.param item
                  rw [Param.parse, hupdate] at hok hfield ⊢
                  exact ⟨hok, hfield.trans (howns.own next params hkept)⟩

end Loop

-- The parameters after a request are a function of the request, as far as it goes:
-- for this state and any other, and when the request is made once more.
structure FollowsRequest (json : Json) (first second : ProbeParams) : Prop where
  named : ∀ param : Param, param.named json ≠ none →
    param.value (parseParams json first).1 = param.value (parseParams json second).1
  unnamed : ∀ param : Param, param.named json = none →
    param.value (parseParams json first).1 = param.value first ∧
      param.value (parseParams json second).1 = param.value second
  unkeyed : (parseParams json first).1.unkeyed = first.unkeyed ∧
    (parseParams json second).1.unkeyed = second.unkeyed
  again : parseParams json (parseParams json first).1 = parseParams json first ∧
    parseParams json (parseParams json second).1 = parseParams json second

theorem parseParams_result (json : Json) (first second : ProbeParams) :
    (parseParams json first).2 = (parseParams json second).2 :=
  parseParamKeys_result json Param.all (.error none) first second

theorem Param.named_accepted {json item : Json} {param : Param} {params : ProbeParams}
    (hnamed : param.named json = some item) (haccepted : (parseParams json params).2 = .ok) :
    (param.parse item params).2 = .ok ∧
      param.field (parseParams json params).1 = param.field (param.parse item params).1 :=
  parseParamKeys_named json (by decide) param.mem_all hnamed haccepted

theorem Param.field_of_unnamed {json : Json} {param : Param} (params : ProbeParams)
    (hunnamed : param.named json = none) :
    param.field (parseParams json params).1 = param.field params := by
  apply parseParamKeys_keeps json param.field Param.all
  intro other _ item hitem params
  apply Param.parse_field_of_ne
  rintro rfl
  rw [hunnamed] at hitem
  cases hitem

theorem parseParams_unkeyed (json : Json) (params : ProbeParams) :
    (parseParams json params).1.unkeyed = params.unkeyed := by
  apply parseParamKeys_keeps json ProbeParams.unkeyed Param.all
  intro param _ item _ params
  obtain ⟨update, result, howns, hparse⟩ := param.parser_owned param.entry.param item
  rw [Param.parse, hparse]
  exact howns.unkeyed params

-- The keys and what has no key make up all of the parameters.
theorem ProbeParams.ext_fields {first second : ProbeParams}
    (hfields : ∀ param : Param, param.field first = param.field second)
    (hunkeyed : first.unkeyed = second.unkeyed) : first = second := by
  have hall : Param.all.map (fun param => param.field first) =
      Param.all.map fun param => param.field second :=
    List.map_congr_left fun param _ => hfields param
  cases first
  cases second
  simp only [Param.all, Param.field, List.map_cons, List.cons.injEq, ParamField.word.injEq,
    ParamField.byte.injEq, ParamField.arrays.injEq, and_true, ProbeParams.unkeyed,
    ProbeParams.mk.injEq, true_and] at hall hunkeyed
  simp [hall, hunkeyed]

theorem parseParams_again {json : Json} {params : ProbeParams}
    (haccepted : (parseParams json params).2 = .ok) :
    parseParams json (parseParams json params).1 = parseParams json params := by
  have hresult := parseParams_result json (parseParams json params).1 params
  refine Prod.ext (ProbeParams.ext_fields ?_ (parseParams_unkeyed json _)) hresult
  intro param
  cases hnamed : param.named json with
  | none => exact param.field_of_unnamed _ hnamed
  | some item =>
      obtain ⟨hok, hfield⟩ := Param.named_accepted hnamed haccepted
      obtain ⟨-, hagain⟩ := Param.named_accepted hnamed (hresult.trans haccepted)
      obtain ⟨update, result, howns, hupdate⟩ := param.parser_owned param.entry.param item
      have htwice := Param.parse_field_again hok
      rw [hagain, ← htwice.trans hfield.symm]
      simp only [Param.parse, hupdate] at hfield ⊢
      exact howns.own _ _ hfield

-- For every accepted request and any two states before it: all that can be left of
-- them in the named parameters are the flags and addresses that are not written over.
theorem parameters_follow_request_iff {json : Json} {first second : ProbeParams}
    (hfirst : first.Sized) (hsecond : second.Sized)
    (haccepted : (parseParams json first).2 = .ok) :
    FollowsRequest json first second ↔
      ∀ param : Param, ∀ item ∈ param.named json, param.Overlaid item first second := by
  have haccepted' := (parseParams_result json second first).trans haccepted
  have hvalue : ∀ param : Param, ∀ item, param.named json = some item →
      (param.value (parseParams json first).1 = param.value (parseParams json second).1 ↔
        param.Overlaid item first second) := by
    intro param item hnamed
    obtain ⟨hok, hfield⟩ := Param.named_accepted hnamed haccepted
    obtain ⟨-, hfield'⟩ := Param.named_accepted hnamed haccepted'
    rw [← Param.parse_value_eq_iff hfirst hsecond hok, Param.value, Param.value, hfield, hfield']
    rfl
  constructor
  · intro hfollows param item hitem
    have hnamed : param.named json = some item := hitem
    exact (hvalue param item hnamed).mp (hfollows.named param (by simp [hnamed]))
  · intro hoverlaid
    refine ⟨?_, ?_, ⟨parseParams_unkeyed json first, parseParams_unkeyed json second⟩,
      ⟨parseParams_again haccepted, parseParams_again haccepted'⟩⟩
    · intro param hnamed
      obtain ⟨item, hitem⟩ := Option.ne_none_iff_exists'.mp hnamed
      exact (hvalue param item hitem).mpr (hoverlaid param item hitem)
    · intro param hunnamed
      exact ⟨congrArg ParamField.value (param.field_of_unnamed first hunnamed),
        congrArg ParamField.value (param.field_of_unnamed second hunnamed)⟩

theorem sized_zeroParams : zeroParams.Sized := by
  constructor <;> simp [zeroParams, zeroArray]

theorem parameters_follow_request_report_period :
    FollowsRequest (.object [("report_period".toList, .number 10)]) zeroParams
      { zeroParams with period := 5 } := by
  have hlater : ProbeParams.Sized { zeroParams with period := 5 } := by
    constructor <;> simp [zeroParams, zeroArray]
  apply (parameters_follow_request_iff sized_zeroParams hlater (by decide)).mpr
  intro param item hitem
  cases param
  case metricsType | env | l7Protocol | hostIpFields => cases hitem
  all_goals trivial

def metricsRequest (types : List Text) : Json :=
  .object [("metrics_type".toList, .array (types.map Json.string))]

def hostIpRequest (addresses : Text) : Json :=
  .object [("host_ip_fields".toList, .string addresses)]

-- A request for one type of metrics leaves the other on where it was on, and one
-- for a single address keeps the second one of the request before it.
theorem parameters_left_from_before :
    (parseParams (metricsRequest ["raw".toList]) zeroParams).2 = .ok ∧
      Param.metricsType.value (parseParams (metricsRequest ["raw".toList]) zeroParams).1 =
        .byte SUPPORT_METRICS_RAW.toUInt8 ∧
      Param.metricsType.value (parseParams (metricsRequest ["raw".toList])
        (parseParams (metricsRequest ["telemetry".toList]) zeroParams).1).1 =
        .byte (SUPPORT_METRICS_RAW ||| SUPPORT_METRICS_TELEM).toUInt8 ∧
      Param.hostIpFields.value (parseParams (hostIpRequest "9.9.9.9".toList)
          (parseParams (hostIpRequest "1.1.1.1,2.2.2.2".toList) zeroParams).1).1 =
        .arrays ["9.9.9.9".toList, "2.2.2.2".toList, [], [], [], [], [], []] ∧
      ¬ FollowsRequest (metricsRequest ["raw".toList]) zeroParams
        (parseParams (metricsRequest ["telemetry".toList]) zeroParams).1 := by
  refine ⟨?_, ?_, ?_, ?_, ?_⟩
  · decide +kernel
  · decide +kernel
  · decide +kernel
  · decide +kernel
  · intro h
    have hsame := h.named .metricsType (by decide +kernel)
    revert hsame
    decide +kernel

end Gopher.Probe
