import Gopher.Probe.Json
import Mathlib.Data.Nat.Notation

namespace Gopher.Probe

open Gopher.Lib

def MAX_PATH_LEN : ℕ := 512
def MAX_COMM_LEN : ℕ := 17
def DEV_NAME : ℕ := 32
def MAX_IP_LEN : ℕ := 20
def MAX_IP_NUM : ℕ := 8
def MAX_TGIDS_LEN : ℕ := 64
def PYSCOPE_SERVER_URL_LEN : ℕ := 256
def PATH_LEN : ℕ := 256

def DEFAULT_PERIOD : ℤ := 5
def DEFAULT_SAMPLE_PERIOD : ℤ := 100
def DEFAULT_KAFKA_PORT : ℤ := 9092

def SUPPORT_NODE_ENV : UInt32 := 0x01
def SUPPORT_CONTAINER_ENV : UInt32 := 0x02
def SUPPORT_K8S_ENV : UInt32 := 0x04

def SUPPORT_METRICS_RAW : UInt32 := 0x01
def SUPPORT_METRICS_TELEM : UInt32 := 0x02

def L7PROBE_TRACING_HTTP : UInt32 := 0x0001
def L7PROBE_TRACING_DNS : UInt32 := 0x0002
def L7PROBE_TRACING_REDIS : UInt32 := 0x0004
def L7PROBE_TRACING_MYSQL : UInt32 := 0x0008
def L7PROBE_TRACING_PGSQL : UInt32 := 0x0010
def L7PROBE_TRACING_KAFKA : UInt32 := 0x0012
def L7PROBE_TRACING_MONGO : UInt32 := 0x0014

-- `struct probe_params`, its `char` arrays with every byte they hold.
structure ProbeParams where
  period : UInt32
  samplePeriod : UInt32
  latencyThr : UInt32
  jitterThr : UInt32
  offlineThr : UInt32
  dropsCountThr : UInt32
  filterPid : UInt32
  loadProbe : UInt32
  kafkaPort : UInt32
  logs : UInt8
  metricsFlags : UInt8
  envFlags : UInt8
  supportSsl : UInt8
  filterTaskProbe : UInt8
  resPercentUpper : UInt8
  resPercentLower : UInt8
  cportFlag : UInt8
  continuousSamplingFlag : UInt8
  targetDev : Text
  elfPath : Text
  taskWhitelist : Text
  netcardList : Text
  targetComm : Text
  hostIpList : List Text
  tgids : Text
  l7ProbeProtoFlags : UInt32
  enableAllThrds : UInt32
  sysDebugingDir : Text
  svgPeriod : UInt32
  perfSamplePeriod : UInt32
  pyroscopeServer : Text
  svgDir : Text
  flameDir : Text
  deriving DecidableEq, Repr

def zeroArray (size : ℕ) : Text :=
  List.replicate size '\x00'

-- `memset` of the whole structure.
def zeroParams : ProbeParams where
  period := 0
  samplePeriod := 0
  latencyThr := 0
  jitterThr := 0
  offlineThr := 0
  dropsCountThr := 0
  filterPid := 0
  loadProbe := 0
  kafkaPort := 0
  logs := 0
  metricsFlags := 0
  envFlags := 0
  supportSsl := 0
  filterTaskProbe := 0
  resPercentUpper := 0
  resPercentLower := 0
  cportFlag := 0
  continuousSamplingFlag := 0
  targetDev := zeroArray DEV_NAME
  elfPath := zeroArray MAX_PATH_LEN
  taskWhitelist := zeroArray MAX_PATH_LEN
  netcardList := zeroArray MAX_PATH_LEN
  targetComm := zeroArray MAX_COMM_LEN
  hostIpList := List.replicate MAX_IP_NUM (zeroArray MAX_IP_LEN)
  tgids := zeroArray MAX_TGIDS_LEN
  l7ProbeProtoFlags := 0
  enableAllThrds := 0
  sysDebugingDir := zeroArray MAX_PATH_LEN
  svgPeriod := 0
  perfSamplePeriod := 0
  pyroscopeServer := zeroArray PYSCOPE_SERVER_URL_LEN
  svgDir := zeroArray PATH_LEN
  flameDir := zeroArray PATH_LEN

abbrev ParamFlags := List (Text × UInt32)

def paramL7proFlags : ParamFlags :=
  [("http".toList, L7PROBE_TRACING_HTTP), ("dns".toList, L7PROBE_TRACING_DNS),
    ("redis".toList, L7PROBE_TRACING_REDIS), ("mysql".toList, L7PROBE_TRACING_MYSQL),
    ("pgsql".toList, L7PROBE_TRACING_PGSQL), ("kafka".toList, L7PROBE_TRACING_KAFKA),
    ("mongo".toList, L7PROBE_TRACING_MONGO)]

def paramMetricsFlags : ParamFlags :=
  [("raw".toList, SUPPORT_METRICS_RAW), ("telemetry".toList, SUPPORT_METRICS_TELEM)]

def paramEnvFlags : ParamFlags :=
  [("node".toList, SUPPORT_NODE_ENV), ("container".toList, SUPPORT_CONTAINER_ENV),
    ("kubenet".toList, SUPPORT_K8S_ENV)]

def getParamsFlags (table : ParamFlags) (target : Text) : UInt32 :=
  ((table.find? fun entry => sameIgnoringCase entry.1 target).map Prod.snd).getD 0

-- `key` with `struct param_val_s`; the parser and the defaulter come beside it in `paramKeys`.
structure ParamKey where
  key : Text
  defaultInt : ℤ
  min : ℤ
  max : ℤ
  defaultString : Text

abbrev ParamParser := ParamKey → Json → ProbeParams → ProbeParams × Result

def formatInt (n : ℤ) : Text :=
  (toString n).toList

def rangeError (key : ParamKey) : Result :=
  .error (some ("params.".toList ++ key.key ++ " invalid value, must be in [".toList ++
    formatInt key.min ++ ", ".toList ++ formatInt key.max ++ "]".toList))

def valueError (key : ParamKey) (value : Text) : Result :=
  .error (some ("params.".toList ++ key.key ++ " invalid value: ".toList ++ value))

-- A number within the bounds of its key.
def parserInt (set : ProbeParams → ℤ → ProbeParams) : ParamParser := fun key item params =>
  let value := item.valueint
  if value < key.min ∨ key.max < value then (params, rangeError key) else (set params value, .ok)

-- A number where 0 asks for the default.
def parserIntOrDefault (set : ProbeParams → ℤ → ProbeParams) : ParamParser :=
  fun key item params =>
    let value := item.valueint
    if value = 0 then (set params key.defaultInt, .ok)
    else if value < key.min ∨ key.max < value then (params, rangeError key)
    else (set params value, .ok)

-- A list of names, each adding its flags; those before a wrong one have been added.
def parserFlagItems (table : ParamFlags) (set : ProbeParams → UInt32 → ProbeParams)
    (key : ParamKey) : List Json → ProbeParams → ProbeParams × Result
  | [], params => (params, .ok)
  | object :: objects, params =>
      match object.valuestring with
      | none => (params, .error none)
      | some value =>
          let flags := getParamsFlags table value
          if flags = 0 then (params, valueError key value)
          else parserFlagItems table set key objects (set params flags)

def parserFlags (table : ParamFlags) (set : ProbeParams → UInt32 → ProbeParams) : ParamParser :=
  fun key item params => parserFlagItems table set key item.children params

def parserString (set : ProbeParams → Text → ProbeParams) : ParamParser :=
  fun _ item params =>
    match item.valuestring with
    | none => (params, .error none)
    | some value => (set params value, .ok)

def parserSamplePeirod : ParamParser :=
  parserInt fun params value => { params with samplePeriod := UInt32.ofInt value }

def parserReportPeirod : ParamParser :=
  parserInt fun params value => { params with period := UInt32.ofInt value }

def parserLatencyThr : ParamParser :=
  parserInt fun params value => { params with latencyThr := UInt32.ofInt value }

def parserDropsThr : ParamParser :=
  parserInt fun params value => { params with dropsCountThr := UInt32.ofInt value }

def parserResLowerThr : ParamParser :=
  parserInt fun params value => { params with resPercentLower := UInt8.ofInt value }

def parserResUpperThr : ParamParser :=
  parserInt fun params value => { params with resPercentUpper := UInt8.ofInt value }

def parserReportEvent : ParamParser :=
  parserInt fun params value => { params with logs := UInt8.ofInt value }

def parserMetricsType : ParamParser :=
  parserFlags paramMetricsFlags fun params flags =>
    { params with metricsFlags := params.metricsFlags ||| flags.toUInt8 }

def parserWorkEnv : ParamParser :=
  parserFlags paramEnvFlags fun params flags =>
    { params with envFlags := params.envFlags ||| flags.toUInt8 }

def parserL7pro : ParamParser :=
  parserFlags paramL7proFlags fun params flags =>
    { params with l7ProbeProtoFlags := params.l7ProbeProtoFlags ||| flags }

def parserReportTcpsport : ParamParser :=
  parserInt fun params value => { params with cportFlag := UInt8.ofInt value }

def parserSupportSsl : ParamParser :=
  parserInt fun params value => { params with supportSsl := UInt8.ofInt value }

-- The default is for a NULL string, which a string item never has.
def parserPyscopeServer : ParamParser :=
  parserString fun params value =>
    { params with pyroscopeServer := snprintfTo params.pyroscopeServer value }

def parserSvgPeriod : ParamParser :=
  parserIntOrDefault fun params value => { params with svgPeriod := UInt32.ofInt value }

def parserPerfSamplePeriod : ParamParser :=
  parserIntOrDefault fun params value => { params with perfSamplePeriod := UInt32.ofInt value }

def parserSvgDir : ParamParser :=
  parserString fun params value => { params with svgDir := snprintfTo params.svgDir value }

def parserFlameDir : ParamParser :=
  parserString fun params value => { params with flameDir := snprintfTo params.flameDir value }

def parserSysdebugingDir : ParamParser :=
  parserString fun params value =>
    { params with sysDebugingDir := snprintfTo params.sysDebugingDir value }

-- The tokens of `strtok`, each written over the entry of its index.
def setHostIps : List Text → List Text → List Text
  | [], _ => []
  | entries, [] => entries
  | entry :: entries, token :: tokens => snprintfTo entry token :: setHostIps entries tokens

def parseHostIpFields : ParamParser :=
  parserString fun params value =>
    let tokens := (value.splitOn ',').filter (· ≠ [])
    { params with hostIpList := setHostIps params.hostIpList tokens }

-- One name goes to two fields.
def parserDevName : ParamParser :=
  parserString fun params value =>
    { params with
      targetDev := snprintfTo params.targetDev value
      netcardList := snprintfTo params.netcardList value }

def parserProfilingAllThreads : ParamParser :=
  parserInt fun params value => { params with enableAllThrds := UInt32.ofInt value }

def parserContinuousSampling : ParamParser :=
  parserInt fun params value => { params with continuousSamplingFlag := UInt8.ofInt value }

def parserElfPath : ParamParser :=
  parserString fun params value => { params with elfPath := snprintfTo params.elfPath value }

def parserKafkaPort : ParamParser :=
  parserInt fun params value => { params with kafkaPort := UInt32.ofInt value }

abbrev ParamDefaulter := ParamKey → ProbeParams → ProbeParams

structure ParamEntry where
  param : ParamKey
  parser : ParamParser
  defaulter : Option ParamDefaulter
  keyType : JsonType

-- The table `param_keys`, in its order.
def paramKeys : List ParamEntry :=
  [⟨⟨"sample_period".toList, DEFAULT_SAMPLE_PERIOD, 100, 10000, []⟩, parserSamplePeirod,
      some fun key params => { params with samplePeriod := UInt32.ofInt key.defaultInt }, .number⟩,
    ⟨⟨"report_period".toList, DEFAULT_PERIOD, 5, 600, []⟩, parserReportPeirod,
      some fun key params => { params with period := UInt32.ofInt key.defaultInt }, .number⟩,
    ⟨⟨"latency_thr".toList, 0, 10, 100000, []⟩, parserLatencyThr,
      some fun key params => { params with latencyThr := UInt32.ofInt key.defaultInt }, .number⟩,
    ⟨⟨"drops_thr".toList, 0, 10, 100000, []⟩, parserDropsThr,
      some fun key params => { params with dropsCountThr := UInt32.ofInt key.defaultInt }, .number⟩,
    ⟨⟨"res_lower_thr".toList, 0, 0, 100, []⟩, parserResLowerThr,
      some fun key params => { params with resPercentLower := UInt8.ofInt key.defaultInt }, .number⟩,
    ⟨⟨"res_upper_thr".toList, 0, 0, 100, []⟩, parserResUpperThr,
      some fun key params => { params with resPercentUpper := UInt8.ofInt key.defaultInt }, .number⟩,
    ⟨⟨"report_event".toList, 0, 0, 1, []⟩, parserReportEvent,
      some fun key params => { params with logs := UInt8.ofInt key.defaultInt }, .number⟩,
    ⟨⟨"metrics_type".toList, (SUPPORT_METRICS_RAW ||| SUPPORT_METRICS_TELEM).toNat, 0, 0,
        "raw".toList⟩, parserMetricsType,
      some fun key params => { params with metricsFlags := UInt8.ofInt key.defaultInt }, .array⟩,
    ⟨⟨"env".toList, SUPPORT_NODE_ENV.toNat, 0, 0, "node".toList⟩, parserWorkEnv,
      some fun key params => { params with envFlags := UInt8.ofInt key.defaultInt }, .array⟩,
    ⟨⟨"report_source_port".toList, 0, 0, 1, []⟩, parserReportTcpsport,
      some fun key params => { params with cportFlag := UInt8.ofInt key.defaultInt }, .number⟩,
    ⟨⟨"l7_protocol".toList, 0, 0, 0, "http".toList⟩, parserL7pro,
      some fun key params => { params with l7ProbeProtoFlags := UInt32.ofInt key.defaultInt },
      .array⟩,
    ⟨⟨"support_ssl".toList, 0, 0, 1, []⟩, parserSupportSsl,
      some fun key params => { params with supportSsl := UInt8.ofInt key.defaultInt }, .number⟩,
    ⟨⟨"pyroscope_server".toList, 0, 0, 0, "localhost:4040".toList⟩, parserPyscopeServer,
      some fun key params =>
        { params with pyroscopeServer := snprintfTo params.pyroscopeServer key.defaultString },
      .string⟩,
    ⟨⟨"svg_period".toList, 180, 30, 600, []⟩, parserSvgPeriod,
      some fun key params => { params with svgPeriod := UInt32.ofInt key.defaultInt }, .number⟩,
    ⟨⟨"perf_sample_period".toList, 10, 10, 1000, []⟩, parserPerfSamplePeriod,
      some fun key params => { params with perfSamplePeriod := UInt32.ofInt key.defaultInt },
      .number⟩,
    ⟨⟨"svg_dir".toList, 0, 0, 0, "/var/log/gala-gopher/stacktrace".toList⟩, parserSvgDir,
      some fun key params => { params with svgDir := snprintfTo params.svgDir key.defaultString },
      .string⟩,
    ⟨⟨"flame_dir".toList, 0, 0, 0, "/var/log/gala-gopher/flamegraph".toList⟩, parserFlameDir,
      some fun key params =>
        { params with flameDir := snprintfTo params.flameDir key.defaultString }, .string⟩,
    ⟨⟨"debugging_dir".toList, 0, 0, 0, []⟩, parserSysdebugingDir,
      some fun key params =>
        { params with sysDebugingDir := snprintfTo params.sysDebugingDir key.defaultString },
      .string⟩,
    ⟨⟨"host_ip_fields".toList, 0, 0, 0, []⟩, parseHostIpFields, none, .string⟩,
    ⟨⟨"dev_name".toList, 0, 0, 0, []⟩, parserDevName, none, .string⟩,
    ⟨⟨"profiling_all_threads".toList, 0, 0, 1, []⟩, parserProfilingAllThreads,
      some fun key params => { params with enableAllThrds := UInt32.ofInt key.defaultInt },
      .number⟩,
    ⟨⟨"continuous_sampling".toList, 0, 0, 1, []⟩, parserContinuousSampling,
      some fun key params => { params with continuousSamplingFlag := UInt8.ofInt key.defaultInt },
      .number⟩,
    ⟨⟨"elf_path".toList, 0, 0, 0, []⟩, parserElfPath, none, .string⟩,
    ⟨⟨"kafka_port".toList, DEFAULT_KAFKA_PORT, 1, 65535, []⟩, parserKafkaPort,
      some fun key params => { params with kafkaPort := UInt32.ofInt key.defaultInt }, .number⟩]

def setDefaultParams : ProbeParams :=
  paramKeys.foldl (fun params entry =>
    match entry.defaulter with
    | none => params
    | some defaulter => defaulter entry.param params) zeroParams

def typeError (key : ParamKey) : Result :=
  .error (some ("params.".toList ++ key.key ++ " invalid data type".toList))

-- A document without any known key is refused, with the message left as it was.
def parseParamKeys (json : Json) : List ParamEntry → Result → ProbeParams → ProbeParams × Result
  | [], ret, params => (params, ret)
  | entry :: entries, ret, params =>
      match json.getObjectItem entry.param.key with
      | none => parseParamKeys json entries ret params
      | some item =>
          if item.type ≠ entry.keyType then (params, typeError entry.param)
          else match entry.parser entry.param item params with
            | (params, .ok) => parseParamKeys json entries .ok params
            | (params, .error message) => (params, .error message)

def parseParams (json : Json) (params : ProbeParams) : ProbeParams × Result :=
  parseParamKeys json paramKeys (.error none) params

end Gopher.Probe
