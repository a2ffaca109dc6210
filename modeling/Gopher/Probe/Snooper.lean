import Gopher.Ipc
import Gopher.Probe.Json

namespace Gopher.Probe

open Gopher.Lib Gopher.Ipc

def TASK_COMM_LEN : ℕ := 16
def CONTAINER_ABBR_ID_LEN : ℕ := 12
def POD_ID_LEN : ℕ := 36

def SNOOPER_OBJNAME_PROCID : Text := "proc_id".toList
def SNOOPER_OBJNAME_PROCNAME : Text := "proc_name".toList
def SNOOPER_OBJNAME_PODID : Text := "pod_id".toList
def SNOOPER_OBJNAME_CONTAINERID : Text := "container_id".toList
def SNOOPER_OBJNAME_GAUSSDB : Text := "gaussdb".toList

def SNOOPER_OBJNAME_COMM : Text := "comm".toList
def SNOOPER_OBJNAME_CMDLINE : Text := "cmdline".toList
def SNOOPER_OBJNAME_DBGDIR : Text := "debugging_dir".toList

def SNOOPER_OBJNAME_DBIP : Text := "dbip".toList
def SNOOPER_OBJNAME_DBPORT : Text := "dbport".toList
def SNOOPER_OBJNAME_DBNAME : Text := "dbname".toList
def SNOOPER_OBJNAME_DBUSER : Text := "dbuser".toList
def SNOOPER_OBJNAME_DBPASS : Text := "dbpass".toList

-- The tag of `struct snooper_conf_s` with its union; `none` is a NULL pointer.
inductive SnooperConf
  | app (comm : Text) (cmdline debugingDir : Option Text)
  | gaussdb (ip dbname usr pass : Option Text) (port : UInt32)
  | procId (procId : UInt32)
  | podId (podId : Text)
  | containerId (containerId : Text)
  deriving DecidableEq, Repr

-- The slots of `snooper_confs` below `snooper_conf_num`. `none` is the return value -1.
abbrev SnooperConfs := List SnooperConf

-- `malloc` says whether `new_snooper_conf` is granted its memory.
def appendConf (malloc : Bool) (confs : SnooperConfs) (conf : SnooperConf) : Option SnooperConfs :=
  if malloc then some (confs ++ [conf]) else none

def addSnooperConfProcid (malloc : Bool) (procId : UInt32) (confs : SnooperConfs) :
    Option SnooperConfs :=
  if SNOOPER_MAX ≤ confs.length then none
  else appendConf malloc confs (.procId procId)

def addSnooperConfProcname (malloc : Bool) (comm : Text) (cmdline dbgdir : Option Text)
    (confs : SnooperConfs) : Option SnooperConfs :=
  if SNOOPER_MAX ≤ confs.length then none
  else if comm = [] then some confs
  else appendConf malloc confs
    (.app (truncated (TASK_COMM_LEN + 1) comm) cmdline (dbgdir.filter (· ≠ [])))

def addSnooperConfPod (malloc : Bool) (podId : Text) (confs : SnooperConfs) :
    Option SnooperConfs :=
  if SNOOPER_MAX ≤ confs.length then none
  else if podId = [] then some confs
  else appendConf malloc confs (.podId (truncated (POD_ID_LEN + 1) podId))

def addSnooperConfContainer (malloc : Bool) (containerId : Text) (confs : SnooperConfs) :
    Option SnooperConfs :=
  if SNOOPER_MAX ≤ confs.length then none
  else if containerId = [] then some confs
  else appendConf malloc confs (.containerId (truncated (CONTAINER_ABBR_ID_LEN + 1) containerId))

-- Each field is copied under the test `!(field[0] != 0)`, that is when it is empty.
def copyEmpty (field : Text) : Option Text :=
  if field = [] then some field else none

def addSnooperConfGaussdb (malloc : Bool) (ip dbname usr pass : Text) (port : UInt32)
    (confs : SnooperConfs) : Option SnooperConfs :=
  if SNOOPER_MAX ≤ confs.length then none
  else appendConf malloc confs
    (.gaussdb (copyEmpty ip) (copyEmpty dbname) (copyEmpty usr) (copyEmpty pass) port)

-- One element after the other, up to the first that is refused. What was added
-- before it stays in the configuration.
def addEach (add : Json → SnooperConfs → Option SnooperConfs) :
    List Json → SnooperConfs → SnooperConfs × Bool
  | [], confs => (confs, true)
  | object :: objects, confs =>
      match add object confs with
      | none => (confs, false)
      | some confs => addEach add objects confs

def parseSection (name : Text) (add : Json → SnooperConfs → Option SnooperConfs) (json : Json)
    (confs : SnooperConfs) : SnooperConfs × Bool :=
  match json.getObjectItem name with
  | none => (confs, true)
  | some item => addEach add item.children confs

def parseSnooperProcid (malloc : Bool) : Json → SnooperConfs → SnooperConfs × Bool :=
  parseSection SNOOPER_OBJNAME_PROCID fun object confs =>
    if object.type ≠ .number then none
    else addSnooperConfProcid malloc (UInt32.ofInt object.valueint) confs

-- A member that may be absent but must be a string where it is there.
def optionalString (object : Json) (name : Text) : Option (Option Text) :=
  match object.getObjectItem name with
  | none => some none
  | some item => item.valuestring.map some

def requiredString (object : Json) (name : Text) : Option Text :=
  (object.getObjectItem name).bind Json.valuestring

def parseSnooperProcname (malloc : Bool) : Json → SnooperConfs → SnooperConfs × Bool :=
  parseSection SNOOPER_OBJNAME_PROCNAME fun object confs => do
    let comm ← requiredString object SNOOPER_OBJNAME_COMM
    let cmdline ← optionalString object SNOOPER_OBJNAME_CMDLINE
    let dbgdir ← optionalString object SNOOPER_OBJNAME_DBGDIR
    addSnooperConfProcname malloc comm cmdline dbgdir confs

def parseSnooperPodContainer (malloc : Bool) (itemName : Text) :
    Json → SnooperConfs → SnooperConfs × Bool :=
  parseSection itemName fun object confs => do
    let value ← object.valuestring
    if sameIgnoringCase itemName SNOOPER_OBJNAME_PODID then addSnooperConfPod malloc value confs
    else addSnooperConfContainer malloc value confs

def parseSnooperGaussdb (malloc : Bool) : Json → SnooperConfs → SnooperConfs × Bool :=
  parseSection SNOOPER_OBJNAME_GAUSSDB fun object confs => do
    let ip ← requiredString object SNOOPER_OBJNAME_DBIP
    let dbname ← requiredString object SNOOPER_OBJNAME_DBNAME
    let usr ← requiredString object SNOOPER_OBJNAME_DBUSER
    let pass ← requiredString object SNOOPER_OBJNAME_DBPASS
    let port ← object.getObjectItem SNOOPER_OBJNAME_DBPORT
    if port.type ≠ .number then none
    else addSnooperConfGaussdb malloc ip dbname usr pass (UInt32.ofInt port.valueint) confs

def snooperSections (malloc : Bool) :
    List (Text × (Json → SnooperConfs → SnooperConfs × Bool)) :=
  [(SNOOPER_OBJNAME_PROCID, parseSnooperProcid malloc),
    (SNOOPER_OBJNAME_PROCNAME, parseSnooperProcname malloc),
    (SNOOPER_OBJNAME_PODID, parseSnooperPodContainer malloc SNOOPER_OBJNAME_PODID),
    (SNOOPER_OBJNAME_CONTAINERID, parseSnooperPodContainer malloc SNOOPER_OBJNAME_CONTAINERID),
    (SNOOPER_OBJNAME_GAUSSDB, parseSnooperGaussdb malloc)]

def parseSections (json : Json) :
    List (Text × (Json → SnooperConfs → SnooperConfs × Bool)) → SnooperConfs →
      SnooperConfs × Result
  | [], confs => (confs, .ok)
  | (name, parse) :: sections, confs =>
      match parse json confs with
      | (confs, false) =>
          (confs, .error (some ("Error occurs when parsing snooper ".toList ++ name)))
      | (confs, true) => parseSections json sections confs

-- The part of `parse_snooper` before the objects are generated anew. The old
-- configuration is freed first.
def parseSnooperConfs (malloc : Bool) (json : Json) : SnooperConfs × Result :=
  parseSections json (snooperSections malloc) []

-- `__COMP_STR_P`
def compStrP (first second : Option Text) : Bool :=
  match first, second with
  | some first, some second => first != second
  | none, none => false
  | _, _ => true

-- The table `snooper_modifys`, one entry for each type.
def snooperIsModify : SnooperConf → SnooperConf → Bool
  | .app comm cmdline dir, .app comm' cmdline' dir' =>
      comm != comm' || compStrP cmdline cmdline' || compStrP dir dir'
  | .gaussdb ip dbname usr pass port, .gaussdb ip' dbname' usr' pass' port' =>
      port != port' || compStrP ip ip' || compStrP dbname dbname' || compStrP usr usr' ||
        compStrP pass pass'
  | .procId id, .procId id' => id != id'
  | .podId id, .podId id' => id != id'
  | .containerId id, .containerId id' => id != id'
  | _, _ => true

open Gopher.Lib

def printSnooperProcid (confs : SnooperConfs) : Json :=
  .array (confs.filterMap fun
    | .procId procId => some (.number procId.toNat)
    | _ => none)

-- A NULL pointer is printed as the empty string.
def printSnooperProcname (confs : SnooperConfs) : Json :=
  .array (confs.filterMap fun
    | .app comm cmdline debugingDir => some (.object
        [(SNOOPER_OBJNAME_COMM, .string comm),
          (SNOOPER_OBJNAME_CMDLINE, .string (cmdline.getD [])),
          (SNOOPER_OBJNAME_DBGDIR, .string (debugingDir.getD []))])
    | _ => none)

def printSnooperPod (confs : SnooperConfs) : Json :=
  .array (confs.filterMap fun
    | .podId podId => some (.string podId)
    | _ => none)

def printSnooperContainer (confs : SnooperConfs) : Json :=
  .array (confs.filterMap fun
    | .containerId containerId => some (.string containerId)
    | _ => none)

def printSnooperGaussdb (confs : SnooperConfs) : Json :=
  .array (confs.filterMap fun
    | .gaussdb ip dbname usr pass port => some (.object
        [(SNOOPER_OBJNAME_DBIP, .string (ip.getD [])),
          (SNOOPER_OBJNAME_DBPORT, .number port.toNat),
          (SNOOPER_OBJNAME_DBNAME, .string (dbname.getD [])),
          (SNOOPER_OBJNAME_DBUSER, .string (usr.getD [])),
          (SNOOPER_OBJNAME_DBPASS, .string (pass.getD []))])
    | _ => none)

-- The members `print_snooper` adds to the object its caller has created.
def printSnooper (confs : SnooperConfs) : Json :=
  .object
    [(SNOOPER_OBJNAME_PROCID, printSnooperProcid confs),
      (SNOOPER_OBJNAME_PROCNAME, printSnooperProcname confs),
      (SNOOPER_OBJNAME_PODID, printSnooperPod confs),
      (SNOOPER_OBJNAME_CONTAINERID, printSnooperContainer confs),
      (SNOOPER_OBJNAME_GAUSSDB, printSnooperGaussdb confs)]

end Gopher.Probe
