import Gopher.L7.DataStream
import Gopher.L7.Histogram
import Gopher.Lib.HashTable
import Gopher.Lib.Text

namespace Gopher.L7

open Gopher.Lib

def RECORD_BUF_SIZE : ℕ := 1024

inductive L4Role
  | unknown
  | client
  | server
  deriving DecidableEq, Repr

inductive L7Role
  | unknown
  | client
  | server
  deriving DecidableEq, Repr

inductive L7Direction
  | egress
  | ingress
  | unknown
  deriving DecidableEq, Repr

inductive L7Stat
  | bytesSent
  | bytesRecv
  | lastBytesSent
  | lastBytesRecv
  | dataEvtSent
  | dataEvtRecv
  | openEvt
  | closeEvt
  | reqCount
  | rspCount
  | errCount
  deriving DecidableEq, Repr

-- The array `stats`. The counters do not get near 2^64.
abbrev Stats := L7Stat → ℕ

def Stats.zero : Stats := fun _ => 0

def Stats.add (stats : Stats) (stat : L7Stat) (n : ℕ) : Stats :=
  Function.update stats stat (stats stat + n)

def Stats.set (stats : Stats) (stat : L7Stat) (n : ℕ) : Stats := Function.update stats stat n

structure ConnAddr where
  family : UInt16
  port : UInt16
  ip : List UInt8
  deriving DecidableEq, Repr

structure TrackerId where
  tgid : Int32
  fd : Int32
  deriving DecidableEq

structure LinkId where
  tgid : Int32
  remoteAddr : ConnAddr
  l4Role : L4Role
  l7Role : L7Role
  protocol : ProtoType
  deriving DecidableEq

-- The ranges of `latency_histios`. Their comments give them in milliseconds.
def latencyHistios : List (UInt64 × UInt64) :=
  [(0, 1), (1, 3), (3, 10), (10, 20), (20, 50), (50, 100), (100, 300), (300, 500), (500, 1000),
    (1000, 10000)]

-- The memory of the buckets is cleared before.
def initLatencyBuckets : List HistoBucket :=
  latencyHistios.map fun (min, max) => (initHistoBucket min max).getD ⟨0, 0, 0⟩

structure ConnTracker (φ : Type*) where
  id : TrackerId
  isSsl : Bool
  l4Role : L4Role
  l7Role : L7Role
  protocol : ProtoType
  openTimestampNs : UInt64
  remoteAddr : ConnAddr
  stats : Stats
  latencyBuckets : List HistoBucket
  latencySum : UInt64
  sendStream : DataStream φ
  recvStream : DataStream φ

structure L7Info where
  comm : Text
  containerId : Text
  podId : Text
  podIp : Text
  isSsl : Bool
  deriving DecidableEq, Repr

structure L7Link where
  id : LinkId
  l7Info : L7Info
  stats : Stats
  latencyBuckets : List HistoBucket
  latencySum : UInt64

-- The two hash tables, each the newest first. `crashed` is a process that died.
structure L7Mng (φ : Type*) where
  trackers : List (ConnTracker φ)
  links : List L7Link
  crashed : Bool

-- What the system answers while a message is processed.
structure MsgEnv where
  trackerMalloc : Bool
  linkMalloc : Bool
  rawDataMalloc : Bool
  getProcComm : Int32 → Text
  getContainerIdByPidCpuset : Int32 → Text
  getContainerPodId : Text → Text
  getPodIp : Text → Text

variable {φ : Type*}

def L7Mng.empty : L7Mng φ where
  trackers := []
  links := []
  crashed := false

def createConnTracker (id : TrackerId) : ConnTracker φ where
  id := id
  isSsl := false
  l4Role := .unknown
  l7Role := .unknown
  protocol := .unknown
  openTimestampNs := 0
  remoteAddr := ⟨0, 0, List.replicate 16 0⟩
  stats := .zero
  latencyBuckets := initLatencyBuckets
  latencySum := 0
  sendStream := .init
  recvStream := .init

-- What a link is looked up by, filled from the tracker in the same way everywhere.
def ConnTracker.linkId (tracker : ConnTracker φ) : LinkId where
  tgid := tracker.id.tgid
  remoteAddr := tracker.remoteAddr
  l4Role := tracker.l4Role
  l7Role := tracker.l7Role
  protocol := tracker.protocol

def lkupConnTracker (mng : L7Mng φ) (id : TrackerId) : Option (ConnTracker φ) :=
  HashTable.find ConnTracker.id mng.trackers id

def changeTracker (change : ConnTracker φ → ConnTracker φ) (mng : L7Mng φ) (id : TrackerId) :
    L7Mng φ :=
  { mng with trackers := HashTable.modify ConnTracker.id change mng.trackers id }

-- `false` is a tracker that could not be created.
def addConnTracker (env : MsgEnv) (mng : L7Mng φ) (id : TrackerId) : L7Mng φ × Bool :=
  if (lkupConnTracker mng id).isSome then (mng, true)
  else if env.trackerMalloc then
    ({ mng with trackers := createConnTracker id :: mng.trackers }, true)
  else (mng, false)

def delConnTracker (mng : L7Mng φ) (id : TrackerId) : L7Mng φ :=
  { mng with trackers := HashTable.del ConnTracker.id mng.trackers id }

-- The oldest tracker of a link.
def findConnTracker (mng : L7Mng φ) (id : LinkId) : Option (ConnTracker φ) :=
  mng.trackers.reverse.find? fun tracker => tracker.linkId = id

def lkupL7Link (mng : L7Mng φ) (id : LinkId) : Option L7Link :=
  HashTable.find L7Link.id mng.links id

def changeLink (change : L7Link → L7Link) (mng : L7Mng φ) (id : LinkId) : L7Mng φ :=
  { mng with links := HashTable.modify L7Link.id change mng.links id }

def L7Link.add (stat : L7Stat) (n : ℕ) (link : L7Link) : L7Link :=
  { link with stats := link.stats.add stat n }

def initL7LinkInfo (env : MsgEnv) (tgid : Int32) (tracker : ConnTracker φ) : L7Info :=
  let containerId := env.getContainerIdByPidCpuset tgid
  { comm := env.getProcComm tgid
    containerId := containerId
    podId := env.getContainerPodId containerId
    podIp := env.getPodIp containerId
    isSsl := tracker.isSsl }

def createL7Link (id : LinkId) : L7Link where
  id := id
  l7Info := ⟨[], [], [], [], false⟩
  stats := .zero
  latencyBuckets := initLatencyBuckets
  latencySum := 0

-- A new link counts its event through the NULL pointer of the lookup that failed, and
-- `survives` says whether the process goes on behind that store.
def addL7Link (survives : Bool) (env : MsgEnv) (mng : L7Mng φ) (id : LinkId)
    (tracker : ConnTracker φ) : L7Mng φ :=
  match lkupL7Link mng id with
  | some _ => changeLink (L7Link.add .openEvt 1) mng id
  | none =>
      if !env.linkMalloc then mng
      else if !survives then { mng with crashed := true }
      else
        let link := { createL7Link id with l7Info := initL7LinkInfo env id.tgid tracker }
        { mng with links := link :: mng.links }

def delL7Link (mng : L7Mng φ) (id : LinkId) : L7Mng φ :=
  match lkupL7Link mng id with
  | none => mng
  | some _ =>
      match findConnTracker mng id with
      | some _ => changeLink (L7Link.add .closeEvt 1) mng id
      | none => { mng with links := HashTable.del L7Link.id mng.links id }

def findL7Link (mng : L7Mng φ) (tracker : ConnTracker φ) : Option L7Link :=
  lkupL7Link mng tracker.linkId

structure ConnOpen where
  timestampNs : UInt64
  addr : ConnAddr
  l4Role : L4Role
  isSsl : Bool

structure ConnData where
  timestampNs : UInt64
  proto : ProtoType
  l7Role : L7Role
  direction : L7Direction
  data : List UInt8

def ConnTracker.setOpen (msg : ConnOpen) (tracker : ConnTracker φ) : ConnTracker φ :=
  { tracker with
    isSsl := msg.isSsl
    l4Role := msg.l4Role
    openTimestampNs := msg.timestampNs
    remoteAddr := msg.addr }

def procConnOpen (survives : Bool) (env : MsgEnv) (id : TrackerId) (msg : ConnOpen)
    (mng : L7Mng φ) : L7Mng φ :=
  match addConnTracker env mng id with
  | (mng, false) => mng
  | (mng, true) =>
      let mng := changeTracker (ConnTracker.setOpen msg) mng id
      match lkupConnTracker mng id with
      | none => mng
      | some tracker => addL7Link survives env mng tracker.linkId tracker

def procConnClose (id : TrackerId) (mng : L7Mng φ) : L7Mng φ :=
  match lkupConnTracker mng id with
  | none => delConnTracker mng id
  | some tracker => delConnTracker (delL7Link mng tracker.linkId) id

def countBytes (wrBytes rdBytes : ℕ) (stats : Stats) : Stats :=
  (((stats.add .bytesSent wrBytes).add .bytesRecv rdBytes).set .lastBytesSent wrBytes).set
    .lastBytesRecv rdBytes

def procConnStatsMsg (id : TrackerId) (wrBytes rdBytes : ℕ) (mng : L7Mng φ) : L7Mng φ :=
  match lkupConnTracker mng id with
  | none => mng
  | some tracker =>
      let mng := changeTracker
        (fun tracker => { tracker with stats := countBytes wrBytes rdBytes tracker.stats }) mng id
      changeLink (fun link => { link with stats := countBytes wrBytes rdBytes link.stats }) mng
        tracker.linkId

-- A chunk that is refused leaves the stream as it is.
def addRawData (env : MsgEnv) (msg : ConnData) (stream : DataStream φ) : DataStream φ :=
  if env.rawDataMalloc then (stream.dataStreamAddRawData msg.data msg.timestampNs).getD stream
  else stream

def ConnTracker.setData (env : MsgEnv) (msg : ConnData) (tracker : ConnTracker φ) :
    ConnTracker φ :=
  let tracker := { tracker with protocol := msg.proto, l7Role := msg.l7Role }
  match msg.direction with
  | .egress => { tracker with sendStream := addRawData env msg tracker.sendStream }
  | .ingress => { tracker with recvStream := addRawData env msg tracker.recvStream }
  | .unknown => tracker

def L7Link.countData (msg : ConnData) (link : L7Link) : L7Link :=
  match msg.direction with
  | .egress => link.add .dataEvtSent 1
  | .ingress => link.add .dataEvtRecv 1
  | .unknown => link

-- The link is the one found before the protocol and the role are set.
def procConnDataMsg (env : MsgEnv) (id : TrackerId) (msg : ConnData) (mng : L7Mng φ) : L7Mng φ :=
  match lkupConnTracker mng id with
  | none => mng
  | some tracker =>
      match findL7Link mng tracker with
      | none => mng
      | some _ => changeLink (L7Link.countData msg)
          (changeTracker (ConnTracker.setData env msg) mng id) tracker.linkId

inductive ConnMsg
  | connOpen (env : MsgEnv) (id : TrackerId) (msg : ConnOpen)
  | connClose (id : TrackerId)
  | connStats (id : TrackerId) (wrBytes rdBytes : ℕ)
  | connData (env : MsgEnv) (id : TrackerId) (msg : ConnData)

def procConnMsg (survives : Bool) (mng : L7Mng φ) (msg : ConnMsg) : L7Mng φ :=
  if mng.crashed then mng
  else
    match msg with
    | .connOpen env id msg => procConnOpen survives env id msg mng
    | .connClose id => procConnClose id mng
    | .connStats id wrBytes rdBytes => procConnStatsMsg id wrBytes rdBytes mng
    | .connData env id msg => procConnDataMsg env id msg mng

-- `struct record_data_s`, with the record of the protocol.
structure RecordData (ρ : Type*) where
  record : ρ
  latency : UInt64

-- What matching leaves to the tracker.
structure RecordBuf (ρ : Type*) where
  records : List (RecordData ρ)
  errCount : ℕ
  reqCount : ℕ
  respCount : ℕ

variable {ρ : Type*}

-- The loop `i < record_buf_size && i < RECORD_BUF_SIZE`.
def RecordBuf.latencies (records : RecordBuf ρ) : List UInt64 :=
  (records.records.take RECORD_BUF_SIZE).map RecordData.latency

def addCounts (records : RecordBuf ρ) (stats : Stats) : Stats :=
  ((stats.add .reqCount records.reqCount).add .rspCount records.respCount).add .errCount
    records.errCount

def ConnTracker.addRecords (records : RecordBuf ρ) (tracker : ConnTracker φ) : ConnTracker φ :=
  { tracker with
    stats := addCounts records tracker.stats
    latencySum := records.latencies.foldl (· + ·) tracker.latencySum
    latencyBuckets := histoBucketAddValues tracker.latencyBuckets records.latencies }

def L7Link.addRecords (records : RecordBuf ρ) (link : L7Link) : L7Link :=
  { link with
    stats := addCounts records link.stats
    latencySum := records.latencies.foldl (· + ·) link.latencySum
    latencyBuckets := histoBucketAddValues link.latencyBuckets records.latencies }

-- For the tracker with the given id.
def addTrackerStats (records : RecordBuf ρ) (mng : L7Mng φ) (id : TrackerId) : L7Mng φ :=
  match lkupConnTracker mng id with
  | none => mng
  | some tracker => changeLink (L7Link.addRecords records)
      (changeTracker (ConnTracker.addRecords records) mng id) tracker.linkId

def ConnTracker.resetStats (tracker : ConnTracker φ) : ConnTracker φ :=
  { tracker with
    stats := .zero
    latencySum := 0
    latencyBuckets := histoBucketReset tracker.latencyBuckets }

def L7Link.resetStats (link : L7Link) : L7Link :=
  { link with
    stats := .zero
    latencySum := 0
    latencyBuckets := histoBucketReset link.latencyBuckets }

def resetL7Stats (mng : L7Mng φ) : L7Mng φ :=
  { mng with
    trackers := mng.trackers.map ConnTracker.resetStats
    links := mng.links.map L7Link.resetStats }

end Gopher.L7
