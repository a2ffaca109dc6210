import Gopher.L7.ConnTracker
import Gopher.Lib.BpfMap
import Gopher.Lib.Run

-- The socket connections that the kernel side finds at system calls, and what it says of
-- them to the probe.

namespace Gopher.L7.ConnTable

open Lib

def MAX_CONCURRENCY : ℕ := 1000
def MAX_CONN_COUNT : ℕ := 1000
def AF_INET : UInt16 := 2
def AF_INET6 : UInt16 := 10
def EINPROGRESS : Int32 := 115
def L7PROBE_TRACING_DNS : UInt32 := 2

-- struct conn_id_s
abbrev ConnId := TrackerId

-- An address in the memory of the traced process. NULL is 0.
abbrev Ptr := UInt64

-- conn_ctx_t
structure ConnCtx where
  tgid : UInt32
  pid : UInt32
  deriving DecidableEq

-- The eight bytes of a context as a struct conn_id_s. The low half comes first.
def ConnCtx.asConnId (id : ConnCtx) : ConnId := ⟨id.pid.toInt32, id.tgid.toInt32⟩

def ConnCtx.procId (id : ConnCtx) : Int32 := id.tgid.toInt32

structure SockConn where
  id : ConnId
  isSsl : Bool
  isReported : Bool
  l4Role : L4Role
  l7Role : L7Role
  protocol : ProtoType
  remoteAddr : ConnAddr
  wrBytes : UInt64
  rdBytes : UInt64
  deriving DecidableEq

structure SysAcceptArgs where
  addr : Ptr
  newsock : Ptr

structure SysConnectArgs where
  fd : Int32
  addr : Ptr

structure SockDataArgs where
  connId : ConnId
  direct : L7Direction
  isSocketOp : Bool
  buf : Ptr
  iov : Ptr
  iovlen : UInt64
  isSsl : Bool

inductive ConnEvt
  | open (addr : ConnAddr) (l4Role : L4Role) (isSsl : Bool)
  | close (wrBytes rdBytes : UInt64)

structure ConnCtl where
  connId : ConnId
  timestampNs : UInt64
  evt : ConnEvt

structure Maps where
  connTbl : BpfMap ConnId SockConn
  l7Tcp : BpfMap ConnId Int32
  sysAcceptArgs : BpfMap ConnCtx SysAcceptArgs
  sysConnectArgs : BpfMap ConnCtx SysConnectArgs
  sockDataArgs : BpfMap ConnCtx SockDataArgs
  procObj : BpfMap UInt32 Unit
  protoFlags : UInt32
  controlEvents : List ConnCtl

-- struct sockaddr, with both readings of what is behind the family. The port is in the
-- byte order of the host.
structure Sockaddr where
  family : UInt16
  port : UInt16
  sinAddr : List UInt8
  sin6Addr : List UInt8

-- The fields of a socket and of its `sk_common`. Both ports are in the order of the host.
structure Socket where
  family : UInt16
  dport : UInt16
  num : UInt16
  daddr : List UInt8
  v6Daddr : List UInt8

-- What `sock_get_by_fd` finds.
structure Sock where
  isStream : Bool
  socket : Ptr

-- What a program finds when it runs. `reserves` is whether the ring buffer has room; an
-- event for a perf buffer always goes out.
structure Env where
  now : UInt64
  reserves : Bool
  sockaddr : Ptr → Sockaddr
  socket : Ptr → Socket
  sockGetByFd : Int32 → Option Sock

def noIp : List UInt8 := List.replicate 16 0

def lkupSockConn (maps : Maps) (id : ConnId) : Option SockConn := maps.connTbl.lookup id

def isTracingUdp (maps : Maps) : Bool := maps.protoFlags &&& L7PROBE_TRACING_DNS ≠ 0

def isTracing (maps : Maps) (id : ConnCtx) : Bool := (maps.procObj.lookup id.tgid).isSome

def getSockaddr (l4Role : L4Role) (socket : Socket) : ConnAddr where
  family := socket.family
  port :=
    match l4Role with
    | .client => socket.dport
    | .server => socket.num
    | .unknown => 0
  ip :=
    if socket.family = AF_INET then socket.daddr
    else if socket.family = AF_INET6 then socket.v6Daddr
    else noIp

-- The address of a system call. The port of a datagram is left out.
def getAddr (l4Role : L4Role) (addr : Sockaddr) : ConnAddr where
  family := addr.family
  port := if l4Role = .unknown then 0 else addr.port
  ip := if addr.family = AF_INET then addr.sinAddr else addr.sin6Addr

def initSockConn (id : ConnId) (l4Role : L4Role) (addr socket : Ptr) (env : Env) : SockConn where
  id := id
  isSsl := false
  isReported := false
  l4Role := l4Role
  l7Role := .unknown
  protocol := .unknown
  remoteAddr :=
    if addr ≠ 0 then getAddr l4Role (env.sockaddr addr)
    else if socket ≠ 0 then getSockaddr l4Role (env.socket socket)
    else ⟨0, 0, noIp⟩
  wrBytes := 0
  rdBytes := 0

-- `bpf_map_update_elem` of the table.
def setSockConn (id : ConnId) (sockConn : SockConn) (maps : Maps) : Maps :=
  { maps with connTbl := maps.connTbl.update MAX_CONN_COUNT id sockConn }

def newSockConn (id : ConnId) (l4Role : L4Role) (addr socket : Ptr) (env : Env) (maps : Maps) :
    Maps :=
  setSockConn id (initSockConn id l4Role addr socket env) maps

def sendCtl (env : Env) (id : ConnId) (evt : ConnEvt) (maps : Maps) : Maps :=
  { maps with controlEvents := maps.controlEvents ++ [⟨id, env.now, evt⟩] }

-- A socket that is not there, or whose role is not known, makes no connection.
def getSockConn (id : ConnId) (env : Env) (maps : Maps) : Maps :=
  match env.sockGetByFd id.fd with
  | none => maps
  | some sk =>
      let l4Role :=
        if !sk.isStream then some L4Role.unknown
        else
          match maps.l7Tcp.lookup id with
          | none => none
          | some value => if value < 0 then none else if value = 0 then some .client else some .server
      match l4Role with
      | none => maps
      | some l4Role => if sk.socket = 0 then maps else newSockConn id l4Role 0 sk.socket env maps

-- `id` is that of the connection at hand, if there is one.
def submitConnOpen (id : ConnId) (env : Env) (maps : Maps) : Maps :=
  match lkupSockConn maps id with
  | none => maps
  | some sockConn =>
      if sockConn.isReported then maps
      else if !env.reserves then maps
      else
        setSockConn id { sockConn with isReported := true }
          (sendCtl env sockConn.id (.open sockConn.remoteAddr sockConn.l4Role sockConn.isSsl) maps)

-- What is deleted has the key of the context.
def submitConnClose (id : ConnCtx) (fd : Int32) (env : Env) (maps : Maps) : Maps :=
  match lkupSockConn maps ⟨id.procId, fd⟩ with
  | none => maps
  | some sockConn =>
      let maps :=
        if env.reserves then sendCtl env sockConn.id (.close sockConn.wrBytes sockConn.rdBytes) maps
        else maps
      { maps with connTbl := maps.connTbl.delete id.asConnId }

-- It returns whether or not the two sides agree on `is_ssl`, before it looks at the data.
def submitSockData (_ : SockConn) (_ : SockDataArgs) (maps : Maps) : Maps := maps

-- A connection that is not there is made.
def orNew (id : ConnId) (new : Maps → Maps) (maps : Maps) : Maps :=
  if (lkupSockConn maps id).isSome then maps else new maps

section Calls

-- `security_socket_sendmsg` and `security_socket_recvmsg`
def securitySocketMsg (id : ConnCtx) (maps : Maps) : Maps :=
  match maps.sockDataArgs.lookup id with
  | none => maps
  | some args =>
      { maps with
        sockDataArgs := maps.sockDataArgs.update MAX_CONCURRENCY id { args with isSocketOp := true } }

def sockAlloc (id : ConnCtx) (rc : Ptr) (maps : Maps) : Maps :=
  match maps.sysAcceptArgs.lookup id with
  | none => maps
  | some args =>
      if args.newsock ≠ 0 then maps
      else
        { maps with
          sysAcceptArgs := maps.sysAcceptArgs.update MAX_CONCURRENCY id { args with newsock := rc } }

def kprobeConnect (id : ConnCtx) (fd : Int32) (addr : Ptr) (maps : Maps) : Maps :=
  if !isTracing maps id then maps
  else
    { maps with sysConnectArgs := maps.sysConnectArgs.update MAX_CONCURRENCY id ⟨fd, addr⟩ }

def kretprobeConnect (id : ConnCtx) (ret : Int32) (env : Env) (maps : Maps) : Maps :=
  let maps :=
    match maps.sysConnectArgs.lookup id with
    | none => maps
    | some args =>
        if args.fd < 0 then maps
        else if ret < 0 ∧ ret ≠ -EINPROGRESS then maps
        else
          let connId : ConnId := ⟨id.procId, args.fd⟩
          submitConnOpen connId env (orNew connId (newSockConn connId .client args.addr 0 env) maps)
  { maps with sysConnectArgs := maps.sysConnectArgs.delete id }

-- `accept` and `accept4`
def kprobeAccept (id : ConnCtx) (addr : Ptr) (maps : Maps) : Maps :=
  if !isTracing maps id then maps
  else { maps with sysAcceptArgs := maps.sysAcceptArgs.update MAX_CONCURRENCY id ⟨addr, 0⟩ }

-- Only `accept4` hands on the socket that was made for it.
def kretprobeAcceptWith (newsock : SysAcceptArgs → Ptr) (id : ConnCtx) (newFd : Int32) (env : Env)
    (maps : Maps) : Maps :=
  let maps :=
    match maps.sysAcceptArgs.lookup id with
    | none => maps
    | some args =>
        if args.addr = 0 then maps
        else if newFd < 0 then maps
        else
          let connId : ConnId := ⟨id.procId, newFd⟩
          submitConnOpen connId env
            (orNew connId (newSockConn connId .server args.addr (newsock args) env) maps)
  { maps with sysAcceptArgs := maps.sysAcceptArgs.delete id }

def kretprobeAccept (id : ConnCtx) (newFd : Int32) (env : Env) (maps : Maps) : Maps :=
  kretprobeAcceptWith (fun _ => 0) id newFd env maps

def kretprobeAccept4 (id : ConnCtx) (newFd : Int32) (env : Env) (maps : Maps) : Maps :=
  kretprobeAcceptWith SysAcceptArgs.newsock id newFd env maps

-- `send`, `write`, `recv` and `read`
def kprobeData (direct : L7Direction) (id : ConnCtx) (fd : Int32) (buf : Ptr) (maps : Maps) :
    Maps :=
  if !isTracing maps id then maps
  else
    let args : SockDataArgs :=
      { connId := ⟨id.procId, fd⟩, direct, isSocketOp := false, buf, iov := 0, iovlen := 0
        isSsl := false }
    { maps with sockDataArgs := maps.sockDataArgs.update MAX_CONCURRENCY id args }

def kprobeSend := kprobeData .egress
def kprobeWrite := kprobeData .egress
def kprobeRecv := kprobeData .ingress
def kprobeRead := kprobeData .ingress

-- What a program does with the connection of its arguments, once it has one.
def withSockConn (connId : ConnId) (args : SockDataArgs) (maps : Maps) : Maps :=
  match lkupSockConn maps connId with
  | none => maps
  | some sockConn => submitSockData sockConn args maps

-- `write` and `read` are looked at if they went through a socket.
def kretprobeDataIf (looksAt : SockDataArgs → Bool) (id : ConnCtx) (bytesCount : Int64) (env : Env)
    (maps : Maps) : Maps :=
  let maps :=
    match maps.sockDataArgs.lookup id with
    | none => maps
    | some args =>
        if !looksAt args then maps
        else if bytesCount ≤ 0 then maps
        else
          withSockConn args.connId args
            (orNew args.connId
              (fun maps => submitConnOpen args.connId env (getSockConn args.connId env maps)) maps)
  { maps with sockDataArgs := maps.sockDataArgs.delete id }

def kretprobeSend := kretprobeDataIf fun _ => true
def kretprobeRecv := kretprobeDataIf fun _ => true
def kretprobeWrite := kretprobeDataIf SockDataArgs.isSocketOp
def kretprobeRead := kretprobeDataIf SockDataArgs.isSocketOp

-- The address of a datagram and the data of a call. `remembers` is the test for the first.
def kprobeMsg (remembers : Bool) (fd : Int32) (addr : Ptr) (args : SockDataArgs) (id : ConnCtx)
    (maps : Maps) : Maps :=
  let maps :=
    if isTracingUdp maps && remembers then
      { maps with sysConnectArgs := maps.sysConnectArgs.update MAX_CONCURRENCY id ⟨fd, addr⟩ }
    else maps
  { maps with sockDataArgs := maps.sockDataArgs.update MAX_CONCURRENCY id args }

def bufArgs (id : ConnCtx) (fd : Int32) (buf : Ptr) : SockDataArgs :=
  { connId := ⟨id.procId, fd⟩, direct := .egress, isSocketOp := false, buf, iov := 0, iovlen := 0
    isSsl := false }

def iovArgs (direct : L7Direction) (id : ConnCtx) (fd : Int32) (iov : Ptr) (iovlen : UInt64) :
    SockDataArgs :=
  { connId := ⟨id.procId, fd⟩, direct, isSocketOp := false, buf := 0, iov, iovlen, isSsl := false }

def kprobeSendto (id : ConnCtx) (sockfd : Int32) (buf destAddr : Ptr) (maps : Maps) : Maps :=
  if !isTracing maps id then maps
  else if buf = 0 ∨ sockfd < 0 then maps
  else kprobeMsg (destAddr ≠ 0 && sockfd > 0) sockfd destAddr (bufArgs id sockfd buf) id maps

def kprobeRecvfrom (id : ConnCtx) (sockfd : Int32) (buf srcAddr : Ptr) (maps : Maps) : Maps :=
  if !isTracing maps id then maps
  else if buf = 0 ∨ sockfd < 0 then maps
  else kprobeMsg (srcAddr ≠ 0) sockfd srcAddr (bufArgs id sockfd buf) id maps

-- `sendmsg` and `recvmsg`
def kprobeMsghdr (direct : L7Direction) (id : ConnCtx) (fd : Int32) (msgName iov : Ptr)
    (iovlen : UInt64) (maps : Maps) : Maps :=
  if !isTracing maps id then maps
  else kprobeMsg (msgName ≠ 0) fd msgName (iovArgs direct id fd iov iovlen) id maps

-- `sendto`, `recvfrom`, `sendmsg` and `recvmsg`. A datagram has its address from the call.
def kretprobeMsg (id : ConnCtx) (bytesCount : Int64) (env : Env) (maps : Maps) : Maps :=
  let udp :=
    if isTracingUdp maps && bytesCount > 0 then maps.sysConnectArgs.lookup id else none
  let data := if bytesCount > 0 then maps.sockDataArgs.lookup id else none
  let maps :=
    match udp, data with
    | some args, data =>
        let connId : ConnId := ⟨id.procId, args.fd⟩
        let maps := submitConnOpen connId env
          (orNew connId (newSockConn connId .unknown args.addr 0 env) maps)
        match data with
        | none => maps
        | some dataArgs => withSockConn connId dataArgs maps
    | none, some dataArgs =>
        let connId : ConnId := ⟨id.procId, dataArgs.connId.fd⟩
        withSockConn connId dataArgs
          (submitConnOpen connId env (orNew connId (getSockConn connId env) maps))
    | none, none => maps
  { maps with
    sysConnectArgs := maps.sysConnectArgs.delete id
    sockDataArgs := maps.sockDataArgs.delete id }

def kprobeClose (id : ConnCtx) (fd : Int32) (env : Env) (maps : Maps) : Maps :=
  if !isTracing maps id then maps
  else if fd < 0 then maps
  else submitConnClose id fd env maps

-- `SSL_read` and `SSL_write` of the traced library mark a connection that is there.
def setSockConnSsl (id : ConnId) (maps : Maps) : Maps :=
  match lkupSockConn maps id with
  | none => maps
  | some sockConn => setSockConn id { sockConn with isSsl := true } maps

end Calls

inductive Event
  | securitySocketMsg (id : ConnCtx)
  | sockAlloc (id : ConnCtx) (rc : Ptr)
  | kprobeConnect (id : ConnCtx) (fd : Int32) (addr : Ptr)
  | kretprobeConnect (id : ConnCtx) (ret : Int32) (env : Env)
  | kprobeAccept (id : ConnCtx) (addr : Ptr)
  | kretprobeAccept (id : ConnCtx) (newFd : Int32) (env : Env)
  | kretprobeAccept4 (id : ConnCtx) (newFd : Int32) (env : Env)
  | kprobeSend (id : ConnCtx) (fd : Int32) (buf : Ptr)
  | kretprobeSend (id : ConnCtx) (bytesCount : Int64) (env : Env)
  | kprobeWrite (id : ConnCtx) (fd : Int32) (buf : Ptr)
  | kretprobeWrite (id : ConnCtx) (bytesCount : Int64) (env : Env)
  | kprobeRecv (id : ConnCtx) (fd : Int32) (buf : Ptr)
  | kretprobeRecv (id : ConnCtx) (bytesCount : Int64) (env : Env)
  | kprobeRead (id : ConnCtx) (fd : Int32) (buf : Ptr)
  | kretprobeRead (id : ConnCtx) (bytesCount : Int64) (env : Env)
  | kprobeSendto (id : ConnCtx) (sockfd : Int32) (buf destAddr : Ptr)
  | kprobeRecvfrom (id : ConnCtx) (sockfd : Int32) (buf srcAddr : Ptr)
  | kprobeMsghdr (direct : L7Direction) (id : ConnCtx) (fd : Int32) (msgName iov : Ptr)
      (iovlen : UInt64)
  | kretprobeMsg (id : ConnCtx) (bytesCount : Int64) (env : Env)
  | kprobeClose (id : ConnCtx) (fd : Int32) (env : Env)
  | setSockConnSsl (id : ConnId)
  -- The probe chooses the processes and the protocols, and enters the TCP sockets it finds.
  | configure (procObj : BpfMap UInt32 Unit) (protoFlags : UInt32) (l7Tcp : BpfMap ConnId Int32)

def run (maps : Maps) : Event → Maps
  | .securitySocketMsg id => securitySocketMsg id maps
  | .sockAlloc id rc => sockAlloc id rc maps
  | .kprobeConnect id fd addr => kprobeConnect id fd addr maps
  | .kretprobeConnect id ret env => kretprobeConnect id ret env maps
  | .kprobeAccept id addr => kprobeAccept id addr maps
  | .kretprobeAccept id newFd env => kretprobeAccept id newFd env maps
  | .kretprobeAccept4 id newFd env => kretprobeAccept4 id newFd env maps
  | .kprobeSend id fd buf => kprobeSend id fd buf maps
  | .kretprobeSend id bytesCount env => kretprobeSend id bytesCount env maps
  | .kprobeWrite id fd buf => kprobeWrite id fd buf maps
  | .kretprobeWrite id bytesCount env => kretprobeWrite id bytesCount env maps
  | .kprobeRecv id fd buf => kprobeRecv id fd buf maps
  | .kretprobeRecv id bytesCount env => kretprobeRecv id bytesCount env maps
  | .kprobeRead id fd buf => kprobeRead id fd buf maps
  | .kretprobeRead id bytesCount env => kretprobeRead id bytesCount env maps
  | .kprobeSendto id sockfd buf destAddr => kprobeSendto id sockfd buf destAddr maps
  | .kprobeRecvfrom id sockfd buf srcAddr => kprobeRecvfrom id sockfd buf srcAddr maps
  | .kprobeMsghdr direct id fd msgName iov iovlen =>
      kprobeMsghdr direct id fd msgName iov iovlen maps
  | .kretprobeMsg id bytesCount env => kretprobeMsg id bytesCount env maps
  | .kprobeClose id fd env => kprobeClose id fd env maps
  | .setSockConnSsl id => setSockConnSsl id maps
  | .configure procObj protoFlags l7Tcp => { maps with procObj, protoFlags, l7Tcp }

def Maps.initial : Maps :=
  { connTbl := [], l7Tcp := [], sysAcceptArgs := [], sysConnectArgs := [], sockDataArgs := []
    procObj := [], protoFlags := 0, controlEvents := [] }

section Announcing

def ConnCtl.isOpen (id : ConnId) (ctl : ConnCtl) : Bool :=
  match ctl.evt with
  | .open _ _ _ => ctl.connId = id
  | .close _ _ => false

-- How often the connection was announced.
def opens (id : ConnId) (maps : Maps) : ℕ := maps.controlEvents.countP (ConnCtl.isOpen id)

-- The connection is in the table as an announced one.
def Reported (id : ConnId) (maps : Maps) : Prop :=
  ∃ sockConn ∈ lkupSockConn maps id, sockConn.isReported = true

instance (id : ConnId) (maps : Maps) : Decidable (Reported id maps) :=
  inferInstanceAs (Decidable (∃ sockConn ∈ maps.connTbl.lookup id, sockConn.isReported = true))

-- The times the connection was announced, with the one that may still come.
def budget (id : ConnId) (maps : Maps) : ℕ := opens id maps + if Reported id maps then 0 else 1

-- A close whose context has the bytes of the connection's id.
def Event.erases (id : ConnId) : Event → Bool
  | .kprobeClose ctx _ _ => ctx.asConnId = id
  | _ => false

structure Table (maps : Maps) : Prop where
  valid : maps.connTbl.Valid MAX_CONN_COUNT
  labelled : ∀ id, ∀ sockConn ∈ lkupSockConn maps id, sockConn.id = id

-- The connection is not announced more often than it may be.
structure Keeps (id : ConnId) (before after : Maps) : Prop where
  table : Table after
  budget_le : budget id after ≤ budget id before

variable {id : ConnId} {maps : Maps} {env : Env}

theorem Keeps.refl (h : Table maps) : Keeps id maps maps := ⟨h, le_rfl⟩

theorem Keeps.trans {before middle after : Maps} (hfirst : Keeps id before middle)
    (hnext : Table middle → Keeps id middle after) : Keeps id before after :=
  ⟨(hnext hfirst.table).table, (hnext hfirst.table).budget_le.trans hfirst.budget_le⟩

-- The other maps do not matter.
theorem Keeps.of_eq {after : Maps} (h : Table maps) (htbl : after.connTbl = maps.connTbl)
    (hevents : after.controlEvents = maps.controlEvents) : Keeps id maps after := by
  have hlookup (other : ConnId) : lkupSockConn after other = lkupSockConn maps other := by
    simp only [lkupSockConn, htbl]
  have hreported : Reported id after ↔ Reported id maps := by simp only [Reported, hlookup]
  refine ⟨⟨htbl ▸ h.valid, fun other sockConn hfound => ?_⟩, ?_⟩
  · rw [hlookup] at hfound
    exact h.labelled other sockConn hfound
  · simp only [budget, opens, hevents, hreported, le_refl]

variable {other : ConnId} {sockConn : SockConn}

theorem lkupSockConn_setSockConn (hfits : maps.connTbl.Fits MAX_CONN_COUNT other) (key : ConnId) :
    lkupSockConn (setSockConn other sockConn maps) key =
      if key = other then some sockConn else lkupSockConn maps key :=
  BpfMap.lookup_update hfits

theorem Table.setSockConn (h : Table maps) (hlabel : sockConn.id = other) :
    Table (setSockConn other sockConn maps) := by
  refine ⟨h.valid.update, fun key found hfound => ?_⟩
  by_cases hfits : maps.connTbl.Fits MAX_CONN_COUNT other
  · rw [lkupSockConn_setSockConn hfits] at hfound
    split_ifs at hfound with hkey
    · cases hfound
      rw [hlabel, hkey]
    · exact h.labelled key found hfound
  · have hsame : maps.connTbl.update MAX_CONN_COUNT other sockConn = maps.connTbl :=
      BpfMap.update_of_not_fits hfits
    rw [lkupSockConn, ConnTable.setSockConn, hsame] at hfound
    exact h.labelled key found hfound

theorem reported_setSockConn (hfits : maps.connTbl.Fits MAX_CONN_COUNT other) :
    Reported id (setSockConn other sockConn maps) ↔
      if id = other then sockConn.isReported = true else Reported id maps := by
  rw [Reported, lkupSockConn_setSockConn hfits]
  split_ifs
  · simp
  · rfl

-- A new connection takes a key that is free.
theorem Keeps.newSockConn (h : Table maps) {l4Role : L4Role} {addr socket : Ptr}
    (hfree : lkupSockConn maps other = none) :
    Keeps id maps (newSockConn other l4Role addr socket env maps) := by
  refine ⟨h.setSockConn rfl, ?_⟩
  by_cases hfits : maps.connTbl.Fits MAX_CONN_COUNT other
  · have hreported : Reported id (ConnTable.newSockConn other l4Role addr socket env maps) ↔
        Reported id maps := by
      rw [ConnTable.newSockConn, reported_setSockConn hfits]
      split_ifs with hid
      · simp [Reported, hid, hfree, initSockConn]
      · rfl
    simp only [budget, hreported]
    exact le_rfl
  · have hsame : (ConnTable.newSockConn other l4Role addr socket env maps).connTbl = maps.connTbl :=
      BpfMap.update_of_not_fits hfits
    exact (Keeps.of_eq h hsame rfl).budget_le

theorem opens_setSockConn : opens id (setSockConn other sockConn maps) = opens id maps := rfl

variable (id maps env) in
theorem opens_sendCtl (key : ConnId) (evt : ConnEvt) :
    opens id (sendCtl env key evt maps) =
      opens id maps + if ConnCtl.isOpen id ⟨key, env.now, evt⟩ then 1 else 0 := by
  rw [opens, sendCtl, List.countP_append, List.countP_singleton]
  rfl

-- An announcement uses the budget up.
theorem budget_announce (h : Table maps) (hfound : lkupSockConn maps other = some sockConn)
    (hnew : sockConn.isReported = false) (addr : ConnAddr) (l4Role : L4Role) (isSsl : Bool) :
    budget id (setSockConn other { sockConn with isReported := true }
      (sendCtl env sockConn.id (.open addr l4Role isSsl) maps)) = budget id maps := by
  obtain rfl : sockConn.id = other := h.labelled other sockConn hfound
  have hfits : (sendCtl env sockConn.id (.open addr l4Role isSsl) maps).connTbl.Fits
      MAX_CONN_COUNT sockConn.id := .inl (Option.isSome_iff_exists.mpr ⟨sockConn, hfound⟩)
  have hopens := opens_sendCtl id maps env sockConn.id
    (.open addr l4Role isSsl)
  simp only [budget, opens_setSockConn, hopens, reported_setSockConn hfits, ConnCtl.isOpen,
    decide_eq_true_eq]
  by_cases hid : id = sockConn.id
  · have hbefore : ¬ Reported sockConn.id maps := by simp [Reported, hfound, hnew]
    simp [hid, hbefore]
  · have hsame : Reported id (sendCtl env sockConn.id (.open addr l4Role isSsl) maps) ↔
        Reported id maps := .rfl
    simp only [if_neg hid, if_neg (Ne.symm hid), hsame, Nat.add_zero]

theorem Keeps.submitConnOpen (h : Table maps) : Keeps id maps (submitConnOpen other env maps) := by
  rw [ConnTable.submitConnOpen]
  cases hfound : lkupSockConn maps other with
  | none => exact .refl h
  | some sockConn =>
      dsimp only
      split_ifs with hreported hreserves
      · exact .refl h
      · exact .refl h
      · have hlabel := h.labelled other sockConn hfound
        have hsent : Table (sendCtl env sockConn.id
            (.open sockConn.remoteAddr sockConn.l4Role sockConn.isSsl) maps) :=
          ⟨h.valid, h.labelled⟩
        exact ⟨hsent.setSockConn hlabel,
          (budget_announce h hfound (eq_false_of_ne_true hreported) _ _ _).le⟩

theorem Keeps.setSockConnSsl (h : Table maps) : Keeps id maps (setSockConnSsl other maps) := by
  rw [ConnTable.setSockConnSsl]
  cases hfound : lkupSockConn maps other with
  | none => exact .refl h
  | some sockConn =>
      have hfits : maps.connTbl.Fits MAX_CONN_COUNT other :=
        .inl (Option.isSome_iff_exists.mpr ⟨sockConn, hfound⟩)
      refine ⟨h.setSockConn (h.labelled other sockConn hfound), ?_⟩
      have hreported : Reported id (setSockConn other { sockConn with isSsl := true } maps) ↔
          Reported id maps := by
        rw [reported_setSockConn hfits]
        split_ifs with hid
        · simp [Reported, hid, hfound]
        · rfl
      simp only [budget, opens_setSockConn, hreported, le_refl]

theorem Keeps.orNew {new : Maps → Maps} (h : Table maps)
    (hnew : lkupSockConn maps other = none → Keeps id maps (new maps)) :
    Keeps id maps (orNew other new maps) := by
  rw [ConnTable.orNew]
  split_ifs with hfound
  · exact .refl h
  · exact hnew (by simpa using hfound)

theorem Keeps.getSockConn (h : Table maps) (hfree : lkupSockConn maps other = none) :
    Keeps id maps (getSockConn other env maps) := by
  rw [ConnTable.getSockConn]
  split
  · exact .refl h
  · dsimp only
    split
    · exact .refl h
    · split_ifs
      · exact .refl h
      · exact .newSockConn h hfree

theorem withSockConn_eq (args : SockDataArgs) : withSockConn other args maps = maps := by
  rw [withSockConn]
  cases lkupSockConn maps other <;> rfl

theorem Keeps.kretprobeConnect (h : Table maps) {ctx : ConnCtx} {ret : Int32} :
    Keeps id maps (kretprobeConnect ctx ret env maps) := by
  rw [ConnTable.kretprobeConnect]
  refine Keeps.trans (?_ : Keeps id maps (match maps.sysConnectArgs.lookup ctx with
    | none => maps
    | some args => _)) fun htable => .of_eq htable rfl rfl
  cases maps.sysConnectArgs.lookup ctx with
  | none => exact .refl h
  | some args =>
      dsimp only
      split_ifs
      · exact .refl h
      · exact .refl h
      · exact (Keeps.orNew h fun hfree => .newSockConn h hfree).trans .submitConnOpen

theorem Keeps.kretprobeAcceptWith (h : Table maps) {newsock : SysAcceptArgs → Ptr} {ctx : ConnCtx}
    {newFd : Int32} : Keeps id maps (kretprobeAcceptWith newsock ctx newFd env maps) := by
  rw [ConnTable.kretprobeAcceptWith]
  refine Keeps.trans (?_ : Keeps id maps (match maps.sysAcceptArgs.lookup ctx with
    | none => maps
    | some args => _)) fun htable => .of_eq htable rfl rfl
  cases maps.sysAcceptArgs.lookup ctx with
  | none => exact .refl h
  | some args =>
      dsimp only
      split_ifs
      · exact .refl h
      · exact .refl h
      · exact (Keeps.orNew h fun hfree => .newSockConn h hfree).trans .submitConnOpen

theorem Keeps.kretprobeDataIf (h : Table maps) {looksAt : SockDataArgs → Bool} {ctx : ConnCtx}
    {bytesCount : Int64} : Keeps id maps (kretprobeDataIf looksAt ctx bytesCount env maps) := by
  rw [ConnTable.kretprobeDataIf]
  refine Keeps.trans (?_ : Keeps id maps (match maps.sockDataArgs.lookup ctx with
    | none => maps
    | some args => _)) fun htable => .of_eq htable rfl rfl
  cases maps.sockDataArgs.lookup ctx with
  | none => exact .refl h
  | some args =>
      dsimp only
      split_ifs
      · exact .refl h
      · exact .refl h
      · rw [withSockConn_eq]
        exact .orNew h fun hfree => (Keeps.getSockConn h hfree).trans .submitConnOpen

theorem Keeps.kretprobeMsg (h : Table maps) {ctx : ConnCtx} {bytesCount : Int64} :
    Keeps id maps (kretprobeMsg ctx bytesCount env maps) := by
  rw [ConnTable.kretprobeMsg]
  dsimp only
  split
  case h_1 args _ =>
      have hopened : Keeps id maps (ConnTable.submitConnOpen ⟨ctx.procId, args.fd⟩ env
          (ConnTable.orNew ⟨ctx.procId, args.fd⟩
            (ConnTable.newSockConn ⟨ctx.procId, args.fd⟩ .unknown args.addr 0 env) maps)) :=
        (Keeps.orNew h fun hfree => .newSockConn h hfree).trans .submitConnOpen
      refine hopened.trans fun htable => ?_
      split
      · exact .of_eq htable rfl rfl
      · rw [withSockConn_eq]
        exact .of_eq htable rfl rfl
  case h_2 dataArgs _ _ =>
      rw [withSockConn_eq]
      have hopened : Keeps id maps (ConnTable.submitConnOpen ⟨ctx.procId, dataArgs.connId.fd⟩ env
          (ConnTable.orNew ⟨ctx.procId, dataArgs.connId.fd⟩
            (ConnTable.getSockConn ⟨ctx.procId, dataArgs.connId.fd⟩ env) maps)) :=
        (Keeps.orNew h fun hfree => .getSockConn h hfree).trans .submitConnOpen
      exact hopened.trans fun htable => .of_eq htable rfl rfl
  case h_3 => exact .of_eq h rfl rfl

-- Programs that only write down arguments.
theorem Keeps.kprobeMsg (h : Table maps) {remembers : Bool} {fd : Int32} {addr : Ptr}
    {args : SockDataArgs} {ctx : ConnCtx} :
    Keeps id maps (kprobeMsg remembers fd addr args ctx maps) := by
  rw [ConnTable.kprobeMsg]
  split_ifs <;> exact .of_eq h rfl rfl

theorem Keeps.kprobeData (h : Table maps) {direct : L7Direction} {ctx : ConnCtx} {fd : Int32}
    {buf : Ptr} : Keeps id maps (kprobeData direct ctx fd buf maps) := by
  rw [ConnTable.kprobeData]
  split_ifs <;> exact .of_eq h rfl rfl

theorem Table.delete (h : Table maps) (key : ConnId) :
    Table { maps with connTbl := maps.connTbl.delete key } := by
  refine ⟨h.valid.delete, fun other sockConn hfound => ?_⟩
  change sockConn ∈ (maps.connTbl.delete key).lookup other at hfound
  rw [BpfMap.lookup_delete h.valid.nodup] at hfound
  split_ifs at hfound
  · cases hfound
  · exact h.labelled other sockConn hfound

-- A deletion may give back what one announcement used.
variable (id) in
theorem budget_delete (h : Table maps) (key : ConnId) :
    budget id { maps with connTbl := maps.connTbl.delete key } ≤
      budget id maps + if key = id then 1 else 0 := by
  have hopens : opens id { maps with connTbl := maps.connTbl.delete key } = opens id maps := rfl
  have hreported : Reported id { maps with connTbl := maps.connTbl.delete key } ↔
      id ≠ key ∧ Reported id maps := by
    rw [Reported, lkupSockConn, BpfMap.lookup_delete h.valid.nodup]
    split_ifs with hid
    · simp [hid]
    · exact ⟨fun hfound => ⟨hid, hfound⟩, And.right⟩
  simp only [budget, hopens, hreported]
  by_cases hid : id = key
  · rw [if_pos hid.symm, if_neg (by simp [hid])]
    split_ifs <;> omega
  · simp [hid, Ne.symm hid]

theorem budget_sendClose (key : ConnId) (wrBytes rdBytes : UInt64) :
    budget id (sendCtl env key (.close wrBytes rdBytes) maps) = budget id maps := by
  have hopens := opens_sendCtl id maps env key (.close wrBytes rdBytes)
  have hreported : Reported id (sendCtl env key (.close wrBytes rdBytes) maps) ↔
      Reported id maps := .rfl
  simp only [budget, hopens, hreported, ConnCtl.isOpen]
  rfl

variable (id env) in
theorem table_submitConnClose (h : Table maps) (ctx : ConnCtx) (fd : Int32) :
    Table (submitConnClose ctx fd env maps) ∧
      budget id (submitConnClose ctx fd env maps) ≤
        budget id maps + if ctx.asConnId = id then 1 else 0 := by
  rw [submitConnClose]
  cases lkupSockConn maps ⟨ctx.procId, fd⟩ with
  | none => exact ⟨h, Nat.le_add_right _ _⟩
  | some sockConn =>
      dsimp only
      by_cases hreserves : env.reserves = true
      · rw [if_pos hreserves]
        have hsent : Table
            (sendCtl env sockConn.id (.close sockConn.wrBytes sockConn.rdBytes) maps) :=
          ⟨h.valid, h.labelled⟩
        have hbudget := budget_delete id hsent ctx.asConnId
        rw [budget_sendClose] at hbudget
        exact ⟨hsent.delete _, hbudget⟩
      · rw [if_neg hreserves]
        exact ⟨h.delete _, budget_delete id h _⟩

theorem Keeps.run (h : Table maps) {event : Event} (hkeeps : event.erases id = false) :
    Keeps id maps (run maps event) := by
  cases event with
  | securitySocketMsg ctx =>
      rw [ConnTable.run, securitySocketMsg]
      split <;> exact .of_eq h rfl rfl
  | sockAlloc ctx rc =>
      rw [ConnTable.run, sockAlloc]
      split
      · exact .refl h
      · split_ifs <;> exact .of_eq h rfl rfl
  | kprobeConnect ctx fd addr =>
      rw [ConnTable.run, kprobeConnect]
      split_ifs <;> exact .of_eq h rfl rfl
  | kretprobeConnect ctx ret env => exact .kretprobeConnect h
  | kprobeAccept ctx addr =>
      rw [ConnTable.run, kprobeAccept]
      split_ifs <;> exact .of_eq h rfl rfl
  | kretprobeAccept ctx newFd env => exact .kretprobeAcceptWith h
  | kretprobeAccept4 ctx newFd env => exact .kretprobeAcceptWith h
  | kprobeSend ctx fd buf => exact .kprobeData h
  | kretprobeSend ctx bytesCount env => exact .kretprobeDataIf h
  | kprobeWrite ctx fd buf => exact .kprobeData h
  | kretprobeWrite ctx bytesCount env => exact .kretprobeDataIf h
  | kprobeRecv ctx fd buf => exact .kprobeData h
  | kretprobeRecv ctx bytesCount env => exact .kretprobeDataIf h
  | kprobeRead ctx fd buf => exact .kprobeData h
  | kretprobeRead ctx bytesCount env => exact .kretprobeDataIf h
  | kprobeSendto ctx sockfd buf destAddr =>
      rw [ConnTable.run, kprobeSendto]
      split_ifs
      · exact .refl h
      · exact .refl h
      · exact .kprobeMsg h
  | kprobeRecvfrom ctx sockfd buf srcAddr =>
      rw [ConnTable.run, kprobeRecvfrom]
      split_ifs
      · exact .refl h
      · exact .refl h
      · exact .kprobeMsg h
  | kprobeMsghdr direct ctx fd msgName iov iovlen =>
      rw [ConnTable.run, kprobeMsghdr]
      split_ifs
      · exact .refl h
      · exact .kprobeMsg h
  | kretprobeMsg ctx bytesCount env => exact .kretprobeMsg h
  | kprobeClose ctx fd env =>
      rw [ConnTable.run, kprobeClose]
      split_ifs
      · exact .refl h
      · exact .refl h
      · obtain ⟨htable, hbudget⟩ := table_submitConnClose id env h ctx fd
        rw [if_neg (by simpa [Event.erases] using hkeeps)] at hbudget
        exact ⟨htable, hbudget⟩
  | setSockConnSsl other => exact .setSockConnSsl h
  | configure procObj protoFlags l7Tcp => exact .of_eq h rfl rfl

end Announcing

end Gopher.L7.ConnTable
