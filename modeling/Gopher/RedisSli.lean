import Gopher.Lib.Text
import Mathlib.Data.Int.Notation
import Mathlib.Data.Nat.Notation

namespace Gopher.RedisSli

open Lib

def MAX_REDIS_CMD_LEN : ℕ := 24

-- __PERIOD, in nanoseconds.
def defaultPeriod : UInt64 := 30 * 1000000000

structure ConnKey where
  tgid : ℤ
  fd : ℤ
  deriving DecidableEq

-- struct conn_id_t
structure ConnId where
  key : ConnKey
  tsNsec : UInt64
  deriving DecidableEq

-- enum reply_store_t
inductive ReplyStore
  | noStorage
  | staticBuffer
  | dynamicList
  deriving DecidableEq

-- struct redis_cmd_data_t. `wrPos` is the union of `wr_bufpos` and `wr_listpos`.
structure RedisCmdData where
  name : Text
  startTsNsec : UInt64
  endTsNsec : UInt64
  hasReply : Bool
  storeType : ReplyStore
  wrPos : UInt64
  finished : Bool
  deriving DecidableEq

-- struct conn_data_t. `cmd` is the one entry of `cmds`.
structure ConnData where
  id : ConnId
  lastReadTsNsec : UInt64
  lastSmpTsNsec : UInt64
  rdBufsize : UInt64
  rdListsize : UInt64
  curBufpos : UInt64
  curListpos : UInt64
  cmdNums : ℕ
  cmd : RedisCmdData
  deriving DecidableEq

structure CmdEventData where
  connId : ConnId
  name : Text
  timeoutNsec : UInt64
  deriving DecidableEq

-- What the probes read of the client: `bufpos`, which is never negative, and `reply_bytes`.
structure Client where
  bufpos : UInt64
  replyBytes : UInt64
  deriving DecidableEq

-- One connection: its entry in `conn_map`, and whether the probes at the entries of the
-- two functions have stashed a call of it.
structure Conn where
  connData : Option ConnData
  processCommandStash : Bool
  writeToClientStash : Bool
  deriving DecidableEq

-- The clock is read twice more for a connection that is created.
def createConnFromClient (key : ConnKey) (idTsNsec smpTsNsec : UInt64) : ConnData :=
  { id := { key, tsNsec := idTsNsec }
    lastReadTsNsec := 0
    lastSmpTsNsec := smpTsNsec
    rdBufsize := 0
    rdListsize := 0
    curBufpos := 0
    curListpos := 0
    cmdNums := 0
    cmd :=
      { name := [], startTsNsec := 0, endTsNsec := 0, hasReply := false
        storeType := .noStorage, wrPos := 0, finished := false } }

-- `value` is what is in `period_map`.
def getPeriod (value : Option UInt64) : UInt64 := value.getD defaultPeriod

def recordRead (tsNsec : UInt64) (connData : ConnData) : ConnData :=
  if 0 < connData.cmdNums then connData
  else { connData with lastReadTsNsec := tsNsec, rdBufsize := 0, rdListsize := 0 }

-- `created` is the connection that is created when there is none, if `conn_map` has room.
def readQueryFromClient (tsNsec : UInt64) (created : Option ConnData) (conn : Conn) : Conn :=
  { conn with connData := (conn.connData <|> created).map (recordRead tsNsec) }

-- A new command in the slot. What is known of its reply is set at the return.
def sampleCommand (name : Text) (client : Client) (connData : ConnData) : ConnData :=
  { connData with
    cmd :=
      { connData.cmd with
        name := name.take (MAX_REDIS_CMD_LEN - 1)
        startTsNsec := connData.lastReadTsNsec
        finished := false }
    cmdNums := 1
    curBufpos := client.bufpos
    curListpos := client.replyBytes }

def processCommand (name : Text) (client : Client) (conn : Conn) : Conn :=
  match conn.connData with
  | none => conn
  | some connData =>
      if 0 < connData.cmdNums then conn
      else
        { conn with
          connData := some (sampleCommand name client connData), processCommandStash := true }

def recordReply (tsNsec : UInt64) (client : Client) (connData : ConnData) : ConnData :=
  if connData.curBufpos < client.bufpos then
    { connData with
      cmd :=
        { connData.cmd with hasReply := true, storeType := .staticBuffer, wrPos := client.bufpos } }
  else if connData.curListpos < client.replyBytes then
    { connData with
      cmd :=
        { connData.cmd with
          hasReply := true, storeType := .dynamicList, wrPos := client.replyBytes } }
  else
    { connData with
      cmd :=
        { connData.cmd with
          hasReply := false, storeType := .noStorage, endTsNsec := tsNsec, finished := true } }

def processCommandReturn (tsNsec : UInt64) (client : Client) (conn : Conn) : Conn :=
  if conn.processCommandStash then
    { conn with
      connData := conn.connData.map (recordReply tsNsec client), processCommandStash := false }
  else conn

def writeToClient (client : Client) (conn : Conn) : Conn :=
  match conn.connData with
  | none => conn
  | some connData =>
      { conn with
        connData := some
          { connData with curBufpos := client.bufpos, curListpos := client.replyBytes }
        writeToClientStash := true }

def submitConnCmdEvent (connData : ConnData) : CmdEventData :=
  { connId := connData.id
    name := connData.cmd.name
    timeoutNsec := connData.cmd.endTsNsec - connData.cmd.startTsNsec }

def recordDrained (client : Client) (connData : ConnData) : ConnData :=
  { connData with
    rdBufsize :=
      if client.bufpos < connData.curBufpos then
        connData.rdBufsize + (connData.curBufpos - client.bufpos)
      else connData.rdBufsize
    rdListsize :=
      if client.replyBytes < connData.curListpos then
        connData.rdListsize + (connData.curListpos - client.replyBytes)
      else connData.rdListsize }

-- The reply has left the storage it is in.
def ReplySent (connData : ConnData) : Prop :=
  connData.cmd.storeType = .staticBuffer ∧ connData.cmd.wrPos ≤ connData.rdBufsize ∨
    connData.cmd.storeType = .dynamicList ∧ connData.cmd.wrPos ≤ connData.rdListsize

instance (connData : ConnData) : Decidable (ReplySent connData) :=
  inferInstanceAs (Decidable (_ ∨ _))

def finishCommand (tsNsec : UInt64) (connData : ConnData) : ConnData :=
  if connData.cmd.finished = false ∧ ReplySent connData then
    { connData with cmd := { connData.cmd with endTsNsec := tsNsec, finished := true } }
  else connData

-- The event that is sent, if any, and the entry after it.
def endPeriod (tsNsec period : UInt64) (connData : ConnData) : Option CmdEventData × ConnData :=
  if period < tsNsec - connData.lastSmpTsNsec then
    (if connData.cmd.finished then some (submitConnCmdEvent connData) else none,
      { connData with lastSmpTsNsec := tsNsec, cmdNums := 0 })
  else (none, connData)

def writeToClientReturn (tsNsec : UInt64) (client : Client) (period : Option UInt64)
    (conn : Conn) : Option CmdEventData × Conn :=
  if conn.writeToClientStash then
    let conn := { conn with writeToClientStash := false }
    match conn.connData with
    | none => (none, conn)
    | some connData =>
        let connData := recordDrained client connData
        if connData.cmdNums = 0 then (none, { conn with connData := some connData })
        else
          let ended := endPeriod tsNsec (getPeriod period) (finishCommand tsNsec connData)
          (ended.1, { conn with connData := some ended.2 })
  else (none, conn)

def freeClient (conn : Conn) : Option CmdEventData × Conn :=
  match conn.connData with
  | none => (none, conn)
  | some connData =>
      (if 0 < connData.cmdNums ∧ connData.cmd.finished then some (submitConnCmdEvent connData)
        else none,
        { conn with connData := none })

inductive Event
  | readQueryFromClient (key : ConnKey) (room : Bool) (idTsNsec smpTsNsec : UInt64)
  | processCommand (name : Text) (client : Client)
  | processCommandReturn (client : Client)
  | writeToClient (client : Client)
  | writeToClientReturn (client : Client) (period : Option UInt64)
  | freeClient
  deriving DecidableEq

structure Action where
  tsNsec : UInt64
  event : Event
  deriving DecidableEq

def act (conn : Conn) (action : Action) : Option CmdEventData × Conn :=
  match action.event with
  | .readQueryFromClient key room idTsNsec smpTsNsec =>
      let created := if room then some (createConnFromClient key idTsNsec smpTsNsec) else none
      (none, readQueryFromClient action.tsNsec created conn)
  | .processCommand name client => (none, processCommand name client conn)
  | .processCommandReturn client => (none, processCommandReturn action.tsNsec client conn)
  | .writeToClient client => (none, writeToClient client conn)
  | .writeToClientReturn client period => writeToClientReturn action.tsNsec client period conn
  | .freeClient => freeClient conn

end Gopher.RedisSli
