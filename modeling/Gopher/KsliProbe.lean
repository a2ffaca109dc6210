import Gopher.Lib.Run
import Gopher.Lib.SeqNum
import Gopher.Lib.Text
import Mathlib.Algebra.Group.Nat.Defs
import Mathlib.Data.Int.Notation
import Mathlib.Data.Nat.Notation
import Mathlib.Tactic.SplitIfs

namespace Gopher.KsliProbe

open Lib

def maxCommandReqSize : ℕ := 15
def maxCheckTimes : ℕ := 2

-- __PERIOD, in nanoseconds.
def defaultPeriod : ℕ := 5 * 1000000000

inductive SampStatus
  | init
  | readReady
  | skbReady
  | finished
  deriving DecidableEq

inductive ConnProtocol
  | unknown
  | redis
  | noRedis
  deriving DecidableEq

-- struct conn_samp_data_t
structure ConnSampData where
  status : SampStatus
  endSeq : UInt32
  startTsNsec : ℕ
  rttTsNsec : ℕ
  command : Text
  deriving DecidableEq

structure RttCmd where
  command : Text
  rttNsec : ℕ
  deriving DecidableEq

-- struct conn_data_t
structure ConnData where
  protocol : ConnProtocol
  latency : RttCmd
  max : RttCmd
  lastReportTsNsec : ℕ
  reportPeriod : ℕ
  continuousSamplingFlag : Bool
  procotolCheckTimes : ℕ
  deriving DecidableEq

structure KsliArgs where
  period : ℕ
  continuousSamplingFlag : Bool
  deriving DecidableEq

def initConnSampData : ConnSampData :=
  { status := .init, endSeq := 0, startTsNsec := 0, rttTsNsec := 0, command := [] }

-- `args` is what is in `args_map`.
def getArgs (args : Option KsliArgs) (connData : ConnData) : ConnData :=
  match args with
  | none => { connData with reportPeriod := defaultPeriod, continuousSamplingFlag := false }
  | some args =>
      { connData with
        reportPeriod := args.period
        continuousSamplingFlag := args.continuousSamplingFlag }

def initConnData (args : Option KsliArgs) : ConnData :=
  getArgs args
    { protocol := .unknown, latency := ⟨[], 0⟩, max := ⟨[], 0⟩, lastReportTsNsec := 0
      reportPeriod := 0, continuousSamplingFlag := false, procotolCheckTimes := 0 }

section Parse

inductive FindState
  | msgStart
  | parmNum
  | cmdLen
  | cmdStr
  | errStop
  | okStop
  deriving DecidableEq

-- One character of the message; the letters found are kept with the state.
def parseMsgToRedisCmd (found : FindState × Text) (msgChar : Char) : FindState × Text :=
  let (findState, command) := found
  match findState with
  | .msgStart => if msgChar = '*' then (.parmNum, command) else (.errStop, command)
  | .parmNum => if msgChar = '$' then (.cmdLen, command) else found
  | .cmdLen => if msgChar = '\n' then (.cmdStr, command) else found
  | .cmdStr =>
      if command.length = 3 then (.okStop, command)
      else
        let msgChar := if 'a' ≤ msgChar then Char.ofNat (msgChar.toNat - 32) else msgChar
        if 'A' ≤ msgChar ∧ msgChar ≤ 'Z' then (.cmdStr, command ++ [msgChar])
        else (.errStop, command)
  | .okStop | .errStop => found

def identifyProtocolRedis (msg : Text) : Option Text :=
  let (findState, command) :=
    (msg.take (maxCommandReqSize - 2)).foldl parseMsgToRedisCmd (.msgStart, [])
  if findState = .okStop then some command else none

-- The command of the message, or `none` for PROTOCOL_NO_REDIS.
def parseReq (count : ℕ) (buf : Text) : Option Text :=
  let copySize := if count < maxCommandReqSize then count else maxCommandReqSize - 1
  let msg := buf.take copySize
  identifyProtocolRedis (msg ++ List.replicate (maxCommandReqSize - msg.length) '\x00')

end Parse

-- Whether a report is due, what is sent, and the data of the connection after it.
def periodicReport (args : Option KsliArgs) (tsNsec : ℕ) (connData : ConnData) :
    Bool × List (RttCmd × RttCmd) × ConnData :=
  let connData := if connData.reportPeriod = 0 then getArgs args connData else connData
  let period := if connData.reportPeriod ≠ 0 then connData.reportPeriod else defaultPeriod
  if connData.latency.rttNsec = 0 then (false, [], connData)
  else if connData.lastReportTsNsec < tsNsec ∧
      period ≤ tsNsec - connData.lastReportTsNsec then
    let sent := if connData.latency.rttNsec < period then [(connData.latency, connData.max)] else []
    (true, sent,
      { connData with
        latency := { connData.latency with rttNsec := 0 }
        max := { connData.max with rttNsec := 0 }
        lastReportTsNsec := tsNsec })
  else (false, [], connData)

def sampleFinished (connData : ConnData) (csd : ConnSampData) : ConnData × ConnSampData :=
  let connData :=
    if connData.latency.rttNsec = 0 then
      { connData with latency := ⟨csd.command, csd.rttTsNsec⟩ }
    else connData
  let connData :=
    if connData.continuousSamplingFlag ∧ connData.max.rttNsec < csd.rttTsNsec then
      { connData with max := ⟨csd.command, csd.rttTsNsec⟩ }
    else connData
  (connData, { csd with status := .init })

-- A finished sample is taken over first.
def takeFinished (connData : ConnData) (csd : ConnSampData) : ConnData × ConnSampData :=
  if csd.status = .finished then sampleFinished connData csd else (connData, csd)

-- One connection: its entries in `conn_map` and `conn_samp_map`, the threads between
-- the two probes of `ksys_read`, and the events sent.
structure Conn where
  connData : Option ConnData
  csd : Option ConnSampData
  stashed : List ℕ
  msgEvents : List (RttCmd × RttCmd)

-- The part of `process_rd_msg` that starts a sample.
def startSample (tsNsec : ℕ) (count : ℕ) (buf : Text) (conn : Conn) (connData : ConnData)
    (csd : ConnSampData) : Conn :=
  match parseReq count buf with
  | none =>
      if connData.protocol = .unknown then
        if maxCheckTimes ≤ connData.procotolCheckTimes then
          { conn with connData := some { connData with protocol := .noRedis }, csd := none }
        else
          let procotolCheckTimes := connData.procotolCheckTimes + 1
          { conn with connData := some { connData with procotolCheckTimes }, csd := some csd }
      else { conn with connData := some connData, csd := some csd }
  | some command =>
      let protocol := if connData.protocol = .unknown then .redis else connData.protocol
      let startTsNsec := if csd.startTsNsec = 0 then tsNsec else csd.startTsNsec
      { conn with
        connData := some { connData with protocol }
        csd := some { csd with command, startTsNsec, status := .readReady } }

def processRdMsg (args : Option KsliArgs) (tsNsec : ℕ) (count : ℕ) (buf : Text) (conn : Conn) :
    Conn :=
  match conn.connData, conn.csd with
  | some connData, some csd =>
      let taken := takeFinished connData csd
      let report := periodicReport args tsNsec taken.1
      let conn := { conn with msgEvents := conn.msgEvents ++ report.2.1 }
      if taken.2.status ≠ .init then
        let csd :=
          if taken.2.startTsNsec < tsNsec ∧ defaultPeriod ≤ tsNsec - taken.2.startTsNsec then
            { taken.2 with status := .init }
          else taken.2
        { conn with connData := some report.2.2, csd := some csd }
      else if ¬ report.2.2.continuousSamplingFlag ∧ report.1 then
        { conn with connData := some report.2.2, csd := some taken.2 }
      else startSample tsNsec count buf conn report.2.2 taken.2
  | _, _ => conn

-- The probe at the entry of `ksys_read`; `sk` tells whether the socket is found.
def ksysRead (args : Option KsliArgs) (now tid : ℕ) (sk : Bool) (conn : Conn) : Conn :=
  match conn.connData with
  | none =>
      if sk then
        { conn with connData := some (initConnData args), csd := some initConnSampData }
      else conn
  | some connData =>
      if connData.protocol = .noRedis then conn
      else if ¬ connData.continuousSamplingFlag ∧
          now - connData.lastReportTsNsec < connData.reportPeriod then conn
      else { conn with stashed := tid :: conn.stashed }

def ksysReadReturn (args : Option KsliArgs) (now tid : ℕ) (count : ℤ) (buf : Text)
    (conn : Conn) : Conn :=
  if tid ∈ conn.stashed then
    let conn := { conn with stashed := conn.stashed.erase tid }
    if count ≤ 0 then conn else processRdMsg args now count.toNat buf conn
  else conn

def tcpEventNewDataSent (endSeq : UInt32) (csd : ConnSampData) : ConnSampData :=
  if csd.status = .readReady then { csd with endSeq, status := .skbReady } else csd

def tcpCleanRtxQueue (now : ℕ) (sndUna : UInt32) (csd : ConnSampData) : ConnSampData :=
  if csd.status = .skbReady ∧ csd.endSeq ≤ sndUna then
    if now < csd.startTsNsec then { csd with status := .init }
    else { csd with rttTsNsec := now - csd.startTsNsec, status := .finished }
  else csd

-- `queueHead` is the time stamp of the first segment in the receive queue, if there is one.
def tcpRecvmsg (queueHead : Option ℕ) (csd : ConnSampData) : ConnSampData :=
  if csd.status = .finished ∨ csd.status = .init then
    match queueHead with
    | some tstamp => { csd with startTsNsec := tstamp }
    | none => csd
  else csd

def closeFd (conn : Conn) : Conn :=
  match conn.connData with
  | none => conn
  | some _ => { conn with connData := none, csd := none }

-- What can happen on a connection. A read returns a request that arrived at `arrival`.
inductive Event
  | ksysRead (tid : ℕ) (sk : Bool)
  | ksysReadReturn (tid : ℕ) (count : ℤ) (buf : Text) (arrival : ℕ)
  | tcpEventNewDataSent (endSeq : UInt32)
  | tcpCleanRtxQueue (sndUna : UInt32)
  | tcpRecvmsg (queueHead : Option ℕ)
  | closeFd

structure Action where
  now : ℕ
  args : Option KsliArgs
  event : Event

def act (conn : Conn) (action : Action) : Conn :=
  match action.event with
  | .ksysRead tid sk => ksysRead action.args action.now tid sk conn
  | .ksysReadReturn tid count buf _ => ksysReadReturn action.args action.now tid count buf conn
  | .tcpEventNewDataSent endSeq => { conn with csd := conn.csd.map (tcpEventNewDataSent endSeq) }
  | .tcpCleanRtxQueue sndUna =>
      { conn with csd := conn.csd.map (tcpCleanRtxQueue action.now sndUna) }
  | .tcpRecvmsg queueHead => { conn with csd := conn.csd.map (tcpRecvmsg queueHead) }
  | .closeFd => closeFd conn

section Ack

variable {now : ℕ} {sndUna : UInt32} {csd : ConnSampData}

-- The sample is over for this response: it is finished, or dropped as meaningless.
theorem tcpCleanRtxQueue_status (hready : csd.status = .skbReady) :
    (tcpCleanRtxQueue now sndUna csd).status ≠ .skbReady ↔
      csd.endSeq.toNat ≤ sndUna.toNat := by
  rw [tcpCleanRtxQueue, ← UInt32.le_iff_toNat_le]
  by_cases hle : csd.endSeq ≤ sndUna
  · rw [if_pos ⟨hready, hle⟩]
    refine iff_of_true ?_ hle
    split_ifs <;> simp
  · rw [if_neg fun hboth => hle hboth.2]
    exact iff_of_false (fun hne => hne hready) hle

-- The test of the acknowledgement agrees with the sequence order of TCP exactly if the
-- plain order of the two numbers does: they lie within half of the space of each other.
theorem tcpCleanRtxQueue_acked_iff (now : ℕ) (sndUna : UInt32) (csd : ConnSampData)
    (hready : csd.status = .skbReady) :
    ((tcpCleanRtxQueue now sndUna csd).status ≠ .skbReady ↔
        SeqNum.AtOrAfter (2 ^ 31) csd.endSeq.toNat sndUna.toNat) ↔
      (csd.endSeq.toNat ≤ sndUna.toNat ∧ sndUna.toNat - csd.endSeq.toNat < 2 ^ 31 ∨
        sndUna.toNat < csd.endSeq.toNat ∧ csd.endSeq.toNat - sndUna.toNat ≤ 2 ^ 31) := by
  have hend := csd.endSeq.toNat_lt
  have huna := sndUna.toNat_lt
  rw [tcpCleanRtxQueue_status hready]
  exact SeqNum.le_iff_atOrAfter_iff (by omega) (by omega)

theorem tcpCleanRtxQueue_acked_iff_witness :
    ((tcpCleanRtxQueue 9 120 { initConnSampData with status := .skbReady, endSeq := 100 }).status ≠
        .skbReady ↔ SeqNum.AtOrAfter (2 ^ 31) 100 120) ↔
      (100 ≤ 120 ∧ 120 - 100 < 2 ^ 31 ∨ 120 < 100 ∧ 100 - 120 ≤ 2 ^ 31) :=
  tcpCleanRtxQueue_acked_iff 9 120 { initConnSampData with status := .skbReady, endSeq := 100 } rfl

-- The response ends just before the numbers wrap, the acknowledgement comes after it.
theorem tcpCleanRtxQueue_wrapped :
    ¬ ∀ (now : ℕ) (sndUna : UInt32) (csd : ConnSampData), csd.status = .skbReady →
      ((tcpCleanRtxQueue now sndUna csd).status ≠ .skbReady ↔
        SeqNum.AtOrAfter (2 ^ 31) csd.endSeq.toNat sndUna.toNat) := by
  intro h
  have hone := h 9 16 { initConnSampData with status := .skbReady, endSeq := 4294967280 } rfl
  exact absurd hone (by decide)

end Ack

section Start

-- What is recorded of a sample: when its request arrived, the rtt and when it was taken.
structure Measurement where
  arrival : ℕ
  rtt : ℕ
  finish : ℕ
  deriving DecidableEq

-- The connection, the arrival of the request that is sampled, and all measurements.
structure Traced where
  conn : Conn
  arrival : ℕ
  recorded : List Measurement

def Traced.initial : Traced :=
  { conn := { connData := none, csd := none, stashed := [], msgEvents := [] }
    arrival := 0, recorded := [] }

def Conn.status (conn : Conn) : Option SampStatus := conn.csd.map ConnSampData.status

-- A sample enters the status with this change of the connection.
def Entered (status : SampStatus) (before after : Conn) : Prop :=
  before.status ≠ some status ∧ after.status = some status

instance (status : SampStatus) (before after : Conn) : Decidable (Entered status before after) :=
  inferInstanceAs (Decidable (_ ∧ _))

def Action.arrival (action : Action) : ℕ :=
  match action.event with
  | .ksysReadReturn _ _ _ arrival => arrival
  | _ => action.now

def step (traced : Traced) (action : Action) : Traced :=
  let conn := act traced.conn action
  { conn
    arrival := if Entered .readReady traced.conn conn then action.arrival else traced.arrival
    recorded := traced.recorded ++
      if Entered .finished traced.conn conn then
        conn.csd.toList.map fun csd => ⟨traced.arrival, csd.rttTsNsec, action.now⟩
      else [] }

-- The clocks do not go back, and what a read returns has arrived.
def Legal (done : List Action) (_ : Traced) (action : Action) : Prop :=
  (∀ earlier ∈ done, earlier.now ≤ action.now) ∧ action.arrival ≤ action.now

-- The read starts a sample with this entry of `conn_samp_map`: none is under way, the
-- report does not end the period, and the request is a redis command.
def Starts (args : Option KsliArgs) (now tid : ℕ) (count : ℤ) (buf : Text) (conn : Conn)
    (connData : ConnData) (csd : ConnSampData) : Prop :=
  let taken := takeFinished connData csd
  let report := periodicReport args now taken.1
  tid ∈ conn.stashed ∧ 0 < count ∧ taken.2.status = .init ∧
    (report.2.2.continuousSamplingFlag = true ∨ report.1 = false) ∧
    (parseReq count.toNat buf).isSome

-- A read that starts a sample finds no start time, or one not older than its request.
def Allowed (_ : List Action) (traced : Traced) (action : Action) : Prop :=
  match action.event with
  | .ksysReadReturn tid count buf arrival =>
      ∀ connData ∈ traced.conn.connData, ∀ csd ∈ traced.conn.csd,
        Starts action.args action.now tid count buf traced.conn connData csd →
        csd.startTsNsec = 0 ∨ arrival ≤ csd.startTsNsec
  | _ => True

instance (args : Option KsliArgs) (now tid : ℕ) (count : ℤ) (buf : Text) (conn : Conn)
    (connData : ConnData) (csd : ConnSampData) :
    Decidable (Starts args now tid count buf conn connData csd) :=
  inferInstanceAs (Decidable (_ ∧ _ ∧ _ ∧ _ ∧ _))

instance (done : List Action) (traced : Traced) (action : Action) :
    Decidable (Legal done traced action) :=
  inferInstanceAs (Decidable (_ ∧ _))

instance (done : List Action) (traced : Traced) : ∀ action, Decidable (Allowed done traced action)
  | ⟨now, args, .ksysReadReturn tid count buf arrival⟩ =>
      inferInstanceAs (Decidable (∀ connData ∈ traced.conn.connData, ∀ csd ∈ traced.conn.csd,
        Starts args now tid count buf traced.conn connData csd →
        csd.startTsNsec = 0 ∨ arrival ≤ csd.startTsNsec))
  | ⟨_, _, .ksysRead _ _⟩ => isTrue trivial
  | ⟨_, _, .tcpEventNewDataSent _⟩ => isTrue trivial
  | ⟨_, _, .tcpCleanRtxQueue _⟩ => isTrue trivial
  | ⟨_, _, .tcpRecvmsg _⟩ => isTrue trivial
  | ⟨_, _, .closeFd⟩ => isTrue trivial

-- A sample under way started at the arrival of its request or later.
structure Inv (traced : Traced) : Prop where
  measuring : ∀ csd ∈ traced.conn.csd, csd.status = .readReady ∨ csd.status = .skbReady →
    traced.arrival ≤ csd.startTsNsec
  recorded : ∀ measurement ∈ traced.recorded,
    measurement.arrival + measurement.rtt ≤ measurement.finish

-- What an event can do to the sample of a connection.
inductive Moved (conn : Conn) (action : Action) (before after : ConnSampData) : Prop
  | idle (hstatus : after.status = .init)
  | same (hstatus : after.status = before.status)
      (hstart : before.status = .readReady ∨ before.status = .skbReady →
        after.startTsNsec = before.startTsNsec)
  | sent (hbefore : before.status = .readReady) (hafter : after.status = .skbReady)
      (hstart : after.startTsNsec = before.startTsNsec)
  | acked (hbefore : before.status = .skbReady) (hafter : after.status = .finished)
      (hstart : before.startTsNsec ≤ action.now)
      (hrtt : after.rttTsNsec = action.now - before.startTsNsec)
  | started (hbefore : before.status ≠ .readReady) (hafter : after.status = .readReady)
      (hstart : after.startTsNsec =
        if before.startTsNsec = 0 then action.now else before.startTsNsec)
      (hallowed : ∀ done traced, traced.conn = conn → Allowed done traced action →
        before.startTsNsec = 0 ∨ action.arrival ≤ before.startTsNsec)

variable {conn : Conn} {action : Action} {before after : ConnSampData}

theorem moved_dataSent (endSeq : UInt32) :
    Moved conn action before (tcpEventNewDataSent endSeq before) := by
  rw [tcpEventNewDataSent]
  split_ifs with hstatus
  · exact .sent hstatus rfl rfl
  · exact .same rfl fun _ => rfl

theorem moved_clean (sndUna : UInt32) :
    Moved conn action before (tcpCleanRtxQueue action.now sndUna before) := by
  rw [tcpCleanRtxQueue]
  split_ifs with hacked hlt
  · exact .idle rfl
  · exact .acked hacked.1 rfl (Nat.not_lt.mp hlt) rfl
  · exact .same rfl fun _ => rfl

theorem moved_recvmsg (queueHead : Option ℕ) :
    Moved conn action before (tcpRecvmsg queueHead before) := by
  cases queueHead with
  | none =>
      have hsame : tcpRecvmsg none before = before := by simp [tcpRecvmsg]
      rw [hsame]
      exact .same rfl fun _ => rfl
  | some tstamp =>
      rw [tcpRecvmsg]
      split_ifs with hstatus
      · refine .same rfl fun hmeasuring => ?_
        rcases hstatus with heq | heq <;> simp [heq] at hmeasuring
      · exact .same rfl fun _ => rfl

theorem takeFinished_csd (connData : ConnData) (csd : ConnSampData) :
    (takeFinished connData csd).2 = csd ∧ csd.status ≠ .finished ∨
      csd.status = .finished ∧ (takeFinished connData csd).2 = { csd with status := .init } := by
  rw [takeFinished]
  split_ifs with hfinished
  · exact .inr ⟨hfinished, rfl⟩
  · exact .inl ⟨rfl, hfinished⟩

theorem startSample_csd {now count : ℕ} {buf : Text} {connData : ConnData} {csd : ConnSampData}
    (hafter : after ∈ (startSample now count buf conn connData csd).csd) :
    after = csd ∨ (parseReq count buf).isSome ∧ after.status = .readReady ∧
      after.startTsNsec = if csd.startTsNsec = 0 then now else csd.startTsNsec := by
  rw [startSample] at hafter
  cases hparse : parseReq count buf with
  | none =>
      rw [hparse] at hafter
      dsimp only at hafter
      split_ifs at hafter
      · cases hafter
      · cases hafter
        exact .inl rfl
      · cases hafter
        exact .inl rfl
  | some command =>
      rw [hparse] at hafter
      cases hafter
      exact .inr ⟨rfl, rfl, rfl⟩

-- A read that is processed keeps the sample that it has taken over, gives it up, or
-- starts one.
theorem processRdMsg_csd (conn : Conn) {args : Option KsliArgs} {now count : ℕ} {buf : Text}
    {connData : ConnData} {csd : ConnSampData} (hdata : conn.connData = some connData)
    (hcsd : conn.csd = some csd) (hafter : after ∈ (processRdMsg args now count buf conn).csd) :
    after.status = .init ∨ after = (takeFinished connData csd).2 ∨
      (takeFinished connData csd).2.status = .init ∧
      ((periodicReport args now (takeFinished connData csd).1).2.2.continuousSamplingFlag = true ∨
        (periodicReport args now (takeFinished connData csd).1).1 = false) ∧
      (parseReq count buf).isSome ∧ after.status = .readReady ∧
      after.startTsNsec = if csd.startTsNsec = 0 then now else csd.startTsNsec := by
  have hstart : (takeFinished connData csd).2.startTsNsec = csd.startTsNsec := by
    rcases takeFinished_csd connData csd with ⟨heq, -⟩ | ⟨-, heq⟩ <;> rw [heq]
  rw [processRdMsg, hdata, hcsd] at hafter
  dsimp only at hafter
  split_ifs at hafter with hbusy hold hreported
  · cases hafter
    exact .inl rfl
  · cases hafter
    exact .inr (.inl rfl)
  · cases hafter
    exact .inr (.inl rfl)
  · rcases startSample_csd hafter with heq | ⟨hparse, hstatus, hafterStart⟩
    · exact .inr (.inl heq)
    · rw [hstart] at hafterStart
      refine .inr (.inr ⟨not_not.mp hbusy, ?_, hparse, hstatus, hafterStart⟩)
      by_contra hneither
      rw [not_or] at hneither
      exact hreported ⟨hneither.1, by simpa using hneither.2⟩

-- A read takes a finished sample over, gives up an old one, or starts a new one.
theorem moved_read {tid : ℕ} {count : ℤ} {buf : Text} {arrival : ℕ}
    (hevent : action.event = .ksysReadReturn tid count buf arrival)
    (hafter : after ∈ (ksysReadReturn action.args action.now tid count buf conn).csd) :
    ∃ before ∈ conn.csd, Moved conn action before after := by
  rw [ksysReadReturn] at hafter
  split_ifs at hafter with hstashed hcount
  · exact ⟨after, hafter, .same rfl fun _ => rfl⟩
  · cases hdata : conn.connData with
    | none =>
        rw [processRdMsg, hdata] at hafter
        exact ⟨after, hafter, .same rfl fun _ => rfl⟩
    | some connData =>
        cases hcsd : conn.csd with
        | none =>
            rw [processRdMsg, hdata, hcsd] at hafter
            exact absurd hafter (by simp)
        | some csd =>
            refine ⟨csd, rfl, ?_⟩
            have htaken := takeFinished_csd connData csd
            rcases processRdMsg_csd { conn with stashed := conn.stashed.erase tid } hdata hcsd hafter with
              hinit | rfl | ⟨hfree, hreport, hparse, hstatus, hstart⟩
            · exact .idle hinit
            · rcases htaken with ⟨heq, -⟩ | ⟨-, heq⟩
              · rw [heq]
                exact .same rfl fun _ => rfl
              · rw [heq]
                exact .idle rfl
            · have hbefore : csd.status ≠ .readReady := by
                intro hready
                rcases htaken with ⟨heq, -⟩ | ⟨hfinished, -⟩
                · rw [heq, hready] at hfree
                  cases hfree
                · rw [hready] at hfinished
                  cases hfinished
              refine .started hbefore hstatus hstart fun done traced hconn hallowed => ?_
              rw [Allowed, hevent] at hallowed
              rw [Action.arrival, hevent]
              apply hallowed connData (by rw [hconn, hdata]; rfl) csd (by rw [hconn, hcsd]; rfl)
              exact ⟨hconn ▸ hstashed, Int.not_le.mp hcount, hfree, hreport, hparse⟩
  · exact ⟨after, hafter, .same rfl fun _ => rfl⟩

-- Whatever happens, the sample after it is fresh, or comes from the one before.
theorem act_moved (hafter : after ∈ (act conn action).csd) :
    after.status = .init ∨ ∃ before ∈ conn.csd, Moved conn action before after := by
  obtain ⟨now, args, event⟩ := action
  cases event with
  | ksysRead tid sk =>
      have hsame : after ∈ conn.csd → after.status = .init ∨
          ∃ before ∈ conn.csd, Moved conn ⟨now, args, .ksysRead tid sk⟩ before after :=
        fun hmem => .inr ⟨after, hmem, .same rfl fun _ => rfl⟩
      simp only [act, ksysRead] at hafter
      split at hafter
      · split_ifs at hafter
        · cases hafter
          exact .inl rfl
        · exact hsame hafter
      · split_ifs at hafter
        · exact hsame hafter
        · exact hsame hafter
        · exact hsame hafter
  | ksysReadReturn tid count buf arrival => exact .inr (moved_read rfl hafter)
  | tcpEventNewDataSent endSeq =>
      obtain ⟨before, hbefore, rfl⟩ := Option.map_eq_some_iff.mp hafter
      exact .inr ⟨before, hbefore, moved_dataSent endSeq⟩
  | tcpCleanRtxQueue sndUna =>
      obtain ⟨before, hbefore, rfl⟩ := Option.map_eq_some_iff.mp hafter
      exact .inr ⟨before, hbefore, moved_clean sndUna⟩
  | tcpRecvmsg queueHead =>
      obtain ⟨before, hbefore, rfl⟩ := Option.map_eq_some_iff.mp hafter
      exact .inr ⟨before, hbefore, moved_recvmsg queueHead⟩
  | closeFd =>
      simp only [act, closeFd] at hafter
      split at hafter
      · exact .inr ⟨after, hafter, .same rfl fun _ => rfl⟩
      · cases hafter

theorem Conn.status_of_mem (h : before ∈ conn.csd) : conn.status = some before.status := by
  rw [Conn.status, Option.mem_def.mp h]
  rfl

theorem entered_iff {status : SampStatus} {next : Conn} (hbefore : before ∈ conn.csd)
    (hafter : after ∈ next.csd) :
    Entered status conn next ↔ before.status ≠ status ∧ after.status = status := by
  rw [Entered, Conn.status_of_mem hbefore, Conn.status_of_mem hafter]
  simp

variable {traced : Traced} {done : List Action}

theorem step_arrival_of_not (hnot : ¬ Entered .readReady traced.conn (act traced.conn action)) :
    (step traced action).arrival = traced.arrival :=
  if_neg hnot

theorem recorded_of_not (h : Inv traced)
    (hnot : ¬ Entered .finished traced.conn (act traced.conn action)) :
    ∀ measurement ∈ (step traced action).recorded,
      measurement.arrival + measurement.rtt ≤ measurement.finish := by
  have hsame : (step traced action).recorded = traced.recorded := by
    simp only [step, if_neg hnot, List.append_nil]
  rw [hsame]
  exact h.recorded

theorem measuring_intro {next : Traced} (hafter : after ∈ next.conn.csd)
    (h : after.status = .readReady ∨ after.status = .skbReady → next.arrival ≤ after.startTsNsec) :
    ∀ csd ∈ next.conn.csd, csd.status = .readReady ∨ csd.status = .skbReady →
      next.arrival ≤ csd.startTsNsec := by
  intro csd hcsd
  rw [Option.mem_def, Option.mem_def.mp hafter] at hcsd
  cases hcsd
  exact h

-- A step from one sample entry to the next keeps the invariant.
theorem Inv.moved (h : Inv traced) (hlegal : Legal done traced action)
    (hallowed : Allowed done traced action) (hbefore : before ∈ traced.conn.csd)
    (hafter : after ∈ (act traced.conn action).csd)
    (hmoved : Moved traced.conn action before after) : Inv (step traced action) := by
  have hentered : ∀ status, Entered status traced.conn (act traced.conn action) ↔
      before.status ≠ status ∧ after.status = status := fun _ => entered_iff hbefore hafter
  cases hmoved with
  | idle hstatus =>
      refine ⟨measuring_intro hafter fun hmeasuring => ?_, recorded_of_not h ?_⟩
      · simp [hstatus] at hmeasuring
      · simp [hentered, hstatus]
  | same hstatus hstart =>
      refine ⟨measuring_intro hafter fun hmeasuring => ?_, recorded_of_not h ?_⟩
      · rw [step_arrival_of_not (by rw [hentered, hstatus]; exact fun hboth => hboth.1 hboth.2)]
        rw [hstatus] at hmeasuring
        rw [hstart hmeasuring]
        exact h.measuring before hbefore hmeasuring
      · rw [hentered, hstatus]
        exact fun hboth => hboth.1 hboth.2
  | sent hready hsent hstart =>
      refine ⟨measuring_intro hafter fun _ => ?_, recorded_of_not h ?_⟩
      · rw [step_arrival_of_not (by simp [hentered, hready]), hstart]
        exact h.measuring before hbefore (.inl hready)
      · simp [hentered, hsent]
  | acked hready hfinished hstart hrtt =>
      refine ⟨measuring_intro hafter fun hmeasuring => ?_, fun measurement hmeasurement => ?_⟩
      · simp [hfinished] at hmeasuring
      · have harrival := h.measuring before hbefore (.inr hready)
        have hrecorded : (step traced action).recorded =
            traced.recorded ++ [⟨traced.arrival, after.rttTsNsec, action.now⟩] := by
          have hin : Entered .finished traced.conn (act traced.conn action) := by
            simp [hentered, hready, hfinished]
          simp only [step, if_pos hin, Option.mem_def.mp hafter]
          rfl
        rw [hrecorded] at hmeasurement
        rcases List.mem_append.mp hmeasurement with hold | hnew
        · exact h.recorded measurement hold
        · rw [List.mem_singleton.mp hnew, hrtt]
          dsimp only
          omega
  | started hidle hready hstart hfound =>
      refine ⟨measuring_intro hafter fun _ => ?_, recorded_of_not h ?_⟩
      · have hin : Entered .readReady traced.conn (act traced.conn action) := by
          simp [hentered, hidle, hready]
        have harrival : (step traced action).arrival = action.arrival := if_pos hin
        have hnow := hlegal.2
        rw [harrival, hstart]
        split_ifs with hzero
        · exact hnow
        · exact (hfound done traced rfl hallowed).resolve_left hzero
      · simp [hentered, hready]

theorem Inv.step (h : Inv traced) (hlegal : Legal done traced action)
    (hallowed : Allowed done traced action) : Inv (step traced action) := by
  cases hcsd : (act traced.conn action).csd with
  | none =>
      refine ⟨fun csd hmem => ?_, recorded_of_not h ?_⟩
      · exact absurd (hcsd.symm.trans hmem) (by simp)
      · simp [Entered, Conn.status, hcsd]
  | some after =>
      rcases act_moved hcsd with hinit | ⟨before, hbefore, hmoved⟩
      · refine ⟨measuring_intro hcsd fun hmeasuring => ?_, recorded_of_not h ?_⟩
        · simp [hinit] at hmeasuring
        · simp [Entered, Conn.status, hcsd, hinit]
      · exact h.moved hlegal hallowed hbefore hcsd hmoved

end Start

end Gopher.KsliProbe
