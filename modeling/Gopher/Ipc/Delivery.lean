import Gopher.Ipc.Deserialize
import Gopher.Ipc.RoundTrip
import Gopher.Lib.Run

namespace Gopher.Ipc

open Gopher.Lib

def PROBE_BASEINFO : ℤ := 1
def PROBE_TYPE_MAX : ℤ := 22

-- The messages of one type in the System V queue, the oldest first, and the receive
-- buffer `g_rcv_ipc_msg_buffer` of the probe.
structure Channel where
  queue : List IpcMsg
  buffer : IpcMsg

-- The outcome of `malloc` and of `msgsnd` in a send.
structure SendEnv where
  malloc : Bool
  msgsnd : Bool

def sendIpcMsg (env : SendEnv) (msqid msgType : ℤ) (body : IpcBody) (channel : Channel) :
    ℤ × Channel :=
  if msqid < 0 then (-1, channel)
  else if msgType < PROBE_BASEINFO ∨ PROBE_TYPE_MAX ≤ msgType then (-1, channel)
  else match createIpcMsg env.malloc body msgType with
    | none => (-1, channel)
    | some msg =>
        if env.msgsnd then (0, { channel with queue := channel.queue ++ [msg] })
        else (-1, channel)

def getRawIpcMsg (buffer : IpcMsg) (msgType : ℤ) : IpcMsg where
  msgType := msgType
  msgLen := GOPHER_IPC_MSG_LEN
  msg := buffer.msg.write 0 (tlvHeader SNOOPER_OBJ_MAX 0)

-- The bytes behind the end of the message stay as they were.
def IpcMsg.receive (buffer msg : IpcMsg) : IpcMsg where
  msgType := msg.msgType
  msgLen := msg.msgLen
  msg := buffer.msg.write 0 (msg.msg.bytes 0 msg.msgLen)

-- `msgrcv` until it fails: there is no message, or the oldest is longer than the
-- given size and stays queued. A message is its length word and its bytes.
def receiveAll (msgsz : ℕ) : List IpcMsg → IpcMsg → Bool → Bool × Channel
  | [], buffer, rcvd => (rcvd, ⟨[], buffer⟩)
  | msg :: queue, buffer, rcvd =>
      if msgsz < msg.msgLen + U32_SIZE then (rcvd, ⟨msg :: queue, buffer⟩)
      else receiveAll msgsz queue (buffer.receive msg) true

def receivePending (msqid msgType : ℤ) (channel : Channel) : Bool × Channel :=
  if msqid < 0 then (false, channel)
  else
    let buffer := getRawIpcMsg channel.buffer msgType
    receiveAll (buffer.msgLen + U32_SIZE) channel.queue buffer false

def freeContainerObj (container : SnooperConInfo) : SnooperConInfo :=
  { container with
    conId := none, containerName := none, libcPath := none, libsslPath := none, podId := none
    podIpStr := none }

def freeGaussdbObj (db : SnooperGaussdb) : SnooperGaussdb :=
  { db with ip := none, dbname := none, usr := none, pass := none }

-- Of what an object holds, its strings are freed.
def SnooperObj.free : SnooperObj → SnooperObj
  | .proc procId => .proc procId
  | .con container => .con (freeContainerObj container)
  | .gaussdb db => .gaussdb (freeGaussdbObj db)
  | .max => .max

def destroyIpcBody (body : IpcBody) : IpcBody where
  probeRangeFlags := 0
  snooperObjNum := 0
  probeFlags := 0
  probeParam := body.probeParam
  snooperObjs i :=
    if i.val < body.snooperObjNum.toNat then (body.snooperObjs i).free else body.snooperObjs i

-- The result and the body after the call. `none` is a decoder that needs more fuel.
-- A message that was received and fails leaves the body destroyed.
def recvIpcMsg (malloc : ℕ → Bool) (fuel : ℕ) (msqid msgType : ℤ) (body : IpcBody)
    (channel : Channel) : Option (ℤ × IpcBody) :=
  let (rcvd, channel) := receivePending msqid msgType channel
  if !rcvd then some (-1, body)
  else if GOPHER_IPC_MSG_LEN < channel.buffer.msgLen then some (-1, destroyIpcBody body)
  else do
    let (len, body) ← deserializeIpcMsg malloc fuel channel.buffer.msg channel.buffer.msgLen .zero
    if len < 0 then return (-1, destroyIpcBody body) else return (0, body)

inductive IpcCall
  | send (env : SendEnv) (body : IpcBody)
  | recv (malloc : ℕ → Bool) (body : IpcBody)

def Channel.call (msqid msgType : ℤ) (channel : Channel) : IpcCall → Channel
  | .send env body => (sendIpcMsg env msqid msgType body channel).2
  | .recv _ _ => (receivePending msqid msgType channel).2

-- A body that a caller hands over: its objects are counted and well formed.
def IpcBody.WellFormed (body : IpcBody) : Prop :=
  body.snooperObjNum.toNat ≤ SNOOPER_MAX ∧ ∀ obj ∈ body.objs, obj.WellFormed

-- The bodies sent since the last receive.
def pending (calls : List IpcCall) : List IpcBody :=
  calls.foldl (fun bodies call =>
    match call with
    | .send _ body => bodies ++ [body]
    | .recv _ _ => []) []

-- Every send returns 0.
def Accepted (msqid msgType : ℤ) (_calls : List IpcCall) (channel : Channel) : IpcCall → Prop
  | .send env body => body.WellFormed ∧ (sendIpcMsg env msqid msgType body channel).1 = 0
  | .recv _ _ => True

-- A receive with something pending returns the body sent last and leaves nothing.
def Delivers (msqid msgType : ℤ) (calls : List IpcCall) (channel : Channel) : IpcCall → Prop
  | .send _ _ => True
  | .recv malloc given => ∀ body, (pending calls).getLast? = some body →
      (receivePending msqid msgType channel).2.queue = [] ∧
        ∃ fuel received, recvIpcMsg malloc fuel msqid msgType given channel = some (0, received) ∧
          SameBody body received

-- What a receive finds pending is short enough, and only has processes in the last body.
def Deliverable (calls : List IpcCall) (_channel : Channel) : IpcCall → Prop
  | .send _ _ => True
  | .recv _ _ => (∀ body ∈ pending calls, (encodeBody body).length ≤ GOPHER_IPC_MSG_LEN) ∧
      ∀ body, (pending calls).getLast? = some body → ∀ obj ∈ body.objs, obj.isProc = true

section Receive

variable {msgsz : ℕ}

theorem receiveAll_fits {queue : List IpcMsg} (h : ∀ msg ∈ queue, msg.msgLen + U32_SIZE ≤ msgsz)
    (buffer : IpcMsg) (rcvd : Bool) :
    (receiveAll msgsz queue buffer rcvd).2.queue = [] ∧
      ∀ msg, queue.getLast? = some msg → (receiveAll msgsz queue buffer rcvd).1 = true ∧
        (receiveAll msgsz queue buffer rcvd).2.buffer.msgLen = msg.msgLen ∧
        (receiveAll msgsz queue buffer rcvd).2.buffer.msg.Holds 0 (msg.msg.bytes 0 msg.msgLen) := by
  induction queue generalizing buffer rcvd with
  | nil => simp [receiveAll]
  | cons head queue ih =>
      obtain ⟨hhead, hqueue⟩ := List.forall_mem_cons.mp h
      obtain ⟨hempty, hlast⟩ := ih hqueue (buffer.receive head) true
      rw [receiveAll, if_neg (by omega)]
      refine ⟨hempty, fun msg hmsg => ?_⟩
      cases queue with
      | nil =>
          obtain rfl : head = msg := by simpa using hmsg
          exact ⟨rfl, rfl, Memory.write_holds buffer.msg 0 (head.msg.bytes 0 head.msgLen)⟩
      | cons next queue =>
          rw [List.getLast?_cons_cons] at hmsg
          exact hlast msg hmsg

-- A message that is too long stays, and so does all that is queued behind it.
theorem receiveAll_blocked {queue : List IpcMsg} {msg : IpcMsg} (hmsg : msg ∈ queue)
    (hlong : msgsz < msg.msgLen + U32_SIZE) (buffer : IpcMsg) (rcvd : Bool) :
    msg ∈ (receiveAll msgsz queue buffer rcvd).2.queue := by
  induction queue generalizing buffer rcvd with
  | nil => simp at hmsg
  | cons head queue ih =>
      rw [receiveAll]
      split_ifs with hhead
      · exact hmsg
      · refine ih ((List.mem_cons.mp hmsg).resolve_left fun heq => ?_) (buffer.receive head) true
        subst heq
        omega

end Receive

theorem pending_send (calls : List IpcCall) (env : SendEnv) (body : IpcBody) :
    pending (calls ++ [.send env body]) = pending calls ++ [body] := by
  simp [pending, List.foldl_append]

theorem pending_recv (calls : List IpcCall) (malloc : ℕ → Bool) (body : IpcBody) :
    pending (calls ++ [.recv malloc body]) = [] := by
  simp [pending, List.foldl_append]

-- A send that returns 0 has queued the message made of its body.
theorem sendIpcMsg_accepted {env : SendEnv} {msqid msgType : ℤ} {body : IpcBody}
    {channel : Channel} (h : (sendIpcMsg env msqid msgType body channel).1 = 0) :
    0 ≤ msqid ∧ ∃ msg, createIpcMsg true body msgType = some msg ∧
      (sendIpcMsg env msqid msgType body channel).2 =
        { channel with queue := channel.queue ++ [msg] } := by
  unfold sendIpcMsg at h ⊢
  by_cases hmsqid : msqid < 0
  · simp [hmsqid] at h
  by_cases htype : msgType < PROBE_BASEINFO ∨ PROBE_TYPE_MAX ≤ msgType
  · simp [hmsqid, htype] at h
  rw [if_neg hmsqid, if_neg htype] at h ⊢
  cases hcreate : createIpcMsg env.malloc body msgType with
  | none => simp [hcreate] at h
  | some msg =>
      have hmalloc : env.malloc = true := by
        by_contra hrefused
        simp [createIpcMsg, hrefused] at hcreate
      rw [hmalloc] at hcreate
      cases hsnd : env.msgsnd with
      | false => simp [hmalloc, hcreate, hsnd] at h
      | true => exact ⟨by omega, msg, hcreate, by simp⟩

theorem msgLen_of_create {body : IpcBody} {msgType : ℤ} {msg : IpcMsg}
    (h : createIpcMsg true body msgType = some msg) : msg.msgLen = calcIpcMsgLen body := by
  simp only [createIpcMsg, Bool.not_true, Bool.false_eq_true, ite_false, Option.bind_eq_bind,
    Option.bind_eq_some_iff] at h
  obtain ⟨memory, -, h⟩ := h
  cases h
  rfl

-- The queue holds the messages of what was sent since the last receive.
structure Channel.Holds (msqid msgType : ℤ) (calls : List IpcCall) (channel : Channel) : Prop where
  wellFormed : ∀ body ∈ pending calls, body.WellFormed
  queue : channel.queue.map some = (pending calls).map fun body => createIpcMsg true body msgType
  opened : pending calls ≠ [] → 0 ≤ msqid

theorem Channel.holds_init (msqid msgType : ℤ) (buffer : IpcMsg) :
    Channel.Holds msqid msgType [] ⟨[], buffer⟩ :=
  ⟨by simp [pending], rfl, by simp [pending]⟩

section Step

variable {msqid msgType : ℤ} {calls : List IpcCall} {channel : Channel}

theorem Channel.Holds.send (h : channel.Holds msqid msgType calls) {env : SendEnv}
    {body : IpcBody} (hbody : body.WellFormed)
    (hsent : (sendIpcMsg env msqid msgType body channel).1 = 0) :
    (channel.call msqid msgType (.send env body)).Holds msqid msgType
      (calls ++ [.send env body]) := by
  obtain ⟨hopen, msg, hmsg, hchannel⟩ := sendIpcMsg_accepted hsent
  refine ⟨?_, ?_, fun _ => hopen⟩
  · rw [pending_send]
    intro other hother
    rcases List.mem_append.mp hother with hother | hother
    · exact h.wellFormed other hother
    · rw [List.mem_singleton.mp hother]
      exact hbody
  · show (sendIpcMsg env msqid msgType body channel).2.queue.map some = _
    rw [pending_send, hchannel, List.map_append, List.map_append, h.queue, List.map_singleton,
      List.map_singleton, hmsg]

theorem Channel.Holds.body_of_mem (h : channel.Holds msqid msgType calls) {msg : IpcMsg}
    (hmsg : msg ∈ channel.queue) :
    ∃ body ∈ pending calls, createIpcMsg true body msgType = some msg := by
  have hmem : some msg ∈ channel.queue.map some := List.mem_map_of_mem hmsg
  rw [h.queue] at hmem
  exact List.mem_map.mp hmem

theorem Channel.Holds.msg_of_mem (h : channel.Holds msqid msgType calls) {body : IpcBody}
    (hbody : body ∈ pending calls) :
    ∃ msg ∈ channel.queue, createIpcMsg true body msgType = some msg := by
  have hmem : createIpcMsg true body msgType ∈ channel.queue.map some := by
    rw [h.queue]
    exact List.mem_map_of_mem hbody
  obtain ⟨msg, hmsg, heq⟩ := List.mem_map.mp hmem
  exact ⟨msg, hmsg, heq.symm⟩

theorem Channel.Holds.last (h : channel.Holds msqid msgType calls) {body : IpcBody}
    (hbody : (pending calls).getLast? = some body) :
    ∃ msg, channel.queue.getLast? = some msg ∧ createIpcMsg true body msgType = some msg := by
  have hlast : (channel.queue.map some).getLast? = some (createIpcMsg true body msgType) := by
    rw [h.queue, List.getLast?_map, hbody]
    rfl
  rw [List.getLast?_map] at hlast
  obtain ⟨msg, hmsg, heq⟩ := Option.map_eq_some_iff.mp hlast
  exact ⟨msg, hmsg, heq.symm⟩

theorem receivePending_queue_nil (h : channel.queue = []) :
    (receivePending msqid msgType channel).2.queue = [] := by
  unfold receivePending
  split_ifs
  · exact h
  · rw [h]
    rfl

theorem receivePending_fits (hopen : 0 ≤ msqid)
    (h : ∀ msg ∈ channel.queue, msg.msgLen ≤ GOPHER_IPC_MSG_LEN) :
    (receivePending msqid msgType channel).2.queue = [] ∧
      ∀ msg, channel.queue.getLast? = some msg →
        (receivePending msqid msgType channel).1 = true ∧
        (receivePending msqid msgType channel).2.buffer.msgLen = msg.msgLen ∧
        (receivePending msqid msgType channel).2.buffer.msg.Holds 0
          (msg.msg.bytes 0 msg.msgLen) := by
  unfold receivePending
  rw [if_neg (by omega)]
  exact receiveAll_fits (fun msg hmsg => Nat.add_le_add_right (h msg hmsg) _) _ _

theorem receivePending_blocked (hopen : 0 ≤ msqid) {msg : IpcMsg} (hmsg : msg ∈ channel.queue)
    (hlong : GOPHER_IPC_MSG_LEN < msg.msgLen) :
    msg ∈ (receivePending msqid msgType channel).2.queue := by
  unfold receivePending
  rw [if_neg (by omega)]
  exact receiveAll_blocked hmsg (Nat.add_lt_add_right hlong _) _ _

-- What a fitting body is sent as.
theorem create_fitting {body : IpcBody} {msg : IpcMsg} (hbody : body.WellFormed)
    (hfit : (encodeBody body).length ≤ GOPHER_IPC_MSG_LEN)
    (hmsg : createIpcMsg true body msgType = some msg) :
    msg.msgLen = (encodeBody body).length ∧ msg.msg.bytes 0 msg.msgLen = encodeBody body := by
  have hsmall := Nat.lt_of_le_of_lt hfit (show GOPHER_IPC_MSG_LEN < 65536 by decide)
  have hmade := createIpcMsg_eq body msgType hbody.2 hsmall
  rw [hmsg] at hmade
  obtain rfl := Option.some.inj hmade
  exact ⟨rfl, Memory.bytes_of_holds
    (Memory.write_holds (fun _ => 0) 0 (encodeBody body))⟩

theorem Channel.Holds.fits (h : channel.Holds msqid msgType calls)
    (hfit : ∀ body ∈ pending calls, (encodeBody body).length ≤ GOPHER_IPC_MSG_LEN) :
    ∀ msg ∈ channel.queue, msg.msgLen ≤ GOPHER_IPC_MSG_LEN := by
  intro msg hmsg
  obtain ⟨body, hbody, hcreate⟩ := h.body_of_mem hmsg
  rw [(create_fitting (h.wellFormed body hbody) (hfit body hbody) hcreate).1]
  exact hfit body hbody

theorem Channel.Holds.drained (h : channel.Holds msqid msgType calls)
    (hfit : ∀ body ∈ pending calls, (encodeBody body).length ≤ GOPHER_IPC_MSG_LEN) :
    (receivePending msqid msgType channel).2.queue = [] := by
  by_cases hpending : pending calls = []
  · refine receivePending_queue_nil ?_
    have hqueue := h.queue
    rw [hpending] at hqueue
    exact List.map_eq_nil_iff.mp hqueue
  · exact (receivePending_fits (h.opened hpending) (h.fits hfit)).1

theorem Channel.Holds.recv (h : channel.Holds msqid msgType calls) {malloc : ℕ → Bool}
    {given : IpcBody}
    (hfit : ∀ body ∈ pending calls, (encodeBody body).length ≤ GOPHER_IPC_MSG_LEN) :
    (channel.call msqid msgType (.recv malloc given)).Holds msqid msgType
      (calls ++ [.recv malloc given]) := by
  have hdrained := h.drained hfit
  refine ⟨?_, ?_, ?_⟩
  · simp [pending_recv]
  · rw [pending_recv]
    show (receivePending msqid msgType channel).2.queue.map some = _
    rw [hdrained]
    rfl
  · simp [pending_recv]

-- The buffer that the last body is decoded from.
theorem Channel.Holds.received (h : channel.Holds msqid msgType calls) {body : IpcBody}
    (hfit : ∀ body ∈ pending calls, (encodeBody body).length ≤ GOPHER_IPC_MSG_LEN)
    (hbody : (pending calls).getLast? = some body) :
    (receivePending msqid msgType channel).1 = true ∧
      (receivePending msqid msgType channel).2.buffer.msgLen = (encodeBody body).length ∧
      (receivePending msqid msgType channel).2.buffer.msg.Holds 0 (encodeBody body) := by
  have hmem : body ∈ pending calls := List.mem_of_getLast? hbody
  obtain ⟨msg, hlast, hcreate⟩ := h.last hbody
  obtain ⟨hlen, hbytes⟩ := create_fitting (h.wellFormed body hmem) (hfit body hmem) hcreate
  obtain ⟨hrcvd, hbuffer, hholds⟩ :=
    (receivePending_fits (h.opened (List.ne_nil_of_mem hmem)) (h.fits hfit)).2 msg hlast
  rw [hbytes] at hholds
  exact ⟨hrcvd, hbuffer.trans hlen, hholds⟩

theorem Channel.Holds.delivers (h : channel.Holds msqid msgType calls) {malloc : ℕ → Bool}
    {given : IpcBody} (hallowed : Deliverable calls channel (.recv malloc given)) :
    Delivers msqid msgType calls channel (.recv malloc given) := by
  intro body hbody
  obtain ⟨hfit, hlast⟩ := hallowed
  have hmem : body ∈ pending calls := List.mem_of_getLast? hbody
  obtain ⟨hrcvd, hlen, hholds⟩ := h.received hfit hbody
  have hdecodes : ∃ fuel decoded, deserializeIpcMsg malloc fuel
      (receivePending msqid msgType channel).2.buffer.msg (encodeBody body).length .zero =
        some (((encodeBody body).length : Int), decoded) ∧ SameBody body decoded :=
    deserializeIpcMsg_procs (h.wellFormed body hmem).1 (hlast body hbody) (hfit body hmem) hholds
  obtain ⟨fuel, decoded, hrun, hsame⟩ := hdecodes
  refine ⟨h.drained hfit, fuel, decoded, ?_, hsame⟩
  have hshort := hfit body hmem
  simp only [recvIpcMsg, hrcvd, hlen, hrun, Option.bind_eq_bind, Option.bind_some, Bool.not_true,
    Bool.false_eq_true, if_false]
  rw [if_neg (by omega), if_neg (by omega)]
  rfl

-- A body with any other object is not decoded, and a message that is too long is
-- not even received.
theorem Channel.Holds.deliverable (h : channel.Holds msqid msgType calls) {malloc : ℕ → Bool}
    {given : IpcBody} (hbound : ∀ body ∈ pending calls, (encodeBody body).length < 2 ^ 32)
    (hdelivers : Delivers msqid msgType calls channel (.recv malloc given)) :
    Deliverable calls channel (.recv malloc given) := by
  rcases List.eq_nil_or_concat (pending calls) with hnil | ⟨front, last, hconcat⟩
  · simp [Deliverable, hnil]
  have hlast : (pending calls).getLast? = some last := by simp [hconcat]
  have hmem : last ∈ pending calls := List.mem_of_getLast? hlast
  have hopen := h.opened (List.ne_nil_of_mem hmem)
  obtain ⟨hempty, fuel, received, hrecv, -⟩ := hdelivers last hlast
  have hfit : ∀ body ∈ pending calls, (encodeBody body).length ≤ GOPHER_IPC_MSG_LEN := by
    intro body hbody
    by_contra hlong
    obtain ⟨msg, hmsg, hcreate⟩ := h.msg_of_mem hbody
    have hlen := msgLen_of_create hcreate
    rw [calcIpcMsgLen_eq body (hbound body hbody)] at hlen
    have hblocked : msg ∈ (receivePending msqid msgType channel).2.queue :=
      receivePending_blocked hopen hmsg (by omega)
    rw [hempty] at hblocked
    exact List.not_mem_nil hblocked
  refine ⟨hfit, fun body hbody => ?_⟩
  obtain rfl : last = body := Option.some.inj (hlast.symm.trans hbody)
  obtain ⟨hrcvd, hlen, hholds⟩ := h.received hfit hlast
  by_contra hnot
  simp only [not_forall, Bool.not_eq_true] at hnot
  obtain ⟨obj, hobj, hproc⟩ := hnot
  have hshort := hfit last hmem
  simp only [recvIpcMsg, hrcvd, hlen, Bool.not_true, Bool.false_eq_true, if_false] at hrecv
  rw [if_neg (by omega)] at hrecv
  obtain ⟨⟨len, decoded⟩, hrun, hresult⟩ := Option.bind_eq_some_iff.mp hrecv
  have hfailed := deserializeIpcMsg_notProc (h.wellFormed last hmem).2 hshort ⟨obj, hobj, hproc⟩
    hholds fuel _ hrun
  dsimp only at hfailed hresult
  rw [if_pos (by omega)] at hresult
  simp at hresult

end Step

section Run

variable {msqid msgType : ℤ} {buffer : IpcMsg} {calls : List IpcCall}

theorem holds_call {calls : List IpcCall} {channel : Channel} {call : IpcCall}
    (h : channel.Holds msqid msgType calls) (hlegal : Accepted msqid msgType calls channel call)
    (hallowed : Deliverable calls channel call) :
    (channel.call msqid msgType call).Holds msqid msgType (calls ++ [call]) := by
  cases call with
  | send env body => exact h.send hlegal.1 hlegal.2
  | recv malloc given => exact h.recv hallowed.1

theorem delivers_of_deliverable
    (hsent : EachStep (Channel.call msqid msgType) ⟨[], buffer⟩ (Accepted msqid msgType) calls)
    (h : EachStep (Channel.call msqid msgType) ⟨[], buffer⟩ Deliverable calls) :
    EachStep (Channel.call msqid msgType) ⟨[], buffer⟩ (Delivers msqid msgType) calls := by
  refine (hsent.and h).imp (Channel.Holds msqid msgType · ·) (Channel.holds_init _ _ _)
    (fun done channel call hinv hboth => holds_call hinv hboth.1 hboth.2) ?_
  intro done channel call hinv hboth
  cases call with
  | send env body => trivial
  | recv malloc given => exact hinv.delivers hboth.2

-- A length that the `u32` of a message holds.
def Bounded : IpcCall → Prop
  | .send _ body => (encodeBody body).length < 2 ^ 32
  | .recv _ _ => True

theorem bounded_pending {call : IpcCall} {calls : List IpcCall} (hcall : Bounded call)
    (h : ∀ body ∈ pending calls, (encodeBody body).length < 2 ^ 32) :
    ∀ body ∈ pending (calls ++ [call]), (encodeBody body).length < 2 ^ 32 := by
  cases call with
  | send env body =>
      rw [pending_send]
      intro other hother
      rcases List.mem_append.mp hother with hother | hother
      · exact h other hother
      · rw [List.mem_singleton.mp hother]
        exact hcall
  | recv malloc given => simp [pending_recv]

theorem deliverable_of_delivers
    (hsent : EachStep (Channel.call msqid msgType) ⟨[], buffer⟩ (Accepted msqid msgType) calls)
    (hbounded : ∀ call ∈ calls, Bounded call)
    (h : EachStep (Channel.call msqid msgType) ⟨[], buffer⟩ (Delivers msqid msgType) calls) :
    EachStep (Channel.call msqid msgType) ⟨[], buffer⟩ Deliverable calls := by
  have hbound : EachStep (Channel.call msqid msgType) ⟨[], buffer⟩ (fun _ _ => Bounded) calls :=
    fun earlier call later heq => hbounded call (by simp [heq])
  refine EachStep.of_needed (fun calls channel => channel.Holds msqid msgType calls ∧
      ∀ body ∈ pending calls, (encodeBody body).length < 2 ^ 32)
    ⟨Channel.holds_init _ _ _, by simp [pending]⟩ ?_ ?_ (hsent.and hbound) h
  · intro done channel call hinv hlegal hallowed
    exact ⟨holds_call hinv.1 hlegal.1 hallowed, bounded_pending hlegal.2 hinv.2⟩
  · intro done channel call hinv hlegal hneeded
    cases call with
    | send env body => trivial
    | recv malloc given => exact hinv.1.deliverable hinv.2 hneeded

-- Every receive delivers when it finds deliverable bodies only, and not otherwise
-- where the lengths fit the `u32` they are kept in.
theorem delivers_iff
    (hsent : EachStep (Channel.call msqid msgType) ⟨[], buffer⟩ (Accepted msqid msgType) calls) :
    (EachStep (Channel.call msqid msgType) ⟨[], buffer⟩ Deliverable calls →
        EachStep (Channel.call msqid msgType) ⟨[], buffer⟩ (Delivers msqid msgType) calls) ∧
      ((∀ call ∈ calls, Bounded call) →
        EachStep (Channel.call msqid msgType) ⟨[], buffer⟩ (Delivers msqid msgType) calls →
        EachStep (Channel.call msqid msgType) ⟨[], buffer⟩ Deliverable calls) :=
  ⟨delivers_of_deliverable hsent, deliverable_of_delivers hsent⟩

end Run

def sendBody (body : IpcBody) : IpcCall := .send ⟨true, true⟩ body

def recvBody : IpcCall := .recv (fun _ => true) .zero

theorem sendIpcMsg_of_create (env : SendEnv) {msqid msgType : ℤ} {body : IpcBody} {msg : IpcMsg}
    (hmsqid : 0 ≤ msqid) (htype : PROBE_BASEINFO ≤ msgType ∧ msgType < PROBE_TYPE_MAX)
    (hcreate : createIpcMsg env.malloc body msgType = some msg) (hsnd : env.msgsnd = true)
    (channel : Channel) : (sendIpcMsg env msqid msgType body channel).1 = 0 := by
  unfold sendIpcMsg
  rw [if_neg (by omega), if_neg (by omega), hcreate]
  simp [hsnd]

theorem accepted_sendBody {body : IpcBody} (hbody : body.WellFormed)
    (hlen : (encodeBody body).length < 65536) (calls : List IpcCall) (channel : Channel) :
    Accepted 0 1 calls channel (sendBody body) := by
  have hcreate := createIpcMsg_eq body 1 hbody.2 hlen
  exact ⟨hbody, sendIpcMsg_of_create ⟨true, true⟩ (Int.le_refl 0) (by decide) hcreate rfl channel⟩

theorem wellFormed_proc (procId : UInt32) : (IpcBody.single (.proc procId)).WellFormed :=
  ⟨Nat.one_le_iff_ne_zero.mpr (by decide), by simp [objs_single, SnooperObj.WellFormed]⟩

theorem length_encodeBody_proc (procId : UInt32) :
    (encodeBody (.single (.proc procId))).length = IPC_TLV_LEN_DEFAULT + 8 := by
  rw [length_encodeBody_single]
  rfl

theorem deliverable_proc (procId : UInt32) (channel : Channel) :
    Deliverable [sendBody (.single (.proc procId))] channel recvBody := by
  have hpending : pending [sendBody (.single (.proc procId))] = [.single (.proc procId)] := rfl
  refine ⟨fun body hbody => ?_, fun body hbody => ?_⟩
  · rw [hpending, List.mem_singleton] at hbody
    rw [hbody, length_encodeBody_proc]
    decide
  · rw [hpending, List.getLast?_singleton, Option.some.injEq] at hbody
    rw [← hbody, objs_single]
    simp [SnooperObj.isProc]

theorem delivers_iff_proc :
    EachStep (Channel.call 0 1) ⟨[], ⟨0, 0, fun _ => 0⟩⟩ (Delivers 0 1)
      [sendBody (.single (.proc 7)), recvBody] := by
  have hlen := length_encodeBody_proc 7
  have hsmall : IPC_TLV_LEN_DEFAULT + 8 < 65536 := by decide
  have hsend := accepted_sendBody (wellFormed_proc 7) (hlen ▸ hsmall)
  refine (delivers_iff ?_).1 ?_
  · exact eachStep_cons.mpr ⟨hsend _ _, eachStep_cons.mpr ⟨trivial, eachStep_nil⟩⟩
  · exact eachStep_cons.mpr ⟨trivial, eachStep_cons.mpr ⟨deliverable_proc 7 _, eachStep_nil⟩⟩

-- A body with one database that has this address and nothing else.
def addressBody (block : List UInt8) : IpcBody :=
  .single (.gaussdb { SnooperGaussdb.zero with ip := some block })

theorem wellFormed_addressBody {block : List UInt8} (h : 0 ∈ block) :
    (addressBody block).WellFormed := by
  refine ⟨Nat.one_le_iff_ne_zero.mpr (by decide), ?_⟩
  simp [addressBody, objs_single, SnooperObj.WellFormed, SnooperGaussdb.strings,
    SnooperGaussdb.zero, NulTerminated, h]

theorem length_addressBody (block : List UInt8) :
    (encodeBody (addressBody block)).length = IPC_TLV_LEN_DEFAULT + (strlen block + 13) := by
  rw [addressBody, length_encodeBody_single]
  simp only [encodeObj, encodeGaussdb, encodeStrings, SnooperGaussdb.strings, SnooperGaussdb.zero,
    length_encodeTlv, List.length_append, Memory.length_encodeU32, List.length_flatMap,
    length_encodeString, List.map_cons, List.map_nil, List.sum_cons, List.sum_nil, stringTlvLen,
    TLV_SIZE]
  omega

theorem strlen_replicate (n : ℕ) : strlen (List.replicate n 65 ++ [0]) = n := by
  rw [strlen_eq, cstr, List.takeWhile_append_of_pos (by simp)]
  simp

-- The body with the long address stays at the head of the queue, and the process
-- behind it is never received.
theorem longAddress_not_delivered :
    ¬∀ (msqid msgType : ℤ) (buffer : IpcMsg) (calls : List IpcCall),
      EachStep (Channel.call msqid msgType) ⟨[], buffer⟩ (Accepted msqid msgType) calls →
      EachStep (Channel.call msqid msgType) ⟨[], buffer⟩ (Delivers msqid msgType) calls := by
  intro h
  obtain ⟨address, haddress, hstrlen⟩ : ∃ address : List UInt8, 0 ∈ address ∧
      strlen address = 1000 :=
    ⟨_, List.mem_append_right _ (List.mem_singleton_self 0), strlen_replicate 1000⟩
  have hlong : (encodeBody (addressBody address)).length = IPC_TLV_LEN_DEFAULT + 1013 := by
    rw [length_addressBody, hstrlen]
  have hshort := length_encodeBody_proc 7
  have hdefault : IPC_TLV_LEN_DEFAULT = 3180 := by decide
  have hsent : EachStep (Channel.call 0 1) ⟨[], ⟨0, 0, fun _ => 0⟩⟩ (Accepted 0 1)
      [sendBody (addressBody address), sendBody (.single (.proc 7)), recvBody] :=
    eachStep_cons.mpr ⟨accepted_sendBody (wellFormed_addressBody haddress) (by omega) _ _,
      eachStep_cons.mpr ⟨accepted_sendBody (wellFormed_proc 7) (by omega) _ _,
        eachStep_cons.mpr ⟨trivial, eachStep_nil⟩⟩⟩
  have hbounded : ∀ call ∈ [sendBody (addressBody address), sendBody (.single (.proc 7)),
      recvBody], Bounded call := by
    have haddress : Bounded (sendBody (addressBody address)) := by
      show (encodeBody (addressBody address)).length < 2 ^ 32
      omega
    have hproc : Bounded (sendBody (.single (.proc 7))) := by
      show (encodeBody (.single (.proc 7))).length < 2 ^ 32
      omega
    have hrecv : Bounded recvBody := trivial
    simp [haddress, hproc, hrecv]
  have hdeliverable := deliverable_of_delivers hsent hbounded (h 0 1 _ _ hsent)
  have hpending : addressBody address ∈
      pending [sendBody (addressBody address), sendBody (.single (.proc 7))] := by
    simp [pending, sendBody]
  have hfit := (hdeliverable [_, _] recvBody [] rfl).1 _ hpending
  rw [hlong, hdefault] at hfit
  exact absurd hfit (by decide)

end Gopher.Ipc
