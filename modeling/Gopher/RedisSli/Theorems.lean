import Gopher.Lib.Run
import Gopher.RedisSli
import Mathlib.Tactic.SplitIfs

namespace Gopher.RedisSli

open Lib

-- Bytes taken out of the two storages of replies.
structure Drained where
  buf : ℕ
  list : ℕ
  deriving DecidableEq

def Drained.add (drained : Drained) (before after : Client) : Drained :=
  { buf := drained.buf + (before.bufpos.toNat - after.bufpos.toNat)
    list := drained.list + (before.replyBytes.toNat - after.replyBytes.toNat) }

-- A call in progress, with the client as its entry found it.
inductive Call
  | processCommand (client : Client)
  | writeToClient (client : Client)
  deriving DecidableEq

-- A sampled command: the time of the last read before it, the client at its entry and at
-- its return, the bytes drained since that read, and when it was marked finished.
structure Sample where
  number : ℕ
  name : Text
  read : UInt64
  entered : Client
  returned : Option Client
  drained : Drained
  finish : Option UInt64
  deriving DecidableEq

structure Finish where
  sample : Option Sample
  atWrite : Bool
  deriving DecidableEq

structure Report where
  sample : Option Sample
  event : CmdEventData
  deriving DecidableEq

-- The connection, and what has been seen of it. `skipped` tells that the last read found
-- a sampled command.
structure Traced where
  conn : Conn
  call : Option Call
  read : UInt64
  skipped : Bool
  drained : Drained
  sampled : ℕ
  sample : Option Sample
  finishes : List Finish
  reports : List Report

def Traced.initial : Traced :=
  { conn := { connData := none, processCommandStash := false, writeToClientStash := false }
    call := none, read := 0, skipped := false, drained := ⟨0, 0⟩, sampled := 0, sample := none
    finishes := [], reports := [] }

-- A command that is entered now is sampled.
def Conn.Idle (conn : Conn) : Prop := ∃ connData ∈ conn.connData, connData.cmdNums = 0

-- A command is sampled already.
def Conn.Sampled (conn : Conn) : Prop := ∃ connData ∈ conn.connData, 0 < connData.cmdNums

-- The sampled command is marked finished.
def Finishes (before after : Conn) : Prop :=
  ∃ old ∈ before.connData, ∃ new ∈ after.connData,
    0 < old.cmdNums ∧ old.cmd.finished = false ∧ new.cmd.finished = true

instance (conn : Conn) : Decidable conn.Idle :=
  inferInstanceAs (Decidable (∃ connData ∈ conn.connData, connData.cmdNums = 0))

instance (conn : Conn) : Decidable conn.Sampled :=
  inferInstanceAs (Decidable (∃ connData ∈ conn.connData, 0 < connData.cmdNums))

instance (before after : Conn) : Decidable (Finishes before after) :=
  inferInstanceAs (Decidable (∃ old ∈ before.connData, ∃ new ∈ after.connData,
    0 < old.cmdNums ∧ old.cmd.finished = false ∧ new.cmd.finished = true))

-- The first return after the entry of a command is its own.
def Sample.onReturn (client : Client) (sample : Sample) : Sample :=
  { sample with returned := sample.returned <|> some client }

def Sample.onDrain (before after : Client) (sample : Sample) : Sample :=
  { sample with drained := sample.drained.add before after }

def observe (traced : Traced) (action : Action) : Traced :=
  match action.event with
  | .readQueryFromClient _ _ _ _ =>
      { traced with
        read := action.tsNsec, skipped := decide traced.conn.Sampled, drained := ⟨0, 0⟩ }
  | .processCommand name client =>
      { traced with
        call := some (.processCommand client)
        sampled := if traced.conn.Idle then traced.sampled + 1 else traced.sampled
        sample :=
          if traced.conn.Idle then
            some
              { number := traced.sampled, name := name.take (MAX_REDIS_CMD_LEN - 1)
                read := traced.read, entered := client, returned := none
                drained := traced.drained, finish := none }
          else traced.sample }
  | .processCommandReturn client =>
      { traced with call := none, sample := traced.sample.map (Sample.onReturn client) }
  | .writeToClient client => { traced with call := some (.writeToClient client) }
  | .writeToClientReturn after _ =>
      match traced.call with
      | some (.writeToClient before) =>
          { traced with
            call := none
            drained := traced.drained.add before after
            sample := traced.sample.map (Sample.onDrain before after) }
      | _ => { traced with call := none }
  | .freeClient => traced

def Action.isWriteReturn (action : Action) : Bool :=
  match action.event with
  | .writeToClientReturn _ _ => true
  | _ => false

def step (traced : Traced) (action : Action) : Traced :=
  let acted := act traced.conn action
  let seen := observe traced action
  let sample :=
    if Finishes traced.conn acted.2 then
      seen.sample.map fun sample => { sample with finish := some action.tsNsec }
    else seen.sample
  { seen with
    conn := acted.2
    sample
    finishes := seen.finishes ++
      if Finishes traced.conn acted.2 then [⟨sample, action.isWriteReturn⟩] else []
    reports := seen.reports ++ acted.1.toList.map fun event => ⟨sample, event⟩ }

-- The event tells the time from the last read before the command to its end.
def Report.Measured (report : Report) : Prop :=
  ∃ sample ∈ report.sample, ∃ finish ∈ sample.finish, sample.read ≤ finish ∧
    report.event.timeoutNsec = finish - sample.read ∧ report.event.name = sample.name

-- A command whose reply went to a storage is finished by a write, and when the bytes
-- drained since the read have reached the reply there.
def Finish.Drained (finish : Finish) : Prop :=
  ∃ sample ∈ finish.sample, ∃ returned ∈ sample.returned,
    (sample.entered.bufpos < returned.bufpos →
      finish.atWrite = true ∧ returned.bufpos.toNat ≤ sample.drained.buf) ∧
    (sample.entered.replyBytes < returned.replyBytes →
      finish.atWrite = true ∧ returned.replyBytes.toNat ≤ sample.drained.list)

structure Faithful (traced : Traced) : Prop where
  once : (traced.reports.map fun report => report.sample.map Sample.number).Nodup
  measured : ∀ report ∈ traced.reports, report.Measured
  drained : ∀ finish ∈ traced.finishes, finish.Drained

-- The time at which the action is over.
def Action.endTsNsec (action : Action) : UInt64 :=
  match action.event with
  | .readQueryFromClient _ _ _ smpTsNsec => smpTsNsec
  | _ => action.tsNsec

def Action.Ordered (action : Action) : Prop :=
  match action.event with
  | .readQueryFromClient _ _ idTsNsec smpTsNsec =>
      action.tsNsec ≤ idTsNsec ∧ idTsNsec ≤ smpTsNsec
  | _ => True

-- Whether the action can come next to the call in progress.
def Call.Fits (call : Option Call) (action : Action) : Prop :=
  match action.event with
  | .processCommand _ _ | .writeToClient _ => call = none
  | .processCommandReturn _ => ∃ client, call = some (.processCommand client)
  | .writeToClientReturn _ _ => ∃ client, call = some (.writeToClient client)
  | _ => True

-- The clock does not go back, and the calls do not nest.
structure Legal (done : List Action) (traced : Traced) (action : Action) : Prop where
  after : ∀ earlier ∈ done, earlier.endTsNsec ≤ action.tsNsec
  ordered : action.Ordered
  fits : Call.Fits traced.call action

-- A command is sampled after a read that found none sampled, and its reply does not go
-- to both storages.
def Allowed (_ : List Action) (traced : Traced) (action : Action) : Prop :=
  match action.event with
  | .processCommand _ _ => traced.conn.Idle → traced.skipped = false
  | .processCommandReturn client =>
      traced.conn.Sampled → ∀ sample ∈ traced.sample, sample.returned = none →
        ¬ (sample.entered.bufpos < client.bufpos ∧ sample.entered.replyBytes < client.replyBytes)
  | _ => True

instance (call : Option Call) : Decidable (∃ client, call = some (.processCommand client)) :=
  match call with
  | none => isFalse (by simp)
  | some (.processCommand client) => isTrue ⟨client, rfl⟩
  | some (.writeToClient _) => isFalse (by simp)

instance (call : Option Call) : Decidable (∃ client, call = some (.writeToClient client)) :=
  match call with
  | none => isFalse (by simp)
  | some (.processCommand _) => isFalse (by simp)
  | some (.writeToClient client) => isTrue ⟨client, rfl⟩

instance (action : Action) : Decidable action.Ordered := by
  unfold Action.Ordered
  split <;> infer_instance

instance (call : Option Call) (action : Action) : Decidable (Call.Fits call action) := by
  unfold Call.Fits
  split <;> infer_instance

instance (done : List Action) (traced : Traced) (action : Action) :
    Decidable (Legal done traced action) :=
  decidable_of_iff ((∀ earlier ∈ done, earlier.endTsNsec ≤ action.tsNsec) ∧ action.Ordered ∧
      Call.Fits traced.call action)
    ⟨fun h => ⟨h.1, h.2.1, h.2.2⟩, fun h => ⟨h.after, h.ordered, h.fits⟩⟩

instance (done : List Action) (traced : Traced) (action : Action) :
    Decidable (Allowed done traced action) := by
  unfold Allowed
  split <;> infer_instance

instance (report : Report) : Decidable report.Measured :=
  inferInstanceAs (Decidable (∃ sample ∈ report.sample, ∃ finish ∈ sample.finish, _ ∧ _ ∧ _))

instance (finish : Finish) : Decidable finish.Drained :=
  inferInstanceAs (Decidable (∃ sample ∈ finish.sample, ∃ returned ∈ sample.returned, _ ∧ _))

-- How far a sampled command has come, and what the slot then tells of it.
inductive Phase (stash : Bool) (call : Option Call) (connData : ConnData) (sample : Sample) : Prop
  | running (hreturned : sample.returned = none) (hstash : stash = true)
      (hcall : call = some (.processCommand sample.entered))
      (hbuf : connData.curBufpos = sample.entered.bufpos)
      (hlist : connData.curListpos = sample.entered.replyBytes)
      (hfinished : connData.cmd.finished = false)
  | buffered (returned : Client) (hreturned : sample.returned = some returned)
      (hstore : connData.cmd.storeType = .staticBuffer)
      (hpos : connData.cmd.wrPos = returned.bufpos)
      (hlist : ¬ sample.entered.replyBytes < returned.replyBytes)
      (hfinished : connData.cmd.finished = false)
  | listed (returned : Client) (hreturned : sample.returned = some returned)
      (hstore : connData.cmd.storeType = .dynamicList)
      (hpos : connData.cmd.wrPos = returned.replyBytes)
      (hbuf : ¬ sample.entered.bufpos < returned.bufpos)
      (hfinished : connData.cmd.finished = false)
  | finished (returned : Client) (hreturned : sample.returned = some returned)
      (hfinish : sample.finish = some connData.cmd.endTsNsec)
      (hread : sample.read ≤ connData.cmd.endTsNsec)
      (hfinished : connData.cmd.finished = true)

-- The sampled command in the slot, not reported so far.
structure Pending (traced : Traced) (connData : ConnData) (sample : Sample) : Prop where
  name_eq : connData.cmd.name = sample.name
  start_eq : connData.cmd.startTsNsec = sample.read
  buf_le : connData.rdBufsize.toNat ≤ sample.drained.buf
  list_le : connData.rdListsize.toNat ≤ sample.drained.list
  unreported : ∀ report ∈ traced.reports, ∀ other ∈ report.sample, other.number < sample.number
  number_lt : sample.number < traced.sampled
  phase : Phase traced.conn.processCommandStash traced.call connData sample

-- What the entry of `conn_map` tells of what has been seen.
structure Tracks (traced : Traced) (connData : ConnData) : Prop where
  fresh : traced.skipped = false → connData.lastReadTsNsec = traced.read ∧
    connData.rdBufsize.toNat ≤ traced.drained.buf ∧ connData.rdListsize.toNat ≤ traced.drained.list
  writing : ∀ client, traced.call = some (.writeToClient client) →
    connData.curBufpos ≤ client.bufpos ∧ connData.curListpos ≤ client.replyBytes
  pending : 0 < connData.cmdNums → ∃ sample ∈ traced.sample, Pending traced connData sample

structure Inv (done : List Action) (traced : Traced) : Prop where
  past : ∀ now, (∀ earlier ∈ done, earlier.endTsNsec ≤ now) →
    traced.read ≤ now ∧ ∀ sample ∈ traced.sample, sample.read ≤ now
  tracks : ∀ connData ∈ traced.conn.connData, Tracks traced connData
  stash : traced.conn.processCommandStash = true →
    (∃ client, traced.call = some (.processCommand client)) ∧
      ∀ sample ∈ traced.sample, sample.returned = none
  numbers : ∀ report ∈ traced.reports, ∀ sample ∈ report.sample, sample.number < traced.sampled
  faithful : Faithful traced

section Events

variable {done : List Action} {traced : Traced} {action : Action} {connData : ConnData}
  {sample : Sample} {stash : Bool} {call : Option Call}

theorem not_finishes_self (conn : Conn) : ¬ Finishes conn conn := by
  rintro ⟨old, hold, new, hnew, -, hopen, hdone⟩
  rw [Option.mem_unique hold hnew, hdone] at hopen
  cases hopen

-- An action that neither finishes a command nor sends an event.
theorem step_quiet (hfinishes : ¬ Finishes traced.conn (act traced.conn action).2)
    (hevent : (act traced.conn action).1 = none) :
    step traced action = { observe traced action with conn := (act traced.conn action).2 } := by
  rw [step, if_neg hfinishes, if_neg hfinishes, hevent]
  simp

theorem observe_kept (traced : Traced) (action : Action) :
    (observe traced action).reports = traced.reports ∧
      (observe traced action).finishes = traced.finishes ∧
      traced.sampled ≤ (observe traced action).sampled := by
  unfold observe
  split
  · exact ⟨rfl, rfl, Nat.le_refl _⟩
  · refine ⟨rfl, rfl, ?_⟩
    dsimp only
    split_ifs <;> omega
  · exact ⟨rfl, rfl, Nat.le_refl _⟩
  · exact ⟨rfl, rfl, Nat.le_refl _⟩
  · split <;> exact ⟨rfl, rfl, Nat.le_refl _⟩
  · exact ⟨rfl, rfl, Nat.le_refl _⟩

-- No time that has been kept lies after the next action.
theorem Inv.past_step (h : Inv done traced) (hordered : action.Ordered) {now : UInt64}
    (hnow : ∀ earlier ∈ done ++ [action], earlier.endTsNsec ≤ now) :
    (step traced action).read ≤ now ∧ ∀ sample ∈ (step traced action).sample, sample.read ≤ now := by
  obtain ⟨hread, hsample⟩ := h.past now fun earlier hearlier =>
    hnow earlier (List.mem_append_left _ hearlier)
  have haction : action.endTsNsec ≤ now :=
    hnow action (List.mem_append_right _ (List.mem_singleton_self _))
  have hobserve : (observe traced action).read ≤ now ∧
      ∀ sample ∈ (observe traced action).sample, sample.read ≤ now := by
    obtain ⟨tsNsec, event⟩ := action
    cases event with
    | readQueryFromClient key room idTsNsec smpTsNsec =>
        obtain ⟨hfirst, hsecond⟩ := hordered
        exact ⟨UInt64.le_trans (UInt64.le_trans hfirst hsecond) haction, hsample⟩
    | processCommand name client =>
        refine ⟨hread, fun sample hmem => ?_⟩
        simp only [observe] at hmem
        split_ifs at hmem with hidle
        · cases hmem
          exact hread
        · exact hsample sample hmem
    | processCommandReturn client =>
        refine ⟨hread, fun sample hmem => ?_⟩
        obtain ⟨old, hold, rfl⟩ := Option.map_eq_some_iff.mp hmem
        exact hsample old hold
    | writeToClient client => exact ⟨hread, hsample⟩
    | writeToClientReturn after period =>
        simp only [observe]
        split
        · refine ⟨hread, fun sample hmem => ?_⟩
          obtain ⟨old, hold, rfl⟩ := Option.map_eq_some_iff.mp hmem
          exact hsample old hold
        · exact ⟨hread, hsample⟩
    | freeClient => exact ⟨hread, hsample⟩
  refine ⟨hobserve.1, fun sample hmem => ?_⟩
  simp only [step] at hmem
  split_ifs at hmem with hfinishes
  · obtain ⟨old, hold, rfl⟩ := Option.map_eq_some_iff.mp hmem
    exact hobserve.2 old hold
  · exact hobserve.2 sample hmem

-- Outside the call of the command a phase only reads the slot and the sample.
theorem Phase.keep (h : Phase stash call connData sample) (hstash : stash = false)
    (stash' : Bool) (call' : Option Call) {connData' : ConnData} {other : Sample}
    (hcmd : connData'.cmd = connData.cmd) (hentered : other.entered = sample.entered)
    (hreturned : ∀ returned, sample.returned = some returned → other.returned = some returned)
    (hread : other.read = sample.read) (hfinish : other.finish = sample.finish) :
    Phase stash' call' connData' other := by
  cases h with
  | running _ hrunning =>
      rw [hstash] at hrunning
      cases hrunning
  | buffered returned heq hstore hpos hlist hopen =>
      rw [← hcmd] at hstore hpos hopen
      rw [← hentered] at hlist
      exact .buffered returned (hreturned _ heq) hstore hpos hlist hopen
  | listed returned heq hstore hpos hbuf hopen =>
      rw [← hcmd] at hstore hpos hopen
      rw [← hentered] at hbuf
      exact .listed returned (hreturned _ heq) hstore hpos hbuf hopen
  | finished returned heq hend hle hdone =>
      rw [← hcmd] at hend hle hdone
      rw [← hfinish] at hend
      rw [← hread] at hle
      exact .finished returned (hreturned _ heq) hend hle hdone

-- The report of a sample that comes after all that have been reported.
def Reportable (traced : Traced) (sample : Sample) (event : CmdEventData) : Prop :=
  Report.Measured ⟨some sample, event⟩ ∧ sample.number < traced.sampled ∧
    ∀ report ∈ traced.reports, ∀ other ∈ report.sample, other.number < sample.number

theorem Faithful.step (h : Faithful traced)
    (hfinish : Finishes traced.conn (act traced.conn action).2 →
      Finish.Drained ⟨(step traced action).sample, action.isWriteReturn⟩)
    (hreport : ∀ event ∈ (act traced.conn action).1, ∃ sample ∈ (step traced action).sample,
      Reportable traced sample event) : Faithful (step traced action) := by
  obtain ⟨hreports, hfinished, -⟩ := observe_kept traced action
  obtain ⟨honce, hmeasured, hdrained⟩ := h
  have hreportsStep : (RedisSli.step traced action).reports = traced.reports ++
      (act traced.conn action).1.toList.map fun event =>
        ⟨(RedisSli.step traced action).sample, event⟩ := by
    simp only [RedisSli.step, hreports]
  constructor
  · rw [hreportsStep]
    cases hevent : (act traced.conn action).1 with
    | none => simpa using honce
    | some event =>
        obtain ⟨sample, hsample, -, -, hnewer⟩ := hreport event hevent
        rw [Option.mem_def.mp hsample]
        simp only [Option.toList_some, List.map_cons, List.map_nil, List.map_append]
        refine List.nodup_append.mpr ⟨honce, List.pairwise_singleton _ _, ?_⟩
        intro number hnumber other hother heq
        obtain ⟨report, hmem, hold⟩ := List.mem_map.mp hnumber
        rw [List.mem_singleton.mp hother, ← hold] at heq
        obtain ⟨earlier, hearlier, hsame⟩ := Option.map_eq_some_iff.mp heq
        have hlt := hnewer report hmem earlier hearlier
        omega
  · rw [hreportsStep]
    intro report hmem
    rcases List.mem_append.mp hmem with hold | hnew
    · exact hmeasured report hold
    · obtain ⟨event, hevent, rfl⟩ := List.mem_map.mp hnew
      obtain ⟨sample, hsample, hnewMeasured, -⟩ := hreport event (Option.mem_toList.mp hevent)
      rw [Option.mem_def.mp hsample]
      exact hnewMeasured
  · intro finish hmem
    rcases List.mem_append.mp hmem with hold | hnew
    · rw [hfinished] at hold
      exact hdrained finish hold
    · split_ifs at hnew with hfinishes
      · have hsample : (RedisSli.step traced action).sample =
            (observe traced action).sample.map fun sample =>
              { sample with finish := some action.tsNsec } := if_pos hfinishes
        have hlast := hfinish hfinishes
        rw [hsample] at hlast
        rw [List.mem_singleton.mp hnew]
        exact hlast
      · cases hnew

theorem numbers_step (h : Inv done traced)
    (hreport : ∀ event ∈ (act traced.conn action).1, ∃ sample ∈ (step traced action).sample,
      Reportable traced sample event) :
    ∀ report ∈ (step traced action).reports, ∀ sample ∈ report.sample,
      sample.number < (step traced action).sampled := by
  obtain ⟨hreports, -, hsampled⟩ := observe_kept traced action
  intro report hmem sample hsample
  rcases List.mem_append.mp hmem with hold | hnew
  · rw [hreports] at hold
    exact Nat.lt_of_lt_of_le (h.numbers report hold sample hsample) hsampled
  · obtain ⟨event, hevent, rfl⟩ := List.mem_map.mp hnew
    obtain ⟨other, hother, -, hlt, -⟩ := hreport event (Option.mem_toList.mp hevent)
    have hsame : sample = other := Option.mem_unique hsample hother
    rw [hsame]
    exact Nat.lt_of_lt_of_le hlt hsampled

-- What has to be looked at after an action.
theorem Inv.of_step (h : Inv done traced) (hlegal : Legal done traced action)
    (hfinish : Finishes traced.conn (act traced.conn action).2 →
      Finish.Drained ⟨(step traced action).sample, action.isWriteReturn⟩)
    (hreport : ∀ event ∈ (act traced.conn action).1, ∃ sample ∈ (step traced action).sample,
      Reportable traced sample event)
    (htracks : ∀ connData ∈ (step traced action).conn.connData, Tracks (step traced action) connData)
    (hstash : (step traced action).conn.processCommandStash = true →
      (∃ client, (step traced action).call = some (.processCommand client)) ∧
        ∀ sample ∈ (step traced action).sample, sample.returned = none) :
    Inv (done ++ [action]) (step traced action) :=
  ⟨fun _ hnow => h.past_step hlegal.ordered hnow, htracks, hstash, numbers_step h hreport,
    h.faithful.step hfinish hreport⟩

-- After an action that finishes and sends nothing only the entry and the stash.
theorem Inv.quiet (h : Inv done traced) (hlegal : Legal done traced action)
    (hfinishes : ¬ Finishes traced.conn (act traced.conn action).2)
    (hevent : (act traced.conn action).1 = none)
    (htracks : ∀ connData ∈ (act traced.conn action).2.connData,
      Tracks { observe traced action with conn := (act traced.conn action).2 } connData)
    (hstash : (act traced.conn action).2.processCommandStash = true →
      (∃ client, (observe traced action).call = some (.processCommand client)) ∧
        ∀ sample ∈ (observe traced action).sample, sample.returned = none) :
    Inv (done ++ [action]) (step traced action) := by
  apply h.of_step hlegal
  · exact fun hyes => absurd hyes hfinishes
  · rw [hevent]
    intro event hnone
    cases hnone
  · rw [step_quiet hfinishes hevent]
    exact htracks
  · rw [step_quiet hfinishes hevent]
    exact hstash

theorem recordRead_cmd (tsNsec : UInt64) (connData : ConnData) :
    (recordRead tsNsec connData).cmd = connData.cmd ∧
      (recordRead tsNsec connData).cmdNums = connData.cmdNums ∧
      (recordRead tsNsec connData).curBufpos = connData.curBufpos ∧
      (recordRead tsNsec connData).curListpos = connData.curListpos := by
  rw [recordRead]
  split_ifs <;> exact ⟨rfl, rfl, rfl, rfl⟩

-- The entry after a read is the old one, or one that is created.
theorem mem_readQueryFromClient {tsNsec : UInt64} {created : Option ConnData} {conn : Conn}
    (hmem : connData ∈ (readQueryFromClient tsNsec created conn).connData) :
    (∃ old ∈ conn.connData, connData = recordRead tsNsec old) ∨
      conn.connData = none ∧ ∃ new ∈ created, connData = recordRead tsNsec new := by
  obtain ⟨found, hfound, rfl⟩ := Option.map_eq_some_iff.mp hmem
  cases hconn : conn.connData with
  | some old =>
      rw [hconn] at hfound
      cases hfound
      exact .inl ⟨_, rfl, rfl⟩
  | none =>
      rw [hconn] at hfound
      exact .inr ⟨rfl, found, hfound, rfl⟩

theorem Inv.read (h : Inv done traced) {key : ConnKey} {room : Bool}
    {tsNsec idTsNsec smpTsNsec : UInt64}
    (hlegal : Legal done traced ⟨tsNsec, .readQueryFromClient key room idTsNsec smpTsNsec⟩) :
    Inv (done ++ [⟨tsNsec, .readQueryFromClient key room idTsNsec smpTsNsec⟩])
      (step traced ⟨tsNsec, .readQueryFromClient key room idTsNsec smpTsNsec⟩) := by
  apply h.quiet hlegal
  · rintro ⟨old, hmem, new, hnew, hnums, hopen, hdone⟩
    rcases mem_readQueryFromClient hnew with ⟨other, hother, rfl⟩ | ⟨hnone, -⟩
    · rw [Option.mem_unique hother hmem, (recordRead_cmd tsNsec old).1, hopen] at hdone
      cases hdone
    · rw [hnone] at hmem
      cases hmem
  · rfl
  · intro connData hnew
    rcases mem_readQueryFromClient hnew with ⟨old, hmem, rfl⟩ | ⟨-, new, hcreated, rfl⟩
    · obtain ⟨hcmd, hnums, hbuf, hlist⟩ := recordRead_cmd tsNsec old
      have htracks := h.tracks old hmem
      refine ⟨fun hskipped => ?_, fun client hcall => ?_, fun hpos => ?_⟩
      · have hidle : ¬ 0 < old.cmdNums := by
          intro hpos
          exact of_decide_eq_false hskipped ⟨old, hmem, hpos⟩
        rw [recordRead, if_neg hidle]
        exact ⟨rfl, Nat.le_refl _, Nat.le_refl _⟩
      · rw [hbuf, hlist]
        exact htracks.writing client hcall
      · rw [hnums] at hpos
        rw [recordRead, if_pos hpos]
        obtain ⟨sample, hsample, hpending⟩ := htracks.pending hpos
        exact ⟨sample, hsample, hpending.name_eq, hpending.start_eq, hpending.buf_le,
          hpending.list_le, hpending.unreported, hpending.number_lt, hpending.phase⟩
    · cases room with
      | false => cases hcreated
      | true =>
          cases hcreated
          refine ⟨fun _ => ⟨rfl, Nat.le_refl _, Nat.le_refl _⟩, fun client _ => ?_, fun hpos => ?_⟩
          · exact ⟨UInt64.le_iff_toNat_le.mpr (Nat.zero_le _),
              UInt64.le_iff_toNat_le.mpr (Nat.zero_le _)⟩
          · exact absurd hpos (Nat.lt_irrefl 0)
  · exact h.stash

-- Between calls none of the command is stashed.
theorem Inv.not_stashed (h : Inv done traced)
    (hcall : ∀ client, traced.call ≠ some (.processCommand client)) :
    traced.conn.processCommandStash = false := by
  rw [Bool.eq_false_iff]
  intro hstash
  obtain ⟨⟨client, hclient⟩, -⟩ := h.stash hstash
  exact hcall client hclient

-- A command that is sampled.
theorem Inv.enter_idle (h : Inv done traced) {tsNsec : UInt64} {name : Text} {client : Client}
    (hlegal : Legal done traced ⟨tsNsec, .processCommand name client⟩)
    (hallowed : Allowed done traced ⟨tsNsec, .processCommand name client⟩)
    (hidle : traced.conn.Idle) :
    Inv (done ++ [⟨tsNsec, .processCommand name client⟩])
      (step traced ⟨tsNsec, .processCommand name client⟩) := by
  have hskipped := hallowed hidle
  have hseen : observe traced ⟨tsNsec, .processCommand name client⟩ =
      { traced with
        call := some (.processCommand client)
        sampled := traced.sampled + 1
        sample := some
          { number := traced.sampled, name := name.take (MAX_REDIS_CMD_LEN - 1)
            read := traced.read, entered := client, returned := none
            drained := traced.drained, finish := none } } := by
    simp only [observe, if_pos hidle]
  obtain ⟨old, hmem, hzero⟩ := hidle
  have hconn : (act traced.conn ⟨tsNsec, .processCommand name client⟩).2 =
      { traced.conn with
        connData := some (sampleCommand name client old), processCommandStash := true } := by
    simp [act, processCommand, Option.mem_def.mp hmem, hzero]
  obtain ⟨hread, hbuf, hlist⟩ := (h.tracks old hmem).fresh hskipped
  apply h.quiet hlegal
  · rintro ⟨other, hother, new, -, hpos, -⟩
    rw [Option.mem_unique hother hmem, hzero] at hpos
    exact Nat.lt_irrefl 0 hpos
  · rfl
  · rw [hconn, hseen]
    rintro connData ⟨⟩
    refine ⟨fun _ => ⟨hread, hbuf, hlist⟩, fun other hother => ?_, fun _ => ?_⟩
    · cases hother
    · refine ⟨_, rfl, rfl, hread, hbuf, hlist, h.numbers, Nat.lt_succ_self _, ?_⟩
      exact .running rfl rfl rfl rfl rfl rfl
  · rw [hseen]
    intro _
    refine ⟨⟨client, rfl⟩, ?_⟩
    rintro sample ⟨⟩
    rfl

-- A command that is passed over: one is sampled already, or there is no connection.
theorem Inv.enter_busy (h : Inv done traced) {tsNsec : UInt64} {name : Text} {client : Client}
    (hlegal : Legal done traced ⟨tsNsec, .processCommand name client⟩)
    (hidle : ¬ traced.conn.Idle) :
    Inv (done ++ [⟨tsNsec, .processCommand name client⟩])
      (step traced ⟨tsNsec, .processCommand name client⟩) := by
  have hnone : traced.call = none := hlegal.fits
  have hfree : traced.conn.processCommandStash = false := h.not_stashed (by simp [hnone])
  have hseen : observe traced ⟨tsNsec, .processCommand name client⟩ =
      { traced with call := some (.processCommand client) } := by
    simp only [observe, if_neg hidle]
  have hconn : (act traced.conn ⟨tsNsec, .processCommand name client⟩).2 = traced.conn := by
    simp only [act, processCommand]
    split
    · rfl
    · next connData hdata =>
        rw [if_pos]
        by_contra hzero
        exact hidle ⟨connData, hdata, by omega⟩
  apply h.quiet hlegal
  · rw [hconn]
    exact not_finishes_self traced.conn
  · rfl
  · rw [hconn, hseen]
    intro connData hmem
    have htracks := h.tracks connData hmem
    refine ⟨htracks.fresh, fun other hother => ?_, fun hpos => ?_⟩
    · cases hother
    · obtain ⟨sample, hsample, hpending⟩ := htracks.pending hpos
      exact ⟨sample, hsample, hpending.name_eq, hpending.start_eq, hpending.buf_le,
        hpending.list_le, hpending.unreported, hpending.number_lt,
        hpending.phase.keep hfree _ _ rfl rfl (fun _ heq => heq) rfl rfl⟩
  · rw [hconn, hfree]
    intro hfalse
    cases hfalse

theorem Inv.enter (h : Inv done traced) {tsNsec : UInt64} {name : Text} {client : Client}
    (hlegal : Legal done traced ⟨tsNsec, .processCommand name client⟩)
    (hallowed : Allowed done traced ⟨tsNsec, .processCommand name client⟩) :
    Inv (done ++ [⟨tsNsec, .processCommand name client⟩])
      (step traced ⟨tsNsec, .processCommand name client⟩) := by
  by_cases hidle : traced.conn.Idle
  · exact h.enter_idle hlegal hallowed hidle
  · exact h.enter_busy hlegal hidle

theorem recordReply_kept (tsNsec : UInt64) (client : Client) (connData : ConnData) :
    (recordReply tsNsec client connData).cmdNums = connData.cmdNums ∧
      (recordReply tsNsec client connData).lastReadTsNsec = connData.lastReadTsNsec ∧
      (recordReply tsNsec client connData).rdBufsize = connData.rdBufsize ∧
      (recordReply tsNsec client connData).rdListsize = connData.rdListsize ∧
      (recordReply tsNsec client connData).cmd.name = connData.cmd.name ∧
      (recordReply tsNsec client connData).cmd.startTsNsec = connData.cmd.startTsNsec := by
  rw [recordReply]
  split_ifs <;> exact ⟨rfl, rfl, rfl, rfl, rfl, rfl⟩

theorem Inv.write (h : Inv done traced) {tsNsec : UInt64} {client : Client}
    (hlegal : Legal done traced ⟨tsNsec, .writeToClient client⟩) :
    Inv (done ++ [⟨tsNsec, .writeToClient client⟩])
      (step traced ⟨tsNsec, .writeToClient client⟩) := by
  have hnone : traced.call = none := hlegal.fits
  have hcall : ∀ other, traced.call ≠ some (.processCommand other) := by simp [hnone]
  have hstash := h.not_stashed hcall
  have hdata : (act traced.conn ⟨tsNsec, .writeToClient client⟩).2.connData =
      traced.conn.connData.map fun old =>
        { old with curBufpos := client.bufpos, curListpos := client.replyBytes } := by
    simp only [act, writeToClient]
    split <;> simp [*]
  have hkept : (act traced.conn ⟨tsNsec, .writeToClient client⟩).2.processCommandStash = false := by
    simp only [act, writeToClient]
    split <;> exact hstash
  apply h.quiet hlegal
  · rw [Finishes, hdata]
    rintro ⟨old, hmem, new, hnew, -, hopen, hdone⟩
    obtain ⟨other, hother, rfl⟩ := Option.map_eq_some_iff.mp hnew
    rw [Option.mem_unique hmem hother, hdone] at hopen
    cases hopen
  · rfl
  · rw [hdata]
    intro connData hnew
    obtain ⟨old, hmem, rfl⟩ := Option.map_eq_some_iff.mp hnew
    have htracks := h.tracks old hmem
    refine ⟨htracks.fresh, fun other hother => ?_, fun hpos => ?_⟩
    · cases hother
      exact ⟨UInt64.le_refl _, UInt64.le_refl _⟩
    · obtain ⟨sample, hsample, hpending⟩ := htracks.pending hpos
      exact ⟨sample, hsample, hpending.name_eq, hpending.start_eq, hpending.buf_le,
        hpending.list_le, hpending.unreported, hpending.number_lt,
        hpending.phase.keep (h.not_stashed hcall) _ _ rfl rfl (fun _ heq => heq) rfl rfl⟩
  · rw [hkept]
    intro hfalse
    cases hfalse

-- The sample after an action, given what the action does to the slot: it is marked
-- finished in the one case, and stays as it was seen in the other.
theorem step_sample {new : ConnData} {seen : Sample} (hmem : connData ∈ traced.conn.connData)
    (hnew : (act traced.conn action).2.connData = some new) (hpos : 0 < connData.cmdNums)
    (hseen : (observe traced action).sample = some seen)
    (hslot : new.cmd.finished = connData.cmd.finished ∧ Phase false none new seen ∨
      connData.cmd.finished = false ∧ new.cmd.finished = true ∧
        Phase false none new { seen with finish := some action.tsNsec } ∧
        Finish.Drained ⟨some { seen with finish := some action.tsNsec }, action.isWriteReturn⟩) :
    ∃ sample, (step traced action).sample = some sample ∧
      (sample.number = seen.number ∧ sample.name = seen.name ∧ sample.read = seen.read ∧
        sample.drained = seen.drained) ∧
      Phase false none new sample ∧
      (Finishes traced.conn (act traced.conn action).2 →
        Finish.Drained ⟨(step traced action).sample, action.isWriteReturn⟩) := by
  rcases hslot with ⟨hsame, hphase⟩ | ⟨hopen, hdone, hphase, hdrained⟩
  · have hnot : ¬ Finishes traced.conn (act traced.conn action).2 := by
      rintro ⟨old, hold, other, hother, -, hopen, hdone⟩
      rw [hnew] at hother
      cases hother
      rw [hsame, ← Option.mem_unique hold hmem, hopen] at hdone
      cases hdone
    exact ⟨seen, by rw [step, if_neg hnot, hseen], ⟨rfl, rfl, rfl, rfl⟩, hphase,
      fun hyes => absurd hyes hnot⟩
  · have hyes : Finishes traced.conn (act traced.conn action).2 :=
      ⟨connData, hmem, new, hnew, hpos, hopen, hdone⟩
    have hsample : (step traced action).sample =
        some { seen with finish := some action.tsNsec } := by
      rw [step, if_pos hyes, hseen, Option.map_some]
    refine ⟨_, hsample, ⟨rfl, rfl, rfl, rfl⟩, hphase, fun _ => ?_⟩
    rw [hsample]
    exact hdrained

theorem reportable {event : CmdEventData} (hphase : Phase stash call connData sample)
    (hname : connData.cmd.name = sample.name) (hstart : connData.cmd.startTsNsec = sample.read)
    (hfinished : connData.cmd.finished = true) (hlt : sample.number < traced.sampled)
    (hnewer : ∀ report ∈ traced.reports, ∀ other ∈ report.sample, other.number < sample.number)
    (htimeout : event.timeoutNsec = connData.cmd.endTsNsec - connData.cmd.startTsNsec)
    (hevent : event.name = connData.cmd.name) : Reportable traced sample event := by
  refine ⟨⟨sample, rfl, connData.cmd.endTsNsec, ?_⟩, hlt, hnewer⟩
  cases hphase with
  | running _ _ _ _ _ hopen => simp [hopen] at hfinished
  | buffered _ _ _ _ _ hopen => simp [hopen] at hfinished
  | listed _ _ _ _ _ hopen => simp [hopen] at hfinished
  | finished _ _ hfinish hread =>
      rw [hstart] at htimeout
      exact ⟨hfinish, hread, htimeout, hevent.trans hname⟩

-- What the return of a call does to the slot of the sampled command, and what is seen of
-- the sample then.
structure Rewrites (traced : Traced) (action : Action) (connData new : ConnData)
    (sample seen : Sample) : Prop where
  new_eq : (act traced.conn action).2.connData = some new
  stash : (act traced.conn action).2.processCommandStash = false
  call : (observe traced action).call = none
  seen_eq : (observe traced action).sample = some seen
  seen_same : seen.number = sample.number ∧ seen.name = sample.name ∧ seen.read = sample.read
  cmd : new.cmd.name = connData.cmd.name ∧ new.cmd.startTsNsec = connData.cmd.startTsNsec
  drained_le : new.rdBufsize.toNat ≤ seen.drained.buf ∧
    new.rdListsize.toNat ≤ seen.drained.list
  fresh : (observe traced action).skipped = false →
    new.lastReadTsNsec = (observe traced action).read ∧
      new.rdBufsize.toNat ≤ (observe traced action).drained.buf ∧
      new.rdListsize.toNat ≤ (observe traced action).drained.list
  event : ∀ event ∈ (act traced.conn action).1, new.cmd.finished = true ∧
    event.timeoutNsec = new.cmd.endTsNsec - new.cmd.startTsNsec ∧ event.name = new.cmd.name
  quiet : (act traced.conn action).1 = none ∨ new.cmdNums = 0
  slot : new.cmd.finished = connData.cmd.finished ∧ Phase false none new seen ∨
    connData.cmd.finished = false ∧ new.cmd.finished = true ∧
      Phase false none new { seen with finish := some action.tsNsec } ∧
      Finish.Drained ⟨some { seen with finish := some action.tsNsec }, action.isWriteReturn⟩

theorem Inv.rewrites (h : Inv done traced) (hlegal : Legal done traced action) {new : ConnData}
    {seen : Sample} (hmem : connData ∈ traced.conn.connData) (hpos : 0 < connData.cmdNums)
    (hpending : Pending traced connData sample)
    (hnew : Rewrites traced action connData new sample seen) :
    Inv (done ++ [action]) (step traced action) := by
  obtain ⟨after, hafter, ⟨hnumber, hname, hread, hdrained⟩, hphase, hfinish⟩ :=
    step_sample hmem hnew.new_eq hpos hnew.seen_eq hnew.slot
  obtain ⟨hseenNumber, hseenName, hseenRead⟩ := hnew.seen_same
  have hnameEq : new.cmd.name = after.name := by
    rw [hnew.cmd.1, hpending.name_eq, hname, hseenName]
  have hstartEq : new.cmd.startTsNsec = after.read := by
    rw [hnew.cmd.2, hpending.start_eq, hread, hseenRead]
  have hlt : after.number < traced.sampled := by
    rw [hnumber, hseenNumber]
    exact hpending.number_lt
  have hnewer : ∀ report ∈ traced.reports, ∀ other ∈ report.sample,
      other.number < after.number := by
    rw [hnumber, hseenNumber]
    exact hpending.unreported
  apply h.of_step hlegal
  · exact hfinish
  · intro event hevent
    obtain ⟨hdone, htimeout, heventName⟩ := hnew.event event hevent
    exact ⟨after, hafter, reportable hphase hnameEq hstartEq hdone hlt hnewer htimeout heventName⟩
  · intro other hother
    have hsame : other = new := Option.mem_unique hother hnew.new_eq
    rw [hsame]
    refine ⟨hnew.fresh, fun client hclient => ?_, fun hnonzero => ⟨after, hafter, hnameEq, hstartEq,
      ?_, ?_, ?_, ?_, ?_⟩⟩
    · have hcall : (step traced action).call = none := hnew.call
      rw [hcall] at hclient
      cases hclient
    · rw [hdrained]
      exact hnew.drained_le.1
    · rw [hdrained]
      exact hnew.drained_le.2
    · have hnone := hnew.quiet.resolve_right (Nat.ne_of_gt hnonzero)
      have hreports : (step traced action).reports = traced.reports := by
        simp [step, hnone, (observe_kept traced action).1]
      rw [hreports]
      exact hnewer
    · exact Nat.lt_of_lt_of_le hlt (observe_kept traced action).2.2
    · exact hphase.keep rfl _ _ rfl rfl (fun _ heq => heq) rfl rfl
  · intro hstash
    rw [show (step traced action).conn.processCommandStash = false from hnew.stash] at hstash
    cases hstash

-- The return of a sampled command: its reply is found in one of the storages, or the
-- command is over.
theorem recordReply_phase {tsNsec : UInt64} {client : Client}
    (hreturned : sample.returned = none) (hbuf : connData.curBufpos = sample.entered.bufpos)
    (hlist : connData.curListpos = sample.entered.replyBytes)
    (hopen : connData.cmd.finished = false) (hread : sample.read ≤ tsNsec)
    (hone : ¬ (sample.entered.bufpos < client.bufpos ∧
      sample.entered.replyBytes < client.replyBytes)) :
    (recordReply tsNsec client connData).cmd.finished = connData.cmd.finished ∧
        Phase false none (recordReply tsNsec client connData) (sample.onReturn client) ∨
      connData.cmd.finished = false ∧
        (recordReply tsNsec client connData).cmd.finished = true ∧
        Phase false none (recordReply tsNsec client connData)
          { sample.onReturn client with finish := some tsNsec } ∧
        Finish.Drained ⟨some { sample.onReturn client with finish := some tsNsec }, false⟩ := by
  have hclient : (sample.onReturn client).returned = some client := by
    rw [Sample.onReturn, hreturned]
    rfl
  rw [recordReply, hbuf, hlist]
  split_ifs with hinBuf hinList
  · refine .inl ⟨rfl, .buffered client hclient rfl rfl ?_ hopen⟩
    exact fun hinList => hone ⟨hinBuf, hinList⟩
  · exact .inl ⟨rfl, .listed client hclient rfl rfl hinBuf hopen⟩
  · refine .inr ⟨hopen, rfl, .finished client hclient rfl hread rfl, _, rfl, client, hclient, ?_⟩
    exact ⟨fun hyes => absurd hyes hinBuf, fun hyes => absurd hyes hinList⟩

-- The return of a call whose entry was not stashed.
theorem Inv.leave_unsampled (h : Inv done traced) {tsNsec : UInt64} {client : Client}
    (hlegal : Legal done traced ⟨tsNsec, .processCommandReturn client⟩)
    (hstash : traced.conn.processCommandStash = false) :
    Inv (done ++ [⟨tsNsec, .processCommandReturn client⟩])
      (step traced ⟨tsNsec, .processCommandReturn client⟩) := by
  have hconn : (act traced.conn ⟨tsNsec, .processCommandReturn client⟩).2 = traced.conn := by
    simp [act, processCommandReturn, hstash]
  apply h.quiet hlegal
  · rw [hconn]
    exact not_finishes_self traced.conn
  · rfl
  · rw [hconn]
    intro connData hmem
    have htracks := h.tracks connData hmem
    refine ⟨htracks.fresh, fun other hother => ?_, fun hpos => ?_⟩
    · cases hother
    · obtain ⟨sample, hsample, hpending⟩ := htracks.pending hpos
      refine ⟨sample.onReturn client, Option.mem_map_of_mem _ hsample, hpending.name_eq,
        hpending.start_eq, hpending.buf_le, hpending.list_le, hpending.unreported,
        hpending.number_lt, ?_⟩
      refine hpending.phase.keep hstash _ _ rfl rfl (fun returned heq => ?_) rfl rfl
      rw [Sample.onReturn, heq]
      rfl
  · rw [hconn, hstash]
    intro hfalse
    cases hfalse

theorem Inv.leave_sampled (h : Inv done traced) {tsNsec : UInt64} {client : Client}
    (hlegal : Legal done traced ⟨tsNsec, .processCommandReturn client⟩)
    (hallowed : Allowed done traced ⟨tsNsec, .processCommandReturn client⟩)
    (hstash : traced.conn.processCommandStash = true) (hmem : connData ∈ traced.conn.connData)
    (hpos : 0 < connData.cmdNums) :
    Inv (done ++ [⟨tsNsec, .processCommandReturn client⟩])
      (step traced ⟨tsNsec, .processCommandReturn client⟩) := by
  have htracks := h.tracks connData hmem
  obtain ⟨sample, hsample, hpending⟩ := htracks.pending hpos
  have hrunning := (h.stash hstash).2 sample hsample
  obtain ⟨hnums, hread, hbuf, hlist, hname, hstart⟩ := recordReply_kept tsNsec client connData
  have hact : act traced.conn ⟨tsNsec, .processCommandReturn client⟩ =
      (none, { traced.conn with
        connData := some (recordReply tsNsec client connData), processCommandStash := false }) := by
    simp [act, processCommandReturn, hstash, Option.mem_def.mp hmem]
  have hopen : connData.cmd.finished = false ∧ connData.curBufpos = sample.entered.bufpos ∧
      connData.curListpos = sample.entered.replyBytes := by
    cases hpending.phase with
    | running _ _ _ hcurBuf hcurList hfinished => exact ⟨hfinished, hcurBuf, hcurList⟩
    | buffered _ hreturned => simp [hrunning] at hreturned
    | listed _ hreturned => simp [hrunning] at hreturned
    | finished _ hreturned => simp [hrunning] at hreturned
  apply h.rewrites hlegal hmem hpos hpending
  constructor
  · rw [hact]
  · rw [hact]
  · rfl
  · simp only [observe, Option.mem_def.mp hsample, Option.map_some]
    rfl
  · exact ⟨rfl, rfl, rfl⟩
  · exact ⟨hname, hstart⟩
  · rw [hbuf, hlist]
    exact ⟨hpending.buf_le, hpending.list_le⟩
  · rw [hread, hbuf, hlist]
    exact htracks.fresh
  · rw [hact]
    intro event hnone
    cases hnone
  · rw [hact]
    exact .inl rfl
  · exact recordReply_phase hrunning hopen.2.1 hopen.2.2 hopen.1
      ((h.past tsNsec hlegal.after).2 sample hsample)
      (hallowed ⟨connData, hmem, hpos⟩ sample hsample hrunning)

-- The connection of the command has been freed meanwhile.
theorem Inv.leave_freed (h : Inv done traced) {tsNsec : UInt64} {client : Client}
    (hlegal : Legal done traced ⟨tsNsec, .processCommandReturn client⟩)
    (hstash : traced.conn.processCommandStash = true) (hsampled : ¬ traced.conn.Sampled) :
    Inv (done ++ [⟨tsNsec, .processCommandReturn client⟩])
      (step traced ⟨tsNsec, .processCommandReturn client⟩) := by
  have hconn : (act traced.conn ⟨tsNsec, .processCommandReturn client⟩).2 =
      { traced.conn with
        connData := traced.conn.connData.map (recordReply tsNsec client)
        processCommandStash := false } := by
    simp [act, processCommandReturn, hstash]
  apply h.quiet hlegal
  · rintro ⟨old, hmem, _, _, hpos, -⟩
    exact hsampled ⟨old, hmem, hpos⟩
  · rfl
  · rw [hconn]
    intro connData hnew
    obtain ⟨old, hmem, rfl⟩ := Option.map_eq_some_iff.mp hnew
    obtain ⟨hnums, hread, hbuf, hlist, -⟩ := recordReply_kept tsNsec client old
    refine ⟨?_, fun other hother => ?_, fun hpos => ?_⟩
    · rw [hread, hbuf, hlist]
      exact (h.tracks old hmem).fresh
    · cases hother
    · rw [hnums] at hpos
      exact absurd ⟨old, hmem, hpos⟩ hsampled
  · rw [hconn]
    intro hfalse
    cases hfalse

theorem Inv.leave (h : Inv done traced) {tsNsec : UInt64} {client : Client}
    (hlegal : Legal done traced ⟨tsNsec, .processCommandReturn client⟩)
    (hallowed : Allowed done traced ⟨tsNsec, .processCommandReturn client⟩) :
    Inv (done ++ [⟨tsNsec, .processCommandReturn client⟩])
      (step traced ⟨tsNsec, .processCommandReturn client⟩) := by
  cases hstash : traced.conn.processCommandStash with
  | false => exact h.leave_unsampled hlegal hstash
  | true =>
      by_cases hsampled : traced.conn.Sampled
      · obtain ⟨connData, hmem, hpos⟩ := hsampled
        exact h.leave_sampled hlegal hallowed hstash hmem hpos
      · exact h.leave_freed hlegal hstash hsampled

theorem observe_writeToClientReturn (tsNsec : UInt64) {before : Client} (client : Client)
    (period : Option UInt64) (hwriting : traced.call = some (.writeToClient before)) :
    observe traced ⟨tsNsec, .writeToClientReturn client period⟩ =
      { traced with
        call := none
        drained := traced.drained.add before client
        sample := traced.sample.map (Sample.onDrain before client) } := by
  simp only [observe, hwriting]

theorem drained_le {rd cur before after : UInt64} (hcur : cur ≤ before) :
    (if after < cur then rd + (cur - after) else rd).toNat ≤
      rd.toNat + (before.toNat - after.toNat) := by
  have hle := UInt64.le_iff_toNat_le.mp hcur
  split_ifs with hlt
  · have hsub : (cur - after).toNat = cur.toNat - after.toNat :=
      UInt64.toNat_sub_of_le _ _ (UInt64.le_of_lt hlt)
    have hmod := Nat.mod_le (rd.toNat + (cur.toNat - after.toNat)) (2 ^ 64)
    rw [UInt64.toNat_add, hsub]
    omega
  · omega

-- Marking the command at the return of a write: its reply is out, or nothing changes.
theorem finishCommand_phase {tsNsec : UInt64} (hphase : Phase false none connData sample)
    (hbuf : connData.rdBufsize.toNat ≤ sample.drained.buf)
    (hlist : connData.rdListsize.toNat ≤ sample.drained.list) (hread : sample.read ≤ tsNsec) :
    (finishCommand tsNsec connData).cmd.finished = connData.cmd.finished ∧
        Phase false none (finishCommand tsNsec connData) sample ∨
      connData.cmd.finished = false ∧ (finishCommand tsNsec connData).cmd.finished = true ∧
        Phase false none (finishCommand tsNsec connData)
          { sample with finish := some tsNsec } ∧
        Finish.Drained ⟨some { sample with finish := some tsNsec }, true⟩ := by
  by_cases hsent : connData.cmd.finished = false ∧ ReplySent connData
  · refine .inr ⟨hsent.1, ?_⟩
    rw [finishCommand, if_pos hsent]
    refine ⟨rfl, ?_⟩
    cases hphase with
    | running _ hstash => cases hstash
    | buffered returned hreturned hstore hpos hnoList =>
        refine ⟨.finished returned hreturned rfl hread rfl, _, rfl, returned, hreturned,
          fun _ => ⟨rfl, ?_⟩, fun hinList => absurd hinList hnoList⟩
        rcases hsent.2 with ⟨-, hle⟩ | ⟨hother, -⟩
        · rw [hpos] at hle
          exact Nat.le_trans (UInt64.le_iff_toNat_le.mp hle) hbuf
        · rw [hstore] at hother
          cases hother
    | listed returned hreturned hstore hpos hnoBuf =>
        refine ⟨.finished returned hreturned rfl hread rfl, _, rfl, returned, hreturned,
          fun hinBuf => absurd hinBuf hnoBuf, fun _ => ⟨rfl, ?_⟩⟩
        rcases hsent.2 with ⟨hother, -⟩ | ⟨-, hle⟩
        · rw [hstore] at hother
          cases hother
        · rw [hpos] at hle
          exact Nat.le_trans (UInt64.le_iff_toNat_le.mp hle) hlist
    | finished _ _ _ _ hdone =>
        rw [hsent.1] at hdone
        cases hdone
  · rw [finishCommand, if_neg hsent]
    exact .inl ⟨rfl, hphase⟩

theorem finishCommand_kept (tsNsec : UInt64) (connData : ConnData) :
    (finishCommand tsNsec connData).cmdNums = connData.cmdNums ∧
      (finishCommand tsNsec connData).lastReadTsNsec = connData.lastReadTsNsec ∧
      (finishCommand tsNsec connData).rdBufsize = connData.rdBufsize ∧
      (finishCommand tsNsec connData).rdListsize = connData.rdListsize ∧
      (finishCommand tsNsec connData).cmd.name = connData.cmd.name ∧
      (finishCommand tsNsec connData).cmd.startTsNsec = connData.cmd.startTsNsec := by
  rw [finishCommand]
  split_ifs <;> exact ⟨rfl, rfl, rfl, rfl, rfl, rfl⟩

-- The end of a period sends the command if it is finished, and frees the slot.
theorem endPeriod_event (tsNsec period : UInt64) (connData : ConnData) :
    (∀ event ∈ (endPeriod tsNsec period connData).1,
      connData.cmd.finished = true ∧ event = submitConnCmdEvent connData) ∧
    ((endPeriod tsNsec period connData).1 = none ∨
      (endPeriod tsNsec period connData).2.cmdNums = 0) := by
  rw [endPeriod]
  split_ifs with hover hfinished
  · refine ⟨?_, .inr rfl⟩
    rintro event ⟨⟩
    exact ⟨hfinished, rfl⟩
  · refine ⟨?_, .inr rfl⟩
    rintro event ⟨⟩
  · refine ⟨?_, .inl rfl⟩
    rintro event ⟨⟩

theorem endPeriod_kept (tsNsec period : UInt64) (connData : ConnData) :
    (endPeriod tsNsec period connData).2.cmd = connData.cmd ∧
      (endPeriod tsNsec period connData).2.lastReadTsNsec = connData.lastReadTsNsec ∧
      (endPeriod tsNsec period connData).2.rdBufsize = connData.rdBufsize ∧
      (endPeriod tsNsec period connData).2.rdListsize = connData.rdListsize := by
  rw [endPeriod]
  split_ifs <;> exact ⟨rfl, rfl, rfl, rfl⟩

-- The entry after the return of a write that finds a sampled command.
def writtenBack (tsNsec : UInt64) (client : Client) (period : Option UInt64)
    (connData : ConnData) : Option CmdEventData × ConnData :=
  endPeriod tsNsec (getPeriod period) (finishCommand tsNsec (recordDrained client connData))

theorem writtenBack_kept (tsNsec : UInt64) (client : Client) (period : Option UInt64)
    (connData : ConnData) :
    (writtenBack tsNsec client period connData).2.lastReadTsNsec = connData.lastReadTsNsec ∧
      (writtenBack tsNsec client period connData).2.cmd.name = connData.cmd.name ∧
      (writtenBack tsNsec client period connData).2.cmd.startTsNsec = connData.cmd.startTsNsec := by
  obtain ⟨hcmd, hread, -⟩ := endPeriod_kept tsNsec (getPeriod period)
    (finishCommand tsNsec (recordDrained client connData))
  obtain ⟨-, hreadMark, -, -, hname, hstart⟩ :=
    finishCommand_kept tsNsec (recordDrained client connData)
  refine ⟨hread.trans hreadMark, ?_, ?_⟩
  · rw [writtenBack, hcmd]
    exact hname
  · rw [writtenBack, hcmd]
    exact hstart

theorem writtenBack_drained {before : Client} (tsNsec : UInt64) (client : Client)
    (period : Option UInt64) (hbuf : connData.curBufpos ≤ before.bufpos)
    (hlist : connData.curListpos ≤ before.replyBytes) :
    (writtenBack tsNsec client period connData).2.rdBufsize.toNat ≤
        connData.rdBufsize.toNat + (before.bufpos.toNat - client.bufpos.toNat) ∧
      (writtenBack tsNsec client period connData).2.rdListsize.toNat ≤
        connData.rdListsize.toNat + (before.replyBytes.toNat - client.replyBytes.toNat) := by
  obtain ⟨-, -, hbufEnd, hlistEnd⟩ := endPeriod_kept tsNsec (getPeriod period)
    (finishCommand tsNsec (recordDrained client connData))
  obtain ⟨-, -, hbufMark, hlistMark, -⟩ :=
    finishCommand_kept tsNsec (recordDrained client connData)
  constructor
  · rw [writtenBack, hbufEnd, hbufMark]
    exact drained_le hbuf
  · rw [writtenBack, hlistEnd, hlistMark]
    exact drained_le hlist

-- What such a write does to the slot, seen from the sample before it.
theorem writtenBack_slot (tsNsec : UInt64) {before : Client} (client : Client)
    (period : Option UInt64) (hphase : Phase false call connData sample) (hbuf : connData.curBufpos ≤ before.bufpos)
    (hlist : connData.curListpos ≤ before.replyBytes)
    (hbufLe : connData.rdBufsize.toNat ≤ sample.drained.buf)
    (hlistLe : connData.rdListsize.toNat ≤ sample.drained.list) (hread : sample.read ≤ tsNsec) :
    (writtenBack tsNsec client period connData).2.cmd.finished = connData.cmd.finished ∧
        Phase false none (writtenBack tsNsec client period connData).2
          (sample.onDrain before client) ∨
      connData.cmd.finished = false ∧
        (writtenBack tsNsec client period connData).2.cmd.finished = true ∧
        Phase false none (writtenBack tsNsec client period connData).2
          { sample.onDrain before client with finish := some tsNsec } ∧
        Finish.Drained
          ⟨some { sample.onDrain before client with finish := some tsNsec }, true⟩ := by
  obtain ⟨hcmd, -⟩ := endPeriod_kept tsNsec (getPeriod period)
    (finishCommand tsNsec (recordDrained client connData))
  have hdrained : Phase false none (recordDrained client connData) (sample.onDrain before client) :=
    hphase.keep rfl _ _ rfl rfl (fun _ heq => heq) rfl rfl
  have hafterBuf : (recordDrained client connData).rdBufsize.toNat ≤
      (sample.onDrain before client).drained.buf :=
    Nat.le_trans (drained_le hbuf) (Nat.add_le_add_right hbufLe _)
  have hafterList : (recordDrained client connData).rdListsize.toNat ≤
      (sample.onDrain before client).drained.list :=
    Nat.le_trans (drained_le hlist) (Nat.add_le_add_right hlistLe _)
  have hended : ∀ {other : Sample},
      Phase false none (finishCommand tsNsec (recordDrained client connData)) other →
      Phase false none (writtenBack tsNsec client period connData).2 other :=
    fun hmarked => hmarked.keep rfl _ _ hcmd rfl (fun _ heq => heq) rfl rfl
  rw [writtenBack, hcmd]
  rcases finishCommand_phase hdrained hafterBuf hafterList hread with
    ⟨hsame, hmarked⟩ | ⟨hopen, hdone, hmarked, hreply⟩
  · exact .inl ⟨hsame, hended hmarked⟩
  · exact .inr ⟨hopen, hdone, hended hmarked, hreply⟩

theorem writtenBack_event (tsNsec : UInt64) (client : Client) (period : Option UInt64)
    (connData : ConnData) :
    (∀ event ∈ (writtenBack tsNsec client period connData).1,
      (writtenBack tsNsec client period connData).2.cmd.finished = true ∧
        event.timeoutNsec = (writtenBack tsNsec client period connData).2.cmd.endTsNsec -
          (writtenBack tsNsec client period connData).2.cmd.startTsNsec ∧
        event.name = (writtenBack tsNsec client period connData).2.cmd.name) ∧
    ((writtenBack tsNsec client period connData).1 = none ∨
      (writtenBack tsNsec client period connData).2.cmdNums = 0) := by
  obtain ⟨hcmd, -⟩ := endPeriod_kept tsNsec (getPeriod period)
    (finishCommand tsNsec (recordDrained client connData))
  obtain ⟨hsent, hnone⟩ := endPeriod_event tsNsec (getPeriod period)
    (finishCommand tsNsec (recordDrained client connData))
  refine ⟨fun event hevent => ?_, hnone⟩
  obtain ⟨hdone, rfl⟩ := hsent event hevent
  rw [writtenBack, hcmd]
  exact ⟨hdone, rfl, rfl⟩

theorem Inv.drain_sampled (h : Inv done traced) {tsNsec : UInt64} {client : Client}
    {period : Option UInt64} (hlegal : Legal done traced ⟨tsNsec, .writeToClientReturn client period⟩)
    (hstash : traced.conn.writeToClientStash = true) (hmem : connData ∈ traced.conn.connData)
    (hpos : 0 < connData.cmdNums) :
    Inv (done ++ [⟨tsNsec, .writeToClientReturn client period⟩])
      (step traced ⟨tsNsec, .writeToClientReturn client period⟩) := by
  obtain ⟨before, hwriting⟩ := hlegal.fits
  have hfree : traced.conn.processCommandStash = false := h.not_stashed (by simp [hwriting])
  have htracks := h.tracks connData hmem
  obtain ⟨hcurBuf, hcurList⟩ := htracks.writing before hwriting
  obtain ⟨sample, hsample, hpending⟩ := htracks.pending hpos
  have hact : act traced.conn ⟨tsNsec, .writeToClientReturn client period⟩ =
      ((writtenBack tsNsec client period connData).1,
        { traced.conn with
          connData := some (writtenBack tsNsec client period connData).2
          writeToClientStash := false }) := by
    have hnonzero : (recordDrained client connData).cmdNums ≠ 0 := Nat.ne_of_gt hpos
    simp only [act, writeToClientReturn, hstash, Option.mem_def.mp hmem, if_neg hnonzero]
    rfl
  have hseen : observe traced ⟨tsNsec, .writeToClientReturn client period⟩ =
      { traced with
        call := none
        drained := traced.drained.add before client
        sample := some (sample.onDrain before client) } := by
    rw [observe_writeToClientReturn tsNsec client period hwriting, Option.mem_def.mp hsample]
    rfl
  have hphase := hpending.phase
  rw [hfree] at hphase
  obtain ⟨hread, hname, hstart⟩ := writtenBack_kept tsNsec client period connData
  obtain ⟨hbuf, hlist⟩ := writtenBack_drained tsNsec client period hcurBuf hcurList
  obtain ⟨hsent, hnone⟩ := writtenBack_event tsNsec client period connData
  apply h.rewrites hlegal hmem hpos hpending
  constructor
  · rw [hact]
  · rw [hact]
    exact hfree
  · rw [hseen]
  · rw [hseen]
  · exact ⟨rfl, rfl, rfl⟩
  · exact ⟨hname, hstart⟩
  · exact ⟨Nat.le_trans hbuf (Nat.add_le_add_right hpending.buf_le _),
      Nat.le_trans hlist (Nat.add_le_add_right hpending.list_le _)⟩
  · rw [hseen]
    intro hskipped
    obtain ⟨hreadEq, hbufLe, hlistLe⟩ := htracks.fresh hskipped
    exact ⟨hread.trans hreadEq, Nat.le_trans hbuf (Nat.add_le_add_right hbufLe _),
      Nat.le_trans hlist (Nat.add_le_add_right hlistLe _)⟩
  · rw [hact]
    exact hsent
  · rw [hact]
    exact hnone
  · exact writtenBack_slot tsNsec client period hphase hcurBuf hcurList hpending.buf_le
      hpending.list_le ((h.past tsNsec hlegal.after).2 sample hsample)

-- The return of a write whose entry was not stashed.
theorem Inv.drain_unstashed (h : Inv done traced) {tsNsec : UInt64} {client : Client}
    {period : Option UInt64} (hlegal : Legal done traced ⟨tsNsec, .writeToClientReturn client period⟩)
    (hstash : traced.conn.writeToClientStash = false) :
    Inv (done ++ [⟨tsNsec, .writeToClientReturn client period⟩])
      (step traced ⟨tsNsec, .writeToClientReturn client period⟩) := by
  obtain ⟨before, hwriting⟩ := hlegal.fits
  have hcall : ∀ other, traced.call ≠ some (.processCommand other) := by simp [hwriting]
  have hact : act traced.conn ⟨tsNsec, .writeToClientReturn client period⟩ = (none, traced.conn) := by
    simp [act, writeToClientReturn, hstash]
  have hseen := observe_writeToClientReturn tsNsec client period hwriting
  apply h.quiet hlegal
  · rw [hact]
    exact not_finishes_self traced.conn
  · rw [hact]
  · rw [hact, hseen]
    intro connData hmem
    have htracks := h.tracks connData hmem
    refine ⟨fun hskipped => ?_, fun other hother => ?_, fun hpos => ?_⟩
    · obtain ⟨hread, hbuf, hlist⟩ := htracks.fresh hskipped
      exact ⟨hread, Nat.le_trans hbuf (Nat.le_add_right _ _),
        Nat.le_trans hlist (Nat.le_add_right _ _)⟩
    · cases hother
    · obtain ⟨sample, hsample, hpending⟩ := htracks.pending hpos
      refine ⟨sample.onDrain before client, Option.mem_map_of_mem _ hsample, hpending.name_eq,
        hpending.start_eq, Nat.le_trans hpending.buf_le (Nat.le_add_right _ _),
        Nat.le_trans hpending.list_le (Nat.le_add_right _ _), hpending.unreported,
        hpending.number_lt, ?_⟩
      exact hpending.phase.keep (h.not_stashed hcall) _ _ rfl rfl (fun _ heq => heq) rfl rfl
  · rw [hact, h.not_stashed hcall]
    intro hfalse
    cases hfalse

-- A write that finds no sampled command.
theorem Inv.drain_unsampled (h : Inv done traced) {tsNsec : UInt64} {client : Client}
    {period : Option UInt64} (hlegal : Legal done traced ⟨tsNsec, .writeToClientReturn client period⟩)
    (hstash : traced.conn.writeToClientStash = true) (hsampled : ¬ traced.conn.Sampled) :
    Inv (done ++ [⟨tsNsec, .writeToClientReturn client period⟩])
      (step traced ⟨tsNsec, .writeToClientReturn client period⟩) := by
  obtain ⟨before, hwriting⟩ := hlegal.fits
  have hcall : ∀ other, traced.call ≠ some (.processCommand other) := by simp [hwriting]
  have hact : act traced.conn ⟨tsNsec, .writeToClientReturn client period⟩ =
      (none, { traced.conn with
        connData := traced.conn.connData.map (recordDrained client)
        writeToClientStash := false }) := by
    simp only [act, writeToClientReturn, hstash, if_true]
    cases hdata : traced.conn.connData with
    | none => rfl
    | some connData =>
        have hzero : (recordDrained client connData).cmdNums = 0 := by
          by_contra hpos
          exact hsampled ⟨connData, hdata, Nat.pos_of_ne_zero hpos⟩
        simp [hzero]
  have hseen := observe_writeToClientReturn tsNsec client period hwriting
  apply h.quiet hlegal
  · rintro ⟨old, hold, _, _, hpos, -⟩
    exact hsampled ⟨old, hold, hpos⟩
  · rw [hact]
  · rw [hact, hseen]
    intro connData hnew
    obtain ⟨old, hmem, rfl⟩ := Option.map_eq_some_iff.mp hnew
    have htracks := h.tracks old hmem
    obtain ⟨hcurBuf, hcurList⟩ := htracks.writing before hwriting
    refine ⟨fun hskipped => ?_, fun other hother => ?_, fun hpos => ?_⟩
    · obtain ⟨hread, hbuf, hlist⟩ := htracks.fresh hskipped
      exact ⟨hread, Nat.le_trans (drained_le hcurBuf) (Nat.add_le_add_right hbuf _),
        Nat.le_trans (drained_le hcurList) (Nat.add_le_add_right hlist _)⟩
    · cases hother
    · exact absurd ⟨old, hmem, hpos⟩ hsampled
  · rw [hact, h.not_stashed hcall]
    intro hfalse
    cases hfalse

theorem Inv.drain (h : Inv done traced) {tsNsec : UInt64} {client : Client}
    {period : Option UInt64}
    (hlegal : Legal done traced ⟨tsNsec, .writeToClientReturn client period⟩) :
    Inv (done ++ [⟨tsNsec, .writeToClientReturn client period⟩])
      (step traced ⟨tsNsec, .writeToClientReturn client period⟩) := by
  cases hstash : traced.conn.writeToClientStash with
  | false => exact h.drain_unstashed hlegal hstash
  | true =>
      by_cases hsampled : traced.conn.Sampled
      · obtain ⟨connData, hmem, hpos⟩ := hsampled
        exact h.drain_sampled hlegal hstash hmem hpos
      · exact h.drain_unsampled hlegal hstash hsampled

theorem Inv.free (h : Inv done traced) {tsNsec : UInt64}
    (hlegal : Legal done traced ⟨tsNsec, .freeClient⟩) :
    Inv (done ++ [⟨tsNsec, .freeClient⟩]) (step traced ⟨tsNsec, .freeClient⟩) := by
  have hdata : (act traced.conn ⟨tsNsec, .freeClient⟩).2 = { traced.conn with connData := none } := by
    simp only [act, freeClient]
    split
    · next hnone => rw [← hnone]
    · rfl
  have hnot : ¬ Finishes traced.conn (act traced.conn ⟨tsNsec, .freeClient⟩).2 := by
    rw [hdata]
    rintro ⟨_, _, _, ⟨⟩, -⟩
  have hsample : (step traced ⟨tsNsec, .freeClient⟩).sample = traced.sample := by
    rw [step, if_neg hnot]
    rfl
  have hconn : (step traced ⟨tsNsec, .freeClient⟩).conn = _ := hdata
  apply h.of_step hlegal
  · exact fun hyes => absurd hyes hnot
  · intro event hevent
    rw [hsample]
    simp only [act, freeClient] at hevent
    split at hevent
    · cases hevent
    · next connData hmem =>
        split_ifs at hevent with hsent
        · cases hevent
          obtain ⟨sample, hold, hpending⟩ := (h.tracks connData hmem).pending hsent.1
          exact ⟨sample, hold, reportable hpending.phase hpending.name_eq hpending.start_eq hsent.2
            hpending.number_lt hpending.unreported rfl rfl⟩
        · cases hevent
  · rw [hconn]
    intro connData hnone
    cases hnone
  · rw [hconn, hsample]
    exact h.stash

theorem Inv.step (h : Inv done traced) (hlegal : Legal done traced action)
    (hallowed : Allowed done traced action) : Inv (done ++ [action]) (step traced action) := by
  obtain ⟨tsNsec, event⟩ := action
  cases event with
  | readQueryFromClient key room idTsNsec smpTsNsec => exact h.read hlegal
  | processCommand name client => exact h.enter hlegal hallowed
  | processCommandReturn client => exact h.leave hlegal hallowed
  | writeToClient client => exact h.write hlegal
  | writeToClientReturn client period => exact h.drain hlegal
  | freeClient => exact h.free hlegal

theorem Inv.start : Inv [] Traced.initial := by
  refine ⟨fun now _ => ⟨UInt64.le_iff_toNat_le.mpr (Nat.zero_le _), ?_⟩, ?_, ?_, ?_, ?_, ?_, ?_⟩
  all_goals simp [Traced.initial]

end Events

-- In a run in which every command is sampled after a read that found none sampled, and its
-- reply goes to one storage only, what is reported and marked finished is faithful.
theorem sampled_faithful (actions : List Action)
    (hlegal : EachStep step Traced.initial Legal actions)
    (hallowed : EachStep step Traced.initial Allowed actions) :
    Throughout step Traced.initial (fun _ traced => Faithful traced) actions :=
  (hlegal.and hallowed).throughout Inv Inv.start (fun _ _ hinv => hinv.faithful)
    fun _ _ _ hinv hstep => hinv.step hstep.1 hstep.2

-- A command whose reply is written at once, at the end of a period.
def firstCommand : List Action :=
  [⟨1, .readQueryFromClient ⟨100, 7⟩ true 1 1⟩, ⟨2, .processCommand "GET".toList ⟨0, 0⟩⟩,
    ⟨3, .processCommandReturn ⟨10, 0⟩⟩, ⟨4, .writeToClient ⟨10, 0⟩⟩,
    ⟨10, .writeToClientReturn ⟨0, 0⟩ (some 5)⟩]

theorem sampled_faithful_witness :
    Throughout step Traced.initial (fun _ traced => Faithful traced) firstCommand :=
  sampled_faithful _ (by decide +kernel) (by decide +kernel)

-- A read comes before the period ends, and the next command after it.
def lateCommand : List Action :=
  [⟨1, .readQueryFromClient ⟨100, 7⟩ true 1 1⟩, ⟨2, .processCommand "GET".toList ⟨0, 0⟩⟩,
    ⟨3, .processCommandReturn ⟨10, 0⟩⟩, ⟨5, .readQueryFromClient ⟨100, 7⟩ true 5 5⟩,
    ⟨6, .writeToClient ⟨10, 0⟩⟩, ⟨10, .writeToClientReturn ⟨0, 0⟩ (some 5)⟩,
    ⟨11, .processCommand "SET".toList ⟨0, 0⟩⟩, ⟨12, .processCommandReturn ⟨0, 0⟩⟩,
    ⟨13, .freeClient⟩]

-- The second latency is 11, from the first read: the last read before came at 5.
theorem latency_from_earlier_read :
    ¬ ∀ actions, EachStep step Traced.initial Legal actions →
      Throughout step Traced.initial (fun _ traced => Faithful traced) actions := by
  intro h
  have hlast := (h lateCommand (by decide +kernel)).last.measured
  exact absurd hlast (by decide +kernel)

-- A reply that begins in the static buffer and goes on in the list.
def splitReply : List Action :=
  [⟨1, .readQueryFromClient ⟨100, 7⟩ true 1 1⟩, ⟨2, .processCommand "GET".toList ⟨0, 0⟩⟩,
    ⟨3, .processCommandReturn ⟨10, 100⟩⟩, ⟨4, .writeToClient ⟨10, 100⟩⟩,
    ⟨10, .writeToClientReturn ⟨0, 100⟩ (some 5)⟩]

-- It is marked finished when the static buffer is out, the whole list still waiting.
theorem finished_before_list :
    ¬ ∀ actions, EachStep step Traced.initial Legal actions →
      Throughout step Traced.initial (fun _ traced => ∀ finish ∈ traced.finishes, finish.Drained)
        actions := by
  intro h
  exact absurd (h splitReply (by decide +kernel)).last (by decide +kernel)

end Gopher.RedisSli
