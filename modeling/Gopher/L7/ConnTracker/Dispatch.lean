import Gopher.L7.ConnTracker.Links
import Gopher.L7.DataStream.Theorems
import Gopher.L7.Inference
import Gopher.L7.ProtocolParser

namespace Gopher.L7

open Gopher.Lib Inference

variable {φ ρ : Type*}

-- The cases of the switches over the protocol. All others go to the default.
def ProtoType.matched : ProtoType → Option MatchedProto
  | .pgsql => some .pgsql
  | .http => some .http
  | _ => none

-- What the files of the protocols give. A matcher gets the frames of the requests and
-- of the responses; `none` is one that ends the process.
structure ProtoFuncs (φ ρ : Type*) where
  parser : MatchedProto → MessageType → Protocol φ
  matcher : MatchedProto → FrameBuf φ → FrameBuf φ → Option (FrameBuf φ × FrameBuf φ × RecordBuf ρ)

namespace ProtoFuncs

def protoFindFrameBoundary (funcs : ProtoFuncs φ ρ) (type : ProtoType) (msgType : MessageType)
    (raw : RawData) : Option ℕ :=
  match type.matched with
  | some proto => (funcs.parser proto msgType).findFrameBoundary raw
  | none => some 0

def protoParseFrame (funcs : ProtoFuncs φ ρ) (type : ProtoType) (msgType : MessageType)
    (call : ℕ) (raw : RawData) : ParseState × Option φ × ℕ :=
  match type.matched with
  | some proto => (funcs.parser proto msgType).parseFrame call raw
  | none => (.unknown, none, raw.currentPos)

-- The functions a parse works with.
def protocol (funcs : ProtoFuncs φ ρ) (type : ProtoType) (msgType : MessageType) : Protocol φ where
  findFrameBoundary := funcs.protoFindFrameBoundary type msgType
  parseFrame := funcs.protoParseFrame type msgType

end ProtoFuncs

def getMessageType (role : L7Role) (direction : L7Direction) : MessageType :=
  match role, direction with
  | .client, .ingress => .response
  | .client, _ => .request
  | _, .ingress => .request
  | _, _ => .response

-- The types by which a parse of the tracker selects its functions.
structure Dispatch where
  send : ProtoType
  recv : ProtoType
  matching : ProtoType

namespace ConnTracker

def dispatch (tracker : ConnTracker φ) : Dispatch where
  send := tracker.sendStream.type
  recv := tracker.recvStream.type
  matching := tracker.protocol

def setFrames (send recv : FrameBuf φ) (tracker : ConnTracker φ) : ConnTracker φ :=
  { tracker with
    sendStream := { tracker.sendStream with frameBufs := send }
    recvStream := { tracker.recvStream with frameBufs := recv } }

-- Without a role both buffers are NULL, which every matcher follows.
def matchFrames (funcs : ProtoFuncs φ ρ) (type : ProtoType) (tracker : ConnTracker φ) :
    Option (ConnTracker φ × RecordBuf ρ) :=
  match type.matched with
  | none => some (tracker, ⟨[], 0, 0, 0⟩)
  | some proto =>
      let send := tracker.sendStream.frameBufs
      let recv := tracker.recvStream.frameBufs
      match tracker.l7Role with
      | .client => (funcs.matcher proto send recv).map fun (req, resp, records) =>
          (tracker.setFrames req resp, records)
      | .server => (funcs.matcher proto recv send).map fun (req, resp, records) =>
          (tracker.setFrames resp req, records)
      | .unknown => none

def popFrames (tracker : ConnTracker φ) : ConnTracker φ :=
  tracker.setFrames tracker.sendStream.frameBufs.doPopFrames.2
    tracker.recvStream.frameBufs.doPopFrames.2

def parseStreams (funcs : ProtoFuncs φ ρ) (fuel : ℕ) (tracker : ConnTracker φ) :
    Option (ConnTracker φ) := do
  let sendType := getMessageType tracker.l7Role .egress
  let recvType := getMessageType tracker.l7Role .ingress
  let sendStream ← DataStream.dataStreamParseFrames
    (funcs.protocol tracker.dispatch.send sendType) fuel tracker.sendStream
  let recvStream ← DataStream.dataStreamParseFrames
    (funcs.protocol tracker.dispatch.recv recvType) fuel tracker.recvStream
  return { tracker with sendStream := sendStream, recvStream := recvStream }

end ConnTracker

namespace L7Mng

-- For the tracker with the given id. `none` is a parse that has not finished yet.
def l7ParserTracker (funcs : ProtoFuncs φ ρ) (fuel : ℕ) (mng : L7Mng φ) (id : TrackerId) :
    Option (L7Mng φ) :=
  match lkupConnTracker mng id with
  | none => some mng
  | some tracker => do
      let parsed ← tracker.parseStreams funcs fuel
      match parsed.matchFrames funcs parsed.dispatch.matching with
      | none => return { mng with crashed := true }
      | some (found, records) =>
          let mng := addTrackerStats records (changeTracker (fun _ => found) mng id) id
          return changeTracker ConnTracker.popFrames mng id

end L7Mng

-- The messages come in between the rounds of `l7_parser`, which parses every tracker.
inductive L7Action
  | message (msg : ConnMsg)
  | parse (id : TrackerId)

-- A crashed process parses nothing.
def l7Step (survives : Bool) (funcs : ProtoFuncs φ ρ) (mng : L7Mng φ) (action : L7Action)
    (next : L7Mng φ) : Prop :=
  match action with
  | .message msg => next = procConnMsg survives mng msg
  | .parse id => mng.crashed = false ∧ ∃ fuel, mng.l7ParserTracker funcs fuel id = some next

-- The trackers a run parses, as each parse finds them.
inductive Parsed (survives : Bool) (funcs : ProtoFuncs φ ρ) (actions : List L7Action) :
    ConnTracker φ → Prop
  | intro {before after : List L7Action} {id : TrackerId} {mng : L7Mng φ} {tracker : ConnTracker φ}
      (hsplit : actions = before ++ .parse id :: after)
      (hrun : Run (l7Step survives funcs) .empty before mng) (hrunning : mng.crashed = false)
      (hfind : lkupConnTracker mng id = some tracker) : Parsed survives funcs actions tracker

-- All that is selected for the tracker is of its protocol.
structure ConnTracker.Selects (tracker : ConnTracker φ) (type : ProtoType) : Prop where
  send : tracker.dispatch.send = type
  recv : tracker.dispatch.recv = type
  matching : tracker.dispatch.matching = type

section Streams

namespace DataStream

theorem parseRound_type (protocol : Protocol φ) {stream : DataStream φ} (label : Label)
    {type : ProtoType} (h : stream.type = type) :
    (parseRound protocol (stream, label)).elim (fun state => state.1.type = type)
      fun last => last.type = type := by
  cases hraw : stream.rawBufs with
  | nil =>
      rw [parseRound_nil protocol label hraw]
      exact h
  | cons raw rest =>
      cases label with
      | next =>
          rw [parseRound_next protocol hraw]
          cases protocol.findFrameBoundary raw with
          | none => exact h
          | some pos => exact h
      | again =>
          have hround := parseRound_again protocol hraw
          generalize parseRound protocol (stream, .again) = outcome at hround ⊢
          cases hround <;> exact h

-- A parse reads the type of the stream and does not write it.
theorem dataStreamParseFrames_type {protocol : Protocol φ} {fuel : ℕ} {stream last : DataStream φ}
    (h : dataStreamParseFrames protocol fuel stream = some last) : last.type = stream.type :=
  dataStreamParseFrames_post (fun state => state.1.type = stream.type)
    (fun last => last.type = stream.type)
    (fun state hstate => parseRound_type protocol state.2 hstate) rfl h

-- With functions selected by no protocol the first attempt ends the parse.
theorem dataStreamParseFrames_unmatched (funcs : ProtoFuncs φ ρ) {type : ProtoType}
    {msgType : MessageType} {fuel : ℕ} {stream last : DataStream φ} (htype : type.matched = none)
    (h : dataStreamParseFrames (funcs.protocol type msgType) fuel stream = some last) :
    last.frameBufs = stream.frameBufs := by
  have hparse (call : ℕ) (raw : RawData) :
      (funcs.protocol type msgType).parseFrame call raw = (.unknown, none, raw.currentPos) := by
    simp only [ProtoFuncs.protocol, ProtoFuncs.protoParseFrame, htype]
  refine dataStreamParseFrames_post (fun state => state.1.frameBufs = stream.frameBufs)
    (fun last => last.frameBufs = stream.frameBufs) ?_ rfl h
  rintro ⟨other, label⟩ hframes
  cases hraw : other.rawBufs with
  | nil =>
      rw [parseRound_nil _ label hraw]
      exact hframes
  | cons raw rest =>
      cases label with
      | next =>
          rw [parseRound_next _ hraw]
          cases (funcs.protocol type msgType).findFrameBoundary raw with
          | none => exact hframes
          | some pos => exact hframes
      | again =>
          have hround := parseRound_again (funcs.protocol type msgType) hraw
          generalize parseRound (funcs.protocol type msgType) (other, .again) = outcome at hround ⊢
          cases hround with
          | pushed hpushed hpush hleft => simp [hparse] at hpushed
          | full hfull hpush => exact hframes
          | dropped hdropped => exact hframes
          | marked hmarked hflags => exact hframes
          | overlaid hmore hrest => exact hframes
          | waiting hmore hrest => exact hframes
          | failed hinvalid hmore hframe => exact hframes

end DataStream

end Streams

section Trackers

variable {survives : Bool} {funcs : ProtoFuncs φ ρ} {mng next : L7Mng φ}

-- What is true of a new tracker and kept by all that is done to one.
structure TrackerInv (property : ConnTracker φ → Prop) : Prop where
  create : ∀ id, property (createConnTracker id)
  setOpen : ∀ tracker msg, property tracker → property (tracker.setOpen msg)
  countBytes : ∀ tracker stats, property tracker → property { tracker with stats := stats }
  setData : ∀ tracker env msg, property tracker → property (tracker.setData env msg)

theorem forall_changeTracker {property : ConnTracker φ → Prop}
    {change : ConnTracker φ → ConnTracker φ} {id : TrackerId}
    (hchange : ∀ tracker, property tracker → property (change tracker))
    (h : ∀ tracker ∈ mng.trackers, property tracker) :
    ∀ tracker ∈ (changeTracker change mng id).trackers, property tracker :=
  HashTable.forall_modify (fun tracker _ => hchange tracker) h

theorem trackers_addL7Link (env : MsgEnv) (id : LinkId) (tracker : ConnTracker φ) :
    (addL7Link survives env mng id tracker).trackers = mng.trackers := by
  unfold addL7Link
  split
  · rfl
  · split_ifs <;> rfl

theorem trackers_delL7Link (id : LinkId) : (delL7Link mng id).trackers = mng.trackers := by
  unfold delL7Link
  split
  · rfl
  · split <;> rfl

theorem forall_trackers_procConnMsg {property : ConnTracker φ → Prop}
    (hproperty : TrackerInv property) (h : ∀ tracker ∈ mng.trackers, property tracker)
    (msg : ConnMsg) : ∀ tracker ∈ (procConnMsg survives mng msg).trackers, property tracker := by
  unfold procConnMsg
  split_ifs
  · exact h
  · cases msg with
    | connOpen env id msg =>
        by_cases hrefused : lkupConnTracker mng id = none ∧ env.trackerMalloc = false
        · simpa [procConnOpen, addConnTracker, hrefused] using h
        · dsimp only
          rw [procConnOpen_eq survives msg hrefused, trackers_addL7Link]
          refine forall_changeTracker (fun tracker => hproperty.setOpen tracker msg) ?_
          split_ifs
          · exact h
          · exact List.forall_mem_cons.mpr ⟨hproperty.create id, h⟩
    | connClose id =>
        dsimp only [procConnClose]
        split
        · exact fun tracker hmem => h tracker (HashTable.del_sublist.subset hmem)
        · intro tracker hmem
          have hmem := HashTable.del_sublist.subset hmem
          rw [trackers_delL7Link] at hmem
          exact h tracker hmem
    | connStats id wrBytes rdBytes =>
        dsimp only [procConnStatsMsg]
        split
        · exact h
        · exact forall_changeTracker (fun tracker => hproperty.countBytes tracker _) h
    | connData env id msg =>
        dsimp only [procConnDataMsg]
        split
        · exact h
        · split
          · exact h
          · exact forall_changeTracker (fun tracker => hproperty.setData tracker env msg) h

-- The types both streams were created with.
def ConnTracker.Untyped (tracker : ConnTracker φ) : Prop :=
  tracker.sendStream.type = .unknown ∧ tracker.recvStream.type = .unknown

theorem type_addRawData (env : MsgEnv) (msg : ConnData) (stream : DataStream φ) :
    (addRawData env msg stream).type = stream.type := by
  unfold addRawData
  split_ifs
  · cases hadd : stream.dataStreamAddRawData msg.data msg.timestampNs with
    | none => rfl
    | some added =>
        rw [DataStream.dataStreamAddRawData_eq hadd]
        rfl
  · rfl

theorem trackerInv_untyped : TrackerInv (ConnTracker.Untyped (φ := φ)) where
  create id := ⟨rfl, rfl⟩
  setOpen tracker msg h := h
  countBytes tracker stats h := h
  setData tracker env msg h := by
    unfold ConnTracker.setData
    cases msg.direction with
    | egress => exact ⟨(type_addRawData env msg _).trans h.1, h.2⟩
    | ingress => exact ⟨h.1, (type_addRawData env msg _).trans h.2⟩
    | unknown => exact h

theorem untyped_parseStreams {fuel : ℕ} {tracker parsed : ConnTracker φ} (h : tracker.Untyped)
    (hparse : tracker.parseStreams funcs fuel = some parsed) : parsed.Untyped := by
  obtain ⟨send, hsend, hparse⟩ := Option.bind_eq_some_iff.mp hparse
  obtain ⟨recv, hrecv, hparse⟩ := Option.bind_eq_some_iff.mp hparse
  cases hparse
  exact ⟨(DataStream.dataStreamParseFrames_type hsend).trans h.1,
    (DataStream.dataStreamParseFrames_type hrecv).trans h.2⟩

theorem untyped_matchFrames {type : ProtoType} {tracker found : ConnTracker φ}
    {records : RecordBuf ρ} (h : tracker.Untyped)
    (hmatch : tracker.matchFrames funcs type = some (found, records)) : found.Untyped := by
  unfold ConnTracker.matchFrames at hmatch
  split at hmatch
  · cases hmatch
    exact h
  · dsimp only at hmatch
    split at hmatch
    · obtain ⟨_, -, heq⟩ := Option.map_eq_some_iff.mp hmatch
      cases heq
      exact h
    · obtain ⟨_, -, heq⟩ := Option.map_eq_some_iff.mp hmatch
      cases heq
      exact h
    · cases hmatch

theorem untyped_addTrackerStats (records : RecordBuf ρ) {id : TrackerId}
    (h : ∀ tracker ∈ mng.trackers, tracker.Untyped) :
    ∀ tracker ∈ (addTrackerStats records mng id).trackers, tracker.Untyped := by
  unfold addTrackerStats
  split
  · exact h
  · exact forall_changeTracker (fun _ htracker => htracker) h

theorem untyped_l7ParserTracker {fuel : ℕ} {id : TrackerId}
    (h : ∀ tracker ∈ mng.trackers, tracker.Untyped)
    (hparse : mng.l7ParserTracker funcs fuel id = some next) :
    ∀ tracker ∈ next.trackers, tracker.Untyped := by
  unfold L7Mng.l7ParserTracker at hparse
  cases hfind : lkupConnTracker mng id with
  | none =>
      rw [hfind] at hparse
      cases hparse
      exact h
  | some tracker =>
      rw [hfind] at hparse
      obtain ⟨parsed, hstreams, hparse⟩ := Option.bind_eq_some_iff.mp hparse
      have huntyped := untyped_parseStreams (h tracker (HashTable.mem_of_find hfind)) hstreams
      cases hmatch : parsed.matchFrames funcs parsed.dispatch.matching with
      | none =>
          rw [hmatch] at hparse
          cases hparse
          exact h
      | some result =>
          rw [hmatch] at hparse
          cases hparse
          exact forall_changeTracker (fun _ htracker => htracker)
            (untyped_addTrackerStats result.2
              (forall_changeTracker (fun _ _ => untyped_matchFrames huntyped hmatch) h))

theorem untyped_l7Step {action : L7Action} (h : ∀ tracker ∈ mng.trackers, tracker.Untyped)
    (hstep : l7Step survives funcs mng action next) :
    ∀ tracker ∈ next.trackers, tracker.Untyped := by
  cases action with
  | message msg =>
      cases hstep
      exact forall_trackers_procConnMsg trackerInv_untyped h msg
  | parse id =>
      obtain ⟨-, fuel, hparse⟩ := hstep
      exact untyped_l7ParserTracker h hparse

end Trackers

-- No message sets the types of the streams, so a parse selects by the protocol of the
-- tracker exactly if that is unknown too.
theorem selects_protocol_iff (survives : Bool) (funcs : ProtoFuncs φ ρ) (actions : List L7Action) :
    (∀ tracker, Parsed survives funcs actions tracker → tracker.Selects tracker.protocol) ↔
      ∀ tracker, Parsed survives funcs actions tracker → tracker.protocol = .unknown := by
  refine forall₂_congr fun tracker hparsed => ?_
  obtain ⟨-, hrun, -, hfind⟩ := hparsed
  have hall := hrun.invariant (fun mng => ∀ tracker ∈ mng.trackers, tracker.Untyped)
    (fun _ _ _ => untyped_l7Step) (by simp [L7Mng.empty])
  obtain ⟨hsend, hrecv⟩ := hall tracker (HashTable.mem_of_find hfind)
  constructor
  · intro hselects
    exact hselects.send.symm.trans hsend
  · intro hunknown
    exact ⟨hsend.trans hunknown.symm, hrecv.trans hunknown.symm, rfl⟩

-- A client of http is connected and sends a chunk.
def httpChunkSent : List ConnMsg :=
  [.connOpen plainMsgEnv ⟨7, 3⟩ ⟨0, ⟨2, 80, List.replicate 16 0⟩, .client, false⟩,
    .connData plainMsgEnv ⟨7, 3⟩ ⟨0, .http, .client, .egress, [0x47]⟩]

theorem httpChunkSent_not_selected :
    ¬∀ survives (funcs : ProtoFuncs Unit Unit) actions tracker,
      Parsed survives funcs actions tracker → tracker.Selects tracker.protocol := by
  intro h
  let funcs : ProtoFuncs Unit Unit :=
    { parser := fun _ _ => ⟨fun _ => none, fun _ _ => (.unknown, none, 0)⟩
      matcher := fun _ _ _ => none }
  let last : L7Mng Unit := httpChunkSent.foldl (procConnMsg true) .empty
  have hrun : Run (l7Step true funcs) .empty (httpChunkSent.map .message) last :=
    .cons rfl (.cons rfl (.nil last))
  obtain ⟨tracker, hfind⟩ := Option.isSome_iff_exists.mp
    (show (lkupConnTracker last ⟨7, 3⟩).isSome by decide)
  have hparsed : Parsed true funcs (httpChunkSent.map .message ++ [.parse ⟨7, 3⟩]) tracker :=
    ⟨rfl, hrun, rfl, hfind⟩
  have hsend : tracker.sendStream.type = tracker.protocol := (h true funcs _ tracker hparsed).send
  have hdiffer : ∀ found, lkupConnTracker last ⟨7, 3⟩ = some found →
      found.sendStream.type = .unknown ∧ found.protocol = .http := by
    rintro _ ⟨⟩
    exact ⟨rfl, rfl⟩
  rw [(hdiffer tracker hfind).1, (hdiffer tracker hfind).2] at hsend
  cases hsend

end Gopher.L7
