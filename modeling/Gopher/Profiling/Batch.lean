import Gopher.Profiling.Attrs

namespace Gopher.Profiling

open Gopher.Lib

def LEN_OF_RESOURCE : ℕ := 1024
def LEN_OF_ATTRS : ℤ := 7168
def MSEC_PER_SEC : UInt64 := 1000

-- `emit_otel_log` also gets the section `EVT_SEC_INFO` and an empty body.
structure OtelLog where
  timestamp : UInt64
  resource : Text
  attrs : Text
  deriving DecidableEq

-- The object `{"thread.pid":…}` of a thread, if it fits.
def setEvtResource (thrdInfo : ThrdInfo) (procInfo : ProcInfo) (resourceSize : ℕ) : Option Text :=
  formatTo resourceSize ("\x7b\"thread.pid\":\"".toList ++ formatInt thrdInfo.pid ++ "\"".toList ++
    quoted "thread.tgid".toList (formatInt procInfo.tgid) ++
    quoted "thread.comm".toList thrdInfo.comm.text ++
    quoted "process.comm".toList procInfo.comm.text ++
    quoted "process.name".toList procInfo.procName.text ++
    quoted "container.id".toList procInfo.containerInfo.id.text ++
    quoted "container.name".toList procInfo.containerInfo.name.text ++ "\x7d".toList)

-- `succeed_num` is the length of `succeeded`. In `ret`, `none` is 0.
structure Batch where
  buf : StrBuf
  succeeded : List EventData
  consumedNum : ℕ
  ret : Option EvtError
  deriving DecidableEq

section Batch

variable (env : AttrsEnv)

def appendLoop : List EventData → (isFirst : Bool) → Batch → Batch
  | [], _, batch => batch
  | evt :: evts, isFirst, batch =>
      match (if isFirst then .ok batch.buf else strbufAppendChrWithCheck batch.buf ',') with
      | .error _ => { batch with ret := some .noBuff }
      | .ok buf =>
          match setEvtAttrsSingle env buf evt with
          | .error .noBuff => { batch with ret := some .noBuff }
          -- the buffer goes back to what it was, but the flag does not
          | .error .other => appendLoop evts false
              { batch with consumedNum := batch.consumedNum + 1, ret := some .other }
          | .ok buf => appendLoop evts false
              ⟨buf, batch.succeeded ++ [evt], batch.consumedNum + 1, none⟩

def appendEvtAttrsBatch (buf : StrBuf) (cachedEvts : List EventData) : Except EvtError Batch :=
  let batch := appendLoop env cachedEvts true ⟨buf, [], 0, none⟩
  if batch.succeeded = [] then
    if batch.ret = some .noBuff then .error .noBuff else .error .other
  else .ok batch

def deleteFirstKEvents (cachedEvts : List EventData) (k : ℕ) : List EventData :=
  cachedEvts.drop k

def attrsPrefix : Text := "\x7b\"values\":[".toList
def attrsSuffix : Text := "]\x7d".toList

-- The attributes, the events they hold and the ones left in the cache.
def setEvtAttrsBatch (attrsSize : ℤ) (cachedEvts : List EventData) :
    Option (Text × List EventData × List EventData) := do
  let sbuf ← strbufAppendStrWithCheck ⟨[], attrsSize⟩ attrsPrefix
  let suffixSize : ℤ := attrsSuffix.length + 1
  if sbuf.size < suffixSize then none
  else match appendEvtAttrsBatch env ⟨sbuf.text, sbuf.size - suffixSize⟩ cachedEvts with
    | .error _ => none
    | .ok batch => some ((strbufAppendStr batch.buf attrsSuffix).text, batch.succeeded,
        deleteFirstKEvents cachedEvts batch.consumedNum)

-- What is emitted, each text with its events, and the cache at the end.
structure Report where
  emitted : List (OtelLog × List EventData)
  cachedEvts : List EventData
  deriving DecidableEq

-- A batch that is emitted takes an event at least, so the fuel is the number of
-- events. `clean_cached_events` empties the cache when there is none.
def reportLoop (now : UInt64) (resource : Text) (attrsSize : ℤ) :
    (fuel : ℕ) → List EventData → Report
  | 0, cachedEvts => ⟨[], cachedEvts⟩
  | fuel + 1, cachedEvts =>
      if cachedEvts = [] then ⟨[], cachedEvts⟩
      else match setEvtAttrsBatch env attrsSize cachedEvts with
        | none => ⟨[], []⟩
        | some (attrs, succeeded, rest) =>
            let report := reportLoop now resource attrsSize fuel rest
            { report with
              emitted := (⟨now * MSEC_PER_SEC, resource, attrs⟩, succeeded) :: report.emitted }

-- The source's `attrsSize` is `LEN_OF_ATTRS`.
def reportThrdEvents (now : UInt64) (attrsSize : ℤ) (procInfo : ProcInfo) (thrdInfo : ThrdInfo) :
    Report :=
  match setEvtResource thrdInfo procInfo LEN_OF_RESOURCE with
  | none => ⟨[], thrdInfo.cachedEvts⟩
  | some resource => reportLoop env now resource attrsSize thrdInfo.cachedEvts.length
      thrdInfo.cachedEvts

end Batch

-- What has gone into the current batch: nothing yet, events that failed only, or
-- objects that leave so much room.
inductive Room
  | fresh
  | tried
  | used (left : ℤ)
  deriving DecidableEq

structure Packed where
  body : Text
  events : List EventData
  leading : Bool
  deriving DecidableEq

section Packing

-- `size` is the room for objects in an empty batch.
variable (env : AttrsEnv) (size : ℤ)

def afterComma (left : ℤ) (evt : EventData) : Except EvtError StrBuf := do
  let buf ← strbufAppendChrWithCheck ⟨[], left⟩ ','
  setEvtAttrsSingle env buf evt

-- Only the first event that is tried comes without a comma.
def Room.attempt (room : Room) (evt : EventData) : Except EvtError StrBuf :=
  match room with
  | fresh => setEvtAttrsSingle env ⟨[], size⟩ evt
  | tried => afterComma env size evt
  | used left => afterComma env left evt

def Room.isUsed : Room → Bool
  | used _ => true
  | _ => false

def Room.failed : Room → Room
  | fresh => tried
  | room => room

-- One event in the batch at hand; `none` when it does not fit there.
def Room.next (room : Room) (evt : EventData) : Option Room :=
  match room.attempt env size evt with
  | .ok buf => some (.used buf.size)
  | .error .other => some room.failed
  | .error .noBuff => none

def Packed.put (room : Room) (packed : Packed) (evt : EventData) : Packed :=
  match room.attempt env size evt with
  | .ok buf => ⟨packed.body ++ buf.text, packed.events ++ [evt],
      packed.leading || decide (room = .tried)⟩
  | .error _ => packed

def Packed.empty : Packed := ⟨[], [], false⟩

-- A batch with objects is flushed for an event that does not fit, which is then
-- tried in an empty one.
def Room.step (room : Room) (evt : EventData) : Option Room :=
  match room.next env size evt with
  | some room => some room
  | none => if room.isUsed then fresh.next env size evt else none

-- The room there is after some events, unless one of them was stuck: too large for
-- a batch without objects.
def roomAfter (room : Room) (evts : List EventData) : Option Room :=
  evts.foldlM (Room.step env size) room

def pack : Room → Packed → List EventData → List Packed
  | _, packed, [] => if packed.events = [] then [] else [packed]
  | room, packed, evt :: evts =>
      match room.next env size evt with
      | some room' => pack room' (packed.put env size room evt) evts
      | none =>
          if room.isUsed then
            packed :: match Room.fresh.next env size evt with
              | some room' => pack room' (Packed.empty.put env size .fresh evt) evts
              | none => []
          else []

variable {env size} {room : Room} {packed : Packed} {evt : EventData} {evts : List EventData}

theorem roomAfter_cons : roomAfter env size room (evt :: evts) =
    (room.step env size evt).bind fun next => roomAfter env size next evts := by
  rw [roomAfter, List.foldlM_cons]
  rfl

-- What is packed so far agrees with the room that is left.
inductive Room.Fits (size : ℤ) : Room → Packed → Prop
  | fresh : Room.Fits size .fresh Packed.empty
  | tried : Room.Fits size .tried Packed.empty
  | used {left : ℤ} {packed : Packed} (hleft : 0 ≤ left) (hle : left ≤ size)
      (hevents : packed.events ≠ []) : Room.Fits size (.used left) packed

theorem size_of_print {rendering : Rendering} (hobject : rendering.Object) {buf after : StrBuf}
    (h : rendering.print buf = .ok after) : 0 ≤ after.size ∧ after.size ≤ buf.size := by
  unfold Rendering.print at h
  split_ifs at h with hroom
  cases htext : rendering.text with
  | none => simp [htext] at h
  | some object =>
      have hneed := hobject.need_eq object htext
      simp only [htext, Except.ok.injEq] at h
      subst h
      rw [size_strbufAppendStr]
      omega

variable (env) in
-- An event is tried where it does not fit, or with as much room as in an empty
-- batch at most.
theorem Room.attempt_cases (hsize : 0 ≤ size) (hfits : room.Fits size packed) (evt : EventData) :
    ∃ rendering : Rendering, rendering.Object ∧
      fresh.attempt env size evt = rendering.print ⟨[], size⟩ ∧
      (room.attempt env size evt = .error .noBuff ∨
        ∃ buf : StrBuf, 0 ≤ buf.size ∧ buf.size ≤ size ∧
          room.attempt env size evt = rendering.print buf) := by
  obtain ⟨rendering, hobject, -, hprint⟩ := setEvtAttrsSingle_spec env evt
  refine ⟨rendering, hobject, hprint _ hsize, ?_⟩
  have hcomma {left : ℤ} (hle : left ≤ size) : afterComma env left evt = .error .noBuff ∨
      ∃ buf : StrBuf, 0 ≤ buf.size ∧ buf.size ≤ size ∧
        afterComma env left evt = rendering.print buf := by
    by_cases hroom : left ≤ 0
    · left
      simp only [afterComma, strbufAppendChrWithCheck, if_pos hroom]
      rfl
    · right
      have hleft : 0 ≤ left - 1 := by omega
      refine ⟨⟨[','], left - 1⟩, hleft, show left - 1 ≤ size by omega, ?_⟩
      simp only [afterComma, strbufAppendChrWithCheck, if_neg hroom]
      exact hprint ⟨[','], left - 1⟩ hleft
  cases hfits with
  | fresh => exact .inr ⟨⟨[], size⟩, hsize, Int.le_refl _, hprint _ hsize⟩
  | tried => exact hcomma (Int.le_refl _)
  | used _ hle _ => exact hcomma hle

theorem Room.next_eq_some {room' : Room} (h : room.next env size evt = some room') :
    (∃ buf, room.attempt env size evt = .ok buf ∧ room' = .used buf.size) ∨
      room.attempt env size evt = .error .other ∧ room' = room.failed := by
  unfold Room.next at h
  split at h
  · rename_i buf hattempt
    exact .inl ⟨buf, hattempt, (Option.some.inj h).symm⟩
  · rename_i hattempt
    exact .inr ⟨hattempt, (Option.some.inj h).symm⟩
  · cases h

theorem Room.next_eq_none : room.next env size evt = none ↔
    room.attempt env size evt = .error .noBuff := by
  unfold Room.next
  constructor
  · intro h
    split at h
    · cases h
    · cases h
    · assumption
  · intro h
    rw [h]

-- The event is put or passed over, and the room follows.
theorem Room.Fits.next (hsize : 0 ≤ size) (hfits : room.Fits size packed) {room' : Room}
    (h : room.next env size evt = some room') :
    room'.Fits size (packed.put env size room evt) := by
  obtain ⟨rendering, hobject, -, hattempt⟩ := Room.attempt_cases env hsize hfits evt
  rcases Room.next_eq_some h with ⟨after, hok, rfl⟩ | ⟨hother, rfl⟩
  · rcases hattempt with hno | ⟨buf, -, hle, hprint⟩
    · rw [hno] at hok
      cases hok
    · have hafter := size_of_print hobject (hprint.symm.trans hok)
      refine .used hafter.1 (Int.le_trans hafter.2 hle) ?_
      simp [Packed.put, hok]
  · simp only [Packed.put, hother]
    cases hfits with
    | fresh => exact .tried
    | tried => exact .tried
    | used hleft hle hevents => exact .used hleft hle hevents

variable (env) in
-- What is in the buffer already does not matter to what is printed behind it.
theorem setEvtAttrsSingle_append (front back : Text) {left : ℤ} (hleft : 0 ≤ left)
    (evt : EventData) : setEvtAttrsSingle env ⟨front ++ back, left⟩ evt =
      (setEvtAttrsSingle env ⟨back, left⟩ evt).map fun buf => ⟨front ++ buf.text, buf.size⟩ := by
  obtain ⟨rendering, -, -, hprint⟩ := setEvtAttrsSingle_spec env evt
  rw [hprint _ hleft, hprint _ hleft, Rendering.print, Rendering.print]
  split_ifs
  · rfl
  · cases rendering.text with
    | none => rfl
    | some object => simp [strbufAppendStr, Except.map]

-- The loop with a room for its flag and its buffer.
structure InLoop (size : ℤ) (room : Room) (packed : Packed) (isFirst : Bool) (batch : Batch) :
    Prop where
  text : batch.buf.text = attrsPrefix ++ packed.body
  events : batch.succeeded = packed.events
  flag : isFirst = decide (room = .fresh)
  size : batch.buf.size = match room with
    | .used left => left
    | _ => size

variable {isFirst : Bool} {batch : Batch}

variable (env) in
theorem InLoop.attempt (hsize : 0 ≤ size) (hfits : room.Fits size packed)
    (h : InLoop size room packed isFirst batch) (evt : EventData) :
    (match (if isFirst then .ok batch.buf else strbufAppendChrWithCheck batch.buf ',') with
      | .error _ => .error .noBuff
      | .ok buf => setEvtAttrsSingle env buf evt) =
    (room.attempt env size evt).map fun buf => ⟨batch.buf.text ++ buf.text, buf.size⟩ := by
  have hcomma (left : ℤ) : (match strbufAppendChrWithCheck ⟨batch.buf.text, left⟩ ',' with
      | .error _ => .error .noBuff
      | .ok buf => setEvtAttrsSingle env buf evt) =
      (afterComma env left evt).map fun buf => ⟨batch.buf.text ++ buf.text, buf.size⟩ := by
    by_cases hroom : left ≤ 0
    · simp only [afterComma, strbufAppendChrWithCheck, if_pos hroom]
      rfl
    · simp only [afterComma, strbufAppendChrWithCheck, if_neg hroom]
      exact setEvtAttrsSingle_append env batch.buf.text [','] (show 0 ≤ left - 1 by omega) evt
  obtain ⟨⟨text, left⟩, succeeded, consumedNum, ret⟩ := batch
  obtain ⟨-, -, hflag, hleft⟩ := h
  cases hfits with
  | fresh =>
      obtain rfl : left = size := hleft
      rw [hflag]
      exact (congrArg (fun text => setEvtAttrsSingle env ⟨text, left⟩ evt)
        (List.append_nil text).symm).trans (setEvtAttrsSingle_append env text [] hsize evt)
  | tried =>
      obtain rfl : left = size := hleft
      rw [hflag]
      exact hcomma left
  | used _ _ _ =>
      obtain rfl : left = _ := hleft
      rw [hflag]
      exact hcomma left

variable (env) in
theorem InLoop.appendLoop_cons (hsize : 0 ≤ size) (hfits : room.Fits size packed)
    (h : InLoop size room packed isFirst batch) (evt : EventData) (evts : List EventData) :
    appendLoop env (evt :: evts) isFirst batch = match room.attempt env size evt with
      | .ok buf => appendLoop env evts false ⟨⟨batch.buf.text ++ buf.text, buf.size⟩,
          batch.succeeded ++ [evt], batch.consumedNum + 1, none⟩
      | .error .other => appendLoop env evts false
          { batch with consumedNum := batch.consumedNum + 1, ret := some .other }
      | .error .noBuff => { batch with ret := some .noBuff } := by
  have hattempt := h.attempt env hsize hfits evt
  rw [appendLoop]
  cases hcomma : (if isFirst then Except.ok batch.buf
      else strbufAppendChrWithCheck batch.buf ',') with
  | error e =>
      rw [hcomma] at hattempt
      cases hroom : room.attempt env size evt with
      | ok buf => simp [hroom, Except.map] at hattempt
      | error e =>
          simp only [hroom, Except.map, Except.error.injEq] at hattempt
          rw [← hattempt]
  | ok buf =>
      rw [hcomma] at hattempt
      simp only at hattempt ⊢
      rw [hattempt]
      cases room.attempt env size evt with
      | ok buf => rfl
      | error e => cases e <;> rfl

theorem InLoop.next (h : InLoop size room packed isFirst batch) {room' : Room}
    (hnext : room.next env size evt = some room') :
    (∃ buf, room.attempt env size evt = .ok buf ∧
      InLoop size room' (packed.put env size room evt) false ⟨⟨batch.buf.text ++ buf.text, buf.size⟩,
        batch.succeeded ++ [evt], batch.consumedNum + 1, none⟩) ∨
    room.attempt env size evt = .error .other ∧
      InLoop size room' (packed.put env size room evt) false
        { batch with consumedNum := batch.consumedNum + 1, ret := some .other } := by
  rcases Room.next_eq_some hnext with ⟨buf, hok, rfl⟩ | ⟨hother, rfl⟩
  · refine .inl ⟨buf, hok, ?_⟩
    constructor <;> simp [Packed.put, hok, h.text, h.events]
  · refine .inr ⟨hother, ?_⟩
    obtain ⟨htext, hevents, hflag, hleft⟩ := h
    cases room <;> constructor <;> simp_all [Packed.put, Room.failed]

-- A batch takes a first part of the events and is emitted when it holds an object;
-- the rest goes into batches of its own.
theorem InLoop.appendLoop_pack (hsize : 0 ≤ size) (hfits : room.Fits size packed)
    (h : InLoop size room packed isFirst batch) (evts : List EventData) :
    ∃ consumed body leading,
      (appendLoop env evts isFirst batch).consumedNum = batch.consumedNum + consumed ∧
      (appendLoop env evts isFirst batch).buf.text = attrsPrefix ++ body ∧
      (appendLoop env evts isFirst batch).succeeded.length ≤ batch.succeeded.length + consumed ∧
      pack env size room packed evts =
        if (appendLoop env evts isFirst batch).succeeded = [] then []
        else ⟨body, (appendLoop env evts isFirst batch).succeeded, leading⟩ ::
          pack env size .fresh .empty (evts.drop consumed) := by
  induction evts generalizing room packed isFirst batch with
  | nil =>
      refine ⟨0, packed.body, packed.leading, rfl, h.text, Nat.le_refl _, ?_⟩
      simp only [pack, appendLoop, h.events, List.drop_nil, Packed.empty, ite_true]
  | cons evt evts ih =>
      cases hnext : room.next env size evt with
      | some room' =>
          have hfits' := hfits.next hsize hnext
          rcases h.next hnext with ⟨buf, hok, hloop⟩ | ⟨hother, hloop⟩
          · obtain ⟨consumed, body, leading, hconsumed, htext, hlen, hpack⟩ := ih hfits' hloop
            refine ⟨consumed + 1, body, leading, ?_, ?_, ?_, ?_⟩
            all_goals rw [h.appendLoop_cons env hsize hfits, hok]
            · simp only [hconsumed]
              omega
            · exact htext
            · simp only [List.length_append, List.length_singleton] at hlen
              simp only
              omega
            · rw [pack, hnext]
              exact hpack
          · obtain ⟨consumed, body, leading, hconsumed, htext, hlen, hpack⟩ := ih hfits' hloop
            refine ⟨consumed + 1, body, leading, ?_, ?_, ?_, ?_⟩
            all_goals rw [h.appendLoop_cons env hsize hfits, hother]
            · simp only [hconsumed]
              omega
            · exact htext
            · simp only at hlen ⊢
              omega
            · rw [pack, hnext]
              exact hpack
      | none =>
          have hno := Room.next_eq_none.mp hnext
          refine ⟨0, packed.body, packed.leading, ?_, ?_, ?_, ?_⟩
          all_goals rw [h.appendLoop_cons env hsize hfits, hno]
          · rfl
          · exact h.text
          · exact Nat.le_refl _
          · simp only [h.events, List.drop_zero]
            cases hfits with
            | fresh =>
                rw [pack, hnext]
                rfl
            | tried =>
                rw [pack, hnext]
                rfl
            | used _ _ hevents =>
                rw [if_neg hevents]
                conv_lhs => rw [pack, hnext]
                rfl

-- The events before the first one that gets stuck.
def served (env : AttrsEnv) (size : ℤ) : Room → List EventData → List EventData
  | _, [] => []
  | room, evt :: evts =>
      match room.step env size evt with
      | some room' => evt :: served env size room' evts
      | none => []

-- An event is stuck behind the ones before it when it does not fit into a batch
-- that holds no object.
def Stuck (env : AttrsEnv) (size : ℤ) (before : List EventData) (evt : EventData) : Prop :=
  ∃ room, roomAfter env size .fresh before = some room ∧ room.step env size evt = none

theorem exists_served (env : AttrsEnv) (size : ℤ) (room : Room) (evts : List EventData) :
    ∃ rest, evts = served env size room evts ++ rest ∧ ∀ evt after, rest = evt :: after →
      ∃ last, roomAfter env size room (served env size room evts) = some last ∧
        last.step env size evt = none := by
  induction evts generalizing room with
  | nil => exact ⟨[], rfl, by simp⟩
  | cons evt evts ih =>
      rw [served]
      cases hstep : room.step env size evt with
      | none =>
          refine ⟨evt :: evts, rfl, ?_⟩
          rintro _ _ ⟨⟩
          exact ⟨room, rfl, hstep⟩
      | some next =>
          obtain ⟨rest, hsplit, hstuck⟩ := ih next
          refine ⟨rest, by rw [List.cons_append, ← hsplit], fun other after hrest => ?_⟩
          obtain ⟨last, hlast, hnone⟩ := hstuck other after hrest
          exact ⟨last, by rw [roomAfter_cons, hstep]; exact hlast, hnone⟩

def fitsEmpty (env : AttrsEnv) (size : ℤ) (evt : EventData) : Bool :=
  (Room.fresh.attempt env size evt).isOk

-- An event that is put or passed over would be in an empty batch just the same.
theorem fitsEmpty_eq (hsize : 0 ≤ size) (hfits : room.Fits size packed)
    (hattempt : room.attempt env size evt ≠ .error .noBuff) :
    fitsEmpty env size evt = (room.attempt env size evt).isOk := by
  obtain ⟨rendering, -, hfresh, hroom⟩ := Room.attempt_cases env hsize hfits evt
  rcases hroom with hno | ⟨buf, -, hle, hprint⟩
  · exact absurd hno hattempt
  · rw [hprint] at hattempt
    rw [fitsEmpty, hfresh, hprint]
    have hroom : ¬buf.size < rendering.need := fun hlt => hattempt (by
      rw [Rendering.print, if_pos hlt])
    rw [Rendering.print, Rendering.print, if_neg hroom, if_neg (by simp only; omega)]
    cases rendering.text <;> rfl

theorem Packed.events_put (hsize : 0 ≤ size) (hfits : room.Fits size packed)
    (hattempt : room.attempt env size evt ≠ .error .noBuff) :
    (packed.put env size room evt).events = packed.events ++
      [evt].filter (fitsEmpty env size) := by
  have hok := fitsEmpty_eq hsize hfits hattempt
  unfold Packed.put
  cases h : room.attempt env size evt with
  | ok buf =>
      rw [h] at hok
      rw [List.filter_cons_of_pos hok]
      rfl
  | error e =>
      rw [h] at hok
      rw [List.filter_cons_of_neg (by rw [hok]; exact Bool.false_ne_true)]
      simp

theorem pack_events (hsize : 0 ≤ size) (hfits : room.Fits size packed) (evts : List EventData) :
    (pack env size room packed evts).flatMap Packed.events = packed.events ++
      (served env size room evts).filter (fitsEmpty env size) := by
  induction evts generalizing room packed with
  | nil =>
      simp only [pack, served]
      split_ifs with hevents <;> simp [hevents]
  | cons evt evts ih =>
      have hput {room room' : Room} {packed : Packed} (hfits : room.Fits size packed)
          (hnext : room.next env size evt = some room') :
          (pack env size room' (packed.put env size room evt) evts).flatMap Packed.events =
            packed.events ++ (evt :: served env size room' evts).filter (fitsEmpty env size) := by
        have hattempt : room.attempt env size evt ≠ .error .noBuff := fun h => by
          rw [Room.next_eq_none.mpr h] at hnext
          cases hnext
        rw [ih (hfits.next hsize hnext), Packed.events_put hsize hfits hattempt,
          List.append_assoc, ← List.filter_append, List.singleton_append]
      cases hnext : room.next env size evt with
      | some room' =>
          simp only [pack, served, Room.step, hnext]
          exact hput hfits hnext
      | none =>
          simp only [pack, served, Room.step, hnext]
          cases hfits with
          | fresh => rfl
          | tried => rfl
          | used _ _ _ =>
              cases hfresh : Room.fresh.next env size evt with
              | none => simp [Room.isUsed]
              | some room' =>
                  simp only [Room.isUsed, if_true, List.flatMap_cons]
                  rw [hput .fresh hfresh]
                  rfl

theorem pack_subset (hsize : 0 ≤ size) (evts : List EventData) :
    ∀ batch ∈ pack env size .fresh .empty evts, batch.events ⊆ evts := by
  intro batch hbatch evt hevt
  have hmem : evt ∈ (pack env size .fresh .empty evts).flatMap Packed.events :=
    List.mem_flatMap.mpr ⟨batch, hbatch, hevt⟩
  rw [pack_events hsize .fresh] at hmem
  obtain ⟨rest, hsplit, -⟩ := exists_served env size .fresh evts
  rw [hsplit]
  exact List.mem_append_left _ (List.mem_of_mem_filter hmem)

theorem pack_events_ne_nil (hsize : 0 ≤ size) (hfits : room.Fits size packed)
    (evts : List EventData) : ∀ batch ∈ pack env size room packed evts, batch.events ≠ [] := by
  induction evts generalizing room packed with
  | nil =>
      rw [pack]
      split_ifs with hevents
      · simp
      · simpa using hevents
  | cons evt evts ih =>
      rw [pack]
      cases hnext : room.next env size evt with
      | some room' => exact ih (hfits.next hsize hnext)
      | none =>
          cases hfits with
          | fresh => simp [Room.isUsed]
          | tried => simp [Room.isUsed]
          | used _ _ hevents =>
              refine List.forall_mem_cons.mpr ⟨hevents, ?_⟩
              cases hfresh : Room.fresh.next env size evt with
              | some room' => exact ih (Room.Fits.fresh.next hsize hfresh)
              | none => simp

-- With room enough nothing gets stuck, not even behind a comma.
theorem Room.next_ne_none (env : AttrsEnv) (hused : room.isUsed = false)
    (hroom : (env.formatDuration evt.duration).length + 5003 ≤ size) :
    room.next env size evt ≠ none := by
  obtain ⟨rendering, -, hneed, hprint⟩ := setEvtAttrsSingle_spec env evt
  have hno {buf : StrBuf} (hsize : (env.formatDuration evt.duration).length + 5002 ≤ buf.size) :
      setEvtAttrsSingle env buf evt ≠ .error .noBuff := by
    rw [hprint buf (by omega), Rendering.print, if_neg (by omega)]
    cases rendering.text <;> simp
  rw [Ne, Room.next_eq_none]
  cases room with
  | fresh => exact hno (show _ ≤ size by omega)
  | tried =>
      simp only [attempt, afterComma, strbufAppendChrWithCheck, if_neg (show ¬size ≤ 0 by omega)]
      exact hno (show _ ≤ size - 1 by omega)
  | used left => cases hused

theorem served_eq_self (hroom : ∀ evt ∈ evts,
    (env.formatDuration evt.duration).length + 5003 ≤ size) :
    served env size room evts = evts := by
  induction evts generalizing room with
  | nil => rfl
  | cons evt evts ih =>
      obtain ⟨hevt, hevts⟩ := List.forall_mem_cons.mp hroom
      have hstep : room.step env size evt ≠ none := by
        rw [Room.step]
        cases hnext : room.next env size evt with
        | some room' => simp
        | none =>
            cases hused : room.isUsed with
            | true => exact Room.next_ne_none env rfl hevt
            | false => exact absurd hnext (Room.next_ne_none env hused hevt)
      obtain ⟨room', hroom'⟩ := Option.ne_none_iff_exists'.mp hstep
      rw [served, hroom']
      exact congrArg (evt :: ·) (ih hevts)

end Packing

end Gopher.Profiling
