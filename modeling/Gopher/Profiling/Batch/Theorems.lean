import Gopher.Profiling.Batch

namespace Gopher.Profiling

open Gopher.Lib

-- The room that the prefix, the suffix and the NUL take.
def FRAME_SIZE : ℤ := 14

variable {env : AttrsEnv} {now : UInt64} {resource : Text} {attrsSize : ℤ}
  {evts : List EventData} {evt : EventData}

theorem setEvtAttrsBatch_of_lt (hsize : attrsSize < FRAME_SIZE) (evts : List EventData) :
    setEvtAttrsBatch env attrsSize evts = none := by
  have hprefix : (attrsPrefix.length : ℤ) = 11 := rfl
  have hsuffix : (attrsSuffix.length : ℤ) = 2 := rfl
  rw [FRAME_SIZE] at hsize
  unfold setEvtAttrsBatch strbufAppendStrWithCheck
  by_cases hroom : attrsSize < attrsPrefix.length
  · rw [if_pos hroom]
    rfl
  · rw [if_neg hroom]
    change (if attrsSize - attrsPrefix.length < (attrsSuffix.length : ℤ) + 1 then _ else _) = _
    rw [if_pos (by omega)]

theorem appendEvtAttrsBatch_cases {α : Type} (buf : StrBuf) (evts : List EventData)
    (use : Batch → Option α) :
    (match appendEvtAttrsBatch env buf evts with
      | .error _ => none
      | .ok batch => use batch) =
    if (appendLoop env evts true ⟨buf, [], 0, none⟩).succeeded = [] then none
    else use (appendLoop env evts true ⟨buf, [], 0, none⟩) := by
  unfold appendEvtAttrsBatch
  dsimp only
  by_cases hnone : (appendLoop env evts true ⟨buf, [], 0, none⟩).succeeded = []
  · rw [if_pos hnone, if_pos hnone]
    split_ifs <;> rfl
  · rw [if_neg hnone, if_neg hnone]

def emptyBatch (attrsSize : ℤ) : Batch := ⟨⟨attrsPrefix, attrsSize - FRAME_SIZE⟩, [], 0, none⟩

theorem setEvtAttrsBatch_of_le (hsize : FRAME_SIZE ≤ attrsSize) (evts : List EventData) :
    setEvtAttrsBatch env attrsSize evts =
      if (appendLoop env evts true (emptyBatch attrsSize)).succeeded = [] then none
      else some ((appendLoop env evts true (emptyBatch attrsSize)).buf.text ++ attrsSuffix,
        (appendLoop env evts true (emptyBatch attrsSize)).succeeded,
        evts.drop (appendLoop env evts true (emptyBatch attrsSize)).consumedNum) := by
  have hprefix : (attrsPrefix.length : ℤ) = 11 := rfl
  have hsuffix : (attrsSuffix.length : ℤ) = 2 := rfl
  have hframe : FRAME_SIZE = 14 := rfl
  have hbuf : (⟨(strbufAppendStr ⟨[], attrsSize⟩ attrsPrefix).text,
      (strbufAppendStr ⟨[], attrsSize⟩ attrsPrefix).size - ((attrsSuffix.length : ℤ) + 1)⟩ :
      StrBuf) = (emptyBatch attrsSize).buf := by
    simp only [emptyBatch, size_strbufAppendStr, text_strbufAppendStr, List.nil_append,
      StrBuf.mk.injEq, true_and]
    omega
  unfold setEvtAttrsBatch strbufAppendStrWithCheck
  rw [if_neg (show ¬attrsSize < attrsPrefix.length by omega)]
  refine Eq.trans (if_neg (show ¬attrsSize - attrsPrefix.length < (attrsSuffix.length : ℤ) + 1 by
    omega)) ?_
  refine (appendEvtAttrsBatch_cases _ evts _).trans ?_
  rw [hbuf]
  rfl

theorem inLoop_emptyBatch (attrsSize : ℤ) :
    InLoop (attrsSize - FRAME_SIZE) .fresh .empty true (emptyBatch attrsSize) := by
  constructor <;> rfl

def Packed.toLog (now : UInt64) (resource : Text) (packed : Packed) : OtelLog × List EventData :=
  (⟨now * MSEC_PER_SEC, resource, attrsPrefix ++ packed.body ++ attrsSuffix⟩, packed.events)

-- The loop ends with an empty cache, and what it emits is the packing.
theorem reportLoop_eq (hsize : FRAME_SIZE ≤ attrsSize) {fuel : ℕ} (hfuel : evts.length ≤ fuel) :
    reportLoop env now resource attrsSize fuel evts =
      ⟨(pack env (attrsSize - FRAME_SIZE) .fresh .empty evts).map (Packed.toLog now resource), []⟩ := by
  induction fuel generalizing evts with
  | zero =>
      obtain rfl := List.eq_nil_of_length_eq_zero (Nat.le_zero.mp hfuel)
      rfl
  | succ fuel ih =>
      rw [reportLoop]
      by_cases hevts : evts = []
      · subst hevts
        rfl
      · rw [if_neg hevts, setEvtAttrsBatch_of_le hsize]
        obtain ⟨consumed, body, leading, hconsumed, htext, hlen, hpack⟩ :=
          (inLoop_emptyBatch attrsSize).appendLoop_pack (by omega) .fresh evts
        by_cases hnone : (appendLoop env evts true (emptyBatch attrsSize)).succeeded = []
        · rw [if_pos hnone] at hpack ⊢
          rw [hpack]
          rfl
        · rw [if_neg hnone] at hpack ⊢
          have hpos := List.length_pos_iff.mpr hnone
          have hzero : (emptyBatch attrsSize).consumedNum = 0 := rfl
          have hempty : (emptyBatch attrsSize).succeeded.length = 0 := rfl
          rw [hconsumed, hzero, Nat.zero_add, htext]
          simp only
          rw [ih (by rw [List.length_drop]; have := List.length_pos_iff.mpr hevts; omega), hpack]
          rfl

section Objects

variable {size : ℤ} {room : Room} {packed : Packed}

-- The complete rendering of an event.
def IsObject (env : AttrsEnv) (evt : EventData) (object : Text) : Prop :=
  ∃ left buf, setEvtAttrsSingle env ⟨[], left⟩ evt = .ok buf ∧ buf.text = object

def joined (leading : Bool) (objects : List Text) : Text :=
  (if leading then [','] else []) ++ [','].intercalate objects

theorem intercalate_concat {objects : List Text} (hne : objects ≠ []) (object : Text) :
    [','].intercalate (objects ++ [object]) = [','].intercalate objects ++ ',' :: object := by
  induction objects with
  | nil => exact absurd rfl hne
  | cons first objects ih =>
      cases objects with
      | nil => simp [List.intercalate]
      | cons second objects =>
          have ih := ih (by simp)
          simp only [List.intercalate, List.cons_append, List.intersperse_cons_cons,
            List.flatten_cons] at ih ⊢
          rw [ih]
          simp

theorem IsObject.braces {object : Text} (h : IsObject env evt object) :
    ∃ attrs, object = '\x7b' :: (attrs ++ ['\x7d']) := by
  obtain ⟨left, buf, hok, rfl⟩ := h
  obtain ⟨rendering, hobject, -, hprint⟩ := setEvtAttrsSingle_spec env evt
  by_cases hleft : left ≤ 0
  · simp only [setEvtAttrsSingle, strbufAppendChrWithCheck, if_pos hleft] at hok
    cases hok
  · rw [hprint _ (by simp only; omega), Rendering.print] at hok
    split_ifs at hok
    cases htext : rendering.text with
    | none => simp [htext] at hok
    | some object =>
        simp only [htext, Except.ok.injEq] at hok
        rw [← hok]
        exact hobject.braces object htext

theorem afterComma_ok {left : ℤ} {buf : StrBuf} (h : afterComma env left evt = .ok buf) :
    ∃ object, IsObject env evt object ∧ buf.text = ',' :: object := by
  by_cases hleft : left ≤ 0
  · simp only [afterComma, strbufAppendChrWithCheck, if_pos hleft] at h
    cases h
  · simp only [afterComma, strbufAppendChrWithCheck, if_neg hleft] at h
    have happend := setEvtAttrsSingle_append env [','] [] (show 0 ≤ left - 1 by omega) evt
    have h : setEvtAttrsSingle env ⟨[','] ++ [], left - 1⟩ evt = .ok buf := h
    rw [happend] at h
    cases hobject : setEvtAttrsSingle env ⟨[], left - 1⟩ evt with
    | error e => simp [hobject, Except.map] at h
    | ok after =>
        simp only [hobject, Except.map, Except.ok.injEq] at h
        exact ⟨after.text, ⟨left - 1, after, hobject, rfl⟩, by rw [← h]; rfl⟩

def Packed.Joined (env : AttrsEnv) (packed : Packed) : Prop :=
  ∃ objects, List.Forall₂ (IsObject env) packed.events objects ∧
    packed.body = joined packed.leading objects

theorem Packed.Joined.put (hfits : room.Fits size packed) (h : packed.Joined env) :
    (packed.put env size room evt).Joined env := by
  unfold Packed.put
  cases hattempt : room.attempt env size evt with
  | error e => exact h
  | ok buf =>
      cases hfits with
      | fresh =>
          exact ⟨[buf.text], .cons ⟨size, buf, hattempt, rfl⟩ .nil, by simp [joined, Packed.empty]⟩
      | tried =>
          obtain ⟨object, hobject, htext⟩ := afterComma_ok hattempt
          exact ⟨[object], .cons hobject .nil, by simp [joined, Packed.empty, htext]⟩
      | used _ _ hevents =>
          obtain ⟨objects, hobjects, hbody⟩ := h
          obtain ⟨object, hobject, htext⟩ := afterComma_ok hattempt
          have hne : objects ≠ [] := by
            rintro rfl
            exact hevents (List.forall₂_nil_right_iff.mp hobjects)
          refine ⟨objects ++ [object], List.rel_append hobjects (.cons hobject .nil), ?_⟩
          simp [hbody, htext, joined, intercalate_concat hne]

theorem pack_joined (hsize : 0 ≤ size) (hfits : room.Fits size packed) (h : packed.Joined env)
    (evts : List EventData) : ∀ batch ∈ pack env size room packed evts, batch.Joined env := by
  induction evts generalizing room packed with
  | nil =>
      rw [pack]
      split_ifs
      · simp
      · simpa using h
  | cons evt evts ih =>
      have hempty : Packed.empty.Joined env := ⟨[], .nil, rfl⟩
      rw [pack]
      cases hnext : room.next env size evt with
      | some room' => exact ih (hfits.next hsize hnext) (h.put hfits)
      | none =>
          simp only
          split_ifs
          · refine List.forall_mem_cons.mpr ⟨h, ?_⟩
            cases hfresh : Room.fresh.next env size evt with
            | some room' => exact ih (Room.Fits.fresh.next hsize hfresh) (hempty.put .fresh)
            | none => simp
          · simp

-- The first object of a batch comes behind events that failed.
def PutBehindFailed (env : AttrsEnv) (size : ℤ) (room : Room) (evts : List EventData) : Prop :=
  ∃ before evt after, evts = before ++ evt :: after ∧
    roomAfter env size room before = some .tried ∧ (Room.tried.attempt env size evt).isOk = true

theorem putBehindFailed_cons : PutBehindFailed env size room (evt :: evts) ↔
    (room = .tried ∧ (Room.tried.attempt env size evt).isOk = true) ∨
      ∃ room', room.step env size evt = some room' ∧ PutBehindFailed env size room' evts := by
  constructor
  · rintro ⟨before, other, after, hsplit, hbefore, hok⟩
    cases before with
    | nil =>
        obtain ⟨rfl, rfl⟩ := List.cons_eq_cons.mp hsplit
        cases hbefore
        exact .inl ⟨rfl, hok⟩
    | cons head before =>
        obtain ⟨rfl, rfl⟩ := List.cons_eq_cons.mp hsplit
        rw [roomAfter_cons] at hbefore
        obtain ⟨room', hstep, hbefore⟩ := Option.bind_eq_some_iff.mp hbefore
        exact .inr ⟨room', hstep, before, other, after, rfl, hbefore, hok⟩
  · rintro (⟨rfl, hok⟩ | ⟨room', hstep, before, other, after, rfl, hbefore, hok⟩)
    · exact ⟨[], evt, evts, rfl, rfl, hok⟩
    · refine ⟨evt :: before, other, after, rfl, ?_, hok⟩
      rw [roomAfter_cons, hstep]
      exact hbefore

theorem leading_put : (packed.put env size room evt).leading = true ↔
    packed.leading = true ∨ room = .tried ∧ (Room.tried.attempt env size evt).isOk = true := by
  unfold Packed.put
  by_cases hroom : room = .tried
  · subst hroom
    cases Room.tried.attempt env size evt with
    | ok buf => simp [Except.isOk, Except.toBool]
    | error e => simp [Except.isOk, Except.toBool]
  · cases room.attempt env size evt with
    | ok buf => simp [hroom]
    | error e => simp [hroom]

-- A batch starts with a comma exactly if its first object comes behind failed events.
theorem exists_leading_iff (hsize : 0 ≤ size) (hfits : room.Fits size packed)
    (evts : List EventData) : (∃ batch ∈ pack env size room packed evts, batch.leading = true) ↔
      packed.leading = true ∨ PutBehindFailed env size room evts := by
  induction evts generalizing room packed with
  | nil =>
      have hno : ¬PutBehindFailed env size room [] := by
        rintro ⟨before, evt, after, hsplit, -⟩
        simp at hsplit
      rw [pack]
      cases hfits with
      | fresh => simp [Packed.empty, hno]
      | tried => simp [Packed.empty, hno]
      | used _ _ hevents => simp [hevents, hno]
  | cons evt evts ih =>
      rw [pack, putBehindFailed_cons]
      cases hnext : room.next env size evt with
      | some room' =>
          have hstep : room.step env size evt = some room' := by rw [Room.step, hnext]
          simp only [hstep, ih (hfits.next hsize hnext), leading_put, or_assoc,
            Option.some.injEq, exists_eq_left']
      | none =>
          have hno := Room.next_eq_none.mp hnext
          cases hfits with
          | fresh => simp [Room.isUsed, Room.step, hnext, Packed.empty]
          | tried => simp [Room.isUsed, Room.step, hnext, Packed.empty, hno, Except.isOk, Except.toBool]
          | used _ _ hevents =>
              cases hfresh : Room.fresh.next env size evt with
              | none => simp [Room.isUsed, Room.step, hnext, hfresh]
              | some room' =>
                  have hrest := ih (Room.Fits.fresh.next hsize hfresh)
                  rw [leading_put] at hrest
                  simp only [Room.isUsed, Room.step, hnext, hfresh, if_true, List.mem_cons,
                    exists_eq_or_imp, hrest]
                  simp [Packed.empty]

end Objects

-- The numbers and the arrays printed are small, so the resource always fits.
theorem setEvtResource_isSome (thrdInfo : ThrdInfo) (procInfo : ProcInfo) :
    (setEvtResource thrdInfo procInfo LEN_OF_RESOURCE).isSome := by
  have hpid := length_formatInt thrdInfo.pid
  have htgid := length_formatInt procInfo.tgid
  have hthrd : thrdInfo.comm.text.length < 16 := thrdInfo.comm.fits
  have hproc : procInfo.comm.text.length < 16 := procInfo.comm.fits
  have hname : procInfo.procName.text.length < 128 := procInfo.procName.fits
  have hid : procInfo.containerInfo.id.text.length < 13 := procInfo.containerInfo.id.fits
  have hcontainer : procInfo.containerInfo.name.text.length < 64 := procInfo.containerInfo.name.fits
  unfold setEvtResource formatTo
  generalize formatInt thrdInfo.pid = pid at hpid ⊢
  generalize formatInt procInfo.tgid = tgid at htgid ⊢
  rw [if_pos]
  · rfl
  · simp [length_quoted, LEN_OF_RESOURCE]
    omega

variable (env now attrsSize)

-- The event fits alone into an empty batch.
def FitsAlone (evt : EventData) : Prop :=
  (setEvtAttrsBatch env attrsSize [evt]).isSome

instance : DecidablePred (FitsAlone env attrsSize) := fun _ => inferInstanceAs (Decidable (_ = _))

theorem fitsAlone_iff (hsize : FRAME_SIZE ≤ attrsSize) (evt : EventData) :
    FitsAlone env attrsSize evt ↔ fitsEmpty env (attrsSize - FRAME_SIZE) evt = true := by
  have hcons := (inLoop_emptyBatch attrsSize).appendLoop_cons env (by omega) .fresh evt []
  rw [FitsAlone, setEvtAttrsBatch_of_le hsize, hcons, fitsEmpty]
  cases Room.fresh.attempt env (attrsSize - FRAME_SIZE) evt with
  | ok buf => simp [appendLoop, emptyBatch, Except.isOk, Except.toBool]
  | error e => cases e <;> simp [appendLoop, emptyBatch, Except.isOk, Except.toBool]

-- What a report emits is its packing.
theorem exists_reportThrdEvents (procInfo : ProcInfo) (thrdInfo : ThrdInfo) :
    ∃ resource, reportThrdEvents env now attrsSize procInfo thrdInfo =
      ⟨if FRAME_SIZE ≤ attrsSize then
        (pack env (attrsSize - FRAME_SIZE) .fresh .empty thrdInfo.cachedEvts).map
          (Packed.toLog now resource) else [], []⟩ := by
  obtain ⟨resource, hresource⟩ := Option.isSome_iff_exists.mp
    (setEvtResource_isSome thrdInfo procInfo)
  refine ⟨resource, ?_⟩
  rw [reportThrdEvents, hresource]
  simp only
  by_cases hsize : FRAME_SIZE ≤ attrsSize
  · rw [if_pos hsize, reportLoop_eq hsize (Nat.le_refl _)]
  · rw [if_neg hsize]
    cases thrdInfo.cachedEvts with
    | nil => rfl
    | cons evt evts =>
        rw [List.length_cons, reportLoop, if_neg (by simp),
          setEvtAttrsBatch_of_lt (Int.not_le.mp hsize)]

-- The attributes are the objects of their events, whatever stands before the first.
def HoldsObjects (log : OtelLog × List EventData) : Prop :=
  ∃ leading objects, List.Forall₂ (IsObject env) log.2 objects ∧
    log.1.attrs = attrsPrefix ++ joined leading objects ++ attrsSuffix


theorem report_holdsObjects (procInfo : ProcInfo) (thrdInfo : ThrdInfo) :
    ∀ log ∈ (reportThrdEvents env now attrsSize procInfo thrdInfo).emitted, HoldsObjects env log := by
  obtain ⟨resource, hreport⟩ := exists_reportThrdEvents env now attrsSize procInfo thrdInfo
  rw [hreport]
  intro log hlog
  simp only at hlog
  split_ifs at hlog with hsize
  · obtain ⟨packed, hpacked, rfl⟩ := List.mem_map.mp hlog
    obtain ⟨objects, hobjects, hbody⟩ :=
      pack_joined (by omega) .fresh ⟨[], .nil, rfl⟩ thrdInfo.cachedEvts packed hpacked
    exact ⟨packed.leading, objects, hobjects, by rw [← hbody]; rfl⟩
  · simp at hlog

theorem stuck_of_lt (hsize : attrsSize < FRAME_SIZE) (evt : EventData) :
    Stuck env (attrsSize - FRAME_SIZE) [] evt := by
  have hattempt : Room.fresh.attempt env (attrsSize - FRAME_SIZE) evt = .error .noBuff := by
    simp only [Room.attempt, setEvtAttrsSingle, strbufAppendChrWithCheck,
      if_pos (show attrsSize - FRAME_SIZE ≤ 0 by omega)]
    rfl
  refine ⟨.fresh, rfl, ?_⟩
  rw [Room.step, Room.next_eq_none.mpr hattempt]
  rfl

theorem not_putBehindFailed_of_lt (hsize : attrsSize < FRAME_SIZE) (evts : List EventData) :
    ¬PutBehindFailed env (attrsSize - FRAME_SIZE) .fresh evts := by
  rintro ⟨before, evt, after, -, hbefore, -⟩
  cases before with
  | nil => cases hbefore
  | cons head before =>
      obtain ⟨room, hroom, hstep⟩ := stuck_of_lt env attrsSize hsize head
      cases hroom
      rw [roomAfter_cons, hstep] at hbefore
      cases hbefore

-- `{"values":[o1,…,on]}` with one object at least, each of an event in the cache.
def WellFormed (cachedEvts : List EventData) (attrs : Text) : Prop :=
  ∃ objects, objects ≠ [] ∧ (∀ object ∈ objects, ∃ evt ∈ cachedEvts, IsObject env evt object) ∧
    attrs = attrsPrefix ++ [','].intercalate objects ++ attrsSuffix

theorem not_wellFormed {cachedEvts : List EventData} {attrs : Text}
    (h : attrsPrefix ++ [','] <+: attrs) : ¬WellFormed env cachedEvts attrs := by
  rintro ⟨objects, hne, hobjects, rfl⟩
  obtain ⟨rest, hrest⟩ := h
  rw [List.append_assoc, List.append_assoc] at hrest
  have hrest := List.append_cancel_left hrest
  cases objects with
  | nil => exact hne rfl
  | cons first objects =>
      obtain ⟨evt, -, hobject⟩ := hobjects first List.mem_cons_self
      obtain ⟨attrs, rfl⟩ := hobject.braces
      cases objects <;> simp [List.intercalate] at hrest

theorem wellFormed_iff {packed : Packed} {cachedEvts : List EventData} (hjoined : packed.Joined env)
    (hne : packed.events ≠ []) (hsub : packed.events ⊆ cachedEvts) :
    WellFormed env cachedEvts (attrsPrefix ++ packed.body ++ attrsSuffix) ↔
      ¬packed.leading = true := by
  obtain ⟨objects, hobjects, hbody⟩ := hjoined
  rw [hbody, joined]
  cases packed.leading with
  | true =>
      refine iff_of_false (not_wellFormed env ⟨[','].intercalate objects ++ attrsSuffix, ?_⟩) (by simp)
      simp
  | false =>
      refine iff_of_true ⟨objects, ?_, fun object hobject => ?_, by simp⟩ (by simp)
      · rintro rfl
        exact hne (List.forall₂_nil_right_iff.mp hobjects)
      · obtain ⟨i, hi, rfl⟩ := List.getElem_of_mem hobject
        have hlen := hobjects.length_eq
        exact ⟨packed.events[i], hsub (List.getElem_mem _), hobjects.get (by omega) hi⟩

def sampleAttrsEnv : AttrsEnv where
  sysBootTime := 0
  scmTable := fun nr => if nr = 0 then
    some ⟨.print (by decide) "read".toList, 3, .print (by decide) "file".toList⟩ else none
  fdInfo := fun _ => none
  symbStack := fun _ => none
  formatDuration := fun _ => "1.000".toList

def sampleProcInfo : ProcInfo where
  tgid := 1
  comm := .print (Nat.zero_lt_succ _) "app".toList
  procName := .print (Nat.zero_lt_succ _) "app".toList
  containerInfo := ⟨.print (Nat.zero_lt_succ _) [], .print (Nat.zero_lt_succ _) []⟩
  fdTable := []
  thrdTable := []

def sampleThrdInfo (cachedEvts : List EventData) : ThrdInfo where
  pid := 7
  comm := .print (Nat.zero_lt_succ _) "worker".toList
  cachedEvts := cachedEvts
  lastReportTime := 0

def sampleOncpu (count : Int32) : EventData := .oncpu ⟨0, 1000000, count⟩

-- The read of a descriptor that is closed by now.
def sampleClosed : EventData := .syscall ⟨0, 0, 1000000, 1, 5, 0⟩

-- The report empties the cache. Up to an event that is stuck, the events that fit
-- alone are emitted, in order; what comes from there on is discarded, which cannot
-- happen at the size in use.
theorem report_emits (procInfo : ProcInfo) (thrdInfo : ThrdInfo) :
    (reportThrdEvents env now attrsSize procInfo thrdInfo).cachedEvts = [] ∧
    (∀ log ∈ (reportThrdEvents env now attrsSize procInfo thrdInfo).emitted, HoldsObjects env log) ∧
    ∃ kept discarded, thrdInfo.cachedEvts = kept ++ discarded ∧
      (reportThrdEvents env now attrsSize procInfo thrdInfo).emitted.flatMap Prod.snd =
        kept.filter (FitsAlone env attrsSize ·) ∧
      (∀ evt after, discarded = evt :: after → Stuck env (attrsSize - FRAME_SIZE) kept evt) ∧
      (attrsSize = LEN_OF_ATTRS → (∀ duration, (env.formatDuration duration).length ≤ 32) →
        discarded = []) := by
  refine ⟨?_, report_holdsObjects env now attrsSize procInfo thrdInfo, ?_⟩
  · obtain ⟨resource, hreport⟩ := exists_reportThrdEvents env now attrsSize procInfo thrdInfo
    rw [hreport]
  obtain ⟨resource, hreport⟩ := exists_reportThrdEvents env now attrsSize procInfo thrdInfo
  rw [hreport]
  by_cases hsize : FRAME_SIZE ≤ attrsSize
  · obtain ⟨discarded, hsplit, hstuck⟩ :=
      exists_served env (attrsSize - FRAME_SIZE) .fresh thrdInfo.cachedEvts
    refine ⟨_, discarded, hsplit, ?_, hstuck, fun hlen hduration => ?_⟩
    · have hpack : (pack env (attrsSize - FRAME_SIZE) .fresh .empty
          thrdInfo.cachedEvts).flatMap Packed.events = _ := pack_events (by omega) .fresh _
      simp only [if_pos hsize, List.flatMap_map]
      refine hpack.trans (List.filter_congr fun evt _ => ?_)
      rw [Bool.eq_iff_iff, decide_eq_true_iff, fitsAlone_iff env attrsSize hsize]
    · have hroom : attrsSize - FRAME_SIZE = 7154 := by
        rw [hlen]
        rfl
      have hall : served env (attrsSize - FRAME_SIZE) .fresh thrdInfo.cachedEvts =
          thrdInfo.cachedEvts := served_eq_self fun evt _ => by
        have := hduration evt.duration
        omega
      rw [hall] at hsplit
      exact List.self_eq_append_right.mp hsplit
  · refine ⟨[], thrdInfo.cachedEvts, rfl, by simp [if_neg hsize], ?_, fun hlen => ?_⟩
    · exact fun evt _ _ => stuck_of_lt env attrsSize (Int.not_le.mp hsize) evt
    · rw [hlen] at hsize
      exact absurd (by decide) hsize

-- An event that is too large for a batch takes the next one, which fits, with it.
theorem report_emits_oversize : ¬∀ env now attrsSize procInfo thrdInfo,
    (reportThrdEvents env now attrsSize procInfo thrdInfo).emitted.flatMap Prod.snd =
      thrdInfo.cachedEvts.filter (FitsAlone env attrsSize ·) := by
  intro h
  have hreport := h sampleAttrsEnv 0 112 sampleProcInfo
    (sampleThrdInfo [sampleOncpu 10, sampleOncpu 1])
  revert hreport
  decide +kernel

-- Every text is well formed, unless a batch gets its first object behind an event
-- that failed in it.
theorem report_wellFormed_iff (procInfo : ProcInfo) (thrdInfo : ThrdInfo) :
    (∀ log ∈ (reportThrdEvents env now attrsSize procInfo thrdInfo).emitted,
      WellFormed env thrdInfo.cachedEvts log.1.attrs) ↔
    ¬PutBehindFailed env (attrsSize - FRAME_SIZE) .fresh thrdInfo.cachedEvts := by
  obtain ⟨resource, hreport⟩ := exists_reportThrdEvents env now attrsSize procInfo thrdInfo
  rw [hreport]
  by_cases hsize : FRAME_SIZE ≤ attrsSize
  · have hroom : 0 ≤ attrsSize - FRAME_SIZE := by omega
    have hleading : (∃ batch ∈ pack env (attrsSize - FRAME_SIZE) .fresh .empty thrdInfo.cachedEvts,
        batch.leading = true) ↔ _ := exists_leading_iff hroom .fresh _
    rw [or_iff_right (show ¬Packed.empty.leading = true from Bool.false_ne_true)] at hleading
    have hwf : ∀ batch ∈ pack env (attrsSize - FRAME_SIZE) .fresh .empty thrdInfo.cachedEvts,
        WellFormed env thrdInfo.cachedEvts (attrsPrefix ++ batch.body ++ attrsSuffix) ↔
          ¬batch.leading = true := fun batch hbatch =>
      wellFormed_iff env (pack_joined hroom .fresh ⟨[], .nil, rfl⟩ _ batch hbatch)
        (pack_events_ne_nil hroom .fresh _ batch hbatch) (pack_subset hroom _ batch hbatch)
    simp only [if_pos hsize, List.forall_mem_map]
    calc
      (∀ batch ∈ pack env (attrsSize - FRAME_SIZE) .fresh .empty thrdInfo.cachedEvts,
          WellFormed env thrdInfo.cachedEvts (attrsPrefix ++ batch.body ++ attrsSuffix)) ↔
          ∀ batch ∈ pack env (attrsSize - FRAME_SIZE) .fresh .empty thrdInfo.cachedEvts,
            ¬batch.leading = true := forall₂_congr hwf
      _ ↔ ¬PutBehindFailed env (attrsSize - FRAME_SIZE) .fresh thrdInfo.cachedEvts := by
        rw [← hleading]
        simp only [not_exists, not_and]
  · have hno := not_putBehindFailed_of_lt env attrsSize (Int.not_le.mp hsize) thrdInfo.cachedEvts
    simp [if_neg hsize, hno]

-- The read of the closed descriptor leaves a comma before the only object.
theorem report_wellFormed_closed : ¬∀ env now procInfo thrdInfo,
    ∀ log ∈ (reportThrdEvents env now LEN_OF_ATTRS procInfo thrdInfo).emitted,
      WellFormed env thrdInfo.cachedEvts log.1.attrs := by
  intro h
  have hreport : ∃ log ∈ (reportThrdEvents sampleAttrsEnv 0 LEN_OF_ATTRS sampleProcInfo
      (sampleThrdInfo [sampleClosed, sampleOncpu 1])).emitted,
      attrsPrefix ++ [','] <+: log.1.attrs := by decide +kernel
  obtain ⟨log, hlog, hcomma⟩ := hreport
  exact not_wellFormed sampleAttrsEnv hcomma (h _ _ _ _ log hlog)

end Gopher.Profiling
