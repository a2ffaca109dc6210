import Gopher.Profiling
import Mathlib.Algebra.Group.Int.Defs
import Mathlib.Algebra.Group.Nat.Defs
import Mathlib.Tactic.SplitIfs

namespace Gopher.Profiling

open Gopher.Lib

def NSEC_PER_MSEC : UInt64 := 1000000
def EVENT_NAME_LEN : ℕ := 16
def SYSCALL_NAME_LEN : ℕ := 16
def MAX_LEN_OF_PROFILE_EVT_TYPE : ℕ := 8
def PERF_MAX_STACK_DEPTH : ℕ := 127
def FUNC_NAME_LEN : ℕ := 32

def SYSCALL_FUTEX_ID : UInt64 := 202
def SYSCALL_FLAG_FD : UInt32 := 1
def SYSCALL_FLAG_STACK : UInt32 := 2

def FUTEX_WAIT : Int32 := 0
def FUTEX_WAKE : Int32 := 1
def FUTEX_LOCK_PI : Int32 := 6
def FUTEX_UNLOCK_PI : Int32 := 7
def FUTEX_WAIT_BITSET : Int32 := 9
def FUTEX_WAKE_BITSET : Int32 := 10
def FUTEX_CMD_MASK : Int32 := ~~~384

def PROFILE_EVT_TYPE_FILE : Text := "file".toList
def PROFILE_EVT_TYPE_NET : Text := "net".toList
def PROFILE_EVT_TYPE_LOCK : Text := "lock".toList
def PROFILE_EVT_TYPE_ONCPU : Text := "oncpu".toList
def PROFILE_EVT_TYPE_OTHER : Text := "other".toList

structure SyscallMeta where
  name : CString SYSCALL_NAME_LEN
  flag : UInt32
  defaultType : CString MAX_LEN_OF_PROFILE_EVT_TYPE
  deriving DecidableEq

-- What an event is rendered with: the descriptors of its process as `get_fd_info`
-- gives them, the symbols of a stack as `get_symb_stack` leaves them in its array,
-- and the format `%.3lf` of a duration in milliseconds.
structure AttrsEnv where
  sysBootTime : UInt64
  scmTable : UInt64 → Option SyscallMeta
  fdInfo : Int32 → Option FdInfo
  symbStack : Int32 → Option (CString (PERF_MAX_STACK_DEPTH * FUNC_NAME_LEN))
  formatDuration : UInt64 → Text

-- The text printed, and the room left behind it.
structure StrBuf where
  text : Text
  size : ℤ
  deriving DecidableEq, Repr

-- The return values `-ERR_TP_NO_BUFF` and -1.
inductive EvtError
  | noBuff
  | other
  deriving DecidableEq, Repr

instance decidableEqResult : DecidableEq (Except EvtError StrBuf)
  | .ok first, .ok second => decidable_of_iff (first = second) (by simp)
  | .error first, .error second => decidable_of_iff (first = second) (by simp)
  | .ok _, .error _ => isFalse (by simp)
  | .error _, .ok _ => isFalse (by simp)

def strbufAppendStr (buf : StrBuf) (str : Text) : StrBuf :=
  ⟨buf.text ++ str, buf.size - str.length⟩

def strbufAppendChr (buf : StrBuf) (c : Char) : StrBuf :=
  strbufAppendStr buf [c]

def strbufAppendChrWithCheck (buf : StrBuf) (c : Char) : Except EvtError StrBuf :=
  if buf.size ≤ 0 then .error .noBuff else .ok (strbufAppendChr buf c)

def strbufAppendStrWithCheck (buf : StrBuf) (str : Text) : Option StrBuf :=
  if buf.size < str.length then none else some (strbufAppendStr buf str)

-- `snprintf` at the end of the buffer, whose NUL needs a byte as well.
def strbufPrint (buf : StrBuf) (str : Text) : Except EvtError StrBuf :=
  if buf.size ≤ str.length then .error .noBuff else .ok (strbufAppendStr buf str)

variable (env : AttrsEnv) (buf : StrBuf)

def quoted (name value : Text) : Text :=
  ",\"".toList ++ name ++ "\":\"".toList ++ value ++ "\"".toList

def appendStackAttrs (data : SyscallData) : Except EvtError StrBuf :=
  match env.symbStack data.uid with
  | none => .error .other
  | some symbs => strbufPrint buf (quoted "func.stack".toList symbs.text)

def appendRegularFileAttrs (name : Text) : Except EvtError StrBuf :=
  strbufPrint buf (quoted "event.type".toList PROFILE_EVT_TYPE_FILE ++
    quoted "file.path".toList name)

def appendSockAttrs (info : SockInfo) : Except EvtError StrBuf :=
  match info.type with
  | .ipv4 | .ipv6 =>
      strbufPrint buf (quoted "event.type".toList PROFILE_EVT_TYPE_NET ++
        ",\"sock.conn\": \"".toList ++ info.conn.text ++ "\"".toList)
  | .unsupported => .error .other

def appendFdAttrs (data : SyscallData) : Except EvtError StrBuf :=
  match env.fdInfo data.extInfo with
  | none => .error .other
  | some fi =>
      match fi.type with
      | .reg name => appendRegularFileAttrs buf name.text
      | .sock info => appendSockAttrs buf info
      | .unsupported => .error .other

def isFutexWaitOp (op : Int32) : Bool :=
  let opCmd := op &&& FUTEX_CMD_MASK
  opCmd = FUTEX_WAIT || opCmd = FUTEX_WAIT_BITSET || opCmd = FUTEX_LOCK_PI

def isFutexWakeOp (op : Int32) : Bool :=
  let opCmd := op &&& FUTEX_CMD_MASK
  opCmd = FUTEX_WAKE || opCmd = FUTEX_WAKE_BITSET || opCmd = FUTEX_UNLOCK_PI

def futexOp (op : Int32) : Text :=
  if isFutexWaitOp op then "wait".toList
  else if isFutexWakeOp op then "wake".toList
  else []

def appendFutexAttrs (data : SyscallData) : Except EvtError StrBuf :=
  strbufPrint buf (quoted "event.type".toList PROFILE_EVT_TYPE_LOCK ++
    quoted "futex.op".toList (futexOp data.extInfo))

def appendUntypedAttrs (scm : SyscallMeta) : Except EvtError StrBuf :=
  let evtType := if scm.defaultType.text ≠ [] then scm.defaultType.text else PROFILE_EVT_TYPE_OTHER
  strbufPrint buf (quoted "event.type".toList evtType)

def appendSyscallAttrsByNr (data : SyscallData) : Except EvtError StrBuf :=
  match env.scmTable data.nr with
  | none => .error .other
  | some scm => do
      let isFd := scm.flag &&& SYSCALL_FLAG_FD ≠ 0
      let isFutex := data.nr = SYSCALL_FUTEX_ID
      let buf ← (if isFd then appendFdAttrs env buf data else pure buf)
      let buf ← (if isFutex then appendFutexAttrs buf data else pure buf)
      let buf ← (if scm.flag &&& SYSCALL_FLAG_STACK ≠ 0 then appendStackAttrs env buf data
        else pure buf)
      if isFd ∨ isFutex then pure buf else appendUntypedAttrs buf scm

-- The times in milliseconds, with the sums in 64 bits.
def unixTimeMsec (uptime : UInt64) : UInt64 :=
  (env.sysBootTime + uptime) / NSEC_PER_MSEC

def commonAttrs (name : Text) (startTime duration : UInt64) (count : Int32) : Text :=
  "\"event.name\":\"".toList ++ name ++
    "\",\"start_time\":".toList ++ formatUInt (unixTimeMsec env startTime) ++
    ",\"end_time\":".toList ++ formatUInt (unixTimeMsec env (startTime + duration)) ++
    ",\"duration\":".toList ++ env.formatDuration duration ++
    ",\"count\":".toList ++ formatInt count

def appendSyscallCommonAttrs (data : SyscallData) : Except EvtError StrBuf :=
  let evtName := ((env.scmTable data.nr).map fun scm => scm.name.text).getD []
  if unixTimeMsec env data.startTime > unixTimeMsec env (data.startTime + data.duration) then
    .error .other
  else strbufPrint buf (commonAttrs env evtName data.startTime data.duration data.count)

def setSyscallEvtAttrs (data : SyscallData) : Except EvtError StrBuf := do
  let buf ← appendSyscallCommonAttrs env buf data
  appendSyscallAttrsByNr env buf data

def setOncpuEvtAttrs (data : OncpuData) : Except EvtError StrBuf :=
  if unixTimeMsec env data.startTime > unixTimeMsec env (data.startTime + data.duration) then
    .error .other
  else strbufPrint buf (commonAttrs env "oncpu".toList data.startTime data.duration data.count ++
    quoted "event.type".toList PROFILE_EVT_TYPE_ONCPU)

def setTypedEvtAttrs (evt : EventData) : Except EvtError StrBuf :=
  match evt with
  | .syscall data => setSyscallEvtAttrs env buf data
  | .oncpu data => setOncpuEvtAttrs env buf data
  | .unknown _ => .error .other

def setEvtAttrsSingle (evt : EventData) : Except EvtError StrBuf := do
  let buf ← strbufAppendChrWithCheck buf '\x7b'
  let buf ← setTypedEvtAttrs env buf evt
  strbufAppendChrWithCheck buf '\x7d'

-- A step that prints all its text or none, by the room it needs. Without a text it
-- fails once there is that much room.
structure Rendering where
  need : ℕ
  text : Option Text

def Rendering.print (rendering : Rendering) (buf : StrBuf) : Except EvtError StrBuf :=
  if buf.size < rendering.need then .error .noBuff
  else match rendering.text with
    | none => .error .other
    | some text => .ok (strbufAppendStr buf text)

-- What the second step needs comes on top of what the first one prints.
def Rendering.andThen (before after : Rendering) : Rendering :=
  match before.text with
  | none => before
  | some text => ⟨max before.need (text.length + after.need), after.text.map (text ++ ·)⟩

-- Text that is printed needs its length, and a byte more at most for the NUL.
structure Rendering.Tight (rendering : Rendering) : Prop where
  length_le : ∀ text, rendering.text = some text → text.length ≤ rendering.need
  need_le : ∀ text, rendering.text = some text → rendering.need ≤ text.length + 1

-- `bound` is room enough.
def Renders (bound : ℕ) (step : StrBuf → Except EvtError StrBuf) : Prop :=
  ∃ rendering : Rendering, rendering.Tight ∧ rendering.need ≤ bound ∧
    ∀ buf : StrBuf, 0 ≤ buf.size → step buf = rendering.print buf

@[simp] theorem size_strbufAppendStr (buf : StrBuf) (str : Text) :
    (strbufAppendStr buf str).size = buf.size - str.length := rfl

@[simp] theorem text_strbufAppendStr (buf : StrBuf) (str : Text) :
    (strbufAppendStr buf str).text = buf.text ++ str := rfl

theorem strbufAppendStr_append (buf : StrBuf) (first second : Text) :
    strbufAppendStr (strbufAppendStr buf first) second = strbufAppendStr buf (first ++ second) := by
  simp only [strbufAppendStr, List.append_assoc, List.length_append, StrBuf.mk.injEq, true_and]
  omega

theorem strbufAppendStr_nil (buf : StrBuf) : strbufAppendStr buf [] = buf := by
  simp [strbufAppendStr]

theorem renders_pure (bound : ℕ) : Renders bound fun buf => pure buf := by
  refine ⟨⟨0, some []⟩, ⟨?_, ?_⟩, Nat.zero_le _, fun buf hsize => ?_⟩
  · rintro _ ⟨⟩
    exact Nat.le_refl 0
  · rintro _ ⟨⟩
    exact Nat.zero_le _
  · rw [Rendering.print, if_neg (by simpa using hsize)]
    exact congrArg Except.ok (strbufAppendStr_nil buf).symm

theorem renders_fail (bound : ℕ) : Renders bound fun _ => .error .other := by
  refine ⟨⟨0, none⟩, ⟨?_, ?_⟩, Nat.zero_le _, fun buf hsize => ?_⟩
  · rintro _ ⟨⟩
  · rintro _ ⟨⟩
  · rw [Rendering.print, if_neg (by simpa using hsize)]

theorem renders_strbufPrint {bound : ℕ} {text : Text} (hlen : text.length < bound) :
    Renders bound fun buf => strbufPrint buf text := by
  refine ⟨⟨text.length + 1, some text⟩, ⟨?_, ?_⟩, hlen, fun buf _ => ?_⟩
  · rintro _ ⟨⟩
    exact Nat.le_succ _
  · rintro _ ⟨⟩
    exact Nat.le_refl _
  · have hiff : buf.size ≤ text.length ↔ buf.size < (text.length + 1 : ℕ) := by omega
    simp only [strbufPrint, Rendering.print, hiff]

variable {first second : StrBuf → Except EvtError StrBuf}

theorem Rendering.Tight.andThen {before after : Rendering} (hbefore : before.Tight)
    (hafter : after.Tight) : (before.andThen after).Tight := by
  unfold Rendering.andThen
  cases htext : before.text with
  | none => exact hbefore
  | some text =>
      have hle := hbefore.length_le text htext
      have hneed := hbefore.need_le text htext
      constructor
      · intro printed hprinted
        obtain ⟨rest, hrest, rfl⟩ := Option.map_eq_some_iff.mp hprinted
        have := hafter.length_le rest hrest
        simp only [List.length_append]
        omega
      · intro printed hprinted
        obtain ⟨rest, hrest, rfl⟩ := Option.map_eq_some_iff.mp hprinted
        have := hafter.need_le rest hrest
        simp only [List.length_append]
        omega

theorem Rendering.print_andThen {before after : Rendering} (hbefore : before.Tight)
    (hfirst : ∀ buf : StrBuf, 0 ≤ buf.size → first buf = before.print buf)
    (hsecond : ∀ buf : StrBuf, 0 ≤ buf.size → second buf = after.print buf) {buf : StrBuf}
    (hsize : 0 ≤ buf.size) : (first buf >>= second) = (before.andThen after).print buf := by
  rw [hfirst buf hsize, andThen]
  cases htext : before.text with
  | none =>
      simp only [print, htext]
      split_ifs <;> rfl
  | some text =>
      have hle := hbefore.length_le text htext
      simp only [print, htext]
      by_cases hroom : buf.size < before.need
      · rw [if_pos hroom, if_pos (by omega)]
        rfl
      · rw [if_neg hroom]
        change second (strbufAppendStr buf text) = _
        rw [hsecond _ (by rw [size_strbufAppendStr]; omega), print, size_strbufAppendStr]
        by_cases hlast : buf.size - text.length < after.need
        · rw [if_pos hlast, if_pos (by omega)]
        · rw [if_neg hlast, if_neg (by omega)]
          cases after.text with
          | none => rfl
          | some rest => exact congrArg Except.ok (strbufAppendStr_append buf text rest)

theorem Rendering.need_andThen {before : Rendering} (hbefore : before.Tight) (after : Rendering) :
    (before.andThen after).need ≤ before.need + after.need := by
  unfold andThen
  cases htext : before.text with
  | none => exact Nat.le_add_right _ _
  | some text =>
      have hle := hbefore.length_le text htext
      simp only
      omega

theorem Renders.bind {bound rest : ℕ} (hfirst : Renders bound first) (hsecond : Renders rest second) :
    Renders (bound + rest) fun buf => first buf >>= second := by
  obtain ⟨before, hbefore, hneed, hfirst⟩ := hfirst
  obtain ⟨after, hafter, hneed', hsecond⟩ := hsecond
  have hboth := Rendering.need_andThen hbefore after
  exact ⟨before.andThen after, hbefore.andThen hafter, by omega,
    fun _ hsize => Rendering.print_andThen hbefore hfirst hsecond hsize⟩

theorem Renders.ite {bound : ℕ} (condition : Prop) [Decidable condition]
    (hfirst : Renders bound first) (hsecond : Renders bound second) :
    Renders bound fun buf => if condition then first buf else second buf := by
  by_cases h : condition
  · simpa only [if_pos h] using hfirst
  · simpa only [if_neg h] using hsecond

theorem Renders.mono {bound more : ℕ} (h : Renders bound first) (hle : bound ≤ more) :
    Renders more first := by
  obtain ⟨rendering, htight, hneed, hprint⟩ := h
  exact ⟨rendering, htight, Nat.le_trans hneed hle, hprint⟩

theorem length_quoted (name value : Text) :
    (quoted name value).length = name.length + value.length + 6 := by
  simp [quoted]
  omega

theorem length_toDigits_le {n k : ℕ} (hk : 0 < k) (h : n < 10 ^ k) :
    (Nat.toDigits 10 n).length ≤ k :=
  (Nat.length_toDigits_le_iff (by decide) hk).mpr h

theorem length_formatUInt (n : UInt64) : (formatUInt n).length ≤ 20 := by
  have hlt := n.toNat_lt
  exact length_toDigits_le (by decide) (by omega)

theorem length_formatInt (n : Int32) : (formatInt n).length ≤ 11 := by
  have hlow := n.le_toInt
  have hhigh := n.toInt_lt
  have hdigits : (Nat.toDigits 10 n.toInt.natAbs).length ≤ 10 :=
    length_toDigits_le (by decide) (by omega)
  simp only [formatInt]
  split_ifs
  · rw [List.length_cons]
    omega
  · omega

variable (env : AttrsEnv)

-- Room enough for each part of an event, in bytes.
theorem renders_appendFdAttrs (data : SyscallData) :
    Renders 200 fun buf => appendFdAttrs env buf data := by
  unfold appendFdAttrs
  cases env.fdInfo data.extInfo with
  | none => exact renders_fail _
  | some fi =>
      cases hkind : fi.type with
      | reg name =>
          have := name.fits
          simp only [hkind]
          refine renders_strbufPrint ?_
          simp [length_quoted, PROFILE_EVT_TYPE_FILE, MAX_PATH_SIZE] at this ⊢
          omega
      | sock info =>
          have := info.conn.fits
          have hprint : Renders 200 fun buf => strbufPrint buf
              (quoted "event.type".toList PROFILE_EVT_TYPE_NET ++
                ",\"sock.conn\": \"".toList ++ info.conn.text ++ "\"".toList) := by
            refine renders_strbufPrint ?_
            simp [length_quoted, PROFILE_EVT_TYPE_NET, MAX_NET_CONN_INFO_SIZE] at this ⊢
            omega
          simp only [hkind, appendSockAttrs]
          cases info.type with
          | ipv4 => exact hprint
          | ipv6 => exact hprint
          | unsupported => exact renders_fail _
      | unsupported => simpa only [hkind] using renders_fail _

theorem renders_appendFutexAttrs (data : SyscallData) :
    Renders 200 fun buf => appendFutexAttrs buf data := by
  refine renders_strbufPrint ?_
  have hop : (futexOp data.extInfo).length ≤ 4 := by
    unfold futexOp
    split_ifs <;> decide
  simp [length_quoted, PROFILE_EVT_TYPE_LOCK]
  omega

theorem renders_appendStackAttrs (data : SyscallData) :
    Renders 4200 fun buf => appendStackAttrs env buf data := by
  unfold appendStackAttrs
  cases env.symbStack data.uid with
  | none => exact renders_fail _
  | some symbs =>
      have hfits : symbs.text.length < 4064 := symbs.fits
      refine renders_strbufPrint ?_
      simp [length_quoted]
      omega

theorem renders_appendUntypedAttrs (scm : SyscallMeta) :
    Renders 200 fun buf => appendUntypedAttrs buf scm := by
  refine renders_strbufPrint ?_
  have := scm.defaultType.fits
  simp only [length_quoted, MAX_LEN_OF_PROFILE_EVT_TYPE] at this ⊢
  split_ifs <;> simp [PROFILE_EVT_TYPE_OTHER]
  omega

theorem renders_appendSyscallAttrsByNr (data : SyscallData) :
    Renders 4800 fun buf => appendSyscallAttrsByNr env buf data := by
  unfold appendSyscallAttrsByNr
  cases env.scmTable data.nr with
  | none => exact renders_fail _
  | some scm =>
      have hfd := Renders.ite (scm.flag &&& SYSCALL_FLAG_FD ≠ 0) (renders_appendFdAttrs env data)
        (renders_pure _)
      have hfutex := Renders.ite (data.nr = SYSCALL_FUTEX_ID) (renders_appendFutexAttrs data)
        (renders_pure _)
      have hstack := Renders.ite (scm.flag &&& SYSCALL_FLAG_STACK ≠ 0)
        (renders_appendStackAttrs env data) (renders_pure _)
      have hlast := Renders.ite (scm.flag &&& SYSCALL_FLAG_FD ≠ 0 ∨ data.nr = SYSCALL_FUTEX_ID)
        (renders_pure _) (renders_appendUntypedAttrs scm)
      exact (hfd.bind (hfutex.bind (hstack.bind hlast))).mono (Nat.le_refl _)

def EventData.duration : EventData → UInt64
  | syscall data => data.duration
  | oncpu data => data.duration
  | unknown _ => 0

theorem length_commonAttrs {name : Text} (hname : name.length < EVENT_NAME_LEN)
    (startTime duration : UInt64) (count : Int32) :
    (commonAttrs env name startTime duration count).length <
      (env.formatDuration duration).length + 160 := by
  have hstart := length_formatUInt (unixTimeMsec env startTime)
  have hend := length_formatUInt (unixTimeMsec env (startTime + duration))
  have hcount := length_formatInt count
  have hname : name.length < 16 := hname
  unfold commonAttrs
  generalize formatUInt (unixTimeMsec env startTime) = first at hstart ⊢
  generalize formatUInt (unixTimeMsec env (startTime + duration)) = last at hend ⊢
  generalize formatInt count = times at hcount ⊢
  simp
  omega

theorem renders_appendSyscallCommonAttrs (data : SyscallData) :
    Renders ((env.formatDuration data.duration).length + 200)
      fun buf => appendSyscallCommonAttrs env buf data := by
  unfold appendSyscallCommonAttrs
  apply Renders.ite _ (renders_fail _)
  refine renders_strbufPrint ?_
  refine Nat.lt_trans (length_commonAttrs env ?_ _ _ _) (by omega)
  cases env.scmTable data.nr with
  | none => decide
  | some scm => exact scm.name.fits

theorem renders_setOncpuEvtAttrs (data : OncpuData) :
    Renders ((env.formatDuration data.duration).length + 200)
      fun buf => setOncpuEvtAttrs env buf data := by
  unfold setOncpuEvtAttrs
  apply Renders.ite _ (renders_fail _)
  refine renders_strbufPrint ?_
  have := length_commonAttrs env (show "oncpu".toList.length < EVENT_NAME_LEN by decide)
    data.startTime data.duration data.count
  have hquoted : (quoted "event.type".toList PROFILE_EVT_TYPE_ONCPU).length = 21 := by
    simp [length_quoted, PROFILE_EVT_TYPE_ONCPU]
  rw [List.length_append, hquoted]
  omega

theorem renders_setTypedEvtAttrs (evt : EventData) :
    Renders ((env.formatDuration evt.duration).length + 5000)
      fun buf => setTypedEvtAttrs env buf evt := by
  cases evt with
  | syscall data =>
      exact ((renders_appendSyscallCommonAttrs env data).bind
        (renders_appendSyscallAttrsByNr env data)).mono (by simp only [EventData.duration]; omega)
  | oncpu data =>
      exact (renders_setOncpuEvtAttrs env data).mono (by simp only [EventData.duration]; omega)
  | unknown type => exact renders_fail _

def chrRendering (c : Char) : Rendering := ⟨1, some [c]⟩

theorem chrRendering_tight (c : Char) : (chrRendering c).Tight := by
  constructor
  · rintro _ ⟨⟩
    exact Nat.le_refl 1
  · rintro _ ⟨⟩
    exact Nat.le_succ 1

theorem strbufAppendChrWithCheck_eq (c : Char) (buf : StrBuf) :
    strbufAppendChrWithCheck buf c = (chrRendering c).print buf := by
  have hneed : (chrRendering c).need = 1 := rfl
  rw [strbufAppendChrWithCheck, Rendering.print]
  by_cases hroom : buf.size ≤ 0
  · rw [if_pos hroom, if_pos (by omega)]
  · rw [if_neg hroom, if_neg (by omega)]
    rfl

-- A whole object needs just its length.
structure Rendering.Object (rendering : Rendering) : Prop where
  need_eq : ∀ object, rendering.text = some object → rendering.need = object.length
  braces : ∀ object, rendering.text = some object →
    ∃ attrs, object = '\x7b' :: (attrs ++ ['\x7d'])

theorem Rendering.Tight.object {rendering : Rendering} (h : rendering.Tight) :
    ((chrRendering '\x7b').andThen (rendering.andThen (chrRendering '\x7d'))).Object := by
  cases htext : rendering.text with
  | none =>
      have hnone : ((chrRendering '\x7b').andThen
          (rendering.andThen (chrRendering '\x7d'))).text = none := by
        simp [Rendering.andThen, chrRendering, htext]
      constructor <;> simp [hnone]
  | some attrs =>
      have hneed := h.need_le attrs htext
      have heq : (chrRendering '\x7b').andThen (rendering.andThen (chrRendering '\x7d')) =
          ⟨attrs.length + 2, some ('\x7b' :: (attrs ++ ['\x7d']))⟩ := by
        simp only [Rendering.andThen, chrRendering, htext, Option.map_some, List.length_singleton,
          List.singleton_append, Rendering.mk.injEq, and_true]
        omega
      rw [heq]
      constructor
      · rintro _ ⟨⟩
        simp
      · rintro _ ⟨⟩
        exact ⟨attrs, rfl⟩

theorem setEvtAttrsSingle_spec (evt : EventData) :
    ∃ rendering : Rendering, rendering.Object ∧
      rendering.need ≤ (env.formatDuration evt.duration).length + 5002 ∧
      ∀ buf : StrBuf, 0 ≤ buf.size → setEvtAttrsSingle env buf evt = rendering.print buf := by
  obtain ⟨typed, htyped, hneed, hprint⟩ := renders_setTypedEvtAttrs env evt
  have hopen (buf : StrBuf) (_ : 0 ≤ buf.size) := strbufAppendChrWithCheck_eq '\x7b' buf
  have hclose (buf : StrBuf) (_ : 0 ≤ buf.size) := strbufAppendChrWithCheck_eq '\x7d' buf
  refine ⟨_, htyped.object, ?_, fun buf hsize => ?_⟩
  · refine Nat.le_trans (Rendering.need_andThen (chrRendering_tight _) _) ?_
    have hrest := Rendering.need_andThen htyped (chrRendering '\x7d')
    have hchr (c : Char) : (chrRendering c).need = 1 := rfl
    rw [hchr] at hrest ⊢
    omega
  · exact Rendering.print_andThen (chrRendering_tight _) hopen
      (fun _ hrest => Rendering.print_andThen htyped hprint hclose hrest) hsize

end Gopher.Profiling
