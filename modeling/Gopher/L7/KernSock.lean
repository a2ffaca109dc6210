import Mathlib.Algebra.Group.Int.Defs
import Mathlib.Algebra.Group.Nat.Defs
import Mathlib.Data.Int.Notation
import Mathlib.Tactic.SplitIfs

namespace Gopher.L7.KernSock

abbrev Byte := UInt8

def loopLimit : ℕ := 4
def connDataMaxSize : ℕ := 10 * 1024

-- The conversions `(int)n` of a `size_t` and `(size_t)n` of an `int`.
def toInt (n : ℕ) : ℤ := (n + 2 ^ 31) % 2 ^ 32 - 2 ^ 31
def toSize (n : ℤ) : ℕ := (n % 2 ^ 64).toNat

-- What is readable from `iov_base`; `iov_len` is its length.
structure Iovec where
  iovBase : List Byte

def Iovec.iovLen (iov : Iovec) : ℕ := iov.iovBase.length

-- struct sock_data_args_s: one buffer, or the iovecs of a vectored call.
structure SockDataArgs where
  buf : Option (List Byte)
  iov : Option (List Iovec)

-- struct conn_data_s. The array keeps what the last chunk left behind `data_size`.
structure ConnData where
  offsetPos : UInt64
  dataSize : ℕ
  data : List Byte

-- What is sent through `conn_data_events`, and the record as it is left.
def submitPerfBuf (buf : List Byte) (bytesCount : ℕ) (connData : ConnData) :
    List ConnData × ConnData :=
  if bytesCount = 0 then ([], connData)
  else
    let copiedSize := if connDataMaxSize < bytesCount then connDataMaxSize else bytesCount
    let connData := { connData with
      data := buf.take copiedSize ++ connData.data.drop copiedSize
      dataSize := copiedSize }
    ([connData], connData)

-- The loop over a flat buffer with `left` iterations to go, the last of which takes
-- whatever remains.
def submitBuf (buf : List Byte) (bytesCount : ℕ) : (left : ℕ) → (bytesSent : ℤ) → ConnData →
    List ConnData
  | 0, _, _ => []
  | left + 1, bytesSent, connData =>
      let bytesRemaining := toInt bytesCount - bytesSent
      let bytesTruncated :=
        if (connDataMaxSize : ℤ) < bytesRemaining ∧ left ≠ 0 then (connDataMaxSize : ℤ)
        else bytesRemaining
      if bytesTruncated ≤ 0 then []
      else
        let sent := submitPerfBuf (buf.drop bytesSent.toNat) (toSize bytesTruncated) connData
        let offsetPos := sent.2.offsetPos + UInt64.ofNat (toSize bytesTruncated)
        sent.1 ++ submitBuf buf bytesCount left (bytesSent + bytesTruncated)
          { sent.2 with offsetPos }

-- The loop over the iovecs. `bytes_truncated` keeps the value it has before the loop.
def submitIov (bytesCount : ℕ) (bytesTruncated : ℤ) : (left : ℕ) → List Iovec → (bytesSent : ℤ) →
    ConnData → List ConnData
  | 0, _, _, _ => []
  | _, [], _, _ => []
  | left + 1, iovCpy :: iov, bytesSent, connData =>
      if toSize bytesSent < bytesCount then
        let bytesRemaining := toInt bytesCount - bytesSent
        if bytesTruncated ≤ 0 then []
        else
          let iovLen := min iovCpy.iovLen (toSize bytesRemaining)
          let sent := submitPerfBuf iovCpy.iovBase iovLen connData
          let offsetPos := sent.2.offsetPos + UInt64.ofNat iovLen
          sent.1 ++ submitIov bytesCount bytesTruncated left iov
            (toInt (toSize bytesSent + iovLen)) { sent.2 with offsetPos }
      else []

def submitConnData (args : SockDataArgs) (connData : ConnData) (bytesCount : ℕ) :
    List ConnData :=
  let bytesTruncated : ℤ := 0
  match args.buf, args.iov with
  | some buf, _ => submitBuf buf bytesCount loopLimit 0 connData
  | none, some iov => submitIov bytesCount bytesTruncated loopLimit iov 0 connData
  | none, none => []

-- The bytes that a system call moved, in their order.
def SockDataArgs.bytes (args : SockDataArgs) : List Byte :=
  match args.buf with
  | some buf => buf
  | none => (args.iov.getD []).flatMap Iovec.iovBase

-- The bytes an event carries.
def ConnData.chunk (connData : ConnData) : List Byte := connData.data.take connData.dataSize

-- The events carry the bytes, each from the position where the one before it ended.
structure Streams (offsetPos : UInt64) (bytes : List Byte) (events : List ConnData) : Prop where
  bytes_eq : events.flatMap ConnData.chunk = bytes
  contiguous : ∀ before event after, events = before ++ event :: after →
    event.offsetPos = offsetPos + UInt64.ofNat (before.flatMap ConnData.chunk).length

theorem Streams.nil (offsetPos : UInt64) : Streams offsetPos [] [] :=
  ⟨rfl, fun before event after heq => by simp at heq⟩

theorem Streams.cons {offsetPos : UInt64} {bytes : List Byte} {events : List ConnData}
    {event : ConnData} (hevent : event.offsetPos = offsetPos)
    (h : Streams (offsetPos + UInt64.ofNat event.chunk.length) bytes events) :
    Streams offsetPos (event.chunk ++ bytes) (event :: events) := by
  constructor
  · rw [List.flatMap_cons, h.bytes_eq]
  · intro before other after heq
    cases before with
    | nil =>
        cases heq
        simpa using hevent
    | cons head before =>
        obtain ⟨rfl, hrest⟩ := List.cons_eq_cons.mp heq
        rw [h.contiguous before other after hrest, List.flatMap_cons, List.length_append,
          UInt64.ofNat_add, UInt64.add_assoc]

theorem toInt_of_lt {n : ℕ} (h : n < 2 ^ 31) : toInt n = n := by
  rw [toInt]
  omega

theorem toSize_natCast {n : ℕ} (h : n < 2 ^ 64) : toSize (n : ℤ) = n := by
  rw [toSize]
  omega

-- One chunk of the buffer, full or the last.
theorem submitPerfBuf_of_le (buf : List Byte) {count : ℕ} (connData : ConnData) (hpos : 0 < count)
    (hmax : count ≤ connDataMaxSize) (hbuf : count ≤ buf.length) :
    ∃ event, submitPerfBuf buf count connData = ([event], event) ∧
      event.chunk = buf.take count ∧ event.offsetPos = connData.offsetPos := by
  have hcopied : (if connDataMaxSize < count then connDataMaxSize else count) = count :=
    if_neg (by omega)
  rw [submitPerfBuf, if_neg (by omega)]
  simp only [hcopied]
  refine ⟨_, rfl, ?_, rfl⟩
  have hlen : (buf.take count).length = count := by
    rw [List.length_take]
    omega
  rw [ConnData.chunk]
  dsimp only
  rw [List.take_append_of_le_length (by omega), List.take_of_length_le (by omega)]

-- The size of the next chunk: what remains, up to a full one.
theorem exists_bytesTruncated {bytesCount sent left : ℕ} (hsent : sent < bytesCount)
    (hleft : bytesCount - sent ≤ (left + 1) * connDataMaxSize) :
    ∃ size : ℕ, (if (connDataMaxSize : ℤ) < bytesCount - sent ∧ left ≠ 0 then (connDataMaxSize : ℤ)
        else bytesCount - sent) = size ∧
      0 < size ∧ size ≤ connDataMaxSize ∧ sent + size ≤ bytesCount ∧
      bytesCount - (sent + size) ≤ left * connDataMaxSize := by
  rw [Nat.add_mul, Nat.one_mul] at hleft
  have hmax : 0 < connDataMaxSize := by decide
  by_cases hfull : (connDataMaxSize : ℤ) < bytesCount - sent ∧ left ≠ 0
  · rw [if_pos hfull]
    exact ⟨connDataMaxSize, rfl, hmax, Nat.le_refl _, by omega, by omega⟩
  · rw [if_neg hfull]
    have hrest : bytesCount - sent ≤ connDataMaxSize := by
      by_cases hzero : left = 0
      · subst hzero
        omega
      · have := mt (fun hlt => ⟨hlt, hzero⟩) hfull
        omega
    exact ⟨bytesCount - sent, by omega, by omega, hrest, by omega, by omega⟩

-- The loop over the buffer sends what is left of the bytes, when its iterations are enough.
theorem submitBuf_streams (buf : List Byte) (bytesCount : ℕ) (hcount : bytesCount < 2 ^ 31)
    (hbuf : bytesCount ≤ buf.length) (left sent : ℕ) (hsent : sent ≤ bytesCount)
    (hleft : bytesCount - sent ≤ left * connDataMaxSize) (connData : ConnData) :
    Streams connData.offsetPos ((buf.take bytesCount).drop sent)
      (submitBuf buf bytesCount left sent connData) := by
  induction left generalizing sent connData with
  | zero =>
      have hall : (buf.take bytesCount).drop sent = [] :=
        List.drop_eq_nil_of_le (by rw [List.length_take]; omega)
      rw [hall]
      exact Streams.nil _
  | succ left ih =>
      rw [submitBuf, toInt_of_lt hcount]
      dsimp only
      rcases Nat.eq_or_lt_of_le hsent with rfl | hlt
      · have hall : (buf.take sent).drop sent = [] :=
          List.drop_eq_nil_of_le (by rw [List.length_take]; omega)
        rw [if_pos (by split_ifs <;> omega), hall]
        exact Streams.nil _
      · obtain ⟨size, hsize, hpos, hmax, hle, hrest⟩ := exists_bytesTruncated hlt hleft
        obtain ⟨event, hevent, hchunk, hoffset⟩ := submitPerfBuf_of_le (buf.drop sent)
          connData hpos hmax (by rw [List.length_drop]; omega)
        have hbytes : (buf.take bytesCount).drop sent =
            event.chunk ++ (buf.take bytesCount).drop (sent + size) := by
          have hsplit := List.take_append_drop size ((buf.drop sent).take (bytesCount - sent))
          rw [List.take_take, Nat.min_eq_left (by omega)] at hsplit
          rw [hchunk, ← List.drop_drop, List.drop_take]
          exact hsplit.symm
        have hlen : event.chunk.length = size := by
          rw [hchunk, List.length_take, List.length_drop]
          omega
        rw [hsize, if_neg (by omega), toSize_natCast (by omega), Int.toNat_natCast, hevent, hbytes]
        refine Streams.cons hoffset ?_
        have hnext := ih (sent + size) hle hrest
          { event with offsetPos := event.offsetPos + UInt64.ofNat size }
        rw [hlen, ← hoffset]
        exact hnext

theorem submitIov_of_nonpos (bytesCount : ℕ) {bytesTruncated : ℤ} (h : bytesTruncated ≤ 0)
    (left : ℕ) (iov : List Iovec) (sent : ℤ) (connData : ConnData) :
    submitIov bytesCount bytesTruncated left iov sent connData = [] := by
  cases left with
  | zero => rw [submitIov]
  | succ left =>
      cases iov with
      | nil => rw [submitIov]; simp
      | cons iovCpy iov =>
          rw [submitIov]
          simp [h]

-- Up to four full chunks, the events carry exactly the bytes that were moved if these
-- lie in a flat buffer. From iovecs, nothing is ever sent.
theorem submitConnData_streams_iff (args : SockDataArgs) (connData : ConnData) (bytesCount : ℕ)
    (hcount : bytesCount ≤ loopLimit * connDataMaxSize) (hbytes : bytesCount ≤ args.bytes.length) :
    Streams connData.offsetPos (args.bytes.take bytesCount)
        (submitConnData args connData bytesCount) ↔
      args.buf.isSome ∨ bytesCount = 0 := by
  have hint : bytesCount < 2 ^ 31 := Nat.lt_of_le_of_lt hcount (by decide)
  obtain ⟨buf, iov⟩ := args
  cases buf with
  | some buf =>
      refine iff_of_true ?_ (.inl rfl)
      exact submitBuf_streams buf bytesCount hint hbytes loopLimit 0 (Nat.zero_le _) hcount connData
  | none =>
      have hnone : submitConnData ⟨none, iov⟩ connData bytesCount = [] := by
        cases iov with
        | none => rfl
        | some iov => exact submitIov_of_nonpos bytesCount (Int.le_refl 0) _ iov 0 connData
      rw [hnone]
      constructor
      · intro h
        have hlen := congrArg List.length h.bytes_eq
        rw [List.flatMap_nil, List.length_nil, List.length_take] at hlen
        omega
      · rintro (hbuf | rfl)
        · exact absurd hbuf (by simp)
        · exact Streams.nil _

theorem submitConnData_streams_iff_witness :
    Streams 7 ([1, 2, 3].take 2) (submitConnData ⟨some [1, 2, 3], none⟩ ⟨7, 0, []⟩ 2) ↔
      (some [1, 2, 3] : Option (List Byte)).isSome ∨ 2 = 0 :=
  submitConnData_streams_iff ⟨some [1, 2, 3], none⟩ ⟨7, 0, []⟩ 2 (by decide) (by decide)

-- One iovec of one byte, as `sendmsg` hands it over.
theorem submitConnData_iov_lost :
    ¬ ∀ (args : SockDataArgs) (connData : ConnData) (bytesCount : ℕ),
      bytesCount ≤ loopLimit * connDataMaxSize → bytesCount ≤ args.bytes.length →
      Streams connData.offsetPos (args.bytes.take bytesCount)
        (submitConnData args connData bytesCount) := by
  intro h
  have hone := h ⟨none, some [⟨[1]⟩]⟩ ⟨0, 0, []⟩ 1 (by decide) (by decide)
  exact absurd hone.bytes_eq (by decide)

end Gopher.L7.KernSock
