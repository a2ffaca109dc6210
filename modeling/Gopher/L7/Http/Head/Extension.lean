import Gopher.L7.Http.Head.Builds

namespace Gopher.L7.Http

open Gopher.Lib

variable {σ : Type} {stop legal : UInt8 → Bool}

section Bytes

theorem incremental_lineEnd : (Scan.bytes lineEnd : Scan σ Bool).Incremental := by
  refine .bytes fun buf more h => ?_
  obtain ⟨pos, rest⟩ := buf
  match rest with
  | [] => exact absurd rfl h
  | [byte] =>
      unfold lineEnd at h ⊢
      simp only [BufPtr.extend, List.cons_append] at h ⊢
      split_ifs at h ⊢
      · exact absurd rfl h
      · rfl
      · rfl
  | byte :: next :: rest =>
      unfold lineEnd
      simp only [BufPtr.extend, List.cons_append]
      split_ifs <;> rfl

theorem incremental_scanSlice :
    (Scan.bytes (scanSlice stop legal 0) : Scan σ Slice).Incremental := by
  refine .bytes fun buf more h => ?_
  unfold scanSlice at h ⊢
  rw [Nat.add_zero, List.drop_zero] at h ⊢
  have hne : scanUntil stop legal buf.pos buf.rest ≠ .error .incomplete := by
    intro heq
    rw [heq] at h
    exact h rfl
  have hextend := scanUntil_extend more hne
  simp only [BufPtr.extend, List.drop_zero, hextend]
  cases scanUntil stop legal buf.pos buf.rest with
  | error stop => rfl
  | ok found => rfl

theorem incremental_skipBehind (skipped : UInt8 → Bool) :
    (Scan.bytes (skipBehind skipped) : Scan σ Unit).Incremental := by
  refine .bytes fun buf more h => ?_
  obtain ⟨pos, rest⟩ := buf
  cases rest with
  | nil => exact absurd rfl h
  | cons byte rest =>
      unfold skipBehind at h ⊢
      dsimp only [BufPtr.extend, List.cons_append] at h ⊢
      have hne : scanUntil (fun byte => !skipped byte) (fun _ => true) (pos + 1) rest ≠
          .error .incomplete := by
        intro heq
        rw [heq] at h
        exact h rfl
      rw [scanUntil_extend more hne]
      cases scanUntil (fun byte => !skipped byte) (fun _ => true) (pos + 1) rest with
      | error stop => rfl
      | ok found => rfl

theorem incremental_currentByte : (Scan.bytes currentByte : Scan σ UInt8).Incremental := by
  refine .bytes fun buf more h => ?_
  obtain ⟨pos, rest⟩ := buf
  cases rest with
  | nil => exact absurd rfl h
  | cons byte rest => rfl

theorem incremental_parseHttpVersion :
    (Scan.bytes parseHttpVersion : Scan σ ℤ).Incremental := by
  refine .bytes fun buf more h => ?_
  obtain ⟨pos, rest⟩ := buf
  match rest with
  | byte0 :: byte1 :: byte2 :: byte3 :: byte4 :: byte5 :: byte6 :: minor :: next :: rest =>
      unfold parseHttpVersion
      dsimp only [BufPtr.extend, List.cons_append]
      split_ifs <;> rfl
  | [] => exact absurd rfl h
  | [_] => exact absurd rfl h
  | [_, _] => exact absurd rfl h
  | [_, _, _] => exact absurd rfl h
  | [_, _, _, _] => exact absurd rfl h
  | [_, _, _, _, _] => exact absurd rfl h
  | [_, _, _, _, _, _] => exact absurd rfl h
  | [_, _, _, _, _, _, _] => exact absurd rfl h
  | [_, _, _, _, _, _, _, _] => exact absurd rfl h

theorem incremental_parseStatus : parseStatus.Incremental := by
  intro resp buf more h
  obtain ⟨pos, rest⟩ := buf
  match rest with
  | hundreds :: tens :: ones :: next :: rest =>
      unfold parseStatus
      dsimp only [BufPtr.extend, List.cons_append]
      split_ifs <;> rfl
  | [] => exact absurd rfl h
  | [_] => exact absurd rfl h
  | [_, _] => exact absurd rfl h
  | [_, _, _] => exact absurd rfl h

end Bytes

section Tokens

theorem incremental_parseToken (sse42 : Bool) {nextChar : UInt8}
    (hnext : nextChar = SP ∨ nextChar = COLON) :
    (Scan.bytes (parseToken sse42 nextChar) : Scan σ Slice).Incremental := by
  rw [funext (parseToken_eq sse42 hnext)]
  exact incremental_scanSlice

theorem incremental_advanceToken (sse42 : Bool) :
    (Scan.bytes (advanceToken sse42) : Scan σ Slice).Incremental := by
  rw [funext (advanceToken_eq sse42)]
  exact incremental_scanSlice

-- The value of a line and its end as two scans.
theorem bytes_getTokenToEol (sse42 : Bool) :
    (Scan.bytes (getTokenToEol sse42) : Scan σ Slice) =
      Scan.bytes (scanSlice isCtl (fun _ => true) 0) >>= fun found =>
        Scan.bytes lineEnd >>= fun ended => if ended then pure found else .fail .malformed := by
  funext state buf
  change (state, getTokenToEol sse42 buf) = Scan.bind _ _ state buf
  rw [getTokenToEol_eq]
  unfold scanToEol Scan.bind Scan.bytes
  cases scanSlice isCtl (fun _ => true) 0 buf with
  | error stop => rfl
  | ok found =>
      unfold foundCtl
      change _ = Scan.bind _ _ state found.2
      unfold Scan.bind
      dsimp only
      cases lineEnd found.2 with
      | error stop => rfl
      | ok line =>
          obtain ⟨ended, buf⟩ := line
          cases ended with
          | true => rfl
          | false => rfl

theorem incremental_getTokenToEol (sse42 : Bool) :
    (Scan.bytes (getTokenToEol sse42) : Scan σ Slice).Incremental := by
  rw [bytes_getTokenToEol]
  refine .bind incremental_scanSlice fun found => .bind incremental_lineEnd fun ended => ?_
  exact .ite (.pure found) (.fail _)

end Tokens

section Lines

theorem incremental_parseNameUnless (continued sse42 : Bool) :
    (parseNameUnless continued sse42 : Scan σ _).Incremental := by
  unfold parseNameUnless parseName
  refine .ite (.pure none) (.bind ?_ fun name => .pure (some name))
  refine .bind (incremental_parseToken sse42 (.inr rfl)) fun name => .ite (.fail _) ?_
  exact .bind (incremental_skipBehind isBlank) fun _ => .pure name

theorem incremental_parseHeaders (sse42 : Bool) (room : ℕ) :
    (parseHeaders sse42 room).Incremental := by
  induction room with
  | zero =>
      unfold parseHeaders
      exact .bind incremental_lineEnd fun ended => .ite (.pure ()) (.fail _)
  | succ room ih =>
      unfold parseHeaders
      refine .bind incremental_lineEnd fun ended => .ite (.pure ()) (.bind .get fun headers => ?_)
      refine .bind incremental_currentByte fun byte => ?_
      refine .bind (incremental_parseNameUnless _ sse42) fun name => ?_
      refine .bind (incremental_getTokenToEol sse42) fun value => .bind (.modify _) fun _ => ?_
      exact ih

theorem incremental_parseRequestLine (sse42 : Bool) : (parseRequestLine sse42).Incremental := by
  unfold parseRequestLine
  refine .bind incremental_lineEnd fun _ => ?_
  refine .bind (incremental_parseToken sse42 (.inl rfl)) fun method => .bind (.modify _) fun _ => ?_
  refine .bind (incremental_skipBehind _) fun _ => ?_
  refine .bind (incremental_advanceToken sse42) fun path => .bind (.modify _) fun _ => ?_
  refine .bind (incremental_skipBehind _) fun _ => .ite (.fail _) ?_
  refine .bind incremental_parseHttpVersion fun minorVersion => .bind (.modify _) fun _ => ?_
  refine .bind incremental_lineEnd fun ended => .ite (.bind .get fun req => ?_) (.fail _)
  exact .focus (incremental_parseHeaders sse42 _)

theorem incremental_parseResponseLine (sse42 : Bool) : (parseResponseLine sse42).Incremental := by
  unfold parseResponseLine
  refine .bind incremental_parseHttpVersion fun minorVersion => .bind (.modify _) fun _ => ?_
  refine .bind incremental_currentByte fun byte => .ite (.fail _) ?_
  refine .bind (incremental_skipBehind _) fun _ => .bind incremental_parseStatus fun _ => ?_
  refine .bind (incremental_getTokenToEol sse42) fun msg => .bind (.modify _) fun _ => ?_
  refine .ite (.fail _) (.bind (.modify _) fun _ => .bind .get fun resp => ?_)
  exact .focus (incremental_parseHeaders sse42 _)

end Lines

section EntryPoints

-- A chunk to which more bytes come.
def extendRaw (raw : RawData) (more : List UInt8) : RawData where
  flags := raw.flags
  timestampNs := raw.timestampNs
  data := raw.data ++ more
  currentPos := raw.currentPos
  currentPos_le := by
    have hle := raw.currentPos_le
    rw [List.length_append]
    omega

def NEEDS_MORE_DATA : UInt64 := UInt64.ofInt (-2)

theorem unread_extendRaw (raw : RawData) (more : List UInt8) :
    (extendRaw raw more).unread = raw.unread ++ more :=
  List.drop_append_of_le_length raw.currentPos_le

theorem parseResult_extend (start : ℕ) (more : List UInt8)
    (result : Except Stop (Unit × BufPtr)) :
    parseResult start (result.map (Prod.map id (BufPtr.extend more))) =
      parseResult start result := by
  cases result with
  | error stop => rfl
  | ok found => rfl

-- What an entry point makes of its scan.
theorem parseResult_scan {scan : Scan σ Unit} (hscan : scan.Incremental) {raw : RawData}
    {more : List UInt8} {state : σ}
    (h : parseResult raw.currentPos (scan state ⟨raw.currentPos, raw.unread⟩).2 ≠
      NEEDS_MORE_DATA) :
    (scan state ⟨raw.currentPos, (extendRaw raw more).unread⟩).1 =
        (scan state ⟨raw.currentPos, raw.unread⟩).1 ∧
      parseResult raw.currentPos (scan state ⟨raw.currentPos, (extendRaw raw more).unread⟩).2 =
        parseResult raw.currentPos (scan state ⟨raw.currentPos, raw.unread⟩).2 := by
  have hne : (scan state ⟨raw.currentPos, raw.unread⟩).2 ≠ .error .incomplete := by
    intro heq
    rw [heq] at h
    exact h rfl
  have hextend := hscan state _ more hne
  rw [unread_extendRaw]
  unfold BufPtr.extend at hextend
  rw [hextend]
  exact ⟨rfl, parseResult_extend _ more _⟩

-- Only an incomplete head changes when more bytes come.
theorem httpParseHeaders_extend (sse42 : Bool) (raw : RawData) (more : List UInt8) :
    (∀ req, (httpParseRequestHeaders sse42 raw req).2 ≠ NEEDS_MORE_DATA →
      httpParseRequestHeaders sse42 (extendRaw raw more) req =
        httpParseRequestHeaders sse42 raw req) ∧
    (∀ resp, (httpParseResponseHeaders sse42 raw resp).2 ≠ NEEDS_MORE_DATA →
      httpParseResponseHeaders sse42 (extendRaw raw more) resp =
        httpParseResponseHeaders sse42 raw resp) := by
  constructor
  · intro req h
    obtain ⟨hreq, hret⟩ := parseResult_scan (incremental_parseRequestLine sse42) h
    exact Prod.ext hreq hret
  · intro resp h
    obtain ⟨hresp, hret⟩ := parseResult_scan (incremental_parseResponseLine sse42) h
    exact Prod.ext hresp hret

end EntryPoints

-- GET / HTTP/1.1 and the blank line behind it.
def getRequest : List UInt8 :=
  [0x47, 0x45, 0x54, 0x20, 0x2f, 0x20, 0x48, 0x54, 0x54, 0x50, 0x2f, 0x31, 0x2e, 0x31, 0x0d, 0x0a,
    0x0d, 0x0a]

theorem httpParseHeaders_extend_getRequest :
    httpParseRequestHeaders false (extendRaw (.create getRequest 0) [0x47, 0x45])
        initHttpRequest =
      httpParseRequestHeaders false (.create getRequest 0) initHttpRequest := by
  refine (httpParseHeaders_extend false (.create getRequest 0) [0x47, 0x45]).1 initHttpRequest ?_
  decide +kernel

end Gopher.L7.Http
