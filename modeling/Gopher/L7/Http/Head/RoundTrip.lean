import Gopher.L7.Http.Head.Extension

namespace Gopher.L7.Http

open Gopher.Lib

-- The characters of a token.
def isTchar (byte : UInt8) : Bool :=
  isDigit byte || (0x41 ≤ byte && byte ≤ 0x5a) || (0x61 ≤ byte && byte ≤ 0x7a) ||
    [0x21, 0x23, 0x24, 0x25, 0x26, 0x27, 0x2a, 0x2b, 0x2d, 0x2e, 0x5e, 0x5f, 0x60, 0x7c,
      0x7e].contains byte

-- The characters of a value: printable ones, blanks and bytes outside ASCII.
def isText (byte : UInt8) : Bool := (SP ≤ byte && byte != DEL) || byte == HT

def CRLF : List UInt8 := [CR, LF]

structure HeaderField where
  name : List UInt8
  value : List UInt8
  name_ne_nil : name ≠ []
  name_tchar : ∀ byte ∈ name, isTchar byte = true
  value_text : ∀ byte ∈ value, isText byte = true
  value_first : ∀ byte, value.head? = some byte → isBlank byte = false
  value_last : ∀ byte, value.getLast? = some byte → isBlank byte = false

def HeaderField.render (field : HeaderField) : List UInt8 :=
  field.name ++ [COLON, SP] ++ (field.value ++ CRLF)

def renderFields (fields : List HeaderField) : List UInt8 :=
  fields.flatMap HeaderField.render ++ CRLF

structure RequestHead where
  method : List UInt8
  path : List UInt8
  minor : UInt8
  fields : List HeaderField
  method_ne_nil : method ≠ []
  method_tchar : ∀ byte ∈ method, isTchar byte = true
  path_ne_nil : path ≠ []
  path_text : ∀ byte ∈ path, SP < byte ∧ byte ≠ DEL
  minor_digit : isDigit minor = true
  fields_le : fields.length ≤ K_MAX_NUM_HEADERS

def RequestHead.line (head : RequestHead) : List UInt8 :=
  head.method ++ ([SP] ++ (head.path ++ ([SP] ++ (HTTP_1 ++ [head.minor] ++ CRLF))))

def RequestHead.render (head : RequestHead) : List UInt8 :=
  head.line ++ renderFields head.fields

structure ResponseHead where
  minor : UInt8
  status : ℕ
  reason : List UInt8
  fields : List HeaderField
  minor_digit : isDigit minor = true
  status_lt : status < 1000
  reason_text : ∀ byte ∈ reason, isText byte = true
  reason_first : reason.head? ≠ some SP
  fields_le : fields.length ≤ K_MAX_NUM_HEADERS

def digitByte (digit : ℕ) : UInt8 := UInt8.ofNat (0x30 + digit)

def ResponseHead.statusDigits (head : ResponseHead) : List UInt8 :=
  [digitByte (head.status / 100), digitByte (head.status / 10 % 10), digitByte (head.status % 10)]

def ResponseHead.line (head : ResponseHead) : List UInt8 :=
  HTTP_1 ++ [head.minor] ++ ([SP] ++ (head.statusDigits ++ ([SP] ++ head.reason ++ CRLF)))

def ResponseHead.render (head : ResponseHead) : List UInt8 :=
  head.line ++ renderFields head.fields

-- What the parser has to find, for a head that begins at a position.
def placeFields : ℕ → List HeaderField → List HttpHeader
  | _, [] => []
  | pos, field :: fields =>
      ⟨some ⟨pos, field.name⟩, ⟨pos + field.name.length + 2, field.value⟩⟩ ::
        placeFields (pos + field.render.length) fields

def RequestHead.place (head : RequestHead) (pos : ℕ) : HttpRequest where
  method := some ⟨pos, head.method⟩
  path := some ⟨pos + head.method.length + 1, head.path⟩
  minorVersion := digitValue head.minor
  headers := placeFields (pos + head.line.length) head.fields

def ResponseHead.place (head : ResponseHead) (pos : ℕ) : HttpResponse where
  msg := some ⟨pos + 13, head.reason⟩
  status := head.status
  minorVersion := digitValue head.minor
  headers := placeFields (pos + head.line.length) head.fields

section Bytes

theorem isTokenChar_eq : ∀ byte, isTokenChar byte = isTchar byte :=
  forall_byte (by decide +kernel)

theorem isCtl_of_text : ∀ byte, isText byte = true → isCtl byte = false :=
  forall_byte (by decide +kernel)

theorem isPathChar_of_text : ∀ byte, SP < byte ∧ byte ≠ DEL →
    isPathChar byte = true ∧ byte ≠ SP :=
  forall_byte (by decide +kernel)

theorem tchar_plain : ∀ byte, isTchar byte = true →
    byte ≠ CR ∧ byte ≠ LF ∧ byte ≠ SP ∧ byte ≠ COLON ∧ isBlank byte = false :=
  forall_byte (by decide +kernel)

theorem digitByte_spec : ∀ digit < 10,
    isDigit (digitByte digit) = true ∧ digitValue (digitByte digit) = digit := by
  decide

end Bytes

section Primitives

variable {σ : Type} {state : σ} {pos : ℕ} {taken rest : List UInt8} {byte : UInt8}
  {stop legal skipped : UInt8 → Bool}

theorem reads_scanSlice (hstop : ∀ byte ∈ taken, stop byte = false)
    (hlegal : ∀ byte ∈ taken, legal byte = true) (hbyte : stop byte = true) :
    (Scan.bytes (scanSlice stop legal 0)).Reads state pos taken (byte :: rest) ⟨pos, taken⟩
      state := by
  unfold Scan.Reads Scan.bytes scanSlice
  rw [Nat.add_zero, List.drop_zero, scanUntil_append hstop hlegal, scanUntil_stop hbyte]
  simp [Except.map]

theorem reads_lineEnd : (Scan.bytes lineEnd).Reads state pos CRLF rest true state := rfl

theorem reads_lineEnd_of_ne (hrest : rest.head? = some byte) (hcr : byte ≠ CR)
    (hlf : byte ≠ LF) : (Scan.bytes lineEnd).Reads state pos [] rest false state := by
  obtain ⟨after, rfl⟩ := List.head?_eq_some_iff.mp hrest
  unfold Scan.Reads Scan.bytes lineEnd
  dsimp only [List.nil_append]
  rw [if_neg hcr, if_neg hlf]
  rfl

theorem reads_currentByte (hrest : rest.head? = some byte) :
    (Scan.bytes currentByte).Reads state pos [] rest byte state := by
  obtain ⟨after, rfl⟩ := List.head?_eq_some_iff.mp hrest
  rfl

theorem reads_skipBehind {first : UInt8} (htaken : ∀ byte ∈ taken, skipped byte = true)
    (hrest : rest.head? = some byte) (hbyte : skipped byte = false) :
    (Scan.bytes (skipBehind skipped)).Reads state pos (first :: taken) rest () state := by
  obtain ⟨after, rfl⟩ := List.head?_eq_some_iff.mp hrest
  have hstop : ∀ byte ∈ taken, (!skipped byte) = false := by simpa using htaken
  have hbyte' : (!skipped byte) = true := by simpa using hbyte
  unfold Scan.Reads Scan.bytes skipBehind
  dsimp only [List.cons_append]
  rw [scanUntil_append hstop fun _ _ => rfl, scanUntil_stop hbyte']
  simp [Except.map, Nat.add_comm, Nat.add_left_comm]

theorem reads_parseHttpVersion {minor : UInt8} (hminor : isDigit minor = true) :
    (Scan.bytes parseHttpVersion).Reads state pos (HTTP_1 ++ [minor]) (byte :: rest)
      (digitValue minor) state := by
  change (state, if HTTP_1 = HTTP_1 ∧ isDigit minor = true then _ else _) = _
  rw [if_pos ⟨rfl, hminor⟩]
  rfl

theorem reads_parseStatus {resp : HttpResponse} {status : ℕ} (hstatus : status < 1000) :
    parseStatus.Reads resp pos
      [digitByte (status / 100), digitByte (status / 10 % 10), digitByte (status % 10)]
      (byte :: rest) () { resp with status := status } := by
  obtain ⟨hhundreds, hhundreds'⟩ := digitByte_spec (status / 100) (by omega)
  obtain ⟨htens, htens'⟩ := digitByte_spec (status / 10 % 10) (by omega)
  obtain ⟨hones, hones'⟩ := digitByte_spec (status % 10) (by omega)
  unfold Scan.Reads parseStatus
  dsimp only [List.cons_append, List.nil_append]
  rw [if_pos hhundreds, if_pos htens, if_pos hones, hhundreds', htens', hones']
  have hsum : 100 * ((status / 100 : ℕ) : ℤ) + 10 * ((status / 10 % 10 : ℕ) : ℤ) +
      1 * ((status % 10 : ℕ) : ℤ) = status := by omega
  rw [hsum]
  rfl

end Primitives

section Tokens

variable {σ : Type} {state : σ} {pos : ℕ} {name value rest : List UInt8} {sse42 : Bool}

theorem reads_parseToken {nextChar : UInt8} (hnext : nextChar = SP ∨ nextChar = COLON)
    (hname : ∀ byte ∈ name, isTchar byte = true) :
    (Scan.bytes (parseToken sse42 nextChar)).Reads state pos name (nextChar :: rest) ⟨pos, name⟩
      state := by
  rw [funext (parseToken_eq sse42 hnext)]
  refine reads_scanSlice (fun byte hbyte => ?_) (fun byte hbyte => ?_) (by simp)
  · obtain ⟨-, -, hsp, hcolon, -⟩ := tchar_plain byte (hname byte hbyte)
    rcases hnext with rfl | rfl
    · simpa using hsp
    · simpa using hcolon
  · rw [isTokenChar_eq]
    exact hname byte hbyte

theorem reads_advanceToken (hpath : ∀ byte ∈ name, SP < byte ∧ byte ≠ DEL) :
    (Scan.bytes (advanceToken sse42)).Reads state pos name (SP :: rest) ⟨pos, name⟩ state := by
  rw [funext (advanceToken_eq sse42)]
  refine reads_scanSlice (fun byte hbyte => ?_) (fun byte hbyte => ?_) (by simp)
  · simpa using (isPathChar_of_text byte (hpath byte hbyte)).2
  · exact (isPathChar_of_text byte (hpath byte hbyte)).1

theorem reads_getTokenToEol (hvalue : ∀ byte ∈ value, isText byte = true) :
    (Scan.bytes (getTokenToEol sse42)).Reads state pos (value ++ CRLF) rest ⟨pos, value⟩
      state := by
  rw [bytes_getTokenToEol]
  have hscan : (Scan.bytes (scanSlice isCtl (fun _ => true) 0)).Reads state pos value
      (CRLF ++ rest) ⟨pos, value⟩ state :=
    reads_scanSlice (fun byte hbyte => isCtl_of_text byte (hvalue byte hbyte)) (fun _ _ => rfl)
      (by decide)
  refine .bind hscan ?_
  rw [← List.append_nil CRLF]
  exact .bind reads_lineEnd (.pure _)

theorem reads_parseName {byte : UInt8} (hname : ∀ byte ∈ name, isTchar byte = true)
    (hne : name ≠ []) (hrest : rest.head? = some byte) (hbyte : isBlank byte = false) :
    (parseNameUnless false sse42).Reads state pos (name ++ [COLON, SP]) rest
      (some ⟨pos, name⟩) state := by
  unfold parseNameUnless parseName
  rw [if_neg Bool.false_ne_true]
  have hlen : name.length ≠ 0 := by simpa using hne
  have hskip : (Scan.bytes (skipBehind isBlank)).Reads state (pos + name.length) [COLON, SP]
      rest () state := reads_skipBehind (List.all_eq_true.mp rfl) hrest hbyte
  rw [← List.append_nil (name ++ [COLON, SP])]
  refine .bind (.bind (reads_parseToken (.inr rfl) hname) ?_) (.pure _)
  rw [if_neg hlen, ← List.append_nil [COLON, SP]]
  exact .bind hskip (.pure _)

end Tokens

section Headers

theorem trimEnd_eq {value : Slice} (h : ∀ byte, value.bytes.getLast? = some byte →
    isBlank byte = false) : trimEnd value = value := by
  obtain ⟨start, bytes⟩ := value
  unfold trimEnd
  rcases List.eq_nil_or_concat bytes with rfl | ⟨front, last, rfl⟩
  · rfl
  · have hlast := h last (by simp)
    simp [hlast]

-- The first byte of a value or of the end of its line.
theorem HeaderField.exists_first (field : HeaderField) (rest : List UInt8) :
    ∃ byte, (field.value ++ CRLF ++ rest).head? = some byte ∧ isBlank byte = false := by
  cases hvalue : field.value with
  | nil => exact ⟨CR, rfl, by decide⟩
  | cons byte value => exact ⟨byte, rfl, field.value_first byte (by rw [hvalue]; rfl)⟩

-- A header, as the parser appends it, stands where it has to be found.
theorem append_placeFields (headers : List HttpHeader) (pos : ℕ) (field : HeaderField)
    (fields : List HeaderField) :
    headers ++ placeFields pos (field :: fields) = headers ++
      [⟨some ⟨pos, field.name⟩, trimEnd ⟨pos + (field.name ++ [COLON, SP]).length,
        field.value⟩⟩] ++ placeFields (pos + (field.name ++ [COLON, SP]).length +
          (field.value ++ CRLF).length) fields := by
  have hlen : pos + field.render.length = pos + (field.name ++ [COLON, SP]).length +
      (field.value ++ CRLF).length := by
    unfold HeaderField.render
    rw [List.length_append, Nat.add_assoc]
  have hstart : (field.name ++ [COLON, SP]).length = field.name.length + 2 := by simp
  rw [trimEnd_eq field.value_last, placeFields, List.append_assoc, hlen, hstart,
    Nat.add_assoc pos _ 2]
  rfl

theorem reads_parseHeaders (sse42 : Bool) (fields : List HeaderField) (room : ℕ)
    (hroom : fields.length ≤ room) (headers : List HttpHeader) (pos : ℕ) (rest : List UInt8) :
    (parseHeaders sse42 room).Reads headers pos (renderFields fields) rest ()
      (headers ++ placeFields pos fields) := by
  induction fields generalizing room headers pos with
  | nil =>
      have htext : renderFields [] = CRLF ++ [] := rfl
      have hplace : headers ++ placeFields pos [] = headers := List.append_nil headers
      rw [htext, hplace]
      unfold parseHeaders
      exact .bind reads_lineEnd (.pure ())
  | cons field fields ih =>
      obtain ⟨left, rfl⟩ : ∃ left, room = left + 1 := ⟨room - 1, by simp at hroom; omega⟩
      obtain ⟨first, name, hname⟩ := List.exists_cons_of_ne_nil field.name_ne_nil
      obtain ⟨hcr, hlf, -, -, hblank⟩ :=
        tchar_plain first (field.name_tchar first (by simp [hname]))
      obtain ⟨byte, hbyte, hbyte'⟩ := field.exists_first (renderFields fields ++ rest)
      have htext : renderFields (field :: fields) = [] ++ ([] ++ ([] ++ ((field.name ++
          [COLON, SP]) ++ ((field.value ++ CRLF) ++ ([] ++ renderFields fields))))) := by
        simp [renderFields, HeaderField.render]
      have hfirst : (renderFields (field :: fields) ++ rest).head? = some first := by
        simp [htext, hname]
      have hnext : (field.value ++ CRLF ++ ([] ++ renderFields fields) ++ rest).head? =
          some byte := by
        rw [← hbyte, List.nil_append, List.append_assoc]
      have hrest := ih left (by simpa using hroom)
        (headers ++ [⟨some ⟨pos, field.name⟩, trimEnd ⟨pos + (field.name ++ [COLON, SP]).length,
          field.value⟩⟩]) (pos + (field.name ++ [COLON, SP]).length + (field.value ++ CRLF).length)
      rw [htext] at hfirst ⊢
      unfold parseHeaders
      refine .bind (reads_lineEnd_of_ne hfirst hcr hlf) ?_
      rw [if_neg Bool.false_ne_true]
      refine .bind .get (.bind (reads_currentByte hfirst) ?_)
      rw [hblank, Bool.and_false]
      refine .bind (reads_parseName field.name_tchar field.name_ne_nil hnext hbyte') ?_
      refine .bind (reads_getTokenToEol field.value_text) (.bind (.modify _) ?_)
      rw [append_placeFields]
      exact hrest

end Headers

section Lines

theorem reads_parseRequestLine (sse42 : Bool) (head : RequestHead) (pos : ℕ)
    (rest : List UInt8) :
    (parseRequestLine sse42).Reads initHttpRequest pos head.render rest () (head.place pos) := by
  obtain ⟨first, method, hmethod⟩ := List.exists_cons_of_ne_nil head.method_ne_nil
  obtain ⟨hcr, hlf, -, -, -⟩ := tchar_plain first (head.method_tchar first (by simp [hmethod]))
  obtain ⟨start, path, hpath⟩ := List.exists_cons_of_ne_nil head.path_ne_nil
  have hstart := (isPathChar_of_text start (head.path_text start (by simp [hpath]))).2
  have hlengths : ¬(head.method.length = 0 ∨ head.path.length = 0) := by simp [hmethod, hpath]
  have htext : head.render = [] ++ (head.method ++ ([] ++ ([SP] ++ (head.path ++ ([] ++ ([SP] ++
      ((HTTP_1 ++ [head.minor]) ++ ([] ++ (CRLF ++ ([] ++ renderFields head.fields)))))))))) := by
    simp [RequestHead.render, RequestHead.line]
  rw [htext]
  unfold parseRequestLine
  refine .bind (reads_lineEnd_of_ne (by simp [hmethod]) hcr hlf) ?_
  refine .bind (reads_parseToken (.inl rfl) head.method_tchar) (.bind (.modify _) ?_)
  refine .bind (@reads_skipBehind _ _ _ [] _ start _ _ (by simp) (by simp [hpath])
    (by simpa using hstart)) ?_
  refine .bind (reads_advanceToken head.path_text) (.bind (.modify _) ?_)
  refine .bind (@reads_skipBehind _ _ _ [] _ 0x48 _ _ (by simp) rfl rfl) ?_
  rw [if_neg hlengths]
  refine .bind (reads_parseHttpVersion head.minor_digit) (.bind (.modify _) ?_)
  refine .bind reads_lineEnd (.bind .get ?_)
  refine .of_eq (.focus (reads_parseHeaders sse42 head.fields _ head.fields_le []
    (pos + head.line.length) rest)) ?_ rfl
  simp [RequestHead.line, CRLF, HTTP_1]
  omega

theorem stripMsg_reason (start : ℕ) (resp : HttpResponse) {reason : List UInt8}
    (h : reason.head? ≠ some SP) :
    stripMsg ⟨start, SP :: reason⟩ resp = { resp with msg := some ⟨start + 1, reason⟩ } := by
  have htake : (SP :: reason).takeWhile (fun byte => byte == SP) = [SP] := by
    cases reason with
    | nil => rfl
    | cons byte reason =>
        have hbyte : byte ≠ SP := by simpa using h
        simp [hbyte]
  have hlen : ¬(⟨start, SP :: reason⟩ : Slice).bytes.length = 0 := Nat.succ_ne_zero _
  unfold stripMsg stripSpaces
  rw [if_neg hlen]
  dsimp only
  rw [htake]
  rfl

theorem reads_parseResponseLine (sse42 : Bool) (head : ResponseHead) (pos : ℕ)
    (rest : List UInt8) :
    (parseResponseLine sse42).Reads initHttpResponse pos head.render rest () (head.place pos) := by
  have htext : head.render = (HTTP_1 ++ [head.minor]) ++ ([] ++ ([] ++ ([SP] ++
      (head.statusDigits ++ (((SP :: head.reason) ++ CRLF) ++ ([] ++ ([] ++ ([] ++
        renderFields head.fields)))))))) := by
    simp [ResponseHead.render, ResponseHead.line]
  have hdigit : ((head.statusDigits ++ (((SP :: head.reason) ++ CRLF) ++ ([] ++ ([] ++ ([] ++
      renderFields head.fields))))) ++ rest).head? = some (digitByte (head.status / 100)) := rfl
  have hne : digitByte (head.status / 100) ≠ SP := by
    have hdigits : ∀ digit < 10, digitByte digit ≠ SP := by decide
    exact hdigits _ (by have hlt := head.status_lt; omega)
  have hreason : ∀ byte ∈ SP :: head.reason, isText byte = true :=
    List.forall_mem_cons.mpr ⟨rfl, head.reason_text⟩
  rw [htext]
  unfold parseResponseLine
  refine .bind (reads_parseHttpVersion head.minor_digit) (.bind (.modify _) ?_)
  refine .bind (@reads_currentByte _ _ _ _ SP rfl) ?_
  rw [if_neg (not_not_intro rfl)]
  refine .bind (@reads_skipBehind _ _ _ [] _ _ _ _ (by simp) hdigit (by simpa using hne)) ?_
  refine .bind (reads_parseStatus head.status_lt) ?_
  refine .bind (reads_getTokenToEol hreason) (.bind (.modify _) ?_)
  rw [if_neg (fun h => h.2 rfl)]
  refine .bind (.modify _) (.bind .get ?_)
  refine .of_eq (.focus (reads_parseHeaders sse42 head.fields _ head.fields_le []
    (pos + head.line.length) rest)) ?_ ?_
  · simp [ResponseHead.line, ResponseHead.statusDigits, CRLF, HTTP_1]
    omega
  · rw [stripMsg_reason _ _ head.reason_first]
    rfl

end Lines

section EntryPoints

-- Lengths that come through the `int` as they are. The second range is that of `size_t`
-- values that stand for negative ones.
def FitsInt (length : ℕ) : Prop :=
  length < 2 ^ 31 ∨ (2 ^ 64 - 2 ^ 31 ≤ length ∧ length < 2 ^ 64)

theorem toNat_parseResult (start length : ℕ) (rest : List UInt8) :
    (parseResult start (.ok ((), ⟨start + length, rest⟩))).toNat = length ↔ FitsInt length := by
  have hlen : start + length - start = length := by omega
  unfold parseResult FitsInt UInt64.ofInt
  dsimp only
  rw [hlen, UInt64.toNat_ofNat', Int.bmod_def]
  omega

-- The parser finds exactly the parts of the head, whatever comes behind it, and says how
-- long it was.
def RequestRoundTrip (sse42 : Bool) (head : RequestHead) : Prop :=
  ∀ raw more, raw.unread = head.render ++ more →
    (httpParseRequestHeaders sse42 raw initHttpRequest).1 = head.place raw.currentPos ∧
    (httpParseRequestHeaders sse42 raw initHttpRequest).2.toNat = head.render.length

def ResponseRoundTrip (sse42 : Bool) (head : ResponseHead) : Prop :=
  ∀ raw more, raw.unread = head.render ++ more →
    (httpParseResponseHeaders sse42 raw initHttpResponse).1 = head.place raw.currentPos ∧
    (httpParseResponseHeaders sse42 raw initHttpResponse).2.toNat = head.render.length

theorem httpParseRequestHeaders_render (sse42 : Bool) (head : RequestHead) {raw : RawData}
    {more : List UInt8} (h : raw.unread = head.render ++ more) :
    httpParseRequestHeaders sse42 raw initHttpRequest = (head.place raw.currentPos,
      parseResult raw.currentPos
        (.ok ((), ⟨raw.currentPos + head.render.length, more⟩))) := by
  unfold httpParseRequestHeaders
  rw [h, reads_parseRequestLine sse42 head raw.currentPos more]

theorem httpParseResponseHeaders_render (sse42 : Bool) (head : ResponseHead) {raw : RawData}
    {more : List UInt8} (h : raw.unread = head.render ++ more) :
    httpParseResponseHeaders sse42 raw initHttpResponse = (head.place raw.currentPos,
      parseResult raw.currentPos
        (.ok ((), ⟨raw.currentPos + head.render.length, more⟩))) := by
  unfold httpParseResponseHeaders
  rw [h, reads_parseResponseLine sse42 head raw.currentPos more]

-- A parser that reads a text gives its length exactly if the `int` holds it.
theorem roundTrip_iff {ρ : Type} {parse : RawData → ρ × UInt64} {place : ℕ → ρ}
    {text : List UInt8}
    (hparse : ∀ {raw : RawData} {more : List UInt8}, raw.unread = text ++ more →
      parse raw = (place raw.currentPos, parseResult raw.currentPos
        (.ok ((), ⟨raw.currentPos + text.length, more⟩)))) :
    (∀ raw more, raw.unread = text ++ more →
      (parse raw).1 = place raw.currentPos ∧ (parse raw).2.toNat = text.length) ↔
      FitsInt text.length := by
  constructor
  · intro h
    have hunread : (RawData.create text 0).unread = text ++ [] := (List.append_nil _).symm
    have hret := (h _ _ hunread).2
    rw [hparse hunread] at hret
    exact (toNat_parseResult _ _ _).mp hret
  · intro h raw more hunread
    rw [hparse hunread]
    exact ⟨rfl, (toNat_parseResult _ _ _).mpr h⟩

theorem requestRoundTrip_iff (sse42 : Bool) (head : RequestHead) :
    RequestRoundTrip sse42 head ↔ FitsInt head.render.length :=
  roundTrip_iff (httpParseRequestHeaders_render sse42 head)

theorem responseRoundTrip_iff (sse42 : Bool) (head : ResponseHead) :
    ResponseRoundTrip sse42 head ↔ FitsInt head.render.length :=
  roundTrip_iff (httpParseResponseHeaders_render sse42 head)

-- A head is read back exactly if its length comes through the `int`.
theorem httpParseHeaders_roundTrip_iff (sse42 : Bool) :
    (∀ head, RequestRoundTrip sse42 head ↔ FitsInt head.render.length) ∧
      ∀ head, ResponseRoundTrip sse42 head ↔ FitsInt head.render.length :=
  ⟨requestRoundTrip_iff sse42, responseRoundTrip_iff sse42⟩

end EntryPoints

-- A request for a path of so many slashes.
def slashesHead (count : ℕ) : RequestHead where
  method := [0x47, 0x45, 0x54]
  path := List.replicate (count + 1) 0x2f
  minor := 0x31
  fields := []
  method_ne_nil := by decide
  method_tchar := List.all_eq_true.mp rfl
  path_ne_nil := by simp
  path_text byte hbyte := by
    rw [List.eq_of_mem_replicate hbyte]
    decide
  minor_digit := rfl
  fields_le := Nat.zero_le _

theorem length_slashesHead (count : ℕ) : (slashesHead count).render.length = count + 18 := by
  simp [RequestHead.render, RequestHead.line, slashesHead, renderFields, HTTP_1, CRLF]

-- The consumed length of a head of 2^31 bytes comes out negative.
theorem slashesHead_not_roundTrip :
    ¬∀ sse42 head, RequestRoundTrip sse42 head := by
  intro h
  have hfits := (requestRoundTrip_iff false (slashesHead (2 ^ 31))).mp (h _ _)
  rw [length_slashesHead] at hfits
  unfold FitsInt at hfits
  omega

end Gopher.L7.Http
