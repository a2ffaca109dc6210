import Gopher.L7.Http.Head.Builds
import Mathlib.Data.List.TakeWhile

-- Which slots of the array of headers the parser of a head stores to.

namespace Gopher.L7.Http

open Gopher.Lib

-- What a slot is filled with.
inductive SlotMember
  | name
  | value
  deriving DecidableEq

abbrev SlotStore := ℕ × SlotMember

-- The slots that `init_http_header` allocates for a request or a response.
def INIT_HTTP_HEADERS : ℕ := 1

variable {sse42 : Bool} {room n : ℕ} {buf next : BufPtr}

-- What is stored up to the value of the header in slot `n`, and where the value begins.
-- `parse_token` stores a name when it has come to the colon, before its length is looked at.
def parseNameStores (sse42 : Bool) (n : ℕ) (buf : BufPtr) : List SlotStore × Option BufPtr :=
  if n ≠ 0 ∧ buf.rest.head?.any isBlank then ([(n, .name)], some buf)
  else
    match parseToken sse42 COLON buf with
    | .error _ => ([], none)
    | .ok (name, buf) =>
        if name.bytes.length = 0 then ([(n, .name)], none)
        else
          match skipBehind isBlank buf with
          | .error _ => ([(n, .name)], none)
          | .ok (_, buf) => ([(n, .name)], some buf)

-- The stores of `parse_headers`, from `num_headers = n` on and with `room` slots up to the
-- constant limit.
def parseHeadersStores (sse42 : Bool) : (room n : ℕ) → BufPtr → List SlotStore
  | 0, _, _ => []
  | room + 1, n, buf =>
      match lineEnd buf with
      | .ok (false, buf) =>
          match parseNameStores sse42 n buf with
          | (stores, none) => stores
          | (stores, some buf) =>
              match getTokenToEol sse42 buf with
              | .error _ => stores
              | .ok (_, buf) => stores ++ (n, .value) :: parseHeadersStores sse42 room (n + 1) buf
      | _ => []

section Scans

variable {stop legal : UInt8 → Bool} {pos : ℕ} {bytes rest : List UInt8} {after : BufPtr}

theorem scanUntil_eq_ok_iff : scanUntil stop legal pos rest = .ok (bytes, after) ↔
    ∃ byte tail, rest = bytes ++ byte :: tail ∧ stop byte = true ∧
      (∀ byte ∈ bytes, stop byte = false ∧ legal byte = true) ∧
      after = ⟨pos + bytes.length, byte :: tail⟩ := by
  induction rest generalizing pos bytes after with
  | nil => simp [scanUntil]
  | cons first rest ih =>
      rw [scanUntil]
      constructor
      · intro h
        split_ifs at h with hstop hlegal
        · cases h
          exact ⟨first, rest, rfl, hstop, by simp, rfl⟩
        · cases hscan : scanUntil stop legal (pos + 1) rest with
          | error stop =>
              rw [hscan] at h
              cases h
          | ok found =>
              obtain ⟨taken, behind⟩ := found
              rw [hscan] at h
              cases h
              obtain ⟨byte, tail, heq, hbyte, hall, hafter⟩ := ih.mp hscan
              refine ⟨byte, tail, congrArg (first :: ·) heq, hbyte, ?_, ?_⟩
              · exact List.forall_mem_cons.mpr ⟨⟨by simpa using hstop, hlegal⟩, hall⟩
              · rw [hafter, List.length_cons, Nat.add_assoc, Nat.add_comm 1]
                rfl
      · rintro ⟨byte, tail, heq, hbyte, hall, rfl⟩
        cases bytes with
        | nil =>
            obtain ⟨rfl, rfl⟩ := List.cons_eq_cons.mp heq
            rw [if_pos hbyte]
            rfl
        | cons head bytes =>
            obtain ⟨rfl, hrest⟩ := List.cons_eq_cons.mp heq
            obtain ⟨⟨hstop, hlegal⟩, hall⟩ := List.forall_mem_cons.mp hall
            have hpos : pos + (first :: bytes).length = pos + 1 + bytes.length := by
              rw [List.length_cons]
              omega
            rw [if_neg (by simp [hstop]), if_pos hlegal, hpos,
              ih.mpr ⟨byte, tail, hrest, hbyte, hall, rfl⟩]
            rfl

theorem scanSlice_zero_eq_ok_iff {slice : Slice} :
    scanSlice stop legal 0 buf = .ok (slice, after) ↔
      ∃ byte tail, buf.rest = slice.bytes ++ byte :: tail ∧ stop byte = true ∧
        (∀ byte ∈ slice.bytes, stop byte = false ∧ legal byte = true) ∧
        slice.start = buf.pos ∧ after = ⟨buf.pos + slice.bytes.length, byte :: tail⟩ := by
  obtain ⟨start, bytes⟩ := slice
  rw [scanSlice, Nat.add_zero, List.drop_zero, List.take_zero]
  constructor
  · intro h
    cases hscan : scanUntil stop legal buf.pos buf.rest with
    | error stop =>
        rw [hscan] at h
        cases h
    | ok found =>
        obtain ⟨taken, behind⟩ := found
        rw [hscan] at h
        cases h
        obtain ⟨byte, tail, heq, hbyte, hall, hafter⟩ := scanUntil_eq_ok_iff.mp hscan
        exact ⟨byte, tail, heq, hbyte, hall, rfl, hafter⟩
  · rintro ⟨byte, tail, heq, hbyte, hall, hstart, rfl⟩
    dsimp only at heq hall hstart
    rw [scanUntil_eq_ok_iff.mpr ⟨byte, tail, heq, hbyte, hall, rfl⟩, hstart]
    rfl

theorem isTokenChar_colon {byte : UInt8} (h : isTokenChar byte = true) :
    (byte == COLON) = false := by
  rw [beq_eq_false_iff_ne]
  rintro rfl
  exact absurd h (by decide)

-- A name, when the colon is reached.
theorem parseToken_eq_ok_iff {name : Slice} :
    parseToken sse42 COLON buf = .ok (name, next) ↔
      ∃ tail, buf.rest = name.bytes ++ COLON :: tail ∧
        (∀ byte ∈ name.bytes, isTokenChar byte = true) ∧ name.start = buf.pos ∧
        next = ⟨buf.pos + name.bytes.length, COLON :: tail⟩ := by
  rw [parseToken_eq sse42 (.inr rfl), scanSlice_zero_eq_ok_iff]
  constructor
  · rintro ⟨byte, tail, heq, hbyte, hall, hstart, hnext⟩
    obtain rfl : byte = COLON := eq_of_beq hbyte
    exact ⟨tail, heq, fun byte hbyte => (hall byte hbyte).2, hstart, hnext⟩
  · rintro ⟨tail, heq, hall, hstart, hnext⟩
    exact ⟨COLON, tail, heq, beq_self_eq_true COLON,
      fun byte hbyte => ⟨isTokenChar_colon (hall byte hbyte), hall byte hbyte⟩, hstart, hnext⟩

theorem lineEnd_true_iff : lineEnd buf = .ok (true, next) ↔
    ∃ eol, (eol = [LF] ∨ eol = [CR, LF]) ∧ buf.rest = eol ++ next.rest ∧
      next.pos = buf.pos + eol.length := by
  obtain ⟨pos, rest⟩ := buf
  obtain ⟨pos', rest'⟩ := next
  constructor
  · intro h
    unfold lineEnd at h
    split at h
    · cases h
    next byte rest hrest =>
      dsimp only at hrest
      split_ifs at h with hcr hlf
      · split at h
        · cases h
        next second tail =>
          split_ifs at h with hlf
          cases h
          exact ⟨[CR, LF], .inr rfl, by rw [hrest, hcr, hlf]; rfl, rfl⟩
      · cases h
        exact ⟨[LF], .inl rfl, by rw [hrest, hlf]; rfl, rfl⟩
      · cases h
  · rintro ⟨eol, rfl | rfl, hrest, hpos⟩
    · dsimp only at hrest hpos
      subst hrest hpos
      rfl
    · dsimp only at hrest hpos
      subst hrest hpos
      rfl

-- A line that does not end here begins with another byte, and nothing is taken.
theorem lineEnd_false_iff : lineEnd buf = .ok (false, next) ↔
    next = buf ∧ ∃ byte, buf.rest.head? = some byte ∧ byte ≠ CR ∧ byte ≠ LF := by
  obtain ⟨pos, rest⟩ := buf
  unfold lineEnd
  cases rest with
  | nil => simp
  | cons byte rest =>
      dsimp only
      split_ifs with hcr hlf
      · refine iff_of_false (fun h => ?_) ?_
        · split at h
          · cases h
          · split_ifs at h
            cases h
        · rintro ⟨-, first, hfirst, hne, -⟩
          cases hfirst
          exact hne hcr
      · refine iff_of_false (fun h => by cases h) ?_
        rintro ⟨-, first, hfirst, -, hne⟩
        cases hfirst
        exact hne hlf
      · constructor
        · intro h
          cases h
          exact ⟨rfl, byte, rfl, hcr, hlf⟩
        · rintro ⟨rfl, -⟩
          rfl

def IsEol (eol : List UInt8) : Prop := eol = [LF] ∨ eol = [CR, LF]

theorem IsEol.exists_cons {eol : List UInt8} (h : IsEol eol) :
    ∃ byte tail, eol = byte :: tail ∧ isCtl byte = true ∧ isBlank byte = false := by
  obtain rfl | rfl := h
  · exact ⟨LF, [], rfl, by decide, by decide⟩
  · exact ⟨CR, [LF], rfl, by decide, by decide⟩

-- The text of a line and its end.
theorem getTokenToEol_eq_ok_iff {slice : Slice} :
    getTokenToEol sse42 buf = .ok (slice, next) ↔
      ∃ eol, IsEol eol ∧ buf.rest = slice.bytes ++ (eol ++ next.rest) ∧
        (∀ byte ∈ slice.bytes, isCtl byte = false) ∧ slice.start = buf.pos ∧
        next.pos = buf.pos + slice.bytes.length + eol.length := by
  rw [getTokenToEol_eq, scanToEol]
  constructor
  · intro h
    cases hscan : scanSlice isCtl (fun _ => true) 0 buf with
    | error stop =>
        rw [hscan] at h
        cases h
    | ok found =>
        obtain ⟨text, behind⟩ := found
        obtain ⟨byte, tail, hrest, hbyte, hall, hstart, rfl⟩ := scanSlice_zero_eq_ok_iff.mp hscan
        rw [hscan] at h
        dsimp only at h
        unfold foundCtl at h
        cases hend : lineEnd ⟨buf.pos + text.bytes.length, byte :: tail⟩ with
        | error stop =>
            rw [hend] at h
            cases h
        | ok ended =>
            obtain ⟨ended, last⟩ := ended
            rw [hend] at h
            cases ended with
            | false => cases h
            | true =>
                cases h
                obtain ⟨eol, heol, hlast, hpos⟩ := lineEnd_true_iff.mp hend
                refine ⟨eol, heol, ?_, fun byte hbyte => (hall byte hbyte).1, hstart, hpos⟩
                rw [hrest]
                exact congrArg (text.bytes ++ ·) hlast
  · rintro ⟨eol, heol, hrest, hall, hstart, hpos⟩
    obtain ⟨byte, tail, rfl, hbyte, -⟩ := IsEol.exists_cons heol
    have hscan : scanSlice isCtl (fun _ => true) 0 buf =
        .ok (slice, ⟨buf.pos + slice.bytes.length, byte :: (tail ++ next.rest)⟩) :=
      scanSlice_zero_eq_ok_iff.mpr ⟨byte, tail ++ next.rest, hrest, hbyte,
        fun byte hbyte => ⟨hall byte hbyte, rfl⟩, hstart, rfl⟩
    have hend : lineEnd ⟨buf.pos + slice.bytes.length, byte :: (tail ++ next.rest)⟩ =
        .ok (true, next) :=
      lineEnd_true_iff.mpr ⟨byte :: tail, heol, rfl, hpos⟩
    rw [hscan]
    dsimp only [foundCtl]
    rw [hend]
    rfl

end Scans

section Grammar

-- A line from which something is stored to slot `n`: one that begins with a name, maybe an
-- empty one, and a colon, or behind a header one that begins with a blank.
def StartsHeader (n : ℕ) (bytes : List UInt8) : Prop :=
  (n ≠ 0 ∧ bytes.head?.any isBlank = true) ∨
    ∃ name tail, bytes = name ++ COLON :: tail ∧ ∀ byte ∈ name, isTokenChar byte = true

-- A line that is taken as the header of slot `n`.
inductive HeaderLine (n : ℕ) : List UInt8 → Prop
  | named {name text eol : List UInt8} (hne : name ≠ [])
      (hname : ∀ byte ∈ name, isTokenChar byte = true) (htext : ∀ byte ∈ text, isCtl byte = false)
      (heol : IsEol eol) : HeaderLine n (name ++ COLON :: (text ++ eol))
  | continued {text eol : List UInt8} (hn : n ≠ 0) (hblank : text.head?.any isBlank = true)
      (htext : ∀ byte ∈ text, isCtl byte = false) (heol : IsEol eol) : HeaderLine n (text ++ eol)

-- The bytes have `left` header lines, behind which another one starts.
def ReachesSlot : (n left : ℕ) → List UInt8 → Prop
  | n, 0, bytes => StartsHeader n bytes
  | n, left + 1, bytes =>
      ∃ line rest, bytes = line ++ rest ∧ HeaderLine n line ∧ ReachesSlot (n + 1) left rest

-- Where the line behind a header begins.
def behindHeader (sse42 : Bool) (n : ℕ) (buf : BufPtr) : Option BufPtr :=
  match (parseNameStores sse42 n buf).2 with
  | none => none
  | some buf =>
      match getTokenToEol sse42 buf with
      | .error _ => none
      | .ok (_, buf) => some buf

theorem isCtl_of_isBlank {byte : UInt8} (h : isBlank byte = true) : isCtl byte = false := by
  unfold isBlank at h
  rcases Bool.or_eq_true_iff.mp h with h | h
  · rw [eq_of_beq h]
    decide
  · rw [eq_of_beq h]
    decide

theorem skipBehind_eq_ok_iff {pos : ℕ} {first : UInt8} {tail : List UInt8} {behind : BufPtr} :
    skipBehind isBlank ⟨pos, first :: tail⟩ = .ok ((), behind) ↔
      ∃ blanks byte rest, tail = blanks ++ byte :: rest ∧ isBlank byte = false ∧
        (∀ byte ∈ blanks, isBlank byte = true) ∧
        behind = ⟨pos + 1 + blanks.length, byte :: rest⟩ := by
  rw [skipBehind]
  dsimp only
  constructor
  · intro h
    cases hscan : scanUntil (fun byte => !isBlank byte) (fun _ => true) (pos + 1) tail with
    | error stop =>
        rw [hscan] at h
        cases h
    | ok found =>
        obtain ⟨blanks, after⟩ := found
        rw [hscan] at h
        cases h
        obtain ⟨byte, rest, heq, hbyte, hall, hafter⟩ := scanUntil_eq_ok_iff.mp hscan
        refine ⟨blanks, byte, rest, heq, by simpa using hbyte, fun one hone => ?_, hafter⟩
        simpa using (hall one hone).1
  · rintro ⟨blanks, byte, rest, heq, hbyte, hall, rfl⟩
    have hscan : scanUntil (fun byte => !isBlank byte) (fun _ => true) (pos + 1) tail =
        .ok (blanks, ⟨pos + 1 + blanks.length, byte :: rest⟩) :=
      scanUntil_eq_ok_iff.mpr ⟨byte, rest, heq, by simpa using hbyte,
        fun one hone => ⟨by simpa using hall one hone, rfl⟩, rfl⟩
    rw [hscan]
    rfl

-- Behind the colon the blanks in front of a value and the value are one text.
theorem exists_value_iff {pos : ℕ} {first : UInt8} {tail rest : List UInt8} :
    (∃ behind slice next, skipBehind isBlank ⟨pos, first :: tail⟩ = .ok ((), behind) ∧
        getTokenToEol sse42 behind = .ok (slice, next) ∧ next.rest = rest) ↔
      ∃ text eol, IsEol eol ∧ tail = text ++ (eol ++ rest) ∧ ∀ byte ∈ text, isCtl byte = false := by
  constructor
  · rintro ⟨behind, slice, next, hskip, hvalue, rfl⟩
    obtain ⟨blanks, byte, rest, rfl, -, hblanks, rfl⟩ := skipBehind_eq_ok_iff.mp hskip
    obtain ⟨eol, heol, hrest, hall, -⟩ := getTokenToEol_eq_ok_iff.mp hvalue
    refine ⟨blanks ++ slice.bytes, eol, heol, ?_, fun one hone => ?_⟩
    · rw [List.append_assoc, ← hrest]
    · rcases List.mem_append.mp hone with hone | hone
      · exact isCtl_of_isBlank (hblanks one hone)
      · exact hall one hone
  · rintro ⟨text, eol, heol, rfl, htext⟩
    obtain ⟨byte, back, hback, hbyte⟩ : ∃ byte back,
        text.dropWhile isBlank ++ (eol ++ rest) = byte :: back ∧ isBlank byte = false := by
      cases hdrop : text.dropWhile isBlank with
      | nil =>
          obtain ⟨byte, last, rfl, -, hbyte⟩ := IsEol.exists_cons heol
          exact ⟨byte, last ++ rest, rfl, hbyte⟩
      | cons byte back =>
          have hhead := List.head?_dropWhile_not isBlank text
          rw [hdrop] at hhead
          exact ⟨byte, back ++ (eol ++ rest), rfl, by simpa using hhead⟩
    refine ⟨⟨pos + 1 + (text.takeWhile isBlank).length, byte :: back⟩,
      ⟨pos + 1 + (text.takeWhile isBlank).length, text.dropWhile isBlank⟩,
      ⟨pos + 1 + (text.takeWhile isBlank).length + (text.dropWhile isBlank).length + eol.length,
        rest⟩, ?_, ?_, rfl⟩
    · refine skipBehind_eq_ok_iff.mpr ⟨text.takeWhile isBlank, byte, back, ?_, hbyte,
        fun one hone => List.mem_takeWhile_imp hone, rfl⟩
      rw [← hback, ← List.append_assoc (text.takeWhile isBlank), List.takeWhile_append_dropWhile]
    · exact getTokenToEol_eq_ok_iff.mpr ⟨eol, heol, hback.symm,
        fun one hone => htext one ((List.dropWhile_suffix _).subset hone), rfl, rfl⟩

theorem isBlank_of_isTokenChar {byte : UInt8} (h : isTokenChar byte = true) :
    isBlank byte = false := by
  rw [Bool.eq_false_iff]
  intro hblank
  unfold isBlank at hblank
  rcases Bool.or_eq_true_iff.mp hblank with hblank | hblank
  · rw [eq_of_beq hblank] at h
    exact absurd h (by decide)
  · rw [eq_of_beq hblank] at h
    exact absurd h (by decide)

theorem head?_append_of_any {p : UInt8 → Bool} {front back : List UInt8}
    (h : front.head?.any p = true) : (front ++ back).head?.any p = true := by
  cases front with
  | nil => cases h
  | cons byte front => exact h

-- A line that continues the value before.
theorem behindHeader_continued_iff (hn : n ≠ 0) (hblank : buf.rest.head?.any isBlank = true)
    {rest : List UInt8} :
    (∃ next, behindHeader sse42 n buf = some next ∧ next.rest = rest) ↔
      ∃ line, buf.rest = line ++ rest ∧ HeaderLine n line := by
  have hstores : parseNameStores sse42 n buf = ([(n, .name)], some buf) :=
    if_pos ⟨hn, hblank⟩
  rw [behindHeader, hstores]
  dsimp only
  constructor
  · rintro ⟨next, hnext, rfl⟩
    cases hvalue : getTokenToEol sse42 buf with
    | error stop =>
        rw [hvalue] at hnext
        cases hnext
    | ok found =>
        obtain ⟨slice, behind⟩ := found
        rw [hvalue] at hnext
        cases hnext
        obtain ⟨eol, heol, hrest, hall, -⟩ := getTokenToEol_eq_ok_iff.mp hvalue
        refine ⟨slice.bytes ++ eol, by rw [hrest, List.append_assoc], .continued hn ?_ hall heol⟩
        cases htext : slice.bytes with
        | nil =>
            obtain ⟨byte, tail, rfl, -, hbyte⟩ := IsEol.exists_cons heol
            rw [hrest, htext] at hblank
            exact absurd hblank (by simp [hbyte])
        | cons byte text =>
            rw [hrest, htext] at hblank
            exact hblank
  · rintro ⟨line, hrest, hline⟩
    cases hline with
    | @named name text eol hne hname =>
        obtain ⟨byte, name, rfl⟩ := List.exists_cons_of_ne_nil hne
        rw [hrest] at hblank
        have hnot := isBlank_of_isTokenChar (hname byte List.mem_cons_self)
        exact absurd hblank (by simp [hnot])
    | @continued text eol hn hfirst htext heol =>
        have hvalue : getTokenToEol sse42 buf = .ok (⟨buf.pos, text⟩,
            ⟨buf.pos + text.length + eol.length, rest⟩) :=
          getTokenToEol_eq_ok_iff.mpr ⟨eol, heol, by rw [hrest, List.append_assoc], htext, rfl, rfl⟩
        rw [hvalue]
        exact ⟨_, rfl, rfl⟩

theorem behindHeader_named_iff (hnamed : ¬(n ≠ 0 ∧ buf.rest.head?.any isBlank = true))
    {rest : List UInt8} :
    (∃ next, behindHeader sse42 n buf = some next ∧ next.rest = rest) ↔
      ∃ line, buf.rest = line ++ rest ∧ HeaderLine n line := by
  rw [behindHeader, parseNameStores, if_neg hnamed]
  constructor
  · rintro ⟨next, hnext, rfl⟩
    cases hname : parseToken sse42 COLON buf with
    | error stop =>
        rw [hname] at hnext
        cases hnext
    | ok found =>
        obtain ⟨name, behind⟩ := found
        obtain ⟨tail, hrest, hall, -, rfl⟩ := parseToken_eq_ok_iff.mp hname
        rw [hname] at hnext
        dsimp only at hnext
        split_ifs at hnext with hlen
        cases hskip : skipBehind isBlank ⟨buf.pos + name.bytes.length, COLON :: tail⟩ with
        | error stop =>
            rw [hskip] at hnext
            cases hnext
        | ok skipped =>
            obtain ⟨⟨⟩, skipped⟩ := skipped
            rw [hskip] at hnext
            dsimp only at hnext
            cases hvalue : getTokenToEol sse42 skipped with
            | error stop =>
                rw [hvalue] at hnext
                cases hnext
            | ok value =>
                obtain ⟨slice, last⟩ := value
                rw [hvalue] at hnext
                cases hnext
                obtain ⟨text, eol, heol, rfl, htext⟩ :=
                  exists_value_iff.mp ⟨skipped, slice, next, hskip, hvalue, rfl⟩
                refine ⟨name.bytes ++ COLON :: (text ++ eol), ?_, .named ?_ hall htext heol⟩
                · rw [hrest, List.append_assoc, List.cons_append, List.append_assoc]
                · exact fun h => hlen (List.length_eq_zero_iff.mpr h)
  · rintro ⟨line, hrest, hline⟩
    cases hline with
    | @named name text eol hne hname htext heol =>
        have hrest' : buf.rest = name ++ COLON :: (text ++ (eol ++ rest)) := by
          rw [hrest, List.append_assoc, List.cons_append, List.append_assoc]
        have htoken : parseToken sse42 COLON buf = .ok (⟨buf.pos, name⟩,
            ⟨buf.pos + name.length, COLON :: (text ++ (eol ++ rest))⟩) :=
          parseToken_eq_ok_iff.mpr ⟨_, hrest', hname, rfl, rfl⟩
        have hbehind : ∃ behind slice next,
            skipBehind isBlank ⟨buf.pos + name.length, COLON :: (text ++ (eol ++ rest))⟩ =
                .ok ((), behind) ∧
              getTokenToEol sse42 behind = .ok (slice, next) ∧ next.rest = rest :=
          exists_value_iff.mpr ⟨text, eol, heol, rfl, htext⟩
        obtain ⟨behind, slice, next, hskip, hvalue, hnext⟩ := hbehind
        have hlen : ¬name.length = 0 := fun h => hne (List.length_eq_zero_iff.mp h)
        rw [htoken]
        dsimp only
        rw [if_neg hlen, hskip]
        dsimp only
        rw [hvalue]
        exact ⟨next, rfl, hnext⟩
    | @continued text eol hn hfirst htext heol =>
        refine absurd ⟨hn, ?_⟩ hnamed
        rw [hrest, List.append_assoc]
        exact head?_append_of_any hfirst

-- What follows a header line is where the parser goes on.
theorem exists_behindHeader_iff {rest : List UInt8} :
    (∃ next, behindHeader sse42 n buf = some next ∧ next.rest = rest) ↔
      ∃ line, buf.rest = line ++ rest ∧ HeaderLine n line := by
  by_cases h : n ≠ 0 ∧ buf.rest.head?.any isBlank = true
  · exact behindHeader_continued_iff h.1 h.2
  · exact behindHeader_named_iff h

-- A header that is complete has been started.
theorem HeaderLine.startsHeader {line : List UInt8} (h : HeaderLine n line) (rest : List UInt8) :
    StartsHeader n (line ++ rest) := by
  cases h with
  | @named name text eol hne hname =>
      exact .inr ⟨name, text ++ eol ++ rest, by rw [List.append_assoc, List.cons_append], hname⟩
  | @continued text eol hn hblank =>
      refine .inl ⟨hn, ?_⟩
      rw [List.append_assoc]
      exact head?_append_of_any hblank

theorem lineEnd_of_startsHeader (h : StartsHeader n buf.rest) : lineEnd buf = .ok (false, buf) := by
  refine lineEnd_false_iff.mpr ⟨rfl, ?_⟩
  rcases h with ⟨-, hblank⟩ | ⟨name, tail, hrest, hname⟩
  · obtain ⟨byte, hbyte, hblank⟩ := (Option.any_eq_true _ _).mp hblank
    refine ⟨byte, hbyte, ?_, ?_⟩
    · rintro rfl
      exact absurd hblank (by decide)
    · rintro rfl
      exact absurd hblank (by decide)
  · cases name with
    | nil => exact ⟨COLON, by rw [hrest]; rfl, by decide, by decide⟩
    | cons byte name =>
        have htoken := hname byte List.mem_cons_self
        refine ⟨byte, by rw [hrest]; rfl, ?_, ?_⟩
        · rintro rfl
          exact absurd htoken (by decide)
        · rintro rfl
          exact absurd htoken (by decide)

end Grammar

section Stores

-- The name is stored exactly for the lines from which something is.
theorem parseNameStores_cases (sse42 : Bool) (n : ℕ) (buf : BufPtr) :
    ((parseNameStores sse42 n buf).1 = [(n, .name)] ∧ StartsHeader n buf.rest) ∨
      (parseNameStores sse42 n buf = ([], none) ∧ ¬StartsHeader n buf.rest) := by
  rw [parseNameStores]
  by_cases hcontinued : n ≠ 0 ∧ buf.rest.head?.any isBlank = true
  · rw [if_pos hcontinued]
    exact .inl ⟨rfl, .inl hcontinued⟩
  · rw [if_neg hcontinued]
    cases hname : parseToken sse42 COLON buf with
    | error stop =>
        refine .inr ⟨rfl, ?_⟩
        rintro (h | ⟨name, tail, hrest, htoken⟩)
        · exact hcontinued h
        · have hok : parseToken sse42 COLON buf =
              .ok (⟨buf.pos, name⟩, ⟨buf.pos + name.length, COLON :: tail⟩) :=
            parseToken_eq_ok_iff.mpr ⟨tail, hrest, htoken, rfl, rfl⟩
          rw [hok] at hname
          cases hname
    | ok found =>
        obtain ⟨name, behind⟩ := found
        obtain ⟨tail, hrest, htoken, -, -⟩ := parseToken_eq_ok_iff.mp hname
        refine .inl ⟨?_, .inr ⟨name.bytes, tail, hrest, htoken⟩⟩
        dsimp only
        split_ifs
        · rfl
        · cases skipBehind isBlank behind with
          | error stop => rfl
          | ok skipped => rfl

theorem parseHeadersStores_succ (sse42 : Bool) (room n : ℕ) (buf : BufPtr) :
    parseHeadersStores sse42 (room + 1) n buf =
      if lineEnd buf = .ok (false, buf) then
        (parseNameStores sse42 n buf).1 ++
          match behindHeader sse42 n buf with
          | none => []
          | some next => (n, .value) :: parseHeadersStores sse42 room (n + 1) next
      else [] := by
  rw [parseHeadersStores]
  split
  next behind hend =>
    obtain ⟨rfl, -⟩ := lineEnd_false_iff.mp hend
    rw [if_pos hend, behindHeader]
    generalize parseNameStores sse42 n behind = found
    obtain ⟨stores, value⟩ := found
    cases value with
    | none => exact (List.append_nil stores).symm
    | some value =>
        dsimp only
        cases getTokenToEol sse42 value with
        | error stop => exact (List.append_nil stores).symm
        | ok found => rfl
  next hnot =>
    rw [if_neg fun h => hnot buf h]

-- A slot is stored to exactly when the head has a header for each of those before, and
-- starts one for it.
theorem exists_store_iff (left : ℕ) (hleft : left < room) :
    (∃ store ∈ parseHeadersStores sse42 room n buf, n + left ≤ store.1) ↔
      ReachesSlot n left buf.rest := by
  induction left generalizing n room buf with
  | zero =>
      obtain ⟨room, rfl⟩ := Nat.exists_eq_succ_of_ne_zero (Nat.ne_of_gt hleft)
      rw [Nat.succ_eq_add_one, parseHeadersStores_succ, ReachesSlot]
      rcases parseNameStores_cases sse42 n buf with ⟨hname, hstarts⟩ | ⟨hname, hstarts⟩
      · rw [if_pos (lineEnd_of_startsHeader hstarts), hname]
        exact iff_of_true ⟨(n, .name), List.mem_append_left _ List.mem_cons_self, Nat.le_refl n⟩
          hstarts
      · refine iff_of_false ?_ hstarts
        rintro ⟨store, hstore, -⟩
        rw [behindHeader, hname] at hstore
        split_ifs at hstore
        · cases hstore
        · cases hstore
  | succ left ih =>
      obtain ⟨room, rfl⟩ := Nat.exists_eq_succ_of_ne_zero (Nat.ne_of_gt (Nat.zero_lt_of_lt hleft))
      rw [Nat.succ_eq_add_one, parseHeadersStores_succ, ReachesSlot]
      constructor
      · rintro ⟨store, hstore, hslot⟩
        split_ifs at hstore
        · rcases List.mem_append.mp hstore with hstore | hstore
          · rcases parseNameStores_cases sse42 n buf with ⟨hname, -⟩ | ⟨hname, -⟩
            · rw [hname, List.mem_singleton] at hstore
              rw [hstore] at hslot
              omega
            · rw [hname] at hstore
              cases hstore
          · cases hbehind : behindHeader sse42 n buf with
            | none =>
                rw [hbehind] at hstore
                cases hstore
            | some next =>
                rw [hbehind] at hstore
                obtain ⟨line, hrest, hline⟩ := exists_behindHeader_iff.mp ⟨next, hbehind, rfl⟩
                refine ⟨line, next.rest, hrest, hline, ?_⟩
                rcases List.mem_cons.mp hstore with rfl | hstore
                · dsimp only at hslot
                  omega
                · exact (ih (Nat.lt_of_succ_lt_succ hleft)).mp ⟨store, hstore, by omega⟩
        · cases hstore
      · rintro ⟨line, rest, hrest, hline, hreaches⟩
        have hstarts : StartsHeader n buf.rest := hrest ▸ hline.startsHeader rest
        obtain ⟨next, hbehind, rfl⟩ := exists_behindHeader_iff.mpr ⟨line, hrest, hline⟩
        obtain ⟨store, hstore, hslot⟩ := (ih (Nat.lt_of_succ_lt_succ hleft)).mpr hreaches
        refine ⟨store, ?_, by omega⟩
        rw [if_pos (lineEnd_of_startsHeader hstarts), hbehind]
        exact List.mem_append_right _ (List.mem_cons_of_mem _ hstore)

-- The array has room for the headers of the heads that start no more than it.
theorem parseHeadersStores_lt_iff {slots : ℕ} (hslots : slots < K_MAX_NUM_HEADERS) :
    (∀ store ∈ parseHeadersStores sse42 K_MAX_NUM_HEADERS 0 buf, store.1 < slots) ↔
      ¬ReachesSlot 0 slots buf.rest := by
  have hstores : (∃ store ∈ parseHeadersStores sse42 K_MAX_NUM_HEADERS 0 buf,
      0 + slots ≤ store.1) ↔ ReachesSlot 0 slots buf.rest :=
    exists_store_iff slots hslots
  rw [← hstores]
  simp only [Nat.zero_add, not_exists, not_and, Nat.not_le]

end Stores

section Headers

variable {headers : List HttpHeader}

-- The parser goes on to a value where the stores of a name do.
theorem parseNameUnless_cases {σ : Type} (state : σ) {continued : Bool}
    (hcontinued : continued = true ↔ n ≠ 0 ∧ buf.rest.head?.any isBlank = true) :
    ((parseNameStores sse42 n buf).2 = none ∧
        ∃ stop, parseNameUnless continued sse42 state buf = (state, .error stop)) ∨
      ∃ value name, (parseNameStores sse42 n buf).2 = some value ∧
        parseNameUnless continued sse42 state buf = (state, .ok (name, value)) := by
  rw [parseNameStores, parseNameUnless]
  by_cases hcase : n ≠ 0 ∧ buf.rest.head?.any isBlank = true
  · rw [if_pos hcase, if_pos (hcontinued.mpr hcase)]
    exact .inr ⟨buf, none, rfl, rfl⟩
  · rw [if_neg hcase, if_neg fun h => hcase (hcontinued.mp h), parseName]
    simp only [bind, Scan.bind, Scan.bytes]
    cases parseToken sse42 COLON buf with
    | error stop => exact .inl ⟨rfl, stop, rfl⟩
    | ok found =>
        obtain ⟨name, behind⟩ := found
        dsimp only
        by_cases hlen : name.bytes.length = 0
        · rw [if_pos hlen, if_pos hlen]
          exact .inl ⟨rfl, .malformed, rfl⟩
        · rw [if_neg hlen, if_neg hlen]
          simp only [Scan.bind, Scan.bytes]
          cases skipBehind isBlank behind with
          | error stop => exact .inl ⟨rfl, stop, rfl⟩
          | ok skipped => exact .inr ⟨skipped.2, some name, rfl, rfl⟩

-- One round of the loop: a header is reported when its line is complete.
theorem parseHeaders_succ (sse42 : Bool) (room : ℕ) (headers : List HttpHeader) (buf : BufPtr) :
    ∃ header, (parseHeaders sse42 (room + 1) headers buf).1 =
      match (if lineEnd buf = .ok (false, buf) then behindHeader sse42 headers.length buf
        else none) with
      | none => headers
      | some next => (parseHeaders sse42 room (headers ++ [header]) next).1 := by
  rw [parseHeaders]
  simp only [bind, Scan.bind, Scan.bytes]
  cases hend : lineEnd buf with
  | error stop => exact ⟨⟨none, ⟨0, []⟩⟩, rfl⟩
  | ok ended =>
      obtain ⟨ended, behind⟩ := ended
      cases ended with
      | true => exact ⟨⟨none, ⟨0, []⟩⟩, rfl⟩
      | false =>
          obtain ⟨rfl, byte, hbyte, -⟩ := lineEnd_false_iff.mp hend
          obtain ⟨rest, hrest⟩ := List.head?_eq_some_iff.mp hbyte
          have hcurrent : currentByte behind = .ok (byte, behind) := by
            rw [currentByte, hrest]
          have hcontinued : (!headers.isEmpty && isBlank byte) = true ↔
              headers.length ≠ 0 ∧ behind.rest.head?.any isBlank = true := by
            rw [hbyte, Bool.and_eq_true, Option.any_some]
            simp
          simp only [Bool.false_eq_true, if_false, Scan.get, Scan.bind, Scan.bytes, Scan.modify,
            hcurrent, if_true]
          rw [behindHeader]
          rcases parseNameUnless_cases headers hcontinued with
            ⟨hvalue, stop, hname⟩ | ⟨value, name, hvalue, hname⟩
          · rw [hvalue, hname]
            exact ⟨⟨none, ⟨0, []⟩⟩, rfl⟩
          · rw [hvalue, hname]
            dsimp only
            cases getTokenToEol sse42 value with
            | error stop => exact ⟨⟨none, ⟨0, []⟩⟩, rfl⟩
            | ok found => exact ⟨⟨name, trimEnd found.1⟩, rfl⟩

-- The slots that get a value are those that the parser reports.
theorem length_parseHeaders (sse42 : Bool) (room : ℕ) (headers : List HttpHeader) (buf : BufPtr) :
    ((parseHeaders sse42 room headers buf).1).length = headers.length +
      ((parseHeadersStores sse42 room headers.length buf).filter fun store =>
        store.2 = .value).length := by
  induction room generalizing headers buf with
  | zero =>
      unfold parseHeaders
      simp only [bind, Scan.bind, Scan.bytes]
      cases hend : lineEnd buf with
      | error stop => rfl
      | ok ended =>
          obtain ⟨ended, behind⟩ := ended
          cases ended <;> rfl
  | succ room ih =>
      obtain ⟨header, hround⟩ := parseHeaders_succ sse42 room headers buf
      rw [hround, parseHeadersStores_succ]
      by_cases hend : lineEnd buf = .ok (false, buf)
      · rw [if_pos hend, if_pos hend, List.filter_append]
        have hname : (parseNameStores sse42 headers.length buf).1.filter
            (fun store => store.2 = .value) = [] := by
          rcases parseNameStores_cases sse42 headers.length buf with ⟨hname, -⟩ | ⟨hname, -⟩
          · rw [hname]
            rfl
          · rw [hname]
            rfl
        rw [hname, List.nil_append]
        cases behindHeader sse42 headers.length buf with
        | none => rfl
        | some next =>
            dsimp only
            rw [ih, List.length_append, List.length_singleton, List.filter_cons_of_pos rfl,
              List.length_cons]
            omega
      · rw [if_neg hend, if_neg hend]
        rfl

end Headers

end Gopher.L7.Http
