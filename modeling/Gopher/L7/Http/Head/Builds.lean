import Gopher.L7.Http.Head

namespace Gopher.L7.Http

open Gopher.Lib

variable {σ : Type} {ranges : CharRanges} {taken rest : List UInt8} {buf : BufPtr}
  {halts stop legal : UInt8 → Bool} {moved : ℕ × Bool}

section Bytes

theorem forall_byte {p : UInt8 → Prop} (h : ∀ n < 256, p (UInt8.ofNat n)) (byte : UInt8) :
    p byte := by
  have hbyte := h byte.toNat byte.toNat_lt
  rwa [UInt8.ofNat_toNat] at hbyte

-- Outside the ranges there are only token characters other than the two delimiters.
theorem token_of_not_inRanges : ∀ byte, inRanges tokenRanges byte = false →
    isTokenChar byte = true ∧ byte ≠ SP ∧ byte ≠ COLON :=
  forall_byte (by decide +kernel)

theorem path_of_not_inRanges : ∀ byte, inRanges pathRanges byte = false →
    isPathChar byte = true ∧ byte ≠ SP :=
  forall_byte (by decide +kernel)

theorem inRanges_eol : ∀ byte, inRanges eolRanges byte = isCtl byte :=
  forall_byte (by decide +kernel)

theorem isCtl_of_printable : ∀ byte, isPrintableAscii byte = true → isCtl byte = false :=
  forall_byte (by decide +kernel)

end Bytes

section Passes

-- A fast scan passes over bytes that do not halt it, and has found the one it stands at.
structure Passes (halts : UInt8 → Bool) (rest : List UInt8) (moved : ℕ × Bool) : Prop where
  passed : ∀ byte ∈ rest.take moved.1, halts byte = false
  found : moved.2 = true → ∃ byte after, rest.drop moved.1 = byte :: after ∧ halts byte = true

theorem passes_zero : Passes halts rest (0, false) :=
  ⟨by simp, fun h => by cases h⟩

theorem Passes.append (htaken : ∀ byte ∈ taken, halts byte = false) (h : Passes halts rest moved) :
    Passes halts (taken ++ rest) (taken.length + moved.1, moved.2) where
  passed := by
    rw [List.take_length_add_append]
    intro byte hbyte
    rcases List.mem_append.mp hbyte with hbyte | hbyte
    · exact htaken byte hbyte
    · exact h.passed byte hbyte
  found hfound := by
    rw [List.drop_length_add_append]
    exact h.found hfound

-- The first byte of a block that meets the test, with the bytes in front of it.
theorem exists_of_findIdx? {r count : ℕ} (h : (rest.take count).findIdx? halts = some r) :
    ∃ before byte after, rest = before ++ byte :: after ∧ before.length = r ∧
      halts byte = true ∧ ∀ byte ∈ before, halts byte = false := by
  induction rest generalizing r count with
  | nil => simp at h
  | cons byte rest ih =>
      cases count with
      | zero => simp at h
      | succ count =>
          rw [List.take_succ_cons, List.findIdx?_cons] at h
          cases hbyte : halts byte with
          | true =>
              rw [hbyte, if_pos rfl] at h
              exact ⟨[], byte, rest, rfl, Option.some.inj h, hbyte, by simp⟩
          | false =>
              rw [hbyte, if_neg Bool.false_ne_true] at h
              obtain ⟨index, hindex, rfl⟩ := Option.map_eq_some_iff.mp h
              obtain ⟨before, found, after, rfl, rfl, hfound, hbefore⟩ := ih hindex
              refine ⟨byte :: before, found, after, rfl, rfl, hfound, ?_⟩
              exact List.forall_mem_cons.mpr ⟨hbyte, hbefore⟩

theorem passes_findBlocks (ranges : CharRanges) (rest : List UInt8) :
    Passes (inRanges ranges) rest (findBlocks ranges rest) := by
  fun_induction findBlocks ranges rest with
  | case1 rest hlen r hfind =>
      obtain ⟨before, byte, after, rfl, rfl, hbyte, hbefore⟩ := exists_of_findIdx? hfind
      have hpasses : Passes (inRanges ranges) (byte :: after) (0, true) :=
        ⟨by simp, fun _ => ⟨byte, after, rfl, hbyte⟩⟩
      exact hpasses.append hbefore
  | case2 rest hlen hfind moved found hmoved ih =>
      have hblock : ∀ byte ∈ rest.take 16, inRanges ranges byte = false := by
        simpa using List.findIdx?_eq_none_iff.mp hfind
      have hlength : (rest.take 16).length = 16 := List.length_take_of_le hlen
      have happend := Passes.append hblock ih
      rwa [List.take_append_drop, hlength, hmoved] at happend
  | case3 rest hlen => exact passes_zero

theorem passes_eolUnrolled (rest : List UInt8) : Passes isCtl rest (eolUnrolled rest) := by
  fun_induction eolUnrolled rest with
  | case1 rest hlen hfind moved found hmoved ih =>
      have hblock : ∀ byte ∈ rest.take 8, isCtl byte = false := by
        intro byte hbyte
        have hprintable := List.findIdx?_eq_none_iff.mp hfind byte hbyte
        exact isCtl_of_printable byte (by simpa using hprintable)
      have hlength : (rest.take 8).length = 8 := List.length_take_of_le hlen
      have happend := Passes.append hblock ih
      rwa [List.take_append_drop, hlength, hmoved] at happend
  | case2 rest hlen r hfind hctl =>
      obtain ⟨before, byte, after, rfl, rfl, -, hbefore⟩ := exists_of_findIdx? hfind
      rw [List.drop_left] at hctl
      have hpasses : Passes isCtl (byte :: after) (0, true) :=
        ⟨by simp, fun _ => ⟨byte, after, rfl, hctl⟩⟩
      refine hpasses.append fun byte hbyte => ?_
      exact isCtl_of_printable byte (by simpa using hbefore byte hbyte)
  | case3 rest hlen r hfind hctl moved found hmoved ih =>
      obtain ⟨before, byte, after, rfl, rfl, -, hbefore⟩ := exists_of_findIdx? hfind
      rw [List.drop_left] at hctl
      have htaken : ∀ other ∈ before ++ [byte], isCtl other = false := by
        intro other hother
        rcases List.mem_append.mp hother with hother | hother
        · exact isCtl_of_printable other (by simpa using hbefore other hother)
        · rw [List.mem_singleton.mp hother]
          simpa using hctl
      have hdrop : (before ++ byte :: after).drop (before.length + 1) = after := by
        rw [List.drop_length_add_append]
        rfl
      rw [hdrop] at hmoved ih
      have happend := Passes.append htaken ih
      rwa [List.append_assoc, List.singleton_append, List.length_append, List.length_singleton,
        hmoved] at happend
  | case4 rest hlen => exact passes_zero

theorem passes_findCharFast (sse42 : Bool) (ranges : CharRanges) (rest : List UInt8) :
    Passes (inRanges ranges) rest (findCharFast sse42 ranges rest) := by
  unfold findCharFast
  cases sse42 with
  | true => exact passes_findBlocks ranges rest
  | false => exact passes_zero

-- The loop comes to the same end from behind the bytes it would pass over.
theorem Passes.scanSlice_eq (h : Passes halts buf.rest moved)
    (hpass : ∀ byte, halts byte = false → stop byte = false ∧ legal byte = true) :
    scanSlice stop legal moved.1 buf = scanSlice stop legal 0 buf := by
  have hstop : ∀ byte ∈ buf.rest.take moved.1, stop byte = false :=
    fun byte hbyte => (hpass byte (h.passed byte hbyte)).1
  have hlegal : ∀ byte ∈ buf.rest.take moved.1, legal byte = true :=
    fun byte hbyte => (hpass byte (h.passed byte hbyte)).2
  have hscan := @scanUntil_append stop legal buf.pos _ (buf.rest.drop moved.1) hstop hlegal
  rw [List.take_append_drop] at hscan
  unfold scanSlice
  rw [Nat.add_zero, List.drop_zero, hscan]
  by_cases hle : moved.1 ≤ buf.rest.length
  · rw [List.length_take_of_le hle]
    cases scanUntil stop legal (buf.pos + moved.1) (buf.rest.drop moved.1) with
    | error stop => rfl
    | ok found => rfl
  · rw [List.drop_of_length_le (by omega)]
    rfl

end Passes

section Tokens

theorem parseToken_eq (sse42 : Bool) {nextChar : UInt8} (hnext : nextChar = SP ∨ nextChar = COLON)
    (buf : BufPtr) :
    parseToken sse42 nextChar buf = scanSlice (fun byte => byte == nextChar) isTokenChar 0 buf := by
  refine (passes_findCharFast sse42 tokenRanges buf.rest).scanSlice_eq fun byte hbyte => ?_
  obtain ⟨htoken, hsp, hcolon⟩ := token_of_not_inRanges byte hbyte
  rcases hnext with rfl | rfl
  · exact ⟨by simpa using hsp, htoken⟩
  · exact ⟨by simpa using hcolon, htoken⟩

theorem advanceToken_eq (sse42 : Bool) (buf : BufPtr) :
    advanceToken sse42 buf = scanSlice (fun byte => byte == SP) isPathChar 0 buf := by
  refine (passes_findCharFast sse42 pathRanges buf.rest).scanSlice_eq fun byte hbyte => ?_
  obtain ⟨hpath, hsp⟩ := path_of_not_inRanges byte hbyte
  exact ⟨by simpa using hsp, hpath⟩

-- The end of a token up to the end of the line, seen from its first byte.
def scanToEol (buf : BufPtr) : Except Stop (Slice × BufPtr) :=
  match scanSlice isCtl (fun _ => true) 0 buf with
  | .error stop => .error stop
  | .ok found => foundCtl found

theorem getTokenToEol_eq (sse42 : Bool) (buf : BufPtr) :
    getTokenToEol sse42 buf = scanToEol buf := by
  have hpasses : Passes isCtl buf.rest
      (if sse42 then findCharFast sse42 eolRanges buf.rest else eolUnrolled buf.rest) := by
    cases sse42 with
    | true =>
        have hfast := passes_findCharFast true eolRanges buf.rest
        exact ⟨fun byte hbyte => inRanges_eol byte ▸ hfast.passed byte hbyte, fun hfound => by
          obtain ⟨byte, after, heq, hbyte⟩ := hfast.found hfound
          exact ⟨byte, after, heq, inRanges_eol byte ▸ hbyte⟩⟩
    | false => exact passes_eolUnrolled buf.rest
  have hslice := @Passes.scanSlice_eq buf isCtl isCtl (fun _ => true) _ hpasses
    fun byte hbyte => ⟨hbyte, rfl⟩
  unfold getTokenToEol scanToEol
  generalize (if sse42 then findCharFast sse42 eolRanges buf.rest else eolUnrolled buf.rest) =
    moved at hpasses hslice
  obtain ⟨skipped, found⟩ := moved
  rw [← hslice]
  cases found with
  | false => rfl
  | true =>
      obtain ⟨byte, after, heq, hbyte⟩ := hpasses.found rfl
      dsimp only at heq ⊢
      unfold scanSlice
      rw [heq, scanUntil_stop hbyte]
      simp [Except.map, BufPtr.skip, heq]

end Tokens

section Builds

theorem parseToken_builds {nextChar : UInt8} (hnext : nextChar = SP ∨ nextChar = COLON) :
    parseToken true nextChar = parseToken false nextChar :=
  funext fun buf => (parseToken_eq true hnext buf).trans (parseToken_eq false hnext buf).symm

theorem advanceToken_builds : advanceToken true = advanceToken false :=
  funext fun buf => (advanceToken_eq true buf).trans (advanceToken_eq false buf).symm

theorem getTokenToEol_builds : getTokenToEol true = getTokenToEol false :=
  funext fun buf => (getTokenToEol_eq true buf).trans (getTokenToEol_eq false buf).symm

theorem parseNameUnless_builds (continued : Bool) :
    (parseNameUnless continued true : Scan σ _) = parseNameUnless continued false := by
  unfold parseNameUnless parseName
  rw [parseToken_builds (.inr rfl)]

theorem parseHeaders_builds (room : ℕ) : parseHeaders true room = parseHeaders false room := by
  induction room with
  | zero =>
      unfold parseHeaders
      rfl
  | succ room ih =>
      unfold parseHeaders
      simp only [parseNameUnless_builds, getTokenToEol_builds, ih]

-- The build with SSE4.2 and the plain one parse every chunk alike.
theorem httpParseHeaders_builds (raw : RawData) (req : HttpRequest) (resp : HttpResponse) :
    httpParseRequestHeaders true raw req = httpParseRequestHeaders false raw req ∧
      httpParseResponseHeaders true raw resp = httpParseResponseHeaders false raw resp := by
  constructor
  · unfold httpParseRequestHeaders parseRequestLine
    rw [parseToken_builds (.inl rfl), advanceToken_builds]
    simp only [parseHeaders_builds]
  · unfold httpParseResponseHeaders parseResponseLine
    rw [getTokenToEol_builds]
    simp only [parseHeaders_builds]

end Builds

end Gopher.L7.Http
