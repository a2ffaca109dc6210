import Gopher.L7.Http.StringUtils
import Gopher.L7.Inference

namespace Gopher.L7.Http

open Gopher.Lib
open Gopher.L7.Inference (MessageType)

def ascii (text : String) : List UInt8 := text.toList.map Char.toUInt8

def HTTP_REQUEST_START_PATTERN_ARRAY : List String :=
  ["GET ", "HEAD ", "POST ", "PUT ", "DELETE ", "CONNECT ", "OPTIONS ", "TRACE ", "PATCH "]

def HTTP_RESPONSE_START_PATTERN_ARRAY : List String := ["HTTP/1.1 ", "HTTP/1.0 "]

-- "\r\n\r\n"
def BOUNDARY_MARKER : List UInt8 := [0x0d, 0x0a, 0x0d, 0x0a]

def startPatterns : MessageType → Option (List String)
  | .request => some HTTP_REQUEST_START_PATTERN_ARRAY
  | .response => some HTTP_RESPONSE_START_PATTERN_ARRAY
  | .unknow => none

structure PatternSearch where
  markerPos : ℕ
  substrPos : Option ℕ

-- One pattern that was found. Without a match before it `max_pos` is the greatest `size_t`.
def PatternSearch.takeMatch (currentSubstrPos : ℕ) (search : PatternSearch) : PatternSearch :=
  match search.substrPos with
  | none => { search with substrPos := some currentSubstrPos }
  | some maxPos =>
      if maxPos < currentSubstrPos then { search with markerPos := currentSubstrPos } else search

-- The table is as it lies in memory, an entry being `none` where it is NULL.
def searchPatterns (table : List (Option (List UInt8))) (buf : Mem) (markerPos : ℕ) :
    Except Fault PatternSearch := do
  let len ← getArrayLen table
  (table.take (len - 1)).foldlM (fun search entry =>
    match entry with
    | none => .error .outside
    | some pattern => do
        match ← rfindStr buf pattern with
        | none => return search
        | some currentSubstrPos => return search.takeMatch currentSubstrPos) ⟨markerPos, none⟩

-- One round: it goes on with a new position, or leaves with the boundary and the position
-- at that time.
def boundaryRound (table : List (Option (List UInt8))) (data : Mem) (startPos currentPos : ℕ) :
    ℕ ⊕ Except Fault (Option ℕ × ℕ) :=
  match findStr data BOUNDARY_MARKER currentPos with
  | .error fault => .inr (.error fault)
  | .ok none => .inr (.ok (none, currentPos))
  | .ok (some markerPos) =>
      -- The length is a `size_t`.
      let len := (UInt64.ofNat markerPos - UInt64.ofNat startPos).toNat
      match substr data startPos len >>= fun buf => searchPatterns table buf markerPos with
      | .error fault => .inr (.error fault)
      | .ok search =>
          match search.substrPos with
          | some substrPos => .inr (.ok (some (startPos + substrPos), currentPos))
          | none => .inl (search.markerPos + BOUNDARY_MARKER.length)

-- The arrays hold their patterns and nothing behind them.
def httpFindFrameBoundary (msgType : MessageType) (raw : RawData) (fuel : ℕ) :
    Option (Except Fault (Option ℕ × ℕ)) :=
  match startPatterns msgType with
  | none => some (.ok (none, raw.currentPos))
  | some patterns =>
      let table := patterns.map fun pattern => some (ascii pattern)
      loop (fun currentPos => some (boundaryRound table raw.data raw.currentPos currentPos)) fuel
        raw.currentPos

section Reference

def IsMarker (raw : RawData) (marker : ℕ) : Prop :=
  raw.currentPos ≤ marker ∧ OccursAt BOUNDARY_MARKER raw.data marker

-- A start pattern lies between the position of the chunk and a marker.
def IsStart (msgType : MessageType) (raw : RawData) (marker pos : ℕ) : Prop :=
  ∃ patterns, startPatterns msgType = some patterns ∧ ∃ pattern ∈ patterns,
    raw.currentPos ≤ pos ∧ pos + (ascii pattern).length ≤ marker ∧
      OccursAt (ascii pattern) raw.data pos

-- The start closest before the first marker that has one before it.
def IsFrameStart (msgType : MessageType) (raw : RawData) (pos : ℕ) : Prop :=
  ∃ marker, IsMarker raw marker ∧ IsStart msgType raw marker pos ∧
    (∀ other, IsStart msgType raw marker other → other ≤ pos) ∧
    ∀ earlier < marker, IsMarker raw earlier → ∀ other, ¬IsStart msgType raw earlier other

def Startless (msgType : MessageType) (raw : RawData) : Prop :=
  ∀ marker, IsMarker raw marker → ∀ pos, ¬IsStart msgType raw marker pos

def IsBoundary (msgType : MessageType) (raw : RawData) : Option ℕ → Prop
  | some pos => IsFrameStart msgType raw pos
  | none => Startless msgType raw

-- The search ends, stays inside the table and the chunk and gives the boundary.
def FindsBoundary (msgType : MessageType) (raw : RawData) : Prop :=
  ∃ fuel found currentPos,
    httpFindFrameBoundary msgType raw fuel = some (.ok (found, currentPos)) ∧
      IsBoundary msgType raw found

end Reference

section Search

-- The string in the chunk, up to its first zero.
def textOf (data : List UInt8) : List UInt8 := data.takeWhile fun byte => byte != 0

-- `find_str` comes to the end of the string without a marker, and to no index over the
-- greatest `int`.
def Unmarked (raw : RawData) : Prop :=
  0 ∈ raw.data ∧ ∀ i : ℕ, Int.bmod raw.currentPos (2 ^ 32) = i →
    (∀ pos, i ≤ pos → ¬OccursAt BOUNDARY_MARKER (textOf raw.data) pos) ∧
      (i + BOUNDARY_MARKER.length ≤ (textOf raw.data).length →
        (textOf raw.data).length < INT_MAX + BOUNDARY_MARKER.length)

theorem strlen_eq {data : List UInt8} (h : 0 ∈ data) : strlen data = .ok (textOf data).length := by
  have hlen : data.findIdx? (fun byte => byte == 0) = some (textOf data).length := by
    induction data with
    | nil => cases h
    | cons byte data ih =>
        rw [List.findIdx?_cons, textOf]
        by_cases hbyte : byte = 0
        · simp [hbyte]
        · have hmem : 0 ∈ data := (List.mem_cons.mp h).resolve_left (Ne.symm hbyte)
          have hrest := ih hmem
          rw [textOf] at hrest
          simp [hbyte, hrest]
  rw [strlen, hlen]

theorem take_textOf (data : List UInt8) : data.take (textOf data).length = textOf data :=
  (List.prefix_iff_eq_take.mp (List.takeWhile_prefix _)).symm

theorem strlen_outside {data : List UInt8} (h : 0 ∉ data) : strlen data = .error .outside := by
  have hnone : data.findIdx? (fun byte => byte == 0) = none := by
    rw [List.findIdx?_eq_none_iff]
    intro byte hbyte
    rw [beq_eq_false_iff_ne]
    rintro rfl
    exact h hbyte
  rw [strlen, hnone]

theorem findStr_eq_none_iff (raw : RawData) :
    findStr raw.data BOUNDARY_MARKER raw.currentPos = .ok none ↔ Unmarked raw := by
  unfold Unmarked
  by_cases hzero : 0 ∈ raw.data
  · rw [findStr_eq (strlen_eq hzero), take_textOf]
    have hlt := Int.bmod_lt (x := (raw.currentPos : ℤ)) (m := 2 ^ 32) (by decide)
    generalize Int.bmod raw.currentPos (2 ^ 32) = start at hlt ⊢
    by_cases hnone : (textOf raw.data).length < BOUNDARY_MARKER.length ∨ start < 0
    · rw [if_pos hnone]
      refine iff_of_true rfl ⟨hzero, fun i hi => ⟨fun pos hpos hoccurs => ?_, fun h => ?_⟩⟩
      · have hend := hoccurs.le (by decide)
        omega
      · omega
    · obtain ⟨i, rfl⟩ : ∃ i : ℕ, start = i := ⟨start.toNat, by omega⟩
      rw [if_neg hnone, Int.toNat_natCast,
        findStrLoop_eq_none_iff (by decide) (by unfold INT_MAX; omega)]
      constructor
      · intro h
        refine ⟨hzero, fun i' hi => ?_⟩
        cases hi
        exact h
      · intro h
        exact h.2 i rfl
  · unfold findStr
    rw [strlen_outside hzero]
    refine iff_of_false ?_ fun h => hzero h.1
    intro h
    cases h

-- An array without NULL is read beyond its end.
theorem getArrayLen_outside {α : Type} (arr : List α) :
    getArrayLen (arr.map some) = .error .outside := by
  induction arr with
  | nil => rfl
  | cons entry arr ih =>
      rw [List.map_cons, getArrayLen, ih]
      rfl

theorem searchPatterns_outside (patterns : List String) (buf : Mem) (markerPos : ℕ) :
    searchPatterns (patterns.map fun pattern => some (ascii pattern)) buf markerPos =
      .error .outside := by
  have htable : (patterns.map fun pattern => some (ascii pattern)) =
      (patterns.map ascii).map some := by
    rw [List.map_map]
    rfl
  unfold searchPatterns
  rw [htable, getArrayLen_outside]
  rfl

-- A round never gets to a second one.
theorem boundaryRound_cases (patterns : List String) (data : Mem) (startPos currentPos : ℕ) :
    (findStr data BOUNDARY_MARKER currentPos = .ok none ∧
      boundaryRound (patterns.map fun pattern => some (ascii pattern)) data startPos currentPos =
        .inr (.ok (none, currentPos))) ∨
    (findStr data BOUNDARY_MARKER currentPos ≠ .ok none ∧ ∃ fault,
      boundaryRound (patterns.map fun pattern => some (ascii pattern)) data startPos currentPos =
        .inr (.error fault)) := by
  unfold boundaryRound
  cases findStr data BOUNDARY_MARKER currentPos with
  | error fault => exact .inr ⟨by simp, fault, rfl⟩
  | ok found =>
      cases found with
      | none => exact .inl ⟨rfl, rfl⟩
      | some markerPos =>
          refine .inr ⟨by simp, ?_⟩
          dsimp only
          cases substr data startPos
              (UInt64.ofNat markerPos - UInt64.ofNat startPos).toNat with
          | error fault => exact ⟨fault, rfl⟩
          | ok buf =>
              refine ⟨.outside, ?_⟩
              change (match searchPatterns _ buf markerPos with | .error _ => _ | .ok _ => _) = _
              rw [searchPatterns_outside]

theorem httpFindFrameBoundary_eq_ok_iff {msgType : MessageType} {patterns : List String}
    (hpatterns : startPatterns msgType = some patterns) (raw : RawData) (found : Option ℕ) :
    (∃ fuel currentPos,
      httpFindFrameBoundary msgType raw fuel = some (.ok (found, currentPos))) ↔
      found = none ∧ Unmarked raw := by
  rw [← findStr_eq_none_iff]
  unfold httpFindFrameBoundary
  rw [hpatterns]
  dsimp only
  obtain ⟨hnone, hround⟩ | ⟨hsome, fault, hround⟩ :=
    boundaryRound_cases patterns raw.data raw.currentPos raw.currentPos
  · constructor
    · rintro ⟨fuel, currentPos, hrun⟩
      cases fuel with
      | zero => cases hrun
      | succ fuel =>
          rw [Loop.loop_succ, hround] at hrun
          cases hrun
          exact ⟨rfl, hnone⟩
    · rintro ⟨rfl, -⟩
      refine ⟨1, raw.currentPos, ?_⟩
      rw [Loop.loop_succ, hround]
  · constructor
    · rintro ⟨fuel, currentPos, hrun⟩
      cases fuel with
      | zero => cases hrun
      | succ fuel =>
          rw [Loop.loop_succ, hround] at hrun
          cases hrun
    · rintro ⟨-, hnone⟩
      exact absurd hnone hsome

end Search

section Boundaries

theorem findsBoundary_iff_of_patterns {msgType : MessageType} {patterns : List String}
    (hpatterns : startPatterns msgType = some patterns) (raw : RawData) :
    FindsBoundary msgType raw ↔ Unmarked raw ∧ Startless msgType raw := by
  constructor
  · rintro ⟨fuel, found, currentPos, hrun, hboundary⟩
    obtain ⟨rfl, hnone⟩ :=
      (httpFindFrameBoundary_eq_ok_iff hpatterns raw found).mp ⟨fuel, currentPos, hrun⟩
    exact ⟨hnone, hboundary⟩
  · rintro ⟨hnone, hstartless⟩
    obtain ⟨fuel, currentPos, hrun⟩ :=
      (httpFindFrameBoundary_eq_ok_iff hpatterns raw none).mpr ⟨rfl, hnone⟩
    exact ⟨fuel, none, currentPos, hrun, hstartless⟩

theorem findsBoundary_unknow (raw : RawData) : FindsBoundary .unknow raw := by
  refine ⟨0, none, raw.currentPos, rfl, fun marker _ pos hstart => ?_⟩
  obtain ⟨patterns, hpatterns, -⟩ := hstart
  cases hpatterns

-- The boundary is found if there is nothing to look for, or if there is none and the search
-- for a marker comes to an end in front of a zero in the chunk.
theorem httpFindFrameBoundary_iff (msgType : MessageType) (raw : RawData) :
    FindsBoundary msgType raw ↔
      msgType = .unknow ∨ (Unmarked raw ∧ Startless msgType raw) := by
  cases msgType with
  | unknow => exact iff_of_true (findsBoundary_unknow raw) (.inl rfl)
  | request =>
      rw [findsBoundary_iff_of_patterns rfl]
      exact (or_iff_right (by simp)).symm
  | response =>
      rw [findsBoundary_iff_of_patterns rfl]
      exact (or_iff_right (by simp)).symm

-- GET / HTTP/1.1 and the blank line behind it.
def getChunk : RawData :=
  .create [0x47, 0x45, 0x54, 0x20, 0x2f, 0x20, 0x48, 0x54, 0x54, 0x50, 0x2f, 0x31, 0x2e, 0x31, 0x0d,
    0x0a, 0x0d, 0x0a] 0

-- The length of the chunk is looked for behind its end.
theorem getChunk_not_found : ¬∀ msgType raw, FindsBoundary msgType raw := by
  intro h
  have hnone := ((findsBoundary_iff_of_patterns rfl getChunk).mp (h .request getChunk)).1
  exact absurd hnone.1 (by decide)

end Boundaries

end Gopher.L7.Http
