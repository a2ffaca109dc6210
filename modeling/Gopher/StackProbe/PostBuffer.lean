import Gopher.Meta
import Gopher.StackProbe.Histo

namespace Gopher.StackProbe.PostBuffer

open Gopher.Lib Gopher.Lib.CharBuffer
open Gopher.Meta (snprintf)
open Gopher.StackProbe.Histo (STACK_SYMBS_LEN)

def HISTO_TMP_LEN : ℕ := 2 * STACK_SYMBS_LEN
def POST_MAX_STEP_SIZE : Int32 := 1048576

-- The cast of an `int` to `size_t`.
def sizeT (n : Int32) : ℕ := (n.toInt % 2 ^ 64).toNat

-- What the C library gives: no object is larger than PTRDIFF_MAX, and `realloc` keeps what
-- there is room for. What stands behind that may be anything.
structure Heap where
  malloc : ℕ → Option CharBuffer
  realloc : CharBuffer → ℕ → Option CharBuffer
  malloc_length : ∀ size memory, malloc size = some memory → memory.length = size
  malloc_lt : ∀ size memory, malloc size = some memory → size < 2 ^ 63
  realloc_length : ∀ before size memory, realloc before size = some memory → memory.length = size
  realloc_lt : ∀ before size memory, realloc before size = some memory → size < 2 ^ 63
  realloc_take : ∀ before size memory, realloc before size = some memory →
    before.take size <+: memory

structure StackTraceHisto where
  stackSymbsStr : Text
  count : UInt64
  fits : stackSymbsStr.length < STACK_SYMBS_LEN
  noNul : '\x00' ∉ stackSymbsStr

inductive Message
  -- "[STACKPROBE]: Invalid fp.\n"
  | invalidFp
  -- "[STACKPROBE]: Not enough post memory (realloc failed), current capacity is %d.\n"
  | notEnough (capacity : Int32)
  -- "[STACKPROBE]: post memory realloc to %d\n"
  | realloced (capacity : Int32)
  deriving DecidableEq

-- `post` is `none` while `post_flag` is not set; its place is `buf - buf_start`. `fp` is what
-- has been written to the file, or `none` where it is NULL.
structure State where
  gPostMax : Int32
  post : Option Dest
  fp : Option Text
  log : List Message

def histoTmpStr (first : Bool) (histo : StackTraceHisto) : Text :=
  truncated HISTO_TMP_LEN ((if first then [] else ['\n']) ++ histo.stackSymbsStr ++
    ' ' :: decimalText histo.count.toNat)

-- The block under `post_flag`. `none` is a write outside the buffer.
def appendPost (heap : Heap) (str : Text) (st : State) (dest : Dest) : Option State := do
  let (dest, printed) ← snprintf str dest
  if printed then return { st with post := some dest }
  let newPostMax := st.gPostMax + POST_MAX_STEP_SIZE
  match heap.realloc dest.buffer (sizeT newPostMax) with
  | none => return { st with post := some dest, log := st.log ++ [.notEnough st.gPostMax] }
  | some temp =>
      let (dest, _) ← snprintf str ⟨temp, dest.place, dest.size + POST_MAX_STEP_SIZE.toInt⟩
      return { st with
        gPostMax := newPostMax, post := some dest, log := st.log ++ [.realloced newPostMax] }

def doWrStackHisto (heap : Heap) (histo : StackTraceHisto) (first : Bool) (st : State) :
    Option (State × ℤ) :=
  match st.fp with
  | none => some ({ st with log := st.log ++ [.invalidFp] }, -1)
  | some written => do
      let str := histoTmpStr first histo
      let st ← match st.post with
        | none => some st
        | some dest => appendPost heap str st dest
      return ({ st with fp := some (written ++ str) }, 0)

def iterHistoTbl (heap : Heap) : List StackTraceHisto → (first : Bool) → State → Option State
  | [], _, st => some st
  | item :: items, first, st => do
      let (st, _) ← doWrStackHisto heap item first st
      iterHistoTbl heap items false st

-- `postEnable` is `none` without a server; `curl` says whether `curl_easy_init` gives a handle.
def initCurlHandle (heap : Heap) (postEnable : Option Bool) (curl : Bool) (st : State) :
    Option State :=
  if postEnable = some true ∧ curl = true then
    match heap.malloc (sizeT st.gPostMax) with
    | none => some st
    | some memory => do
        let buffer ← memory.put 0 ['\x00']
        return { st with post := some ⟨buffer, 0, st.gPostMax.toInt⟩ }
  else some st

-- `__do_wr_flamegraph` up to the end of `iter_histo_tbl`.
def doWrFlamegraph (heap : Heap) (postEnable : Option Bool) (curl flameGraphNew : Bool)
    (histoTbl : List StackTraceHisto) (gPostMax : Int32) (fp : Option Text) : Option State := do
  let st ← initCurlHandle heap postEnable curl ⟨gPostMax, none, fp, []⟩
  iterHistoTbl heap histoTbl flameGraphNew st

section Printing

variable {dest : Dest} {text : Text}

theorem snprintf_cut (str : Text) (hroom : dest.HasRoom) (hcut : dest.size ≤ str.length) :
    ∃ buffer, snprintf str dest = some ({ dest with buffer := buffer }, false) ∧
      buffer.length = dest.buffer.length ∧
      buffer.take dest.place = dest.buffer.take dest.place := by
  have hsize := hroom.size_nonneg
  have hinside := hroom.inside
  rw [snprintf]
  by_cases hzero : dest.size ≤ 0
  · rw [if_pos hzero]
    exact ⟨dest.buffer, rfl, rfl, rfl⟩
  · rw [if_neg hzero]
    obtain ⟨buffer, hbuffer, hprinted, -⟩ := Printed.of_vsnprintf
      (show dest.place + dest.size.toNat ≤ dest.buffer.length by omega) str
    refine ⟨buffer, ?_, hprinted.length_eq, ?_⟩
    · rw [Fill.snprintf, if_neg (by omega), hbuffer]
      simp only [Option.bind_eq_bind, Option.bind_some, pure]
      rw [if_pos hcut]
    · have htake := congrArg (List.take dest.place) hprinted.take_eq
      rw [List.take_take, min_eq_left (by omega),
        List.take_left' (by rw [List.length_take]; omega)] at htake
      exact htake

-- The pointers and the room left account for all that is allocated, and no more.
structure Whole (gPostMax : Int32) (dest : Dest) : Prop where
  size_nonneg : 0 ≤ dest.size
  whole : dest.place + dest.size = dest.buffer.length
  capacity : (dest.buffer.length : ℤ) = gPostMax.toInt

theorem Whole.hasRoom {gPostMax : Int32} (h : Whole gPostMax dest) : dest.HasRoom :=
  ⟨h.size_nonneg, h.whole.le⟩

-- The text stands at the front with its NUL, and more can be written behind it.
structure Filled (dest : Dest) (text : Text) : Prop where
  place_eq : dest.place = text.length
  size_pos : 0 < dest.size
  take_eq : dest.buffer.take (text.length + 1) = text ++ ['\x00']

theorem Filled.cString (h : Filled dest text) (htext : '\x00' ∉ text) :
    dest.buffer.cString 0 = some text := by
  have hprinted : Printed dest.buffer 0 (text ++ ['\x00']) dest.buffer := by
    refine ⟨rfl, ?_⟩
    rw [Nat.zero_add, List.length_append, List.length_singleton, h.take_eq, List.take_zero,
      List.nil_append]
  exact hprinted.cString (Nat.zero_le _) htext

theorem Filled.take_place (h : Filled dest text) : dest.buffer.take dest.place = text := by
  have htake := congrArg (List.take text.length) h.take_eq
  rw [List.take_take, min_eq_left (by omega), List.take_left] at htake
  rw [h.place_eq, htake]

-- A text that fits is printed behind what stands there.
theorem snprintf_fits {gPostMax : Int32} (str : Text) (h : Whole gPostMax dest)
    (hfits : str.length < dest.size) :
    ∃ after, snprintf str dest = some (after, true) ∧ Whole gPostMax after ∧
      ∀ text : Text, dest.place = text.length → dest.buffer.take dest.place = text →
        Filled after (text ++ str) := by
  have hwhole := h.whole
  have hcapacity := h.capacity
  obtain ⟨after, hrun, hmoved⟩ := (Gopher.Meta.prints_snprintf' str).fits h.hasRoom (by omega)
  have hplace := hmoved.place_eq
  have hsize := hmoved.size_eq
  have hlength := hmoved.printed.length_eq
  refine ⟨after, hrun, ⟨by omega, by omega, by omega⟩, fun text hstart htake => ⟨?_, by omega, ?_⟩⟩
  · rw [hplace, List.length_append, hstart]
  · have hprinted := hmoved.printed.take_eq
    rw [htake, hstart, List.length_append, List.length_singleton] at hprinted
    rw [List.length_append, Nat.add_assoc, hprinted, List.append_assoc]

end Printing

section Growth

variable {heap : Heap} {st : State} {dest : Dest} {str : Text}

theorem postMaxStepSize_toInt : POST_MAX_STEP_SIZE.toInt = 1048576 := by decide

-- A capacity that overflows asks for more than there can be.
theorem newPostMax_toInt {gPostMax : Int32} (hnonneg : 0 ≤ gPostMax.toInt)
    (hlt : sizeT (gPostMax + POST_MAX_STEP_SIZE) < 2 ^ 63) :
    (gPostMax + POST_MAX_STEP_SIZE).toInt = gPostMax.toInt + 1048576 ∧
      (sizeT (gPostMax + POST_MAX_STEP_SIZE) : ℤ) = gPostMax.toInt + 1048576 := by
  have hbound := gPostMax.toInt_lt
  have hsum := Int32.toInt_add gPostMax POST_MAX_STEP_SIZE
  rw [postMaxStepSize_toInt, Int.bmod_def] at hsum
  rw [sizeT] at hlt ⊢
  split at hsum <;> omega

-- The buffer after the capacity has grown, before the second try.
theorem Whole.grow (h : Whole st.gPostMax dest) {buffer temp : CharBuffer}
    (hlength : buffer.length = dest.buffer.length)
    (htemp : heap.realloc buffer (sizeT (st.gPostMax + POST_MAX_STEP_SIZE)) = some temp) :
    Whole (st.gPostMax + POST_MAX_STEP_SIZE)
        ⟨temp, dest.place, dest.size + POST_MAX_STEP_SIZE.toInt⟩ ∧
      temp.take dest.place = buffer.take dest.place := by
  have hwhole := h.whole
  have hsize := h.size_nonneg
  have hcapacity := h.capacity
  have hnew := heap.realloc_length _ _ _ htemp
  obtain ⟨hmax, hsizeT⟩ := newPostMax_toInt (by omega) (heap.realloc_lt _ _ _ htemp)
  refine ⟨⟨?_, ?_, ?_⟩, ?_⟩
  · dsimp only
    rw [postMaxStepSize_toInt]
    omega
  · dsimp only
    rw [postMaxStepSize_toInt]
    omega
  · dsimp only
    omega
  · obtain ⟨behind, hbehind⟩ := heap.realloc_take _ _ _ htemp
    rw [List.take_of_length_le (by omega)] at hbehind
    rw [← hbehind, List.take_append_of_le_length (by omega)]

-- Whether every `realloc` so far has succeeded.
def State.Granted (st : State) : Prop := ∀ capacity, .notEnough capacity ∉ st.log

structure Appended (st : State) (dest : Dest) (str : Text) (after : State) (dest' : Dest) : Prop where
  post_eq : after.post = some dest'
  fp_eq : after.fp = st.fp
  whole : Whole after.gPostMax dest'
  log_prefix : st.log <+: after.log
  filled : ∀ text, after.Granted → Filled dest text → Filled dest' (text ++ str)

theorem appended_appendPost (heap : Heap) (h : Whole st.gPostMax dest) (hstr : str.length < 1048576) :
    ∃ after dest', appendPost heap str st dest = some after ∧ Appended st dest str after dest' := by
  rw [appendPost]
  by_cases hfits : str.length < dest.size
  · obtain ⟨after, hrun, hwhole, hafter⟩ := snprintf_fits str h hfits
    refine ⟨{ st with post := some after }, after, ?_, rfl, rfl, hwhole, List.prefix_refl _, ?_⟩
    · simp [hrun]
    · exact fun text _ hfilled => hafter text hfilled.place_eq hfilled.take_place
  · obtain ⟨buffer, hrun, hlength, htake⟩ := snprintf_cut str h.hasRoom (by omega)
    rw [hrun]
    simp only [Option.bind_eq_bind, Option.bind_some, Bool.false_eq_true, if_false]
    cases htemp : heap.realloc buffer (sizeT (st.gPostMax + POST_MAX_STEP_SIZE)) with
    | none =>
        refine ⟨_, _, rfl, rfl, rfl, ⟨h.size_nonneg, ?_, ?_⟩, List.prefix_append _ _, ?_⟩
        · rw [hlength]
          exact h.whole
        · rw [hlength]
          exact h.capacity
        · exact fun text hgranted => absurd (List.mem_append_right _ List.mem_cons_self)
            (hgranted st.gPostMax)
    | some temp =>
        obtain ⟨hgrown, hkept⟩ := h.grow hlength htemp
        have hsize := h.size_nonneg
        obtain ⟨after, hretry, hwhole, hafter⟩ := snprintf_fits str hgrown
          (by dsimp only; rw [postMaxStepSize_toInt]; omega)
        refine ⟨⟨st.gPostMax + POST_MAX_STEP_SIZE, some after, st.fp,
          st.log ++ [.realloced (st.gPostMax + POST_MAX_STEP_SIZE)]⟩, after, ?_, ?_⟩
        · simp [hretry]
        refine ⟨rfl, rfl, hwhole, List.prefix_append _ _, ?_⟩
        · intro text _ hfilled
          exact hafter text hfilled.place_eq (hkept.trans (htake.trans hfilled.take_place))

-- A line that does not fit at first, when there is more memory.
theorem realloced_of_appendPost {cut : Dest} {temp : CharBuffer} {after : State}
    (h : appendPost heap str st dest = some after) (hcut : snprintf str dest = some (cut, false))
    (htemp : heap.realloc cut.buffer (sizeT (st.gPostMax + POST_MAX_STEP_SIZE)) = some temp) :
    after.gPostMax = st.gPostMax + POST_MAX_STEP_SIZE ∧
      after.log = st.log ++ [.realloced (st.gPostMax + POST_MAX_STEP_SIZE)] ∧
      after.post.isSome = true := by
  simp only [appendPost, hcut, htemp, Option.bind_eq_bind, Option.bind_some, Bool.false_eq_true,
    if_false] at h
  obtain ⟨printed, -, hafter⟩ := Option.bind_eq_some_iff.mp h
  rw [← Option.some_inj.mp hafter]
  exact ⟨rfl, rfl, rfl⟩

end Growth

section Lines

theorem length_histoTmpStr_lt (first : Bool) (histo : StackTraceHisto) :
    (histoTmpStr first histo).length < 1048576 := by
  have hlength := length_truncated_le HISTO_TMP_LEN
    ((if first then [] else ['\n']) ++ histo.stackSymbsStr ++ ' ' :: decimalText histo.count.toNat)
  have hroom : HISTO_TMP_LEN - 1 < 1048576 := by decide
  exact Nat.lt_of_le_of_lt hlength hroom

theorem noNul_histoTmpStr (first : Bool) (histo : StackTraceHisto) :
    '\x00' ∉ histoTmpStr first histo := by
  intro hmem
  have hmem := List.mem_of_mem_take hmem
  rw [List.mem_append, List.mem_append, List.mem_cons] at hmem
  rcases hmem with (hbreak | hstr) | hblank | hdigits
  · cases first <;> simp at hbreak
  · exact histo.noNul hstr
  · exact absurd hblank (by decide)
  · rcases mem_decimalText hdigits with hminus | hdigit
    · exact absurd hminus (by decide)
    · exact absurd hdigit (by decide)

-- The texts of the lines, of which only the first has no line break in front.
def lines : (first : Bool) → List StackTraceHisto → List Text
  | _, [] => []
  | first, histo :: histoTbl => histoTmpStr first histo :: lines false histoTbl

end Lines

section Runs

variable {st after : State} {text : Text}

theorem doWrStackHisto_posts {heap : Heap} {histo : StackTraceHisto} {first : Bool}
    {written : Text} {dest : Dest} (hfp : st.fp = some written) (hpost : st.post = some dest) :
    doWrStackHisto heap histo first st =
      (appendPost heap (histoTmpStr first histo) st dest).map fun after =>
        ({ after with fp := some (written ++ histoTmpStr first histo) }, 0) := by
  simp only [doWrStackHisto, hfp, hpost]
  exact Option.map_eq_bind.symm

theorem iterHistoTbl_cons (heap : Heap) (item : StackTraceHisto) (items : List StackTraceHisto)
    (first : Bool) (st : State) :
    iterHistoTbl heap (item :: items) first st =
      (doWrStackHisto heap item first st).bind fun done => iterHistoTbl heap items false done.1 :=
  rfl

theorem doWrFlamegraph_eq (heap : Heap) (postEnable : Option Bool) (curl flameGraphNew : Bool)
    (histoTbl : List StackTraceHisto) (gPostMax : Int32) (fp : Option Text) :
    doWrFlamegraph heap postEnable curl flameGraphNew histoTbl gPostMax fp =
      (initCurlHandle heap postEnable curl ⟨gPostMax, none, fp, []⟩).bind
        fun st => iterHistoTbl heap histoTbl flameGraphNew st :=
  rfl

-- The post buffer holds what has been written since it was made, unless a `realloc` failed.
def Holds (st : State) (text : Text) : Prop :=
  ∀ dest, st.post = some dest → Whole st.gPostMax dest ∧ (st.Granted → Filled dest text)

theorem State.Granted.of_prefix (h : after.Granted) (hstarts : st.log <+: after.log) : st.Granted :=
  fun capacity hmem => h capacity (hstarts.subset hmem)

theorem holds_doWrStackHisto (heap : Heap) (h : Holds st text) (written : Text) (hfp : st.fp = some written)
    (first : Bool) (histo : StackTraceHisto) :
    ∃ after, doWrStackHisto heap histo first st = some (after, 0) ∧
      after.fp = some (written ++ histoTmpStr first histo) ∧
      Holds after (text ++ histoTmpStr first histo) := by
  cases hpost : st.post with
  | none =>
      rw [doWrStackHisto, hfp, hpost]
      refine ⟨_, rfl, rfl, fun dest hdest => ?_⟩
      exact absurd (hpost.symm.trans hdest) (by simp)
  | some dest =>
      obtain ⟨hwhole, hfilled⟩ := h dest hpost
      obtain ⟨after, dest', hrun, happended⟩ :=
        appended_appendPost heap hwhole (length_histoTmpStr_lt first histo)
      refine ⟨{ after with fp := some (written ++ histoTmpStr first histo) }, ?_, rfl, ?_⟩
      · rw [doWrStackHisto_posts hfp hpost, hrun, Option.map_some]
      · intro other hother
        cases happended.post_eq.symm.trans hother
        refine ⟨happended.whole, fun hgranted => ?_⟩
        have hbefore : st.Granted := State.Granted.of_prefix hgranted happended.log_prefix
        exact happended.filled text hgranted (hfilled hbefore)

theorem holds_iterHistoTbl (heap : Heap) (h : Holds st text) (written : Text) (hfp : st.fp = some written)
    (first : Bool) (histoTbl : List StackTraceHisto) :
    ∃ after, iterHistoTbl heap histoTbl first st = some after ∧
      after.fp = some (written ++ (lines first histoTbl).flatten) ∧
      Holds after (text ++ (lines first histoTbl).flatten) := by
  induction histoTbl generalizing first st text written with
  | nil =>
      refine ⟨st, rfl, ?_, ?_⟩
      · rw [hfp, lines, List.flatten_nil, List.append_nil]
      · rw [lines, List.flatten_nil, List.append_nil]
        exact h
  | cons histo histoTbl ih =>
      obtain ⟨middle, hrun, hmiddleFp, hmiddle⟩ :=
        holds_doWrStackHisto heap h written hfp first histo
      obtain ⟨after, hrest, hafterFp, hafter⟩ := ih hmiddle _ hmiddleFp false
      refine ⟨after, ?_, ?_, ?_⟩
      · rw [iterHistoTbl_cons, hrun, Option.bind_some, hrest]
      · rw [hafterFp, lines, List.flatten_cons, List.append_assoc]
      · rw [lines, List.flatten_cons, ← List.append_assoc]
        exact hafter

-- Without a file nothing is written anywhere.
theorem holds_iterHistoTbl_none (heap : Heap) (h : Holds st text) (hfp : st.fp = none) (first : Bool)
    (histoTbl : List StackTraceHisto) :
    ∃ after, iterHistoTbl heap histoTbl first st = some after ∧ after.fp = none ∧
      Holds after text := by
  induction histoTbl generalizing first st with
  | nil => exact ⟨st, rfl, hfp, h⟩
  | cons histo histoTbl ih =>
      have hmiddle : Holds { st with log := st.log ++ [.invalidFp] } text := by
        intro dest hdest
        obtain ⟨hwhole, hfilled⟩ := h dest hdest
        refine ⟨hwhole, fun hgranted => hfilled (hgranted.of_prefix (List.prefix_append _ _))⟩
      obtain ⟨after, hrest, hafterFp, hafter⟩ := ih hmiddle hfp false
      refine ⟨after, ?_, hafterFp, hafter⟩
      simp only [hfp] at hrest
      simp [iterHistoTbl, doWrStackHisto, hfp, hrest]

theorem noNul_lines (first : Bool) (histoTbl : List StackTraceHisto) :
    '\x00' ∉ (lines first histoTbl).flatten := by
  induction histoTbl generalizing first with
  | nil => simp [lines]
  | cons histo histoTbl ih =>
      rw [lines, List.flatten_cons, List.mem_append, not_or]
      exact ⟨noNul_histoTmpStr first histo, ih false⟩

theorem holds_initCurlHandle {gPostMax : Int32} (heap : Heap) (hcapacity : gPostMax ≠ 0)
    (postEnable : Option Bool) (curl : Bool) (fp : Option Text) :
    ∃ start, initCurlHandle heap postEnable curl ⟨gPostMax, none, fp, []⟩ = some start ∧
      start.fp = fp ∧ Holds start [] := by
  have hnone : Holds ⟨gPostMax, none, fp, []⟩ [] := fun dest hdest => by cases hdest
  rw [initCurlHandle]
  by_cases hposts : postEnable = some true ∧ curl = true
  · rw [if_pos hposts]
    dsimp only
    cases hmalloc : heap.malloc (sizeT gPostMax) with
    | none => exact ⟨_, rfl, rfl, hnone⟩
    | some memory =>
        have hlength := heap.malloc_length _ _ hmalloc
        have hlimit := heap.malloc_lt _ _ hmalloc
        have hbound := gPostMax.toInt_lt
        have hlow := gPostMax.le_toInt
        have hne : gPostMax.toInt ≠ 0 := fun hzero =>
          hcapacity (Int32.toInt_inj.mp hzero)
        rw [sizeT] at hlength hlimit
        have hroom : 0 + ['\x00'].length ≤ memory.length := by
          rw [List.length_singleton]
          omega
        obtain ⟨buffer, hput, hprinted⟩ := Printed.of_put hroom
        have hbuffer := hprinted.length_eq
        refine ⟨⟨gPostMax, some ⟨buffer, 0, gPostMax.toInt⟩, fp, []⟩, ?_, rfl, ?_⟩
        · simp [hput]
        · intro dest hdest
          cases hdest
          refine ⟨⟨?_, ?_, ?_⟩, fun _ => ⟨rfl, ?_, hprinted.take_eq⟩⟩ <;> dsimp only <;> omega
  · rw [if_neg hposts]
    exact ⟨_, rfl, rfl, hnone⟩

-- What a run has written to the file.
def writtenText (fp : Option Text) (flameGraphNew : Bool) (histoTbl : List StackTraceHisto) : Text :=
  if fp.isSome then (lines flameGraphNew histoTbl).flatten else []

-- The capacity starts at POST_MAX_STEP_SIZE and only grows; with 0 there is no room for the NUL
-- that is written first. The first entries of a table are a table too, so this holds after each of
-- them; `Whole.grow` says it of the moment between the growth and the second try.
theorem doWrFlamegraph_posts (gPostMax : Int32) (hcapacity : gPostMax ≠ 0) (heap : Heap)
    (postEnable : Option Bool) (curl flameGraphNew : Bool) (histoTbl : List StackTraceHisto)
    (fp : Option Text) : ∃ after,
      doWrFlamegraph heap postEnable curl flameGraphNew histoTbl gPostMax fp = some after ∧
        after.fp = fp.map (· ++ (lines flameGraphNew histoTbl).flatten) ∧
        ∀ dest, after.post = some dest →
          dest.place + dest.size = dest.buffer.length ∧
            (dest.buffer.length : ℤ) = after.gPostMax.toInt ∧
            (after.Granted → dest.buffer.cString 0 = some (writtenText fp flameGraphNew histoTbl)) := by
  obtain ⟨start, hinit, hfp, hstart⟩ :=
    holds_initCurlHandle heap hcapacity postEnable curl fp
  cases fp with
  | none =>
      obtain ⟨after, hiter, hafterFp, hafter⟩ :=
        holds_iterHistoTbl_none heap hstart hfp flameGraphNew histoTbl
      refine ⟨after, ?_, hafterFp, fun dest hdest => ?_⟩
      · rw [doWrFlamegraph_eq, hinit, Option.bind_some, hiter]
      · obtain ⟨hwhole, hfilled⟩ := hafter dest hdest
        exact ⟨hwhole.whole, hwhole.capacity, fun hgranted =>
          (hfilled hgranted).cString (by simp)⟩
  | some written =>
      obtain ⟨after, hiter, hafterFp, hafter⟩ :=
        holds_iterHistoTbl heap hstart written hfp flameGraphNew histoTbl
      refine ⟨after, ?_, hafterFp, fun dest hdest => ?_⟩
      · rw [doWrFlamegraph_eq, hinit, Option.bind_some, hiter]
      · obtain ⟨hwhole, hfilled⟩ := hafter dest hdest
        exact ⟨hwhole.whole, hwhole.capacity, fun hgranted =>
          (hfilled hgranted).cString (noNul_lines flameGraphNew histoTbl)⟩

end Runs

section Example

def plainHeap : Heap where
  malloc size := if size < 2 ^ 63 then some (List.replicate size 'x') else none
  realloc before size :=
    if size < 2 ^ 63 then some (before.take size ++ List.replicate (size - before.length) 'x')
    else none
  malloc_length size memory h := by
    split at h <;> cases h
    exact List.length_replicate
  malloc_lt size memory h := by
    split at h <;> cases h
    assumption
  realloc_length before size memory h := by
    split at h <;> cases h
    rw [List.length_append, List.length_take, List.length_replicate]
    omega
  realloc_lt before size memory h := by
    split at h <;> cases h
    assumption
  realloc_take before size memory h := by
    split at h <;> cases h
    exact List.prefix_append _ _

theorem realloc_plainHeap (before : CharBuffer) {size : ℕ} (hsize : size < 2 ^ 63) :
    plainHeap.realloc before size =
      some (before.take size ++ List.replicate (size - before.length) 'x') :=
  if_pos hsize

def shellHisto : StackTraceHisto where
  stackSymbsStr := "[1]sh; main".toList
  count := 5
  fits := by decide +kernel
  noNul := by decide +kernel

def shellDest : Dest := ⟨"[1]sh; main 5".toList ++ "\x00xx".toList, 13, 3⟩

def shellStart : State := ⟨16, some ⟨'\x00' :: List.replicate 15 'x', 0, 16⟩, some [], []⟩

def shellFirst : State := ⟨16, some shellDest, some "[1]sh; main 5".toList, []⟩

theorem initCurlHandle_shell :
    initCurlHandle plainHeap (some true) true ⟨16, none, some [], []⟩ = some shellStart := rfl

theorem doWrStackHisto_shell :
    doWrStackHisto plainHeap shellHisto true shellStart = some (shellFirst, 0) := rfl

theorem snprintf_shell : snprintf (histoTmpStr false shellHisto) shellDest =
    some (⟨"[1]sh; main 5\n[\x00".toList, 13, 3⟩, false) := rfl

-- The first line fits, the second one has the buffer grow.
theorem grows_shell {after : State}
    (hrun : doWrFlamegraph plainHeap (some true) true true [shellHisto, shellHisto] 16 (some []) =
      some after) :
    after.gPostMax = 1048592 ∧ after.log = [.realloced 1048592] ∧ after.post.isSome = true := by
  rw [doWrFlamegraph_eq, initCurlHandle_shell, Option.bind_some, iterHistoTbl_cons,
    doWrStackHisto_shell, Option.bind_some, iterHistoTbl_cons,
    doWrStackHisto_posts rfl rfl] at hrun
  obtain ⟨done, hdone, hlast⟩ := Option.bind_eq_some_iff.mp hrun
  obtain ⟨grown, happend, heq⟩ := Option.map_eq_some_iff.mp hdone
  rw [iterHistoTbl, Option.some_inj] at hlast
  rw [← hlast, ← heq]
  have hfits : sizeT (16 + POST_MAX_STEP_SIZE) < 2 ^ 63 := by decide
  have hsum : 16 + POST_MAX_STEP_SIZE = 1048592 := by decide
  obtain ⟨hmax, hlog, hpost⟩ :=
    realloced_of_appendPost happend snprintf_shell (realloc_plainHeap _ hfits)
  refine ⟨hmax.trans hsum, ?_, hpost⟩
  exact hlog.trans (congrArg (fun capacity => [Message.realloced capacity]) hsum)

theorem doWrFlamegraph_posts_shell : ∃ after dest,
    doWrFlamegraph plainHeap (some true) true true [shellHisto, shellHisto] 16 (some []) = some after ∧
      after.post = some dest ∧ after.gPostMax = 1048592 ∧ dest.buffer.length = 1048592 ∧
      dest.buffer.cString 0 = some "[1]sh; main 5\n[1]sh; main 5".toList := by
  obtain ⟨after, hrun, -, hposts⟩ := doWrFlamegraph_posts 16 (by decide) plainHeap
    (some true) true true [shellHisto, shellHisto] (some [])
  obtain ⟨hmax, hlog, hpost⟩ := grows_shell hrun
  obtain ⟨dest, hdest⟩ := Option.isSome_iff_exists.mp hpost
  have hgranted : after.Granted := fun capacity hmem => by simp [hlog] at hmem
  obtain ⟨-, hlength, hshown⟩ := hposts dest hdest
  have hvalue : (1048592 : Int32).toInt = 1048592 := by decide
  rw [hmax, hvalue] at hlength
  refine ⟨after, dest, hrun, hdest, hmax, by omega, (hshown hgranted).trans ?_⟩
  decide +kernel

end Example

end Gopher.StackProbe.PostBuffer
