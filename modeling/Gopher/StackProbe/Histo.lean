import Gopher.Lib.Histogram
import Gopher.Lib.Strstr
import Gopher.Lib.Words
import Gopher.StackProbe.Samples
import Mathlib.Data.UInt

namespace Gopher.StackProbe.Histo

open Gopher.Lib Histogram
open Gopher.StackProbe.Samples (SvgType)

def PERF_MAX_STACK_DEPTH : ℕ := 127
def FUNC_NAME_LEN : ℕ := 64
def STACK_SYMBS_LEN : ℕ := 2 * (PERF_MAX_STACK_DEPTH * FUNC_NAME_LEN)

-- `sym` is `none` where it is NULL.
structure AddrSymb where
  sym : Option Text
  orignAddr : UInt64
  deriving DecidableEq, Repr

structure StackSymbs where
  userStackSymbs : List AddrSymb
  length_eq : userStackSymbs.length = PERF_MAX_STACK_DEPTH

structure ProcSymbs where
  procId : Int32
  comm : Text
  containerName : Text
  pod : Text
  deriving DecidableEq, Repr

inductive Layer
  | first
  | second
  | third
  deriving DecidableEq, Repr

-- The string in front of the position, what stands behind it, and the room from there on.
structure Cursor where
  text : Text
  tail : Text
  len : ℕ
  deriving DecidableEq, Repr

def Cursor.string (cursor : Cursor) : Text := cursor.text ++ cursor.tail

-- `__snprintf(&p, len, &len, ...)`, with whether it returns 0.
def snprintf (cursor : Cursor) (piece : Text) : Cursor × Bool :=
  if cursor.len = 0 then (cursor, false)
  else if cursor.len ≤ piece.length then ({ cursor with tail := truncated cursor.len piece }, false)
  else (⟨cursor.text ++ piece, [], cursor.len - piece.length⟩, true)

-- With whether the length that is returned is not negative.
def stackAddrsymbs2stringIncomplete (addrSymb : AddrSymb) (layer : Layer) (cursor : Cursor) :
    Layer × Cursor × Bool :=
  if cursor.len = 0 then (layer, cursor, false)
  else
    match addrSymb.sym with
    | none => (layer, cursor, true)
    | some symb =>
        let printed := snprintf cursor ("; ".toList ++ symb)
        let shorter := decide (printed.1.len < cursor.len)
        match layer with
        | .first => (.second, printed.1, printed.2 && shorter)
        | .second => (.third, printed.1, printed.2 && shorter)
        | .third => (.third, printed.1, false)

def stackAddrsymbs2string (procSymbs : ProcSymbs) (addrSymb : AddrSymb) (layer : Layer)
    (cursor : Cursor) : Layer × Cursor × Bool :=
  if cursor.len = 0 then (layer, cursor, false)
  else
    match addrSymb.sym with
    | none => (layer, cursor, true)
    | some symb =>
        if layer = .first then
          let pod := if procSymbs.pod = [] then cursor
            else (snprintf cursor ("[Pod]".toList ++ procSymbs.pod ++ "; ".toList)).1
          let con := if procSymbs.containerName = [] then pod
            else (snprintf pod ("[Con]".toList ++ procSymbs.containerName ++ "; ".toList)).1
          let printed := snprintf con ('[' :: decimalText procSymbs.procId.toInt ++ "]".toList ++
            procSymbs.comm ++ "; ".toList ++ symb)
          (.second, printed.1, printed.2 && decide (printed.1.len < cursor.len))
        else
          let printed := snprintf cursor ("; ".toList ++ symb)
          (layer, printed.1, printed.2 && decide (printed.1.len < cursor.len))

-- The string that is left, with whether 0 is returned.
def symbs2string (procSymbs : ProcSymbs) (incompleteStackFlag : Bool) :
    List AddrSymb → Layer → Cursor → Text × Bool
  | [], _, cursor => (cursor.string, true)
  | addrSymb :: addrSymbs, layer, cursor =>
      if addrSymb.orignAddr = 0 then symbs2string procSymbs incompleteStackFlag addrSymbs layer cursor
      else if incompleteStackFlag then
        let printed := stackAddrsymbs2stringIncomplete addrSymb layer cursor
        if printed.1 = .third ∨ printed.2.2 = false then (printed.2.1.string, false)
        else symbs2string procSymbs incompleteStackFlag addrSymbs printed.1 printed.2.1
      else
        let printed := stackAddrsymbs2string procSymbs addrSymb layer cursor
        if printed.2.2 = false then (printed.2.1.string, false)
        else symbs2string procSymbs incompleteStackFlag addrSymbs printed.1 printed.2.1

def stackSymbs2string (stackSymbs : StackSymbs) (procSymbs : ProcSymbs) (size : ℕ)
    (incompleteStackFlag : Bool) : Text × Bool :=
  symbs2string procSymbs incompleteStackFlag stackSymbs.userStackSymbs .first ⟨[], [], size⟩

-- The entries of `histo_tbl`, in the order they were added in.
abbrev HistoTbl := Table Text UInt64

-- `svgStackTraces` is `none` for a type that is not there.
structure StackTrace where
  svgStackTraces : SvgType → Option HistoTbl
  histoErr : UInt64
  histoFolded : UInt64

def StackSymbs.incomplete (stackSymbs : StackSymbs) : Bool :=
  stackSymbs.userStackSymbs.getLast?.any fun addrSymb => addrSymb.orignAddr ≠ 0

def StackTrace.fold (st : StackTrace) (enType : SvgType) (histoTbl : HistoTbl) : StackTrace :=
  { st with
    svgStackTraces := Function.update st.svgStackTraces enType (some histoTbl)
    histoFolded := st.histoFolded + 1 }

-- The entry an incomplete call stack is counted on.
def mergeFits (procSymbs : ProcSymbs) (str key : Text) : Bool :=
  (strstr (truncated FUNC_NAME_LEN ('[' :: decimalText procSymbs.procId.toInt ++ "]".toList)) key).isSome &&
    (strstr str key).isSome

def addStackHisto (st : StackTrace) (stackSymbs : StackSymbs) (procSymbs : ProcSymbs)
    (enType : SvgType) (count : Int64) : StackTrace × ℤ :=
  let incompleteStackFlag := stackSymbs.incomplete
  let printed := stackSymbs2string stackSymbs procSymbs STACK_SYMBS_LEN incompleteStackFlag
  let str := printed.1
  let st := if printed.2 then st else { st with histoErr := st.histoErr + 1 }
  if str = [] then (st, -1)
  else
    match st.svgStackTraces enType with
    | none => (st, 0)
    | some histoTbl =>
        if incompleteStackFlag then
          match addFirst (mergeFits procSymbs str) count.toUInt64 histoTbl with
          | some histoTbl => (st.fold enType histoTbl, 0)
          | none => (st, -1)
        else
          match addFirst (fun key => decide (key = str)) count.toUInt64 histoTbl with
          | some histoTbl => (st.fold enType histoTbl, 0)
          | none =>
              let newCount := if count < 0 then 0 else count.toUInt64
              if newCount ≠ 0 then
                let histoTbl := histoTbl ++ [(truncated STACK_SYMBS_LEN str, newCount)]
                ({ st with
                    svgStackTraces := Function.update st.svgStackTraces enType (some histoTbl) }, 0)
              else (st, 0)

structure Sample where
  stackSymbs : StackSymbs
  procSymbs : ProcSymbs
  count : Int64

def addSamples (enType : SvgType) (st : StackTrace) (samples : List Sample) : StackTrace :=
  samples.foldl
    (fun st sample => (addStackHisto st sample.stackSymbs sample.procSymbs enType sample.count).1) st

section Strings

-- What has been printed has room for its NUL.
structure Cursor.Fits (size : ℕ) (cursor : Cursor) : Prop where
  length_eq : cursor.text.length + cursor.len = size
  tail_lt : cursor.tail.length < cursor.len

variable {size : ℕ} {cursor : Cursor} {layer : Layer}

theorem Cursor.Fits.length_string_lt (h : cursor.Fits size) : cursor.string.length < size := by
  have := h.length_eq
  have := h.tail_lt
  rw [Cursor.string, List.length_append]
  omega

theorem Cursor.Fits.snprintf (h : cursor.Fits size) (piece : Text) :
    (Histo.snprintf cursor piece).1.Fits size := by
  have hlen := h.length_eq
  have htail := h.tail_lt
  rw [Histo.snprintf, if_neg (by omega)]
  split
  · have hshort := length_truncated_le cursor.len piece
    exact ⟨hlen, Nat.lt_of_le_of_lt hshort (Nat.sub_one_lt (by omega))⟩
  · refine ⟨?_, ?_⟩
    · simp only [List.length_append]
      omega
    · simp only [List.length_nil]
      omega

theorem Cursor.Fits.incomplete (h : cursor.Fits size) (addrSymb : AddrSymb) (layer : Layer) :
    (stackAddrsymbs2stringIncomplete addrSymb layer cursor).2.1.Fits size := by
  rw [stackAddrsymbs2stringIncomplete]
  split
  · exact h
  · split
    · exact h
    · cases layer <;> exact h.snprintf _

theorem Cursor.Fits.complete (h : cursor.Fits size) (procSymbs : ProcSymbs) (addrSymb : AddrSymb)
    (layer : Layer) : (stackAddrsymbs2string procSymbs addrSymb layer cursor).2.1.Fits size := by
  rw [stackAddrsymbs2string]
  split
  · exact h
  · split
    · exact h
    · split
      · refine Cursor.Fits.snprintf ?_ _
        split
        · split
          · exact h
          · exact h.snprintf _
        · refine Cursor.Fits.snprintf ?_ _
          split
          · exact h
          · exact h.snprintf _
      · exact h.snprintf _

theorem length_symbs2string_lt (h : cursor.Fits size) (procSymbs : ProcSymbs) (flag : Bool)
    (addrSymbs : List AddrSymb) (layer : Layer) :
    (symbs2string procSymbs flag addrSymbs layer cursor).1.length < size := by
  induction addrSymbs generalizing layer cursor with
  | nil => exact h.length_string_lt
  | cons addrSymb addrSymbs ih =>
      rw [symbs2string]
      split
      · exact ih h layer
      · split
        · have hfits := h.incomplete addrSymb layer
          dsimp only
          split
          · exact hfits.length_string_lt
          · exact ih hfits _
        · have hfits := h.complete procSymbs addrSymb layer
          dsimp only
          split
          · exact hfits.length_string_lt
          · exact ih hfits _

end Strings

section Samples

def Sample.string (sample : Sample) : Text :=
  (stackSymbs2string sample.stackSymbs sample.procSymbs STACK_SYMBS_LEN
    sample.stackSymbs.incomplete).1

-- The string fits into the entry it is copied to.
theorem Sample.truncated_string (sample : Sample) :
    truncated STACK_SYMBS_LEN sample.string = sample.string := by
  have hfits : Cursor.Fits STACK_SYMBS_LEN ⟨[], [], STACK_SYMBS_LEN⟩ :=
    ⟨Nat.zero_add _, by decide⟩
  have hlength : sample.string.length < STACK_SYMBS_LEN :=
    length_symbs2string_lt hfits _ _ _ _
  rw [truncated, List.take_of_length_le (by omega)]

def Sample.event (sample : Sample) : Event Text UInt64 :=
  if sample.string = [] then .skip
  else if sample.stackSymbs.incomplete then
    .merge (mergeFits sample.procSymbs sample.string) sample.count.toUInt64
  else .put sample.string sample.count.toUInt64 (decide (0 < sample.count))

theorem toUInt64_eq_zero {count : Int64} : count.toUInt64 = 0 ↔ count = 0 := by
  constructor
  · intro h
    have hback := congrArg UInt64.toInt64 h
    rwa [Int64.toInt64_toUInt64] at hback
  · rintro rfl
    rfl

-- What is counted for one sample.
theorem addStackHisto_eq_step {st : StackTrace} {enType : SvgType} {histoTbl : HistoTbl}
    (h : st.svgStackTraces enType = some histoTbl) (sample : Sample) :
    (addStackHisto st sample.stackSymbs sample.procSymbs enType sample.count).1.svgStackTraces =
      Function.update st.svgStackTraces enType (some (step histoTbl sample.event)) := by
  have hsame : Function.update st.svgStackTraces enType (some histoTbl) = st.svgStackTraces := by
    rw [← h, Function.update_eq_self]
  have hprinted : stackSymbs2string sample.stackSymbs sample.procSymbs STACK_SYMBS_LEN
      sample.stackSymbs.incomplete = (sample.string, (stackSymbs2string sample.stackSymbs
        sample.procSymbs STACK_SYMBS_LEN sample.stackSymbs.incomplete).2) := rfl
  unfold addStackHisto
  dsimp only
  rw [hprinted]
  dsimp only
  generalize hafter : (if (stackSymbs2string sample.stackSymbs sample.procSymbs STACK_SYMBS_LEN
    sample.stackSymbs.incomplete).2 = true then st
      else { st with histoErr := st.histoErr + 1 }) = after
  have hsvg : after.svgStackTraces = st.svgStackTraces := by
    rw [← hafter]
    split <;> rfl
  rw [← hsvg] at h hsame ⊢
  clear hafter hsvg hprinted
  rw [Sample.event, h]
  dsimp only
  by_cases hempty : sample.string = []
  · rw [if_pos hempty, if_pos hempty]
    exact hsame.symm
  rw [if_neg hempty, if_neg hempty]
  by_cases hincomplete : sample.stackSymbs.incomplete = true
  · rw [if_pos hincomplete, if_pos hincomplete, step]
    cases addFirst (mergeFits sample.procSymbs sample.string) sample.count.toUInt64 histoTbl with
    | none => exact hsame.symm
    | some counted => rfl
  rw [if_neg hincomplete, if_neg hincomplete, step]
  cases addFirst (fun key => decide (key = sample.string)) sample.count.toUInt64 histoTbl with
  | some counted => rfl
  | none =>
      dsimp only
      by_cases hpos : 0 < sample.count
      · have hneg : ¬sample.count < 0 := Int64.lt_asymm hpos
        have hne : sample.count.toUInt64 ≠ 0 := fun hzero =>
          Int64.lt_irrefl (toUInt64_eq_zero.mp hzero ▸ hpos)
        rw [if_neg hneg, if_pos hne, sample.truncated_string, decide_eq_true hpos]
        rfl
      · have hzero : (if sample.count < 0 then 0 else sample.count.toUInt64) = 0 := by
          split
          case isTrue => rfl
          case isFalse hneg =>
            exact toUInt64_eq_zero.mpr
              (Int64.le_antisymm (Int64.not_lt.mp hpos) (Int64.not_lt.mp hneg))
        rw [hzero, if_neg (by decide), decide_eq_false hpos]
        exact hsame.symm

theorem addSamples_eq_run {st : StackTrace} {enType : SvgType} {histoTbl : HistoTbl}
    (h : st.svgStackTraces enType = some histoTbl) (samples : List Sample) :
    (addSamples enType st samples).svgStackTraces =
      Function.update st.svgStackTraces enType
        (some ((samples.map Sample.event).foldl step histoTbl)) := by
  induction samples generalizing st histoTbl with
  | nil => rw [List.map_nil, List.foldl_nil, ← h, Function.update_eq_self, addSamples, List.foldl_nil]
  | cons sample samples ih =>
      have hstep := addStackHisto_eq_step h sample
      have hfound := congrFun hstep enType
      rw [Function.update_self] at hfound
      rw [addSamples, List.foldl_cons, ← addSamples, ih hfound, hstep, Function.update_idem,
        List.map_cons, List.foldl_cons]

-- The count of a stack string, 0 where it has no entry.
def StackTrace.countOf (st : StackTrace) (enType : SvgType) (str : Text) : UInt64 :=
  (st.svgStackTraces enType).elim 0 fun histoTbl => Histogram.count histoTbl str

def StackTrace.totalOf (st : StackTrace) (enType : SvgType) : UInt64 :=
  (st.svgStackTraces enType).elim 0 Histogram.total

-- What makes an entry for a stack string.
structure Sample.Makes (sample : Sample) (str : Text) : Prop where
  incomplete_eq : sample.stackSymbs.incomplete = false
  string_eq : sample.string = str
  ne_nil : str ≠ []
  count_pos : 0 < sample.count

-- No complete stack string has counts of both signs, and no incomplete one is merged into it.
structure Settled (samples : List Sample) : Prop where
  complete : ∀ str, ∀ made ∈ samples, made.Makes str → ∀ other ∈ samples,
    other.stackSymbs.incomplete = false → other.string = str → 0 ≤ other.count
  incomplete : ∀ str, ∀ made ∈ samples, made.Makes str → ∀ other ∈ samples,
    other.stackSymbs.incomplete = true → other.string ≠ [] →
      mergeFits other.procSymbs other.string str = true → other.count = 0

-- What a complete sample brings into the histogram.
def Sample.paid (sample : Sample) : UInt64 :=
  if sample.stackSymbs.incomplete || sample.string = [] || sample.count ≤ 0 then 0
  else sample.count.toUInt64

theorem Sample.event_eq_put {sample : Sample} {str : Text} {n : UInt64} {creates : Bool} :
    sample.event = .put str n creates ↔ sample.stackSymbs.incomplete = false ∧ sample.string = str ∧
      str ≠ [] ∧ sample.count.toUInt64 = n ∧ decide (0 < sample.count) = creates := by
  rw [Sample.event]
  by_cases hempty : sample.string = []
  · rw [if_pos hempty]
    refine iff_of_false (by simp) fun h => h.2.2.1 (h.2.1 ▸ hempty)
  rw [if_neg hempty]
  by_cases hincomplete : sample.stackSymbs.incomplete = true
  · rw [if_pos hincomplete, hincomplete]
    exact iff_of_false (by simp) fun h => Bool.noConfusion h.1
  rw [if_neg hincomplete, Bool.eq_false_iff.mpr hincomplete]
  constructor
  · intro h
    cases h
    exact ⟨rfl, rfl, hempty, rfl, rfl⟩
  · rintro ⟨-, rfl, -, rfl, rfl⟩
    rfl

theorem Sample.event_eq_merge {sample : Sample} {fits : Text → Bool} {n : UInt64} :
    sample.event = .merge fits n ↔ sample.stackSymbs.incomplete = true ∧ sample.string ≠ [] ∧
      mergeFits sample.procSymbs sample.string = fits ∧ sample.count.toUInt64 = n := by
  rw [Sample.event]
  by_cases hempty : sample.string = []
  · rw [if_pos hempty]
    exact iff_of_false (by simp) fun h => h.2.1 hempty
  rw [if_neg hempty]
  by_cases hincomplete : sample.stackSymbs.incomplete = true
  · rw [if_pos hincomplete]
    constructor
    · intro h
      cases h
      exact ⟨hincomplete, hempty, rfl, rfl⟩
    · rintro ⟨-, -, rfl, rfl⟩
      rfl
  · rw [if_neg hincomplete]
    exact iff_of_false (by simp) fun h => hincomplete h.1

theorem Sample.event_eq_made {sample : Sample} {str : Text} :
    (∃ n, sample.event = .put str n true) ↔ sample.Makes str := by
  constructor
  · rintro ⟨n, h⟩
    obtain ⟨hincomplete, hstring, hne, -, hpos⟩ := Sample.event_eq_put.mp h
    exact ⟨hincomplete, hstring, hne, of_decide_eq_true hpos⟩
  · intro h
    exact ⟨_, Sample.event_eq_put.mpr
      ⟨h.incomplete_eq, h.string_eq, h.ne_nil, rfl, decide_eq_true h.count_pos⟩⟩

theorem settled_iff_orderless (samples : List Sample) :
    Settled samples ↔ Orderless (samples.map Sample.event) := by
  constructor
  · intro h
    constructor
    · intro str n hlate m hmade
      obtain ⟨late, hlateMem, hlateEvent⟩ := List.mem_map.mp hlate
      obtain ⟨made, hmadeMem, hmadeEvent⟩ := List.mem_map.mp hmade
      obtain ⟨hincomplete, hstring, -, rfl, hnot⟩ := Sample.event_eq_put.mp hlateEvent
      have hge := h.complete str made hmadeMem (Sample.event_eq_made.mp ⟨m, hmadeEvent⟩) late
        hlateMem hincomplete hstring
      have hle := Int64.not_lt.mp (of_decide_eq_false hnot)
      exact toUInt64_eq_zero.mpr (Int64.le_antisymm hle hge)
    · intro fits n hlate str m hmade hfits
      obtain ⟨late, hlateMem, hlateEvent⟩ := List.mem_map.mp hlate
      obtain ⟨made, hmadeMem, hmadeEvent⟩ := List.mem_map.mp hmade
      obtain ⟨hincomplete, hne, rfl, rfl⟩ := Sample.event_eq_merge.mp hlateEvent
      exact toUInt64_eq_zero.mpr (h.incomplete str made hmadeMem
        (Sample.event_eq_made.mp ⟨m, hmadeEvent⟩) late hlateMem hincomplete hne hfits)
  · intro h
    constructor
    · intro str made hmade hmakes other hother hincomplete hstring
      obtain ⟨m, hm⟩ := Sample.event_eq_made.mpr hmakes
      rcases Int64.le_or_lt 0 other.count with hge | hlt
      · exact hge
      have hevent := Sample.event_eq_put.mpr
        ⟨hincomplete, hstring, hmakes.ne_nil, rfl, decide_eq_false (Int64.lt_asymm hlt)⟩
      have hzero := h.put str _ (List.mem_map.mpr ⟨other, hother, hevent⟩) m
        (List.mem_map.mpr ⟨made, hmade, hm⟩)
      rw [toUInt64_eq_zero] at hzero
      rw [hzero]
      exact Int64.le_refl 0
    · intro str made hmade hmakes other hother hincomplete hne hfits
      obtain ⟨m, hm⟩ := Sample.event_eq_made.mpr hmakes
      have hevent := Sample.event_eq_merge.mpr ⟨hincomplete, hne, rfl, rfl⟩
      exact toUInt64_eq_zero.mp (h.merge _ _ (List.mem_map.mpr ⟨other, hother, hevent⟩) str m
        (List.mem_map.mpr ⟨made, hmade, hm⟩) hfits)

theorem Sample.createdAny_event (sample : Sample) : sample.event.createdAny = sample.paid := by
  rw [Sample.event, Sample.paid]
  by_cases hempty : sample.string = []
  · rw [if_pos hempty, if_pos (by simp [hempty])]
    rfl
  rw [if_neg hempty]
  by_cases hincomplete : sample.stackSymbs.incomplete = true
  · rw [if_pos hincomplete, if_pos (by simp [hincomplete])]
    rfl
  rw [if_neg hincomplete]
  by_cases hpos : 0 < sample.count
  · rw [decide_eq_true hpos, if_neg (by simp [hincomplete, hempty, hpos])]
    rfl
  · rw [decide_eq_false hpos, if_pos (by simp [Int64.not_lt.mp hpos])]
    rfl

theorem addSamples_same_iff {st : StackTrace} {enType : SvgType}
    (hempty : st.svgStackTraces enType = some []) (samples : List Sample) :
    ((∀ order : List Sample, order.Perm samples → ∀ str,
        (addSamples enType st order).countOf enType str =
          (addSamples enType st samples).countOf enType str) ↔ Settled samples) ∧
      (Settled samples →
        (addSamples enType st samples).totalOf enType = (samples.map Sample.paid).sum) := by
  have htable (order : List Sample) : (addSamples enType st order).svgStackTraces enType =
      some (run (order.map Sample.event)) := by
    rw [addSamples_eq_run hempty, Function.update_self, run]
  rw [settled_iff_orderless]
  constructor
  · rw [← orderless_iff]
    refine forall_congr' fun order => forall_congr' fun _ => forall_congr' fun str => ?_
    rw [StackTrace.countOf, StackTrace.countOf, htable, htable, Option.elim_some, Option.elim_some]
  · intro h
    rw [StackTrace.totalOf, htable, Option.elim_some, (holds_run h).total_eq, List.map_map]
    exact congrArg List.sum (List.map_congr_left fun sample _ => sample.createdAny_event)

end Samples

section Example

def stackOf (sym : Text) : StackSymbs where
  userStackSymbs := ⟨some sym, 1⟩ :: List.replicate 126 ⟨none, 0⟩
  length_eq := by rw [List.length_cons, List.length_replicate]; rfl

def mainSample (count : Int64) : Sample := ⟨stackOf "main".toList, ⟨1, "sh".toList, [], []⟩, count⟩

def startTrace : StackTrace := ⟨fun _ => some [], 0, 0⟩

theorem addSamples_same_iff_grown :
    startTrace.svgStackTraces .memleak = some [] ∧
      (addSamples .memleak startTrace [mainSample 5, mainSample 3]).totalOf .memleak = 8 := by
  have hsettled : Settled [mainSample 5, mainSample 3] := by
    constructor
    · intro str made _ _ other hother _ _
      rcases List.mem_pair.mp hother with rfl | rfl <;> decide
    · intro str made _ _ other hother hincomplete
      rcases List.mem_pair.mp hother with rfl | rfl <;> exact absurd hincomplete (by decide)
  refine ⟨rfl, ?_⟩
  rw [(addSamples_same_iff rfl _).2 hsettled]
  decide +kernel

-- The same block counted when it is freed before it is counted when it is allocated.
theorem not_addSamples_same : ¬∀ (st : StackTrace) (enType : SvgType),
    st.svgStackTraces enType = some [] → ∀ samples : List Sample,
      (∀ order : List Sample, order.Perm samples → ∀ str,
        (addSamples enType st order).countOf enType str =
          (addSamples enType st samples).countOf enType str) ∧
        (addSamples enType st samples).totalOf enType =
          (samples.map fun sample => sample.count.toUInt64).sum := by
  intro h
  have hsame := (h startTrace .memleak rfl [mainSample 5, mainSample (-5)]).1
    [mainSample (-5), mainSample 5] (List.Perm.swap _ _ _) "[1]sh; main".toList
  revert hsame
  decide +kernel

end Example

end Gopher.StackProbe.Histo
