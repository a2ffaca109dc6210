import Gopher.Lib.Lines
import Mathlib.Data.List.TakeWhile

namespace Gopher.Probe.Extend

open Gopher.Lib

def MAX_DATA_STR_LEN : ℕ := 8192

def strlen (buffer : Text) : ℕ :=
  (buffer.takeWhile (· ≠ '\x00')).length

-- `full` tells whether `FifoPut` fails after what was put so far. The characters
-- of `dataStr` below `index` are kept as a text.
def sendOutputToIngresss (full : List Text → Bool) : (buffer dataStr : Text) → List Text → List Text
  | [], _, fifo => fifo
  | c :: buffer, dataStr, fifo =>
      if c = '\n' then
        if full fifo then fifo
        else sendOutputToIngresss full buffer [] (fifo ++ [dataStr])
      else sendOutputToIngresss full buffer (dataStr ++ [c]) fifo

-- One turn of the loop, with what `fgets` has left in the buffer. Other output goes
-- to the log.
def parseBuffer (full : List Text → Bool) (fifo : List Text) (buffer : Text) : List Text :=
  if buffer.head? ≠ some '|' then fifo
  else if MAX_DATA_STR_LEN ≤ strlen buffer then fifo
  else sendOutputToIngresss full (buffer.take (strlen buffer)) [] fifo

-- The strings put into the fifo until the end of the probe's output.
def parseExtendProbeOutput (full : List Text → Bool) (output : Text) : List Text :=
  (fgetsAll MAX_DATA_STR_LEN output).foldl (parseBuffer full) []

-- The lines that are meant for the fifo.
def dataLines (output : Text) : List Text :=
  (completeLines output).filter fun line =>
    line.head? = some '|' ∧ line.length < MAX_DATA_STR_LEN - 1

-- What is left of a line when `fgets` has cut all the full pieces off it.
def lastPiece (line : Text) : Text :=
  line.drop ((MAX_DATA_STR_LEN - 1) * (line.length / (MAX_DATA_STR_LEN - 1)))

-- What a buffer that begins as data gives: the part in front of each newline.
def delivered (buffer : Text) : List Text :=
  if buffer.head? = some '|' then completeLines buffer else []

variable {full : List Text → Bool}

theorem sendOutputToIngresss_eq (hfull : ∀ fifo, full fifo = false) (buffer : Text)
    {dataStr : Text} (hdata : '\n' ∉ dataStr) (fifo : List Text) :
    sendOutputToIngresss full buffer dataStr fifo =
      fifo ++ completeLines (dataStr ++ buffer) := by
  induction buffer generalizing dataStr fifo with
  | nil => simp [sendOutputToIngresss, completeLines_of_not_mem hdata]
  | cons c buffer ih =>
      rw [sendOutputToIngresss]
      by_cases hc : c = '\n'
      · rw [if_pos hc, hfull, if_neg Bool.false_ne_true, ih List.not_mem_nil, hc,
          completeLines_cons hdata]
        simp
      · have hnext : '\n' ∉ dataStr ++ [c] := by simp [hdata, Ne.symm hc]
        rw [if_neg hc, ih hnext]
        simp

theorem parseBuffer_eq (hfull : ∀ fifo, full fifo = false) {buffer : Text}
    (hnul : '\x00' ∉ buffer) (hlength : buffer.length < MAX_DATA_STR_LEN) (fifo : List Text) :
    parseBuffer full fifo buffer = fifo ++ delivered buffer := by
  have hstrlen : strlen buffer = buffer.length := by
    have hall : buffer.takeWhile (· ≠ '\x00') = buffer := by
      rw [List.takeWhile_eq_self_iff]
      intro c hc
      have hne : c ≠ '\x00' := fun h => hnul (h ▸ hc)
      simpa using hne
    rw [strlen, hall]
  unfold parseBuffer delivered
  by_cases hhead : buffer.head? = some '|'
  · rw [if_neg (not_not_intro hhead), if_pos hhead, hstrlen, if_neg (by omega), List.take_length,
      sendOutputToIngresss_eq hfull buffer List.not_mem_nil, List.nil_append]
  · rw [if_pos hhead, if_neg hhead, List.append_nil]

-- The loop: every buffer adds what it delivers.
theorem parseExtendProbeOutput_eq (hfull : ∀ fifo, full fifo = false) {output : Text}
    (hnul : '\x00' ∉ output) :
    parseExtendProbeOutput full output =
      (fgetsAll MAX_DATA_STR_LEN output).flatMap delivered := by
  have hbuffers : ∀ buffer ∈ fgetsAll MAX_DATA_STR_LEN output,
      '\x00' ∉ buffer ∧ buffer.length < MAX_DATA_STR_LEN := by
    intro buffer hbuffer
    have hlength := length_le_of_mem_fgetsAll (by decide) hbuffer
    refine ⟨fun hmem => hnul (mem_of_mem_fgetsAll (by decide) hbuffer hmem), ?_⟩
    rw [MAX_DATA_STR_LEN] at hlength ⊢
    omega
  unfold parseExtendProbeOutput
  suffices hfold : ∀ (buffers fifo : List Text),
      (∀ buffer ∈ buffers, '\x00' ∉ buffer ∧ buffer.length < MAX_DATA_STR_LEN) →
      buffers.foldl (parseBuffer full) fifo = fifo ++ buffers.flatMap delivered from
    hfold _ [] hbuffers
  intro buffers
  induction buffers with
  | nil => simp
  | cons buffer buffers ih =>
      intro fifo hbuffers
      obtain ⟨hnul, hlength⟩ := hbuffers buffer List.mem_cons_self
      rw [List.foldl_cons, parseBuffer_eq hfull hnul hlength,
        ih _ fun other hother => hbuffers other (List.mem_cons_of_mem buffer hother),
        List.flatMap_cons, List.append_assoc]

theorem delivered_of_not_mem {buffer : Text} (hbuffer : '\n' ∉ buffer) : delivered buffer = [] := by
  rw [delivered, completeLines_of_not_mem hbuffer, ite_self]

theorem lastPiece_of_lt {line : Text} (hroom : line.length < MAX_DATA_STR_LEN - 1) :
    lastPiece line = line := by
  rw [lastPiece, Nat.div_eq_of_lt hroom]
  rfl

-- Of a line only its last piece has the newline, and that piece is judged by its own
-- first character.
theorem delivered_line {line : Text} (hline : '\n' ∉ line) :
    (fgetsAll MAX_DATA_STR_LEN (line ++ ['\n'])).flatMap delivered =
      if (lastPiece line).head? = some '|' then [lastPiece line] else [] := by
  generalize hlength : line.length = length
  induction length using Nat.strongRecOn generalizing line with
  | ind length ih =>
      by_cases hroom : line.length < MAX_DATA_STR_LEN - 1
      · rw [fgetsAll_line_of_lt (by decide) hline hroom, lastPiece_of_lt hroom, List.flatMap_singleton, delivered,
          completeLines_cons hline, completeLines_of_not_mem List.not_mem_nil]
        cases line <;> simp
      · have hdrop : '\n' ∉ line.drop (MAX_DATA_STR_LEN - 1) :=
          fun h => hline (List.mem_of_mem_drop h)
        have htake : '\n' ∉ line.take (MAX_DATA_STR_LEN - 1) :=
          fun h => hline (List.mem_of_mem_take h)
        have hlast : lastPiece (line.drop (MAX_DATA_STR_LEN - 1)) = lastPiece line := by
          rw [lastPiece, lastPiece, List.drop_drop, List.length_drop,
            Nat.div_eq_sub_div (by decide) (Nat.le_of_not_lt hroom), Nat.mul_add, Nat.mul_one,
            Nat.add_comm]
        rw [fgetsAll_line_of_le (by decide) hline (Nat.le_of_not_lt hroom), List.flatMap_cons,
          delivered_of_not_mem htake, List.nil_append, ← hlast]
        refine ih (line.drop (MAX_DATA_STR_LEN - 1)).length ?_ hdrop rfl
        rw [List.length_drop]
        rw [MAX_DATA_STR_LEN] at hroom ⊢
        omega

-- Line by line: each gives its last piece, if that begins like data.
theorem parseExtendProbeOutput_lines (hfull : ∀ fifo, full fifo = false) {output : Text}
    (hnul : '\x00' ∉ output) :
    parseExtendProbeOutput full output = (completeLines output).flatMap fun line =>
      if (lastPiece line).head? = some '|' then [lastPiece line] else [] := by
  obtain ⟨last, houtput, hlast⟩ := exists_printed_completeLines output
  have hlines : ∀ line ∈ completeLines output, '\n' ∉ line := fun line => not_mem_completeLines
  have hunfinished : (fgetsAll MAX_DATA_STR_LEN last).flatMap delivered = [] := by
    rw [List.flatMap_eq_nil_iff]
    intro buffer hbuffer
    exact delivered_of_not_mem fun hmem => hlast (mem_of_mem_fgetsAll (by decide) hbuffer hmem)
  rw [parseExtendProbeOutput_eq hfull hnul]
  conv_lhs => rw [houtput]
  rw [fgetsAll_printed (by decide) hlines, List.flatMap_append, hunfinished, List.append_nil,
    List.flatMap_assoc]
  exact List.flatMap_congr fun line hline => delivered_line (hlines line hline)

theorem dataLines_eq_flatMap (output : Text) :
    dataLines output = (completeLines output).flatMap fun line =>
      if line.head? = some '|' ∧ line.length < MAX_DATA_STR_LEN - 1 then [line] else [] := by
  rw [dataLines]
  induction completeLines output with
  | nil => rfl
  | cons line lines ih =>
      rw [List.filter_cons, List.flatMap_cons, ih]
      by_cases hline : line.head? = some '|' ∧ line.length < MAX_DATA_STR_LEN - 1
      · simp [hline]
      · simp [hline]

-- Every data line is delivered, in order, and nothing besides exactly when no line
-- that is too long goes on with a bar where its last piece begins.
theorem delivers_dataLines_iff (hfull : ∀ fifo, full fifo = false) {output : Text}
    (hnul : '\x00' ∉ output) :
    parseExtendProbeOutput full output = dataLines output ↔
      ∀ line ∈ completeLines output, MAX_DATA_STR_LEN - 1 ≤ line.length →
        (lastPiece line).head? ≠ some '|' := by
  have hbegins : ∀ line ∈ completeLines output,
      (if line.head? = some '|' ∧ line.length < MAX_DATA_STR_LEN - 1 then [line] else []) <+:
        if (lastPiece line).head? = some '|' then [lastPiece line] else [] := by
    intro line _
    by_cases hroom : line.length < MAX_DATA_STR_LEN - 1
    · simp [hroom, lastPiece_of_lt hroom]
    · simp [hroom]
  rw [parseExtendProbeOutput_lines hfull hnul, dataLines_eq_flatMap, eq_comm,
    flatMap_eq_iff_of_prefix hbegins]
  apply forall₂_congr
  intro line _
  by_cases hroom : line.length < MAX_DATA_STR_LEN - 1
  · have hshort : ¬ MAX_DATA_STR_LEN - 1 ≤ line.length := Nat.not_le_of_lt hroom
    simp only [hroom, lastPiece_of_lt hroom, hshort, and_true, false_implies]
  · have hlong := Nat.le_of_not_lt hroom
    simp [hroom, hlong]

theorem delivers_dataLines_two :
    parseExtendProbeOutput (fun _ => false) "|tcp|1|\nstarted\n|tcp|2|\n|tcp".toList =
      dataLines "|tcp|1|\nstarted\n|tcp|2|\n|tcp".toList := by
  apply (delivers_dataLines_iff (fun _ => rfl) (by decide)).mpr
  decide +kernel

theorem lastPiece_append {first rest : Text} (hfirst : first.length = MAX_DATA_STR_LEN - 1)
    (hrest : rest.length < MAX_DATA_STR_LEN - 1) : lastPiece (first ++ rest) = rest := by
  rw [lastPiece, List.length_append, hfirst, Nat.add_div_left _ (by decide),
    Nat.div_eq_of_lt hrest, Nat.zero_add, Nat.mul_one,
    List.drop_left' hfirst]

-- What fills the buffer, with a bar in front.
def fullBuffer : Text :=
  '|' :: List.replicate (MAX_DATA_STR_LEN - 2) 'x'

theorem length_fullBuffer : fullBuffer.length = MAX_DATA_STR_LEN - 1 := by
  rw [fullBuffer, List.length_cons, List.length_replicate]
  rfl

theorem mem_fullBuffer {c : Char} (hc : c ∈ fullBuffer) : c = '|' ∨ c = 'x' := by
  rw [fullBuffer, List.mem_cons] at hc
  exact hc.imp_right List.eq_of_mem_replicate

theorem tail_delivered_as_line :
    parseExtendProbeOutput (fun _ => false) (fullBuffer ++ "|tail".toList ++ ['\n']) =
        ["|tail".toList] ∧
      dataLines (fullBuffer ++ "|tail".toList ++ ['\n']) = [] := by
  have htail : ∀ c ∈ "|tail".toList, c ≠ '\n' ∧ c ≠ '\x00' := by decide
  have hclean : ∀ c ∈ fullBuffer ++ "|tail".toList, c ≠ '\n' ∧ c ≠ '\x00' := by
    intro c hc
    rcases List.mem_append.mp hc with hc | hc
    · rcases mem_fullBuffer hc with rfl | rfl <;> decide
    · exact htail c hc
  have hlength := length_fullBuffer
  generalize fullBuffer = buffer at hclean hlength ⊢
  have hnewline : '\n' ∉ buffer ++ "|tail".toList := fun h => (hclean _ h).1 rfl
  have hnul : '\x00' ∉ buffer ++ "|tail".toList ++ ['\n'] := by
    intro h
    rcases List.mem_append.mp h with h | h
    · exact (hclean _ h).2 rfl
    · simp at h
  have hlines : completeLines (buffer ++ "|tail".toList ++ ['\n']) =
      [buffer ++ "|tail".toList] := by
    rw [completeLines_cons hnewline, completeLines_of_not_mem List.not_mem_nil]
  constructor
  · rw [parseExtendProbeOutput_lines (fun _ => rfl) hnul, hlines, List.flatMap_singleton,
      lastPiece_append hlength (by decide)]
    rfl
  · have hlong : ¬ (buffer ++ "|tail".toList).length < MAX_DATA_STR_LEN - 1 := by
      rw [List.length_append, hlength]
      omega
    rw [dataLines_eq_flatMap, hlines, List.flatMap_singleton, if_neg fun h => hlong h.2]

end Gopher.Probe.Extend
