import Gopher.Lib.Cells
import Mathlib.Data.Int.Notation

-- The command line of a process (system_procs.c, `get_proc_cmdline`).

namespace Gopher.SystemInfos

open Gopher.Lib

def EOF : ℤ := -1
def INT_MAX : ℕ := 2147483647

def NUL : UInt8 := 0
def QUOTE : UInt8 := 34
def BACKSLASH : UInt8 := 92
def BLANK : UInt8 := 32

-- The value of a `char`. Whether it is signed is up to the machine: it is on x86, not on ARM.
def charValue (signed : Bool) (char : UInt8) : ℤ :=
  if signed ∧ 128 ≤ char.toNat then char.toNat - 256 else char.toNat

-- The array `buf` and the `int index`. `none` is a write outside the array or an index beyond
-- what an `int` holds.
structure CmdlineBuf where
  buf : List UInt8
  index : ℕ
  deriving DecidableEq

def CmdlineBuf.store (s : CmdlineBuf) (index : ℕ) (char : UInt8) : Option CmdlineBuf :=
  if index < s.buf.length then some { s with buf := s.buf.set index char } else none

def CmdlineBuf.advance (s : CmdlineBuf) : Option CmdlineBuf :=
  if s.index + 1 ≤ INT_MAX then some { s with index := s.index + 1 } else none

-- What the loop does with the result of `fgetc`, and whether it goes on.
def CmdlineBuf.put (signed : Bool) (bufLen : ℕ) (result : ℤ) (s : CmdlineBuf) :
    Option (CmdlineBuf × Bool) := do
  let char := UInt8.ofInt result
  let s ← s.store s.index char
  if char = QUOTE then
    if bufLen - 2 < s.index then
      return (← s.store s.index NUL, false)
    let s ← s.store s.index BACKSLASH
    let s ← s.store (s.index + 1) QUOTE
    let s ← s.advance
    return (← s.advance, true)
  else if char = NUL then
    return (← (← s.store s.index BLANK).advance, true)
  else if charValue signed char = EOF then
    return (← (← s.store s.index NUL).advance, true)
  else
    return (← s.advance, true)

-- The loop over what is left of the file. `feof` holds once `fgetc` has returned EOF.
def fillCmdline (signed : Bool) (bufLen : ℕ) : List UInt8 → CmdlineBuf → Option CmdlineBuf
  | [], s =>
    if bufLen - 1 ≤ s.index then s.store s.index NUL
    else (s.put signed bufLen EOF).map Prod.fst
  | char :: rest, s =>
    if bufLen - 1 ≤ s.index then s.store s.index NUL
    else do
      let (s, goesOn) ← s.put signed bufLen char.toNat
      if goesOn then fillCmdline signed bufLen rest s else return s

-- `none` is a file that cannot be opened.
def getProcCmdline (signed : Bool) (file : Option (List UInt8)) (bufLen : ℕ) :
    Option (ℤ × List UInt8) :=
  let buf := List.replicate bufLen NUL
  match file with
  | none => some (-1, buf)
  | some content => (fillCmdline signed bufLen content ⟨buf, 0⟩).map fun s => (0, s.buf)

-- The text a byte of the file is to be shown as.
def escapeByte (char : UInt8) : List UInt8 :=
  if char = QUOTE then [BACKSLASH, QUOTE] else if char = NUL then [BLANK] else [char]

def escape (content : List UInt8) : List UInt8 :=
  content.flatMap escapeByte

-- As much of the content as there is room for, cut behind a whole escaped character.
structure IsCut (room : ℕ) (content front : List UInt8) : Prop where
  isPrefix : front <+: content
  fits : (escape front).length ≤ room
  longest : ∀ other, other <+: content → (escape other).length ≤ room → other <+: front

-- The array holds a string, and it is the escaped content, cut where the array ends.
structure ShowsCmdline (content : List UInt8) (bufLen : ℕ) (buf : List UInt8) : Prop where
  terminated : NUL ∈ buf
  string : ∃ front, IsCut (bufLen - 1) content front ∧
    buf.takeWhile (· ≠ NUL) = escape front

def fitting : ℕ → List UInt8 → List UInt8
  | _, [] => []
  | room, char :: rest =>
    if (escapeByte char).length ≤ room
    then char :: fitting (room - (escapeByte char).length) rest else []

variable {signed : Bool} {room size : ℕ} {char : UInt8} {content front text : List UInt8}

theorem escape_cons (char : UInt8) (content : List UInt8) :
    escape (char :: content) = escapeByte char ++ escape content := by
  rw [escape, List.flatMap_cons, escape]

theorem length_escapeByte_pos (char : UInt8) : 0 < (escapeByte char).length := by
  unfold escapeByte
  split <;> try split
  all_goals simp

theorem length_escapeByte_le (char : UInt8) : (escapeByte char).length ≤ 2 := by
  unfold escapeByte
  split <;> try split
  all_goals simp

theorem nul_notMem_escapeByte (char : UInt8) : NUL ∉ escapeByte char := by
  unfold escapeByte
  split
  · decide
  · split
    · decide
    · simpa using fun h => absurd h.symm ‹_›

theorem nul_notMem_escape (content : List UInt8) : NUL ∉ escape content := by
  intro h
  obtain ⟨char, -, hchar⟩ := List.mem_flatMap.mp h
  exact nul_notMem_escapeByte char hchar

theorem isCut_fitting (room : ℕ) (content : List UInt8) :
    IsCut room content (fitting room content) := by
  induction content generalizing room with
  | nil => exact ⟨List.prefix_rfl, Nat.zero_le room, fun other hother _ => hother⟩
  | cons char rest ih =>
      rw [fitting]
      by_cases hroom : (escapeByte char).length ≤ room
      · obtain ⟨hstarts, hfits, hlongest⟩ := ih (room - (escapeByte char).length)
        rw [if_pos hroom]
        refine ⟨(List.prefix_cons_inj char).mpr hstarts, ?_, fun other hother hfit => ?_⟩
        · rw [escape_cons, List.length_append]
          omega
        · cases other with
          | nil => exact List.nil_prefix
          | cons first other =>
              obtain ⟨rfl, htail⟩ := List.cons_prefix_cons.mp hother
              rw [escape_cons, List.length_append] at hfit
              exact (List.prefix_cons_inj first).mpr (hlongest other htail (by omega))
      · rw [if_neg hroom]
        refine ⟨List.nil_prefix, Nat.zero_le room, fun other hother hfit => ?_⟩
        cases other with
        | nil => exact List.prefix_rfl
        | cons first other =>
            obtain ⟨rfl, -⟩ := List.cons_prefix_cons.mp hother
            rw [escape_cons, List.length_append] at hfit
            omega

theorem IsCut.eq_fitting (h : IsCut room content front) : front = fitting room content := by
  obtain ⟨hstarts, hfits, hlongest⟩ := isCut_fitting room content
  have hle := hlongest front h.isPrefix h.fits
  have hge := h.longest (fitting room content) hstarts hfits
  exact hle.eq_of_length (Nat.le_antisymm hle.length_le hge.length_le)

-- What the loop writes for a byte: 0xFF reads as EOF where `char` is signed.
def written (signed : Bool) (char : UInt8) : List UInt8 :=
  if signed = true ∧ char = 255 then [NUL] else escapeByte char

theorem length_written (signed : Bool) (char : UInt8) :
    (written signed char).length = (escapeByte char).length := by
  unfold written
  split
  · obtain ⟨-, rfl⟩ := ‹_ ∧ _›
    rfl
  · rfl

theorem charValue_eq_eof (signed : Bool) (char : UInt8) :
    charValue signed char = EOF ↔ signed = true ∧ char = 255 := by
  have hlt := char.toNat_lt
  rw [← UInt8.toNat_inj, show (255 : UInt8).toNat = 255 from rfl, charValue, EOF]
  by_cases hge : signed = true ∧ 128 ≤ char.toNat
  · rw [if_pos hge]
    simp only [hge.1, true_and]
    omega
  · rw [if_neg hge]
    exact ⟨fun h => by omega, fun h => absurd ⟨h.1, by omega⟩ hge⟩

-- The state when `text` has been written.
def CmdlineBuf.holding (size : ℕ) (text : List UInt8) : CmdlineBuf :=
  ⟨cell NUL size text, text.length⟩

@[simp] theorem CmdlineBuf.holding_index (size : ℕ) (text : List UInt8) :
    (holding size text).index = text.length := rfl

theorem set_cell (hroom : text.length < size) (char : UInt8) :
    (cell NUL size text).set text.length char = cell NUL size (text ++ [char]) := by
  unfold cell
  rw [List.set_append_right _ _ (le_refl _), Nat.sub_self, List.length_append,
    List.length_singleton, List.append_assoc,
    show size - text.length = (size - (text.length + 1)) + 1 by omega, List.replicate_succ,
    List.set_cons_zero, List.singleton_append]

-- One character more, and the index behind it.
theorem CmdlineBuf.advance_set (hroom : text.length < size) (char : UInt8) :
    (⟨(cell NUL size text).set text.length char, text.length⟩ : CmdlineBuf).advance =
      if (text ++ [char]).length ≤ INT_MAX then some (holding size (text ++ [char])) else none := by
  rw [advance, holding, set_cell hroom, List.length_append, List.length_singleton]

theorem CmdlineBuf.put_holding (signed : Bool) (hroom : text.length + 1 < size) (char : UInt8) :
    (holding size text).put signed size char.toNat =
      if (text ++ written signed char).length ≤ INT_MAX
      then some (holding size (text ++ written signed char), true) else none := by
  have hchar : UInt8.ofInt char.toNat = char := by
    have hlt := char.toNat_lt
    have hmod : ((char.toNat : ℤ) % 2 ^ 8).toNat = char.toNat := by omega
    rw [UInt8.ofInt, hmod, UInt8.ofNat_toNat]
  have hlength : (cell NUL size text).length = size := length_cell (by omega)
  have hlast : ¬size - 2 < text.length := by omega
  have hindex : text.length < size := by omega
  unfold put
  simp only [hchar, holding, store, hlength, hindex, if_true, Option.bind_eq_bind, Option.bind_some,
    List.length_set, hroom, hlast, if_false, List.set_set]
  by_cases hquote : char = QUOTE
  · have hwritten : written signed char = [BACKSLASH, QUOTE] := by
      rw [written, if_neg (by rw [hquote]; exact fun h => absurd h.2 (by decide)), escapeByte,
        if_pos hquote]
    have htwo : text ++ [BACKSLASH, QUOTE] = (text ++ [BACKSLASH]) ++ [QUOTE] := by simp
    have hset := set_cell (show (text ++ [BACKSLASH]).length < size by simpa using hroom) QUOTE
    rw [if_pos hquote, hwritten, htwo, set_cell hindex, ← hset]
    simp only [advance, List.length_append, List.length_singleton]
    by_cases hint : text.length + 1 + 1 ≤ INT_MAX
    · rw [if_pos (by omega), if_pos hint, Option.bind_some, if_pos hint, Option.bind_some]
      rfl
    · rw [if_neg hint]
      by_cases hfirst : text.length + 1 ≤ INT_MAX
      · rw [if_pos hfirst, Option.bind_some, if_neg hint, Option.bind_none]
      · rw [if_neg hfirst, Option.bind_none]
  · have hone : ∀ c, ((⟨(cell NUL size text).set text.length c, text.length⟩ :
        CmdlineBuf).advance.bind fun s => pure (s, true)) =
        if (text ++ [c]).length ≤ INT_MAX
        then some (holding size (text ++ [c]), true) else none := by
      intro c
      rw [advance_set hindex]
      split <;> rfl
    rw [if_neg hquote, hone, hone, hone]
    by_cases heof : signed = true ∧ char = 255
    · have hnul : ¬char = NUL := by rw [heof.2]; decide
      rw [if_neg hnul, if_pos ((charValue_eq_eof signed char).mpr heof), written, if_pos heof]
      rfl
    · rw [written, if_neg heof, escapeByte, if_neg hquote,
        if_neg (mt (charValue_eq_eof signed char).mp heof)]
      split <;> rfl

theorem fillCmdline_full {s : CmdlineBuf} (hfull : size - 1 ≤ s.index) (content : List UInt8) :
    fillCmdline signed size content s = s.store s.index NUL := by
  cases content with
  | nil => rw [fillCmdline, if_pos hfull]
  | cons char rest => rw [fillCmdline, if_pos hfull]

-- A NUL behind the text is what stood there.
theorem CmdlineBuf.store_nul (hroom : text.length < size) :
    (holding size text).store text.length NUL = some (holding size text) := by
  rw [store, holding, length_cell (Nat.le_of_lt hroom), if_pos hroom, set_cell hroom]
  congr 2
  unfold cell
  rw [List.append_assoc, List.length_append, List.length_singleton, List.singleton_append,
    ← List.replicate_succ, show size - (text.length + 1) + 1 = size - text.length by omega]

theorem fitting_zero (content : List UInt8) : fitting 0 content = [] := by
  cases content with
  | nil => rfl
  | cons char rest => exact if_neg (by have := length_escapeByte_pos char; omega)

-- What the loop leaves when `text` has already been written. The EOF is written as the byte
-- 0xFF would be.
def loopEnd (signed : Bool) (size : ℕ) (content text : List UInt8) : Option CmdlineBuf :=
  let front := fitting (size - 1 - text.length) content
  let shown := text ++ front.flatMap (written signed)
  if INT_MAX < shown.length then none
  else if shown.length = size - 1 then some (.holding size shown)
  else if front = content ∧ shown.length < INT_MAX
  then some (.holding size (shown ++ written signed 255))
  else none

theorem fillCmdline_atEnd (hroom : text.length < size) (hint : text.length ≤ INT_MAX)
    (hfull : size - 1 ≤ text.length) :
    fillCmdline signed size content (.holding size text) = loopEnd signed size content text := by
  rw [fillCmdline_full hfull, loopEnd, show size - 1 - text.length = 0 by omega, fitting_zero]
  simp only [List.flatMap_nil, List.append_nil]
  rw [if_neg (by omega), if_pos (by omega)]
  exact CmdlineBuf.store_nul hroom

theorem loopEnd_cons (hfit : (escapeByte char).length ≤ size - 1 - text.length) :
    loopEnd signed size (char :: content) text =
      loopEnd signed size content (text ++ written signed char) := by
  have hrest : size - 1 - (text ++ written signed char).length =
      size - 1 - text.length - (escapeByte char).length := by
    rw [List.length_append, length_written]
    omega
  simp only [loopEnd, fitting, if_pos hfit, hrest, List.flatMap_cons, List.append_assoc,
    List.cons.injEq, true_and]

theorem loopEnd_of_not_fits (hroom : text.length + 1 < size)
    (hfit : ¬(escapeByte char).length ≤ size - 1 - text.length) :
    loopEnd signed size (char :: content) text = none := by
  simp only [loopEnd, fitting, if_neg hfit, List.flatMap_nil, List.append_nil]
  have hsize : ¬text.length = size - 1 := by omega
  have hrest : ¬([] = char :: content ∧ text.length < INT_MAX) := fun h => by cases h.1
  rw [if_neg hsize, if_neg hrest, ite_self]

theorem loopEnd_of_overflow (h : INT_MAX < text.length) :
    loopEnd signed size content text = none := by
  rw [loopEnd, if_pos (by rw [List.length_append]; omega)]

theorem fillCmdline_holding (signed : Bool) (content : List UInt8) (hroom : text.length < size)
    (hint : text.length ≤ INT_MAX) :
    fillCmdline signed size content (.holding size text) = loopEnd signed size content text := by
  induction content generalizing text with
  | nil =>
      by_cases hfull : size - 1 ≤ text.length
      · exact fillCmdline_atEnd hroom hint hfull
      have hput := CmdlineBuf.put_holding signed (show text.length + 1 < size by omega) 255
      have hone : (written signed 255).length = 1 := length_written signed 255
      rw [fillCmdline, CmdlineBuf.holding_index, if_neg hfull, show CmdlineBuf.put signed size EOF _ = _ from hput, loopEnd]
      simp only [fitting, List.flatMap_nil, List.append_nil, true_and]
      have hover : ¬INT_MAX < text.length := by omega
      have hsize : ¬text.length = size - 1 := by omega
      rw [if_neg hover, if_neg hsize, List.length_append, hone]
      by_cases hlast : text.length < INT_MAX
      · rw [if_pos hlast, if_pos (Nat.succ_le_of_lt hlast)]
        rfl
      · rw [if_neg hlast, if_neg (fun h => hlast (Nat.lt_of_succ_le h))]
        rfl
  | cons char rest ih =>
      by_cases hfull : size - 1 ≤ text.length
      · exact fillCmdline_atEnd hroom hint hfull
      rw [fillCmdline, CmdlineBuf.holding_index, if_neg hfull,
        CmdlineBuf.put_holding signed (by omega)]
      have hlength := length_written signed char
      by_cases hover : (text ++ written signed char).length ≤ INT_MAX
      · rw [if_pos hover]
        simp only [Option.bind_eq_bind, Option.bind_some, if_true]
        by_cases hfit : (escapeByte char).length ≤ size - 1 - text.length
        · rw [loopEnd_cons hfit]
          exact ih (by rw [List.length_append]; omega) hover
        · -- An escaped quote on the last two places: the NUL comes behind the array.
          have htwo := length_escapeByte_le char
          have hsize : (text ++ written signed char).length = size := by
            rw [List.length_append]
            omega
          rw [loopEnd_of_not_fits (by omega) hfit, fillCmdline_full (by simp [hsize]),
            CmdlineBuf.holding_index, hsize, CmdlineBuf.store, CmdlineBuf.holding,
            length_cell (le_of_eq hsize), if_neg (lt_irrefl size)]
      · rw [if_neg hover]
        by_cases hfit : (escapeByte char).length ≤ size - 1 - text.length
        · rw [loopEnd_cons hfit, loopEnd_of_overflow (by omega)]
          rfl
        · rw [loopEnd_of_not_fits (by omega) hfit]
          rfl

theorem length_flatMap_written (signed : Bool) (content : List UInt8) :
    (content.flatMap (written signed)).length = (escape content).length := by
  rw [escape, List.length_flatMap, List.length_flatMap]
  simp only [length_written]

theorem flatMap_written (h : signed = true → (255 : UInt8) ∉ content) :
    content.flatMap (written signed) = escape content := by
  refine List.flatMap_congr fun char hchar => if_neg ?_
  rintro ⟨hsigned, rfl⟩
  exact h hsigned hchar

theorem nul_mem_flatMap_written (h : (255 : UInt8) ∈ content) :
    NUL ∈ content.flatMap (written true) :=
  List.mem_flatMap.mpr ⟨255, h, by decide⟩

theorem length_takeWhile_lt {l : List UInt8} (h : NUL ∈ l) (rest : List UInt8) :
    ((l ++ rest).takeWhile (· ≠ NUL)).length < l.length := by
  induction l with
  | nil => cases h
  | cons char l ih =>
      by_cases hnul : char = NUL
      · simp [hnul]
      · have := ih ((List.mem_cons.mp h).resolve_left (Ne.symm hnul))
        simpa [hnul] using this

-- The command lines that are shown: those that fill the array exactly, and where `char` is signed
-- those that are read to their end. A byte 0xFF then cuts the string, and one place left for a
-- quote is written behind.
def CmdlineFits (signed : Bool) (content : List UInt8) (bufLen : ℕ) : Prop :=
  let front := fitting (bufLen - 1) content
  (signed = true → (255 : UInt8) ∉ front) ∧
    ((escape front).length = bufLen - 1 ∧ bufLen - 1 ≤ INT_MAX ∨
      signed = true ∧ front = content ∧ (escape front).length < INT_MAX)

instance (signed : Bool) (content : List UInt8) (bufLen : ℕ) :
    Decidable (CmdlineFits signed content bufLen) :=
  inferInstanceAs (Decidable (_ ∧ (_ ∨ _)))

theorem showsCmdline_cell (hroom : text.length < size) :
    ShowsCmdline content size (cell NUL size text) ↔
      (cell NUL size text).takeWhile (· ≠ NUL) = escape (fitting (size - 1) content) := by
  constructor
  · rintro ⟨-, front, hfront, hstring⟩
    rw [hstring, hfront.eq_fitting]
  · refine fun h => ⟨?_, fitting (size - 1) content, isCut_fitting _ _, h⟩
    rw [cell]
    exact List.mem_append_right _ (List.mem_replicate.mpr ⟨by omega, rfl⟩)

-- A byte 0xFF that was taken for EOF cuts the string.
theorem notMem_of_takeWhile {rest : List UInt8}
    (h : (content.flatMap (written signed) ++ rest).takeWhile (· ≠ NUL) = escape content) :
    signed = true → (255 : UInt8) ∉ content := by
  rintro rfl hmem
  have hlt := length_takeWhile_lt (nul_mem_flatMap_written hmem) rest
  rw [h, length_flatMap_written] at hlt
  exact lt_irrefl _ hlt

theorem takeWhile_written (h : signed = true → (255 : UInt8) ∉ content) :
    (cell NUL size (content.flatMap (written signed))).takeWhile (· ≠ NUL) = escape content := by
  rw [flatMap_written h, takeWhile_cell (nul_notMem_escape content)]

-- Where `char` is not signed, EOF ends the string with the byte 0xFF.
theorem takeWhile_written_eof :
    (cell NUL size (content.flatMap (written signed) ++ written signed 255)).takeWhile (· ≠ NUL) =
      escape content ↔ signed = true ∧ (255 : UInt8) ∉ content := by
  cases signed with
  | false =>
      have hnul : NUL ∉ escape content ++ escapeByte 255 := by
        rw [List.mem_append]
        exact fun h => h.elim (nul_notMem_escape content) (nul_notMem_escapeByte 255)
      have hwritten : content.flatMap (written false) ++ written false 255 =
          escape content ++ escapeByte 255 := by
        rw [flatMap_written fun h => by cases h]
        rfl
      rw [hwritten, takeWhile_cell hnul]
      refine ⟨fun h => ?_, fun h => by cases h.1⟩
      have hlength := congrArg List.length h
      rw [List.length_append] at hlength
      have hpos := length_escapeByte_pos 255
      omega
  | true =>
      constructor
      · intro h
        rw [cell, List.append_assoc] at h
        exact ⟨rfl, notMem_of_takeWhile h rfl⟩
      · rintro ⟨-, hcontent⟩
        have hpos : ∀ char ∈ escape content, decide (char ≠ NUL) = true := fun char hchar =>
          decide_eq_true fun hnul : char = NUL => nul_notMem_escape content (hnul ▸ hchar)
        rw [flatMap_written fun _ => hcontent, cell, List.append_assoc,
          show written true 255 = [NUL] from rfl, List.takeWhile_append_of_pos hpos]
        simp

theorem loopEnd_shows_iff (hlen : 2 ≤ size) :
    (∃ s, loopEnd signed size content [] = some s ∧ ShowsCmdline content size s.buf) ↔
      CmdlineFits signed content size := by
  have hfits := (isCut_fitting (size - 1) content).fits
  have hlength := length_flatMap_written signed (fitting (size - 1) content)
  simp only [loopEnd, CmdlineFits, List.length_nil, Nat.sub_zero, List.nil_append, hlength]
  by_cases hover : INT_MAX < (escape (fitting (size - 1) content)).length
  · rw [if_pos hover]
    constructor
    · rintro ⟨s, hs, -⟩
      cases hs
    · rintro ⟨-, h | h⟩ <;> omega
  rw [if_neg hover]
  by_cases hfull : (escape (fitting (size - 1) content)).length = size - 1
  · rw [if_pos hfull]
    constructor
    · rintro ⟨s, hs, hshows⟩
      obtain rfl := Option.some.inj hs
      rw [CmdlineBuf.holding, showsCmdline_cell (by omega)] at hshows
      exact ⟨notMem_of_takeWhile hshows, .inl ⟨hfull, by omega⟩⟩
    · rintro ⟨hmem, -⟩
      refine ⟨_, rfl, ?_⟩
      rw [CmdlineBuf.holding, showsCmdline_cell (by omega)]
      exact takeWhile_written hmem
  rw [if_neg hfull]
  have hone : (written signed 255).length = 1 := length_written signed 255
  have hshows := @showsCmdline_cell size content
    ((fitting (size - 1) content).flatMap (written signed) ++ written signed 255)
    (by rw [List.length_append, hlength, hone]; omega)
  rw [takeWhile_written_eof] at hshows
  by_cases hend : fitting (size - 1) content = content ∧
      (escape (fitting (size - 1) content)).length < INT_MAX
  · rw [if_pos hend]
    constructor
    · rintro ⟨s, hs, hs'⟩
      obtain rfl := Option.some.inj hs
      obtain ⟨hsigned, hmem⟩ := hshows.mp hs'
      exact ⟨fun _ => hmem, .inr ⟨hsigned, hend⟩⟩
    · rintro ⟨hmem, h | h⟩
      · exact absurd h.1 hfull
      · exact ⟨_, rfl, hshows.mpr ⟨h.1, hmem h.1⟩⟩
  · rw [if_neg hend]
    constructor
    · rintro ⟨s, hs, -⟩
      cases hs
    · rintro ⟨-, h | h⟩
      · exact absurd h.1 hfull
      · exact absurd h.2 hend

theorem getProcCmdline_shows_iff (signed : Bool) (content : List UInt8) (bufLen : ℕ)
    (hlen : 2 ≤ bufLen) :
    (∃ buf, getProcCmdline signed (some content) bufLen = some (0, buf) ∧
      ShowsCmdline content bufLen buf) ↔ CmdlineFits signed content bufLen := by
  have hfill := fillCmdline_holding signed content (show [].length < bufLen by simp; omega)
    (Nat.zero_le _)
  rw [← loopEnd_shows_iff hlen, ← hfill]
  simp only [getProcCmdline, Option.map_eq_some_iff, Prod.mk.injEq, true_and]
  constructor
  · rintro ⟨buf, ⟨s, hs, rfl⟩, hshows⟩
    exact ⟨s, hs, hshows⟩
  · rintro ⟨s, hs, hshows⟩
    exact ⟨s.buf, ⟨s, hs, rfl⟩, hshows⟩

-- The command line of `grep -v a"`.
def quotedCmdline : List UInt8 := [103, 114, 101, 112, 0, 45, 118, 0, 97, 34, 0]

theorem getProcCmdline_shows_iff_quoted :
    (2 ≤ 16 ∧ CmdlineFits true quotedCmdline 16) ∧
      ∃ buf, getProcCmdline true (some quotedCmdline) 16 = some (0, buf) ∧
        ShowsCmdline quotedCmdline 16 buf :=
  ⟨by decide, (getProcCmdline_shows_iff true quotedCmdline 16 (by decide)).mpr (by decide)⟩

-- With one place less than it takes, the quote is written there and the NUL behind the array.
theorem not_getProcCmdline_shows :
    ¬∀ (signed : Bool) (content : List UInt8) (bufLen : ℕ), 2 ≤ bufLen →
      ∃ buf, getProcCmdline signed (some content) bufLen = some (0, buf) ∧
        ShowsCmdline content bufLen buf := by
  intro h
  obtain ⟨buf, hbuf, -⟩ := h true quotedCmdline 11 (by decide)
  exact absurd (hbuf.symm.trans (show getProcCmdline true (some quotedCmdline) 11 = none by decide))
    (by simp)

end Gopher.SystemInfos
