import Gopher.Lib.HashTable
import Gopher.Lib.Lines
import Gopher.Lib.Sscanf
import Gopher.SystemInfos.Net
import Mathlib.Data.List.Forall2

-- The table of the file systems (system_disk.c).

namespace Gopher.SystemInfos

open Gopher.Lib

def FSTYPE_LEN : ℕ := 64
def MOUNTON_LEN : ℕ := 128
def MOUNTSTATUS_LEN : ℕ := 8

-- Four numbers in the order in which `df` prints them: all, used, free, and the percentage.
structure Usage where
  sum : ℤ
  used : ℤ
  free : ℤ
  usedPer : ℤ
  deriving DecidableEq

def Usage.zero : Usage := ⟨0, 0, 0, 0⟩

structure DfStats where
  fsname : Text
  fstype : Text
  mountOn : Text
  mountStatus : Text
  inode : Usage
  blk : Usage
  valid : Bool
  deriving DecidableEq

-- The items of `g_df_tbl` in the order in which they are iterated.
abbrev DfTbl := List DfStats

-- Whether the strings that a call of `sscanf` stores have room in their arrays. A number has.
def FitArrays : List (Option ℕ) → List Scanned → Prop
  | some size :: sizes, .text word :: values => word.length < size ∧ FitArrays sizes values
  | _ :: sizes, _ :: values => FitArrays sizes values
  | _, _ => True

instance decidableFitArrays : ∀ (sizes : List (Option ℕ)) (values : List Scanned),
    Decidable (FitArrays sizes values)
  | [], _ => .isTrue trivial
  | some _ :: _, [] => .isTrue trivial
  | none :: _, [] => .isTrue trivial
  | some _ :: sizes, .text _ :: values =>
    have := decidableFitArrays sizes values
    inferInstanceAs (Decidable (_ ∧ _))
  | some _ :: sizes, .number _ :: values => decidableFitArrays sizes values
  | none :: sizes, .text _ :: values => decidableFitArrays sizes values
  | none :: sizes, .number _ :: values => decidableFitArrays sizes values

-- "%s %s %ld %ld %ld %ld%*s %s"
def dfInodeFormat : List ScanDirective := [.s, .s, .d, .d, .d, .d, .skipS, .s]

-- "%*s %*s %ld %ld %ld %ld%*s %s"
def dfBlockFormat : List ScanDirective := [.skipS, .skipS, .d, .d, .d, .d, .skipS, .s]

-- "%*s %s %*s %s"
def mountFormat : List ScanDirective := [.skipS, .s, .skipS, .s]

def usageOf (sum used free usedPer : ℤ) : Usage :=
  ⟨clampS64 sum, clampS64 used, clampS64 free, clampS64 usedPer⟩

-- The members of the local `stats` that the first command gives.
structure DfInodeFields where
  fsname : Text
  fstype : Text
  inode : Usage
  mountOn : Text
  deriving DecidableEq

-- The three decoders. The outer `none` is a string that is written behind its array, the inner
-- one a result of -1.
def getDfInodeFields (line : Text) : Option (Option DfInodeFields) :=
  let values := sscanf dfInodeFormat line
  if FitArrays [some FSTYPE_LEN, some FSTYPE_LEN, none, none, none, none, some MOUNTON_LEN] values
  then some (match values with
    | [.text fsname, .text fstype, .number sum, .number used, .number free, .number usedPer,
        .text mountOn] => some ⟨fsname, fstype, usageOf sum used free usedPer, mountOn⟩
    | _ => none)
  else none

def getDfBlockFields (line : Text) : Option (Option (Text × Usage)) :=
  let values := sscanf dfBlockFormat line
  if FitArrays [none, none, none, none, some MOUNTON_LEN] values
  then some (match values with
    | [.number sum, .number used, .number free, .number usedPer, .text mountOn] =>
      some (mountOn, usageOf sum used free usedPer)
    | _ => none)
  else none

def getFsMountStatus (line : Text) : Option (Option (Text × Text)) :=
  let values := sscanf mountFormat line
  if FitArrays [some MOUNTON_LEN, some LINE_BUF_LEN] values
  then some (match values with
    | [.text mountOn, .text buf] =>
      if ',' ∈ buf then some (mountOn, truncated MOUNTSTATUS_LEN (buf.takeWhile (· ≠ ',')))
      else none
    | _ => none)
  else none

-- What a period finds: the output of each command, `none` if `popen` fails, and whether `calloc`
-- succeeds for the line with the number.
structure FsPeriod where
  inode : Option Text
  block : Option Text
  mounts : Option Text
  calloc : ℕ → Bool

-- The lines that are read, without their newlines.
def readLines (text : Text) : List Text := (fgetsAll LINE_BUF_LEN text).map splitNewlineSymbol

def findFs (tbl : DfTbl) (mountOn : Text) : Option DfStats :=
  HashTable.find DfStats.mountOn tbl mountOn

def modifyFs (change : DfStats → DfStats) (tbl : DfTbl) (mountOn : Text) : DfTbl :=
  HashTable.modify DfStats.mountOn change tbl mountOn

-- An item set from a line of the first command.
def DfStats.setInode (fields : DfInodeFields) (fsItem : DfStats) : DfStats :=
  { fsItem with
    valid := true
    fsname := fields.fsname
    fstype := fields.fstype
    inode := fields.inode
    blk := .zero
    mountStatus := [] }

-- What `calloc` gives, with its mount point.
def DfStats.calloced (mountOn : Text) : DfStats := ⟨[], [], mountOn, [], .zero, .zero, false⟩

-- The loop over the lines behind the first one, the first of them with the number `i`.
def inodeLines (calloc : ℕ → Bool) : (i : ℕ) → List Text → DfTbl → Option (ℤ × DfTbl)
  | _, [], tbl => some (0, tbl)
  | i, line :: lines, tbl =>
    match getDfInodeFields line with
    | none => none
    | some none => inodeLines calloc (i + 1) lines tbl
    | some (some fields) =>
      match findFs tbl fields.mountOn with
      | some _ =>
        inodeLines calloc (i + 1) lines (modifyFs (DfStats.setInode fields) tbl fields.mountOn)
      | none =>
        if calloc i then
          inodeLines calloc (i + 1) lines (tbl ++ [(DfStats.calloced fields.mountOn).setInode fields])
        else some (-1, tbl)

def initFsInodeInfo (period : FsPeriod) (tbl : DfTbl) : Option (ℤ × DfTbl) :=
  match period.inode with
  | none => some (-1, tbl)
  | some text => inodeLines period.calloc 0 (readLines text).tail tbl

-- The loop of the two other steps: what a line gives is set in its item, if that is valid.
def updateLines {α : Type} (decode : Text → Option (Option (Text × α)))
    (set : α → DfStats → DfStats) : List Text → DfTbl → Option DfTbl
  | [], tbl => some tbl
  | line :: lines, tbl =>
    match decode line with
    | none => none
    | some none => updateLines decode set lines tbl
    | some (some (mountOn, value)) =>
      match findFs tbl mountOn with
      | none => updateLines decode set lines tbl
      | some fsItem =>
        if fsItem.valid then updateLines decode set lines (modifyFs (set value) tbl mountOn)
        else updateLines decode set lines tbl

def DfStats.setBlk (blk : Usage) (fsItem : DfStats) : DfStats := { fsItem with blk := blk }

def DfStats.setStatus (mountStatus : Text) (fsItem : DfStats) : DfStats :=
  { fsItem with mountStatus := mountStatus }

def initFsBlockInfo (period : FsPeriod) (tbl : DfTbl) : Option (ℤ × DfTbl) :=
  match period.block with
  | none => some (-1, tbl)
  | some text =>
    (updateLines getDfBlockFields DfStats.setBlk (readLines text).tail tbl).map fun tbl => (0, tbl)

def initFsStatus (period : FsPeriod) (tbl : DfTbl) : Option (ℤ × DfTbl) :=
  match period.mounts with
  | none => some (-1, tbl)
  | some text =>
    (updateLines getFsMountStatus DfStats.setStatus (readLines text) tbl).map fun tbl => (0, tbl)

-- The result, the table behind the call and the items that are printed.
def systemDiskProbe (period : FsPeriod) (tbl : DfTbl) : Option (ℤ × DfTbl × List DfStats) := do
  let (ret, tbl) ← initFsInodeInfo period tbl
  if ret ≠ 0 then return (-1, tbl, [])
  let (ret, tbl) ← initFsBlockInfo period tbl
  if ret ≠ 0 then return (-1, tbl, [])
  let (ret, tbl) ← initFsStatus period tbl
  if ret ≠ 0 then return (-1, tbl, [])
  let printed := tbl.filter DfStats.valid
  return (0, printed.map fun fsItem => { fsItem with valid := false }, printed)

-- The next definitions say what the commands list, without reading it back.

-- A line of `df`, where `none` is printed as a minus sign.
structure DfRow where
  fsname : Text
  fstype : Text
  sum : Option ℤ
  used : Option ℤ
  free : Option ℤ
  usedPer : Option ℤ
  mountOn : Text

def numberText (number : Option ℤ) : Text := number.elim ['-'] decimalText

def perText (number : Option ℤ) : Text := number.elim ['-'] fun n => decimalText n ++ ['%']

def DfRow.columns (row : DfRow) : List Text :=
  [row.fsname, row.fstype, numberText row.sum, numberText row.used, numberText row.free,
    perText row.usedPer, row.mountOn]

def DfRow.usage (row : DfRow) : Usage :=
  ⟨row.sum.getD 0, row.used.getD 0, row.free.getD 0, row.usedPer.getD 0⟩

-- Columns with blanks between them.
inductive Aligned : List Text → Text → Prop
  | last (column : Text) : Aligned [column] column
  | cons (column : Text) (gap : ℕ) {columns : List Text} {text : Text} (h : Aligned columns text) :
      Aligned (column :: columns) (column ++ List.replicate (gap + 1) ' ' ++ text)

-- What the kernel prints for a character of a path.
def mangleChar (char : Char) : Text :=
  match char with
  | ' ' => ['\\', '0', '4', '0']
  | '\t' => ['\\', '0', '1', '1']
  | '\n' => ['\\', '0', '1', '2']
  | '\\' => ['\\', '1', '3', '4']
  | '#' => ['\\', '0', '4', '3']
  | _ => [char]

def mangle (path : Text) : Text := path.flatMap mangleChar

-- A text without blanks.
structure Word where
  text : Text
  ne_nil : text ≠ []
  not_blank : ∀ char ∈ text, isBlank char = false

-- A line of `/proc/mounts`. The first of the options says whether the file system is read-only.
structure MountLine where
  device : Word
  mountOn : Text
  fstype : Word
  option : Word
  options : List Word
  no_comma : ',' ∉ option.text

def MountLine.upToOption (line : MountLine) : Text :=
  line.device.text ++ ' ' :: mangle line.mountOn ++ ' ' :: line.fstype.text ++ ' ' ::
    line.option.text

def MountLine.text (line : MountLine) : Text :=
  line.upToOption ++ line.options.flatMap (fun option => ',' :: option.text) ++ [' ', '0', ' ', '0']

structure FsListing where
  inodeRows : List DfRow
  blockRows : List DfRow
  mountLines : List MountLine

namespace FsListing

variable (listing : FsListing)

def listed : List Text := listing.inodeRows.map DfRow.mountOn

-- The values of a mount point are those that are listed last.
def blkOf (mountOn : Text) : Usage :=
  listing.blockRows.foldl (fun blk row => if row.mountOn = mountOn then row.usage else blk) .zero

def statusOf (mountOn : Text) : Text :=
  listing.mountLines.foldl
    (fun status line => if line.mountOn = mountOn then line.option.text else status) []

end FsListing

-- The output of `df` with these rows below its heading.
def IsDfOutput (rows : List DfRow) (text : Text) : Prop :=
  ∃ heading lines, text = printed (heading :: lines) ∧ (∀ line ∈ heading :: lines, IsLine line) ∧
    List.Forall₂ (fun row line => Aligned row.columns line) rows lines

structure FsPeriod.Shows (period : FsPeriod) (listing : FsListing) : Prop where
  inode : ∀ text ∈ period.inode, IsDfOutput listing.inodeRows text
  block : ∀ text ∈ period.block, IsDfOutput listing.blockRows text
  mounts : ∀ text ∈ period.mounts, text = printed (listing.mountLines.map MountLine.text)

-- What is printed are the mount points that are listed, each once, with their values.
structure ShowsFs (listing : FsListing) (output : List DfStats) : Prop where
  nodup : (output.map DfStats.mountOn).Nodup
  mem_iff : ∀ mountOn, mountOn ∈ output.map DfStats.mountOn ↔ mountOn ∈ listing.listed
  blk : ∀ fsItem ∈ output, fsItem.blk = listing.blkOf fsItem.mountOn
  status : ∀ fsItem ∈ output, fsItem.mountStatus = listing.statusOf fsItem.mountOn

-- The numbers are there, and what stands in a column is one word.
structure DfRow.Plain (row : DfRow) : Prop where
  fsname : row.fsname ≠ [] ∧ ∀ char ∈ row.fsname, isBlank char = false
  fstype : row.fstype ≠ [] ∧ ∀ char ∈ row.fstype, isBlank char = false
  mountOn : row.mountOn ≠ [] ∧ ∀ char ∈ row.mountOn, isBlank char = false
  numbers : ∀ number ∈ [row.sum, row.used, row.free, row.usedPer],
    ∃ n, number = some n ∧ -2 ^ 63 ≤ n ∧ n < 2 ^ 63

-- A line of a listed mount point has its path as it is and a second option. The buffer holds it
-- up to the comma. Another line does not read as one of a listed mount point.
structure MountLine.Plain (line : MountLine) (listed : List Text) : Prop where
  word : mangle line.mountOn ≠ [] ∧ ∀ char ∈ mangle line.mountOn, isBlank char = false
  room : line.upToOption.length + 1 < LINE_BUF_LEN
  mem : line.mountOn ∈ listed →
    mangle line.mountOn = line.mountOn ∧ line.options ≠ [] ∧ line.option.text.length < MOUNTSTATUS_LEN
  not_mem : line.mountOn ∉ listed → mangle line.mountOn ∉ listed

-- No string that is read is longer than its array.
structure FsPeriod.Fits (period : FsPeriod) : Prop where
  inode : ∀ text ∈ period.inode, ∀ line ∈ (readLines text).tail, (getDfInodeFields line).isSome
  block : ∀ text ∈ period.block, ∀ line ∈ (readLines text).tail, (getDfBlockFields line).isSome
  mounts : ∀ text ∈ period.mounts, ∀ line ∈ readLines text, (getFsMountStatus line).isSome

-- When a period gets as far as printing, it reads plain lines, and no item still has the mark of
-- a failed period that this one does not list.
structure MeetsFs (tbl : DfTbl) (period : FsPeriod) (listing : FsListing) : Prop where
  fits : period.Fits
  plain : period.inode.isSome → period.block.isSome → period.mounts.isSome →
    (∀ row ∈ listing.inodeRows ++ listing.blockRows, row.Plain) ∧
      ∀ line ∈ listing.mountLines, line.Plain listing.listed
  marks : period.inode.isSome → period.block.isSome → period.mounts.isSome →
    ∀ fsItem ∈ tbl, fsItem.valid = true → fsItem.mountOn ∈ listing.listed

-- Along a run of periods from a table.
def MeetsFsRun : DfTbl → List (FsPeriod × FsListing) → Prop
  | _, [] => True
  | tbl, (period, listing) :: run => MeetsFs tbl period listing ∧
      ∀ ret after output, systemDiskProbe period tbl = some (ret, after, output) →
        MeetsFsRun after run

-- The run writes nothing outside its arrays, and what its successful periods print is right.
def ShowsFsRun : DfTbl → List (FsPeriod × FsListing) → Prop
  | _, [] => True
  | tbl, (period, listing) :: run => ∃ ret after output,
      systemDiskProbe period tbl = some (ret, after, output) ∧
        (ret = 0 → ShowsFs listing output) ∧ ShowsFsRun after run

-- Reading the lines back.

theorem splitNewlineSymbol_concat (line : Text) : splitNewlineSymbol (line ++ ['\n']) = line := by
  rw [splitNewlineSymbol, if_pos List.getLast?_concat, List.dropLast_concat]

theorem readLines_printed {lines : List Text} (hlines : ∀ line ∈ lines, IsLine line) :
    readLines (printed lines) = lines := by
  rw [readLines, fgetsAll_printed_of_lt (by decide) hlines, List.map_map]
  calc lines.map (splitNewlineSymbol ∘ fun line => line ++ ['\n'])
      = lines.map id := List.map_congr_left fun line _ => splitNewlineSymbol_concat line
    _ = lines := List.map_id lines

theorem words_aligned {columns : List Text} {text : Text} (h : Aligned columns text)
    (hcolumns : ∀ column ∈ columns, column ≠ [] ∧ ∀ char ∈ column, isBlank char = false) :
    words isBlank text = columns := by
  induction h with
  | last column =>
      obtain ⟨hne, hword⟩ := hcolumns column List.mem_cons_self
      exact words_of_no_sep hword hne
  | cons column gap h ih =>
      obtain ⟨⟨hne, hword⟩, hrest⟩ := List.forall_mem_cons.mp hcolumns
      have hgap : ∀ char ∈ List.replicate (gap + 1) ' ', isBlank char = true :=
        fun char hchar => by rw [List.eq_of_mem_replicate hchar]; rfl
      rw [List.append_assoc, words_append_behind hword hne (by rintro char ⟨⟩; rfl),
        words_append_of_seps hgap, ih hrest]

-- A number in front of a percent sign.
theorem scanWords_per (n : ℤ) (format : List ScanDirective) (rest : List Text) :
    scanWords (.d :: .skipS :: format) ((decimalText n ++ ['%']) :: rest) =
      .number n :: scanWords format rest := by
  have hscan : ScanDirective.d.conversion.scan (decimalText n ++ ['%']) = some (.number n, ['%']) := by
    rw [show ScanDirective.d.conversion = .number from rfl, ScanConversion.scan,
      scanNumber_decimalText n (by rintro char ⟨⟩; rfl)]
    rfl
  rw [scanWords, hscan]
  simp only [ScanDirective.d, if_true]
  rw [scanWords_skipS (by simp [isBlank]) (by simp)]

theorem DfRow.Plain.columns {row : DfRow} (h : row.Plain) :
    (∀ column ∈ row.columns, column ≠ [] ∧ ∀ char ∈ column, isBlank char = false) ∧
      ∃ sum used free usedPer, row.columns = [row.fsname, row.fstype, decimalText sum,
        decimalText used, decimalText free, decimalText usedPer ++ ['%'], row.mountOn] ∧
        usageOf sum used free usedPer = row.usage := by
  obtain ⟨hfsname, hfstype, hmountOn, hnumbers⟩ := h
  simp only [List.forall_mem_cons, List.not_mem_nil, false_implies, implies_true, and_true]
    at hnumbers
  obtain ⟨⟨sum, hsum, hsumRange⟩, ⟨used, hused, husedRange⟩, ⟨free, hfree, hfreeRange⟩,
    ⟨usedPer, hper, hperRange⟩⟩ := hnumbers
  have hcolumns : row.columns = [row.fsname, row.fstype, decimalText sum, decimalText used,
      decimalText free, decimalText usedPer ++ ['%'], row.mountOn] := by
    rw [DfRow.columns, hsum, hused, hfree, hper]
    rfl
  have hdecimal : ∀ n : ℤ, decimalText n ≠ [] ∧ ∀ char ∈ decimalText n, isBlank char = false :=
    fun n => ⟨decimalText_ne_nil n, fun char hchar => isBlank_of_mem_decimalText hchar⟩
  have hpercent : decimalText usedPer ++ ['%'] ≠ [] ∧
      ∀ char ∈ decimalText usedPer ++ ['%'], isBlank char = false := by
    refine ⟨by simp, fun char hchar => ?_⟩
    rcases List.mem_append.mp hchar with hchar | hchar
    · exact isBlank_of_mem_decimalText hchar
    · rw [List.mem_singleton.mp hchar]
      rfl
  refine ⟨?_, sum, used, free, usedPer, hcolumns, ?_⟩
  · rw [hcolumns]
    simp only [List.forall_mem_cons, List.not_mem_nil, false_implies, implies_true, and_true]
    exact ⟨hfsname, hfstype, hdecimal sum, hdecimal used, hdecimal free, hpercent, hmountOn⟩
  · rw [usageOf, clampS64_of_mem hsumRange.1 hsumRange.2,
      clampS64_of_mem husedRange.1 husedRange.2, clampS64_of_mem hfreeRange.1 hfreeRange.2,
      clampS64_of_mem hperRange.1 hperRange.2, DfRow.usage, hsum, hused, hfree, hper]
    rfl

theorem getDfInodeFields_plain {row : DfRow} {line : Text} (hplain : row.Plain)
    (haligned : Aligned row.columns line) (hfits : (getDfInodeFields line).isSome) :
    getDfInodeFields line = some (some ⟨row.fsname, row.fstype, row.usage, row.mountOn⟩) := by
  obtain ⟨hcolumns, sum, used, free, usedPer, heq, husage⟩ := hplain.columns
  have hscan : sscanf dfInodeFormat line = [.text row.fsname, .text row.fstype, .number sum,
      .number used, .number free, .number usedPer, .text row.mountOn] := by
    rw [sscanf_eq, words_aligned haligned hcolumns, heq, dfInodeFormat,
      scanWords_s hplain.fsname.2 hplain.fsname.1, scanWords_s hplain.fstype.2 hplain.fstype.1,
      scanWords_d, scanWords_d, scanWords_d, scanWords_per,
      scanWords_s hplain.mountOn.2 hplain.mountOn.1]
    rfl
  unfold getDfInodeFields at hfits ⊢
  simp only [hscan] at hfits ⊢
  split at hfits
  · rw [if_pos ‹_›, husage]
  · cases hfits

theorem getDfBlockFields_plain {row : DfRow} {line : Text} (hplain : row.Plain)
    (haligned : Aligned row.columns line) (hfits : (getDfBlockFields line).isSome) :
    getDfBlockFields line = some (some (row.mountOn, row.usage)) := by
  obtain ⟨hcolumns, sum, used, free, usedPer, heq, husage⟩ := hplain.columns
  have hscan : sscanf dfBlockFormat line = [.number sum, .number used, .number free,
      .number usedPer, .text row.mountOn] := by
    rw [sscanf_eq, words_aligned haligned hcolumns, heq, dfBlockFormat,
      scanWords_skipS hplain.fsname.2 hplain.fsname.1,
      scanWords_skipS hplain.fstype.2 hplain.fstype.1,
      scanWords_d, scanWords_d, scanWords_d, scanWords_per,
      scanWords_s hplain.mountOn.2 hplain.mountOn.1]
    rfl
  unfold getDfBlockFields at hfits ⊢
  simp only [hscan] at hfits ⊢
  split at hfits
  · rw [if_pos ‹_›, husage]
  · cases hfits

-- What stands behind the options, with the newline.
def mountTail : Text := [' ', '0', ' ', '0', '\n']

theorem words_mountTail (start count : ℕ) :
    words isBlank ((mountTail.drop start).take count) ∈ [[], [['0']], [['0'], ['0']]] := by
  have hall : ∀ start < 6, ∀ count < 6,
      words isBlank ((mountTail.drop start).take count) ∈ [[], [['0']], [['0'], ['0']]] := by
    decide
  by_cases hstart : start < 6
  · by_cases hcount : count < 6
    · exact hall start hstart count hcount
    · have hlength : (mountTail.drop start).length ≤ 5 := by simp [mountTail]
      have hlast := hall start hstart 5 (by decide)
      rw [List.take_of_length_le hlength] at hlast
      rwa [List.take_of_length_le (by omega)]
  · rw [List.drop_of_length_le (by simp [mountTail]; omega), List.take_nil]
    exact List.mem_cons_self

theorem words_splitNewlineSymbol (piece : Text) :
    words isBlank (splitNewlineSymbol piece) = words isBlank piece := by
  rw [splitNewlineSymbol]
  split
  · obtain ⟨front, rfl⟩ := List.getLast?_eq_some_iff.mp ‹_›
    rw [List.dropLast_concat, words_append_cons front rfl, words_nil, List.append_nil]
  · rfl

-- A piece from behind the first options has too few words.
theorem getFsMountStatus_words {piece word : Text} {rest : List Text}
    (hrest : rest ∈ [[], [['0']], [['0'], ['0']]]) (hne : word ≠ [])
    (hword : ∀ char ∈ word, isBlank char = false)
    (hpiece : words isBlank piece = rest ∨ words isBlank piece = word :: rest) :
    getFsMountStatus piece = some none := by
  have hscan : sscanf mountFormat piece = [] ∨ sscanf mountFormat piece = [.text ['0']] := by
    rw [sscanf_eq, mountFormat]
    rcases hpiece with hpiece | hpiece
    · rw [hpiece]
      simp only [List.mem_cons, List.not_mem_nil, or_false] at hrest
      rcases hrest with rfl | rfl | rfl <;> decide
    · rw [hpiece, scanWords_skipS hword hne]
      simp only [List.mem_cons, List.not_mem_nil, or_false] at hrest
      rcases hrest with rfl | rfl | rfl <;> decide
  unfold getFsMountStatus
  rcases hscan with hscan | hscan <;> simp only [hscan] <;> decide

theorem getFsMountStatus_behind {options : Text}
    (hoptions : ∀ char ∈ options, isBlank char = false) {piece rest : Text} {count : ℕ}
    (hrest : rest <:+ options ++ mountTail) (hpiece : piece = rest.take count) :
    getFsMountStatus (splitNewlineSymbol piece) = some none := by
  obtain ⟨start, hstart⟩ : ∃ start, rest = (options ++ mountTail).drop start :=
    ⟨_, List.suffix_iff_eq_drop.mp hrest⟩
  have hwords := words_mountTail (start - options.length) (count - (options.drop start).length)
  rw [hstart, List.drop_append, List.take_append] at hpiece
  by_cases hnil : (options.drop start).take count = []
  · rw [hnil, List.nil_append] at hpiece
    refine @getFsMountStatus_words _ ['0'] _ hwords (by simp) (by simp [isBlank]) (.inl ?_)
    rw [words_splitNewlineSymbol, hpiece]
  · have hlt : start - options.length = 0 := by
      by_contra hge
      exact hnil (by rw [List.drop_of_length_le (by omega), List.take_nil])
    have hword : ∀ char ∈ (options.drop start).take count, isBlank char = false :=
      fun char hchar => hoptions char (List.mem_of_mem_drop (List.mem_of_mem_take hchar))
    refine getFsMountStatus_words hwords hnil hword (.inr ?_)
    have hbehind : Behind isBlank mountTail := by rintro char ⟨⟩; rfl
    rw [words_splitNewlineSymbol, hpiece, words_append_behind hword hnil]
    rw [hlt]
    exact hbehind.take _

theorem not_blank_options (options : List Word) :
    ∀ char ∈ options.flatMap fun option => ',' :: option.text, isBlank char = false := by
  intro char hchar
  obtain ⟨option, -, hmem⟩ := List.mem_flatMap.mp hchar
  rcases List.mem_cons.mp hmem with rfl | hmem
  · rfl
  · exact option.not_blank char hmem

-- The first word of a text that begins with a word.
theorem words_append_exists {word : Text} (hne : word ≠ [])
    (hword : ∀ char ∈ word, isBlank char = false) (back : Text) :
    ∃ rest, words isBlank (word ++ back) =
      (word ++ back.takeWhile fun char => !isBlank char) :: rest := by
  obtain ⟨char, text, rfl⟩ := List.exists_cons_of_ne_nil hne
  have hall : ∀ one ∈ char :: text, (!isBlank one) = true := fun one hone => by simp [hword one hone]
  refine ⟨words isBlank ((char :: text ++ back).dropWhile fun one => !isBlank one), ?_⟩
  rw [List.cons_append, words_cons_of_not_sep (hword char List.mem_cons_self), ← List.cons_append,
    List.takeWhile_append_of_pos hall]

-- The first piece of a line gives the first option, if another one follows.
theorem getFsMountStatus_first {line : MountLine} {back : Text}
    (hword : mangle line.mountOn ≠ [] ∧ ∀ char ∈ mangle line.mountOn, isBlank char = false)
    (hback : line.options = [] ∧ Behind isBlank back ∨ line.options ≠ [] ∧ back.head? = some ',')
    (hfits : (getFsMountStatus (splitNewlineSymbol (line.upToOption ++ back))).isSome) :
    getFsMountStatus (splitNewlineSymbol (line.upToOption ++ back)) =
      some (if line.options = [] then none
        else some (mangle line.mountOn, truncated MOUNTSTATUS_LEN line.option.text)) := by
  have hblank : ∀ text : Text, Behind isBlank (' ' :: text) := fun text => by rintro char ⟨⟩; rfl
  have hwords : words isBlank (line.upToOption ++ back) = line.device.text ::
      mangle line.mountOn :: line.fstype.text :: words isBlank (line.option.text ++ back) := by
    rw [MountLine.upToOption]
    simp only [List.append_assoc, List.cons_append]
    rw [words_append_behind line.device.not_blank line.device.ne_nil (hblank _),
      words_cons_of_sep rfl, words_append_behind hword.2 hword.1 (hblank _),
      words_cons_of_sep rfl, words_append_behind line.fstype.not_blank line.fstype.ne_nil (hblank _),
      words_cons_of_sep rfl]
  obtain ⟨rest, hmore⟩ := words_append_exists line.option.ne_nil line.option.not_blank back
  generalize htake : (back.takeWhile fun char => !isBlank char) = more at hmore
  have hfourth : ∀ char ∈ line.option.text ++ more, isBlank char = false := by
    intro char hchar
    rcases List.mem_append.mp hchar with hchar | hchar
    · exact line.option.not_blank char hchar
    · rw [← htake] at hchar
      simpa using List.mem_takeWhile_imp hchar
  have hscan : sscanf mountFormat (splitNewlineSymbol (line.upToOption ++ back)) =
      [.text (mangle line.mountOn), .text (line.option.text ++ more)] := by
    rw [sscanf_eq, words_splitNewlineSymbol, hwords, hmore, mountFormat,
      scanWords_skipS line.device.not_blank line.device.ne_nil, scanWords_s hword.2 hword.1,
      scanWords_skipS line.fstype.not_blank line.fstype.ne_nil,
      scanWords_s hfourth (by simp [line.option.ne_nil]), scanWords_nil]
  unfold getFsMountStatus at hfits ⊢
  simp only [hscan] at hfits ⊢
  split at hfits
  · rw [if_pos ‹_›]
    rcases hback with ⟨hnil, hbehind⟩ | ⟨hne, hcomma⟩
    · have hmoreNil : more = [] := by
        rw [← htake]
        cases back with
        | nil => rfl
        | cons char back => simp [hbehind char rfl]
      rw [hmoreNil, List.append_nil, if_neg line.no_comma, if_pos hnil]
    · obtain ⟨after, rfl⟩ := List.head?_eq_some_iff.mp hcomma
      have hpos : ∀ char ∈ line.option.text, decide (char ≠ ',') = true := fun char hchar =>
        decide_eq_true fun h : char = ',' => line.no_comma (h ▸ hchar)
      rw [← htake, List.takeWhile_cons_of_pos (by rfl), if_pos (by simp), if_neg hne,
        List.takeWhile_append_of_pos hpos, List.takeWhile_cons_of_neg (by simp), List.append_nil]
  · cases hfits

-- What the lines of `/proc/mounts` give.
def MountLine.found (line : MountLine) : Option (Text × Text) :=
  if line.options = [] then none
  else some (mangle line.mountOn, truncated MOUNTSTATUS_LEN line.option.text)

theorem MountLine.newline_notMem (line : MountLine) (hword : ∀ char ∈ mangle line.mountOn,
    isBlank char = false) : '\n' ∉ line.text := by
  have hnot : ∀ text : Text, (∀ char ∈ text, isBlank char = false) → '\n' ∉ text :=
    fun text htext hmem => Bool.noConfusion (htext _ hmem)
  simp only [MountLine.text, MountLine.upToOption, List.mem_append, List.mem_cons, not_or]
  refine ⟨⟨⟨⟨⟨?_, by decide, hnot _ hword⟩, by decide, ?_⟩, by decide, ?_⟩, ?_⟩, by decide⟩
  · exact hnot _ line.device.not_blank
  · exact hnot _ line.fstype.not_blank
  · exact hnot _ line.option.not_blank
  · exact hnot _ (not_blank_options line.options)

theorem filterMap_readLines_mount {line : MountLine}
    (hword : mangle line.mountOn ≠ [] ∧ ∀ char ∈ mangle line.mountOn, isBlank char = false)
    (hroom : line.upToOption.length + 1 < LINE_BUF_LEN)
    (hfits : ∀ piece ∈ readLines (line.text ++ ['\n']), (getFsMountStatus piece).isSome) :
    (readLines (line.text ++ ['\n'])).filterMap (fun piece => (getFsMountStatus piece).join) =
      line.found.toList := by
  have hne : line.text ++ ['\n'] ≠ [] := by simp
  have htext : line.text ++ ['\n'] = line.upToOption ++
      ((line.options.flatMap fun option => ',' :: option.text) ++ mountTail) := by
    rw [MountLine.text, List.append_assoc, List.append_assoc]
    rfl
  obtain ⟨count, hcount, hlow⟩ : ∃ count, lineLength (LINE_BUF_LEN - 1) (line.text ++ ['\n']) =
      line.upToOption.length + count ∧ 0 < count := by
    have hlength := lineLength_line (LINE_BUF_LEN - 1) (line.newline_notMem hword.2)
    have hlong : line.upToOption.length ≤ line.text.length := by
      rw [MountLine.text, List.append_assoc, List.length_append]
      omega
    refine ⟨lineLength (LINE_BUF_LEN - 1) (line.text ++ ['\n']) - line.upToOption.length, ?_, ?_⟩
      <;> omega
  rw [readLines, fgetsAll_of_ne_nil (by decide) hne] at hfits ⊢
  rw [hcount, htext] at hfits ⊢
  rw [List.take_length_add_append, List.drop_length_add_append] at hfits ⊢
  rw [List.map_cons] at hfits ⊢
  obtain ⟨hfirst, -⟩ := List.forall_mem_cons.mp hfits
  have hback : line.options = [] ∧ Behind isBlank
      (((line.options.flatMap fun option => ',' :: option.text) ++ mountTail).take count) ∨
      line.options ≠ [] ∧
      (((line.options.flatMap fun option => ',' :: option.text) ++ mountTail).take count).head? =
        some ',' := by
    obtain ⟨count, rfl⟩ := Nat.exists_eq_succ_of_ne_zero (Nat.ne_of_gt hlow)
    cases hoptions : line.options with
    | nil => exact .inl ⟨rfl, by rintro char ⟨⟩; rfl⟩
    | cons option options => exact .inr ⟨List.cons_ne_nil _ _, rfl⟩
  have hrest : ((fgetsAll LINE_BUF_LEN
      (((line.options.flatMap fun option => ',' :: option.text) ++ mountTail).drop count)).map
        splitNewlineSymbol).filterMap (fun piece => (getFsMountStatus piece).join) = [] := by
    rw [List.filterMap_eq_nil_iff]
    intro piece hpiece
    obtain ⟨raw, hraw, rfl⟩ := List.mem_map.mp hpiece
    obtain ⟨rest, hsuffix, hrest⟩ := exists_suffix_of_mem_fgetsAll (by decide) hraw
    rw [getFsMountStatus_behind (not_blank_options line.options)
      (hsuffix.trans (List.drop_suffix _ _)) hrest]
    rfl
  rw [List.filterMap_cons, hrest, getFsMountStatus_first hword hback hfirst, MountLine.found]
  by_cases hnil : line.options = []
  · rw [if_pos hnil]
    rfl
  · rw [if_neg hnil]
    rfl

end Gopher.SystemInfos
