import Gopher.SystemInfos.FsTable
import Mathlib.Tactic.ByContra

namespace Gopher.SystemInfos

open Gopher.Lib

-- One line of the other two steps: an item without a mark stays as it is.
def setValid {α : Type} (set : α → DfStats → DfStats) (one : Text × α) (fsItem : DfStats) : DfStats :=
  if fsItem.valid then set one.2 fsItem else fsItem

def updateOne {α : Type} (set : α → DfStats → DfStats) (tbl : DfTbl) (one : Text × α) : DfTbl :=
  modifyFs (setValid set one) tbl one.1

theorem updateLines_cons {α : Type} {decode : Text → Option (Option (Text × α))}
    {set : α → DfStats → DfStats} {line : Text} {lines : List Text} {one : Text × α}
    (hdecode : decode line = some (some one)) (tbl : DfTbl) :
    updateLines decode set (line :: lines) tbl =
      updateLines decode set lines (updateOne set tbl one) := by
  obtain ⟨mountOn, value⟩ := one
  rw [updateLines, hdecode]
  cases hfind : findFs tbl mountOn with
  | none =>
      have hone : updateOne set tbl (mountOn, value) = tbl := HashTable.modify_of_find_none hfind
      rw [hone]
      simp only [hfind]
  | some fsItem =>
      simp only [hfind]
      by_cases hvalid : fsItem.valid = true
      · have hone : updateOne set tbl (mountOn, value) = modifyFs (set value) tbl mountOn := by
          refine HashTable.modify_congr fun other hother => ?_
          rw [← Option.some.inj (hfind.symm.trans hother), setValid, if_pos hvalid]
        rw [if_pos hvalid, hone]
      · have hone : updateOne set tbl (mountOn, value) = modifyFs id tbl mountOn := by
          refine HashTable.modify_congr fun other hother => ?_
          rw [← Option.some.inj (hfind.symm.trans hother), setValid, if_neg hvalid, id]
        rw [if_neg hvalid, hone, modifyFs, HashTable.modify_id]

theorem updateLines_eq {α : Type} {decode : Text → Option (Option (Text × α))}
    {set : α → DfStats → DfStats} {lines : List Text}
    (hlines : ∀ line ∈ lines, (decode line).isSome) (tbl : DfTbl) :
    updateLines decode set lines tbl =
      some ((lines.filterMap fun line => (decode line).join).foldl (updateOne set) tbl) := by
  induction lines generalizing tbl with
  | nil => rfl
  | cons line lines ih =>
      obtain ⟨hline, hrest⟩ := List.forall_mem_cons.mp hlines
      obtain ⟨found, hfound⟩ := Option.isSome_iff_exists.mp hline
      cases found with
      | none =>
          rw [updateLines, hfound, List.filterMap_cons_none (by rw [hfound]; rfl)]
          exact ih hrest tbl
      | some one =>
          rw [updateLines_cons hfound, ih hrest, List.filterMap_cons_some (by rw [hfound]; rfl),
            List.foldl_cons]

section Updates

variable {α : Type} {set : α → DfStats → DfStats}
  (hset : ∀ value fsItem, (set value fsItem).mountOn = fsItem.mountOn)
include hset

theorem setValid_mountOn (one : Text × α) (fsItem : DfStats) :
    (setValid set one fsItem).mountOn = fsItem.mountOn := by
  rw [setValid]
  split
  · exact hset one.2 fsItem
  · rfl

-- What the lines with a mount point leave in its item.
theorem findFs_foldl_updateOne (found : List (Text × α)) (tbl : DfTbl) (mountOn : Text) :
    findFs (found.foldl (updateOne set) tbl) mountOn = (findFs tbl mountOn).map fun fsItem =>
      found.foldl (fun fsItem one => if one.1 = mountOn then setValid set one fsItem else fsItem)
        fsItem :=
  HashTable.find_foldl_modify Prod.fst (setValid set) (setValid_mountOn hset) found tbl

theorem map_mountOn_foldl_updateOne (found : List (Text × α)) (tbl : DfTbl) :
    (found.foldl (updateOne set) tbl).map DfStats.mountOn = tbl.map DfStats.mountOn :=
  HashTable.map_key_foldl_modify Prod.fst (setValid set) (setValid_mountOn hset) found tbl

end Updates

-- The first step. Every result keeps one item for a mount point.
theorem nodup_inodeLines {calloc : ℕ → Bool} {i : ℕ} {lines : List Text} {tbl after : DfTbl} {ret : ℤ}
    (h : inodeLines calloc i lines tbl = some (ret, after)) (hnodup : (tbl.map DfStats.mountOn).Nodup) :
    (after.map DfStats.mountOn).Nodup := by
  induction lines generalizing i tbl with
  | nil =>
      cases h
      exact hnodup
  | cons line lines ih =>
      rw [inodeLines] at h
      split at h
      · cases h
      · exact ih h hnodup
      · next fields _ =>
          split at h
          · refine ih h ?_
            have hkey : ∀ fsItem, (DfStats.setInode fields fsItem).mountOn = fsItem.mountOn :=
              fun _ => rfl
            rwa [modifyFs, HashTable.map_key_modify hkey]
          · next hfind =>
              split at h
              · refine ih h ?_
                rw [List.map_append, List.nodup_append]
                refine ⟨hnodup, by simp, fun one hone other hother => ?_⟩
                obtain ⟨fsItem, hfsItem, rfl⟩ := List.mem_map.mp hone
                rw [List.mem_singleton.mp hother]
                exact HashTable.find_eq_none.mp hfind fsItem hfsItem
              · cases h
                exact hnodup

-- The mount points that were read have an item with a mark and no values of the other steps, and
-- the other items are as they were.
structure InodeDone (mountOns : List Text) (tbl after : DfTbl) : Prop where
  mem : ∀ mountOn ∈ mountOns, ∃ fsItem, findFs after mountOn = some fsItem ∧
    fsItem.valid = true ∧ fsItem.blk = .zero ∧ fsItem.mountStatus = []
  not_mem : ∀ mountOn, mountOn ∉ mountOns → findFs after mountOn = findFs tbl mountOn

theorem InodeDone.cons {mountOn : Text} {mountOns : List Text} {tbl middle after : DfTbl}
    (hfirst : InodeDone [mountOn] tbl middle) (hrest : InodeDone mountOns middle after) :
    InodeDone (mountOn :: mountOns) tbl after := by
  constructor
  · intro other hother
    by_cases hmem : other ∈ mountOns
    · exact hrest.mem other hmem
    · rw [hrest.not_mem other hmem]
      exact hfirst.mem other (by simpa [hmem] using hother)
  · intro other hother
    rw [List.mem_cons, not_or] at hother
    rw [hrest.not_mem other hother.2, hfirst.not_mem other (by simpa using hother.1)]

theorem inodeDone_modify {fields : DfInodeFields} {tbl : DfTbl} {found : DfStats}
    (hfind : findFs tbl fields.mountOn = some found) :
    InodeDone [fields.mountOn] tbl (modifyFs (DfStats.setInode fields) tbl fields.mountOn) := by
  have hmodify : ∀ mountOn, findFs (modifyFs (DfStats.setInode fields) tbl fields.mountOn) mountOn =
      if mountOn = fields.mountOn then (findFs tbl fields.mountOn).map (DfStats.setInode fields)
      else findFs tbl mountOn := fun mountOn => HashTable.find_modify fun _ => rfl
  constructor
  · intro mountOn hmem
    rw [hmodify, if_pos (List.mem_singleton.mp hmem), hfind]
    exact ⟨_, rfl, rfl, rfl, rfl⟩
  · intro mountOn hmem
    rw [hmodify, if_neg (by simpa using hmem)]

theorem inodeDone_append {fields : DfInodeFields} {tbl : DfTbl}
    (hfind : findFs tbl fields.mountOn = none) :
    InodeDone [fields.mountOn] tbl
      (tbl ++ [(DfStats.calloced fields.mountOn).setInode fields]) := by
  have happend : ∀ mountOn, findFs (tbl ++ [(DfStats.calloced fields.mountOn).setInode fields]) mountOn =
      (findFs tbl mountOn).or (if fields.mountOn = mountOn then
        some ((DfStats.calloced fields.mountOn).setInode fields) else none) := by
    intro mountOn
    rw [findFs, HashTable.find, List.find?_append, ← HashTable.find, ← findFs]
    by_cases hmountOn : fields.mountOn = mountOn
    · simp [DfStats.setInode, DfStats.calloced, hmountOn]
    · simp [DfStats.setInode, DfStats.calloced, hmountOn]
  constructor
  · intro mountOn hmem
    obtain rfl := List.mem_singleton.mp hmem
    rw [happend, hfind, if_pos rfl]
    exact ⟨_, rfl, rfl, rfl, rfl⟩
  · intro mountOn hmem
    rw [happend, if_neg (fun h => hmem (List.mem_singleton.mpr h.symm)), Option.or_none]

theorem inodeLines_done {calloc : ℕ → Bool} {i : ℕ} {lines : List Text} {found : List DfInodeFields}
    {tbl after : DfTbl}
    (hlines : List.Forall₂ (fun fields line => getDfInodeFields line = some (some fields)) found lines)
    (h : inodeLines calloc i lines tbl = some (0, after)) :
    InodeDone (found.map DfInodeFields.mountOn) tbl after := by
  induction hlines generalizing i tbl with
  | nil =>
      cases h
      exact ⟨by simp, fun _ _ => rfl⟩
  | @cons fields line found lines hline _ ih =>
      rw [inodeLines, hline] at h
      cases hfind : findFs tbl fields.mountOn with
      | some fsItem =>
          simp only [hfind] at h
          exact (inodeDone_modify hfind).cons (ih h)
      | none =>
          simp only [hfind] at h
          split at h
          · exact (inodeDone_append hfind).cons (ih h)
          · cases h

-- An item with a mark gets the values that are found last, and keeps the rest.
theorem foldl_setValid {α β : Type} {set : α → DfStats → DfStats} (view : DfStats → α)
    (keep : DfStats → β) (hview : ∀ value fsItem, view (set value fsItem) = value)
    (hkeep : ∀ value fsItem, keep (set value fsItem) = keep fsItem)
    (hvalid : ∀ value fsItem, (set value fsItem).valid = fsItem.valid) (found : List (Text × α))
    (mountOn : Text) {fsItem : DfStats} (hmark : fsItem.valid = true) :
    let after := found.foldl
      (fun fsItem one => if one.1 = mountOn then setValid set one fsItem else fsItem) fsItem
    after.valid = true ∧ keep after = keep fsItem ∧
      view after = found.foldl (fun value one => if one.1 = mountOn then one.2 else value)
        (view fsItem) := by
  induction found generalizing fsItem with
  | nil => exact ⟨hmark, rfl, rfl⟩
  | cons one found ih =>
      simp only [List.foldl_cons]
      by_cases hone : one.1 = mountOn
      · have hset : setValid set one fsItem = set one.2 fsItem := if_pos hmark
        have hrest := @ih (set one.2 fsItem) (by rw [hvalid, hmark])
        rw [if_pos hone, if_pos hone, hset]
        rwa [hkeep, hview] at hrest
      · rw [if_neg hone, if_neg hone]
        exact ih hmark

theorem readLines_df {rows : List DfRow} {text : Text} (h : IsDfOutput rows text) :
    List.Forall₂ (fun row line => Aligned row.columns line) rows (readLines text).tail := by
  obtain ⟨heading, lines, rfl, hlines, hrows⟩ := h
  rw [readLines_printed hlines]
  exact hrows

theorem readLines_mounts {lines : List MountLine}
    (hlines : ∀ line ∈ lines, ∀ char ∈ mangle line.mountOn, isBlank char = false) :
    readLines (printed (lines.map MountLine.text)) =
      lines.flatMap fun line => readLines (line.text ++ ['\n']) := by
  have hnewline : ∀ text ∈ lines.map MountLine.text, '\n' ∉ text := by
    intro text htext
    obtain ⟨line, hline, rfl⟩ := List.mem_map.mp htext
    exact line.newline_notMem (hlines line hline)
  have hall := @fgetsAll_printed LINE_BUF_LEN (by decide) _ hnewline []
  rw [List.append_nil] at hall
  rw [readLines, hall, show fgetsAll LINE_BUF_LEN [] = [] from rfl, List.append_nil,
    List.flatMap_map, List.map_flatMap]
  rfl

theorem status_foldl {lines : List MountLine} {listed : List Text}
    (hlines : ∀ line ∈ lines, line.Plain listed) {mountOn : Text} (hmem : mountOn ∈ listed)
    (status : Text) :
    (lines.filterMap MountLine.found).foldl
        (fun status one => if one.1 = mountOn then one.2 else status) status =
      lines.foldl (fun status line => if line.mountOn = mountOn then line.option.text else status)
        status := by
  induction lines generalizing status with
  | nil => rfl
  | cons line lines ih =>
      obtain ⟨hline, hrest⟩ := List.forall_mem_cons.mp hlines
      by_cases hon : line.mountOn = mountOn
      · obtain ⟨hmangle, hoptions, hlength⟩ := hline.mem (hon ▸ hmem)
        have htruncated : truncated MOUNTSTATUS_LEN line.option.text = line.option.text :=
          List.take_of_length_le (Nat.le_sub_one_of_lt hlength)
        rw [List.filterMap_cons_some (show line.found = some _ from if_neg hoptions),
          List.foldl_cons, List.foldl_cons, hmangle, htruncated]
        simp only [hon, if_true]
        exact ih hrest _
      · rw [List.foldl_cons, if_neg hon]
        cases hfound : line.found with
        | none =>
            rw [List.filterMap_cons_none hfound]
            exact ih hrest status
        | some one =>
            have hne : one.1 ≠ mountOn := by
              rintro rfl
              rw [MountLine.found] at hfound
              split at hfound
              · cases hfound
              · cases hfound
                by_cases hlisted : line.mountOn ∈ listed
                · exact hon (hline.mem hlisted).1.symm
                · exact hline.not_mem hlisted hmem
            rw [List.filterMap_cons_some hfound, List.foldl_cons, if_neg hne]
            exact ih hrest status

theorem inodeLines_isSome {calloc : ℕ → Bool} {i : ℕ} {lines : List Text} {tbl : DfTbl}
    (hlines : ∀ line ∈ lines, (getDfInodeFields line).isSome) :
    ∃ ret after, inodeLines calloc i lines tbl = some (ret, after) := by
  induction lines generalizing i tbl with
  | nil => exact ⟨0, tbl, rfl⟩
  | cons line lines ih =>
      obtain ⟨hline, hrest⟩ := List.forall_mem_cons.mp hlines
      obtain ⟨found, hfound⟩ := Option.isSome_iff_exists.mp hline
      rw [inodeLines, hfound]
      cases found with
      | none => exact ih hrest
      | some fields =>
          cases hfind : findFs tbl fields.mountOn with
          | some fsItem =>
              simp only [hfind]
              exact ih hrest
          | none =>
              simp only [hfind]
              split
              · exact ih hrest
              · exact ⟨_, _, rfl⟩

theorem DfStats.setBlk_mountOn (blk : Usage) (fsItem : DfStats) :
    (setBlk blk fsItem).mountOn = fsItem.mountOn := rfl

theorem DfStats.setStatus_mountOn (mountStatus : Text) (fsItem : DfStats) :
    (setStatus mountStatus fsItem).mountOn = fsItem.mountOn := rfl

-- What the last two steps make of the table.
def foundBlk (text : Text) : List (Text × Usage) :=
  (readLines text).tail.filterMap fun line => (getDfBlockFields line).join

def foundStatus (text : Text) : List (Text × Text) :=
  (readLines text).filterMap fun line => (getFsMountStatus line).join

def updated (block mounts : Text) (tbl : DfTbl) : DfTbl :=
  (foundStatus mounts).foldl (updateOne DfStats.setStatus)
    ((foundBlk block).foldl (updateOne DfStats.setBlk) tbl)

theorem map_mountOn_updated (block mounts : Text) (tbl : DfTbl) :
    (updated block mounts tbl).map DfStats.mountOn = tbl.map DfStats.mountOn := by
  rw [updated, map_mountOn_foldl_updateOne DfStats.setStatus_mountOn,
    map_mountOn_foldl_updateOne DfStats.setBlk_mountOn]

-- Every way a period can go, as long as the strings fit.
theorem systemDiskProbe_cases {period : FsPeriod} {tbl : DfTbl} (hfits : period.Fits)
    (hnodup : (tbl.map DfStats.mountOn).Nodup) :
    ∃ ret after output, systemDiskProbe period tbl = some (ret, after, output) ∧
      (after.map DfStats.mountOn).Nodup ∧
      (ret = 0 → ∃ inode ∈ period.inode, ∃ block ∈ period.block, ∃ mounts ∈ period.mounts,
        ∃ middle, inodeLines period.calloc 0 (readLines inode).tail tbl = some (0, middle) ∧
          output = (updated block mounts middle).filter DfStats.valid) := by
  cases hinode : period.inode with
  | none =>
      refine ⟨-1, tbl, [], ?_, hnodup, fun h => by cases h⟩
      simp [systemDiskProbe, initFsInodeInfo, hinode]
  | some inode =>
      obtain ⟨ret, middle, hlines⟩ :=
        @inodeLines_isSome period.calloc 0 _ tbl (hfits.inode inode hinode)
      have hmiddle := nodup_inodeLines hlines hnodup
      have hinit : initFsInodeInfo period tbl = some (ret, middle) := by
        rw [initFsInodeInfo, hinode]
        exact hlines
      by_cases hret : ret = 0
      · subst hret
        cases hblock : period.block with
        | none =>
            refine ⟨-1, middle, [], ?_, hmiddle, fun h => by cases h⟩
            simp [systemDiskProbe, hinit, initFsBlockInfo, hblock]
        | some block =>
            have hblk : initFsBlockInfo period middle =
                some (0, (foundBlk block).foldl (updateOne DfStats.setBlk) middle) := by
              rw [initFsBlockInfo, hblock]
              simp only [updateLines_eq (hfits.block block hblock)]
              rfl
            cases hmounts : period.mounts with
            | none =>
                refine ⟨-1, (foundBlk block).foldl (updateOne DfStats.setBlk) middle, [], ?_, ?_,
                  fun h => by cases h⟩
                · simp only [systemDiskProbe, hinit, hblk, initFsStatus, hmounts,
                    Option.bind_eq_bind, Option.bind_some]
                  rfl
                · rwa [map_mountOn_foldl_updateOne DfStats.setBlk_mountOn]
            | some mounts =>
                have hstatus : initFsStatus period
                    ((foundBlk block).foldl (updateOne DfStats.setBlk) middle) =
                      some (0, updated block mounts middle) := by
                  rw [initFsStatus, hmounts]
                  simp only [updateLines_eq (hfits.mounts mounts hmounts)]
                  rfl
                refine ⟨0, ((updated block mounts middle).filter DfStats.valid).map
                  fun fsItem => { fsItem with valid := false },
                  (updated block mounts middle).filter DfStats.valid, ?_, ?_,
                  fun _ => ⟨inode, rfl, block, rfl, mounts, rfl, middle, hlines, rfl⟩⟩
                · simp only [systemDiskProbe, hinit, hblk, hstatus, Option.bind_eq_bind,
                    Option.bind_some]
                  rfl
                · rw [List.map_map]
                  rw [← map_mountOn_updated block mounts middle] at hmiddle
                  exact hmiddle.sublist (List.filter_sublist.map DfStats.mountOn)
      · refine ⟨-1, middle, [], ?_, hmiddle, fun h => by cases h⟩
        simp [systemDiskProbe, hinit, hret]

theorem forall₂_inode {rows : List DfRow} {lines : List Text}
    (h : List.Forall₂ (fun row line => Aligned row.columns line) rows lines)
    (hplain : ∀ row ∈ rows, row.Plain) (hfits : ∀ line ∈ lines, (getDfInodeFields line).isSome) :
    List.Forall₂ (fun fields line => getDfInodeFields line = some (some fields))
      (rows.map fun row => ⟨row.fsname, row.fstype, row.usage, row.mountOn⟩) lines := by
  induction h with
  | nil => exact .nil
  | cons haligned _ ih =>
      obtain ⟨hrow, hrows⟩ := List.forall_mem_cons.mp hplain
      obtain ⟨hline, hlines⟩ := List.forall_mem_cons.mp hfits
      exact .cons (getDfInodeFields_plain hrow haligned hline) (ih hrows hlines)

theorem foundBlk_eq {rows : List DfRow} {lines : List Text}
    (h : List.Forall₂ (fun row line => Aligned row.columns line) rows lines)
    (hplain : ∀ row ∈ rows, row.Plain) (hfits : ∀ line ∈ lines, (getDfBlockFields line).isSome) :
    lines.filterMap (fun line => (getDfBlockFields line).join) =
      rows.map fun row => (row.mountOn, row.usage) := by
  induction h with
  | nil => rfl
  | cons haligned _ ih =>
      obtain ⟨hrow, hrows⟩ := List.forall_mem_cons.mp hplain
      obtain ⟨hline, hlines⟩ := List.forall_mem_cons.mp hfits
      have hdecode := getDfBlockFields_plain hrow haligned hline
      rw [List.filterMap_cons_some (by rw [hdecode]; rfl), ih hrows hlines, List.map_cons]

theorem foundStatus_eq {lines : List MountLine} {listed : List Text}
    (hplain : ∀ line ∈ lines, line.Plain listed)
    (hfits : ∀ piece ∈ readLines (printed (lines.map MountLine.text)), (getFsMountStatus piece).isSome) :
    foundStatus (printed (lines.map MountLine.text)) = lines.filterMap MountLine.found := by
  have hread := readLines_mounts fun line hline => (hplain line hline).word.2
  rw [hread] at hfits
  rw [foundStatus, hread, List.filterMap_flatMap, List.filterMap_eq_flatMap_toList]
  refine List.flatMap_congr fun line hline => ?_
  have hline' := hplain line hline
  exact filterMap_readLines_mount hline'.word hline'.room fun piece hpiece =>
    hfits piece (List.mem_flatMap.mpr ⟨line, hline, hpiece⟩)

theorem foldl_setValid_valid {α : Type} {set : α → DfStats → DfStats}
    (hvalid : ∀ value fsItem, (set value fsItem).valid = fsItem.valid) (found : List (Text × α))
    (mountOn : Text) (fsItem : DfStats) :
    (found.foldl (fun fsItem one => if one.1 = mountOn then setValid set one fsItem else fsItem)
      fsItem).valid = fsItem.valid := by
  induction found generalizing fsItem with
  | nil => rfl
  | cons one found ih =>
      rw [List.foldl_cons, ih]
      split
      · rw [setValid]
        split
        · exact hvalid one.2 fsItem
        · rfl
      · rfl

-- What is left of an item of the first step when the others are done.
theorem findFs_updated {block mounts mountOn : Text} {middle : DfTbl} {fsItem : DfStats}
    (hfind : findFs middle mountOn = some fsItem) :
    ∃ after, findFs (updated block mounts middle) mountOn = some after ∧
      after.valid = fsItem.valid ∧
      (fsItem.valid = true →
        after.blk = (foundBlk block).foldl
          (fun blk one => if one.1 = mountOn then one.2 else blk) fsItem.blk ∧
        after.mountStatus = (foundStatus mounts).foldl
          (fun status one => if one.1 = mountOn then one.2 else status) fsItem.mountStatus) := by
  have hblk := findFs_foldl_updateOne DfStats.setBlk_mountOn (foundBlk block) middle mountOn
  rw [hfind, Option.map_some] at hblk
  have hstatus := findFs_foldl_updateOne DfStats.setStatus_mountOn (foundStatus mounts)
    ((foundBlk block).foldl (updateOne DfStats.setBlk) middle) mountOn
  rw [hblk, Option.map_some] at hstatus
  refine ⟨_, hstatus, ?_, fun hmark => ?_⟩
  · rw [@foldl_setValid_valid Text DfStats.setStatus fun _ _ => rfl,
      @foldl_setValid_valid Usage DfStats.setBlk fun _ _ => rfl]
  · obtain ⟨hvalidBlk, hkeepBlk, hviewBlk⟩ := @foldl_setValid Usage Text DfStats.setBlk DfStats.blk
      DfStats.mountStatus (fun _ _ => rfl) (fun _ _ => rfl) (fun _ _ => rfl) (foundBlk block) mountOn
      _ hmark
    obtain ⟨-, hkeep, hview⟩ := @foldl_setValid Text Usage DfStats.setStatus DfStats.mountStatus
      DfStats.blk (fun _ _ => rfl) (fun _ _ => rfl) (fun _ _ => rfl) (foundStatus mounts) mountOn
      _ hvalidBlk
    exact ⟨hkeep.trans hviewBlk, hview.trans (by rw [hkeepBlk])⟩

section Step

variable {period : FsPeriod} {listing : FsListing} {tbl middle : DfTbl} {inode block mounts : Text}

theorem inodeDone_listed (hshows : period.Shows listing) (hfits : period.Fits)
    (hrows : ∀ row ∈ listing.inodeRows, row.Plain) (hinode : inode ∈ period.inode)
    (hlines : inodeLines period.calloc 0 (readLines inode).tail tbl = some (0, middle)) :
    InodeDone listing.listed tbl middle := by
  have hdecode := forall₂_inode (readLines_df (hshows.inode inode hinode)) hrows
    (hfits.inode inode hinode)
  have hdone := inodeLines_done hdecode hlines
  rwa [List.map_map] at hdone

-- A mark that a failed period has left is printed too.
theorem marks_of_showsFs (hnodup : (tbl.map DfStats.mountOn).Nodup)
    (hlines : inodeLines period.calloc 0 (readLines inode).tail tbl = some (0, middle))
    (hdone : InodeDone listing.listed tbl middle)
    (h : ShowsFs listing ((updated block mounts middle).filter DfStats.valid)) :
    ∀ fsItem ∈ tbl, fsItem.valid = true → fsItem.mountOn ∈ listing.listed := by
  intro fsItem hfsItem hmark
  by_contra hnot
  have hfind : findFs tbl fsItem.mountOn = some fsItem :=
    (HashTable.find_eq_some hnodup).mpr ⟨hfsItem, rfl⟩
  rw [← hdone.not_mem fsItem.mountOn hnot] at hfind
  obtain ⟨after, hafter, hvalid, -⟩ := @findFs_updated block mounts _ _ _ hfind
  have hmiddle : ((updated block mounts middle).map DfStats.mountOn).Nodup := by
    rw [map_mountOn_updated]
    exact nodup_inodeLines hlines hnodup
  obtain ⟨hmem, hon⟩ := (HashTable.find_eq_some hmiddle).mp hafter
  exact hnot ((h.mem_iff fsItem.mountOn).mp
    (List.mem_map.mpr ⟨after, List.mem_filter.mpr ⟨hmem, hvalid.trans hmark⟩, hon⟩))

theorem showsFs_of_marks (hnodup : (tbl.map DfStats.mountOn).Nodup)
    (hlines : inodeLines period.calloc 0 (readLines inode).tail tbl = some (0, middle))
    (hdone : InodeDone listing.listed tbl middle)
    (hblk : foundBlk block = listing.blockRows.map fun row => (row.mountOn, row.usage))
    (hstatus : foundStatus mounts = listing.mountLines.filterMap MountLine.found)
    (hmountLines : ∀ line ∈ listing.mountLines, line.Plain listing.listed)
    (hmarks : ∀ fsItem ∈ tbl, fsItem.valid = true → fsItem.mountOn ∈ listing.listed) :
    ShowsFs listing ((updated block mounts middle).filter DfStats.valid) := by
  have hmiddle : ((updated block mounts middle).map DfStats.mountOn).Nodup := by
    rw [map_mountOn_updated]
    exact nodup_inodeLines hlines hnodup
  -- A marked item of the table comes from a listed mount point and its last values.
  have hitem : ∀ fsItem ∈ (updated block mounts middle).filter DfStats.valid,
      fsItem.mountOn ∈ listing.listed ∧ fsItem.blk = listing.blkOf fsItem.mountOn ∧
        fsItem.mountStatus = listing.statusOf fsItem.mountOn := by
    intro fsItem hfsItem
    obtain ⟨hmem, hvalid⟩ := List.mem_filter.mp hfsItem
    have hfind : findFs (updated block mounts middle) fsItem.mountOn = some fsItem :=
      (HashTable.find_eq_some hmiddle).mpr ⟨hmem, rfl⟩
    have hkey : fsItem.mountOn ∈ middle.map DfStats.mountOn := by
      rw [← map_mountOn_updated block mounts middle]
      exact List.mem_map_of_mem hmem
    obtain ⟨one, hone, hon⟩ := List.mem_map.mp hkey
    obtain ⟨before, hbefore⟩ := Option.isSome_iff_exists.mp (HashTable.find_isSome.mpr ⟨one, hone, hon⟩)
    obtain ⟨after, hafter, hmark, hvalues⟩ := @findFs_updated block mounts _ _ _ hbefore
    obtain rfl := Option.some.inj (hfind.symm.trans hafter)
    rw [hvalid] at hmark
    have hlisted : fsItem.mountOn ∈ listing.listed := by
      by_contra hnot
      have hold := (hdone.not_mem fsItem.mountOn hnot).symm.trans hbefore
      have hmarked := hmarks before (HashTable.mem_of_find hold) hmark.symm
      rw [HashTable.key_of_find hold] at hmarked
      exact hnot hmarked
    obtain ⟨cleared, hcleared, -, hnoBlk, hnoStatus⟩ := hdone.mem fsItem.mountOn hlisted
    obtain rfl := Option.some.inj (hbefore.symm.trans hcleared)
    obtain ⟨hblkOf, hstatusOf⟩ := hvalues hmark.symm
    refine ⟨hlisted, ?_, ?_⟩
    · rw [hblkOf, hblk, hnoBlk, List.foldl_map]
      rfl
    · rw [hstatusOf, hstatus, hnoStatus, status_foldl hmountLines hlisted]
      rfl
  constructor
  · exact hmiddle.sublist (List.filter_sublist.map DfStats.mountOn)
  · intro mountOn
    constructor
    · intro hmem
      obtain ⟨fsItem, hfsItem, rfl⟩ := List.mem_map.mp hmem
      exact (hitem fsItem hfsItem).1
    · intro hlisted
      obtain ⟨cleared, hcleared, hmark, -, -⟩ := hdone.mem mountOn hlisted
      obtain ⟨after, hafter, hvalid, -⟩ := @findFs_updated block mounts _ _ _ hcleared
      obtain ⟨hmem, hon⟩ := (HashTable.find_eq_some hmiddle).mp hafter
      exact List.mem_map.mpr ⟨after, List.mem_filter.mpr ⟨hmem, hvalid.trans hmark⟩, hon⟩
  · exact fun fsItem hfsItem => (hitem fsItem hfsItem).2.1
  · exact fun fsItem hfsItem => (hitem fsItem hfsItem).2.2

-- With plain lines a period that succeeds is right exactly if no such mark is left.
theorem showsFs_iff_marks (hnodup : (tbl.map DfStats.mountOn).Nodup) (hshows : period.Shows listing)
    (hfits : period.Fits) (hrows : ∀ row ∈ listing.inodeRows ++ listing.blockRows, row.Plain)
    (hmountLines : ∀ line ∈ listing.mountLines, line.Plain listing.listed)
    (hinode : inode ∈ period.inode) (hblock : block ∈ period.block) (hmounts : mounts ∈ period.mounts)
    (hlines : inodeLines period.calloc 0 (readLines inode).tail tbl = some (0, middle)) :
    ShowsFs listing ((updated block mounts middle).filter DfStats.valid) ↔
      ∀ fsItem ∈ tbl, fsItem.valid = true → fsItem.mountOn ∈ listing.listed := by
  have hdone := inodeDone_listed hshows hfits
    (fun row hrow => hrows row (List.mem_append_left _ hrow)) hinode hlines
  refine ⟨marks_of_showsFs hnodup hlines hdone, showsFs_of_marks hnodup hlines hdone ?_ ?_ hmountLines⟩
  · exact foundBlk_eq (readLines_df (hshows.block block hblock))
      (fun row hrow => hrows row (List.mem_append_right _ hrow)) (hfits.block block hblock)
  · have hpieces := hfits.mounts mounts hmounts
    rw [hshows.mounts mounts hmounts] at hpieces ⊢
    exact foundStatus_eq hmountLines hpieces

end Step

theorem showsFsRun_of_meets (run : List (FsPeriod × FsListing))
    (hshows : ∀ one ∈ run, one.1.Shows one.2) {tbl : DfTbl}
    (hnodup : (tbl.map DfStats.mountOn).Nodup) (hmeets : MeetsFsRun tbl run) : ShowsFsRun tbl run := by
  induction run generalizing tbl with
  | nil => trivial
  | cons one run ih =>
      obtain ⟨period, listing⟩ := one
      obtain ⟨hone, hrest⟩ := List.forall_mem_cons.mp hshows
      obtain ⟨hmeetsOne, hmeetsRest⟩ := hmeets
      obtain ⟨ret, after, output, hprobe, hafter, hright⟩ :=
        systemDiskProbe_cases hmeetsOne.fits hnodup
      refine ⟨ret, after, output, hprobe, fun hret => ?_,
        ih hrest hafter (hmeetsRest ret after output hprobe)⟩
      obtain ⟨inode, hinode, block, hblock, mounts, hmounts, middle, hlines, rfl⟩ := hright hret
      have hsome := And.intro (Option.isSome_of_mem hinode)
        (And.intro (Option.isSome_of_mem hblock) (Option.isSome_of_mem hmounts))
      obtain ⟨hrows, hmountLines⟩ := hmeetsOne.plain hsome.1 hsome.2.1 hsome.2.2
      exact (showsFs_iff_marks hnodup hone hmeetsOne.fits hrows hmountLines hinode hblock hmounts
        hlines).mpr (hmeetsOne.marks hsome.1 hsome.2.1 hsome.2.2)

-- From the empty table on.
theorem systemDiskProbe_shows (run : List (FsPeriod × FsListing))
    (hshows : ∀ one ∈ run, one.1.Shows one.2) (hmeets : MeetsFsRun [] run) : ShowsFsRun [] run :=
  showsFsRun_of_meets run hshows List.nodup_nil hmeets

-- The columns with one blank between them.
def spaced : List Text → Text
  | [] => []
  | [column] => column
  | column :: next :: columns => column ++ List.replicate 1 ' ' ++ spaced (next :: columns)

theorem aligned_spaced (column : Text) (columns : List Text) :
    Aligned (column :: columns) (spaced (column :: columns)) := by
  induction columns generalizing column with
  | nil => exact .last column
  | cons next columns ih => exact .cons column 0 (ih next)

def wordOf (text : Text) (hne : text ≠ []) (hblank : ∀ char ∈ text, isBlank char = false) : Word :=
  ⟨text, hne, hblank⟩

-- A file system of which 4 in 10 are used, on `mountOn`.
def rowOf (mountOn : Text) : DfRow :=
  ⟨['d'], ['e'], some 10, some 4, some 6, some 40, mountOn⟩

def mountLineOf (mountOn : Text) : MountLine where
  device := wordOf ['d'] (by decide) (by decide)
  mountOn := mountOn
  fstype := wordOf ['e'] (by decide) (by decide)
  option := wordOf ['r', 'w'] (by decide) (by decide)
  options := [wordOf ['a'] (by decide) (by decide)]
  no_comma := by decide

def listingOf (mountOn : Text) : FsListing :=
  ⟨[rowOf mountOn], [rowOf mountOn], [mountLineOf mountOn]⟩

def dfText (mountOn : Text) : Text := printed [['F'], spaced (rowOf mountOn).columns]

def mountsText (mountOn : Text) : Text := printed [(mountLineOf mountOn).text]

-- A period in which `df -T` cannot be run, and one in which everything succeeds.
def failedPeriod (mountOn : Text) : FsPeriod :=
  ⟨some (dfText mountOn), none, some (mountsText mountOn), fun _ => true⟩

def fullPeriod (mountOn : Text) : FsPeriod :=
  ⟨some (dfText mountOn), some (dfText mountOn), some (mountsText mountOn), fun _ => true⟩

def root : Text := ['/']
def data : Text := ['/', 'd']

theorem isDfOutput_dfText {mountOn : Text} (hline : IsLine (spaced (rowOf mountOn).columns)) :
    IsDfOutput (listingOf mountOn).inodeRows (dfText mountOn) := by
  refine ⟨['F'], [spaced (rowOf mountOn).columns], rfl, ?_, .cons (aligned_spaced _ _) .nil⟩
  have hheading : IsLine ['F'] := ⟨by decide, by decide⟩
  simpa using ⟨hheading, hline⟩

theorem shows_failedPeriod {mountOn : Text} (hline : IsLine (spaced (rowOf mountOn).columns)) :
    (failedPeriod mountOn).Shows (listingOf mountOn) := by
  refine ⟨?_, ?_, ?_⟩
  · rintro text ⟨⟩
    exact isDfOutput_dfText hline
  · rintro text ⟨⟩
  · rintro text ⟨⟩
    rfl

theorem shows_fullPeriod {mountOn : Text} (hline : IsLine (spaced (rowOf mountOn).columns)) :
    (fullPeriod mountOn).Shows (listingOf mountOn) := by
  refine ⟨?_, ?_, ?_⟩
  · rintro text ⟨⟩
    exact isDfOutput_dfText hline
  · rintro text ⟨⟩
    exact isDfOutput_dfText hline
  · rintro text ⟨⟩
    rfl

def itemOf (mountOn mountStatus : Text) (blk : Usage) : DfStats :=
  ⟨['d'], ['e'], mountOn, mountStatus, ⟨10, 4, 6, 40⟩, blk, true⟩

theorem plain_rowOf_root : (rowOf root).Plain where
  fsname := by decide
  fstype := by decide
  mountOn := by decide
  numbers := by
    simp only [rowOf, List.forall_mem_cons, List.not_mem_nil, false_implies, implies_true, and_true]
    exact ⟨⟨10, rfl, by decide⟩, ⟨4, rfl, by decide⟩, ⟨6, rfl, by decide⟩, ⟨40, rfl, by decide⟩⟩

theorem plain_mountLineOf_root : (mountLineOf root).Plain (listingOf root).listed where
  word := by decide
  room := by decide
  mem := fun _ => ⟨by decide, List.cons_ne_nil _ _, by decide⟩
  not_mem := fun h => absurd List.mem_cons_self h

-- A run that loses no mount point: a period fails, and the next one lists what it has listed.
def rootRun : List (FsPeriod × FsListing) :=
  [(failedPeriod root, listingOf root), (fullPeriod root, listingOf root)]

theorem isLine_root : IsLine (spaced (rowOf root).columns) := ⟨by decide, by decide⟩

theorem isLine_data : IsLine (spaced (rowOf data).columns) := ⟨by decide, by decide⟩

theorem shows_rootRun : ∀ one ∈ rootRun, one.1.Shows one.2 := by
  rw [rootRun, List.forall_mem_cons, List.forall_mem_cons]
  exact ⟨shows_failedPeriod isLine_root, shows_fullPeriod isLine_root, by simp⟩

theorem readLines_root :
    (∀ line ∈ (readLines (dfText root)).tail, (getDfInodeFields line).isSome ∧
      (getDfBlockFields line).isSome) ∧
    ∀ line ∈ readLines (mountsText root), (getFsMountStatus line).isSome := by
  have hdf : (readLines (dfText root)).tail = [spaced (rowOf root).columns] := by decide +kernel
  have hmounts : readLines (mountsText root) = [(mountLineOf root).text] := by decide +kernel
  rw [hdf, hmounts]
  constructor
  · intro line hline
    rw [List.mem_singleton.mp hline]
    decide +kernel
  · intro line hline
    rw [List.mem_singleton.mp hline]
    decide +kernel

theorem fits_failedPeriod_root : (failedPeriod root).Fits where
  inode := by
    rintro text ⟨⟩ line hline
    exact (readLines_root.1 line hline).1
  block := by rintro text ⟨⟩
  mounts := by
    rintro text ⟨⟩
    exact readLines_root.2

theorem fits_fullPeriod_root : (fullPeriod root).Fits where
  inode := by
    rintro text ⟨⟩ line hline
    exact (readLines_root.1 line hline).1
  block := by
    rintro text ⟨⟩ line hline
    exact (readLines_root.1 line hline).2
  mounts := by
    rintro text ⟨⟩
    exact readLines_root.2

theorem meets_rootRun : MeetsFsRun [] rootRun := by
  refine ⟨⟨fits_failedPeriod_root, (fun _ h => by cases h), fun _ h => by cases h⟩, ?_⟩
  intro ret after output hprobe
  have hfailed : systemDiskProbe (failedPeriod root) [] = some (-1, [itemOf root [] .zero], []) := by
    decide +kernel
  rw [hfailed] at hprobe
  cases hprobe
  refine ⟨⟨fits_fullPeriod_root, fun _ _ _ => ⟨?_, ?_⟩, fun _ _ _ => ?_⟩, fun _ _ _ _ => trivial⟩
  · simpa [listingOf] using plain_rowOf_root
  · simpa [listingOf] using plain_mountLineOf_root
  · intro fsItem hfsItem _
    rw [List.mem_singleton.mp hfsItem]
    exact List.mem_cons_self

theorem systemDiskProbe_shows_rootRun :
    ((∀ one ∈ rootRun, one.1.Shows one.2) ∧ MeetsFsRun [] rootRun) ∧ ShowsFsRun [] rootRun :=
  ⟨⟨shows_rootRun, meets_rootRun⟩, systemDiskProbe_shows rootRun shows_rootRun meets_rootRun⟩

-- The failed period lists a mount point that is gone in the next one, which prints it.
theorem not_systemDiskProbe_shows :
    ¬∀ run : List (FsPeriod × FsListing), (∀ one ∈ run, one.1.Shows one.2) → ShowsFsRun [] run := by
  intro h
  have hshows : ∀ one ∈ [(failedPeriod data, listingOf data), (fullPeriod root, listingOf root)],
      one.1.Shows one.2 := by
    rw [List.forall_mem_cons, List.forall_mem_cons]
    exact ⟨shows_failedPeriod isLine_data, shows_fullPeriod isLine_root, by simp⟩
  obtain ⟨ret, after, output, hprobe, -, hrest⟩ := h _ hshows
  have hfailed : systemDiskProbe (failedPeriod data) [] = some (-1, [itemOf data [] .zero], []) := by
    decide +kernel
  rw [hfailed] at hprobe
  cases hprobe
  obtain ⟨ret, after, output, hprobe, hright, -⟩ := hrest
  have hafter : systemDiskProbe (fullPeriod root) [itemOf data [] .zero] =
      some (0, [{ itemOf data [] .zero with valid := false },
        { itemOf root ['r', 'w'] ⟨10, 4, 6, 40⟩ with valid := false }],
        [itemOf data [] .zero, itemOf root ['r', 'w'] ⟨10, 4, 6, 40⟩]) := by
    decide +kernel
  rw [hafter] at hprobe
  cases hprobe
  have hmem := ((hright rfl).mem_iff data).mp List.mem_cons_self
  exact absurd hmem (by decide)

end Gopher.SystemInfos
