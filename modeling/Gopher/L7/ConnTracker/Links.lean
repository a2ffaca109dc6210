import Gopher.L7.ConnTracker
import Gopher.Lib.Run
import Mathlib.Tactic.Tauto

namespace Gopher.L7

open Gopher.Lib

variable {φ : Type*} {mng : L7Mng φ} {id : TrackerId} {tracker : ConnTracker φ}

-- Some live tracker belongs to the link.
def HasTracker (mng : L7Mng φ) (linkId : LinkId) : Prop :=
  ∃ tracker ∈ mng.trackers, tracker.linkId = linkId

-- Some other tracker than the given one belongs to the link.
def HasOther (mng : L7Mng φ) (id : TrackerId) (linkId : LinkId) : Prop :=
  ∃ tracker ∈ mng.trackers, tracker.id ≠ id ∧ tracker.linkId = linkId

-- The links are those of the live trackers.
structure Linked (mng : L7Mng φ) : Prop where
  running : mng.crashed = false
  linked : ∀ linkId, (lkupL7Link mng linkId).isSome ↔ HasTracker mng linkId

-- The link of the tracker once the message has opened it. It may be open already.
def openLinkId (mng : L7Mng φ) (id : TrackerId) (msg : ConnOpen) : LinkId :=
  (((lkupConnTracker mng id).getD (createConnTracker id)).setOpen msg).linkId

-- The messages that keep the links those of the trackers. A new link can be made, and
-- a tracker that moves to another link or is closed leaves another tracker behind.
def KeepsLinks (survives : Bool) (mng : L7Mng φ) : ConnMsg → Prop
  | .connOpen env id msg =>
      (lkupConnTracker mng id = none ∧ env.trackerMalloc = false) ∨
        (HasTracker mng (openLinkId mng id msg) ∨ env.linkMalloc = true ∧ survives = true) ∧
          ∀ tracker, lkupConnTracker mng id = some tracker →
            tracker.linkId = openLinkId mng id msg ∨ HasOther mng id tracker.linkId
  | .connClose id => ∀ tracker, lkupConnTracker mng id = some tracker →
      HasOther mng id tracker.linkId
  | .connStats _ _ _ => True
  | .connData _ id msg => ∀ tracker, lkupConnTracker mng id = some tracker →
      let linkId := { tracker.linkId with l7Role := msg.l7Role, protocol := msg.proto }
      linkId = tracker.linkId ∨ HasOther mng id tracker.linkId ∧ HasOther mng id linkId

section Tables

-- No two trackers have one id.
def UniqueIds (mng : L7Mng φ) : Prop := (mng.trackers.map ConnTracker.id).Nodup

theorem hasTracker_iff (hids : UniqueIds mng) (id : TrackerId) (linkId : LinkId) :
    HasTracker mng linkId ↔ HasOther mng id linkId ∨
      ∃ tracker, lkupConnTracker mng id = some tracker ∧ tracker.linkId = linkId := by
  constructor
  · rintro ⟨tracker, hmem, hlink⟩
    by_cases heq : tracker.id = id
    · exact .inr ⟨tracker, (HashTable.find_eq_some hids).mpr ⟨hmem, heq⟩, hlink⟩
    · exact .inl ⟨tracker, hmem, heq, hlink⟩
  · rintro (⟨tracker, hmem, -, hlink⟩ | ⟨tracker, hfind, hlink⟩)
    · exact ⟨tracker, hmem, hlink⟩
    · exact ⟨tracker, HashTable.mem_of_find hfind, hlink⟩

theorem hasTracker_changeTracker (hids : UniqueIds mng) {change : ConnTracker φ → ConnTracker φ}
    (hfind : lkupConnTracker mng id = some tracker) (linkId : LinkId) :
    HasTracker (changeTracker change mng id) linkId ↔
      HasOther mng id linkId ∨ (change tracker).linkId = linkId := by
  constructor
  · rintro ⟨found, hmem, hlink⟩
    rcases (HashTable.mem_modify hids).mp hmem with ⟨hmem, hne⟩ | ⟨before, hbefore, rfl⟩
    · exact .inl ⟨found, hmem, hne, hlink⟩
    · obtain rfl : tracker = before := Option.some.inj (hfind.symm.trans hbefore)
      exact .inr hlink
  · rintro (⟨found, hmem, hne, hlink⟩ | hlink)
    · exact ⟨found, (HashTable.mem_modify hids).mpr (.inl ⟨hmem, hne⟩), hlink⟩
    · exact ⟨_, (HashTable.mem_modify hids).mpr (.inr ⟨tracker, hfind, rfl⟩), hlink⟩

theorem hasTracker_delConnTracker (hids : UniqueIds mng) (linkId : LinkId) :
    HasTracker (delConnTracker mng id) linkId ↔ HasOther mng id linkId := by
  constructor
  · rintro ⟨tracker, hmem, hlink⟩
    obtain ⟨hmem, hne⟩ := (HashTable.mem_del hids).mp hmem
    exact ⟨tracker, hmem, hne, hlink⟩
  · rintro ⟨tracker, hmem, hne, hlink⟩
    exact ⟨tracker, (HashTable.mem_del hids).mpr ⟨hmem, hne⟩, hlink⟩

theorem uniqueIds_changeTracker {change : ConnTracker φ → ConnTracker φ} (hids : UniqueIds mng)
    (hchange : ∀ tracker, (change tracker).id = tracker.id) :
    UniqueIds (changeTracker change mng id) := by
  unfold UniqueIds changeTracker
  rw [HashTable.map_key_modify hchange]
  exact hids

theorem lkupL7Link_changeLink (mng : L7Mng φ) {change : L7Link → L7Link}
    (hchange : ∀ link, (change link).id = link.id) (linkId other : LinkId) :
    (lkupL7Link (changeLink change mng linkId) other).isSome =
      (lkupL7Link mng other).isSome := by
  have hfind : lkupL7Link (changeLink change mng linkId) other =
      if other = linkId then (lkupL7Link mng linkId).map change else lkupL7Link mng other :=
    HashTable.find_modify hchange
  rw [hfind]
  split_ifs with heq
  · rw [heq, Option.isSome_map]
  · rfl

end Tables

section Messages

variable {survives : Bool} {env : MsgEnv}

-- Counting on a link changes nothing about the links there are.
theorem linked_changeLink {change : L7Link → L7Link}
    (hchange : ∀ link, (change link).id = link.id) (linkId : LinkId) :
    Linked (changeLink change mng linkId) ↔ Linked mng := by
  have hsome := lkupL7Link_changeLink mng hchange linkId
  constructor
  · rintro ⟨hrunning, hlinked⟩
    exact ⟨hrunning, fun other => by rw [← hsome other]; exact hlinked other⟩
  · rintro ⟨hrunning, hlinked⟩
    exact ⟨hrunning, fun other => by rw [hsome other]; exact hlinked other⟩

theorem L7Link.add_id (stat : L7Stat) (n : ℕ) (link : L7Link) : (link.add stat n).id = link.id := rfl

theorem L7Link.countData_id (msg : ConnData) (link : L7Link) : (link.countData msg).id = link.id := by
  unfold L7Link.countData
  cases msg.direction <;> rfl

theorem lkupL7Link_cons (link : L7Link) (linkId : LinkId) :
    (lkupL7Link { mng with links := link :: mng.links } linkId).isSome ↔
      linkId = link.id ∨ (lkupL7Link mng linkId).isSome := by
  by_cases heq : link.id = linkId
  · have hfind : lkupL7Link { mng with links := link :: mng.links } linkId = some link :=
      HashTable.find_cons_self heq
    simp [hfind, heq]
  · have hfind : lkupL7Link { mng with links := link :: mng.links } linkId =
        lkupL7Link mng linkId := HashTable.find_cons_of_ne heq
    simp [hfind, Ne.symm heq]

-- A tracker that has just been put there needs its link, found or made.
theorem linked_addL7Link (hrunning : mng.crashed = false) {linkId : LinkId}
    (htracker : HasTracker mng linkId) :
    Linked (addL7Link survives env mng linkId tracker) ↔
      ((lkupL7Link mng linkId).isSome ∨ env.linkMalloc = true ∧ survives = true) ∧
        ∀ other, other = linkId ∨ (lkupL7Link mng other).isSome ↔ HasTracker mng other := by
  unfold addL7Link
  cases hlink : lkupL7Link mng linkId with
  | some link =>
      have hsome : ∀ other, other = linkId ∨ (lkupL7Link mng other).isSome ↔
          (lkupL7Link mng other).isSome := by
        intro other
        refine or_iff_right_of_imp ?_
        rintro rfl
        rw [hlink]
        rfl
      simp only [linked_changeLink (L7Link.add_id _ _), hsome, Option.isSome_some, true_or, true_and]
      exact ⟨Linked.linked, fun h => ⟨hrunning, h⟩⟩
  | none =>
      cases hmalloc : env.linkMalloc with
      | false =>
          simp only [Bool.not_false, if_true, Option.isSome_none, Bool.false_eq_true, false_and,
            or_self, iff_false]
          intro h
          have hsome := (h.linked linkId).mpr htracker
          rw [hlink] at hsome
          exact Bool.noConfusion hsome
      | true =>
          cases survives with
          | false =>
              simp only [Bool.not_true, Bool.not_false, Bool.false_eq_true, if_false, if_true,
                Option.isSome_none, and_false, or_self, false_and, iff_false]
              intro h
              exact Bool.noConfusion h.running
          | true =>
              simp only [Bool.not_true, Bool.false_eq_true, if_false, Option.isSome_none, and_self,
                or_true, true_and]
              constructor
              · intro h other
                exact (lkupL7Link_cons _ other).symm.trans (h.linked other)
              · intro h
                exact ⟨hrunning, fun other => (lkupL7Link_cons _ other).trans (h other)⟩

-- The state an open message leaves before it looks for the link.
def opened (mng : L7Mng φ) (id : TrackerId) (msg : ConnOpen) : L7Mng φ :=
  let mng := if (lkupConnTracker mng id).isSome then mng
    else { mng with trackers := createConnTracker id :: mng.trackers }
  changeTracker (ConnTracker.setOpen msg) mng id

def openedTracker (mng : L7Mng φ) (id : TrackerId) (msg : ConnOpen) : ConnTracker φ :=
  ((lkupConnTracker mng id).getD (createConnTracker id)).setOpen msg

theorem procConnOpen_eq (survives : Bool) (msg : ConnOpen)
    (h : ¬(lkupConnTracker mng id = none ∧ env.trackerMalloc = false)) :
    procConnOpen survives env id msg mng =
      addL7Link survives env (opened mng id msg) (openLinkId mng id msg)
        (openedTracker mng id msg) := by
  unfold procConnOpen addConnTracker opened openLinkId openedTracker
  cases hfind : lkupConnTracker mng id with
  | some tracker =>
      have hopen : lkupConnTracker (changeTracker (ConnTracker.setOpen msg) mng id) id =
          some (tracker.setOpen msg) := by
        have hmodify : lkupConnTracker (changeTracker (ConnTracker.setOpen msg) mng id) id = _ :=
          HashTable.find_modify fun _ => rfl
        rw [hmodify, if_pos rfl]
        exact congrArg _ hfind
      simp [hopen]
  | none =>
      have hmalloc : env.trackerMalloc = true := by simpa [hfind] using h
      have hopen : lkupConnTracker (changeTracker (ConnTracker.setOpen msg)
          { mng with trackers := createConnTracker id :: mng.trackers } id) id =
          some ((createConnTracker id).setOpen msg) := by
        have hmodify : lkupConnTracker (changeTracker (ConnTracker.setOpen msg)
            { mng with trackers := createConnTracker id :: mng.trackers } id) id = _ :=
          HashTable.find_modify fun _ => rfl
        rw [hmodify, if_pos rfl]
        exact congrArg _ (HashTable.find_cons_self rfl)
      simp [hmalloc, hopen]

theorem uniqueIds_opened (hids : UniqueIds mng) (msg : ConnOpen) :
    UniqueIds (opened mng id msg) := by
  unfold opened
  refine uniqueIds_changeTracker ?_ fun _ => rfl
  split_ifs with hfind
  · exact hids
  · exact HashTable.nodup_cons (Option.not_isSome_iff_eq_none.mp hfind) hids

theorem hasTracker_opened (hids : UniqueIds mng) (msg : ConnOpen) (linkId : LinkId) :
    HasTracker (opened mng id msg) linkId ↔
      HasOther mng id linkId ∨ openLinkId mng id msg = linkId := by
  unfold opened openLinkId
  cases hfind : lkupConnTracker mng id with
  | some tracker => exact hasTracker_changeTracker hids hfind linkId
  | none =>
      have hadded : UniqueIds { mng with trackers := createConnTracker id :: mng.trackers } :=
        HashTable.nodup_cons hfind hids
      have hother : HasOther { mng with trackers := createConnTracker id :: mng.trackers } id linkId ↔
          HasOther mng id linkId := by
        constructor
        · rintro ⟨tracker, hmem, hne, hlink⟩
          rcases List.mem_cons.mp hmem with rfl | hmem
          · exact absurd rfl hne
          · exact ⟨tracker, hmem, hne, hlink⟩
        · rintro ⟨tracker, hmem, hne, hlink⟩
          exact ⟨tracker, List.mem_cons_of_mem _ hmem, hne, hlink⟩
      rw [← hother]
      exact hasTracker_changeTracker hadded (HashTable.find_cons_self rfl) linkId

theorem linked_procConnOpen (hids : UniqueIds mng) (h : Linked mng) (msg : ConnOpen) :
    Linked (procConnOpen survives env id msg mng) ↔
      KeepsLinks survives mng (.connOpen env id msg) := by
  by_cases hrefused : lkupConnTracker mng id = none ∧ env.trackerMalloc = false
  · have hsame : procConnOpen survives env id msg mng = mng := by
      simp [procConnOpen, addConnTracker, hrefused]
    rw [hsame]
    exact iff_of_true h (.inl hrefused)
  · rw [procConnOpen_eq survives msg hrefused]
    have htracker := (hasTracker_opened hids msg (openLinkId mng id msg)).mpr (.inr rfl)
    have hcrashed : (opened mng id msg).crashed = false := by
      unfold opened
      split_ifs <;> exact h.running
    have hlinks (linkId : LinkId) :
        (lkupL7Link (opened mng id msg) linkId).isSome ↔ HasTracker mng linkId := by
      rw [← h.linked linkId]
      unfold opened
      split_ifs <;> rfl
    rw [linked_addL7Link hcrashed htracker]
    simp only [hlinks, hasTracker_opened hids, KeepsLinks, hrefused, false_or]
    refine and_congr_right fun hready => ?_
    simp only [hasTracker_iff hids id]
    constructor
    · intro hall tracker hfind
      have hafter := (hall tracker.linkId).mp (.inr (.inr ⟨tracker, hfind, rfl⟩))
      exact hafter.symm.imp_left Eq.symm
    · intro hmoved other
      constructor
      · rintro (rfl | hother | ⟨tracker, hfind, rfl⟩)
        · exact .inr rfl
        · exact .inl hother
        · exact (hmoved tracker hfind).symm.imp_right Eq.symm
      · rintro (hother | rfl)
        · exact .inr (.inl hother)
        · exact .inl rfl

-- The closing tracker is still in its table when the last one of the link is looked
-- for, so that a link is never taken out.
theorem delL7Link_eq (h : Linked mng) (hfind : lkupConnTracker mng id = some tracker) :
    delL7Link mng tracker.linkId = changeLink (L7Link.add .closeEvt 1) mng tracker.linkId := by
  have hmem : tracker ∈ mng.trackers := HashTable.mem_of_find hfind
  obtain ⟨link, hlink⟩ := Option.isSome_iff_exists.mp
    ((h.linked tracker.linkId).mpr ⟨tracker, hmem, rfl⟩)
  have hlast : (findConnTracker mng tracker.linkId).isSome := by
    unfold findConnTracker
    rw [List.find?_isSome]
    exact ⟨tracker, List.mem_reverse.mpr hmem, by simp⟩
  obtain ⟨last, hlast⟩ := Option.isSome_iff_exists.mp hlast
  unfold delL7Link
  rw [hlink, hlast]

theorem linked_procConnClose (hids : UniqueIds mng) (h : Linked mng) :
    Linked (procConnClose id mng) ↔ KeepsLinks survives mng (.connClose id) := by
  have hdel (hfind : ∀ tracker, lkupConnTracker mng id = some tracker →
      HasOther mng id tracker.linkId) : Linked (delConnTracker mng id) := by
    refine ⟨h.running, fun linkId => ?_⟩
    rw [hasTracker_delConnTracker hids]
    refine (h.linked linkId).trans ((hasTracker_iff hids id linkId).trans ?_)
    refine or_iff_left_of_imp ?_
    rintro ⟨tracker, hfound, rfl⟩
    exact hfind tracker hfound
  unfold procConnClose KeepsLinks
  cases hfind : lkupConnTracker mng id with
  | none => exact iff_of_true (hdel (by simp [hfind])) (by simp [hfind])
  | some tracker =>
      have hchange : delConnTracker (changeLink (L7Link.add .closeEvt 1) mng tracker.linkId) id =
          changeLink (L7Link.add .closeEvt 1) (delConnTracker mng id) tracker.linkId := rfl
      dsimp only
      rw [delL7Link_eq h hfind, hchange, linked_changeLink (L7Link.add_id _ _)]
      constructor
      · intro hclosed found hfound
        obtain rfl : tracker = found := Option.some.inj (hfind.symm.trans hfound)
        have htracker : HasTracker mng tracker.linkId :=
          ⟨tracker, HashTable.mem_of_find hfind, rfl⟩
        have hlink := (h.linked tracker.linkId).mpr htracker
        exact (hasTracker_delConnTracker hids _).mp ((hclosed.linked _).mp hlink)
      · intro hother
        exact hdel hother

-- A tracker that may have changed its link, with the links as they were.
theorem linked_changeTracker (hids : UniqueIds mng) (h : Linked mng)
    (hfind : lkupConnTracker mng id = some tracker) {change : ConnTracker φ → ConnTracker φ} :
    Linked (changeTracker change mng id) ↔ (change tracker).linkId = tracker.linkId ∨
      HasOther mng id tracker.linkId ∧ HasOther mng id (change tracker).linkId := by
  have hbefore (linkId : LinkId) :
      HasTracker mng linkId ↔ HasOther mng id linkId ∨ tracker.linkId = linkId := by
    rw [hasTracker_iff hids id]
    simp [hfind]
  have hlinked : Linked (changeTracker change mng id) ↔ ∀ linkId,
      (HasOther mng id linkId ∨ tracker.linkId = linkId ↔
        HasOther mng id linkId ∨ (change tracker).linkId = linkId) := by
    constructor
    · intro hafter linkId
      rw [← hbefore, ← hasTracker_changeTracker hids hfind, ← h.linked linkId]
      exact hafter.linked linkId
    · intro hall
      refine ⟨h.running, fun linkId => ?_⟩
      rw [hasTracker_changeTracker hids hfind, ← hall, ← hbefore]
      exact h.linked linkId
  rw [hlinked]
  constructor
  · intro hall
    by_cases heq : (change tracker).linkId = tracker.linkId
    · exact .inl heq
    · have hold := ((hall tracker.linkId).mp (.inr rfl)).resolve_right heq
      have hnew := ((hall (change tracker).linkId).mpr (.inr rfl)).resolve_right (Ne.symm heq)
      exact .inr ⟨hold, hnew⟩
  · rintro (heq | ⟨hold, hnew⟩) linkId
    · rw [heq]
    · constructor
      · rintro (hother | rfl)
        · exact .inl hother
        · exact .inl hold
      · rintro (hother | rfl)
        · exact .inl hother
        · exact .inl hnew

theorem linked_procConnStatsMsg (hids : UniqueIds mng) (h : Linked mng) (wrBytes rdBytes : ℕ) :
    Linked (procConnStatsMsg id wrBytes rdBytes mng) := by
  unfold procConnStatsMsg
  cases hfind : lkupConnTracker mng id with
  | none => exact h
  | some tracker =>
      have hsame : Linked (changeTracker (fun tracker =>
          { tracker with stats := countBytes wrBytes rdBytes tracker.stats }) mng id) :=
        (linked_changeTracker hids h hfind).mpr (.inl rfl)
      refine (linked_changeLink ?_ _).mpr hsame
      exact fun _ => rfl

theorem linkId_setData (env : MsgEnv) (msg : ConnData) (tracker : ConnTracker φ) :
    (tracker.setData env msg).linkId =
      { tracker.linkId with l7Role := msg.l7Role, protocol := msg.proto } := by
  unfold ConnTracker.setData
  cases msg.direction <;> rfl

theorem linked_procConnDataMsg (hids : UniqueIds mng) (h : Linked mng) (msg : ConnData) :
    Linked (procConnDataMsg env id msg mng) ↔
      KeepsLinks survives mng (.connData env id msg) := by
  unfold procConnDataMsg KeepsLinks
  cases hfind : lkupConnTracker mng id with
  | none => exact iff_of_true h (by simp [hfind])
  | some tracker =>
      have htracker : HasTracker mng tracker.linkId := ⟨tracker, HashTable.mem_of_find hfind, rfl⟩
      obtain ⟨link, hlink⟩ := Option.isSome_iff_exists.mp ((h.linked _).mpr htracker)
      simp only [findL7Link, hlink]
      rw [linked_changeLink (L7Link.countData_id msg), linked_changeTracker hids h hfind,
        linkId_setData]
      simp [hfind]

end Messages

section Run

variable {survives : Bool}

theorem uniqueIds_procConnMsg (hids : UniqueIds mng) (msg : ConnMsg) :
    UniqueIds (procConnMsg survives mng msg) := by
  have hdata (env : MsgEnv) (msg : ConnData) (tracker : ConnTracker φ) :
      (tracker.setData env msg).id = tracker.id := by
    unfold ConnTracker.setData
    cases msg.direction <;> rfl
  unfold procConnMsg
  split_ifs
  · exact hids
  · cases msg with
    | connOpen env id msg =>
        by_cases hrefused : lkupConnTracker mng id = none ∧ env.trackerMalloc = false
        · simpa [procConnOpen, addConnTracker, hrefused] using hids
        · dsimp only
          rw [procConnOpen_eq survives msg hrefused]
          unfold addL7Link
          split
          · exact uniqueIds_opened hids msg
          · split_ifs <;> exact uniqueIds_opened hids msg
    | connClose id =>
        dsimp only [procConnClose]
        split
        · exact HashTable.nodup_del hids
        · unfold delL7Link
          split
          · exact HashTable.nodup_del hids
          · split <;> exact HashTable.nodup_del hids
    | connStats id wrBytes rdBytes =>
        dsimp only [procConnStatsMsg]
        split
        · exact hids
        · exact uniqueIds_changeTracker hids fun _ => rfl
    | connData env id msg =>
        dsimp only [procConnDataMsg]
        split
        · exact hids
        · split
          · exact hids
          · exact uniqueIds_changeTracker hids (hdata env msg)

-- A message keeps the links those of the trackers exactly under its condition.
theorem linked_procConnMsg (hids : UniqueIds mng) (h : Linked mng) (msg : ConnMsg) :
    Linked (procConnMsg survives mng msg) ↔ KeepsLinks survives mng msg := by
  have hrunning : ¬mng.crashed = true := by simp [h.running]
  unfold procConnMsg
  rw [if_neg hrunning]
  cases msg with
  | connOpen env id msg => exact linked_procConnOpen hids h msg
  | connClose id => exact linked_procConnClose hids h
  | connStats id wrBytes rdBytes => exact iff_of_true (linked_procConnStatsMsg hids h _ _) trivial
  | connData env id msg => exact linked_procConnDataMsg hids h msg

-- Over every sequence of messages, the links are those of the live trackers after each
-- message exactly if each message meets its condition.
theorem linked_iff (survives : Bool) (msgs : List ConnMsg) :
    Throughout (procConnMsg survives) (L7Mng.empty : L7Mng φ) (fun _ mng => Linked mng) msgs ↔
      EachStep (procConnMsg survives) (L7Mng.empty : L7Mng φ)
        (fun _ mng msg => KeepsLinks survives mng msg) msgs := by
  have hlegal : EachStep (procConnMsg survives) (L7Mng.empty : L7Mng φ) (fun _ _ _ => True) msgs :=
    fun _ _ _ _ => trivial
  have hempty : Linked (L7Mng.empty : L7Mng φ) :=
    ⟨rfl, fun linkId => by simp [L7Mng.empty, lkupL7Link, HasTracker]⟩
  have hids : UniqueIds (L7Mng.empty : L7Mng φ) := List.nodup_nil
  refine throughout_iff_eachStep (fun _ mng => UniqueIds mng ∧ Linked mng) ⟨hids, hempty⟩
    (fun _ _ hinv => hinv.2) ?_ ?_ hlegal
  · rintro done mng msg ⟨hids, hlinked⟩ - hkeeps
    exact ⟨uniqueIds_procConnMsg hids msg, (linked_procConnMsg hids hlinked msg).mpr hkeeps⟩
  · rintro done mng msg ⟨hids, hlinked⟩ - hafter
    exact (linked_procConnMsg hids hlinked msg).mp hafter

end Run

def plainMsgEnv : MsgEnv where
  trackerMalloc := true
  linkMalloc := true
  rawDataMalloc := true
  getProcComm := fun _ => []
  getContainerIdByPidCpuset := fun _ => []
  getContainerPodId := fun _ => []
  getPodIp := fun _ => []

-- One connection is opened and closed.
def openedAndClosed : List ConnMsg :=
  [.connOpen plainMsgEnv ⟨7, 3⟩ ⟨0, ⟨2, 80, List.replicate 16 0⟩, .client, false⟩,
    .connClose ⟨7, 3⟩]

-- The first message ends the process, or the second leaves the link of no tracker.
theorem openedAndClosed_not_linked :
    ¬∃ survives, ∀ msgs,
      Throughout (procConnMsg survives) (L7Mng.empty : L7Mng Unit) (fun _ mng => Linked mng) msgs := by
  rintro ⟨survives, h⟩
  have hlinked := (h openedAndClosed).last
  cases survives with
  | false => exact absurd hlinked.running (by decide)
  | true =>
      have htracker := (hlinked.linked
        ⟨7, ⟨2, 80, List.replicate 16 0⟩, .client, .unknown, .unknown⟩).mp (by decide)
      have hnone : (openedAndClosed.foldl (procConnMsg true)
          (L7Mng.empty : L7Mng Unit)).trackers = [] := rfl
      obtain ⟨tracker, hmem, -⟩ := htracker
      rw [hnone] at hmem
      exact List.not_mem_nil hmem

end Gopher.L7
