import Gopher.L7.ConnTable
import Gopher.L7.ConnTracker.Links

-- What the trackers of the probe make of the announcements.

namespace Gopher.L7.ConnTable

open Lib

variable {φ : Type*}

def ConnCtl.toMsg (env : MsgEnv) (ctl : ConnCtl) : ConnMsg :=
  match ctl.evt with
  | .open addr l4Role isSsl =>
      .connOpen env ctl.connId { timestampNs := ctl.timestampNs, addr, l4Role, isSsl }
  | .close _ _ => .connClose ctl.connId

-- The probe takes the messages in the order in which they were sent.
def deliver (survives : Bool) (mng : L7Mng φ) (delivered : List (MsgEnv × ConnCtl)) : L7Mng φ :=
  delivered.foldl (fun mng msg => procConnMsg survives mng (msg.2.toMsg msg.1)) mng

section Trackers

variable {survives : Bool} {env : MsgEnv} {mng : L7Mng φ} {id : ConnId}

def Untracked (mng : L7Mng φ) (id : ConnId) : Prop := id ∉ mng.trackers.map ConnTracker.id

theorem trackers_addL7Link (linkId : LinkId) (tracker : ConnTracker φ) :
    (addL7Link survives env mng linkId tracker).trackers = mng.trackers := by
  rw [addL7Link]
  split
  · rfl
  · split_ifs <;> rfl

theorem trackers_delL7Link (linkId : LinkId) : (delL7Link mng linkId).trackers = mng.trackers := by
  rw [delL7Link]
  split
  · rfl
  · split <;> rfl

theorem Untracked.changeTracker (h : Untracked mng id) (change : ConnTracker φ → ConnTracker φ)
    (other : ConnId) (hchange : ∀ tracker, (change tracker).id = tracker.id) :
    Untracked (changeTracker change mng other) id := by
  rwa [Untracked, L7.changeTracker, HashTable.map_key_modify hchange]

-- An announcement of another connection.
theorem Untracked.procConnOpen (h : Untracked mng id) {other : ConnId} (hne : id ≠ other)
    (msg : ConnOpen) : Untracked (procConnOpen survives env other msg mng) id := by
  have hadded : Untracked (addConnTracker env mng other).1 id := by
    rw [addConnTracker]
    split_ifs
    · exact h
    · exact List.not_mem_cons_of_ne_of_not_mem hne h
    · exact h
  rw [L7.procConnOpen]
  split
  case h_1 added heq =>
      rw [heq] at hadded
      exact hadded
  case h_2 added heq =>
      rw [heq] at hadded
      have hset := hadded.changeTracker (ConnTracker.setOpen msg) other fun _ => rfl
      dsimp only
      split
      · exact hset
      · rwa [Untracked, trackers_addL7Link]

theorem trackers_procConnClose (other : ConnId) :
    (procConnClose other mng).trackers = HashTable.del ConnTracker.id mng.trackers other := by
  rw [procConnClose]
  split
  · rfl
  · rw [delConnTracker, trackers_delL7Link]

theorem Untracked.procConnClose (h : Untracked mng id) (other : ConnId) :
    Untracked (procConnClose other mng) id := by
  rw [Untracked, trackers_procConnClose]
  exact fun hmem => h ((HashTable.del_sublist.map ConnTracker.id).subset hmem)

-- Only an announcement of the connection makes its tracker.
theorem Untracked.toMsg (h : Untracked mng id) {ctl : ConnCtl} (hopen : ctl.isOpen id = false) :
    Untracked (procConnMsg survives mng (ctl.toMsg env)) id := by
  unfold procConnMsg
  split_ifs
  · exact h
  · rw [ConnCtl.isOpen] at hopen
    rw [ConnCtl.toMsg]
    cases hevt : ctl.evt with
    | «open» addr l4Role isSsl =>
        rw [hevt] at hopen
        exact h.procConnOpen (Ne.symm (by simpa using hopen)) _
    | close wrBytes rdBytes => exact h.procConnClose ctl.connId

end Trackers

section Delivery

variable {survives : Bool} {mng : L7Mng φ} {id : ConnId} {delivered : List (MsgEnv × ConnCtl)}

theorem Untracked.deliver (h : Untracked mng id)
    (hopen : ∀ msg ∈ delivered, msg.2.isOpen id = false) :
    Untracked (deliver survives mng delivered) id := by
  induction delivered generalizing mng with
  | nil => exact h
  | cons msg delivered ih =>
      obtain ⟨hmsg, hrest⟩ := List.forall_mem_cons.mp hopen
      exact ih (h.toMsg hmsg) hrest

end Delivery

end Gopher.L7.ConnTable
