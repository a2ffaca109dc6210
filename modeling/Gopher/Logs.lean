import Gopher.Lib.Ring
import Gopher.Lib.Run
import Mathlib.Algebra.Group.Int.Defs
import Mathlib.Algebra.Group.Nat.Defs
import Mathlib.Data.Int.Notation
import Mathlib.Data.Nat.Notation

namespace Gopher.Logs

def METRICS_LOGS_MAXNUM : ℕ := 100

def INVALID_FILE_ID : ℤ := -1

def isValidFileId (id : ℤ) : Bool := id ≠ INVALID_FILE_ID

def INT_MAX : ℤ := 2147483647

-- The value of an `int` and of a `size_t`. Counters that overflow wrap around.
def toInt (n : ℤ) : ℤ := n.bmod (2 ^ 32)
def toSizeT (n : ℤ) : ℕ := (n % (2 ^ 64 : ℕ)).toNat

structure FileNode where
  len : UInt64
  fileId : ℤ
  deriving DecidableEq, Repr

structure FilesQueue (queSize : ℕ) where
  nextFileId : ℤ
  front : ℤ
  rear : ℤ
  current : FileNode
  queue : Vector FileNode queSize

section FilesQueue

variable {queSize : ℕ}

-- `none` is an access outside the array.
def read (queue : Vector FileNode queSize) (pos : ℤ) : Option FileNode :=
  if 0 ≤ pos then queue[pos.toNat]? else none

def write (queue : Vector FileNode queSize) (pos : ℤ) (node : FileNode) :
    Option (Vector FileNode queSize) :=
  if h : 0 ≤ pos ∧ pos < queSize then some (queue.set pos.toNat node (by omega)) else none

def isEmptyQueue (que : FilesQueue queSize) : Bool :=
  toInt (que.rear.tmod (toInt queSize)) = que.front

def isFullQueue (que : FilesQueue queSize) : Bool :=
  toInt ((toInt (que.rear + 1)).tmod (toInt queSize)) = que.front

def enQueue (que : FilesQueue queSize) (node : FileNode) : Option (FilesQueue queSize × ℤ) :=
  if isFullQueue que then some (que, -1)
  else do
    let pos := toInt (toSizeT que.rear % queSize : ℕ)
    let queue ← write que.queue pos node
    return ({ que with queue := queue, rear := toInt (que.rear + 1) }, 0)

def deQueue (que : FilesQueue queSize) : Option (FilesQueue queSize × ℤ) :=
  if isEmptyQueue que then some (que, INVALID_FILE_ID)
  else do
    let pos := que.front
    let node ← read que.queue pos
    let queue ← write que.queue pos ⟨0, INVALID_FILE_ID⟩
    return ({ que with
      queue := queue
      front := toInt (toSizeT (toInt (que.front + 1)) % queSize : ℕ) }, node.fileId)

def createQueue (queSize : ℕ) : FilesQueue queSize :=
  ⟨0, 0, 0, ⟨0, INVALID_FILE_ID⟩, Vector.replicate queSize ⟨0, 0⟩⟩

def queRemoveCurrent (que : FilesQueue queSize) : FilesQueue queSize × ℤ :=
  ({ que with current := ⟨0, INVALID_FILE_ID⟩ }, que.current.fileId)

def quePopFile (que : FilesQueue queSize) : Option (FilesQueue queSize × ℤ) := do
  let (que, popFileId) ← deQueue que
  if !isValidFileId popFileId then return queRemoveCurrent que
  else return (que, popFileId)

def nextId (id : ℤ) : ℤ := if toInt (id + 1) < 0 then 0 else toInt (id + 1)

def queNextCurrent (que : FilesQueue queSize) : FilesQueue queSize :=
  { que with current := ⟨0, que.nextFileId⟩, nextFileId := nextId que.nextFileId }

def queGetNextFile (que : FilesQueue queSize) : Option (FilesQueue queSize × ℤ) :=
  if isValidFileId que.current.fileId then do
    let (que, ret) ← enQueue que que.current
    if ret ≠ 0 then return (que, -1)
    else return (queNextCurrent que, 0)
  else some (queNextCurrent que, 0)

def queCurrentSetSize (que : FilesQueue queSize) (size : UInt64) : FilesQueue queSize :=
  { que with current.len := que.current.len + size }

end FilesQueue

open Gopher.Lib

variable {queSize front rear : ℕ} {que : FilesQueue queSize} {ring : List FileNode}

-- The queue stores `ring`, oldest node first, and has taken in `rear` nodes.
structure Rep (que : FilesQueue queSize) (front rear : ℕ) (ring : List FileNode) : Prop where
  front_eq : que.front = front
  rear_eq : que.rear = rear
  front_lt : front < queSize
  size_le : (queSize : ℤ) ≤ INT_MAX
  rear_le : (rear : ℤ) ≤ INT_MAX
  room : ring.length < queSize
  slot : rear % queSize = (front + ring.length) % queSize
  cells : Ring.Cells (fun i => que.queue[i]?) queSize front ring
  valid : ∀ node ∈ ring, isValidFileId node.fileId

theorem toInt_of_le {n : ℤ} (hnonneg : 0 ≤ n) (hle : n ≤ INT_MAX) : toInt n = n := by
  unfold INT_MAX at hle
  rw [toInt, Int.bmod_eq_of_le (by omega) (by omega)]

theorem toSizeT_natCast {n : ℕ} (hle : (n : ℤ) ≤ INT_MAX) : toSizeT n = n := by
  unfold INT_MAX at hle
  unfold toSizeT
  omega

theorem toInt_tmod {n : ℕ} (hsize : (queSize : ℤ) ≤ INT_MAX) (hpos : 0 < queSize) :
    toInt ((n : ℤ).tmod (toInt queSize)) = (n % queSize : ℕ) := by
  have hlt := Nat.mod_lt n hpos
  rw [toInt_of_le (by omega) hsize, ← Int.ofNat_tmod, toInt_of_le (by omega) (by omega)]

theorem enQueue_of_room {pos : ℕ} (hpos : pos < queSize) (hfull : isFullQueue que = false)
    (hslot : toInt (toSizeT que.rear % queSize : ℕ) = pos) (node : FileNode) :
    enQueue que node = some ({ que with
      queue := que.queue.set pos node
      rear := toInt (que.rear + 1) }, 0) := by
  have hbound : 0 ≤ (pos : ℤ) ∧ (pos : ℤ) < queSize := by omega
  simp only [enQueue, hfull, Bool.false_eq_true, if_false, hslot, write, dif_pos hbound,
    Option.bind_eq_bind, Option.bind_some]
  rfl

theorem deQueue_of_stored {pos next : ℕ} {node : FileNode} (hpos : pos < queSize)
    (hfront : que.front = pos) (hempty : isEmptyQueue que = false)
    (hnode : que.queue[pos]? = some node)
    (hnext : toInt (toSizeT (toInt ((pos : ℤ) + 1)) % queSize : ℕ) = next) :
    deQueue que = some ({ que with
      queue := que.queue.set pos ⟨0, INVALID_FILE_ID⟩
      front := next }, node.fileId) := by
  have hbound : 0 ≤ (pos : ℤ) ∧ (pos : ℤ) < queSize := by omega
  have hread : read que.queue pos = some node := by
    rw [read, if_pos hbound.1]
    exact hnode
  simp only [deQueue, hempty, Bool.false_eq_true, if_false, hfront, hread, hnext, write,
    dif_pos hbound, Option.bind_eq_bind, Option.bind_some]
  rfl

namespace Rep

theorem size_pos (h : Rep que front rear ring) : 0 < queSize := Nat.zero_lt_of_lt h.front_lt

theorem isEmptyQueue_iff (h : Rep que front rear ring) : isEmptyQueue que ↔ ring = [] := by
  have hroom := h.room
  rw [isEmptyQueue, decide_eq_true_eq, h.rear_eq, h.front_eq, toInt_tmod h.size_le h.size_pos,
    Int.natCast_inj, h.slot, Ring.add_mod_eq_self_iff h.front_lt (by omega),
    ← List.length_eq_zero_iff]
  omega

theorem isFullQueue_iff (h : Rep que front rear ring) (hrear : que.rear ≠ INT_MAX) :
    isFullQueue que ↔ ring.length + 1 = queSize := by
  have hroom := h.room
  have hle := h.rear_le
  rw [h.rear_eq] at hrear
  have hnext : toInt ((rear : ℤ) + 1) = (rear + 1 : ℕ) := toInt_of_le (by omega) (by omega)
  rw [isFullQueue, decide_eq_true_eq, h.rear_eq, h.front_eq, hnext,
    toInt_tmod h.size_le h.size_pos, Int.natCast_inj, ← Nat.mod_add_mod, h.slot, Nat.mod_add_mod,
    Nat.add_assoc, Ring.add_mod_eq_self_iff h.front_lt (by omega)]
  omega

theorem enQueue (h : Rep que front rear ring) (hrear : que.rear ≠ INT_MAX)
    (hfull : ring.length + 1 ≠ queSize) {node : FileNode} (hnode : isValidFileId node.fileId) :
    ∃ queue, Logs.enQueue que node = some ({ que with queue := queue, rear := que.rear + 1 }, 0) ∧
      Rep { que with queue := queue, rear := que.rear + 1 } front (rear + 1) (ring ++ [node]) := by
  have hroom := h.room
  have hsize := h.size_le
  have hle := h.rear_le
  have hslot := Nat.mod_lt rear h.size_pos
  have hnot : isFullQueue que = false := by
    rw [Bool.eq_false_iff, ne_eq, h.isFullQueue_iff hrear]
    exact hfull
  rw [h.rear_eq] at hrear
  have hpos : toInt (toSizeT que.rear % queSize : ℕ) = (rear % queSize : ℕ) := by
    rw [h.rear_eq, toSizeT_natCast hle, toInt_of_le (by omega) (by omega)]
  have hnext : toInt (que.rear + 1) = que.rear + 1 := by
    rw [h.rear_eq]
    exact toInt_of_le (by omega) (by omega)
  rw [enQueue_of_room hslot hnot hpos, hnext]
  refine ⟨_, rfl, h.front_eq, ?_, h.front_lt, hsize, by omega, ?_, ?_, ?_, ?_⟩
  · change que.rear + 1 = _
    rw [h.rear_eq, Int.natCast_succ]
  · rw [List.length_append, List.length_singleton]
    omega
  · rw [List.length_append, List.length_singleton, ← Nat.mod_add_mod, h.slot, Nat.mod_add_mod,
      Nat.add_assoc]
  · refine h.cells.put hroom (fun i hi => ?_) ?_
    · rw [← h.slot] at hi
      exact Vector.getElem?_set_ne hslot hi.symm
    · rw [← h.slot]
      exact Vector.getElem?_set_self hslot
  · intro other hother
    rcases List.mem_append.mp hother with hold | hnew
    · exact h.valid other hold
    · obtain rfl := List.mem_singleton.mp hnew
      exact hnode

theorem deQueue {node : FileNode} (h : Rep que front rear (node :: ring)) :
    ∃ queue front', Logs.deQueue que = some
        ({ que with queue := queue, front := (front' : ℕ) }, node.fileId) ∧
      Rep { que with queue := queue, front := (front' : ℕ) } front' rear ring := by
  have hroom := h.room
  have hsize := h.size_le
  have hfront := h.front_lt
  have hmod := Nat.mod_lt (front + 1) h.size_pos
  rw [List.length_cons] at hroom
  have hnot : isEmptyQueue que = false := by
    rw [Bool.eq_false_iff, ne_eq, h.isEmptyQueue_iff]
    exact List.cons_ne_nil _ _
  have hnext : toInt (toSizeT (toInt ((front : ℤ) + 1)) % queSize : ℕ) =
      ((front + 1) % queSize : ℕ) := by
    have hint : toInt ((front : ℤ) + 1) = (front + 1 : ℕ) := toInt_of_le (by omega) (by omega)
    rw [hint, toSizeT_natCast (by omega), toInt_of_le (by omega) (by omega)]
  rw [deQueue_of_stored hfront h.front_eq hnot (h.cells.head hfront) hnext]
  refine ⟨_, _, rfl, rfl, h.rear_eq, hmod, hsize, h.rear_le, by omega, ?_, ?_, ?_⟩
  · rw [h.slot, List.length_cons, Nat.mod_add_mod, Nat.add_right_comm, Nat.add_assoc]
  · refine h.cells.get hfront (by omega) fun i hi => ?_
    exact Vector.getElem?_set_ne hfront hi.symm
  · exact fun other hother => h.valid other (.tail _ hother)

theorem set_current (h : Rep que front rear ring) (nextFileId : ℤ) (current : FileNode) :
    Rep { que with nextFileId := nextFileId, current := current } front rear ring :=
  ⟨h.front_eq, h.rear_eq, h.front_lt, h.size_le, h.rear_le, h.room, h.slot, h.cells, h.valid⟩

end Rep

-- The files to be popped: those in the queue, then the current one.
def waiting (ring : List FileNode) (current : FileNode) : List ℤ :=
  ring.map FileNode.fileId ++ if isValidFileId current.fileId then [current.fileId] else []

theorem valid_of_nonneg {id : ℤ} (h : 0 ≤ id) : isValidFileId id = true := by
  rw [isValidFileId, decide_eq_true_eq, INVALID_FILE_ID]
  omega

-- A file is created unless there are `queSize` files already.
theorem Rep.queGetNextFile (h : Rep que front rear ring) (hnext : 0 ≤ que.nextFileId)
    (hrear : isValidFileId que.current.fileId → que.rear ≠ INT_MAX) :
    if (waiting ring que.current).length = queSize then
      Logs.queGetNextFile que = some (que, -1)
    else ∃ after front' rear' ring', Logs.queGetNextFile que = some (after, 0) ∧
      Rep after front' rear' ring' ∧ after.current.fileId = que.nextFileId ∧
      waiting ring' after.current = waiting ring que.current ++ [que.nextFileId] ∧
      after.nextFileId = nextId que.nextFileId := by
  have hroom := h.room
  have hvalidNext := valid_of_nonneg hnext
  unfold Logs.queGetNextFile
  cases hvalid : isValidFileId que.current.fileId with
  | false =>
      have hlen : (waiting ring que.current).length = ring.length := by simp [waiting, hvalid]
      rw [if_neg (by omega)]
      refine ⟨_, front, rear, ring, rfl, h.set_current _ _, rfl, ?_, rfl⟩
      simp [waiting, hvalid, hvalidNext, queNextCurrent]
  | true =>
      have hlen : (waiting ring que.current).length = ring.length + 1 := by simp [waiting, hvalid]
      rw [hlen]
      by_cases hfull : ring.length + 1 = queSize
      · rw [if_pos hfull]
        have hfullQueue := (h.isFullQueue_iff (hrear hvalid)).mpr hfull
        simp [Logs.enQueue, hfullQueue]
      · rw [if_neg hfull]
        obtain ⟨queue, henqueue, hrep⟩ := h.enQueue (hrear hvalid) hfull hvalid
        simp only [henqueue, if_true, Option.bind_eq_bind, Option.bind_some, ne_eq, not_true,
          if_false]
        refine ⟨_, front, rear + 1, ring ++ [que.current], rfl, hrep.set_current _ _, rfl, ?_, rfl⟩
        simp [waiting, hvalid, hvalidNext, queNextCurrent]

-- The oldest file is popped, if there is one.
theorem Rep.quePopFile (h : Rep que front rear ring) :
    ∃ after front' ring', Logs.quePopFile que =
        some (after, (waiting ring que.current).head?.getD INVALID_FILE_ID) ∧
      Rep after front' rear ring' ∧
      waiting ring' after.current = (waiting ring que.current).tail ∧
      after.nextFileId = que.nextFileId := by
  unfold Logs.quePopFile
  cases ring with
  | nil =>
      have hempty := h.isEmptyQueue_iff.mpr rfl
      have hinvalid : isValidFileId INVALID_FILE_ID = false := by decide
      simp only [Logs.deQueue, hempty, if_true, Option.bind_eq_bind, Option.bind_some, hinvalid,
        Bool.not_false, queRemoveCurrent]
      refine ⟨{ que with current := ⟨0, INVALID_FILE_ID⟩ }, front, [], ?_,
        h.set_current que.nextFileId _, ?_, rfl⟩
      · cases hvalid : isValidFileId que.current.fileId with
        | false =>
            have hid : que.current.fileId = INVALID_FILE_ID := by simpa [isValidFileId] using hvalid
            simp [waiting, hid, hinvalid]
        | true => simp [waiting, hvalid]
      · simp [waiting, hinvalid, apply_ite]
  | cons node ring =>
      obtain ⟨queue, front', hdequeue, hrep⟩ := h.deQueue
      have hvalid := h.valid node (.head _)
      simp only [hdequeue, Option.bind_eq_bind, Option.bind_some, hvalid, Bool.not_true,
        Bool.false_eq_true, if_false]
      exact ⟨_, front', ring, rfl, hrep, rfl, rfl⟩

inductive Call
  | getNextFile
  | popFile
  | setSize (size : UInt64)
  deriving DecidableEq, Repr

-- A queue with the files that were created and popped so far, in their order.
structure History (queSize : ℕ) where
  que : FilesQueue queSize
  created : List ℤ
  popped : List ℤ

def exec (history : History queSize) : Call → Option (History queSize)
  | .getNextFile => do
      let (que, ret) ← queGetNextFile history.que
      return { history with
        que := que
        created := history.created ++ if ret = 0 then [que.current.fileId] else [] }
  | .popFile => do
      let (que, id) ← quePopFile history.que
      return { history with
        que := que
        popped := history.popped ++ if isValidFileId id then [id] else [] }
  | .setSize size => some { history with que := queCurrentSetSize history.que size }

-- `none` is an access outside the array, now or earlier.
def step (state : Option (History queSize)) (call : Call) : Option (History queSize) :=
  state.bind fun history => exec history call

def init (queSize : ℕ) : Option (History queSize) := some ⟨createQueue queSize, [], []⟩

-- The id of a file, from its place in the order of creation.
def idOf (place : ℕ) : ℤ := (place % 2147483648 : ℕ)

-- No file is put into the queue when `rear` is at its greatest value.
def Allowed (que : FilesQueue queSize) : Call → Prop
  | .getNextFile => isValidFileId que.current.fileId → que.rear ≠ INT_MAX
  | _ => True

instance (que : FilesQueue queSize) : ∀ call, Decidable (Allowed que call)
  | .getNextFile => inferInstanceAs (Decidable (_ → _))
  | .popFile => inferInstanceAs (Decidable True)
  | .setSize _ => inferInstanceAs (Decidable True)

structure Inv (history : History queSize) (front rear : ℕ) (ring : List FileNode) : Prop where
  rep : Rep history.que front rear ring
  conserved : history.created = history.popped ++ waiting ring history.que.current
  ids : history.created = (List.range history.created.length).map idOf
  nextFileId : history.que.nextFileId = idOf history.created.length

theorem idOf_nonneg (place : ℕ) : 0 ≤ idOf place := Int.natCast_nonneg _

theorem nextId_idOf (place : ℕ) : nextId (idOf place) = idOf (place + 1) := by
  have hlt := Nat.mod_lt place (by decide : 0 < 2147483648)
  unfold nextId idOf
  by_cases hlast : place % 2147483648 = 2147483647
  · have hwrap : toInt ((place % 2147483648 : ℕ) + 1 : ℤ) = -2147483648 := by
      rw [hlast]
      decide
    rw [hwrap, if_pos (by decide)]
    omega
  · have hint : toInt ((place % 2147483648 : ℕ) + 1 : ℤ) = (place % 2147483648 : ℕ) + 1 :=
      toInt_of_le (by omega) (by unfold INT_MAX; omega)
    rw [hint, if_neg (by omega)]
    omega

theorem Inv.exec {history : History queSize} {front rear : ℕ} {ring : List FileNode}
    (h : Inv history front rear ring) {call : Call} (hallowed : Allowed history.que call) :
    ∃ after front' rear' ring', Logs.exec history call = some after ∧
      Inv after front' rear' ring' := by
  obtain ⟨hrep, hconserved, hids, hnext⟩ := h
  have hnonneg : 0 ≤ history.que.nextFileId := hnext ▸ idOf_nonneg _
  cases call with
  | getNextFile =>
      have hspec := hrep.queGetNextFile hnonneg hallowed
      split_ifs at hspec with hfull
      · refine ⟨history, front, rear, ring, ?_, hrep, hconserved, hids, hnext⟩
        simp [Logs.exec, hspec]
      · obtain ⟨que, front', rear', ring', hget, hrep', hcurrent, hwaiting, hnextId⟩ := hspec
        simp only [Logs.exec, hget, Option.bind_eq_bind, Option.bind_some, if_true]
        refine ⟨_, front', rear', ring', rfl, hrep', ?_, ?_, ?_⟩
        · change history.created ++ [que.current.fileId] = history.popped ++ waiting ring' que.current
          rw [hwaiting, hcurrent, hconserved, List.append_assoc]
        · change history.created ++ [que.current.fileId] = _
          rw [List.length_append, List.length_singleton, List.range_succ, List.map_append, ← hids,
            hcurrent, hnext]
          rfl
        · change que.nextFileId = _
          rw [List.length_append, List.length_singleton, hnextId, hnext, nextId_idOf]
  | popFile =>
      obtain ⟨que, front', ring', hpop, hrep', hwaiting, hnextId⟩ := hrep.quePopFile
      simp only [Logs.exec, hpop, Option.bind_eq_bind, Option.bind_some]
      refine ⟨_, front', rear, ring', rfl, hrep', ?_, hids, hnextId.trans hnext⟩
      change history.created = history.popped ++ _ ++ waiting ring' que.current
      rw [hwaiting, hconserved, List.append_assoc]
      congr 1
      have hvalid : ∀ id ∈ waiting ring history.que.current, isValidFileId id := by
        intro id hid
        rcases List.mem_append.mp hid with hring | hcurrent
        · obtain ⟨node, hnode, rfl⟩ := List.mem_map.mp hring
          exact hrep.valid node hnode
        · split_ifs at hcurrent with hcur
          · rwa [List.mem_singleton.mp hcurrent]
          · cases hcurrent
      cases hwait : waiting ring history.que.current with
      | nil => rfl
      | cons id rest =>
          rw [hwait] at hvalid
          simp [hvalid id (.head _)]
  | setSize size =>
      exact ⟨_, front, rear, ring, rfl, hrep.set_current _ _, hconserved, hids, hnext⟩

theorem inv_of_allowed (hpos : 0 < queSize) (hsize : (queSize : ℤ) ≤ INT_MAX) {calls : List Call}
    (hallowed : EachStep step (init queSize)
      (fun _ state call => ∀ history ∈ state, Allowed history.que call) calls) :
    ∃ history front rear ring, calls.foldl step (init queSize) = some history ∧
      Inv history front rear ring := by
  refine hallowed.invariant (fun _ state => ∃ history front rear ring, state = some history ∧
    Inv history front rear ring) ?_ ?_
  · refine ⟨_, 0, 0, [], rfl, ⟨rfl, rfl, hpos, hsize, by decide, hpos, rfl, Ring.cells_nil, ?_⟩,
      rfl, rfl, rfl⟩
    intro node hnode
    cases hnode
  · rintro _ _ call ⟨history, front, rear, ring, rfl, hinv⟩ hcall
    obtain ⟨after, front', rear', ring', hexec, hinv'⟩ := hinv.exec (hcall history rfl)
    exact ⟨after, front', rear', ring', hexec, hinv'⟩

theorem length_waiting_le {ring : List FileNode} {que : FilesQueue queSize}
    (h : Rep que front rear ring) : (waiting ring que.current).length ≤ queSize := by
  have hroom := h.room
  rw [waiting, List.length_append, List.length_map]
  split_ifs
  · rw [List.length_singleton]
    omega
  · rw [List.length_nil]
    omega

-- In a run in which `rear` does not overflow, every state is one in which the files
-- that were created are the ones popped, followed by the ones waiting. The next call
-- creates the next file, unless `queSize` files are waiting, or pops the oldest one.
theorem files_queue_throughout (queSize : ℕ) (hpos : 0 < queSize) (hsize : (queSize : ℤ) ≤ INT_MAX)
    (calls : List Call) (hallowed : EachStep step (init queSize)
      (fun _ state call => ∀ history ∈ state, Allowed history.que call) calls) :
    Throughout step (init queSize) (fun _ state => ∃ history waiting, state = some history ∧
      history.created = history.popped ++ waiting ∧
      history.created = (List.range history.created.length).map idOf ∧
      waiting.length ≤ queSize ∧
      (Allowed history.que .getNextFile →
        if waiting.length = queSize then queGetNextFile history.que = some (history.que, -1)
        else ∃ after, queGetNextFile history.que = some (after, 0) ∧
          after.current.fileId = idOf history.created.length) ∧
      ∃ after, quePopFile history.que = some (after, waiting.head?.getD INVALID_FILE_ID)) calls := by
  rintro earlier later rfl
  obtain ⟨history, front, rear, ring, hstate, hinv⟩ :=
    inv_of_allowed hpos hsize hallowed.earlier
  refine ⟨history, waiting ring history.que.current, hstate, hinv.conserved, hinv.ids,
    length_waiting_le hinv.rep, fun hnext => ?_, ?_⟩
  · have hspec := hinv.rep.queGetNextFile (hinv.nextFileId ▸ idOf_nonneg _) hnext
    split_ifs at hspec ⊢ with hfull
    · exact hspec
    · obtain ⟨after, -, -, -, hget, -, hcurrent, -⟩ := hspec
      exact ⟨after, hget, hcurrent.trans hinv.nextFileId⟩
  · obtain ⟨after, -, -, hpop, -⟩ := hinv.rep.quePopFile
    exact ⟨after, hpop⟩

theorem files_queue_throughout_two :
    ∃ history waiting,
      [.getNextFile, .setSize 7, .getNextFile, .popFile].foldl step (init METRICS_LOGS_MAXNUM) =
        some history ∧ history.created = history.popped ++ waiting ∧ history.popped = [0] := by
  obtain ⟨history, waiting, hstate, hcreated, -⟩ :=
    (files_queue_throughout METRICS_LOGS_MAXNUM (by decide) (by decide)
      [.getNextFile, .setSize 7, .getNextFile, .popFile] (by decide)).last
  refine ⟨history, waiting, hstate, hcreated, ?_⟩
  have hpopped : ([.getNextFile, .setSize 7, .getNextFile, .popFile].foldl step
      (init METRICS_LOGS_MAXNUM)).map History.popped = some [0] := by decide
  rw [hstate] at hpopped
  exact Option.some.inj hpopped

-- A file is put into the queue, the next one is created, and the first one popped.
theorem foldl_round (history : History queSize) {pos next : ℕ} (hpos : pos < queSize)
    (hvalid : isValidFileId history.que.current.fileId)
    (hfull : isFullQueue history.que = false)
    (hslot : toInt (toSizeT history.que.rear % queSize : ℕ) = pos)
    (hfront : history.que.front = pos)
    (hnext : toInt (toSizeT (toInt ((pos : ℤ) + 1)) % queSize : ℕ) = next) :
    [Call.getNextFile, Call.popFile].foldl step (some history) = some ⟨
      ⟨nextId history.que.nextFileId, next, toInt (history.que.rear + 1),
        ⟨0, history.que.nextFileId⟩,
        (history.que.queue.set pos history.que.current).set pos ⟨0, INVALID_FILE_ID⟩⟩,
      history.created ++ [history.que.nextFileId],
      history.popped ++ [history.que.current.fileId]⟩ := by
  let stored : FilesQueue queSize := queNextCurrent { history.que with
    queue := history.que.queue.set pos history.que.current
    rear := toInt (history.que.rear + 1) }
  have hget : queGetNextFile history.que = some (stored, 0) := by
    simp [queGetNextFile, hvalid, enQueue_of_room hpos hfull hslot, stored]
  have hdequeue : deQueue stored = some ({ stored with
      queue := stored.queue.set pos ⟨0, INVALID_FILE_ID⟩
      front := next }, history.que.current.fileId) :=
    deQueue_of_stored hpos hfront hfull (Vector.getElem?_set_self hpos) hnext
  have hfirst : step (some history) .getNextFile =
      some ⟨stored, history.created ++ [history.que.nextFileId], history.popped⟩ := by
    simp only [step, exec, hget, Option.bind_eq_bind, Option.bind_some, if_true]
    rfl
  rw [List.foldl_cons, hfirst]
  simp only [List.foldl_cons, List.foldl_nil, step, exec, quePopFile, hdequeue, hvalid,
    Option.bind_eq_bind, Option.bind_some, Option.pure_def, Bool.not_true, Bool.false_eq_true,
    if_false, if_true]
  rfl

def round : List Call := [.getNextFile, .popFile]

-- One file is created, and then `count` times the next one before the last is popped.
def rounds (count : ℕ) : List Call := .getNextFile :: (List.replicate count round).flatten

theorem rounds_succ (count : ℕ) : rounds (count + 1) = rounds count ++ round := by
  simp [rounds, List.replicate_succ']

def afterRounds (count : ℕ) (queue : Vector FileNode METRICS_LOGS_MAXNUM) :
    History METRICS_LOGS_MAXNUM :=
  ⟨⟨idOf (count + 1), (count % METRICS_LOGS_MAXNUM : ℕ), count, ⟨0, idOf count⟩, queue⟩,
    (List.range (count + 1)).map idOf, (List.range count).map idOf⟩

-- The round that makes `rear` overflow is no different.
theorem foldl_round_afterRounds {count : ℕ} (hcount : (count : ℤ) ≤ INT_MAX)
    (queue : Vector FileNode METRICS_LOGS_MAXNUM) :
    ∃ after : Vector FileNode METRICS_LOGS_MAXNUM,
      round.foldl step (some (afterRounds count queue)) =
        some { afterRounds (count + 1) after with
          que.rear := toInt ((count : ℤ) + 1) } ∧
      ∀ i < METRICS_LOGS_MAXNUM, queue[i]? = some ⟨0, INVALID_FILE_ID⟩ ∨
        i = count % METRICS_LOGS_MAXNUM → after[i]? = some ⟨0, INVALID_FILE_ID⟩ := by
  have hsize : METRICS_LOGS_MAXNUM = 100 := rfl
  have hmax : INT_MAX = 2147483647 := rfl
  have hpos : count % METRICS_LOGS_MAXNUM < METRICS_LOGS_MAXNUM := Nat.mod_lt _ (by decide)
  have hfull : isFullQueue (afterRounds count queue).que = false := by
    rw [isFullQueue, decide_eq_false_iff_not]
    change ¬toInt ((toInt ((count : ℤ) + 1)).tmod (toInt METRICS_LOGS_MAXNUM)) =
      (count % METRICS_LOGS_MAXNUM : ℕ)
    by_cases hlast : count = 2147483647
    · subst hlast
      decide
    · have hrear : toInt ((count : ℤ) + 1) = (count + 1 : ℕ) := toInt_of_le (by omega) (by omega)
      rw [hrear, toInt_tmod (by decide) (by decide), Int.natCast_inj, hsize]
      omega
  have hslot : toInt (toSizeT count % METRICS_LOGS_MAXNUM : ℕ) =
      (count % METRICS_LOGS_MAXNUM : ℕ) := by
    rw [toSizeT_natCast hcount, toInt_of_le (by omega) (by omega)]
  have hnext : toInt (toSizeT (toInt (((count % METRICS_LOGS_MAXNUM : ℕ) : ℤ) + 1)) %
      METRICS_LOGS_MAXNUM : ℕ) = ((count + 1) % METRICS_LOGS_MAXNUM : ℕ) := by
    have hint : toInt (((count % METRICS_LOGS_MAXNUM : ℕ) : ℤ) + 1) =
        (count % METRICS_LOGS_MAXNUM + 1 : ℕ) := toInt_of_le (by omega) (by omega)
    have hlt := Nat.mod_lt (count + 1) (by decide : 0 < METRICS_LOGS_MAXNUM)
    rw [hint, toSizeT_natCast (by omega), Nat.mod_add_mod, toInt_of_le (by omega) (by omega)]
  refine ⟨(queue.set _ ⟨0, idOf count⟩ hpos).set _ ⟨0, INVALID_FILE_ID⟩ hpos, ?_, ?_⟩
  · rw [round, foldl_round (afterRounds count queue) hpos (valid_of_nonneg (idOf_nonneg count))
      hfull hslot rfl hnext]
    simp only [afterRounds, nextId_idOf, List.range_succ, List.map_append, List.map_singleton]
  · rintro i hi (hfree | rfl)
    · by_cases heq : i = count % METRICS_LOGS_MAXNUM
      · subst heq
        exact Vector.getElem?_set_self hpos
      · rw [Vector.getElem?_set_ne hpos (Ne.symm heq), Vector.getElem?_set_ne hpos (Ne.symm heq)]
        exact hfree
    · exact Vector.getElem?_set_self hpos

-- Up to the overflow the slots fall free one after the other.
theorem foldl_rounds {count : ℕ} (hcount : (count : ℤ) ≤ INT_MAX) :
    ∃ queue, (rounds count).foldl step (init METRICS_LOGS_MAXNUM) =
        some (afterRounds count queue) ∧
      ∀ i < METRICS_LOGS_MAXNUM, i < count → queue[i]? = some ⟨0, INVALID_FILE_ID⟩ := by
  induction count with
  | zero => exact ⟨_, rfl, by simp⟩
  | succ count ih =>
      have hsize : METRICS_LOGS_MAXNUM = 100 := rfl
      have hle : (count : ℤ) ≤ INT_MAX := by omega
      obtain ⟨queue, hfold, hfree⟩ := ih hle
      obtain ⟨after, hround, hafter⟩ := foldl_round_afterRounds hle queue
      have hrear : toInt ((count : ℤ) + 1) = (count + 1 : ℕ) := toInt_of_le (by omega) hcount
      refine ⟨after, ?_, fun i hi hlt => hafter i hi ?_⟩
      · rw [rounds_succ, List.foldl_append, hfold, hround, hrear]
        rfl
      · by_cases hlast : i = count
        · subst hlast
          exact .inr (Nat.mod_eq_of_lt hi).symm
        · exact .inl (hfree i hi (by omega))

theorem not_prefix_of_ne {before others : List ℤ} {id other : ℤ} (h : id ≠ other) :
    ¬before ++ [id] <+: before ++ [other] ++ others := by
  rw [List.append_assoc, List.prefix_append_right_inj, List.singleton_append,
    List.cons_prefix_cons]
  exact fun heq => h heq.1

-- The first round after the overflow puts the file into another slot than the one
-- that is read. That slot is free, and so the file that is current is popped.
theorem foldl_round_overflowed (after : Vector FileNode METRICS_LOGS_MAXNUM)
    (hstale : after[48]? = some ⟨0, INVALID_FILE_ID⟩) (created popped : List ℤ) :
    ∃ history, round.foldl step (some ⟨⟨1, (48 : ℕ), -2147483648, ⟨0, 0⟩, after⟩, created, popped⟩) =
        some history ∧
      history.created = created ++ [1] ∧ history.popped = popped ++ [1] := by
  let que : FilesQueue METRICS_LOGS_MAXNUM := ⟨1, (48 : ℕ), -2147483648, ⟨0, 0⟩, after⟩
  have hfull : isFullQueue que = false := by
    change decide (toInt ((toInt (-2147483648 + 1)).tmod (toInt METRICS_LOGS_MAXNUM)) = 48) = false
    decide
  let stored : FilesQueue METRICS_LOGS_MAXNUM := queNextCurrent { que with
    queue := que.queue.set 68 que.current
    rear := toInt (que.rear + 1) }
  have hget : queGetNextFile que = some (stored, 0) := by
    have hvalid : isValidFileId que.current.fileId = true := rfl
    have hpos : (68 : ℕ) < METRICS_LOGS_MAXNUM := by decide
    have hslot : toInt (toSizeT (-2147483648) % METRICS_LOGS_MAXNUM : ℕ) = (68 : ℕ) := by decide
    have henqueue := enQueue_of_room hpos hfull hslot que.current
    simp [queGetNextFile, hvalid, henqueue, stored]
  have hnode : stored.queue[48]? = some ⟨0, INVALID_FILE_ID⟩ := by
    change (after.set 68 que.current)[48]? = _
    rw [Vector.getElem?_set_ne (by decide) (by decide)]
    exact hstale
  have hdequeue := deQueue_of_stored (by decide) (rfl : stored.front = (48 : ℕ)) hfull hnode
    (by decide : toInt (toSizeT (toInt (((48 : ℕ) : ℤ) + 1)) % METRICS_LOGS_MAXNUM : ℕ) = (49 : ℕ))
  have hinvalid : isValidFileId INVALID_FILE_ID = false := by decide
  have hfirst : step (some ⟨que, created, popped⟩) .getNextFile =
      some ⟨stored, created ++ [1], popped⟩ := by
    simp only [step, exec, hget, Option.bind_eq_bind, Option.bind_some, if_true]
    rfl
  rw [round, List.foldl_cons, hfirst]
  simp only [List.foldl_cons, List.foldl_nil, step, exec, quePopFile, hdequeue, hinvalid,
    Option.bind_eq_bind, Option.bind_some, Option.pure_def, Bool.not_false, if_true]
  exact ⟨_, rfl, rfl, rfl⟩

-- After 2^31 files have gone through the queue, one is popped before an older one.
theorem files_queue_overflow :
    ∃ (calls : List Call) (history : History METRICS_LOGS_MAXNUM),
      calls.foldl step (init METRICS_LOGS_MAXNUM) = some history ∧
      ¬history.popped <+: history.created := by
  obtain ⟨queue, hfold, hfree⟩ := foldl_rounds (by decide : ((2147483647 : ℕ) : ℤ) ≤ INT_MAX)
  obtain ⟨after, hround, hafter⟩ :=
    foldl_round_afterRounds (by decide : ((2147483647 : ℕ) : ℤ) ≤ INT_MAX) queue
  have hstale : after[48]? = some ⟨0, INVALID_FILE_ID⟩ :=
    hafter 48 (by decide) (.inl (hfree 48 (by decide) (by decide)))
  obtain ⟨history, hlast, hcreated, hpopped⟩ := foldl_round_overflowed after hstale
    ((List.range (2147483647 + 1 + 1)).map idOf) ((List.range (2147483647 + 1)).map idOf)
  refine ⟨rounds (2147483647 + 1) ++ round, history, ?_, ?_⟩
  · have hnext : idOf (2147483647 + 1 + 1) = 1 := by decide
    have hcurrent : idOf (2147483647 + 1) = 0 := by decide
    have hfront : (2147483647 + 1) % METRICS_LOGS_MAXNUM = 48 := by decide
    have hrear : toInt (((2147483647 : ℕ) : ℤ) + 1) = -2147483648 := by decide
    rw [rounds_succ, List.foldl_append, List.foldl_append, hfold, hround, hrear]
    simp only [afterRounds, hnext, hcurrent, hfront]
    exact hlast
  · rw [hcreated, hpopped, @List.range_succ (2147483647 + 1), List.map_append, List.map_singleton]
    exact not_prefix_of_ne (by decide)

end Gopher.Logs
