import Gopher.Ipc
import Mathlib.Data.Int.Notation
import Mathlib.Data.List.Nodup
import Mathlib.Data.Nat.Notation
import Mathlib.Logic.Function.Basic
import Mathlib.Tactic.SplitIfs

namespace Gopher.TcpFd

open Gopher.Ipc

def TCP_ESTAB_MAX : ℕ := 5 * 1024
def MAX_TRY_LOAD : UInt32 := 120

inductive KernelVersion
  | before_5_10
  | from_5_10
  deriving DecidableEq, Repr

def TCP_FD_PER_PROC_MAX : KernelVersion → ℕ
  | .before_5_10 => 10
  | .from_5_10 => 100

structure EstabTcpFd where
  fd : Int32
  role : Int32
  deriving DecidableEq, Repr

structure EstabTcpVal where
  num : ℤ
  tryLoadCnt : UInt32
  fds : Vector EstabTcpFd TCP_ESTAB_MAX

-- An item of the hash table, which is iterated in the order of creation.
structure EstabTcp where
  k : UInt32
  v : EstabTcpVal

structure TcpFdInfo (kernel : KernelVersion) where
  fds : Vector Int32 (TCP_FD_PER_PROC_MAX kernel)
  fdRole : Vector UInt8 (TCP_FD_PER_PROC_MAX kernel)
  cnt : UInt32

variable {kernel : KernelVersion}

-- The BPF map from process ids. Its updates do not fail.
abbrev TcpFdMap (kernel : KernelVersion) := UInt32 → Option (TcpFdInfo kernel)

-- `none` is a write outside the array.
def write {α : Type} {n : ℕ} (array : Vector α n) (i : ℕ) (element : α) : Option (Vector α n) :=
  if h : i < n then some (array.set i element h) else none

def TcpFdInfo.zero : TcpFdInfo kernel := ⟨Vector.replicate _ 0, Vector.replicate _ 0, 0⟩

def EstabTcpVal.zero : EstabTcpVal := ⟨0, 0, Vector.replicate _ ⟨0, 0⟩⟩

def findEstabTcp (k : UInt32) (head : List EstabTcp) : Option EstabTcp :=
  head.find? fun item => item.k = k

-- A write through the pointer to the item that is found.
def writeEstabTcp (k : UInt32) (v : EstabTcpVal) : List EstabTcp → List EstabTcp
  | [] => []
  | item :: head => if item.k = k then ⟨k, v⟩ :: head else item :: writeEstabTcp k v head

def addFd (v : EstabTcpVal) (fd role : Int32) : Option (EstabTcpVal × ℤ) :=
  if v.num ≥ TCP_ESTAB_MAX ∨ v.num < 0 then some (v, -1)
  else do
    let fds ← write v.fds v.num.toNat ⟨fd, role⟩
    return ({ v with fds := fds, num := v.num + 1 }, 0)

-- `malloc` is whether memory is found for an item.
def addEstabTcpFd (k : UInt32) (fd role : Int32) (malloc : Bool) (head : List EstabTcp) :
    Option (List EstabTcp × ℤ) :=
  match findEstabTcp k head with
  | some item => do
      let (v, ret) ← addFd item.v fd role
      return (writeEstabTcp k v head, ret)
  | none =>
      if malloc then do
        let (v, ret) ← addFd .zero fd role
        return (head ++ [⟨k, v⟩], ret)
      else some (head, -1)

def isNeedLoadEstablishedTcp (body : IpcBody) (procId : UInt32) : Bool :=
  body.objs.any fun obj => obj = .proc procId

def isInvalidEstablishedTcp (item : EstabTcp) : Bool := item.v.tryLoadCnt ≥ MAX_TRY_LOAD

-- The loop from `i` fds down, with the number of fds loaded and the return value.
def loadFds (item : EstabTcp) : ℕ → TcpFdInfo kernel → ℕ → Option (TcpFdInfo kernel × ℕ × ℤ)
  | 0, tcpFd, loadNum => some (tcpFd, loadNum, 0)
  | i + 1, tcpFd, loadNum =>
      if tcpFd.cnt.toNat ≥ TCP_FD_PER_PROC_MAX kernel then some (tcpFd, loadNum, -1)
      else do
        let estab ← item.v.fds[i]?
        let fds ← write tcpFd.fds tcpFd.cnt.toNat estab.fd
        let fdRole ← write tcpFd.fdRole tcpFd.cnt.toNat estab.role.toUInt32.toUInt8
        loadFds item i ⟨fds, fdRole, tcpFd.cnt + 1⟩ (loadNum + 1)

def doLoadEstablishedTcp (map : TcpFdMap kernel) (item : EstabTcp) :
    Option (TcpFdMap kernel × ℕ × ℤ) := do
  let (tcpFd, loadNum, ret) ← loadFds item item.v.num.toNat ((map item.k).getD .zero) 0
  return (if loadNum > 0 then Function.update map item.k (some tcpFd) else map, loadNum, ret)

inductive LoadEstabTcp
  | succeed
  | noNeed
  | limit
  deriving DecidableEq, Repr

def loadEstablishedTcp (body : IpcBody) (map : TcpFdMap kernel) (item : EstabTcp) :
    Option (TcpFdMap kernel × EstabTcp × LoadEstabTcp) :=
  if !isNeedLoadEstablishedTcp body item.k then
    some (map, { item with v.tryLoadCnt := item.v.tryLoadCnt + 1 }, .noNeed)
  else do
    let (map, loaded, ret) ← doLoadEstablishedTcp map item
    return (map, { item with v.num := item.v.num - loaded },
      if ret = 0 then .succeed else .limit)

-- Items that are taken out of the table are freed.
def loadEstablishedTcps (body : IpcBody) (map : TcpFdMap kernel) :
    List EstabTcp → Option (TcpFdMap kernel × List EstabTcp)
  | [] => some (map, [])
  | item :: head =>
      if isInvalidEstablishedTcp item then loadEstablishedTcps body map head
      else do
        let (map, item, ret) ← loadEstablishedTcp body map item
        let (map, head) ← loadEstablishedTcps body map head
        return (map, if ret = .succeed then head else item :: head)

variable {kernel : KernelVersion} {head : List EstabTcp} {item : EstabTcp}
  {body : IpcBody} {pid : UInt32}

-- A connection as the map holds it.
abbrev Link := Int32 × UInt8

def EstabTcpFd.link (estab : EstabTcpFd) : Link := (estab.fd, estab.role.toUInt32.toUInt8)

def EstabTcpVal.pending (v : EstabTcpVal) : List Link :=
  (v.fds.toList.take v.num.toNat).map EstabTcpFd.link

def TcpFdInfo.links (tcpFd : TcpFdInfo kernel) : List Link :=
  (tcpFd.fds.toList.zip tcpFd.fdRole.toList).take tcpFd.cnt.toNat

-- The list of a process in the map.
def linksIn (map : TcpFdMap kernel) (pid : UInt32) : List Link := ((map pid).getD .zero).links

-- The fds of a process that are still to be written.
def pendingIn (head : List EstabTcp) (pid : UInt32) : List Link :=
  ((findEstabTcp pid head).map fun item => item.v.pending).getD []

structure EstabTcpVal.Valid (v : EstabTcpVal) : Prop where
  nonneg : 0 ≤ v.num
  le : v.num ≤ TCP_ESTAB_MAX

theorem take_concat_set {α : Type} (list : List α) (i : ℕ) (element : α) (h : i < list.length) :
    (list.set i element).take (i + 1) = list.take i ++ [element] := by
  rw [List.take_succ_eq_append_getElem (by simpa using h), List.getElem_set_self,
    List.take_set_of_le (Nat.le_refl i)]

theorem zip_set {α β : Type} (first : List α) (second : List β) (i : ℕ) (a : α) (b : β) :
    (first.set i a).zip (second.set i b) = (first.zip second).set i (a, b) := by
  induction first generalizing second i with
  | nil => rfl
  | cons x first ih =>
      cases second with
      | nil => simp
      | cons y second =>
          cases i with
          | zero => rfl
          | succ i => simp [ih]

theorem addFd_cases {v : EstabTcpVal} (hvalid : v.Valid) (fd role : Int32) :
    ∃ v' ret, addFd v fd role = some (v', ret) ∧ v'.Valid ∧ v'.tryLoadCnt = v.tryLoadCnt ∧
      v'.pending = v.pending ++ if ret = 0 then [EstabTcpFd.link ⟨fd, role⟩] else [] := by
  obtain ⟨hnonneg, hle⟩ := hvalid
  unfold addFd
  by_cases hfull : v.num ≥ TCP_ESTAB_MAX ∨ v.num < 0
  · rw [if_pos hfull]
    exact ⟨v, -1, rfl, ⟨hnonneg, hle⟩, rfl, by simp⟩
  · have hroom : v.num.toNat < TCP_ESTAB_MAX := by omega
    rw [if_neg hfull, write, dif_pos hroom]
    refine ⟨_, 0, rfl, ⟨?_, ?_⟩, rfl, ?_⟩
    · change 0 ≤ v.num + 1
      omega
    · change v.num + 1 ≤ _
      omega
    · have hnum : (v.num + 1).toNat = v.num.toNat + 1 := by omega
      simp only [EstabTcpVal.pending, hnum, Vector.toList_set, if_true]
      rw [take_concat_set _ _ _ (by simpa using hroom), List.map_append, List.map_singleton]

theorem length_links (tcpFd : TcpFdInfo kernel) :
    tcpFd.links.length = min tcpFd.cnt.toNat (TCP_FD_PER_PROC_MAX kernel) := by
  simp [TcpFdInfo.links]

theorem max_lt_size (kernel : KernelVersion) : TCP_FD_PER_PROC_MAX kernel < 2 ^ 32 := by
  cases kernel <;> decide

-- The fds are written from the last one on, as far as the list has room.
theorem loadFds_eq (item : EstabTcp) {i : ℕ} (hi : i ≤ TCP_ESTAB_MAX) (tcpFd : TcpFdInfo kernel) (loadNum : ℕ) :
    ∃ tcpFd', loadFds item i tcpFd loadNum = some (tcpFd',
        loadNum + min i (TCP_FD_PER_PROC_MAX kernel - tcpFd.links.length),
        if i ≤ TCP_FD_PER_PROC_MAX kernel - tcpFd.links.length then 0 else -1) ∧
      tcpFd'.links = tcpFd.links ++ (((item.v.fds.toList.take i).map EstabTcpFd.link).reverse.take
        (TCP_FD_PER_PROC_MAX kernel - tcpFd.links.length)) := by
  induction i generalizing tcpFd loadNum with
  | zero => exact ⟨tcpFd, by simp [loadFds], by simp⟩
  | succ i ih =>
      have hlen := length_links tcpFd
      have hsize := max_lt_size kernel
      rw [loadFds]
      by_cases hfull : tcpFd.cnt.toNat ≥ TCP_FD_PER_PROC_MAX kernel
      · have hroom : TCP_FD_PER_PROC_MAX kernel - tcpFd.links.length = 0 := by omega
        rw [if_pos hfull, hroom]
        exact ⟨tcpFd, by simp, by simp⟩
      · have hcnt : tcpFd.cnt.toNat < TCP_FD_PER_PROC_MAX kernel := by omega
        have hget : item.v.fds[i]? = some item.v.fds[i] := Vector.getElem?_eq_getElem (by omega)
        simp only [if_neg hfull, hget, write, dif_pos hcnt, Option.bind_eq_bind, Option.bind_some]
        set next : TcpFdInfo kernel := ⟨tcpFd.fds.set tcpFd.cnt.toNat item.v.fds[i].fd hcnt,
          tcpFd.fdRole.set tcpFd.cnt.toNat item.v.fds[i].role.toUInt32.toUInt8 hcnt,
          tcpFd.cnt + 1⟩ with hnext
        have hnextCnt : next.cnt.toNat = tcpFd.cnt.toNat + 1 := by
          rw [hnext, UInt32.toNat_add]
          exact Nat.mod_eq_of_lt (by simp; omega)
        have hnextLinks : next.links = tcpFd.links ++ [item.v.fds[i].link] := by
          rw [TcpFdInfo.links, hnextCnt, hnext, TcpFdInfo.links, Vector.toList_set,
            Vector.toList_set, zip_set, take_concat_set _ _ _ (by simpa using hcnt)]
          rfl
        obtain ⟨last, hload, hlinks⟩ := ih (by omega) next (loadNum + 1)
        have hroom : TCP_FD_PER_PROC_MAX kernel - tcpFd.links.length =
            TCP_FD_PER_PROC_MAX kernel - next.links.length + 1 := by
          rw [hnextLinks, List.length_append, List.length_singleton]
          omega
        refine ⟨last, ?_, ?_⟩
        · rw [hload, hroom, Nat.add_min_add_right]
          simp only [Nat.add_le_add_iff_right]
          rw [Nat.add_right_comm, Nat.add_assoc]
        · have htake : item.v.fds.toList.take (i + 1) = item.v.fds.toList.take i ++ [item.v.fds[i]] := by
            rw [List.take_succ_eq_append_getElem (by simp; omega), Vector.getElem_toList]
          rw [hlinks, hnextLinks, hroom, htake, List.map_append, List.map_singleton,
            List.reverse_append, List.reverse_singleton, List.singleton_append, List.take_succ_cons,
            List.append_assoc, List.singleton_append, ← hnextLinks]

variable (kernel) in
def room (links : List Link) : ℕ := TCP_FD_PER_PROC_MAX kernel - links.length

-- The fds there is no room for, and the ones that are written, which come from the
-- end of the array.
variable (kernel) in
def kept (links pending : List Link) : List Link := pending.take (pending.length - room kernel links)

variable (kernel) in
def moved (links pending : List Link) : List Link :=
  (pending.drop (pending.length - room kernel links)).reverse

variable (kernel) in
theorem kept_append_moved (links pending : List Link) :
    kept kernel links pending ++ (moved kernel links pending).reverse = pending := by
  rw [kept, moved, List.reverse_reverse, List.take_append_drop]

theorem EstabTcpVal.Valid.length_pending {v : EstabTcpVal} (h : v.Valid) :
    v.pending.length = v.num.toNat := by
  obtain ⟨hnonneg, hle⟩ := h
  simp only [EstabTcpVal.pending, List.length_map, List.length_take, Vector.length_toList]
  omega

theorem doLoadEstablishedTcp_eq (map : TcpFdMap kernel) (hvalid : item.v.Valid) :
    ∃ after loaded ret, doLoadEstablishedTcp map item = some (after, loaded, ret) ∧
      loaded = min item.v.pending.length (room kernel (linksIn map item.k)) ∧
      (ret = 0 ↔ item.v.pending.length ≤ room kernel (linksIn map item.k)) ∧
      linksIn after item.k =
        linksIn map item.k ++ moved kernel (linksIn map item.k) item.v.pending ∧
      ∀ pid, pid ≠ item.k → after pid = map pid := by
  have hi : item.v.num.toNat ≤ TCP_ESTAB_MAX := by
    have hle := hvalid.le
    omega
  have hlen := hvalid.length_pending
  obtain ⟨tcpFd, hload, hlinks⟩ := loadFds_eq item hi ((map item.k).getD .zero) 0
  rw [Nat.zero_add] at hload
  change tcpFd.links = linksIn map item.k ++
    (item.v.pending.reverse.take (room kernel (linksIn map item.k))) at hlinks
  rw [List.take_reverse] at hlinks
  simp only [doLoadEstablishedTcp, hload, Option.bind_eq_bind, Option.bind_some]
  refine ⟨_, _, _, rfl, ?_, ?_, ?_, ?_⟩
  · rw [hlen]
    rfl
  · rw [hlen]
    split_ifs with h
    · exact ⟨fun _ => h, fun _ => rfl⟩
    · exact ⟨fun heq => absurd heq (by decide), fun h' => absurd h' h⟩
  · split_ifs with h
    · rw [linksIn, Function.update_self]
      exact hlinks
    · have hnone : item.v.pending.length ≤
          item.v.pending.length - room kernel (linksIn map item.k) := by
        change ¬0 < min item.v.num.toNat (room kernel (linksIn map item.k)) at h
        omega
      rw [moved, List.drop_eq_nil_of_le hnone, List.reverse_nil, List.append_nil]
  · intro pid hpid
    split_ifs
    · exact Function.update_of_ne hpid _ _
    · rfl

-- What a call does to an item and to the list of its process in the map.
variable (kernel) in
def Outcome (body : IpcBody) (item : EstabTcp) (before after : List Link) (left : Option EstabTcp) :
    Prop :=
  if item.v.tryLoadCnt ≥ MAX_TRY_LOAD then after = before ∧ left = none
  else if isNeedLoadEstablishedTcp body item.k then
    after = before ++ moved kernel before item.v.pending ∧
    if kept kernel before item.v.pending = [] then left = none
    else ∃ v, left = some ⟨item.k, v⟩ ∧ v.Valid ∧ v.tryLoadCnt = item.v.tryLoadCnt ∧
      v.pending = kept kernel before item.v.pending
  else after = before ∧ left = some { item with v.tryLoadCnt := item.v.tryLoadCnt + 1 }

theorem kept_eq_nil {links pending : List Link} :
    kept kernel links pending = [] ↔ pending.length ≤ room kernel links := by
  rw [kept, List.take_eq_nil_iff, ← List.length_eq_zero_iff]
  omega

theorem loadEstablishedTcp_outcome (body : IpcBody) (map : TcpFdMap kernel)
    (hvalid : item.v.Valid)
    (hinvalid : isInvalidEstablishedTcp item = false) :
    ∃ after left ret, loadEstablishedTcp body map item = some (after, left, ret) ∧
      left.k = item.k ∧
      Outcome kernel body item (linksIn map item.k) (linksIn after item.k)
        (if ret = .succeed then none else some left) ∧
      ∀ pid, pid ≠ item.k → after pid = map pid := by
  have hcnt : ¬item.v.tryLoadCnt ≥ MAX_TRY_LOAD := by simpa [isInvalidEstablishedTcp] using hinvalid
  unfold loadEstablishedTcp
  cases hneed : isNeedLoadEstablishedTcp body item.k with
  | false =>
      refine ⟨map, _, .noNeed, rfl, rfl, ?_, fun _ _ => rfl⟩
      rw [Outcome, if_neg hcnt, hneed]
      exact ⟨rfl, rfl⟩
  | true =>
      obtain ⟨after, loaded, ret, hload, hloaded, hret, hlinks, hothers⟩ :=
        doLoadEstablishedTcp_eq map hvalid
      simp only [hload, Bool.not_true, Bool.false_eq_true, if_false, Option.bind_eq_bind,
        Option.bind_some]
      refine ⟨_, _, _, rfl, rfl, ?_, hothers⟩
      rw [Outcome, if_neg hcnt, if_pos hneed]
      refine ⟨hlinks, ?_⟩
      by_cases hall : item.v.pending.length ≤ room kernel (linksIn map item.k)
      · rw [if_pos (kept_eq_nil.mpr hall), if_pos (hret.mpr hall)]
        rfl
      · rw [if_neg (mt kept_eq_nil.mp hall), if_neg (mt hret.mp hall)]
        have hlen := hvalid.length_pending
        obtain ⟨hnonneg, hle⟩ := hvalid
        refine ⟨_, rfl, ⟨?_, ?_⟩, rfl, ?_⟩
        · change 0 ≤ item.v.num - loaded
          omega
        · change item.v.num - loaded ≤ _
          omega
        · have hnum : (item.v.num - loaded).toNat =
              item.v.pending.length - room kernel (linksIn map item.k) := by omega
          rw [kept]
          nth_rewrite 3 [EstabTcpVal.pending]
          rw [← List.map_take, List.take_take, Nat.min_eq_left (by omega), ← hnum]
          rfl

structure Valid (head : List EstabTcp) : Prop where
  keys : (head.map EstabTcp.k).Nodup
  items : ∀ item ∈ head, item.v.Valid

theorem findEstabTcp_eq_none : findEstabTcp pid head = none ↔ pid ∉ head.map EstabTcp.k := by
  simp only [findEstabTcp, List.find?_eq_none, decide_eq_true_eq, List.mem_map, not_exists, not_and]

theorem findEstabTcp_cons_self (item : EstabTcp) (head : List EstabTcp) :
    findEstabTcp item.k (item :: head) = some item :=
  List.find?_cons_of_pos (by simp)

theorem findEstabTcp_cons_of_ne (h : pid ≠ item.k) :
    findEstabTcp pid (item :: head) = findEstabTcp pid head :=
  List.find?_cons_of_neg (by simpa using h.symm)

-- Each process is dealt with by itself, whether it has an item or not.
theorem loadEstablishedTcps_outcome (body : IpcBody) (map : TcpFdMap kernel) (hvalid : Valid head) :
    ∃ after left, loadEstablishedTcps body map head = some (after, left) ∧
      (left.map EstabTcp.k).Sublist (head.map EstabTcp.k) ∧
      ∀ pid, match findEstabTcp pid head with
        | none => linksIn after pid = linksIn map pid ∧ findEstabTcp pid left = none
        | some item => Outcome kernel body item (linksIn map pid) (linksIn after pid)
            (findEstabTcp pid left) := by
  induction head generalizing map with
  | nil => exact ⟨map, [], rfl, List.Sublist.refl _, fun _ => ⟨rfl, rfl⟩⟩
  | cons item head ih =>
      obtain ⟨hkeys, hitems⟩ := hvalid
      rw [List.map_cons, List.nodup_cons] at hkeys
      have hrest : Valid head := ⟨hkeys.2, fun other hother => hitems other (.tail _ hother)⟩
      have hnone : findEstabTcp item.k head = none := findEstabTcp_eq_none.mpr hkeys.1
      rw [loadEstablishedTcps]
      cases hinvalid : isInvalidEstablishedTcp item with
      | true =>
          obtain ⟨after, left, hload, hsublist, hothers⟩ := ih map hrest
          rw [if_pos rfl]
          refine ⟨after, left, hload, hsublist.cons _, fun pid => ?_⟩
          by_cases hpid : pid = item.k
          · subst hpid
            have hself := hothers item.k
            rw [hnone] at hself
            rw [findEstabTcp_cons_self]
            have hcnt : item.v.tryLoadCnt ≥ MAX_TRY_LOAD := by
              simpa [isInvalidEstablishedTcp] using hinvalid
            simp only [Outcome, if_pos hcnt]
            exact hself
          · rw [findEstabTcp_cons_of_ne hpid]
            exact hothers pid
      | false =>
          obtain ⟨middle, loaded, ret, hone, hk, houtcome, hmiddle⟩ :=
            loadEstablishedTcp_outcome body map (hitems item (.head _)) hinvalid
          obtain ⟨after, left, hload, hsublist, hothers⟩ := ih middle hrest
          simp only [Bool.false_eq_true, if_false, hone, hload, Option.bind_eq_bind, Option.bind_some]
          refine ⟨_, _, rfl, ?_, fun pid => ?_⟩
          · split_ifs
            · exact hsublist.cons _
            · rw [List.map_cons, List.map_cons, hk]
              exact hsublist.cons_cons _
          · by_cases hpid : pid = item.k
            · subst hpid
              have hself := hothers item.k
              rw [hnone] at hself
              rw [findEstabTcp_cons_self]
              change Outcome kernel body item _ _ _
              rw [hself.1]
              split_ifs at houtcome ⊢
              · rw [hself.2]
                exact houtcome
              · rw [← hk, findEstabTcp_cons_self, hk]
                exact houtcome
            · rw [findEstabTcp_cons_of_ne hpid]
              have hpid' : findEstabTcp pid (if ret = .succeed then left else loaded :: left) =
                  findEstabTcp pid left := by
                split_ifs
                · rfl
                · exact findEstabTcp_cons_of_ne (hk.symm ▸ hpid)
              have hlinks : linksIn middle pid = linksIn map pid := by
                rw [linksIn, linksIn, hmiddle pid hpid]
              rw [hpid', ← hlinks]
              exact hothers pid

theorem findEstabTcp_of_mem (hkeys : (head.map EstabTcp.k).Nodup) (hmem : item ∈ head) :
    findEstabTcp item.k head = some item := by
  cases hfind : findEstabTcp item.k head with
  | none => exact absurd (List.mem_map_of_mem hmem) (findEstabTcp_eq_none.mp hfind)
  | some other =>
      have hk : other.k = item.k := by simpa using List.find?_some hfind
      rw [List.inj_on_of_nodup_map hkeys (List.mem_of_find?_eq_some hfind) hmem hk]

theorem findEstabTcp_some (h : findEstabTcp pid head = some item) : item ∈ head ∧ item.k = pid :=
  ⟨List.mem_of_find?_eq_some h, by simpa using List.find?_some h⟩

theorem pendingIn_of_find (h : findEstabTcp pid head = some item) :
    pendingIn head pid = item.v.pending := by
  rw [pendingIn, h]
  rfl

theorem pendingIn_of_none (h : findEstabTcp pid head = none) : pendingIn head pid = [] := by
  rw [pendingIn, h]
  rfl

-- What is left of an item, if anything, is an item again.
theorem Outcome.left {before after : List Link} {left : EstabTcp}
    (h : Outcome kernel body item before after (some left)) (hvalid : item.v.Valid) :
    left.v.Valid ∧ left.v.tryLoadCnt =
      item.v.tryLoadCnt + (if isNeedLoadEstablishedTcp body item.k then 0 else 1) ∧
      item.v.tryLoadCnt < MAX_TRY_LOAD := by
  unfold Outcome at h
  split_ifs at h with hcnt hneed hkept
  · exact absurd h.2 (by simp)
  · exact absurd h.2 (by simp)
  · obtain ⟨-, v, heq, hv, htry, -⟩ := h
    obtain rfl := Option.some.inj heq
    exact ⟨hv, by rw [if_pos hneed]; simpa using htry, UInt32.not_le.mp hcnt⟩
  · obtain rfl := Option.some.inj h.2
    exact ⟨⟨hvalid.nonneg, hvalid.le⟩, by rw [if_neg hneed], UInt32.not_le.mp hcnt⟩

-- A table and a map, with what has been done for each process so far. `missed` counts
-- the load calls that did not ask for the process since its item was created.
structure History (kernel : KernelVersion) where
  head : List EstabTcp
  map : TcpFdMap kernel
  collected : UInt32 → List Link
  written : UInt32 → List Link
  forgotten : UInt32 → List Link
  missed : UInt32 → ℕ

-- The kernel takes the list of a process out of the map when it sees the process.
inductive Call
  | add (k : UInt32) (fd role : Int32) (malloc : Bool)
  | load (body : IpcBody)
  | kprobe (tgid : UInt32)

def init (map : TcpFdMap kernel) : History kernel :=
  ⟨[], map, fun _ => [], fun _ => [], fun _ => [], fun _ => 0⟩

def step (st : History kernel) : Call → Option (History kernel)
  | .add k fd role malloc => do
      let (head, ret) ← addEstabTcpFd k fd role malloc st.head
      return { st with
        head := head
        collected := fun pid => st.collected pid ++
          if pid = k ∧ ret = 0 then [EstabTcpFd.link ⟨fd, role⟩] else []
        missed := if (findEstabTcp k st.head).isNone then Function.update st.missed k 0
          else st.missed }
  | .load body => do
      let (map, head) ← loadEstablishedTcps body st.map st.head
      return { st with
        head := head
        map := map
        written := fun pid => st.written pid ++ (linksIn map pid).drop (linksIn st.map pid).length
        forgotten := fun pid => st.forgotten pid ++
          if MAX_TRY_LOAD.toNat ≤ st.missed pid then pendingIn st.head pid else []
        missed := fun pid => st.missed pid + if isNeedLoadEstablishedTcp body pid then 0 else 1 }
  | .kprobe tgid => some { st with map := Function.update st.map tgid none }

structure Inv (st : History kernel) : Prop where
  valid : Valid st.head
  tries : ∀ pid item, findEstabTcp pid st.head = some item →
    item.v.tryLoadCnt.toNat = st.missed pid ∧ st.missed pid ≤ MAX_TRY_LOAD.toNat
  conserved : ∀ pid,
    (st.collected pid).Perm (st.written pid ++ pendingIn st.head pid ++ st.forgotten pid)

-- What was pending is written, still pending or given up.
theorem Outcome.pending {before after : List Link} {left : Option EstabTcp}
    (h : Outcome kernel body item before after left) :
    item.v.pending.Perm (after.drop before.length ++
      (left.map fun item => item.v.pending).getD [] ++
      if item.v.tryLoadCnt ≥ MAX_TRY_LOAD then item.v.pending else []) := by
  unfold Outcome at h
  split_ifs at h ⊢ with hcnt hneed hkept
  · obtain ⟨rfl, rfl⟩ := h
    simp
  · obtain ⟨rfl, rfl⟩ := h
    have hall := kept_append_moved kernel before item.v.pending
    rw [hkept, List.nil_append] at hall
    rw [List.drop_left, Option.map_none, Option.getD_none, List.append_nil, List.append_nil]
    nth_rewrite 1 [← hall]
    exact List.reverse_perm _
  · obtain ⟨rfl, v, rfl, -, -, hpending⟩ := h
    have hall := kept_append_moved kernel before item.v.pending
    rw [List.drop_left, Option.map_some, Option.getD_some, hpending, List.append_nil]
    nth_rewrite 1 [← hall]
    exact List.perm_append_comm.trans ((List.reverse_perm _).append_right _)
  · obtain ⟨rfl, rfl⟩ := h
    simp [EstabTcpVal.pending]

-- What a load writes, keeps and forgets of a process is what was there before it.
theorem Inv.conserved_load {st : History kernel} (h : Inv st) {body : IpcBody}
    {map : TcpFdMap kernel} {left : List EstabTcp} (pid : UInt32)
    (hpid : match findEstabTcp pid st.head with
      | none => linksIn map pid = linksIn st.map pid ∧ findEstabTcp pid left = none
      | some item => Outcome kernel body item (linksIn st.map pid) (linksIn map pid)
          (findEstabTcp pid left)) :
    (st.collected pid).Perm (st.written pid ++
      (linksIn map pid).drop (linksIn st.map pid).length ++ pendingIn left pid ++
      (st.forgotten pid ++
        if MAX_TRY_LOAD.toNat ≤ st.missed pid then pendingIn st.head pid else [])) := by
  have hconserved := h.conserved pid
  cases hfind : findEstabTcp pid st.head with
  | none =>
      rw [hfind] at hpid
      rw [pendingIn_of_none hfind] at hconserved ⊢
      rw [hpid.1, pendingIn_of_none hpid.2]
      simpa using hconserved
  | some item =>
      rw [hfind] at hpid
      rw [pendingIn_of_find hfind] at hconserved ⊢
      have hpending := hpid.pending
      have hmissed : item.v.tryLoadCnt ≥ MAX_TRY_LOAD ↔ MAX_TRY_LOAD.toNat ≤ st.missed pid := by
        rw [← (h.tries pid item hfind).1]
        exact UInt32.le_iff_toNat_le
      simp only [hmissed] at hpending
      change item.v.pending.Perm (_ ++ pendingIn left pid ++ _) at hpending
      rw [List.perm_iff_count] at hconserved hpending ⊢
      intro link
      have hbefore := hconserved link
      have hafter := hpending link
      simp only [List.count_append] at hbefore hafter ⊢
      omega

theorem Inv.load {st : History kernel} (h : Inv st) (body : IpcBody) :
    ∃ after, step st (.load body) = some after ∧ Inv after := by
  obtain ⟨map, left, hload, hsublist, houtcome⟩ := loadEstablishedTcps_outcome body st.map h.valid
  have hkeys := hsublist.nodup h.valid.keys
  -- An item that is left comes from one that was there.
  have horigin {pid : UInt32} {item : EstabTcp} (hfind : findEstabTcp pid left = some item) :
      ∃ origin, findEstabTcp pid st.head = some origin ∧ origin.k = pid ∧ origin.v.Valid ∧
        Outcome kernel body origin (linksIn st.map pid) (linksIn map pid) (some item) := by
    have hpid := houtcome pid
    cases horigin : findEstabTcp pid st.head with
    | none =>
        rw [horigin, hfind] at hpid
        cases hpid.2
    | some origin =>
        rw [horigin, hfind] at hpid
        obtain ⟨hmem, hk⟩ := findEstabTcp_some horigin
        exact ⟨origin, rfl, hk, h.valid.items origin hmem, hpid⟩
  simp only [step, hload, Option.bind_eq_bind, Option.bind_some]
  refine ⟨_, rfl, ⟨hkeys, fun item hmem => ?_⟩, fun pid item hfind => ?_, fun pid => ?_⟩
  · obtain ⟨origin, -, -, hvalid, hout⟩ := horigin (findEstabTcp_of_mem hkeys hmem)
    exact (hout.left hvalid).1
  · obtain ⟨origin, hfindOrigin, hk, hvalid, hout⟩ := horigin hfind
    obtain ⟨-, htry, hlt⟩ := hout.left hvalid
    obtain ⟨hmissed, -⟩ := h.tries pid origin hfindOrigin
    rw [UInt32.lt_iff_toNat_lt] at hlt
    have hmax : MAX_TRY_LOAD.toNat = 120 := rfl
    rw [htry, hk]
    change _ = st.missed pid + (if isNeedLoadEstablishedTcp body pid then 0 else 1) ∧
      st.missed pid + (if isNeedLoadEstablishedTcp body pid then 0 else 1) ≤ _
    split_ifs
    · rw [UInt32.add_zero]
      exact ⟨hmissed, by omega⟩
    · rw [UInt32.toNat_add, UInt32.toNat_one, Nat.mod_eq_of_lt (by omega)]
      omega
  · exact h.conserved_load pid (houtcome pid)

theorem map_writeEstabTcp (k : UInt32) (v : EstabTcpVal) (head : List EstabTcp) :
    (writeEstabTcp k v head).map EstabTcp.k = head.map EstabTcp.k := by
  induction head with
  | nil => rfl
  | cons item head ih =>
      rw [writeEstabTcp]
      split_ifs with hk
      · rw [List.map_cons, List.map_cons, hk]
      · rw [List.map_cons, List.map_cons, ih]

theorem findEstabTcp_write (v : EstabTcpVal) (hfind : (findEstabTcp pid head).isSome) :
    findEstabTcp pid (writeEstabTcp pid v head) = some ⟨pid, v⟩ := by
  induction head with
  | nil => simp [findEstabTcp] at hfind
  | cons item head ih =>
      rw [writeEstabTcp]
      split_ifs with hk
      · exact findEstabTcp_cons_self ⟨pid, v⟩ head
      · rw [findEstabTcp_cons_of_ne (Ne.symm hk)] at hfind ⊢
        exact ih hfind

theorem findEstabTcp_write_of_ne {k : UInt32} (v : EstabTcpVal) (head : List EstabTcp)
    (h : pid ≠ k) : findEstabTcp pid (writeEstabTcp k v head) = findEstabTcp pid head := by
  induction head with
  | nil => rfl
  | cons item head ih =>
      rw [writeEstabTcp]
      split_ifs with hk
      · rw [findEstabTcp_cons_of_ne h, findEstabTcp_cons_of_ne (hk.symm ▸ h)]
      · by_cases hpid : pid = item.k
        · rw [hpid, findEstabTcp_cons_self, findEstabTcp_cons_self]
        · rw [findEstabTcp_cons_of_ne hpid, findEstabTcp_cons_of_ne hpid, ih]

theorem mem_writeEstabTcp {k : UInt32} {v : EstabTcpVal} (h : item ∈ writeEstabTcp k v head) :
    item.v = v ∨ item ∈ head := by
  induction head with
  | nil => exact .inr h
  | cons other head ih =>
      rw [writeEstabTcp] at h
      split_ifs at h
      · rcases List.mem_cons.mp h with rfl | h
        · exact .inl rfl
        · exact .inr (.tail _ h)
      · rcases List.mem_cons.mp h with rfl | h
        · exact .inr (.head _)
        · exact (ih h).imp_right (.tail _)

theorem findEstabTcp_concat_self {k : UInt32} (v : EstabTcpVal) (hfind : findEstabTcp k head = none) :
    findEstabTcp k (head ++ [⟨k, v⟩]) = some ⟨k, v⟩ := by
  rw [findEstabTcp, List.find?_append]
  change (findEstabTcp k head).or (findEstabTcp k [⟨k, v⟩]) = _
  rw [hfind, Option.none_or]
  exact findEstabTcp_cons_self ⟨k, v⟩ []

theorem findEstabTcp_concat_of_ne {pid k : UInt32} (v : EstabTcpVal) (head : List EstabTcp)
    (hpid : pid ≠ k) : findEstabTcp pid (head ++ [⟨k, v⟩]) = findEstabTcp pid head := by
  rw [findEstabTcp, List.find?_append]
  change (findEstabTcp pid head).or (findEstabTcp pid [⟨k, v⟩]) = _
  rw [findEstabTcp_cons_of_ne hpid]
  exact Option.or_none

theorem Valid.write (h : Valid head) (k : UInt32) {v : EstabTcpVal} (hv : v.Valid) :
    Valid (writeEstabTcp k v head) := by
  refine ⟨?_, fun other hother => ?_⟩
  · rw [map_writeEstabTcp]
    exact h.keys
  · rcases mem_writeEstabTcp hother with heq | hother
    · rw [heq]
      exact hv
    · exact h.items other hother

theorem Valid.concat (h : Valid head) {k : UInt32} {v : EstabTcpVal} (hv : v.Valid)
    (hfind : findEstabTcp k head = none) : Valid (head ++ [⟨k, v⟩]) := by
  refine ⟨?_, fun other hother => ?_⟩
  · rw [List.map_append, List.map_singleton, ← List.concat_eq_append]
    exact h.keys.concat (findEstabTcp_eq_none.mp hfind)
  · rcases List.mem_append.mp hother with hother | hother
    · exact h.items other hother
    · obtain rfl := List.mem_singleton.mp hother
      exact hv

-- An fd is added to the item of its process, which is made if there is none.
theorem addEstabTcpFd_cases (k : UInt32) (fd role : Int32) (malloc : Bool) (hvalid : Valid head) :
    ∃ after ret, addEstabTcpFd k fd role malloc head = some (after, ret) ∧ Valid after ∧
      (∀ pid, pid ≠ k → findEstabTcp pid after = findEstabTcp pid head) ∧
      pendingIn after k =
        pendingIn head k ++ (if ret = 0 then [EstabTcpFd.link ⟨fd, role⟩] else []) ∧
      ∀ item, findEstabTcp k after = some item → item.v.tryLoadCnt =
        ((findEstabTcp k head).map fun item => item.v.tryLoadCnt).getD 0 := by
  unfold addEstabTcpFd
  cases hfind : findEstabTcp k head with
  | some item =>
      obtain ⟨hmem, hk⟩ := findEstabTcp_some hfind
      obtain ⟨v, ret, hadd, hv, htry, hpending⟩ := addFd_cases (hvalid.items item hmem) fd role
      have hself := findEstabTcp_write v (by rw [hfind]; rfl : (findEstabTcp k head).isSome)
      simp only [hadd, Option.bind_eq_bind, Option.bind_some]
      refine ⟨_, ret, rfl, hvalid.write k hv,
        fun pid hpid => findEstabTcp_write_of_ne v head hpid, ?_, fun other hother => ?_⟩
      · rw [pendingIn_of_find hself, pendingIn_of_find hfind, hpending]
      · rw [hself] at hother
        obtain rfl := Option.some.inj hother
        exact htry
  | none =>
      cases malloc with
      | false =>
          refine ⟨head, -1, rfl, hvalid, fun _ _ => rfl, by simp, fun item hitem => ?_⟩
          rw [hfind] at hitem
          cases hitem
      | true =>
          have hzero : EstabTcpVal.zero.Valid := ⟨Int.le_refl 0, by decide⟩
          obtain ⟨v, ret, hadd, hv, htry, hpending⟩ := addFd_cases hzero fd role
          simp only [hadd, if_true, Option.bind_eq_bind, Option.bind_some]
          have hself := findEstabTcp_concat_self v hfind
          refine ⟨_, ret, rfl, hvalid.concat hv hfind,
            fun pid hpid => findEstabTcp_concat_of_ne v head hpid, ?_, fun other hother => ?_⟩
          · rw [pendingIn_of_find hself, pendingIn_of_none hfind, hpending]
            rfl
          · rw [hself] at hother
            obtain rfl := Option.some.inj hother
            exact htry

theorem Inv.add {st : History kernel} (h : Inv st) (k : UInt32) (fd role : Int32) (malloc : Bool) :
    ∃ after, step st (.add k fd role malloc) = some after ∧ Inv after := by
  obtain ⟨head, ret, hadd, hvalid, hothers, hpending, htry⟩ :=
    addEstabTcpFd_cases k fd role malloc h.valid
  simp only [step, hadd, Option.bind_eq_bind, Option.bind_some]
  refine ⟨_, rfl, hvalid, fun pid item hfind => ?_, fun pid => ?_⟩
  · change _ = (if (findEstabTcp k st.head).isNone then Function.update st.missed k 0
      else st.missed) pid ∧ (if (findEstabTcp k st.head).isNone then Function.update st.missed k 0
      else st.missed) pid ≤ _
    by_cases hpid : pid = k
    · subst hpid
      rw [htry item hfind]
      cases hbefore : findEstabTcp pid st.head with
      | none =>
          simp only [Option.isNone_none, if_true, Function.update_self]
          exact ⟨rfl, Nat.zero_le _⟩
      | some before => exact h.tries pid before hbefore
    · have htries := h.tries pid item (by rw [← hothers pid hpid]; exact hfind)
      split_ifs
      · rw [Function.update_of_ne hpid]
        exact htries
      · exact htries
  · have hconserved := h.conserved pid
    change (st.collected pid ++ if pid = k ∧ ret = 0 then [EstabTcpFd.link ⟨fd, role⟩]
      else []).Perm (st.written pid ++ pendingIn head pid ++ st.forgotten pid)
    rw [List.perm_iff_count] at hconserved ⊢
    intro link
    have hbefore := hconserved link
    by_cases hpid : pid = k
    · subst hpid
      simp only [true_and, hpending, List.count_append] at hbefore ⊢
      omega
    · have hsame : pendingIn head pid = pendingIn st.head pid := by
        rw [pendingIn, pendingIn, hothers pid hpid]
      simp only [hpid, false_and, if_false, hsame, List.count_append, List.count_nil] at hbefore ⊢
      omega

theorem Inv.step {st : History kernel} (h : Inv st) (call : Call) :
    ∃ after, TcpFd.step st call = some after ∧ Inv after := by
  cases call with
  | add k fd role malloc => exact h.add k fd role malloc
  | load body => exact h.load body
  | kprobe tgid => exact ⟨_, rfl, h.valid, h.tries, h.conserved⟩

theorem inv_of_calls (map : TcpFdMap kernel) (calls : List Call) :
    ∃ st, calls.foldlM step (init map) = some st ∧ Inv st := by
  have hinit : Inv (init map) := by
    refine ⟨⟨List.nodup_nil, fun item hmem => ?_⟩, fun pid item hfind => ?_, fun pid => ?_⟩
    · cases hmem
    · cases hfind
    · exact List.Perm.refl []
  generalize init map = first at hinit
  induction calls generalizing first with
  | nil => exact ⟨first, rfl, hinit⟩
  | cons call calls ih =>
      obtain ⟨next, hstep, hnext⟩ := hinit.step call
      obtain ⟨last, hlast, hinv⟩ := ih next hnext
      refine ⟨last, ?_, hinv⟩
      rw [List.foldlM_cons, hstep]
      exact hlast

-- Whatever was called before, and whatever the kernel did to the map: the fds that
-- were collected are the ones written, the ones pending and the ones given up, which
-- were pending when their process had not been asked for by MAX_TRY_LOAD calls. The
-- next call appends to the list of a process what there is room for, and leaves the
-- rest in the item, which goes when there is no rest.
theorem load_established_tcps_conserve (map : TcpFdMap kernel) (calls : List Call) :
    ∃ st, calls.foldlM step (init map) = some st ∧
      (∀ pid, (st.collected pid).Perm
        (st.written pid ++ pendingIn st.head pid ++ st.forgotten pid)) ∧
      ∀ body, ∃ after left, loadEstablishedTcps body st.map st.head = some (after, left) ∧
        ∀ pid, match findEstabTcp pid st.head with
          | none => linksIn after pid = linksIn st.map pid ∧ findEstabTcp pid left = none
          | some item =>
              if MAX_TRY_LOAD.toNat ≤ st.missed pid then
                linksIn after pid = linksIn st.map pid ∧ findEstabTcp pid left = none
              else if isNeedLoadEstablishedTcp body pid then
                let stay := item.v.pending.length -
                  (TCP_FD_PER_PROC_MAX kernel - (linksIn st.map pid).length)
                linksIn after pid = linksIn st.map pid ++ (item.v.pending.drop stay).reverse ∧
                  pendingIn left pid = item.v.pending.take stay ∧
                  (findEstabTcp pid left = none ↔ stay = 0)
              else linksIn after pid = linksIn st.map pid ∧
                pendingIn left pid = item.v.pending ∧ findEstabTcp pid left ≠ none := by
  obtain ⟨st, hcalls, hinv⟩ := inv_of_calls map calls
  refine ⟨st, hcalls, hinv.conserved, fun body => ?_⟩
  obtain ⟨after, left, hload, -, houtcome⟩ := loadEstablishedTcps_outcome body st.map hinv.valid
  refine ⟨after, left, hload, fun pid => ?_⟩
  have hpid := houtcome pid
  cases hfind : findEstabTcp pid st.head with
  | none =>
      rw [hfind] at hpid
      exact hpid
  | some item =>
      rw [hfind] at hpid
      obtain ⟨-, rfl⟩ := findEstabTcp_some hfind
      have hmissed : item.v.tryLoadCnt ≥ MAX_TRY_LOAD ↔ MAX_TRY_LOAD.toNat ≤ st.missed item.k := by
        rw [← (hinv.tries _ item hfind).1]
        exact UInt32.le_iff_toNat_le
      simp only [Outcome, hmissed] at hpid
      simp only
      split_ifs at hpid ⊢ with hmax hneed hkept
      · exact hpid
      · obtain ⟨hlinks, hnone⟩ := hpid
        have hstay := kept_eq_nil.mp hkept
        rw [room] at hstay
        refine ⟨hlinks, ?_, ?_⟩
        · rw [pendingIn_of_none hnone]
          exact hkept.symm
        · simp only [hnone, true_iff]
          omega
      · obtain ⟨hlinks, v, hsome, -, -, hpending⟩ := hpid
        have hstay := mt kept_eq_nil.mpr hkept
        rw [room] at hstay
        refine ⟨hlinks, ?_, ?_⟩
        · rw [pendingIn_of_find hsome]
          exact hpending
        · simp only [hsome, reduceCtorEq, false_iff]
          omega
      · obtain ⟨hlinks, hsome⟩ := hpid
        exact ⟨hlinks, by rw [pendingIn_of_find hsome]; rfl, by rw [hsome]; simp⟩

end Gopher.TcpFd
