import Gopher.Lib.Run
import Gopher.Profiling

namespace Gopher.Profiling

open Gopher.Lib

-- A thread or a descriptor is asked for through the entry of its process.
inductive Request
  | proc (tgid : Int32)
  | thrd (tgid pid : Int32)
  | fd (tgid fd : Int32)
  deriving DecidableEq

def serve (procTable : List ProcInfo) (call : Env × Request) : List ProcInfo :=
  match call with
  | (env, .proc tgid) => (getProcInfo env procTable tgid).1
  | (env, .thrd tgid pid) =>
      HashTable.modify ProcInfo.tgid (fun pi => (getThrdInfo env pi pid).1) procTable tgid
  | (env, .fd tgid fd) =>
      HashTable.modify ProcInfo.tgid (fun pi => (getFdInfo env pi fd).1) procTable tgid

-- Filling a new entry succeeds where one is needed.
def Filled (procTable : List ProcInfo) : Env × Request → Prop
  | (env, .proc tgid) =>
      HashTable.find ProcInfo.tgid procTable tgid = none → (newProcInfo env tgid).isSome
  | (env, .thrd tgid pid) => ∀ pi ∈ HashTable.find ProcInfo.tgid procTable tgid,
      HashTable.find ThrdInfo.pid pi.thrdTable pid = none → (newThrdInfo env pid).isSome
  | (env, .fd tgid fd) => ∀ pi ∈ HashTable.find ProcInfo.tgid procTable tgid,
      HashTable.find FdInfo.fd pi.fdTable fd = none → (newFdInfo env tgid fd).isSome

instance (procTable : List ProcInfo) : ∀ call, Decidable (Filled procTable call)
  | (_, .proc _) => inferInstanceAs (Decidable (_ → _))
  | (_, .thrd _ _) => inferInstanceAs (Decidable (∀ pi ∈ _, _ → _))
  | (_, .fd _ _) => inferInstanceAs (Decidable (∀ pi ∈ _, _ → _))

def procRequests (calls : List (Env × Request)) : List Int32 :=
  calls.filterMap fun
    | (_, .proc tgid) => some tgid
    | _ => none

def thrdRequests (tgid : Int32) (calls : List (Env × Request)) : List Int32 :=
  calls.filterMap fun
    | (_, .thrd other pid) => if other = tgid then some pid else none
    | _ => none

def fdRequests (tgid : Int32) (calls : List (Env × Request)) : List Int32 :=
  calls.filterMap fun
    | (_, .fd other fd) => if other = tgid then some fd else none
    | _ => none

def Cached (calls : List (Env × Request)) (tgid : Int32) : Prop :=
  tgid ∈ (calls.foldl serve []).map ProcInfo.tgid

-- The entry of the process was made by the call before `after`, and has stayed.
def CachedThrough (calls : List (Env × Request)) (tgid : Int32) (after : List (Env × Request)) : Prop :=
  ∃ before env, calls = before ++ (env, .proc tgid) :: after ∧ ¬Cached before tgid ∧
    ∀ earlier later, after = earlier ++ later → Cached (before ++ (env, .proc tgid) :: earlier) tgid

theorem getProcInfo_eq (env : Env) (procTable : List ProcInfo) (tgid : Int32) :
    getProcInfo env procTable tgid =
      Lru.get ProcInfo.tgid MAX_CACHE_PROC_NUM (newProcInfo env tgid) procTable tgid := by
  unfold getProcInfo addProcInfo Lru.get hashFindProcInfoWithLRU hashAddProcInfoWithLRU
  rcases Lru.find ProcInfo.tgid procTable tgid with ⟨table, _ | pi⟩ <;>
    cases newProcInfo env tgid <;> rfl

theorem getThrdInfo_eq (env : Env) (procInfo : ProcInfo) (pid : Int32) :
    (getThrdInfo env procInfo pid).1 = { procInfo with thrdTable :=
      (Lru.get ThrdInfo.pid MAX_CACHE_THRD_NUM (newThrdInfo env pid) procInfo.thrdTable pid).1 } := by
  unfold getThrdInfo addThrdInfo Lru.get hashFindThrdInfoWithLRU hashAddThrdInfoWithLRU
  rcases Lru.find ThrdInfo.pid procInfo.thrdTable pid with ⟨table, _ | ti⟩ <;>
    cases newThrdInfo env pid <;> rfl

theorem getFdInfo_eq (env : Env) (procInfo : ProcInfo) (fd : Int32) :
    (getFdInfo env procInfo fd).1 = { procInfo with fdTable := (Lru.get FdInfo.fd MAX_CACHE_FD_NUM
      (newFdInfo env procInfo.tgid fd) procInfo.fdTable fd).1 } := by
  unfold getFdInfo addFdInfo Lru.get hashFindFdInfoWithLRU hashAddFdInfoWithLRU
  rcases Lru.find FdInfo.fd procInfo.fdTable fd with ⟨table, _ | fi⟩ <;>
    cases newFdInfo env procInfo.tgid fd <;> rfl

theorem newProcInfo_eq {env : Env} {tgid : Int32} {pi : ProcInfo} (h : newProcInfo env tgid = some pi) :
    pi.tgid = tgid ∧ pi.thrdTable = [] ∧ pi.fdTable = [] := by
  unfold newProcInfo fillProcInfo at h
  split_ifs at h
  obtain ⟨comm, -, h⟩ := Option.bind_eq_some_iff.mp h
  cases h
  exact ⟨rfl, rfl, rfl⟩

theorem newThrdInfo_pid {env : Env} {pid : Int32} {ti : ThrdInfo} (h : newThrdInfo env pid = some ti) :
    ti.pid = pid := by
  unfold newThrdInfo at h
  split_ifs at h
  cases h
  rfl

theorem newFdInfo_fd {env : Env} {tgid fd : Int32} {fi : FdInfo} (h : newFdInfo env tgid fd = some fi) :
    fi.fd = fd := by
  unfold newFdInfo at h
  split_ifs at h
  obtain ⟨type, -, rfl⟩ := Option.map_eq_some_iff.mp h
  rfl

-- The tables of a process follow the requests made since its entry is there.
def Follows (calls : List (Env × Request)) (pi : ProcInfo) (after : List (Env × Request)) : Prop :=
  CachedThrough calls pi.tgid after ∧
    pi.thrdTable.map ThrdInfo.pid = recent MAX_CACHE_THRD_NUM (thrdRequests pi.tgid after) ∧
    pi.fdTable.map FdInfo.fd = recent MAX_CACHE_FD_NUM (fdRequests pi.tgid after)

structure LruInvariant (calls : List (Env × Request)) (procTable : List ProcInfo) : Prop where
  run : procTable = calls.foldl serve []
  keys : procTable.map ProcInfo.tgid = recent MAX_CACHE_PROC_NUM (procRequests calls)
  follows : ∀ pi ∈ procTable, ∃ after, Follows calls pi after

variable {calls : List (Env × Request)} {procTable : List ProcInfo} {env : Env} {tgid : Int32}

theorem LruInvariant.nodup (h : LruInvariant calls procTable) :
    (procTable.map ProcInfo.tgid).Nodup := by
  rw [h.keys]
  exact nodup_recent _ _

theorem CachedThrough.concat {after : List (Env × Request)} {call : Env × Request}
    (h : CachedThrough calls tgid after) (hcached : Cached (calls ++ [call]) tgid) :
    CachedThrough (calls ++ [call]) tgid (after ++ [call]) := by
  obtain ⟨before, env, rfl, hbefore, hstays⟩ := h
  refine ⟨before, env, by simp, hbefore, fun earlier later heq => ?_⟩
  rcases List.eq_nil_or_concat later with rfl | ⟨front, last, rfl⟩
  · rw [List.append_nil] at heq
    subst heq
    simpa using hcached
  · rw [List.concat_eq_append, ← List.append_assoc] at heq
    exact hstays earlier front (List.append_inj_left' heq rfl)

-- The entry an unserved request for a process makes.
theorem cachedThrough_new (hbefore : ¬Cached calls tgid)
    (hcached : Cached (calls ++ [(env, .proc tgid)]) tgid) :
    CachedThrough (calls ++ [(env, .proc tgid)]) tgid [] := by
  refine ⟨calls, env, rfl, hbefore, fun earlier later heq => ?_⟩
  obtain ⟨rfl, -⟩ := List.append_eq_nil_iff.mp heq.symm
  exact hcached

theorem serve_proc_follows (h : LruInvariant calls procTable) (tgid : Int32) {pi : ProcInfo}
    (hpi : pi ∈ serve procTable (env, .proc tgid)) :
    ∃ after, Follows (calls ++ [(env, .proc tgid)]) pi after := by
  have hcached : Cached (calls ++ [(env, .proc tgid)]) pi.tgid := by
    rw [Cached, List.foldl_concat, ← h.run]
    exact List.mem_map_of_mem hpi
  rw [serve, getProcInfo_eq] at hpi
  rcases Lru.mem_get hpi with hold | ⟨hmiss, hnew⟩
  · obtain ⟨after, hthrough, hthrd, hfd⟩ := h.follows pi hold
    refine ⟨after ++ [(env, .proc tgid)], hthrough.concat hcached, ?_, ?_⟩
    · simpa [thrdRequests] using hthrd
    · simpa [fdRequests] using hfd
  · obtain ⟨rfl, hthrd, hfd⟩ := newProcInfo_eq hnew
    refine ⟨[], cachedThrough_new ?_ hcached, ?_, ?_⟩
    · rw [Cached, ← h.run]
      intro hmem
      obtain ⟨other, hother, heq⟩ := List.mem_map.mp hmem
      exact HashTable.find_eq_none.mp hmiss other hother heq
    · rw [hthrd]
      exact (recent_nil _).symm
    · rw [hfd]
      exact (recent_nil _).symm

-- A request that changes the entry of one process only.
theorem serve_modify_follows (h : LruInvariant calls procTable) {call : Env × Request}
    {change : ProcInfo → ProcInfo} (hkey : ∀ pi, (change pi).tgid = pi.tgid)
    (hserve : serve procTable call = HashTable.modify ProcInfo.tgid change procTable tgid)
    (hother : ∀ other, other ≠ tgid → ∀ after,
      thrdRequests other (after ++ [call]) = thrdRequests other after ∧
        fdRequests other (after ++ [call]) = fdRequests other after)
    (hchange : ∀ pi after, HashTable.find ProcInfo.tgid procTable tgid = some pi →
      pi.tgid = tgid →
      pi.thrdTable.map ThrdInfo.pid = recent MAX_CACHE_THRD_NUM (thrdRequests tgid after) →
      pi.fdTable.map FdInfo.fd = recent MAX_CACHE_FD_NUM (fdRequests tgid after) →
      (change pi).thrdTable.map ThrdInfo.pid =
          recent MAX_CACHE_THRD_NUM (thrdRequests tgid (after ++ [call])) ∧
        (change pi).fdTable.map FdInfo.fd =
          recent MAX_CACHE_FD_NUM (fdRequests tgid (after ++ [call]))) :
    ∀ pi ∈ serve procTable call, ∃ after, Follows (calls ++ [call]) pi after := by
  intro pi hpi
  have hcached : Cached (calls ++ [call]) pi.tgid := by
    rw [Cached, List.foldl_concat, ← h.run]
    exact List.mem_map_of_mem hpi
  rw [hserve] at hpi
  rcases (HashTable.mem_modify h.nodup).mp hpi with ⟨hold, hne⟩ | ⟨found, hfound, rfl⟩
  · obtain ⟨after, hthrough, hthrd, hfd⟩ := h.follows pi hold
    obtain ⟨hthrd', hfd'⟩ := hother pi.tgid hne after
    exact ⟨after ++ [call], hthrough.concat hcached, by rw [hthrd', hthrd], by rw [hfd', hfd]⟩
  · rw [hkey] at hcached
    have htgid := HashTable.key_of_find hfound
    obtain ⟨after, hthrough, hthrd, hfd⟩ := h.follows found (HashTable.mem_of_find hfound)
    rw [htgid] at hthrd hfd
    obtain ⟨hthrd', hfd'⟩ := hchange found after hfound htgid hthrd hfd
    refine ⟨after ++ [call], ?_, ?_, ?_⟩
    · rw [hkey]
      exact hthrough.concat hcached
    · rw [hkey, htgid, hthrd']
    · rw [hkey, htgid, hfd']

theorem serve_thrd_follows (h : LruInvariant calls procTable) (tgid pid : Int32)
    (hfilled : Filled procTable (env, .thrd tgid pid)) :
    ∀ pi ∈ serve procTable (env, .thrd tgid pid),
      ∃ after, Follows (calls ++ [(env, .thrd tgid pid)]) pi after := by
  refine serve_modify_follows h (fun pi => by rw [getThrdInfo_eq]) rfl
    (fun other hne after => ?_) fun pi after hfind htgid hthrd hfd => ?_
  · simp [thrdRequests, fdRequests, Ne.symm hne]
  · rw [getThrdInfo_eq]
    constructor
    · have hrequests : thrdRequests tgid (after ++ [(env, .thrd tgid pid)]) =
          thrdRequests tgid after ++ [pid] := by
        simp [thrdRequests]
      rw [hrequests]
      exact Lru.map_key_get (by decide) hthrd (fun ti => newThrdInfo_pid) (hfilled pi hfind)
    · simpa [fdRequests] using hfd

theorem serve_fd_follows (h : LruInvariant calls procTable) (tgid fd : Int32)
    (hfilled : Filled procTable (env, .fd tgid fd)) :
    ∀ pi ∈ serve procTable (env, .fd tgid fd),
      ∃ after, Follows (calls ++ [(env, .fd tgid fd)]) pi after := by
  refine serve_modify_follows h (fun pi => by rw [getFdInfo_eq]) rfl
    (fun other hne after => ?_) fun pi after hfind htgid hthrd hfd => ?_
  · simp [thrdRequests, fdRequests, Ne.symm hne]
  · rw [getFdInfo_eq]
    constructor
    · simpa [thrdRequests] using hthrd
    · have hrequests : fdRequests tgid (after ++ [(env, .fd tgid fd)]) =
          fdRequests tgid after ++ [fd] := by
        simp [fdRequests]
      rw [hrequests, htgid]
      exact Lru.map_key_get (by decide) hfd (fun fi => newFdInfo_fd) (hfilled pi hfind)

theorem serve_keys (h : LruInvariant calls procTable) {call : Env × Request}
    (hfilled : Filled procTable call) : (serve procTable call).map ProcInfo.tgid =
      recent MAX_CACHE_PROC_NUM (procRequests (calls ++ [call])) := by
  obtain ⟨env, request⟩ := call
  cases request with
  | proc tgid =>
      have hrequests : procRequests (calls ++ [(env, .proc tgid)]) = procRequests calls ++ [tgid] := by
        simp [procRequests]
      rw [hrequests, serve, getProcInfo_eq]
      exact Lru.map_key_get (by decide) h.keys (fun pi hpi => (newProcInfo_eq hpi).1) hfilled
  | thrd tgid pid =>
      rw [serve, HashTable.map_key_modify fun pi => by rw [getThrdInfo_eq], h.keys]
      simp [procRequests]
  | fd tgid fd =>
      rw [serve, HashTable.map_key_modify fun pi => by rw [getFdInfo_eq], h.keys]
      simp [procRequests]

theorem LruInvariant.serve (h : LruInvariant calls procTable) {call : Env × Request}
    (hfilled : Filled procTable call) :
    LruInvariant (calls ++ [call]) (serve procTable call) := by
  refine ⟨by rw [List.foldl_concat, ← h.run], serve_keys h hfilled, ?_⟩
  obtain ⟨env, request⟩ := call
  cases request with
  | proc tgid => exact fun pi hpi => serve_proc_follows h tgid hpi
  | thrd tgid pid => exact serve_thrd_follows h tgid pid hfilled
  | fd tgid fd => exact serve_fd_follows h tgid fd hfilled

-- Each table holds the keys requested most recently, a thread or descriptor table
-- those since the entry of its process was made.
theorem lru_tables (calls : List (Env × Request))
    (hfilled : EachStep Profiling.serve [] (fun _ => Filled) calls) :
    let procTable := calls.foldl Profiling.serve []
    MostRecent MAX_CACHE_PROC_NUM (procRequests calls) (procTable.map ProcInfo.tgid) ∧
    procTable.map ProcInfo.tgid = recent MAX_CACHE_PROC_NUM (procRequests calls) ∧
    ∀ pi ∈ procTable, ∃ after, CachedThrough calls pi.tgid after ∧
      MostRecent MAX_CACHE_THRD_NUM (thrdRequests pi.tgid after) (pi.thrdTable.map ThrdInfo.pid) ∧
      pi.thrdTable.map ThrdInfo.pid = recent MAX_CACHE_THRD_NUM (thrdRequests pi.tgid after) ∧
      MostRecent MAX_CACHE_FD_NUM (fdRequests pi.tgid after) (pi.fdTable.map FdInfo.fd) ∧
      pi.fdTable.map FdInfo.fd = recent MAX_CACHE_FD_NUM (fdRequests pi.tgid after) := by
  intro procTable
  have hinv : LruInvariant calls procTable := by
    refine hfilled.invariant LruInvariant ⟨rfl, (recent_nil _).symm, by simp⟩ ?_
    intro done state call hinv hcall
    exact hinv.serve hcall
  refine ⟨hinv.keys ▸ mostRecent_recent _ _, hinv.keys, fun pi hpi => ?_⟩
  obtain ⟨after, hthrough, hthrd, hfd⟩ := hinv.follows pi hpi
  exact ⟨after, hthrough, hthrd ▸ mostRecent_recent _ _, hthrd, hfd ▸ mostRecent_recent _ _, hfd⟩

def sampleEnv : Env where
  calloc := true
  popen := fun _ => some "sh\n".toList
  javaMainClass := fun _ => none
  containerIdByPidCpuset := fun _ => none
  containerName := fun _ => none
  stat := fun _ => some .other
  readlink := fun _ => none

-- The entry can be made.
def grants : Env × Request → Bool
  | (env, .proc tgid) => (newProcInfo env tgid).isSome
  | (env, .thrd _ pid) => (newThrdInfo env pid).isSome
  | (env, .fd tgid fd) => (newFdInfo env tgid fd).isSome

theorem filled_of_grants (procTable : List ProcInfo) {call : Env × Request}
    (h : grants call = true) : Filled procTable call := by
  obtain ⟨env, request⟩ := call
  cases request with
  | proc tgid => exact fun _ => h
  | thrd tgid pid => exact fun _ _ _ => h
  | fd tgid fd => exact fun _ _ _ => h

-- As many processes as there is room for, the second of them again and a new one.
def sampleCalls : List (Env × Request) :=
  ((List.range MAX_CACHE_PROC_NUM).map (fun i => Request.proc (Int32.ofNat i)) ++
    [Request.thrd 1 7, Request.fd 2 3, Request.proc 1, Request.proc 64]).map (sampleEnv, ·)

theorem lru_tables_sample :
    EachStep Profiling.serve [] (fun _ => Filled) sampleCalls ∧
    (sampleCalls.foldl Profiling.serve []).map ProcInfo.tgid =
      (List.range' 2 62).map Int32.ofNat ++ [1, 64] := by
  have hgrants : ∀ call ∈ sampleCalls, grants call = true := by decide +kernel
  have hfilled : EachStep Profiling.serve [] (fun _ => Filled) sampleCalls := by
    intro earlier call later hsplit
    exact filled_of_grants _ (hgrants call (hsplit ▸ List.mem_append_cons_self))
  obtain ⟨-, hkeys, -⟩ := lru_tables sampleCalls hfilled
  refine ⟨hfilled, hkeys.trans ?_⟩
  decide +kernel

end Gopher.Profiling
