import Gopher.Probe.PodMng

namespace Gopher.Probe.PodMng

open Gopher.Lib

def FILTER_FLAGS_IGNORE : UInt32 := 0x0000
def FILTER_FLAGS_NORMAL : UInt32 := 0x0001

inductive FilterOp
  | add
  | rm
  deriving DecidableEq

inductive CbRslt
  | goOn
  | stop
  | err
  deriving DecidableEq

-- What the system answers during an operation: the return value and the inode of a
-- container, and the return values of the calls for a cgroup.
structure FilterEnv where
  getContainerCpucgInode : Text → Int × UInt32
  cgrpAdd : UInt32 → Int
  cgrpPut : UInt32 → Int

def FilterEnv.cgrpCall (env : FilterEnv) : FilterOp → UInt32 → Int
  | .add => env.cgrpAdd
  | .rm => env.cgrpPut

-- A call of `cgrp_add` or `cgrp_put`, with the container whose cgroup it is for.
structure CgrpCall where
  op : FilterOp
  conId : Text
  knid : UInt32
  ret : Int

-- What a callback leaves of a container, the call it made and how the walk goes on.
structure CbOutcome where
  con : Container
  calls : List CgrpCall
  rslt : CbRslt

def isUpdateContainerFilter (con : Container) : FilterOp → Bool
  | .add => con.conInfo.flags &&& FILTER_FLAGS_IGNORE != 0
  | .rm => con.conInfo.flags &&& FILTER_FLAGS_NORMAL != 0

def Container.setFlags (flags : UInt32) (con : Container) : Container :=
  { con with conInfo := { con.conInfo with flags := flags } }

def updateContainerFilter (con : Container) : FilterOp → Container
  | .add => con.setFlags FILTER_FLAGS_NORMAL
  | .rm => con.setFlags FILTER_FLAGS_IGNORE

-- Both callbacks, which differ in how they end without an error. A call that fails
-- changes the flags all the same.
def filterContainer (done : CbRslt) (env : FilterEnv) (op : FilterOp) (con : Container) :
    CbOutcome :=
  if isUpdateContainerFilter con op then
    let (ret, knid) := env.getContainerCpucgInode con.conId
    if ret ≠ 0 then ⟨con, [], if ret < 0 then .err else done⟩
    else
      let ret := env.cgrpCall op knid
      ⟨updateContainerFilter con op, [⟨op, con.conId, knid, ret⟩], if ret < 0 then .err else done⟩
  else ⟨con, [], done⟩

def containerFilterOp : FilterEnv → FilterOp → Container → CbOutcome := filterContainer .goOn

def singleContainerFilterOp : FilterEnv → FilterOp → Container → CbOutcome :=
  filterContainer .stop

-- The containers in the order of the walk, the oldest first.
def walkContainerTbl (containerId : Option Text) (cb : Container → CbOutcome) :
    List Container → List Container × List CgrpCall × CbRslt
  | [] => ([], [], .goOn)
  | con :: cons =>
      match containerId with
      | some conId =>
          if con.conId = conId then
            let outcome := cb con
            (outcome.con :: cons, outcome.calls, outcome.rslt)
          else
            let (cons, calls, rslt) := walkContainerTbl containerId cb cons
            (con :: cons, calls, rslt)
      | none =>
          let outcome := cb con
          if outcome.rslt ≠ .goOn then (outcome.con :: cons, outcome.calls, outcome.rslt)
          else
            let (cons, calls, rslt) := walkContainerTbl containerId cb cons
            (outcome.con :: cons, outcome.calls ++ calls, rslt)

def walkPod (containerId : Option Text) (cb : Container → CbOutcome) (pod : Pod) :
    Pod × List CgrpCall × CbRslt :=
  let (cons, calls, rslt) := walkContainerTbl containerId cb pod.podInfo.conHead.reverse
  (changeInfo (fun podInfo => { podInfo with conHead := cons.reverse }) pod, calls, rslt)

-- The pods in the order of the walk.
def walkPodTbl (podId containerId : Option Text) (cb : Container → CbOutcome) :
    List Pod → List Pod × List CgrpCall × CbRslt
  | [] => ([], [], .goOn)
  | pod :: pods =>
      match podId with
      | some id =>
          if pod.podId = id then
            let (pod, calls, rslt) := walkPod containerId cb pod
            (pod :: pods, calls, rslt)
          else
            let (pods, calls, rslt) := walkPodTbl podId containerId cb pods
            (pod :: pods, calls, rslt)
      | none =>
          let (pod, calls, rslt) := walkPod containerId cb pod
          if rslt ≠ .goOn then (pod :: pods, calls, rslt)
          else
            let (pods, more, rslt) := walkPodTbl podId containerId cb pods
            (pod :: pods, calls ++ more, rslt)

def filterPods (podId containerId : Option Text) (cb : Container → CbOutcome) (pods : Pods) :
    Pods × List CgrpCall × CbRslt :=
  let (pods, calls, rslt) := walkPodTbl podId containerId cb pods.reverse
  (pods.reverse, calls, rslt)

def filterPodOp (env : FilterEnv) (podId : Text) (op : FilterOp) (pods : Pods) :
    Pods × List CgrpCall × CbRslt :=
  filterPods (some podId) none (containerFilterOp env op) pods

def filterContainerOp (env : FilterEnv) (containerId : Text) (op : FilterOp) (pods : Pods) :
    Pods × List CgrpCall × CbRslt :=
  filterPods none (some containerId) (singleContainerFilterOp env op) pods

-- What an operation is called with: all containers of a pod, or one container.
inductive FilterTarget
  | pod (podId : Text)
  | container (containerId : Text)

def filterOp (env : FilterEnv) (op : FilterOp) (pods : Pods) :
    FilterTarget → Pods × List CgrpCall × CbRslt
  | .pod podId => filterPodOp env podId op pods
  | .container containerId => filterContainerOp env containerId op pods

def allCons (pods : List Pod) : List Container :=
  pods.flatMap fun pod => pod.podInfo.conHead.reverse

-- The containers a target means, in the order of the walk. An id that is there twice
-- means the older one.
def FilterTarget.cons (pods : Pods) : FilterTarget → List Container
  | .pod podId =>
      ((pods.reverse.find? fun pod => pod.podId = podId).map fun pod =>
        pod.podInfo.conHead.reverse).getD []
  | .container containerId =>
      ((allCons pods.reverse).find? fun con => con.conId = containerId).toList

def Container.isNormal (con : Container) : Bool := con.conInfo.flags &&& FILTER_FLAGS_NORMAL != 0

-- ADD once for each of the environments.
def addFilter (target : FilterTarget) : List FilterEnv → Pods → Pods × List CgrpCall
  | [], pods => (pods, [])
  | env :: envs, pods =>
      let (pods, calls, _) := filterOp env .add pods target
      let (pods, more) := addFilter target envs pods
      (pods, calls ++ more)

-- The containers whose cgroups were added or put, as often as they were.
def succeeded (op : FilterOp) (calls : List CgrpCall) : List Text :=
  (calls.filter fun call => call.op = op && 0 ≤ call.ret).map CgrpCall.conId

-- After ADD, however often, and after RM behind it.
structure FilteredOnce (target : FilterTarget) (pods : Pods) (envs : List FilterEnv)
    (env : FilterEnv) : Prop where
  flagged : ∀ con ∈ target.cons (addFilter target envs pods).1, con.isNormal
  added : (succeeded .add (addFilter target envs pods).2).Perm
    (((target.cons pods).filter fun con => !con.isNormal).map Container.conId)
  restored : ∀ con ∈ target.cons (filterOp env .rm (addFilter target envs pods).1 target).1,
    con.conInfo.flags = FILTER_FLAGS_IGNORE
  put : (succeeded .rm (filterOp env .rm (addFilter target envs pods).1 target).2.1).Perm
    ((target.cons pods).map Container.conId)

-- The container is flagged and its cgroup can be put.
structure Puttable (env : FilterEnv) (con : Container) : Prop where
  normal : con.isNormal
  inode : (env.getContainerCpucgInode con.conId).1 = 0
  put : 0 ≤ env.cgrpPut (env.getContainerCpucgInode con.conId).2

section Walks

variable {cb : Container → CbOutcome} {id : Text} {cons : List Container} {pods : List Pod}

theorem walkContainerTbl_of_find_none
    (h : cons.find? (fun con => con.conId = id) = none) :
    walkContainerTbl (some id) cb cons = (cons, [], .goOn) := by
  induction cons with
  | nil => rfl
  | cons con rest ih =>
      rw [List.find?_cons] at h
      by_cases hid : con.conId = id
      · simp [hid] at h
      · simp only [hid, decide_false] at h
        rw [walkContainerTbl]
        simp only [hid, if_false, ih h]

theorem walkContainerTbl_of_find_some (hcb : ∀ con, (cb con).con.conId = con.conId)
    {con : Container} (h : cons.find? (fun con => con.conId = id) = some con) :
    (walkContainerTbl (some id) cb cons).1.find? (fun con => con.conId = id) = some (cb con).con ∧
      (walkContainerTbl (some id) cb cons).2 = ((cb con).calls, (cb con).rslt) := by
  induction cons with
  | nil => simp at h
  | cons head rest ih =>
      rw [List.find?_cons] at h
      rw [walkContainerTbl]
      by_cases hid : head.conId = id
      · simp only [hid, decide_true, Option.some.injEq] at h
        subst h
        simp [hid, hcb]
      · simp only [hid, decide_false] at h
        obtain ⟨hfind, hcalls⟩ := ih h
        simp only [hid, if_false, List.find?_cons, decide_false]
        exact ⟨hfind, hcalls⟩

theorem allCons_cons (pod : Pod) (pods : List Pod) :
    allCons (pod :: pods) = pod.podInfo.conHead.reverse ++ allCons pods := List.flatMap_cons

theorem walkPod_of_find_none {pod : Pod}
    (h : pod.podInfo.conHead.reverse.find? (fun con => con.conId = id) = none) :
    walkPod (some id) cb pod = (pod, [], .goOn) := by
  rw [walkPod, walkContainerTbl_of_find_none h]
  simp [changeInfo]

-- For one container the walk stops at the first with the id, in whichever pod it is.
theorem walkPodTbl_of_find_none (h : (allCons pods).find? (fun con => con.conId = id) = none) :
    walkPodTbl none (some id) cb pods = (pods, [], .goOn) := by
  induction pods with
  | nil => rfl
  | cons pod rest ih =>
      rw [allCons_cons, List.find?_append, Option.or_eq_none_iff] at h
      rw [walkPodTbl]
      simp [walkPod_of_find_none h.1, ih h.2]

theorem walkPodTbl_of_find_some (hid : ∀ con, (cb con).con.conId = con.conId)
    (hstop : ∀ con, (cb con).rslt ≠ .goOn) {con : Container}
    (h : (allCons pods).find? (fun con => con.conId = id) = some con) :
    (allCons (walkPodTbl none (some id) cb pods).1).find? (fun con => con.conId = id) =
        some (cb con).con ∧
      (walkPodTbl none (some id) cb pods).2 = ((cb con).calls, (cb con).rslt) := by
  induction pods with
  | nil => simp [allCons] at h
  | cons pod rest ih =>
      rw [allCons_cons, List.find?_append] at h
      rw [walkPodTbl]
      cases hpod : pod.podInfo.conHead.reverse.find? fun con => con.conId = id with
      | none =>
          rw [hpod, Option.none_or] at h
          obtain ⟨hfind, hcalls⟩ := ih h
          simp only [walkPod_of_find_none hpod, ne_eq, not_true_eq_false, if_false]
          refine ⟨?_, by simp [hcalls]⟩
          rw [allCons_cons, List.find?_append, hpod, Option.none_or, hfind]
      | some found =>
          rw [hpod, Option.some_or] at h
          obtain rfl := Option.some.inj h
          obtain ⟨hfind, hcalls⟩ := walkContainerTbl_of_find_some hid hpod
          obtain ⟨hcalls, hrslt⟩ := Prod.ext_iff.mp hcalls
          have hgo : ¬(walkContainerTbl (some id) cb pod.podInfo.conHead.reverse).2.2 = .goOn := by
            rw [hrslt]
            exact hstop found
          simp only [walkPod, ne_eq, hgo, not_false_eq_true, if_true]
          refine ⟨?_, Prod.ext hcalls hrslt⟩
          rw [allCons_cons, List.find?_append]
          simp only [changeInfo, List.reverse_reverse]
          rw [hfind, Option.some_or]

-- For a pod the walk stops behind the first with the id.
theorem walkPodTbl_pod_of_find_none (h : pods.find? (fun pod => pod.podId = id) = none) :
    walkPodTbl (some id) none cb pods = (pods, [], .goOn) := by
  induction pods with
  | nil => rfl
  | cons pod rest ih =>
      rw [List.find?_cons] at h
      by_cases hpod : pod.podId = id
      · simp [hpod] at h
      · simp only [hpod, decide_false] at h
        rw [walkPodTbl]
        simp [hpod, ih h]

theorem walkPodTbl_pod_of_find_some {pod : Pod}
    (h : pods.find? (fun pod => pod.podId = id) = some pod) :
    (walkPodTbl (some id) none cb pods).1.find? (fun pod => pod.podId = id) =
        some (walkPod none cb pod).1 ∧
      (walkPodTbl (some id) none cb pods).2 = (walkPod none cb pod).2 := by
  induction pods with
  | nil => simp at h
  | cons head rest ih =>
      rw [List.find?_cons] at h
      rw [walkPodTbl]
      by_cases hpod : head.podId = id
      · simp only [hpod, decide_true, Option.some.injEq] at h
        subst h
        have hsame : (walkPod none cb head).1.podId = id := hpod
        simp [hpod, hsame]
      · simp only [hpod, decide_false] at h
        obtain ⟨hfind, hcalls⟩ := ih h
        simp only [hpod, if_false, List.find?_cons, decide_false]
        exact ⟨hfind, hcalls⟩

end Walks

section Containers

variable {done : CbRslt} {env : FilterEnv} {op : FilterOp} {con : Container}
  {cons : List Container}

theorem conId_filterContainer : (filterContainer done env op con).con.conId = con.conId := by
  have hupdate : (updateContainerFilter con op).conId = con.conId := by cases op <;> rfl
  unfold filterContainer
  dsimp only
  split_ifs <;> first | rfl | exact hupdate

theorem rslt_filterContainer (hdone : done ≠ .goOn) :
    (filterContainer done env op con).rslt ≠ .goOn := by
  have herr : CbRslt.err ≠ .goOn := by decide
  unfold filterContainer
  dsimp only
  split_ifs <;> first | exact hdone | exact herr

-- The flag that ADD asks for is 0, so that no container has it.
theorem filterContainer_add : filterContainer done env .add con = ⟨con, [], done⟩ := by
  simp [filterContainer, isUpdateContainerFilter, FILTER_FLAGS_IGNORE]

theorem filterContainer_rm (h : Puttable env con) :
    ∃ knid ret, 0 ≤ ret ∧ filterContainer done env .rm con =
      ⟨con.setFlags FILTER_FLAGS_IGNORE, [⟨.rm, con.conId, knid, ret⟩], done⟩ := by
  have hnormal : isUpdateContainerFilter con .rm = true := h.normal
  have hput : ¬env.cgrpCall .rm (env.getContainerCpucgInode con.conId).2 < 0 :=
    Int.not_lt.mpr h.put
  refine ⟨(env.getContainerCpucgInode con.conId).2, _, h.put, ?_⟩
  unfold filterContainer
  dsimp only
  rw [if_pos hnormal, if_neg (not_not.mpr h.inode), if_neg hput]
  rfl

theorem succeeded_append (first second : List CgrpCall) :
    succeeded op (first ++ second) = succeeded op first ++ succeeded op second := by
  simp [succeeded]

-- Of the calls for a container one at most succeeds, and one does only if it is put.
theorem succeeded_filterContainer :
    (succeeded .rm (filterContainer done env .rm con).calls).length ≤ 1 ∧
      ((succeeded .rm (filterContainer done env .rm con).calls).length = 1 →
        Puttable env con) := by
  by_cases hput : Puttable env con
  · obtain ⟨knid, ret, hret, hfilter⟩ := @filterContainer_rm done env con hput
    rw [hfilter]
    exact ⟨by simp [succeeded, hret], fun _ => hput⟩
  · have hnone : succeeded .rm (filterContainer done env .rm con).calls = [] := by
      unfold filterContainer
      dsimp only
      by_cases hnormal : isUpdateContainerFilter con .rm = true
      · rw [if_pos hnormal]
        by_cases hinode : (env.getContainerCpucgInode con.conId).1 = 0
        · have hfails : ¬0 ≤ env.cgrpCall .rm (env.getContainerCpucgInode con.conId).2 :=
            fun hret => hput ⟨hnormal, hinode, hret⟩
          rw [if_neg (not_not.mpr hinode)]
          simp [succeeded, hfails]
        · rw [if_pos hinode]
          rfl
      · rw [if_neg hnormal]
        rfl
    simp [hnone]

end Containers

section Walk

variable {done : CbRslt} {env : FilterEnv} {cons : List Container}

theorem walkContainerTbl_add :
    ∃ rslt, walkContainerTbl none (filterContainer done env .add) cons = (cons, [], rslt) := by
  induction cons with
  | nil => exact ⟨_, rfl⟩
  | cons con rest ih =>
      obtain ⟨rslt, hrest⟩ := ih
      rw [walkContainerTbl]
      simp only [filterContainer_add, hrest]
      split_ifs
      · exact ⟨_, rfl⟩
      · exact ⟨_, rfl⟩

-- A container whose cgroup is not put makes one fewer than there are containers.
theorem length_succeeded_walk :
    (succeeded .rm (walkContainerTbl none (filterContainer done env .rm) cons).2.1).length ≤
        cons.length ∧
      ((succeeded .rm (walkContainerTbl none (filterContainer done env .rm) cons).2.1).length =
        cons.length → ∀ con ∈ cons, Puttable env con) := by
  induction cons with
  | nil => simp [walkContainerTbl, succeeded]
  | cons con rest ih =>
      obtain ⟨hle, hall⟩ := ih
      obtain ⟨hone, hput⟩ := @succeeded_filterContainer done env con
      rw [walkContainerTbl, List.length_cons]
      rcases hrest : walkContainerTbl none (filterContainer done env .rm) rest with
        ⟨after, calls, rslt⟩
      rw [hrest] at hle hall
      dsimp only at hle hall ⊢
      split_ifs with hgo
      · refine ⟨by dsimp only; omega, fun hlength => ?_⟩
        dsimp only at hlength
        have hrest : rest = [] := List.length_eq_zero_iff.mp (by omega)
        subst hrest
        exact List.forall_mem_singleton.mpr (hput (by simpa using hlength))
      · dsimp only
        rw [succeeded_append, List.length_append]
        refine ⟨by omega, fun hlength => ?_⟩
        exact List.forall_mem_cons.mpr ⟨hput (by omega), hall (by omega)⟩

-- Otherwise all of them are reached.
theorem walkContainerTbl_rm (hdone : done = .goOn ∨ cons.length ≤ 1)
    (hall : ∀ con ∈ cons, Puttable env con) :
    (walkContainerTbl none (filterContainer done env .rm) cons).1 =
        cons.map (Container.setFlags FILTER_FLAGS_IGNORE) ∧
      succeeded .rm (walkContainerTbl none (filterContainer done env .rm) cons).2.1 =
        cons.map Container.conId := by
  induction cons with
  | nil => exact ⟨rfl, rfl⟩
  | cons con rest ih =>
      obtain ⟨hfirst, hrest⟩ := List.forall_mem_cons.mp hall
      obtain ⟨knid, ret, hret, hfilter⟩ := @filterContainer_rm done env con hfirst
      have hone : succeeded .rm [⟨.rm, con.conId, knid, ret⟩] = [con.conId] := by
        simp [succeeded, hret]
      rw [walkContainerTbl]
      simp only [hfilter]
      split_ifs with hgo
      · have hempty : rest = [] := by
          rcases hdone with hdone | hlength
          · exact absurd hdone hgo
          · exact List.length_eq_zero_iff.mp (by simpa using hlength)
        subst hempty
        exact ⟨rfl, hone⟩
      · obtain ⟨hcons, hcalls⟩ := ih (.inl (not_not.mp hgo)) hrest
        refine ⟨by rw [hcons]; rfl, ?_⟩
        rw [succeeded_append, hone, hcalls]
        rfl

end Walk

section Targets

variable {env : FilterEnv} {op : FilterOp} {pods : Pods} {target : FilterTarget}

def FilterTarget.done : FilterTarget → CbRslt
  | .pod _ => .goOn
  | .container _ => .stop

-- The operation is a walk over the containers that are meant, and no others.
theorem filterOp_cons (env : FilterEnv) (op : FilterOp) (pods : Pods) (target : FilterTarget) :
    target.cons (filterOp env op pods target).1 =
        (walkContainerTbl none (filterContainer target.done env op) (target.cons pods)).1 ∧
      (filterOp env op pods target).2.1 =
        (walkContainerTbl none (filterContainer target.done env op) (target.cons pods)).2.1 := by
  cases target with
  | pod podId =>
      simp only [filterOp, filterPodOp, filterPods, FilterTarget.cons, FilterTarget.done,
        List.reverse_reverse]
      cases hfind : pods.reverse.find? fun pod => pod.podId = podId with
      | none =>
          rw [walkPodTbl_pod_of_find_none hfind]
          simp [hfind, walkContainerTbl]
      | some pod =>
          obtain ⟨hafter, hcalls⟩ :=
            @walkPodTbl_pod_of_find_some (containerFilterOp env op) podId pods.reverse pod hfind
          refine ⟨?_, (congrArg Prod.fst hcalls).trans ?_⟩
          · rw [hafter]
            simp [walkPod, changeInfo, containerFilterOp]
          · simp [walkPod, containerFilterOp]
  | container containerId =>
      simp only [filterOp, filterContainerOp, filterPods, FilterTarget.cons, FilterTarget.done,
        List.reverse_reverse]
      cases hfind : (allCons pods.reverse).find? fun con => con.conId = containerId with
      | none =>
          rw [walkPodTbl_of_find_none hfind]
          simp [hfind, walkContainerTbl]
      | some con =>
          have hid (con : Container) : (singleContainerFilterOp env op con).con.conId = con.conId :=
            conId_filterContainer
          have hstop (con : Container) : (singleContainerFilterOp env op con).rslt ≠ .goOn :=
            rslt_filterContainer (by decide)
          obtain ⟨hafter, hcalls⟩ := walkPodTbl_of_find_some hid hstop hfind
          have hgo : (filterContainer .stop env op con).rslt ≠ .goOn := hstop con
          refine ⟨?_, (congrArg Prod.fst hcalls).trans ?_⟩
          · rw [hafter]
            simp [walkContainerTbl, hgo, singleContainerFilterOp]
          · simp [walkContainerTbl, hgo, singleContainerFilterOp]

theorem cons_le_one (h : target.done ≠ .goOn) : (target.cons pods).length ≤ 1 := by
  cases target with
  | pod podId => exact absurd rfl h
  | container containerId =>
      exact Option.length_toList_le

-- ADD changes nothing, for whichever containers and however often.
theorem addFilter_cons (target : FilterTarget) (envs : List FilterEnv) (pods : Pods) :
    target.cons (addFilter target envs pods).1 = target.cons pods ∧
      (addFilter target envs pods).2 = [] := by
  induction envs generalizing pods with
  | nil => exact ⟨rfl, rfl⟩
  | cons env envs ih =>
      obtain ⟨hcons, hcalls⟩ := filterOp_cons env .add pods target
      obtain ⟨rslt, hwalk⟩ := @walkContainerTbl_add target.done env (target.cons pods)
      rw [hwalk] at hcons hcalls
      obtain ⟨hlater, hnone⟩ := ih (filterOp env .add pods target).1
      refine ⟨hlater.trans hcons, ?_⟩
      have hsplit : (addFilter target (env :: envs) pods).2 = (filterOp env .add pods target).2.1 ++
          (addFilter target envs (filterOp env .add pods target).1).2 := rfl
      rw [hsplit, hcalls, hnone]
      rfl

-- Both operations do what they are for exactly if ADD has nothing to do, and RM can put
-- the cgroup of every container.
theorem filteredOnce_iff (target : FilterTarget) (pods : Pods) (envs : List FilterEnv)
    (env : FilterEnv) :
    FilteredOnce target pods envs env ↔ ∀ con ∈ target.cons pods, Puttable env con := by
  obtain ⟨hcons, hcalls⟩ := addFilter_cons target envs pods
  obtain ⟨hafter, hputs⟩ := filterOp_cons env .rm (addFilter target envs pods).1 target
  rw [hcons] at hafter hputs
  constructor
  · intro h
    have hlength := h.put.length_eq
    rw [hputs, List.length_map] at hlength
    exact length_succeeded_walk.2 hlength
  · intro hall
    have hdone : target.done = .goOn ∨ (target.cons pods).length ≤ 1 := by
      by_cases hgo : target.done = .goOn
      · exact .inl hgo
      · exact .inr (cons_le_one hgo)
    obtain ⟨hwalked, hput⟩ := walkContainerTbl_rm hdone hall
    refine ⟨?_, ?_, ?_, ?_⟩
    · rw [hcons]
      exact fun con hmem => (hall con hmem).normal
    · have hnone : (target.cons pods).filter (fun con => !con.isNormal) = [] := by
        refine List.filter_eq_nil_iff.mpr fun con hmem => ?_
        simp [(hall con hmem).normal]
      rw [hcalls, hnone]
      exact .refl _
    · rw [hafter, hwalked]
      refine List.forall_mem_map.mpr fun con _ => ?_
      rfl
    · rw [hputs, hput]

end Targets

-- A pod with one container, whose cgroup can be added and put.
def onePod : Pods :=
  [⟨"p".toList, ⟨"p".toList, [], [⟨"c".toList, ⟨0, 7, "c".toList, [], [], []⟩⟩]⟩⟩]

def answering : FilterEnv where
  getContainerCpucgInode _ := (0, 7)
  cgrpAdd _ := 0
  cgrpPut _ := 0

theorem onePod_not_filtered :
    ¬∀ target pods envs env, envs ≠ [] → FilteredOnce target pods envs env := by
  intro h
  have hflagged := (h (.pod "p".toList) onePod [answering] answering (by simp)).flagged
  have hnormal := hflagged ⟨"c".toList, ⟨0, 7, "c".toList, [], [], []⟩⟩ (by decide)
  exact absurd hnormal (by decide)

end Gopher.Probe.PodMng
