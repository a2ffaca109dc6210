import Gopher.Lib.HashTable
import Gopher.Probe.Snooper

namespace Gopher.Probe.PodMng

open Gopher.Lib

def FAKE_POD_ID : Text := "-no-pod".toList
def CONTAINER_NAME_LEN : ℕ := 64
def PATH_LEN : ℕ := 256

inductive IdRet
  | failed
  | conPod
  | conOnly
  | podOnly
  deriving DecidableEq, Repr

structure ConInfo where
  flags : UInt32
  cpucgInode : UInt32
  conId : Text
  containerName : Text
  libcPath : Text
  libsslPath : Text
  deriving DecidableEq, Repr

-- `struct containers_hash_t`: the key and the value.
structure Container where
  conId : Text
  conInfo : ConInfo
  deriving DecidableEq, Repr

structure PodInfo where
  podId : Text
  podIpStr : Text
  conHead : List Container
  deriving DecidableEq, Repr

-- `struct pods_hash_t`
structure Pod where
  podId : Text
  podInfo : PodInfo
  deriving DecidableEq, Repr

-- The hash table behind `pod_head`.
abbrev Pods := List Pod

-- What the system answers during a call: memory for a pod and for a container, and
-- what is found out about a container. Where nothing is found the answer is zero.
structure Env where
  podMalloc : Bool
  conMalloc : Bool
  getContainerCpucgInode : Text → UInt32
  getContainerName : Text → Text
  getElfPathByConId : Text → Text → Text
  getPodIp : Text → Text
  listContainersByPodId : Text → Option (List Text)

def findPod (pods : Pods) (podId : Text) : Option Pod := HashTable.find Pod.podId pods podId

def findCon (cons : List Container) (conId : Text) : Option Container :=
  HashTable.find Container.conId cons conId

def getPodInfoFromPodId (pods : Pods) (podId : Text) : Option PodInfo :=
  if podId = [] then none else (findPod pods podId).map Pod.podInfo

-- The information of a container together with what its `pod_info_ptr` points to.
def getConInfo (pods : Pods) (podId conId : Text) : Option (PodInfo × ConInfo) :=
  match getPodInfoFromPodId pods podId with
  | none => none
  | some podInfo => (findCon podInfo.conHead conId).map fun con => (podInfo, con.conInfo)

def newContainer (conId : Text) : Container where
  conId := truncated (CONTAINER_ABBR_ID_LEN + 1) conId
  conInfo := ⟨0, 0, [], [], [], []⟩

def addConHash (env : Env) (conHead : List Container) (conId : Text) : Option (List Container) :=
  if env.conMalloc then some (newContainer conId :: conHead) else none

def setConInfo (env : Env) (conId : Text) (con : Container) : Container :=
  { con with conInfo := { con.conInfo with
      conId := if con.conInfo.conId = [] then truncated (CONTAINER_ABBR_ID_LEN + 1) conId
        else con.conInfo.conId
      cpucgInode := env.getContainerCpucgInode conId
      containerName := truncated CONTAINER_NAME_LEN (env.getContainerName conId)
      libcPath := truncated PATH_LEN (env.getElfPathByConId conId "libc.so".toList)
      libsslPath := truncated PATH_LEN (env.getElfPathByConId conId "libssl".toList) } }

-- The new entry is looked up again under the whole id.
def addOneCon (env : Env) (conId : Text) (podInfo : PodInfo) : PodInfo :=
  if conId = [] then podInfo
  else match addConHash env podInfo.conHead conId with
    | none => podInfo
    | some conHead =>
        { podInfo with
          conHead := HashTable.modify Container.conId (setConInfo env conId) conHead conId }

def delOneCon (conId : Text) (podInfo : PodInfo) : PodInfo :=
  { podInfo with conHead := HashTable.del Container.conId podInfo.conHead conId }

def newPod (podId : Text) : Pod where
  podId := truncated (POD_ID_LEN + 1) podId
  podInfo := ⟨[], [], []⟩

def addPodHash (env : Env) (pods : Pods) (podId : Text) : Option Pods :=
  if env.podMalloc then some (newPod podId :: pods) else none

def setPodInfo (env : Env) (podId conId : Text) (podInfo : PodInfo) : PodInfo :=
  { podInfo with
    podId := if podInfo.podId = [] then truncated (POD_ID_LEN + 1) podId else podInfo.podId
    podIpStr := if podInfo.podIpStr = [] then env.getPodIp conId else podInfo.podIpStr }

def changeInfo (change : PodInfo → PodInfo) (pod : Pod) : Pod :=
  { pod with podInfo := change pod.podInfo }

-- A write through the pointer to the pod that is found.
def changePod (change : PodInfo → PodInfo) (pods : Pods) (podId : Text) : Pods :=
  HashTable.modify Pod.podId (changeInfo change) pods podId

-- The pods after the call, and whether a pod is returned.
def addOnePod (env : Env) (pods : Pods) (podId conId : Text) (idRet : IdRet) : Pods × Bool :=
  if podId = [] then (pods, false)
  else
    let pods' := if (findPod pods podId).isSome then some pods else addPodHash env pods podId
    match pods' with
    | none => (pods, false)
    | some pods =>
        if (findPod pods podId).isNone then (pods, false)
        else if conId ≠ [] ∧ idRet ≠ .conOnly then
          (changePod (setPodInfo env podId conId) pods podId, true)
        else (pods, true)

def delOnePod (pods : Pods) (podId : Text) : Pods := HashTable.del Pod.podId pods podId

def addPodConMap (env : Env) (pods : Pods) (podId conId : Text) (idRet : IdRet) : Pods :=
  match addOnePod env pods podId conId idRet with
  | (pods, false) => pods
  | (pods, true) =>
      if idRet = .conPod ∨ idRet = .conOnly then changePod (addOneCon env conId) pods podId
      else pods

def delPodConMap (pods : Pods) (podId conId : Text) (idRet : IdRet) : Pods :=
  if idRet = .podOnly then delOnePod pods podId
  else if idRet = .conPod ∨ idRet = .conOnly then changePod (delOneCon conId) pods podId
  else pods

def getAndAddConInfo (env : Env) (pods : Pods) (podId containerId : Text) :
    Pods × Option (PodInfo × ConInfo) :=
  let conId := truncated (CONTAINER_ABBR_ID_LEN + 1) containerId
  match getConInfo pods podId conId with
  | some conInfo => (pods, some conInfo)
  | none =>
      let pods := addPodConMap env pods podId conId .conOnly
      (pods, getConInfo pods podId conId)

-- The pods that run already are filled in when they are asked for.
def existingPodMkProcess (env : Env) (pods : Pods) (podId : Text) : Pods :=
  match env.listContainersByPodId podId with
  | none => pods
  | some conIds => conIds.foldl (fun pods conId => addPodConMap env pods podId conId .conPod) pods

def getAndAddPodInfo (env : Env) (pods : Pods) (podId : Text) : Pods × Option PodInfo :=
  match getPodInfoFromPodId pods podId with
  | some podInfo => (pods, some podInfo)
  | none =>
      let pods := existingPodMkProcess env pods podId
      (pods, getPodInfoFromPodId pods podId)

inductive PodCall
  | add (env : Env) (podId conId : Text) (idRet : IdRet)
  | del (podId conId : Text) (idRet : IdRet)
  | getAndAdd (env : Env) (podId containerId : Text)

def call (pods : Pods) : PodCall → Pods
  | .add env podId conId idRet => addPodConMap env pods podId conId idRet
  | .del podId conId idRet => delPodConMap pods podId conId idRet
  | .getAndAdd env podId containerId => (getAndAddConInfo env pods podId containerId).1

end Gopher.Probe.PodMng
