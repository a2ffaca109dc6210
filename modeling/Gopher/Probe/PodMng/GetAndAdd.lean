import Gopher.Probe.PodMng.Theorems

namespace Gopher.Probe.PodMng

open Gopher.Lib

section Add

variable {env : Env} {pods other : Pods} {podId conId : Text} {idRet : IdRet}

-- The pod an add finds or creates, and no other, is changed.
theorem findPod_addPodConMap (conId : Text) (idRet : IdRet) (hpodId : podId ≠ [])
    (hfits : podId.length ≤ POD_ID_LEN)
    (hmemory : (findPod pods podId).isSome ∨ env.podMalloc = true) (asked : Text) :
    findPod (addPodConMap env pods podId conId idRet) asked =
      if asked = podId then
        some (changeInfo (addInfo env podId conId idRet) ((findPod pods podId).getD (newPod podId)))
      else findPod pods asked := by
  rw [addPodConMap_fits conId idRet hpodId hfits hmemory, findPod_changePod, withPod]
  split_ifs with hasked hpod hpod
  · obtain ⟨pod, hpod⟩ := Option.isSome_iff_exists.mp hpod
    rw [hpod]
    rfl
  · have hnew : findPod (newPod podId :: pods) podId = some (newPod podId) :=
      HashTable.find_cons_self (newPod_of_fits hfits)
    rw [hnew, Option.not_isSome_iff_eq_none.mp hpod]
    rfl
  · rfl
  · refine HashTable.find_cons_of_ne ?_
    rw [newPod_of_fits hfits]
    exact Ne.symm hasked

-- A pod that cannot be found once it is added.
theorem findPod_addPodConMap_none (hnone : findPod pods podId = none)
    (hrefused : POD_ID_LEN < podId.length ∨ env.podMalloc = false) :
    findPod (addPodConMap env pods podId conId idRet) podId = none := by
  cases hmalloc : env.podMalloc with
  | false => rw [addPodConMap_refused hnone hmalloc, hnone]
  | true =>
      have hlong : POD_ID_LEN < podId.length := hrefused.resolve_right (by simp [hmalloc])
      rw [addPodConMap_clipped hnone hlong, if_pos hmalloc, findPod_clipped hnone hlong]

end Add

section Existing

variable {env : Env} {pods other : Pods} {podId : Text}

theorem findPod_existing_none (hnone : findPod pods podId = none)
    (hrefused : POD_ID_LEN < podId.length ∨ env.podMalloc = false) :
    findPod (existingPodMkProcess env pods podId) podId = none := by
  unfold existingPodMkProcess
  cases env.listContainersByPodId podId with
  | none => exact hnone
  | some conIds =>
      dsimp only
      induction conIds generalizing pods with
      | nil => exact hnone
      | cons conId conIds ih => exact ih (findPod_addPodConMap_none hnone hrefused)

-- The containers of a running pod change that pod alone.
theorem findPod_existing_ne {asked : Text} (hpodId : podId ≠ [])
    (hfits : podId.length ≤ POD_ID_LEN) (hmalloc : env.podMalloc = true) (hasked : asked ≠ podId) :
    findPod (existingPodMkProcess env pods podId) asked = findPod pods asked := by
  unfold existingPodMkProcess
  cases env.listContainersByPodId podId with
  | none => rfl
  | some conIds =>
      dsimp only
      induction conIds generalizing pods with
      | nil => rfl
      | cons conId conIds ih =>
          rw [List.foldl_cons, ih,
            findPod_addPodConMap conId .conPod hpodId hfits (.inr hmalloc), if_neg hasked]

theorem findPod_existing_congr (hpodId : podId ≠ []) (hfits : podId.length ≤ POD_ID_LEN)
    (hmalloc : env.podMalloc = true) (hfind : findPod pods podId = findPod other podId) :
    findPod (existingPodMkProcess env pods podId) podId =
      findPod (existingPodMkProcess env other podId) podId := by
  unfold existingPodMkProcess
  cases env.listContainersByPodId podId with
  | none => exact hfind
  | some conIds =>
      dsimp only
      induction conIds generalizing pods other with
      | nil => exact hfind
      | cons conId conIds ih =>
          refine ih ?_
          rw [findPod_addPodConMap conId .conPod hpodId hfits (.inr hmalloc),
            findPod_addPodConMap conId .conPod hpodId hfits (.inr hmalloc), if_pos rfl, if_pos rfl,
            hfind]

end Existing

section Pod

variable {env : Env} {pods other : Pods} {podId : Text}

theorem getPodInfo_congr (hfind : findPod pods podId = findPod other podId) :
    getPodInfoFromPodId pods podId = getPodInfoFromPodId other podId := by
  unfold getPodInfoFromPodId
  rw [hfind]

theorem getAndAddPodInfo_found {podInfo : PodInfo}
    (hfound : getPodInfoFromPodId pods podId = some podInfo) :
    getAndAddPodInfo env pods podId = (pods, some podInfo) := by
  unfold getAndAddPodInfo
  rw [hfound]

theorem getAndAddPodInfo_new (hnone : getPodInfoFromPodId pods podId = none) :
    getAndAddPodInfo env pods podId = (existingPodMkProcess env pods podId,
      getPodInfoFromPodId (existingPodMkProcess env pods podId) podId) := by
  unfold getAndAddPodInfo
  rw [hnone]

theorem findPod_of_getPodInfo_none (hpodId : podId ≠ [])
    (hnone : getPodInfoFromPodId pods podId = none) : findPod pods podId = none := by
  unfold getPodInfoFromPodId at hnone
  simpa [hpodId] using hnone

-- A pod that is not found yet, but is once it has been asked for.
theorem fits_of_getAndAddPodInfo (hnone : getPodInfoFromPodId pods podId = none)
    (hsome : (getAndAddPodInfo env pods podId).2.isSome) :
    podId ≠ [] ∧ podId.length ≤ POD_ID_LEN ∧ env.podMalloc = true := by
  rw [getAndAddPodInfo_new hnone] at hsome
  have hpodId : podId ≠ [] := by
    rintro rfl
    simp [getPodInfoFromPodId] at hsome
  refine ⟨hpodId, ?_⟩
  by_contra hrefused
  have hfind : findPod (existingPodMkProcess env pods podId) podId = none :=
    findPod_existing_none (findPod_of_getPodInfo_none hpodId hnone)
      (by simpa [-not_and, not_and_or] using hrefused)
  simp [getPodInfoFromPodId, hfind] at hsome

theorem findPod_getAndAddPodInfo_ne {asked : Text}
    (hsome : (getAndAddPodInfo env pods podId).2.isSome) (hasked : asked ≠ podId) :
    findPod (getAndAddPodInfo env pods podId).1 asked = findPod pods asked := by
  cases hfound : getPodInfoFromPodId pods podId with
  | some podInfo => rw [getAndAddPodInfo_found hfound]
  | none =>
      obtain ⟨hpodId, hfits, hmalloc⟩ := fits_of_getAndAddPodInfo hfound hsome
      rw [getAndAddPodInfo_new hfound]
      exact findPod_existing_ne hpodId hfits hmalloc hasked

-- What is found of a pod once is found of it again.
theorem getAndAddPodInfo_again (hsome : (getAndAddPodInfo env pods podId).2.isSome) :
    (getAndAddPodInfo env (getAndAddPodInfo env pods podId).1 podId).2 =
      (getAndAddPodInfo env pods podId).2 := by
  cases hfound : getPodInfoFromPodId pods podId with
  | some podInfo => rw [getAndAddPodInfo_found hfound, getAndAddPodInfo_found hfound]
  | none =>
      rw [getAndAddPodInfo_new hfound] at hsome ⊢
      obtain ⟨podInfo, hpodInfo⟩ := Option.isSome_iff_exists.mp hsome
      dsimp only at hpodInfo ⊢
      rw [getAndAddPodInfo_found hpodInfo, hpodInfo]

-- Only the pod itself decides what is found of it.
theorem getAndAddPodInfo_congr (hfind : findPod pods podId = findPod other podId) :
    (getAndAddPodInfo env pods podId).2 = (getAndAddPodInfo env other podId).2 := by
  have hinfo := getPodInfo_congr hfind
  cases hfound : getPodInfoFromPodId pods podId with
  | some podInfo =>
      rw [getAndAddPodInfo_found hfound, getAndAddPodInfo_found (hinfo ▸ hfound)]
  | none =>
      have hother : getPodInfoFromPodId other podId = none := hinfo ▸ hfound
      by_cases hsome : (getAndAddPodInfo env pods podId).2.isSome ∨
          (getAndAddPodInfo env other podId).2.isSome
      · obtain ⟨hpodId, hfits, hmalloc⟩ := hsome.elim (fits_of_getAndAddPodInfo hfound)
          (fits_of_getAndAddPodInfo hother)
        rw [getAndAddPodInfo_new hfound, getAndAddPodInfo_new hother]
        exact getPodInfo_congr (findPod_existing_congr hpodId hfits hmalloc hfind)
      · rw [not_or, Option.not_isSome_iff_eq_none, Option.not_isSome_iff_eq_none] at hsome
        rw [hsome.1, hsome.2]

end Pod

section Con

variable {env : Env} {pods : Pods} {conId : Text}

-- What the fake pod holds, or would hold if it were created.
def fakeInfo (pods : Pods) : PodInfo :=
  ((findPod pods FAKE_POD_ID).getD (newPod FAKE_POD_ID)).podInfo

def startedCon (env : Env) (conId : Text) : Container := setConInfo env conId (newContainer conId)

-- There is memory for a container of the fake pod.
def CanAddCon (env : Env) (pods : Pods) : Prop :=
  env.conMalloc = true ∧ ((findPod pods FAKE_POD_ID).isSome ∨ env.podMalloc = true)

theorem startedCon_conId (hfits : conId.length ≤ CONTAINER_ABBR_ID_LEN) :
    (startedCon env conId).conId = conId :=
  truncated_conId hfits

theorem getConInfo_fake (pods : Pods) (conId : Text) :
    getConInfo pods FAKE_POD_ID conId =
      (findCon (fakeInfo pods).conHead conId).map fun con => (fakeInfo pods, con.conInfo) := by
  unfold getConInfo getPodInfoFromPodId fakeInfo
  rw [if_neg (by decide)]
  cases findPod pods FAKE_POD_ID with
  | none => rfl
  | some pod => rfl

theorem addOneCon_eq (hconId : conId ≠ []) (hfits : conId.length ≤ CONTAINER_ABBR_ID_LEN)
    (hmalloc : env.conMalloc = true) (podInfo : PodInfo) :
    addOneCon env conId podInfo =
      { podInfo with conHead := startedCon env conId :: podInfo.conHead } := by
  have hkey : (newContainer conId).conId = conId := truncated_conId hfits
  unfold addOneCon addConHash
  simp only [if_neg hconId, if_pos hmalloc, HashTable.modify, if_pos hkey]
  rfl

theorem findPod_addCon (hcan : CanAddCon env pods) (hconId : conId ≠ [])
    (hfits : conId.length ≤ CONTAINER_ABBR_ID_LEN) (asked : Text) :
    findPod (addPodConMap env pods FAKE_POD_ID conId .conOnly) asked =
      if asked = FAKE_POD_ID then
        some (changeInfo
          (fun podInfo => { podInfo with conHead := startedCon env conId :: podInfo.conHead })
          ((findPod pods FAKE_POD_ID).getD (newPod FAKE_POD_ID)))
      else findPod pods asked := by
  have hadd : addInfo env FAKE_POD_ID conId .conOnly =
      fun podInfo => { podInfo with conHead := startedCon env conId :: podInfo.conHead } := by
    funext podInfo
    rw [← addOneCon_eq hconId hfits hcan.1]
    simp [addInfo]
  rw [findPod_addPodConMap conId .conOnly (by decide) (by decide) hcan.2, hadd]

theorem fakeInfo_addCon (hcan : CanAddCon env pods) (hconId : conId ≠ [])
    (hfits : conId.length ≤ CONTAINER_ABBR_ID_LEN) :
    fakeInfo (addPodConMap env pods FAKE_POD_ID conId .conOnly) =
      { fakeInfo pods with conHead := startedCon env conId :: (fakeInfo pods).conHead } := by
  rw [fakeInfo, findPod_addCon hcan hconId hfits, if_pos rfl]
  rfl

theorem conHead_addCon_refused (hcan : ¬ CanAddCon env pods) :
    (fakeInfo (addPodConMap env pods FAKE_POD_ID conId .conOnly)).conHead =
      (fakeInfo pods).conHead := by
  by_cases hmemory : (findPod pods FAKE_POD_ID).isSome ∨ env.podMalloc = true
  · have hmalloc : env.conMalloc = false := by
      simpa using fun hmalloc => hcan ⟨hmalloc, hmemory⟩
    rw [fakeInfo, findPod_addPodConMap conId .conOnly (by decide) (by decide) hmemory, if_pos rfl]
    simp [addInfo, addOneCon, addConHash, hmalloc, changeInfo, fakeInfo]
  · rw [not_or] at hmemory
    rw [addPodConMap_refused (by simpa using hmemory.1) (by simpa using hmemory.2)]

variable {containerId : Text}

theorem getAndAddConInfo_fake {con : Container}
    (hcon : findCon (fakeInfo pods).conHead (truncated (CONTAINER_ABBR_ID_LEN + 1) containerId) =
      some con) :
    getAndAddConInfo env pods FAKE_POD_ID containerId =
      (pods, some (fakeInfo pods, con.conInfo)) := by
  simp only [getAndAddConInfo, getConInfo_fake, hcon, Option.map_some]

theorem getAndAddConInfo_fake_new
    (hcon : findCon (fakeInfo pods).conHead (truncated (CONTAINER_ABBR_ID_LEN + 1) containerId) =
      none) :
    getAndAddConInfo env pods FAKE_POD_ID containerId =
      let conId := truncated (CONTAINER_ABBR_ID_LEN + 1) containerId
      let pods := addPodConMap env pods FAKE_POD_ID conId .conOnly
      (pods, (findCon (fakeInfo pods).conHead conId).map fun con =>
        (fakeInfo pods, con.conInfo)) := by
  simp only [getAndAddConInfo, getConInfo_fake, hcon, Option.map_none]

-- The container a container id stands for, started if need be.
def conFor (env : Env) (pods : Pods) (conId : Text) : Container :=
  (findCon (fakeInfo pods).conHead conId).getD (startedCon env conId)

-- The container is there, is started, or cannot be.
inductive ConAnswer (env : Env) (pods : Pods) (conId : Text) :
    Pods × Option (PodInfo × ConInfo) → Prop
  | found {con : Container} (hcon : findCon (fakeInfo pods).conHead conId = some con) :
      ConAnswer env pods conId (pods, some (fakeInfo pods, con.conInfo))
  | started (hcon : findCon (fakeInfo pods).conHead conId = none) (hcan : CanAddCon env pods) :
      ConAnswer env pods conId (addPodConMap env pods FAKE_POD_ID conId .conOnly,
        some ({ fakeInfo pods with conHead := startedCon env conId :: (fakeInfo pods).conHead },
          (startedCon env conId).conInfo))
  | refused {pods' : Pods} (hcon : findCon (fakeInfo pods).conHead conId = none)
      (hcan : ¬ CanAddCon env pods) : ConAnswer env pods conId (pods', none)

theorem getAndAddConInfo_answer (env : Env) (pods : Pods) (hne : containerId ≠ []) :
    ConAnswer env pods (truncated (CONTAINER_ABBR_ID_LEN + 1) containerId)
      (getAndAddConInfo env pods FAKE_POD_ID containerId) := by
  have hfits := length_truncated_le (CONTAINER_ABBR_ID_LEN + 1) containerId
  cases hcon : findCon (fakeInfo pods).conHead
      (truncated (CONTAINER_ABBR_ID_LEN + 1) containerId) with
  | some con =>
      rw [getAndAddConInfo_fake hcon]
      exact .found hcon
  | none =>
      rw [getAndAddConInfo_fake_new hcon]
      dsimp only
      by_cases hcan : CanAddCon env pods
      · have hfind : findCon (startedCon env (truncated (CONTAINER_ABBR_ID_LEN + 1) containerId) ::
            (fakeInfo pods).conHead) (truncated (CONTAINER_ABBR_ID_LEN + 1) containerId) =
            some (startedCon env (truncated (CONTAINER_ABBR_ID_LEN + 1) containerId)) :=
          HashTable.find_cons_self (startedCon_conId hfits)
        rw [fakeInfo_addCon hcan (mt truncated_eq_nil.mp hne) hfits, hfind]
        exact .started hcon hcan
      · rw [conHead_addCon_refused hcan, hcon]
        exact .refused hcon hcan

end Con

-- The system lists no container of the fake pod.
theorem getAndAddPodInfo_fake {env : Env} (pods : Pods)
    (hlist : env.listContainersByPodId FAKE_POD_ID = none) :
    getAndAddPodInfo env pods FAKE_POD_ID =
      (pods, if (findPod pods FAKE_POD_ID).isSome then some (fakeInfo pods) else none) := by
  have hinfo : getPodInfoFromPodId pods FAKE_POD_ID =
      if (findPod pods FAKE_POD_ID).isSome then some (fakeInfo pods) else none := by
    unfold getPodInfoFromPodId fakeInfo
    rw [if_neg (by decide)]
    cases findPod pods FAKE_POD_ID with
    | none => rfl
    | some pod => rfl
  cases hfound : getPodInfoFromPodId pods FAKE_POD_ID with
  | some podInfo => rw [getAndAddPodInfo_found hfound, ← hinfo, hfound]
  | none =>
      have hexisting : existingPodMkProcess env pods FAKE_POD_ID = pods := by
        unfold existingPodMkProcess
        rw [hlist]
      rw [getAndAddPodInfo_new hfound, hexisting, ← hinfo]

section Grown

-- The table after some lookups: the fake pod has new containers in front, and of the
-- other pods the same is found.
structure Grown (env : Env) (before now : Pods) (conIds : List Text) : Prop where
  others : ∀ podId ≠ FAKE_POD_ID,
    (getAndAddPodInfo env now podId).2 = (getAndAddPodInfo env before podId).2
  created : (findPod now FAKE_POD_ID).isSome ↔
    (findPod before FAKE_POD_ID).isSome ∨ conIds ≠ []
  grown : fakeInfo now = { fakeInfo before with
    conHead := conIds.map (startedCon env) ++ (fakeInfo before).conHead }
  new : ∀ conId ∈ conIds, conId.length ≤ CONTAINER_ABBR_ID_LEN ∧
    findCon (fakeInfo before).conHead conId = none

variable {env : Env} {before now : Pods} {conIds : List Text} {podId conId : Text}

theorem Grown.refl (env : Env) (pods : Pods) : Grown env pods pods [] := by
  refine ⟨fun _ _ => rfl, by simp, rfl, ?_⟩
  intro conId hconId
  cases hconId

theorem findCon_started (hfits : ∀ conId ∈ conIds, conId.length ≤ CONTAINER_ABBR_ID_LEN)
    (cons : List Container) :
    findCon (conIds.map (startedCon env) ++ cons) conId =
      if conId ∈ conIds then some (startedCon env conId) else findCon cons conId := by
  induction conIds with
  | nil => rfl
  | cons first conIds ih =>
      obtain ⟨hfirst, hrest⟩ := List.forall_mem_cons.mp hfits
      have hkey : (startedCon env first).conId = first := startedCon_conId hfirst
      rw [List.map_cons, List.cons_append]
      by_cases heq : first = conId
      · subst heq
        rw [if_pos List.mem_cons_self]
        exact HashTable.find_cons_self hkey
      · have hfind : findCon (startedCon env first :: (conIds.map (startedCon env) ++ cons)) conId =
            findCon (conIds.map (startedCon env) ++ cons) conId :=
          HashTable.find_cons_of_ne (by rwa [hkey])
        rw [hfind, ih hrest]
        simp [Ne.symm heq]

theorem Grown.findCon (h : Grown env before now conIds) (conId : Text) :
    findCon (fakeInfo now).conHead conId =
      if conId ∈ conIds then some (startedCon env conId)
      else PodMng.findCon (fakeInfo before).conHead conId := by
  rw [h.grown]
  exact findCon_started (fun conId hconId => (h.new conId hconId).1) _

-- A container id stands for the same container throughout.
theorem Grown.conFor (h : Grown env before now conIds) (conId : Text) :
    conFor env now conId = PodMng.conFor env before conId := by
  unfold PodMng.conFor
  rw [h.findCon]
  split_ifs with hmem
  · rw [(h.new conId hmem).2]
    rfl
  · rfl

theorem Grown.canAddCon (h : Grown env before now conIds) (hcan : CanAddCon env before) :
    CanAddCon env now :=
  ⟨hcan.1, hcan.2.imp_left fun hfake => h.created.mpr (.inl hfake)⟩

-- Another pod is looked up.
theorem Grown.lookup (h : Grown env before now conIds) (hpodId : podId ≠ FAKE_POD_ID)
    (hsome : (getAndAddPodInfo env now podId).2.isSome) :
    Grown env before (getAndAddPodInfo env now podId).1 conIds := by
  have hfake := findPod_getAndAddPodInfo_ne hsome (Ne.symm hpodId)
  refine ⟨fun other hother => ?_, by rw [hfake, h.created], ?_, h.new⟩
  · rw [← h.others other hother]
    by_cases hsame : other = podId
    · subst hsame
      exact getAndAddPodInfo_again hsome
    · exact getAndAddPodInfo_congr (findPod_getAndAddPodInfo_ne hsome hsame)
  · rw [fakeInfo, hfake]
    exact h.grown

-- A container is started.
theorem Grown.addCon (h : Grown env before now conIds) (hconId : conId ≠ [])
    (hfits : conId.length ≤ CONTAINER_ABBR_ID_LEN)
    (hnew : PodMng.findCon (fakeInfo now).conHead conId = none) (hcan : CanAddCon env now) :
    Grown env before (addPodConMap env now FAKE_POD_ID conId .conOnly) (conId :: conIds) := by
  refine ⟨fun other hother => ?_, ?_, ?_, ?_⟩
  · rw [← h.others other hother]
    refine getAndAddPodInfo_congr ?_
    rw [findPod_addCon hcan hconId hfits, if_neg hother]
  · rw [findPod_addCon hcan hconId hfits, if_pos rfl]
    simp
  · rw [fakeInfo_addCon hcan hconId hfits, h.grown]
    rfl
  · refine List.forall_mem_cons.mpr ⟨⟨hfits, ?_⟩, h.new⟩
    rw [h.findCon] at hnew
    split_ifs at hnew
    exact hnew

end Grown

end Gopher.Probe.PodMng
