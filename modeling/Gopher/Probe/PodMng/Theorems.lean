import Gopher.Lib.Run
import Gopher.Probe.PodMng
import Mathlib.Tactic.Tauto

namespace Gopher.Probe.PodMng

open Gopher.Lib

def IdRet.isCon (idRet : IdRet) : Bool := idRet = .conPod || idRet = .conOnly

def PodInfo.conIds (podInfo : PodInfo) : List Text := podInfo.conHead.map Container.conId

-- The containers added and not deleted since, by the ids the calls name. The lookup
-- that adds cuts the id it is given.
def PodCall.track (call : PodCall) (added : Text → Text → Prop) (podId conId : Text) : Prop :=
  match call with
  | .add _ pod con idRet => added podId conId ∨
      idRet.isCon ∧ pod ≠ [] ∧ con ≠ [] ∧ podId = pod ∧ conId = con
  | .del pod con idRet => added podId conId ∧ ¬(idRet = .podOnly ∧ podId = pod) ∧
      ¬(idRet.isCon ∧ podId = pod ∧ conId = con)
  | .getAndAdd _ pod con => added podId conId ∨ pod ≠ [] ∧ con ≠ [] ∧ podId = pod ∧
      conId = truncated (CONTAINER_ABBR_ID_LEN + 1) con

def Added (calls : List PodCall) : Text → Text → Prop :=
  calls.foldl (fun added call => call.track added) fun _ _ => False

theorem added_concat (calls : List PodCall) (call : PodCall) :
    Added (calls ++ [call]) = call.track (Added calls) := by
  simp [Added, List.foldl_append]

-- The table agrees with the calls: no id twice in a pod, found is what is added, and
-- nothing is found of a container that was just deleted.
structure Consistent (calls : List PodCall) (pods : Pods) : Prop where
  unique : ∀ pod ∈ pods, pod.podInfo.conIds.Nodup
  found : ∀ podId conId, (getConInfo pods podId conId).isSome ↔ Added calls podId conId
  deleted : ∀ earlier podId conId idRet, calls = earlier ++ [.del podId conId idRet] →
    idRet.isCon → getConInfo pods podId conId = none

section Tracks

structure Pod.WellFormed (pod : Pod) : Prop where
  key : pod.podId ≠ [] ∧ pod.podId.length ≤ POD_ID_LEN
  conKeys : ∀ conId ∈ pod.podInfo.conIds, conId ≠ [] ∧ conId.length ≤ CONTAINER_ABBR_ID_LEN
  unique : pod.podInfo.conIds.Nodup

-- Pods may be there twice, but what an older one holds could not be found.
structure Tracks (added : Text → Text → Prop) (pods : Pods) : Prop where
  wellFormed : ∀ pod ∈ pods, pod.WellFormed
  hidden : pods.Pairwise fun newer older =>
    newer.podId = older.podId → older.podInfo.conHead = []
  found : ∀ podId conId,
    (∃ pod, findPod pods podId = some pod ∧ conId ∈ pod.podInfo.conIds) ↔ added podId conId

variable {added : Text → Text → Prop} {pods : Pods} {podId conId : Text}

theorem mem_conIds {podInfo : PodInfo} :
    (findCon podInfo.conHead conId).isSome ↔ conId ∈ podInfo.conIds := by
  unfold findCon PodInfo.conIds
  rw [HashTable.find_isSome, List.mem_map]

theorem getConInfo_isSome (hpodId : podId ≠ []) :
    (getConInfo pods podId conId).isSome ↔
      ∃ pod, findPod pods podId = some pod ∧ conId ∈ pod.podInfo.conIds := by
  unfold getConInfo getPodInfoFromPodId
  cases hpod : findPod pods podId with
  | none => simp [hpodId]
  | some pod => simp [hpodId, ← mem_conIds]

theorem findPod_nil (hpods : ∀ pod ∈ pods, pod.WellFormed) : findPod pods [] = none :=
  HashTable.find_eq_none.mpr fun pod hpod => (hpods pod hpod).key.1

theorem Tracks.isSome_iff (h : Tracks added pods) :
    (getConInfo pods podId conId).isSome ↔ added podId conId := by
  by_cases hpodId : podId = []
  · rw [← h.found, hpodId, findPod_nil h.wellFormed]
    simp [getConInfo, getPodInfoFromPodId]
  · exact (getConInfo_isSome hpodId).trans (h.found podId conId)

theorem findPod_changePod (change : PodInfo → PodInfo) (pods : Pods) (podId other : Text) :
    findPod (changePod change pods podId) other =
      if other = podId then (findPod pods podId).map (changeInfo change)
      else findPod pods other :=
  HashTable.find_modify fun _ => rfl

theorem changePod_id : changePod id pods podId = pods := HashTable.modify_id

theorem changePod_changePod (first second : PodInfo → PodInfo) :
    changePod second (changePod first pods podId) podId =
      changePod (fun podInfo => second (first podInfo)) pods podId :=
  HashTable.modify_modify fun _ => rfl

-- A pod whose containers change, and no other.
theorem Tracks.change (h : Tracks added pods) {pod : Pod} (hpod : findPod pods podId = some pod)
    {change : PodInfo → PodInfo} (hpodOk : (changeInfo change pod).WellFormed)
    {tracked : Text → Text → Prop}
    (htracked : ∀ other conId, tracked other conId ↔
      if other = podId then conId ∈ (change pod.podInfo).conIds else added other conId) :
    Tracks tracked (changePod change pods podId) := by
  refine ⟨HashTable.forall_modify (fun entry hfind _ => ?_) h.wellFormed,
    HashTable.pairwise_modify (fun _ => rfl) h.hidden, fun other conId => ?_⟩
  · obtain rfl : entry = pod := Option.some.inj (hfind.symm.trans hpod)
    exact hpodOk
  · rw [findPod_changePod, htracked]
    split_ifs with heq
    · simp [hpod, changeInfo]
    · exact h.found other conId

theorem Tracks.congr (h : Tracks added pods) {tracked : Text → Text → Prop}
    (htracked : ∀ podId conId, tracked podId conId ↔ added podId conId) :
    Tracks tracked pods :=
  ⟨h.wellFormed, h.hidden, fun podId conId => (h.found podId conId).trans (htracked _ _).symm⟩

theorem wellFormed_newPod (hpodId : podId ≠ []) : (newPod podId).WellFormed := by
  refine ⟨⟨?_, ?_⟩, by simp [newPod, PodInfo.conIds], by simp [newPod, PodInfo.conIds]⟩
  · simpa [newPod, truncated, POD_ID_LEN] using hpodId
  · simp only [newPod, truncated, List.length_take]
    omega

-- A new pod may hide one of its name that has nothing to be found.
theorem Tracks.pushPod (h : Tracks added pods) (hpodId : podId ≠ [])
    (hnone : ∀ conId, ¬added (newPod podId).podId conId) :
    Tracks added (newPod podId :: pods) := by
  refine ⟨List.forall_mem_cons.mpr ⟨wellFormed_newPod hpodId, h.wellFormed⟩,
    List.pairwise_cons.mpr ⟨fun older holder hsame => ?_, h.hidden⟩, fun other conId => ?_⟩
  · rcases HashTable.find_or_of_mem (·.podInfo.conHead = []) h.hidden holder with hfind | hempty
    · have hconIds : older.podInfo.conIds = [] := by
        rw [List.eq_nil_iff_forall_not_mem]
        intro conId hconId
        refine hnone conId ?_
        rw [hsame]
        exact (h.found _ conId).mp ⟨older, hfind, hconId⟩
      exact List.map_eq_nil_iff.mp hconIds
    · exact hempty
  · by_cases heq : (newPod podId).podId = other
    · have hfind : findPod (newPod podId :: pods) other = some (newPod podId) :=
        HashTable.find_cons_self heq
      rw [hfind]
      have hnot := hnone conId
      rw [heq] at hnot
      simpa [newPod, PodInfo.conIds] using hnot
    · have hfind : findPod (newPod podId :: pods) other = findPod pods other :=
        HashTable.find_cons_of_ne heq
      rw [hfind]
      exact h.found other conId

theorem Tracks.del (h : Tracks added pods) (podId : Text) {tracked : Text → Text → Prop}
    (htracked : ∀ other conId, tracked other conId ↔ added other conId ∧ other ≠ podId) :
    Tracks tracked (delOnePod pods podId) := by
  refine ⟨fun pod hpod => h.wellFormed pod (HashTable.del_sublist.mem hpod),
    h.hidden.sublist HashTable.del_sublist, fun other conId => ?_⟩
  rw [htracked]
  by_cases heq : other = podId
  · subst heq
    simp only [ne_eq, not_true_eq_false, and_false, iff_false, not_exists, not_and]
    intro pod hpod hconId
    have hempty := HashTable.of_find_del (·.podInfo.conHead = []) h.hidden hpod
    simp [PodInfo.conIds, hempty] at hconId
  · have hfind : findPod (delOnePod pods podId) other = findPod pods other :=
      HashTable.find_del_of_ne heq
    rw [hfind, h.found]
    simp [heq]

end Tracks

section Add

variable {added : Text → Text → Prop} {pods : Pods} {env : Env} {podId conId : Text} {idRet : IdRet}

-- What `add_pod_con_map` does to the information of the pod it finds or creates.
def addInfo (env : Env) (podId conId : Text) (idRet : IdRet) (podInfo : PodInfo) : PodInfo :=
  let podInfo := if conId ≠ [] ∧ idRet ≠ .conOnly then setPodInfo env podId conId podInfo
    else podInfo
  if idRet = .conPod ∨ idRet = .conOnly then addOneCon env conId podInfo else podInfo

theorem conIds_addOneCon (podInfo : PodInfo) :
    (addOneCon env conId podInfo).conIds =
      if conId ≠ [] ∧ env.conMalloc then
        truncated (CONTAINER_ABBR_ID_LEN + 1) conId :: podInfo.conIds
      else podInfo.conIds := by
  unfold addOneCon addConHash PodInfo.conIds
  by_cases hempty : conId = []
  · simp [hempty]
  · cases hmalloc : env.conMalloc with
    | false => simp [hempty]
    | true =>
        have hkeys : (HashTable.modify Container.conId (setConInfo env conId)
            (newContainer conId :: podInfo.conHead) conId).map Container.conId =
            (newContainer conId :: podInfo.conHead).map Container.conId :=
          HashTable.map_key_modify fun _ => rfl
        simp only [hempty, if_false, if_true, ne_eq, not_false_eq_true, and_self, hkeys]
        rfl

theorem conIds_addInfo (env : Env) (podId conId : Text) (idRet : IdRet) (podInfo : PodInfo) :
    (addInfo env podId conId idRet podInfo).conIds =
      if idRet.isCon ∧ conId ≠ [] ∧ env.conMalloc then
        truncated (CONTAINER_ABBR_ID_LEN + 1) conId :: podInfo.conIds
      else podInfo.conIds := by
  have hset : (if conId ≠ [] ∧ idRet ≠ .conOnly then setPodInfo env podId conId podInfo
      else podInfo).conIds = podInfo.conIds := by
    split_ifs <;> rfl
  have hcon : idRet.isCon = true ↔ idRet = .conPod ∨ idRet = .conOnly := by simp [IdRet.isCon]
  unfold addInfo
  by_cases hidRet : idRet = .conPod ∨ idRet = .conOnly
  · simp only [if_pos hidRet, conIds_addOneCon, hset, hcon.mpr hidRet, true_and]
  · have hnot : ¬(idRet.isCon = true ∧ conId ≠ [] ∧ env.conMalloc = true) :=
      fun h => hidRet (hcon.mp h.1)
    simp only [if_neg hidRet, if_neg hnot, hset]

theorem truncated_conId (hfits : conId.length ≤ CONTAINER_ABBR_ID_LEN) :
    truncated (CONTAINER_ABBR_ID_LEN + 1) conId = conId :=
  List.take_of_length_le hfits

-- The table with the pod in it.
def withPod (pods : Pods) (podId : Text) : Pods :=
  if (findPod pods podId).isSome then pods else newPod podId :: pods

theorem newPod_of_fits (hfits : podId.length ≤ POD_ID_LEN) : (newPod podId).podId = podId :=
  List.take_of_length_le hfits

theorem findPod_withPod (pods : Pods) (hfits : podId.length ≤ POD_ID_LEN) :
    (findPod (withPod pods podId) podId).isSome := by
  unfold withPod
  split_ifs with hpod
  · exact hpod
  · have hfind : findPod (newPod podId :: pods) podId = some (newPod podId) :=
      HashTable.find_cons_self (newPod_of_fits hfits)
    rw [hfind]
    rfl

theorem addPodConMap_fits (conId : Text) (idRet : IdRet) (hpodId : podId ≠ [])
    (hfits : podId.length ≤ POD_ID_LEN)
    (hmemory : (findPod pods podId).isSome ∨ env.podMalloc = true) :
    addPodConMap env pods podId conId idRet =
      changePod (addInfo env podId conId idRet) (withPod pods podId) podId := by
  have hbase : (if (findPod pods podId).isSome then some pods else addPodHash env pods podId) =
      some (withPod pods podId) := by
    unfold withPod addPodHash
    split_ifs with hpod hmalloc
    · rfl
    · rfl
    · exact absurd (hmemory.resolve_left hpod) hmalloc
  obtain ⟨pod, hpod⟩ := Option.isSome_iff_exists.mp (findPod_withPod pods hfits)
  show _ = changePod (fun podInfo => addInfo env podId conId idRet podInfo) _ _
  unfold addPodConMap addOnePod
  simp only [if_neg hpodId, hbase, hpod, Option.isNone_some, Bool.false_eq_true, if_false, addInfo]
  by_cases hset : conId ≠ [] ∧ idRet ≠ .conOnly
  · by_cases hidRet : idRet = .conPod ∨ idRet = .conOnly
    · simp only [if_pos hset, if_pos hidRet, changePod_changePod]
    · simp only [if_pos hset, if_neg hidRet]
  · by_cases hidRet : idRet = .conPod ∨ idRet = .conOnly
    · simp only [if_neg hset, if_pos hidRet]
    · simp only [if_neg hset, if_neg hidRet]
      exact changePod_id.symm

-- Without memory for the pod nothing changes, and a name that does not fit adds a pod
-- that is not found under it.
theorem addPodConMap_refused (hnone : findPod pods podId = none) (hmalloc : env.podMalloc = false) :
    addPodConMap env pods podId conId idRet = pods := by
  unfold addPodConMap addOnePod addPodHash
  by_cases hpodId : podId = []
  · simp [hpodId]
  · simp [hpodId, hnone, hmalloc]

theorem findPod_long (hpods : ∀ pod ∈ pods, pod.WellFormed) (hlong : POD_ID_LEN < podId.length) :
    findPod pods podId = none :=
  HashTable.find_eq_none.mpr fun pod hpod heq => by
    have hfits := (hpods pod hpod).key.2
    rw [heq] at hfits
    omega

theorem findPod_clipped (hnone : findPod pods podId = none) (hlong : POD_ID_LEN < podId.length) :
    findPod (newPod podId :: pods) podId = none := by
  have hne : (newPod podId).podId ≠ podId := by
    intro heq
    have hlength := congrArg List.length heq
    simp only [newPod, truncated, List.length_take] at hlength
    omega
  exact (HashTable.find_cons_of_ne hne).trans hnone

theorem addPodConMap_clipped (hnone : findPod pods podId = none)
    (hlong : POD_ID_LEN < podId.length) :
    addPodConMap env pods podId conId idRet =
      if env.podMalloc then newPod podId :: pods else pods := by
  have hpodId : podId ≠ [] := by
    rintro rfl
    simp at hlong
  have hnew := findPod_clipped hnone hlong
  unfold addPodConMap addOnePod addPodHash
  cases hmalloc : env.podMalloc with
  | false => simp [hpodId, hnone]
  | true => simp [hpodId, hnone, hnew]

theorem addPodConMap_nil : addPodConMap env pods [] conId idRet = pods := by
  simp [addPodConMap, addOnePod]

-- The adds that keep the table consistent with the calls.
inductive AddKeeps (env : Env) (pods : Pods) (added : Text → Text → Prop) (podId conId : Text)
    (idRet : IdRet) : Prop
  | ignored : podId = [] → AddKeeps env pods added podId conId idRet
  | podOnly : podId.length ≤ POD_ID_LEN → ¬(idRet.isCon ∧ conId ≠ []) →
      AddKeeps env pods added podId conId idRet
  | fresh : podId.length ≤ POD_ID_LEN → conId.length ≤ CONTAINER_ABBR_ID_LEN →
      ¬added podId conId → (findPod pods podId).isSome ∨ env.podMalloc = true →
      env.conMalloc = true → AddKeeps env pods added podId conId idRet
  | refused : added podId conId → env.conMalloc = false → AddKeeps env pods added podId conId idRet
  | clipped : POD_ID_LEN < podId.length → ¬(idRet.isCon ∧ conId ≠ []) →
      (env.podMalloc = true → ∀ other, ¬added (newPod podId).podId other) →
      AddKeeps env pods added podId conId idRet

theorem Tracks.havePod (h : Tracks added pods) (hpodId : podId ≠ [])
    (hfits : podId.length ≤ POD_ID_LEN) : Tracks added (withPod pods podId) := by
  unfold withPod
  split_ifs with hpod
  · exact h
  · refine h.pushPod hpodId fun other hother => ?_
    rw [newPod_of_fits hfits] at hother
    obtain ⟨pod, hfind, -⟩ := (h.found _ _).mpr hother
    rw [hfind] at hpod
    exact hpod rfl

-- What the pod holds after an add that finds or creates it.
theorem Tracks.added_pod (h : Tracks added pods) (conId : Text) (idRet : IdRet) (hpodId : podId ≠ [])
    (hfits : podId.length ≤ POD_ID_LEN)
    (hmemory : (findPod pods podId).isSome ∨ env.podMalloc = true) :
    ∃ pod, findPod (withPod pods podId) podId = some pod ∧ pod.WellFormed ∧
      (∀ other, other ∈ pod.podInfo.conIds ↔ added podId other) ∧
      addPodConMap env pods podId conId idRet =
        changePod (addInfo env podId conId idRet) (withPod pods podId) podId ∧
      findPod (addPodConMap env pods podId conId idRet) podId =
        some (changeInfo (addInfo env podId conId idRet) pod) := by
  obtain ⟨pod, hpod⟩ := Option.isSome_iff_exists.mp (findPod_withPod pods hfits)
  have hbase := h.havePod hpodId hfits
  have hadd := addPodConMap_fits conId idRet hpodId hfits hmemory
  refine ⟨pod, hpod, hbase.wellFormed pod (HashTable.mem_of_find hpod), fun other => ?_, hadd, ?_⟩
  · rw [← hbase.found]
    simp [hpod]
  · rw [hadd, findPod_changePod, if_pos rfl, hpod]
    rfl

theorem Tracks.add_fits (h : Tracks added pods) (hpodId : podId ≠ [])
    (hfits : podId.length ≤ POD_ID_LEN)
    (hmemory : (findPod pods podId).isSome ∨ env.podMalloc = true)
    (hcon : idRet.isCon ∧ conId ≠ [] ∧ env.conMalloc = true →
      conId.length ≤ CONTAINER_ABBR_ID_LEN ∧ ¬added podId conId) :
    Tracks (fun pod con => added pod con ∨
        (idRet.isCon ∧ conId ≠ [] ∧ env.conMalloc = true) ∧ pod = podId ∧ con = conId)
      (addPodConMap env pods podId conId idRet) := by
  obtain ⟨pod, hpod, hwf, hadded, hadd, -⟩ := h.added_pod conId idRet hpodId hfits hmemory
  have hconIds := conIds_addInfo env podId conId idRet pod.podInfo
  rw [hadd]
  refine (h.havePod hpodId hfits).change hpod ?_ fun other con => ?_
  · refine ⟨hwf.key, ?_, ?_⟩
    · show ∀ con ∈ (addInfo env podId conId idRet pod.podInfo).conIds, _
      rw [hconIds]
      split_ifs with hadds
      · have hfit := (hcon hadds).1
        refine List.forall_mem_cons.mpr ⟨?_, hwf.conKeys⟩
        rw [truncated_conId hfit]
        exact ⟨hadds.2.1, hfit⟩
      · exact hwf.conKeys
    · show (addInfo env podId conId idRet pod.podInfo).conIds.Nodup
      rw [hconIds]
      split_ifs with hadds
      · obtain ⟨hfit, hnot⟩ := hcon hadds
        rw [truncated_conId hfit]
        exact List.nodup_cons.mpr ⟨fun hmem => hnot ((hadded conId).mp hmem), hwf.unique⟩
      · exact hwf.unique
  · rw [hconIds]
    by_cases hother : other = podId
    · subst hother
      by_cases hadds : idRet.isCon ∧ conId ≠ [] ∧ env.conMalloc = true
      · rw [if_pos rfl, if_pos hadds, truncated_conId (hcon hadds).1, List.mem_cons, hadded]
        tauto
      · rw [if_pos rfl, if_neg hadds, hadded]
        simp [hadds]
    · simp [hother]

theorem Tracks.add (h : Tracks added pods) (hkeeps : AddKeeps env pods added podId conId idRet) :
    Tracks ((PodCall.add env podId conId idRet).track added)
      (addPodConMap env pods podId conId idRet) := by
  by_cases hpodId : podId = []
  · subst hpodId
    rw [addPodConMap_nil]
    exact h.congr (by simp [PodCall.track])
  cases hkeeps with
  | ignored hnil => exact absurd hnil hpodId
  | podOnly hfits hnot =>
      have htrack : ∀ pod con, (PodCall.add env podId conId idRet).track added pod con ↔
          added pod con := by
        intro pod con
        simp only [PodCall.track, or_iff_left_iff_imp]
        exact fun hadds => absurd ⟨hadds.1, hadds.2.2.1⟩ hnot
      by_cases hmemory : (findPod pods podId).isSome ∨ env.podMalloc = true
      · refine (h.add_fits hpodId hfits hmemory fun hadds => absurd ⟨hadds.1, hadds.2.1⟩ hnot).congr
          fun pod con => (htrack pod con).trans ?_
        rw [iff_comm, or_iff_left_iff_imp]
        exact fun hadds => absurd ⟨hadds.1.1, hadds.1.2.1⟩ hnot
      · obtain ⟨hnone, hmalloc⟩ := not_or.mp hmemory
        rw [addPodConMap_refused (by simpa using hnone) (by simpa using hmalloc)]
        exact h.congr htrack
  | fresh hfits hcon hnot hmemory hmalloc =>
      refine (h.add_fits hpodId hfits hmemory fun _ => ⟨hcon, hnot⟩).congr fun pod con => ?_
      simp [PodCall.track, hpodId, hmalloc, and_assoc]
  | refused hadded hmalloc =>
      obtain ⟨pod, hpod, -⟩ := (h.found podId conId).mpr hadded
      have hfits := (h.wellFormed pod (HashTable.mem_of_find hpod)).key.2
      rw [HashTable.key_of_find hpod] at hfits
      refine (h.add_fits hpodId hfits (.inl (by simp [hpod])) (by simp [hmalloc])).congr
        fun other con => ?_
      simp only [PodCall.track, hmalloc, Bool.false_eq_true, and_false, false_and, or_false,
        or_iff_left_iff_imp]
      rintro ⟨-, -, -, rfl, rfl⟩
      exact hadded
  | clipped hlong hnot hhides =>
      have htrack : ∀ pod con, (PodCall.add env podId conId idRet).track added pod con ↔
          added pod con := by
        intro pod con
        simp only [PodCall.track, or_iff_left_iff_imp]
        exact fun hadds => absurd ⟨hadds.1, hadds.2.2.1⟩ hnot
      rw [addPodConMap_clipped (findPod_long h.wellFormed hlong) hlong]
      split_ifs with hmalloc
      · exact (h.pushPod hpodId (hhides hmalloc)).congr htrack
      · exact h.congr htrack

-- No other add does.
theorem Tracks.addKeeps (h : Tracks added pods)
    (hunique : ∀ pod ∈ addPodConMap env pods podId conId idRet, pod.podInfo.conIds.Nodup)
    (hfound : ∀ pod con, (getConInfo (addPodConMap env pods podId conId idRet) pod con).isSome ↔
      (PodCall.add env podId conId idRet).track added pod con) :
    AddKeeps env pods added podId conId idRet := by
  by_cases hpodId : podId = []
  · exact .ignored hpodId
  have hhere (con : Text) := (getConInfo_isSome hpodId).symm.trans (hfound podId con)
  by_cases hfits : podId.length ≤ POD_ID_LEN
  · by_cases hadds : idRet.isCon ∧ conId ≠ []
    · have htrack : (PodCall.add env podId conId idRet).track added podId conId :=
        .inr ⟨hadds.1, hpodId, hadds.2, rfl, rfl⟩
      have hmemory : (findPod pods podId).isSome ∨ env.podMalloc = true := by
        by_contra hrefused
        obtain ⟨hnone, hmalloc⟩ := not_or.mp hrefused
        obtain ⟨pod, hpod, -⟩ := (hhere conId).mpr htrack
        rw [addPodConMap_refused (by simpa using hnone) (by simpa using hmalloc)] at hpod
        simp [hpod] at hnone
      obtain ⟨pod, hpod, hwf, hadded, hadd, hafter⟩ :=
        h.added_pod conId idRet hpodId hfits hmemory
      obtain ⟨found, hfind, hmem⟩ := (hhere conId).mpr htrack
      obtain rfl := Option.some.inj (hafter.symm.trans hfind)
      have hnodup := hunique _ (HashTable.mem_of_find hafter)
      change conId ∈ (addInfo env podId conId idRet pod.podInfo).conIds at hmem
      change (addInfo env podId conId idRet pod.podInfo).conIds.Nodup at hnodup
      rw [conIds_addInfo] at hmem hnodup
      by_cases hmalloc : env.conMalloc = true
      · rw [if_pos ⟨hadds.1, hadds.2, hmalloc⟩] at hmem hnodup
        have hfit : conId.length ≤ CONTAINER_ABBR_ID_LEN := by
          rcases List.mem_cons.mp hmem with heq | hmem
          · rw [heq]
            exact length_truncated_le _ _
          · exact (hwf.conKeys conId hmem).2
        rw [truncated_conId hfit] at hnodup
        have hnot : ¬added podId conId := fun hadded' =>
          (List.nodup_cons.mp hnodup).1 ((hadded conId).mpr hadded')
        exact .fresh hfits hfit hnot hmemory hmalloc
      · rw [if_neg fun h => hmalloc h.2.2] at hmem
        exact .refused ((hadded conId).mp hmem) (by simpa using hmalloc)
    · exact .podOnly hfits hadds
  · have hlong : POD_ID_LEN < podId.length := Nat.lt_of_not_le hfits
    refine .clipped hlong (fun hadds => ?_) fun hmalloc other hother => ?_
    · obtain ⟨pod, hpod, -⟩ := (hhere conId).mpr (.inr ⟨hadds.1, hpodId, hadds.2, rfl, rfl⟩)
      have hnone := findPod_long h.wellFormed hlong
      rw [addPodConMap_clipped hnone hlong] at hpod
      split_ifs at hpod
      · simp [findPod_clipped hnone hlong] at hpod
      · simp [hnone] at hpod
    · have hsome := (hfound (newPod podId).podId other).mpr (.inl hother)
      rw [addPodConMap_clipped (findPod_long h.wellFormed hlong) hlong, if_pos hmalloc,
        getConInfo_isSome (wellFormed_newPod hpodId).key.1] at hsome
      obtain ⟨pod, hpod, hmem⟩ := hsome
      have hnew : findPod (newPod podId :: pods) (newPod podId).podId = some (newPod podId) :=
        HashTable.find_cons_self rfl
      obtain rfl := Option.some.inj (hnew.symm.trans hpod)
      simp [newPod, PodInfo.conIds] at hmem

end Add

section Call

variable {added : Text → Text → Prop} {pods : Pods}

theorem mem_conIds_delOneCon {podInfo : PodInfo} (hunique : podInfo.conIds.Nodup)
    (conId other : Text) :
    other ∈ (delOneCon conId podInfo).conIds ↔ other ∈ podInfo.conIds ∧ other ≠ conId := by
  have hfind : findCon (delOneCon conId podInfo).conHead other =
      if other = conId then none else findCon podInfo.conHead other := by
    split_ifs with heq
    · rw [heq]
      exact HashTable.find_del_self hunique
    · exact HashTable.find_del_of_ne heq
  rw [← mem_conIds, ← mem_conIds, hfind]
  split_ifs with heq <;> simp [heq]

theorem Tracks.delCall (h : Tracks added pods) (podId conId : Text) (idRet : IdRet) :
    Tracks ((PodCall.del podId conId idRet).track added) (delPodConMap pods podId conId idRet) := by
  unfold delPodConMap
  split_ifs with hpodOnly hcon
  · subst hpodOnly
    refine h.del podId fun other con => ?_
    simp [PodCall.track, IdRet.isCon]
  · have hisCon : idRet.isCon = true := by simpa [IdRet.isCon] using hcon
    cases hpod : findPod pods podId with
    | none =>
        have hsame : changePod (delOneCon conId) pods podId = pods :=
          HashTable.modify_of_find_none hpod
        rw [hsame]
        refine h.congr fun other con => ?_
        simp only [PodCall.track, hpodOnly, hisCon, true_and, false_and, not_false_eq_true,
          and_iff_left_iff_imp]
        rintro hadded ⟨rfl, rfl⟩
        obtain ⟨pod, hfind, -⟩ := (h.found _ _).mpr hadded
        simp [hpod] at hfind
    | some pod =>
        have hwf := h.wellFormed pod (HashTable.mem_of_find hpod)
        have hmem := mem_conIds_delOneCon hwf.unique conId
        refine h.change hpod ⟨hwf.key, fun other hother => ?_, ?_⟩ fun other con => ?_
        · exact hwf.conKeys other ((hmem other).mp hother).1
        · exact HashTable.nodup_del hwf.unique
        · rw [hmem]
          split_ifs with hother
          · subst hother
            have hfound := h.found other con
            simp only [hpod, Option.some.injEq, exists_eq_left'] at hfound
            simp [PodCall.track, hpodOnly, hisCon, hfound]
          · simp [PodCall.track, hpodOnly, hother]
  · refine h.congr fun other con => ?_
    have hisCon : idRet.isCon = false := by simpa [IdRet.isCon] using hcon
    simp [PodCall.track, hpodOnly, hisCon]

-- The calls that keep the table consistent with the calls, before they are made.
def Keeps (calls : List PodCall) (pods : Pods) : PodCall → Prop
  | .add env podId conId idRet => AddKeeps env pods (Added calls) podId conId idRet
  | .del _ _ _ => True
  | .getAndAdd env podId containerId =>
      let conId := truncated (CONTAINER_ABBR_ID_LEN + 1) containerId
      Added calls podId conId ∨ AddKeeps env pods (Added calls) podId conId .conOnly

theorem getAndAddConInfo_found {env : Env} {podId containerId : Text}
    (hfound : (getConInfo pods podId (truncated (CONTAINER_ABBR_ID_LEN + 1) containerId)).isSome) :
    (getAndAddConInfo env pods podId containerId).1 = pods := by
  obtain ⟨conInfo, hconInfo⟩ := Option.isSome_iff_exists.mp hfound
  simp [getAndAddConInfo, hconInfo]

theorem getAndAddConInfo_absent {env : Env} {podId containerId : Text}
    (hfound : getConInfo pods podId (truncated (CONTAINER_ABBR_ID_LEN + 1) containerId) = none) :
    (getAndAddConInfo env pods podId containerId).1 =
      addPodConMap env pods podId (truncated (CONTAINER_ABBR_ID_LEN + 1) containerId) .conOnly := by
  simp [getAndAddConInfo, hfound]

theorem truncated_eq_nil {text : Text} :
    truncated (CONTAINER_ABBR_ID_LEN + 1) text = [] ↔ text = [] := by
  simp [truncated, CONTAINER_ABBR_ID_LEN]

-- The lookup counts as an add of the id it looks for.
theorem track_getAndAdd (env : Env) (podId containerId : Text) :
    (PodCall.getAndAdd env podId containerId).track added =
      (PodCall.add env podId (truncated (CONTAINER_ABBR_ID_LEN + 1) containerId) .conOnly).track
        added := by
  funext pod con
  simp [PodCall.track, IdRet.isCon, truncated_eq_nil]

theorem tracks_call {calls : List PodCall} {pods : Pods} {call : PodCall}
    (h : Tracks (Added calls) pods) (hkeeps : Keeps calls pods call) :
    Tracks (Added (calls ++ [call])) (PodMng.call pods call) := by
  rw [added_concat]
  cases call with
  | add env podId conId idRet => exact h.add hkeeps
  | del podId conId idRet => exact h.delCall podId conId idRet
  | getAndAdd env podId containerId =>
      rw [track_getAndAdd]
      show Tracks _ (getAndAddConInfo env pods podId containerId).1
      cases hfound : getConInfo pods podId (truncated (CONTAINER_ABBR_ID_LEN + 1) containerId) with
      | none =>
          rw [getAndAddConInfo_absent hfound]
          refine h.add (hkeeps.resolve_left fun hadded => ?_)
          simpa [hfound] using h.isSome_iff.mpr hadded
      | some conInfo =>
          have hsome := Option.isSome_iff_exists.mpr ⟨conInfo, hfound⟩
          rw [getAndAddConInfo_found hsome]
          refine h.congr fun pod con => ?_
          simp only [PodCall.track, or_iff_left_iff_imp]
          rintro ⟨-, -, -, rfl, rfl⟩
          exact h.isSome_iff.mp hsome

theorem keeps_of_consistent {calls : List PodCall} {pods : Pods} {call : PodCall}
    (h : Tracks (Added calls) pods)
    (hconsistent : Consistent (calls ++ [call]) (PodMng.call pods call)) :
    Keeps calls pods call := by
  have hfound := hconsistent.found
  have hunique := hconsistent.unique
  rw [added_concat] at hfound
  cases call with
  | add env podId conId idRet => exact h.addKeeps hunique hfound
  | del podId conId idRet => trivial
  | getAndAdd env podId containerId =>
      cases hinfo : getConInfo pods podId (truncated (CONTAINER_ABBR_ID_LEN + 1) containerId) with
      | none =>
          change ∀ pod ∈ (getAndAddConInfo env pods podId containerId).1, _ at hunique
          change ∀ pod con, (getConInfo (getAndAddConInfo env pods podId containerId).1 pod
            con).isSome ↔ _ at hfound
          rw [track_getAndAdd, getAndAddConInfo_absent hinfo] at hfound
          rw [getAndAddConInfo_absent hinfo] at hunique
          exact .inr (h.addKeeps hunique hfound)
      | some conInfo =>
          exact .inl (h.isSome_iff.mp (Option.isSome_iff_exists.mpr ⟨conInfo, hinfo⟩))

theorem consistent_of_tracks {calls : List PodCall} {pods : Pods} (h : Tracks (Added calls) pods) :
    Consistent calls pods := by
  refine ⟨fun pod hpod => (h.wellFormed pod hpod).unique, fun podId conId => h.isSome_iff, ?_⟩
  rintro earlier podId conId idRet rfl hcon
  rw [← Option.not_isSome_iff_eq_none, h.isSome_iff, added_concat]
  rintro ⟨-, -, hnot⟩
  exact hnot ⟨hcon, rfl, rfl⟩

theorem tracks_nil : Tracks (Added []) [] :=
  ⟨by simp, List.Pairwise.nil, by simp [Added, findPod]⟩

-- Every state of a run agrees with the calls if and only if each call keeps it so.
theorem consistent_iff (calls : List PodCall) :
    Throughout PodMng.call [] Consistent calls ↔ EachStep PodMng.call [] Keeps calls := by
  have hlegal : EachStep PodMng.call [] (fun _ _ _ => True) calls := fun _ _ _ _ => trivial
  refine throughout_iff_eachStep (fun calls pods => Tracks (Added calls) pods) tracks_nil
    (fun _ _ => consistent_of_tracks) ?_ ?_ hlegal
  · intro done pods call hinv _ hkeeps
    exact tracks_call hinv hkeeps
  · intro done pods call hinv _ hconsistent
    exact keeps_of_consistent hinv hconsistent

end Call

-- Memory is granted, and nothing is found out about a container.
def plainEnv : Env where
  podMalloc := true
  conMalloc := true
  getContainerCpucgInode := fun _ => 0
  getContainerName := fun _ => []
  getElfPathByConId := fun _ _ => []
  getPodIp := fun _ => []
  listContainersByPodId := fun _ => none

-- A container looked up on demand, then added by its cgroup event and deleted.
def lookedUpThenAdded : List PodCall :=
  [.getAndAdd plainEnv FAKE_POD_ID "0a1b2c3d4e5f".toList,
    .add plainEnv FAKE_POD_ID "0a1b2c3d4e5f".toList .conOnly,
    .del FAKE_POD_ID "0a1b2c3d4e5f".toList .conOnly]

-- The deletion takes one of two entries out, and the other is still found.
theorem lookedUpThenAdded_not_consistent :
    ¬∀ calls, Throughout PodMng.call [] Consistent calls := by
  intro h
  have hdeleted := (h lookedUpThenAdded).last.deleted
    [.getAndAdd plainEnv FAKE_POD_ID "0a1b2c3d4e5f".toList,
      .add plainEnv FAKE_POD_ID "0a1b2c3d4e5f".toList .conOnly] _ _ _ rfl (by decide)
  revert hdeleted
  decide

end Gopher.Probe.PodMng
