import Gopher.Probe.PodMng.GetAndAdd
import Gopher.Probe.Snooper.Events
import Mathlib.Data.List.Permutation
import Mathlib.Data.Set.Basic

namespace Gopher.Probe.Snooper

open Gopher.Lib Gopher.Ipc Gopher.Probe.Config Gopher.Probe.PodMng

-- A system that answers the same whenever it is asked.
def Env.still (env : Env) : Env := { env with procDir := fun _ => env.procDir 0 }

-- What a refresh finds for a list of configurations, with memory for every object.
def refreshedObjs (env : Env) (pods : Pods) (probe : SnoopedProbe) (confs : SnooperConfs) :
    SnooperObjs :=
  (refreshSnooperObj (fun _ => true) (fun _ => env.still) pods
    { probe with snooperConfs := confs }).2.snooperObjs

def objsOf (objs : SnooperObjs) : Set SnooperObj := {obj | ∃ pos, objs pos = some obj}

-- The order does not matter, and a configuration that finds nothing takes nothing away.
structure OrderFree (env : Env) (pods : Pods) (probe : SnoopedProbe) (confs : SnooperConfs) :
    Prop where
  order : ∀ other : SnooperConfs, other.Perm confs →
    objsOf (refreshedObjs env pods probe other) = objsOf (refreshedObjs env pods probe confs)
  others : ∀ before conf after, confs = before ++ conf :: after →
    objsOf (refreshedObjs env pods probe [conf]) = ∅ →
    objsOf (refreshedObjs env pods probe (before ++ after)) ⊆
      objsOf (refreshedObjs env pods probe confs)

-- The array has an idle slot left, whatever the order.
def RoomLeft (env : Env) (pods : Pods) (probe : SnoopedProbe) (confs : SnooperConfs) : Prop :=
  ∀ other : SnooperConfs, other.Perm confs → ∃ pos, refreshedObjs env pods probe other pos = none

section Asked

def asked (env : Env) (pods : Pods) (conf : SnooperConf) : List SnooperObj :=
  (confRequests env pods conf).map Slots.Request.entry

-- The objects of one container and its processes.
def conObjs (env : Env) (podInfo : PodInfo) (conInfo : ConInfo) : List SnooperObj :=
  (containerRequests (env.procDir 0) conInfo.conId).map Slots.Request.entry ++
    [.con (snooperConInfo podInfo conInfo)]

variable {env : Env} {pods : Pods} {podInfo : PodInfo} {podId containerId : Text}

theorem conObjs_conHead (conHead : List Container) (conInfo : ConInfo) :
    conObjs env { podInfo with conHead := conHead } conInfo = conObjs env podInfo conInfo := by
  have hinfo : snooperConInfo { podInfo with conHead := conHead } conInfo =
      snooperConInfo podInfo conInfo := by
    unfold snooperConInfo podInfoPtr
    split_ifs <;> rfl
  unfold conObjs
  rw [hinfo]

theorem mem_asked_podId (hstill : ∀ scan, env.procDir scan = env.procDir 0)
    (hfound : (getAndAddPodInfo env.toEnv pods podId).2 = some podInfo) (obj : SnooperObj) :
    obj ∈ asked env pods (.podId podId) ↔
      ∃ con ∈ podInfo.conHead, obj ∈ conObjs env podInfo con.conInfo := by
  have hcons : (podContainers podInfo).map Prod.fst = podInfo.conHead.reverse := by
    simp [podContainers]
  have hobjs (con : Container × ℕ) :
      (containerRequests (env.procDir con.2) con.1.conInfo.conId ++
        [optional (.con (snooperConInfo podInfo con.1.conInfo))]).map Slots.Request.entry =
      conObjs env podInfo con.1.conInfo := by
    rw [hstill con.2, List.map_append]
    rfl
  unfold asked
  rw [confRequests, hfound]
  dsimp only
  rw [List.map_flatMap, List.mem_flatMap]
  simp only [hobjs]
  constructor
  · rintro ⟨con, hcon, hobj⟩
    refine ⟨con.1, ?_, hobj⟩
    have hmem := List.mem_map_of_mem (f := Prod.fst) hcon
    rwa [hcons, List.mem_reverse] at hmem
  · rintro ⟨con, hcon, hobj⟩
    rw [← List.mem_reverse, ← hcons] at hcon
    obtain ⟨pair, hpair, rfl⟩ := List.mem_map.mp hcon
    exact ⟨pair, hpair, hobj⟩

theorem confRefused_podId : confRefused env pods (.podId podId) =
    (getAndAddPodInfo env.toEnv pods podId).2.isNone := rfl

theorem confRefused_fake (hlist : env.listContainersByPodId FAKE_POD_ID = none) :
    confRefused env pods (.podId FAKE_POD_ID) = (findPod pods FAKE_POD_ID).isNone := by
  rw [confRefused_podId, getAndAddPodInfo_fake pods hlist]
  cases findPod pods FAKE_POD_ID with
  | none => rfl
  | some pod => rfl

theorem confRefused_containerId (hne : containerId ≠ []) :
    confRefused env pods (.containerId containerId) =
      (getAndAddConInfo env.toEnv pods FAKE_POD_ID containerId).2.isNone := by
  cases containerId with
  | nil => exact absurd rfl hne
  | cons char rest => rfl

-- The container is not there and cannot be started.
theorem refused_containerId_iff (hne : containerId ≠ []) :
    confRefused env pods (.containerId containerId) = true ↔
      findCon (fakeInfo pods).conHead (truncated (CONTAINER_ABBR_ID_LEN + 1) containerId) = none ∧
        ¬ CanAddCon env.toEnv pods := by
  rw [confRefused_containerId hne]
  have hcases := getAndAddConInfo_answer env.toEnv pods hne
  generalize getAndAddConInfo env.toEnv pods FAKE_POD_ID containerId = answer at hcases ⊢
  cases hcases with
  | found hcon => simp [hcon]
  | started hcon hcan => simp [hcan]
  | refused hcon hcan => simp [hcon, hcan]

theorem asked_containerId (hne : containerId ≠ []) :
    asked env pods (.containerId containerId) =
      match (getAndAddConInfo env.toEnv pods FAKE_POD_ID containerId).2 with
      | none => []
      | some (podInfo, conInfo) => conObjs env podInfo conInfo := by
  unfold asked
  rw [confRequests, if_neg hne]
  cases (getAndAddConInfo env.toEnv pods FAKE_POD_ID containerId).2 with
  | none => rfl
  | some answer => simp [conObjs, vital]

-- What a container id asks for, unless it is refused.
theorem asked_conFor (hne : containerId ≠ [])
    (haccepted : confRefused env pods (.containerId containerId) = false) :
    asked env pods (.containerId containerId) =
      conObjs env (fakeInfo pods)
        (conFor env.toEnv pods (truncated (CONTAINER_ABBR_ID_LEN + 1) containerId)).conInfo := by
  rw [confRefused_containerId hne] at haccepted
  rw [asked_containerId hne, conFor]
  generalize hanswer : getAndAddConInfo env.toEnv pods FAKE_POD_ID containerId = answer
    at haccepted ⊢
  have hcases := getAndAddConInfo_answer env.toEnv pods hne
  rw [hanswer] at hcases
  cases hcases with
  | found hcon => rw [hcon, Option.getD_some]
  | started hcon hcan =>
      rw [hcon, Option.getD_none]
      exact conObjs_conHead _ _
  | refused hcon hcan => cases haccepted

theorem confRequests_refused {conf : SnooperConf} (hrefused : confRefused env pods conf = true) :
    confRequests env pods conf = [] := by
  cases conf with
  | app comm cmdline debuggingDir =>
      have hnone : (env.procDir 0).readdir = none := by
        simpa [confRefused] using hrefused
      simp [confRequests, scanRequests, hnone]
  | gaussdb ip dbname usr pass port => cases hrefused
  | procId procId => cases hrefused
  | podId podId =>
      have hnone : (getAndAddPodInfo env.toEnv pods podId).2 = none := by
        simpa [confRefused] using hrefused
      simp [confRequests, hnone]
  | containerId containerId =>
      by_cases hne : containerId = []
      · simp [confRequests, hne]
      · rw [confRefused_containerId hne, Option.isNone_iff_eq_none] at hrefused
        simp [confRequests, hrefused]

end Asked

section Step

variable {env : Env} {before now : Pods} {conIds : List Text} {conf : SnooperConf}

theorem accepted_grown (h : Grown env.toEnv before now conIds)
    (hlist : conf = .podId FAKE_POD_ID → env.listContainersByPodId FAKE_POD_ID = none)
    (haccepted : confRefused env before conf = false) : confRefused env now conf = false := by
  cases conf with
  | app comm cmdline debuggingDir => exact haccepted
  | gaussdb ip dbname usr pass port => rfl
  | procId procId => rfl
  | podId podId =>
      by_cases hfake : podId = FAKE_POD_ID
      · subst hfake
        rw [confRefused_fake (hlist rfl), Option.isNone_eq_false_iff] at haccepted ⊢
        exact h.created.mpr (.inl haccepted)
      · rw [confRefused_podId] at haccepted ⊢
        rw [h.others podId hfake]
        exact haccepted
  | containerId containerId =>
      by_cases hne : containerId = []
      · subst hne
        rfl
      · rw [← Bool.not_eq_true, refused_containerId_iff hne] at haccepted ⊢
        rintro ⟨hcon, hcan⟩
        rw [h.findCon] at hcon
        split_ifs at hcon
        exact haccepted ⟨hcon, fun hbefore => hcan (h.canAddCon hbefore)⟩

-- Only the fake pod gives more than before: the containers started since.
theorem mem_asked_grown (hstill : ∀ scan, env.procDir scan = env.procDir 0)
    (h : Grown env.toEnv before now conIds)
    (hlist : conf = .podId FAKE_POD_ID → env.listContainersByPodId FAKE_POD_ID = none)
    (haccepted : confRefused env before conf = false) (obj : SnooperObj) :
    obj ∈ asked env now conf ↔ obj ∈ asked env before conf ∨
      conf = .podId FAKE_POD_ID ∧ ∃ conId ∈ conIds,
        obj ∈ conObjs env (fakeInfo before) (startedCon env.toEnv conId).conInfo := by
  cases conf with
  | app comm cmdline debuggingDir => simp [asked, confRequests]
  | gaussdb ip dbname usr pass port => simp [asked, confRequests]
  | procId procId => simp [asked, confRequests]
  | podId podId =>
      by_cases hfake : podId = FAKE_POD_ID
      · subst hfake
        have hbefore := getAndAddPodInfo_fake before (hlist rfl)
        have hnow := getAndAddPodInfo_fake now (hlist rfl)
        have hcreated : (findPod before FAKE_POD_ID).isSome := by
          rwa [confRefused_fake (hlist rfl), Option.isNone_eq_false_iff] at haccepted
        rw [if_pos hcreated] at hbefore
        rw [if_pos (h.created.mpr (.inl hcreated))] at hnow
        rw [mem_asked_podId hstill (congrArg Prod.snd hbefore),
          mem_asked_podId hstill (congrArg Prod.snd hnow), h.grown]
        simp only [conObjs_conHead, List.mem_append, List.mem_map, true_and]
        constructor
        · rintro ⟨con, ⟨conId, hconId, rfl⟩ | hcon, hobj⟩
          · exact .inr ⟨conId, hconId, hobj⟩
          · exact .inl ⟨con, hcon, hobj⟩
        · rintro (⟨con, hcon, hobj⟩ | ⟨conId, hconId, hobj⟩)
          · exact ⟨con, .inr hcon, hobj⟩
          · exact ⟨_, .inl ⟨conId, hconId, rfl⟩, hobj⟩
      · have hsame : asked env now (.podId podId) = asked env before (.podId podId) := by
          unfold asked
          rw [confRequests, confRequests, h.others podId hfake]
        rw [hsame]
        simp [hfake]
  | containerId containerId =>
      have hsame : asked env now (.containerId containerId) =
          asked env before (.containerId containerId) := by
        by_cases hne : containerId = []
        · simp [asked, confRequests, hne]
        · rw [asked_conFor hne haccepted, asked_conFor hne (accepted_grown h hlist haccepted),
            h.conFor, h.grown, conObjs_conHead]
      rw [hsame]
      simp

-- The table after a configuration.
theorem podsAfter_grown (h : Grown env.toEnv before now conIds)
    (hlist : conf = .podId FAKE_POD_ID → env.listContainersByPodId FAKE_POD_ID = none)
    (haccepted : confRefused env before conf = false) :
    ∃ conIds', Grown env.toEnv before (podsAfter env now conf) conIds' ∧
      ∀ conId ∈ conIds', conId ∈ conIds ∨ ∃ containerId, conf = .containerId containerId ∧
        containerId ≠ [] ∧ conId = truncated (CONTAINER_ABBR_ID_LEN + 1) containerId := by
  have hnow := accepted_grown h hlist haccepted
  cases conf with
  | app comm cmdline debuggingDir => exact ⟨conIds, h, fun _ => .inl⟩
  | gaussdb ip dbname usr pass port => exact ⟨conIds, h, fun _ => .inl⟩
  | procId procId => exact ⟨conIds, h, fun _ => .inl⟩
  | podId podId =>
      refine ⟨conIds, ?_, fun _ => .inl⟩
      rw [podsAfter]
      by_cases hfake : podId = FAKE_POD_ID
      · subst hfake
        rw [getAndAddPodInfo_fake _ (hlist rfl)]
        exact h
      · refine h.lookup hfake ?_
        simpa [confRefused] using hnow
  | containerId containerId =>
      rw [podsAfter]
      by_cases hne : containerId = []
      · rw [if_pos hne]
        exact ⟨conIds, h, fun _ => .inl⟩
      · rw [if_neg hne]
        rw [confRefused_containerId hne] at hnow
        have hcases := getAndAddConInfo_answer env.toEnv now hne
        generalize getAndAddConInfo env.toEnv now FAKE_POD_ID containerId = answer at hnow hcases ⊢
        cases hcases with
        | found hcon => exact ⟨conIds, h, fun _ => .inl⟩
        | started hcon hcan =>
            have hconId := mt truncated_eq_nil.mp hne
            refine ⟨_, h.addCon hconId (length_truncated_le _ _) hcon hcan, ?_⟩
            intro conId hconId
            rcases List.mem_cons.mp hconId with rfl | hold
            · exact .inr ⟨containerId, rfl, hne, rfl⟩
            · exact .inl hold
        | refused hcon hcan => cases hnow

end Step

section Run

variable {env : Env} {before now : Pods} {conIds : List Text} {confs done : SnooperConfs}

-- The containers that were started belong to configurations that came before.
structure StartedBy (env : Env) (before : Pods) (done : SnooperConfs) (conIds : List Text) :
    Prop where
  byConf : ∀ conId ∈ conIds, ∃ containerId, .containerId containerId ∈ done ∧
    containerId ≠ [] ∧ conId = truncated (CONTAINER_ABBR_ID_LEN + 1) containerId
  accepted : ∀ conf ∈ done, confRefused env before conf = false

theorem StartedBy.asked (h : StartedBy env before done conIds)
    (hgrown : Grown env.toEnv before now conIds) {conId : Text} (hconId : conId ∈ conIds)
    {obj : SnooperObj}
    (hobj : obj ∈ conObjs env (fakeInfo before) (startedCon env.toEnv conId).conInfo) :
    ∃ conf ∈ done, obj ∈ Snooper.asked env before conf := by
  obtain ⟨containerId, hconf, hne, rfl⟩ := h.byConf conId hconId
  refine ⟨_, hconf, ?_⟩
  rwa [asked_conFor hne (h.accepted _ hconf), conFor, (hgrown.new _ hconId).2, Option.getD_none]

theorem StartedBy.concat (h : StartedBy env before done conIds) {conf : SnooperConf}
    (haccepted : confRefused env before conf = false) {conIds' : List Text}
    (hconIds : ∀ conId ∈ conIds', conId ∈ conIds ∨ ∃ containerId, conf = .containerId containerId ∧
      containerId ≠ [] ∧ conId = truncated (CONTAINER_ABBR_ID_LEN + 1) containerId) :
    StartedBy env before (done ++ [conf]) conIds' := by
  refine ⟨fun conId hconId => ?_, fun other hother => ?_⟩
  · rcases hconIds conId hconId with hold | ⟨containerId, rfl, hne, heq⟩
    · obtain ⟨containerId, hconf, hrest⟩ := h.byConf conId hold
      exact ⟨containerId, List.mem_append_left _ hconf, hrest⟩
    · exact ⟨containerId, by simp, hne, heq⟩
  · rcases List.mem_append.mp hother with hdone | hconf
    · exact h.accepted other hdone
    · rwa [List.mem_singleton.mp hconf]

-- Whatever came before, the configurations that are left ask for what they ask for alone,
-- and for nothing that none of them does.
theorem mem_refreshRequests (hstill : ∀ scan, env.procDir scan = env.procDir 0)
    (hgrown : Grown env.toEnv before now conIds) (hstarted : StartedBy env before done conIds)
    (hlist : .podId FAKE_POD_ID ∈ confs → env.listContainersByPodId FAKE_POD_ID = none)
    (haccepted : ∀ conf ∈ confs, confRefused env before conf = false) (obj : SnooperObj) :
    ((∃ conf ∈ confs, obj ∈ asked env before conf) →
      obj ∈ (refreshRequests (fun _ => env) confs now).map Slots.Request.entry) ∧
    (obj ∈ (refreshRequests (fun _ => env) confs now).map Slots.Request.entry →
      ∃ conf ∈ done ++ confs, obj ∈ asked env before conf) := by
  induction confs generalizing now conIds done with
  | nil => simp [refreshRequests]
  | cons conf confs ih =>
      obtain ⟨hconf, hconfs⟩ := List.forall_mem_cons.mp haccepted
      have hfake : conf = .podId FAKE_POD_ID → env.listContainersByPodId FAKE_POD_ID = none :=
        fun heq => hlist (by rw [heq]; exact List.mem_cons_self)
      have hasked := mem_asked_grown hstill hgrown hfake hconf obj
      obtain ⟨conIds', hgrown', hconIds⟩ := podsAfter_grown hgrown hfake hconf
      obtain ⟨hall, hnone⟩ := ih hgrown' (hstarted.concat hconf hconIds)
        (fun hmem => hlist (List.mem_cons_of_mem _ hmem)) hconfs
      rw [refreshRequests, accepted_grown hgrown hfake hconf, if_neg Bool.false_ne_true,
        List.map_append, List.mem_append]
      constructor
      · rw [List.exists_mem_cons_iff]
        rintro (hobj | hobj)
        · exact .inl (hasked.mpr (.inl hobj))
        · exact .inr (hall hobj)
      · rintro (hobj | hobj)
        · rcases hasked.mp hobj with hobj | ⟨-, conId, hconId, hobj⟩
          · exact ⟨conf, by simp, hobj⟩
          · obtain ⟨other, hother, hobj⟩ := hstarted.asked hgrown hconId hobj
            exact ⟨other, List.mem_append_left _ hother, hobj⟩
        · obtain ⟨other, hother, hobj⟩ := hnone hobj
          exact ⟨other, by simpa using hother, hobj⟩

-- The objects of configurations none of which is refused.
theorem mem_refreshRequests_accepted (env : Env)
    (hstill : ∀ scan, env.procDir scan = env.procDir 0)
    (hlist : .podId FAKE_POD_ID ∈ confs → env.listContainersByPodId FAKE_POD_ID = none)
    (haccepted : ∀ conf ∈ confs, confRefused env before conf = false) (obj : SnooperObj) :
    obj ∈ (refreshRequests (fun _ => env) confs before).map Slots.Request.entry ↔
      ∃ conf ∈ confs, obj ∈ asked env before conf := by
  have hstarted : StartedBy env before [] [] := by
    constructor
    · intro conId hconId
      cases hconId
    · intro conf hconf
      cases hconf
  obtain ⟨hall, hnone⟩ := mem_refreshRequests hstill (Grown.refl env.toEnv before) hstarted hlist
    haccepted obj
  exact ⟨hnone, hall⟩

-- Nothing is asked for later that was not at first.
theorem refused_grown {conf : SnooperConf} (h : Grown env.toEnv before now [])
    (hlist : conf = .podId FAKE_POD_ID → env.listContainersByPodId FAKE_POD_ID = none)
    (hrefused : confRefused env before conf = true) : confRefused env now conf = true := by
  cases conf with
  | app comm cmdline debuggingDir => exact hrefused
  | gaussdb ip dbname usr pass port => cases hrefused
  | procId procId => cases hrefused
  | podId podId =>
      by_cases hfake : podId = FAKE_POD_ID
      · subst hfake
        have hcreated := h.created
        rw [confRefused_fake (hlist rfl), Option.isNone_iff_eq_none] at hrefused ⊢
        simpa [hrefused] using hcreated
      · rw [confRefused_podId] at hrefused ⊢
        rwa [h.others podId hfake]
  | containerId containerId =>
      by_cases hne : containerId = []
      · subst hne
        cases hrefused
      · rw [refused_containerId_iff hne] at hrefused ⊢
        obtain ⟨hcon, hcan⟩ := hrefused
        refine ⟨by rw [h.findCon, hcon]; rfl, fun hnow => ?_⟩
        have hfake := fun hcreated => (h.created.mp hcreated).resolve_right fun hne => hne rfl
        exact hcan ⟨hnow.1, hnow.2.imp_left hfake⟩

theorem refreshRequests_nil (env : Env) (hstill : ∀ scan, env.procDir scan = env.procDir 0)
    (hgrown : Grown env.toEnv before now [])
    (hlist : .podId FAKE_POD_ID ∈ confs → env.listContainersByPodId FAKE_POD_ID = none)
    (hasked : ∀ conf ∈ confs, confRequests env before conf = []) :
    refreshRequests (fun _ => env) confs now = [] := by
  induction confs generalizing now with
  | nil => rfl
  | cons conf confs ih =>
      obtain ⟨hconf, hconfs⟩ := List.forall_mem_cons.mp hasked
      have hfake : conf = .podId FAKE_POD_ID → env.listContainersByPodId FAKE_POD_ID = none :=
        fun heq => hlist (by rw [heq]; exact List.mem_cons_self)
      have hnothing : asked env before conf = [] := by rw [asked, hconf, List.map_nil]
      rw [refreshRequests]
      cases hrefused : confRefused env before conf with
      | true =>
          have hnow := refused_grown hgrown hfake hrefused
          rw [hnow, if_pos rfl, confRequests_refused hnow, List.append_nil]
      | false =>
          have hnow : asked env now conf = [] := by
            rw [List.eq_nil_iff_forall_not_mem]
            intro obj hobj
            rw [mem_asked_grown hstill hgrown hfake hrefused, hnothing] at hobj
            simp at hobj
          obtain ⟨conIds', hgrown', hconIds⟩ := podsAfter_grown hgrown hfake hrefused
          have hnone : conIds' = [] := by
            rw [List.eq_nil_iff_forall_not_mem]
            intro conId hconId
            rcases hconIds conId hconId with hold | ⟨containerId, rfl, hne, -⟩
            · cases hold
            · rw [asked_conFor hne hrefused] at hnothing
              simp [conObjs] at hnothing
          subst hnone
          rw [accepted_grown hgrown hfake hrefused, if_neg Bool.false_ne_true,
            List.map_eq_nil_iff.mp hnow]
          exact ih hgrown' (fun hmem => hlist (List.mem_cons_of_mem _ hmem)) hconfs

end Run

section Refresh

variable {env : Env} {pods : Pods} {probe : SnoopedProbe} {confs : SnooperConfs}

theorem refreshedObjs_eq (env : Env) (pods : Pods) (probe : SnoopedProbe) (confs : SnooperConfs) :
    refreshedObjs env pods probe confs = (Slots.addAll (fun _ => true)
      (refreshRequests (fun _ => env.still) confs pods) ⟨Slots.empty, 0⟩).1.slots := by
  rw [← generateObjs_eq]
  rfl

theorem holds_objsOf (objs : SnooperObjs) (obj : SnooperObj) :
    Slots.Holds some objs obj ↔ obj ∈ objsOf objs := by
  simp [Slots.Holds, objsOf]

theorem holds_empty (obj : SnooperObj) :
    ¬ Slots.Holds some (Slots.empty : SnooperObjs) obj := by
  simp [Slots.Holds, Slots.empty]

-- The objects are those requested when there is room for all.
theorem mem_refreshedObjs (hroom : ∃ pos, refreshedObjs env pods probe confs pos = none)
    (obj : SnooperObj) :
    obj ∈ objsOf (refreshedObjs env pods probe confs) ↔
      obj ∈ (refreshRequests (fun _ => env.still) confs pods).map Slots.Request.entry := by
  rw [refreshedObjs_eq] at hroom ⊢
  rw [← holds_objsOf, Slots.holds_addAll _ _ (Slots.idleCount_ne_zero.mpr hroom)]
  simp [holds_empty]

theorem requested_of_mem_refreshedObjs {obj : SnooperObj}
    (h : obj ∈ objsOf (refreshedObjs env pods probe confs)) :
    obj ∈ (refreshRequests (fun _ => env.still) confs pods).map Slots.Request.entry := by
  rw [refreshedObjs_eq, ← holds_objsOf] at h
  have hrequested := Slots.requested_of_holds_addAll h
  simpa [holds_empty] using hrequested

theorem room_of_few
    (hfew : (refreshRequests (fun _ => env.still) confs pods).length < SNOOPER_MAX) :
    ∃ pos, refreshedObjs env pods probe confs pos = none := by
  have hidle := Slots.idleCount_addAll (fun _ => true)
    (refreshRequests (fun _ => env.still) confs pods) (⟨Slots.empty, 0⟩ : Filling)
  rw [refreshedObjs_eq, ← Slots.idleCount_ne_zero]
  rw [Slots.idleCount_empty] at hidle
  omega

theorem perm_cons_of_mem {conf : SnooperConf} (h : conf ∈ confs) :
    ∃ rest : SnooperConfs, (conf :: rest).Perm confs := by
  obtain ⟨before, after, rfl⟩ := List.append_of_mem h
  exact ⟨before ++ after, List.perm_middle.symm⟩

-- A refused configuration hides those behind it.
theorem objsOf_refused {conf : SnooperConf} (hrefused : confRefused env.still pods conf = true)
    (rest : SnooperConfs) : objsOf (refreshedObjs env pods probe (conf :: rest)) = ∅ := by
  rw [Set.eq_empty_iff_forall_notMem]
  intro obj hobj
  have hrequested := requested_of_mem_refreshedObjs hobj
  rw [refreshRequests, confRequests_refused hrefused, hrefused] at hrequested
  simp at hrequested

theorem mem_objsOf_first {conf : SnooperConf} {rest : SnooperConfs}
    (hroom : ∃ pos, refreshedObjs env pods probe (conf :: rest) pos = none) {obj : SnooperObj}
    (hobj : obj ∈ asked env.still pods conf) :
    obj ∈ objsOf (refreshedObjs env pods probe (conf :: rest)) := by
  rw [mem_refreshedObjs hroom, refreshRequests, List.map_append]
  exact List.mem_append_left _ hobj

theorem orderFree_of_accepted (hroom : RoomLeft env pods probe confs)
    (hlist : .podId FAKE_POD_ID ∈ confs → env.listContainersByPodId FAKE_POD_ID = none)
    (haccepted : ∀ conf ∈ confs, confRefused env.still pods conf = false) :
    OrderFree env pods probe confs := by
  have hrequested (other : SnooperConfs) (hsub : other ⊆ confs) (obj : SnooperObj) :=
    mem_refreshRequests_accepted env.still (fun _ => rfl) (fun hmem => hlist (hsub hmem))
      (fun conf hconf => haccepted conf (hsub hconf)) obj
  have hconfs (obj : SnooperObj) : obj ∈ objsOf (refreshedObjs env pods probe confs) ↔
      ∃ conf ∈ confs, obj ∈ asked env.still pods conf := by
    rw [mem_refreshedObjs (hroom confs (List.Perm.refl _))]
    exact hrequested confs (List.Subset.refl _) obj
  constructor
  · intro other hother
    ext obj
    rw [mem_refreshedObjs (hroom other hother), hrequested other hother.subset, hconfs]
    simp only [hother.mem_iff]
  · rintro before conf after rfl - obj hobj
    have hsub : before ++ after ⊆ before ++ conf :: after :=
      ((List.sublist_cons_self conf after).append_left before).subset
    obtain ⟨other, hother, hasked⟩ :=
      (hrequested _ hsub obj).mp (requested_of_mem_refreshedObjs hobj)
    exact (hconfs obj).mpr ⟨other, hsub hother, hasked⟩

theorem orderFree_of_nothing
    (hlist : .podId FAKE_POD_ID ∈ confs → env.listContainersByPodId FAKE_POD_ID = none)
    (hnothing : ∀ conf ∈ confs, confRequests env.still pods conf = []) :
    OrderFree env pods probe confs := by
  have hempty (other : SnooperConfs) (hsub : other ⊆ confs) :
      objsOf (refreshedObjs env pods probe other) = ∅ := by
    rw [Set.eq_empty_iff_forall_notMem]
    intro obj hobj
    have hrequested := requested_of_mem_refreshedObjs hobj
    rw [refreshRequests_nil env.still (fun _ => rfl) (Grown.refl _ pods)
      (fun hmem => hlist (hsub hmem)) fun conf hconf => hnothing conf (hsub hconf)] at hrequested
    cases hrequested
  constructor
  · intro other hother
    rw [hempty other hother.subset, hempty confs (List.Subset.refl _)]
  · rintro before conf after rfl -
    rw [hempty _ ((List.sublist_cons_self conf after).append_left before).subset]
    exact Set.empty_subset _

-- The order does not matter exactly if no configuration is refused, or none finds anything.
theorem orderFree_iff (env : Env) (pods : Pods) (probe : SnoopedProbe) (confs : SnooperConfs)
    (hroom : RoomLeft env pods probe confs)
    (hlist : .podId FAKE_POD_ID ∈ confs → env.listContainersByPodId FAKE_POD_ID = none) :
    OrderFree env pods probe confs ↔
      (∀ conf ∈ confs, confRefused env.still pods conf = false) ∨
        ∀ conf ∈ confs, confRequests env.still pods conf = [] := by
  constructor
  · intro hfree
    by_contra hneither
    rw [not_or] at hneither
    obtain ⟨hrefused, hasked⟩ := hneither
    push Not at hrefused hasked
    obtain ⟨refused, hmem, hrefused⟩ := hrefused
    obtain ⟨asker, hmem', hasked⟩ := hasked
    obtain ⟨rest, hperm⟩ := perm_cons_of_mem hmem
    obtain ⟨rest', hperm'⟩ := perm_cons_of_mem hmem'
    obtain ⟨request, hrequest⟩ := List.exists_mem_of_ne_nil _ hasked
    have hfound : request.entry ∈ objsOf (refreshedObjs env pods probe (asker :: rest')) :=
      mem_objsOf_first (hroom _ hperm') (List.mem_map_of_mem hrequest)
    rw [hfree.order _ hperm', ← hfree.order _ hperm,
      objsOf_refused (by simpa using hrefused)] at hfound
    exact hfound
  · rintro (haccepted | hnothing)
    · exact orderFree_of_accepted hroom hlist haccepted
    · exact orderFree_of_nothing hlist hnothing

-- A system where nothing runs.
def quietEnv : Env where
  podMalloc := true
  conMalloc := true
  getContainerCpucgInode := fun _ => 0
  getContainerName := fun _ => []
  getElfPathByConId := fun _ _ => []
  getPodIp := fun _ => []
  listContainersByPodId := fun _ => none
  regexec := fun _ _ => false
  getContainerPodId := fun _ => []
  procDir := fun _ => ⟨some [], fun _ => none, fun _ => none, fun _ => []⟩

def idleProbe : SnoopedProbe := ⟨[], Slots.empty, false, false⟩

theorem orderFree_iff_twoProcs : OrderFree quietEnv [] idleProbe [.procId 7, .procId 8] :=
  (orderFree_iff quietEnv [] idleProbe [.procId 7, .procId 8]
    (fun other hother => by
      rcases List.perm_pair.mp hother with rfl | rfl
      · exact room_of_few (by decide)
      · exact room_of_few (by decide))
    (by decide)).mpr (.inl (by decide))

-- A pod that is gone hides the process behind it.
theorem gonePod_not_orderFree :
    RoomLeft quietEnv [] idleProbe [.podId "gone".toList, .procId 7] ∧
      ¬ OrderFree quietEnv [] idleProbe [.podId "gone".toList, .procId 7] := by
  constructor
  · intro other hother
    rcases List.perm_pair.mp hother with rfl | rfl
    · exact room_of_few (by decide)
    · exact room_of_few (by decide)
  · intro hfree
    have hfound : SnooperObj.proc 7 ∈
        objsOf (refreshedObjs quietEnv [] idleProbe [.procId 7, .podId "gone".toList]) :=
      mem_objsOf_first (room_of_few (by decide)) (by decide)
    rw [hfree.order _ (List.Perm.swap ..), objsOf_refused (by decide)] at hfound
    exact hfound

end Refresh

end Gopher.Probe.Snooper
