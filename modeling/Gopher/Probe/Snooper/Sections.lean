import Gopher.Probe.Snooper
import Mathlib.Data.List.Basic
import Mathlib.Tactic.SplitIfs

namespace Gopher.Probe

open Gopher.Lib Gopher.Ipc

-- The sections of a snooper configuration, in the order they are parsed and printed.
inductive SnooperSection
  | procId
  | procName
  | podId
  | containerId
  | gaussdb
  deriving DecidableEq, Repr

-- What one object of a section asks for: nothing where it is refused, and no entry
-- where the name in it is empty.
def readProcid (object : Json) : Option (Option SnooperConf) :=
  if object.type ≠ .number then none else some (some (.procId (UInt32.ofInt object.valueint)))

def readProcname (object : Json) : Option (Option SnooperConf) := do
  let comm ← requiredString object SNOOPER_OBJNAME_COMM
  let cmdline ← optionalString object SNOOPER_OBJNAME_CMDLINE
  let dbgdir ← optionalString object SNOOPER_OBJNAME_DBGDIR
  return if comm = [] then none
    else some (.app (truncated (TASK_COMM_LEN + 1) comm) cmdline (dbgdir.filter (· ≠ [])))

def readPod (object : Json) : Option (Option SnooperConf) := do
  let podId ← object.valuestring
  return if podId = [] then none else some (.podId (truncated (POD_ID_LEN + 1) podId))

def readContainer (object : Json) : Option (Option SnooperConf) := do
  let containerId ← object.valuestring
  return if containerId = [] then none
    else some (.containerId (truncated (CONTAINER_ABBR_ID_LEN + 1) containerId))

def readGaussdb (object : Json) : Option (Option SnooperConf) := do
  let ip ← requiredString object SNOOPER_OBJNAME_DBIP
  let dbname ← requiredString object SNOOPER_OBJNAME_DBNAME
  let usr ← requiredString object SNOOPER_OBJNAME_DBUSER
  let pass ← requiredString object SNOOPER_OBJNAME_DBPASS
  let port ← object.getObjectItem SNOOPER_OBJNAME_DBPORT
  if port.type ≠ .number then none
  else return some (.gaussdb (copyEmpty ip) (copyEmpty dbname) (copyEmpty usr) (copyEmpty pass)
    (UInt32.ofInt port.valueint))

namespace SnooperSection

def all : List SnooperSection :=
  [procId, procName, podId, containerId, gaussdb]

theorem mem_all (sect : SnooperSection) : sect ∈ all := by
  cases sect <;> decide

theorem all_nodup : all.Nodup := by decide

def name : SnooperSection → Text
  | procId => SNOOPER_OBJNAME_PROCID
  | procName => SNOOPER_OBJNAME_PROCNAME
  | podId => SNOOPER_OBJNAME_PODID
  | containerId => SNOOPER_OBJNAME_CONTAINERID
  | gaussdb => SNOOPER_OBJNAME_GAUSSDB

def read : SnooperSection → Json → Option (Option SnooperConf)
  | procId => readProcid
  | procName => readProcname
  | podId => readPod
  | containerId => readContainer
  | gaussdb => readGaussdb

-- The objects of the section in a document.
def items (sect : SnooperSection) (json : Json) : List Json :=
  ((json.getObjectItem sect.name).map Json.children).getD []

def found (sect : SnooperSection) (json : Json) : List SnooperConf :=
  (sect.items json).filterMap fun object => (sect.read object).join

end SnooperSection

-- An object that is read is added while there is room and memory.
def addRead (malloc : Bool) (read : Json → Option (Option SnooperConf)) (object : Json)
    (confs : SnooperConfs) : Option SnooperConfs :=
  (read object).bind fun conf =>
    if SNOOPER_MAX ≤ confs.length then none
    else match conf with
      | none => some confs
      | some conf => appendConf malloc confs conf

theorem parseSnooperProcid_eq (malloc : Bool) :
    parseSnooperProcid malloc = parseSection SNOOPER_OBJNAME_PROCID (addRead malloc readProcid) := by
  unfold parseSnooperProcid
  congr 1
  funext object confs
  unfold addRead readProcid addSnooperConfProcid
  split_ifs <;> simp_all

theorem parseSnooperProcname_eq (malloc : Bool) :
    parseSnooperProcname malloc =
      parseSection SNOOPER_OBJNAME_PROCNAME (addRead malloc readProcname) := by
  unfold parseSnooperProcname
  congr 1
  funext object confs
  unfold addRead readProcname addSnooperConfProcname
  simp only [Option.bind_eq_bind, Option.bind_assoc, Option.pure_def, Option.bind_some]
  congr! 6
  split_ifs <;> rfl

theorem parseSnooperPod_eq (malloc : Bool) :
    parseSnooperPodContainer malloc SNOOPER_OBJNAME_PODID =
      parseSection SNOOPER_OBJNAME_PODID (addRead malloc readPod) := by
  unfold parseSnooperPodContainer
  congr 1
  funext object confs
  have hname : sameIgnoringCase SNOOPER_OBJNAME_PODID SNOOPER_OBJNAME_PODID = true := by decide
  unfold addRead readPod addSnooperConfPod
  simp only [hname, if_true, Option.bind_eq_bind, Option.bind_assoc, Option.pure_def,
    Option.bind_some]
  congr! 2
  split_ifs <;> rfl

theorem parseSnooperContainer_eq (malloc : Bool) :
    parseSnooperPodContainer malloc SNOOPER_OBJNAME_CONTAINERID =
      parseSection SNOOPER_OBJNAME_CONTAINERID (addRead malloc readContainer) := by
  unfold parseSnooperPodContainer
  congr 1
  funext object confs
  have hname : sameIgnoringCase SNOOPER_OBJNAME_CONTAINERID SNOOPER_OBJNAME_PODID = false := by
    decide
  unfold addRead readContainer addSnooperConfContainer
  simp only [hname, Bool.false_eq_true, if_false, Option.bind_eq_bind, Option.bind_assoc,
    Option.pure_def, Option.bind_some]
  congr! 2
  split_ifs <;> rfl

theorem parseSnooperGaussdb_eq (malloc : Bool) :
    parseSnooperGaussdb malloc =
      parseSection SNOOPER_OBJNAME_GAUSSDB (addRead malloc readGaussdb) := by
  unfold parseSnooperGaussdb
  congr 1
  funext object confs
  unfold addRead readGaussdb addSnooperConfGaussdb
  simp only [Option.bind_eq_bind, Option.bind_assoc, Option.pure_def]
  congr! 10
  split_ifs <;> rfl

-- The part `parse_snooper` plays for every section.
def SnooperSection.entry (malloc : Bool) (sect : SnooperSection) :
    Text × (Json → SnooperConfs → SnooperConfs × Bool) :=
  (sect.name, parseSection sect.name (addRead malloc sect.read))

theorem snooperSections_eq (malloc : Bool) :
    snooperSections malloc = SnooperSection.all.map (·.entry malloc) := by
  unfold snooperSections
  rw [parseSnooperProcid_eq, parseSnooperProcname_eq, parseSnooperPod_eq,
    parseSnooperContainer_eq, parseSnooperGaussdb_eq]
  rfl

section AddEach

variable (malloc : Bool) {read : Json → Option (Option SnooperConf)}

theorem addEach_accepted {objects : List Json} {confs after : SnooperConfs}
    (h : addEach (addRead malloc read) objects confs = (after, true)) :
    (∀ object ∈ objects, (read object).isSome) ∧
      after = confs ++ objects.filterMap (fun object => (read object).join) ∧
      (confs.length ≤ SNOOPER_MAX → after.length ≤ SNOOPER_MAX) ∧
      (malloc = true ∨ after = confs) := by
  induction objects generalizing confs with
  | nil =>
      simp only [addEach, Prod.mk.injEq, and_true] at h
      subst h
      simp
  | cons object objects ih =>
      simp only [addEach] at h
      split at h
      · simp at h
      · rename_i middle hadd
        obtain ⟨hread, hafter, hlength, hmalloc⟩ := ih h
        obtain ⟨conf, hconf, hroom⟩ := Option.bind_eq_some_iff.mp hadd
        split_ifs at hroom with hfull
        cases conf with
        | none =>
            cases hroom
            exact ⟨by simpa [hconf] using hread, by simpa [hconf] using hafter, hlength, hmalloc⟩
        | some conf =>
            simp only [appendConf] at hroom
            split_ifs at hroom with hgranted
            cases hroom
            refine ⟨by simpa [hconf] using hread, by simpa [hconf] using hafter, fun _ => ?_,
              .inl hgranted⟩
            refine hlength ?_
            rw [List.length_append, List.length_singleton]
            omega

theorem addEach_append {objects : List Json} (confs : SnooperConfs) {found : SnooperConfs}
    (hread : objects.map read = found.map fun conf => some (some conf))
    (hlength : confs.length + found.length ≤ SNOOPER_MAX) (hmalloc : malloc = true ∨ found = []) :
    addEach (addRead malloc read) objects confs = (confs ++ found, true) := by
  induction objects generalizing confs found with
  | nil =>
      have hfound : found = [] := List.map_eq_nil_iff.mp hread.symm
      simp [addEach, hfound]
  | cons object objects ih =>
      cases found with
      | nil => simp at hread
      | cons conf found =>
          obtain ⟨hobject, hread⟩ := List.cons_eq_cons.mp hread
          have hgranted : malloc = true := by simpa using hmalloc
          have hroom : ¬SNOOPER_MAX ≤ confs.length := by
            rw [List.length_cons] at hlength
            omega
          have hadd : addRead malloc read object confs = some (confs ++ [conf]) := by
            simp [addRead, hobject, hroom, appendConf, hgranted]
          simp only [addEach, hadd]
          have hrest := ih (confs ++ [conf]) hread (by
            rw [List.length_append, List.length_singleton]
            rw [List.length_cons] at hlength
            omega) (.inl hgranted)
          rw [hrest, List.append_assoc, List.singleton_append]

end AddEach

theorem parseSection_eq (sect : SnooperSection) (add : Json → SnooperConfs → Option SnooperConfs)
    (json : Json) (confs : SnooperConfs) :
    parseSection sect.name add json confs = addEach add (sect.items json) confs := by
  unfold parseSection SnooperSection.items
  cases json.getObjectItem sect.name <;> rfl

-- What an accepted document leaves: the entries that its sections ask for, in the
-- order of the sections.
theorem parseSections_accepted {malloc : Bool} {json : Json} {sections : List SnooperSection}
    {confs after : SnooperConfs}
    (h : parseSections json (sections.map (·.entry malloc)) confs = (after, .ok)) :
    (∀ sect ∈ sections, ∀ object ∈ sect.items json, (sect.read object).isSome) ∧
      after = confs ++ sections.flatMap (·.found json) ∧
      (confs.length ≤ SNOOPER_MAX → after.length ≤ SNOOPER_MAX) ∧
      (malloc = true ∨ after = confs) := by
  induction sections generalizing confs with
  | nil =>
      simp only [List.map_nil, parseSections, Prod.mk.injEq, and_true] at h
      subst h
      simp
  | cons sect sections ih =>
      simp only [List.map_cons, SnooperSection.entry, parseSections, parseSection_eq] at h
      split at h
      · simp at h
      · rename_i middle hsection
        obtain ⟨hread, hmiddle, hlength, hmalloc⟩ := addEach_accepted malloc hsection
        obtain ⟨hreads, hafter, hlengths, hmallocs⟩ := ih h
        refine ⟨?_, ?_, fun hconfs => hlengths (hlength hconfs), ?_⟩
        · intro other hother
          rcases List.mem_cons.mp hother with rfl | hother
          · exact hread
          · exact hreads other hother
        · rw [hafter, hmiddle, List.flatMap_cons, List.append_assoc]
          rfl
        · rcases hmalloc with hmalloc | rfl
          · exact .inl hmalloc
          · exact hmallocs

theorem parseSections_append {malloc : Bool} {json : Json} {sections : List SnooperSection}
    (confs : SnooperConfs) {found : SnooperSection → SnooperConfs}
    (hread : ∀ sect ∈ sections,
      (sect.items json).map sect.read = (found sect).map fun conf => some (some conf))
    (hlength : confs.length + (sections.flatMap found).length ≤ SNOOPER_MAX)
    (hmalloc : malloc = true ∨ sections.flatMap found = []) :
    parseSections json (sections.map (·.entry malloc)) confs =
      (confs ++ sections.flatMap found, .ok) := by
  induction sections generalizing confs with
  | nil => simp [parseSections]
  | cons sect sections ih =>
      rw [List.flatMap_cons] at hlength hmalloc ⊢
      rw [List.length_append] at hlength
      have hhere := addEach_append malloc confs
        (hread sect List.mem_cons_self) (by omega) (hmalloc.imp_right fun h =>
          (List.append_eq_nil_iff.mp h).1)
      have hrest := ih (confs ++ found sect)
        (fun other hother => hread other (List.mem_cons_of_mem _ hother))
        (by rw [List.length_append]; omega)
        (hmalloc.imp_right fun h => (List.append_eq_nil_iff.mp h).2)
      simp only [List.map_cons, SnooperSection.entry, parseSections, parseSection_eq, hhere]
      simpa [SnooperSection.entry] using hrest

theorem parseSnooperConfs_accepted {malloc : Bool} {json : Json} {confs : SnooperConfs}
    (h : parseSnooperConfs malloc json = (confs, .ok)) :
    (∀ sect : SnooperSection, ∀ object ∈ sect.items json, (sect.read object).isSome) ∧
      confs = SnooperSection.all.flatMap (·.found json) ∧ confs.length ≤ SNOOPER_MAX ∧
      (malloc = true ∨ confs = []) := by
  unfold parseSnooperConfs at h
  rw [snooperSections_eq] at h
  obtain ⟨hread, hconfs, hlength, hmalloc⟩ := parseSections_accepted h
  exact ⟨fun sect => hread sect sect.mem_all, hconfs, hlength (Nat.zero_le _), hmalloc⟩

end Gopher.Probe
