import Gopher.Probe.Config.Theorems
import Gopher.Probe.Snooper.Sections
import Mathlib.Algebra.Order.Ring.Rat
import Mathlib.Data.Rat.Cast.Defs

namespace Gopher.Probe

open Gopher.Lib Gopher.Ipc Gopher.Probe.Config

namespace SnooperConf

def sect : SnooperConf → SnooperSection
  | .app .. => .procName
  | .gaussdb .. => .gaussdb
  | .procId _ => .procId
  | .podId _ => .podId
  | .containerId _ => .containerId

def printed : SnooperConf → Json
  | .app comm cmdline debugingDir => .object
      [(SNOOPER_OBJNAME_COMM, .string comm),
        (SNOOPER_OBJNAME_CMDLINE, .string (cmdline.getD [])),
        (SNOOPER_OBJNAME_DBGDIR, .string (debugingDir.getD []))]
  | .gaussdb ip dbname usr pass port => .object
      [(SNOOPER_OBJNAME_DBIP, .string (ip.getD [])),
        (SNOOPER_OBJNAME_DBPORT, .number port.toNat),
        (SNOOPER_OBJNAME_DBNAME, .string (dbname.getD [])),
        (SNOOPER_OBJNAME_DBUSER, .string (usr.getD [])),
        (SNOOPER_OBJNAME_DBPASS, .string (pass.getD []))]
  | .procId id => .number id.toNat
  | .podId id => .string id
  | .containerId id => .string id

-- What every entry of a configuration keeps to: names are there and fit their
-- field, a directory is not empty, and a text of a database is.
def Stored : SnooperConf → Prop
  | .app comm _ debugingDir => comm ≠ [] ∧ comm.length ≤ TASK_COMM_LEN ∧ debugingDir ≠ some []
  | .gaussdb ip dbname usr pass _ => ∀ field ∈ [ip, dbname, usr, pass], field.getD [] = []
  | .procId _ => True
  | .podId id => id ≠ [] ∧ id.length ≤ POD_ID_LEN
  | .containerId id => id ≠ [] ∧ id.length ≤ CONTAINER_ABBR_ID_LEN

-- A number above the largest `int` is read back as that one.
def restoredNumber (number : UInt32) : UInt32 :=
  UInt32.ofInt (min INT_MAX number.toNat)

-- The entry that the printed one is read as.
def restored : SnooperConf → SnooperConf
  | .app comm cmdline debugingDir => .app comm (some (cmdline.getD [])) debugingDir
  | .gaussdb _ _ _ _ port => .gaussdb (some []) (some []) (some []) (some []) (restoredNumber port)
  | .procId id => .procId (restoredNumber id)
  | .podId id => .podId id
  | .containerId id => .containerId id

end SnooperConf

theorem items_printSnooper (sect : SnooperSection) (confs : SnooperConfs) :
    sect.items (printSnooper confs) =
      (confs.filter (·.sect = sect)).map SnooperConf.printed := by
  rw [← List.filterMap_eq_map, List.filterMap_filter]
  cases sect <;>
    exact congrArg (fun print => confs.filterMap print) (funext fun conf => by cases conf <;> rfl)

theorem truncated_ne_nil {size : ℕ} (hsize : 1 < size) {text : Text} (htext : text ≠ []) :
    truncated size text ≠ [] := by
  unfold truncated
  rw [ne_eq, List.take_eq_nil_iff]
  have hpos : size - 1 ≠ 0 := by omega
  simp [hpos, htext]

theorem truncated_of_length {size : ℕ} {text : Text} (h : text.length ≤ size - 1) :
    truncated size text = text :=
  List.take_of_length_le h

theorem valueint_natCast (n : ℕ) : (Json.number n).valueint = min INT_MAX n := by
  have hnum : ((n : ℚ).num).tdiv (n : ℚ).den = n := by simp
  show max INT_MIN (min INT_MAX ((n : ℚ).num.tdiv (n : ℚ).den)) = _
  rw [hnum]
  unfold INT_MIN INT_MAX
  omega

theorem copyEmpty_getD (field : Text) : (copyEmpty field).getD [] = [] := by
  unfold copyEmpty
  split_ifs with h
  · exact h
  · rfl

theorem SnooperSection.stored_of_read {sect : SnooperSection} {object : Json} {conf : SnooperConf}
    (h : sect.read object = some (some conf)) : conf.sect = sect ∧ conf.Stored := by
  cases sect
  case procId =>
      simp only [SnooperSection.read, readProcid] at h
      split_ifs at h
      cases h
      exact ⟨rfl, trivial⟩
  case procName =>
      simp only [SnooperSection.read, readProcname, Option.bind_eq_bind, Option.bind_eq_some_iff,
        Option.pure_def, Option.some.injEq] at h
      obtain ⟨comm, -, cmdline, -, dbgdir, -, h⟩ := h
      split_ifs at h with hcomm
      cases h
      have hdir : dbgdir.filter (· ≠ []) ≠ some [] := by simp [Option.filter_eq_some_iff]
      exact ⟨rfl, truncated_ne_nil (by decide) hcomm, length_truncated_le _ _, hdir⟩
  case podId | containerId =>
      simp only [SnooperSection.read, readPod, readContainer, Option.bind_eq_bind,
        Option.bind_eq_some_iff, Option.pure_def, Option.some.injEq] at h
      obtain ⟨id, -, h⟩ := h
      split_ifs at h with hid
      cases h
      exact ⟨rfl, truncated_ne_nil (by decide) hid, length_truncated_le _ _⟩
  case gaussdb =>
      simp only [SnooperSection.read, readGaussdb, Option.bind_eq_bind, Option.bind_eq_some_iff]
        at h
      obtain ⟨ip, -, dbname, -, usr, -, pass, -, port, -, h⟩ := h
      split_ifs at h
      cases h
      exact ⟨rfl, by simp [SnooperConf.Stored, copyEmpty_getD]⟩

-- An entry that was printed is accepted.
theorem SnooperConf.read_printed {conf : SnooperConf} (hstored : conf.Stored) :
    conf.sect.read conf.printed = some (some conf.restored) := by
  cases conf with
  | app comm cmdline debugingDir =>
      obtain ⟨hcomm, hlength, hdir⟩ := hstored
      have hfilter : (some (debugingDir.getD [])).filter (· ≠ []) = debugingDir := by
        cases debugingDir with
        | none => rfl
        | some dir => simpa [Option.filter_eq_some_iff] using hdir
      show some (if comm = [] then none else
        some (SnooperConf.app (truncated (TASK_COMM_LEN + 1) comm) (some (cmdline.getD []))
          ((some (debugingDir.getD [])).filter (· ≠ [])))) = _
      rw [if_neg hcomm, hfilter, truncated_of_length hlength]
      rfl
  | gaussdb ip dbname usr pass port =>
      obtain ⟨hip, hdbname, husr, hpass⟩ : ip.getD [] = [] ∧ dbname.getD [] = [] ∧
          usr.getD [] = [] ∧ pass.getD [] = [] := by
        simpa [SnooperConf.Stored] using hstored
      show some (some (SnooperConf.gaussdb (copyEmpty (ip.getD [])) (copyEmpty (dbname.getD []))
        (copyEmpty (usr.getD [])) (copyEmpty (pass.getD []))
        (UInt32.ofInt (Json.number port.toNat).valueint))) = _
      rw [hip, hdbname, husr, hpass, valueint_natCast]
      rfl
  | procId id =>
      show some (some (SnooperConf.procId (UInt32.ofInt (Json.number id.toNat).valueint))) = _
      rw [valueint_natCast]
      rfl
  | podId id | containerId id =>
      have hread (size : ℕ) (make : Text → SnooperConf) (hlength : id.length ≤ size - 1) :
          (if id = [] then none else some (make (truncated size id))) = some (make id) := by
        rw [if_neg hstored.1, truncated_of_length hlength]
      exact congrArg some (hread _ _ hstored.2)

theorem restoredNumber_eq (number : UInt32) :
    SnooperConf.restoredNumber number = number ↔ (number.toNat : ℤ) ≤ INT_MAX := by
  have hlt := number.toNat_lt
  have hofInt : UInt32.ofInt number.toNat = number := by
    show UInt32.ofNat ((number.toNat : ℤ) % 2 ^ 32).toNat = number
    rw [Int.emod_eq_of_lt (by omega) (by omega), Int.toNat_natCast, UInt32.ofNat_toNat]
  unfold SnooperConf.restoredNumber
  constructor
  · intro h
    by_contra hlarge
    rw [min_eq_left (by omega)] at h
    have hmax : number.toNat = 2147483647 := by rw [← h]; rfl
    rw [hmax] at hlarge
    exact hlarge (by decide)
  · intro h
    rw [min_eq_right h, hofInt]

-- The entries whose texts are not lost between printing and parsing.
def SnooperConf.Restorable : SnooperConf → Prop
  | .app _ cmdline _ => cmdline ≠ none
  | .gaussdb ip dbname usr pass port =>
      (∀ field ∈ [ip, dbname, usr, pass], field ≠ none) ∧ (port.toNat : ℤ) ≤ INT_MAX
  | .procId id => (id.toNat : ℤ) ≤ INT_MAX
  | .podId _ => True
  | .containerId _ => True

theorem SnooperConf.restored_eq {conf : SnooperConf} (hstored : conf.Stored) :
    conf.restored = conf ↔ conf.Restorable := by
  cases conf with
  | app comm cmdline debugingDir => cases cmdline <;> simp [restored, Restorable]
  | gaussdb ip dbname usr pass port =>
      have hfield (field : Option Text) (hempty : field.getD [] = []) :
          some [] = field ↔ field ≠ none := by
        cases field <;> simp_all
      obtain ⟨hip, hdbname, husr, hpass⟩ : ip.getD [] = [] ∧ dbname.getD [] = [] ∧
          usr.getD [] = [] ∧ pass.getD [] = [] := by
        simpa [SnooperConf.Stored] using hstored
      simp only [restored, Restorable, SnooperConf.gaussdb.injEq, hfield ip hip,
        hfield dbname hdbname, hfield usr husr, hfield pass hpass, restoredNumber_eq,
        List.forall_mem_cons, List.not_mem_nil, false_imp_iff, implies_true, and_true, and_assoc]
  | procId id => simp [restored, Restorable, restoredNumber_eq]
  | podId id | containerId id => simp [restored, Restorable]

-- A list that is put together section by section is taken apart again by its sections.
theorem filter_sections {sections : List SnooperSection} (hnodup : sections.Nodup)
    {found : SnooperSection → SnooperConfs}
    (hfound : ∀ sect, ∀ conf ∈ found sect, conf.sect = sect) {sect : SnooperSection}
    (hsect : sect ∈ sections) :
    (sections.flatMap found).filter (·.sect = sect) = found sect := by
  induction sections with
  | nil => simp at hsect
  | cons head sections ih =>
      obtain ⟨hhead, hrest⟩ := List.nodup_cons.mp hnodup
      rw [List.flatMap_cons, List.filter_append]
      by_cases heq : sect = head
      · subst heq
        have hall : (found sect).filter (·.sect = sect) = found sect := by
          rw [List.filter_eq_self]
          intro conf hconf
          simpa using hfound sect conf hconf
        have hnone : (sections.flatMap found).filter (·.sect = sect) = [] := by
          rw [List.filter_eq_nil_iff]
          intro conf hconf
          obtain ⟨other, hother, hconf⟩ := List.mem_flatMap.mp hconf
          have hsection := hfound other conf hconf
          have hne : other ≠ sect := fun h => hhead (h ▸ hother)
          simpa [hsection] using hne
        rw [hall, hnone, List.append_nil]
      · have hnone : (found head).filter (·.sect = sect) = [] := by
          rw [List.filter_eq_nil_iff]
          intro conf hconf
          have hsection := hfound head conf hconf
          simpa [hsection] using Ne.symm heq
        rw [hnone, List.nil_append]
        exact ih hrest (List.mem_of_ne_of_mem heq hsect)

theorem found_sect {json : Json} {sect : SnooperSection} {conf : SnooperConf}
    (h : conf ∈ sect.found json) : conf.sect = sect ∧ conf.Stored := by
  obtain ⟨object, -, hobject⟩ := List.mem_filterMap.mp h
  exact SnooperSection.stored_of_read (Option.join_eq_some_iff.mp hobject)

-- A configuration that was parsed and printed is parsed as its restored entries.
theorem parse_printSnooper {malloc again : Bool} {json : Json} {confs : SnooperConfs}
    (h : parseSnooperConfs malloc json = (confs, .ok)) (hagain : again = true ∨ confs = []) :
    parseSnooperConfs again (printSnooper confs) = (confs.map SnooperConf.restored, .ok) := by
  obtain ⟨-, hconfs, hlength, -⟩ := parseSnooperConfs_accepted h
  have hfound (sect : SnooperSection) : confs.filter (·.sect = sect) = sect.found json := by
    rw [hconfs]
    exact filter_sections SnooperSection.all_nodup (fun sect conf hconf => (found_sect hconf).1)
      sect.mem_all
  have hmap : SnooperSection.all.flatMap (fun sect => (sect.found json).map SnooperConf.restored) =
      confs.map SnooperConf.restored := by
    rw [hconfs, List.map_flatMap]
  unfold parseSnooperConfs
  rw [snooperSections_eq, ← hmap]
  rw [← List.nil_append (SnooperSection.all.flatMap _)]
  refine parseSections_append [] (fun sect _ => ?_) ?_ ?_
  · rw [items_printSnooper, hfound, List.map_map, List.map_map]
    refine List.map_congr_left fun conf hconf => ?_
    obtain ⟨hsect, hstored⟩ := found_sect hconf
    have hread := conf.read_printed hstored
    rw [hsect] at hread
    exact hread
  · rw [hmap]
    simpa using hlength
  · rw [hmap]
    simpa using hagain

theorem snooperIsModify_self (conf : SnooperConf) : snooperIsModify conf conf = false := by
  have hcomp (text : Option Text) : compStrP text text = false := by
    cases text <;> simp [compStrP]
  cases conf <;> simp [snooperIsModify, hcomp]

theorem snoopersModified_self (confs : SnooperConfs) : snoopersModified confs confs = false := by
  unfold snoopersModified
  rw [List.any_eq_false]
  intro pair hpair
  obtain ⟨index, hindex, rfl⟩ := List.getElem_of_mem hpair
  simp [snooperIsModify_self]

theorem confs_of_parseSnooper {env : Env} {json : Json} {before probe : ProbeS}
    (h : parseSnooper env json before = (probe, .ok)) {confs : SnooperConfs}
    (hconfs : probe.snooperConfs = confs) :
    parseSnooperConfs env.confMalloc json = (confs, .ok) := by
  unfold parseSnooper at h
  split at h
  · simp at h
  · rename_i found heq
    obtain ⟨rfl, -⟩ := Prod.mk.inj h
    rw [heq, ← hconfs]

-- Putting back what was printed for a probe is accepted, leaves its configuration and
-- is not reported as a change.
def PutBackNoOp (env : Env) (probe : ProbeS) : Prop :=
  let (moved, backup) := backupSnooper probe zeroBackup
  let (after, ret) := parseSnooper env (printSnooper probe.snooperConfs) moved
  ret = .ok ∧ after.snooperConfs = probe.snooperConfs ∧
    (setProbeModify after backup).isSnooperChg = false

theorem putBackNoOp_iff {env again : Env} {json : Json} {before probe : ProbeS}
    (hparsed : parseSnooper env json before = (probe, .ok)) :
    PutBackNoOp again probe ↔ (again.confMalloc = true ∨ probe.snooperConfs = []) ∧
      ∀ conf ∈ probe.snooperConfs, conf.Restorable := by
  have hconfs := confs_of_parseSnooper hparsed rfl
  obtain ⟨-, hfound, -, -⟩ := parseSnooperConfs_accepted hconfs
  have hstored (conf : SnooperConf) (hconf : conf ∈ probe.snooperConfs) : conf.Stored := by
    rw [hfound] at hconf
    obtain ⟨sect, -, hconf⟩ := List.mem_flatMap.mp hconf
    exact (found_sect hconf).2
  have hmap : probe.snooperConfs.map SnooperConf.restored = probe.snooperConfs ↔
      ∀ conf ∈ probe.snooperConfs, conf.Restorable := by
    conv_lhs => rhs; rw [← List.map_id probe.snooperConfs]
    rw [List.map_inj_left]
    exact forall₂_congr fun conf hconf => SnooperConf.restored_eq (hstored conf hconf)
  constructor
  · rintro ⟨hok, hsame, -⟩
    have hagain : parseSnooperConfs again.confMalloc (printSnooper probe.snooperConfs) =
        (probe.snooperConfs, .ok) := confs_of_parseSnooper (Prod.ext rfl hok) hsame
    obtain ⟨-, -, -, hmalloc⟩ := parseSnooperConfs_accepted hagain
    rw [parse_printSnooper hconfs hmalloc, Prod.mk.injEq] at hagain
    exact ⟨hmalloc, hmap.mp hagain.1⟩
  · rintro ⟨hmalloc, hrestorable⟩
    have hagain := parse_printSnooper hconfs hmalloc
    rw [hmap.mpr hrestorable] at hagain
    simp [PutBackNoOp, backupSnooper, parseSnooper, hagain, setProbeModify, snoopersModified_self]

-- One process by its number and one by its name, with the members of `named`.
def processConf (named : List (Text × Json)) : Json :=
  .object [(SNOOPER_OBJNAME_PROCID, .array [.number 7]),
    (SNOOPER_OBJNAME_PROCNAME, .array
      [.object ((SNOOPER_OBJNAME_COMM, .string "app1".toList) :: named)])]

theorem putBackNoOp_iff_cmdline :
    PutBackNoOp refusingEnv (parseSnooper refusingEnv
      (processConf [(SNOOPER_OBJNAME_CMDLINE, .string [])]) (Config.newProbe .tcp)).1 := by
  have hok : (parseSnooper refusingEnv (processConf [(SNOOPER_OBJNAME_CMDLINE, .string [])])
      (Config.newProbe .tcp)).2 = .ok := by decide
  refine (putBackNoOp_iff (Prod.ext rfl hok)).mpr ⟨.inl rfl, ?_⟩
  have hconfs : (parseSnooper refusingEnv (processConf [(SNOOPER_OBJNAME_CMDLINE, .string [])])
      (Config.newProbe .tcp)).1.snooperConfs =
        [.procId 7, .app "app1".toList (some []) none] := by decide
  rw [hconfs]
  simp [SnooperConf.Restorable, INT_MAX]

-- Without a command line the pointer is NULL, is printed as "" and comes back as a text.
theorem noCmdline_not_putBackNoOp :
    ¬∀ (env : Env) (json : Json) (before probe : ProbeS),
      parseSnooper env json before = (probe, .ok) → PutBackNoOp env probe := by
  intro h
  have hok : (parseSnooper refusingEnv (processConf []) (Config.newProbe .tcp)).2 = .ok := by
    decide
  have hnoOp := (h refusingEnv _ _ _ (Prod.ext rfl hok)).2.2
  revert hnoOp
  decide

end Gopher.Probe
