import Gopher.Probe.Snooper.RoundTrip
import Mathlib.Data.List.Perm.Subperm

namespace Gopher.Probe

open Gopher.Lib Gopher.Ipc

-- An entry of a snooper document for its reader. A text that is absent is empty.
inductive SnooperEntry
  | procId (id : ℚ)
  | procName (comm cmdline dbgdir : Text)
  | podId (id : Text)
  | containerId (id : Text)
  | containerName (name : Text)
  | gaussdb (ip : Text) (port : ℚ) (dbname usr pass : Text)
  deriving DecidableEq

namespace SnooperEntry

def Nonempty : SnooperEntry → Bool
  | .procName comm _ _ => comm ≠ []
  | .podId id => id ≠ []
  | .containerId id => id ≠ []
  | .containerName name => name ≠ []
  | .procId _ => true
  | .gaussdb .. => true

-- The names cut to the size of their fields.
def fitted : SnooperEntry → SnooperEntry
  | .procName comm cmdline dbgdir =>
      .procName (truncated (TASK_COMM_LEN + 1) comm) cmdline dbgdir
  | .podId id => .podId (truncated (POD_ID_LEN + 1) id)
  | .containerId id => .containerId (truncated (CONTAINER_ABBR_ID_LEN + 1) id)
  | .procId id => .procId id
  | .containerName name => .containerName name
  | .gaussdb ip port dbname usr pass => .gaussdb ip port dbname usr pass

end SnooperEntry

def Json.number? : Json → Option ℚ
  | .number value => some value
  | _ => none

def textOf (object : Json) (name : Text) : Text :=
  (requiredString object name).getD []

def SnooperSection.entryOf (sect : SnooperSection) (object : Json) : Option SnooperEntry :=
  match sect with
  | .procId => object.number?.map .procId
  | .procName => some (.procName (textOf object SNOOPER_OBJNAME_COMM)
      (textOf object SNOOPER_OBJNAME_CMDLINE) (textOf object SNOOPER_OBJNAME_DBGDIR))
  | .podId => object.valuestring.map .podId
  | .containerId => object.valuestring.map .containerId
  | .gaussdb => ((object.getObjectItem SNOOPER_OBJNAME_DBPORT).bind Json.number?).map fun port =>
      .gaussdb (textOf object SNOOPER_OBJNAME_DBIP) port (textOf object SNOOPER_OBJNAME_DBNAME)
        (textOf object SNOOPER_OBJNAME_DBUSER) (textOf object SNOOPER_OBJNAME_DBPASS)

def SnooperSection.entries (sect : SnooperSection) (json : Json) : List SnooperEntry :=
  (sect.items json).filterMap sect.entryOf

def containerNames (json : Json) : List SnooperEntry :=
  (((json.getObjectItem "container_name".toList).map Json.children).getD []).filterMap
    fun object => object.valuestring.map .containerName

def entries (json : Json) : List SnooperEntry :=
  SnooperSection.all.flatMap (·.entries json) ++ containerNames json

-- Every submitted entry that is not empty is listed, as often as it was submitted.
def Lists (json printed : Json) : Prop :=
  (((entries json).filter (·.Nonempty)).map (·.fitted)).Subperm (entries printed)

-- A number that a reader gets back as it was given.
def KeptNumber (number : ℚ) : Prop :=
  ∃ n : ℕ, number = n ∧ (n : ℤ) ≤ INT_MAX

-- Only these entries come back: no text of a database does, and there is no section
-- of container names.
def SnooperEntry.Kept : SnooperEntry → Prop
  | .procId id => KeptNumber id
  | .procName .. => True
  | .podId _ => True
  | .containerId _ => True
  | .containerName _ => False
  | .gaussdb ip port dbname usr pass =>
      (∀ field ∈ [ip, dbname, usr, pass], field = []) ∧ KeptNumber port

-- What is left of an entry once it was stored and printed.
def storedNumber (number : ℚ) : ℚ := (UInt32.ofInt (Json.number number).valueint).toNat

def SnooperEntry.stored : SnooperEntry → SnooperEntry
  | .procId id => .procId (storedNumber id)
  | .gaussdb _ port _ _ _ => .gaussdb [] (storedNumber port) [] [] []
  | entry => entry.fitted

theorem number_of_type {object : Json} (h : object.type = .number) :
    ∃ value, object = .number value := by
  cases object <;> simp_all [Json.type]

theorem textOf_optional {object : Json} {name : Text} {found : Option Text}
    (h : optionalString object name = some found) : textOf object name = found.getD [] := by
  unfold optionalString at h
  unfold textOf requiredString
  cases hitem : object.getObjectItem name with
  | none =>
      rw [hitem] at h
      cases h
      rfl
  | some item =>
      rw [hitem] at h
      obtain ⟨value, hvalue, rfl⟩ := Option.map_eq_some_iff.mp h
      simp [hvalue]

-- The entry printed for an object that was read.
theorem SnooperSection.entryOf_read {sect : SnooperSection} {object : Json}
    {conf : Option SnooperConf} (h : sect.read object = some conf) :
    ∃ entry, sect.entryOf object = some entry ∧
      conf.bind (fun conf => sect.entryOf conf.printed) =
        if entry.Nonempty then some entry.stored else none := by
  cases sect
  case procId =>
      simp only [SnooperSection.read, readProcid] at h
      split_ifs at h with htype
      obtain ⟨value, rfl⟩ := number_of_type (not_not.mp htype)
      cases h
      exact ⟨.procId value, rfl, rfl⟩
  case procName =>
      simp only [SnooperSection.read, readProcname, Option.bind_eq_bind, Option.bind_eq_some_iff,
        Option.pure_def, Option.some.injEq] at h
      obtain ⟨comm, hcomm, cmdline, hcmdline, dbgdir, hdbgdir, h⟩ := h
      have hname : textOf object SNOOPER_OBJNAME_COMM = comm := by simp [textOf, hcomm]
      refine ⟨_, rfl, ?_⟩
      rw [hname, textOf_optional hcmdline, textOf_optional hdbgdir]
      split_ifs at h with hempty
      · cases h
        simp [SnooperEntry.Nonempty, hempty]
      · cases h
        have hnonempty : (SnooperEntry.procName comm (cmdline.getD []) (dbgdir.getD [])).Nonempty =
            true := by simpa [SnooperEntry.Nonempty] using hempty
        have hdir : (dbgdir.filter (· ≠ [])).getD [] = dbgdir.getD [] := by
          cases dbgdir with
          | none => rfl
          | some dir => by_cases hdir : dir = [] <;> simp [Option.filter, hdir]
        show some (SnooperEntry.procName _ (cmdline.getD [])
          ((dbgdir.filter (· ≠ [])).getD [])) = _
        rw [hdir, if_pos hnonempty]
        rfl
  case podId | containerId =>
      simp only [SnooperSection.read, readPod, readContainer, Option.bind_eq_bind,
        Option.bind_eq_some_iff, Option.pure_def, Option.some.injEq] at h
      obtain ⟨id, hid, h⟩ := h
      refine ⟨_, by rw [SnooperSection.entryOf, hid]; rfl, ?_⟩
      split_ifs at h with hempty
      · cases h
        simp [SnooperEntry.Nonempty, hempty]
      · cases h
        simp [SnooperEntry.Nonempty, hempty]
        rfl
  case gaussdb =>
      simp only [SnooperSection.read, readGaussdb, Option.bind_eq_bind, Option.bind_eq_some_iff]
        at h
      obtain ⟨ip, -, dbname, -, usr, -, pass, -, port, hport, h⟩ := h
      split_ifs at h with htype
      obtain ⟨value, rfl⟩ := number_of_type (not_not.mp htype)
      cases h
      refine ⟨_, by simp only [SnooperSection.entryOf, hport, Option.bind_some, Json.number?,
        Option.map_some]; rfl, ?_⟩
      show some (SnooperEntry.gaussdb ((copyEmpty ip).getD []) (storedNumber value)
        ((copyEmpty dbname).getD []) ((copyEmpty usr).getD []) ((copyEmpty pass).getD [])) = _
      rw [copyEmpty_getD, copyEmpty_getD, copyEmpty_getD, copyEmpty_getD]
      rfl

theorem entries_printSnooper_sect {malloc : Bool} {json : Json} {confs : SnooperConfs}
    (h : parseSnooperConfs malloc json = (confs, .ok)) (sect : SnooperSection) :
    sect.entries (printSnooper confs) =
      ((sect.entries json).filter (·.Nonempty)).map (·.stored) := by
  obtain ⟨hread, hconfs, -, -⟩ := parseSnooperConfs_accepted h
  have hfound : confs.filter (·.sect = sect) = sect.found json := by
    rw [hconfs]
    exact filter_sections SnooperSection.all_nodup (fun sect conf hconf => (found_sect hconf).1)
      sect.mem_all
  unfold SnooperSection.entries
  rw [items_printSnooper, hfound, List.filterMap_map, SnooperSection.found,
    List.filterMap_filterMap, ← List.filterMap_eq_map, List.filterMap_filter,
    List.filterMap_filterMap]
  refine List.filterMap_congr fun object hobject => ?_
  obtain ⟨conf, hconf⟩ := Option.isSome_iff_exists.mp (hread sect object hobject)
  obtain ⟨entry, hentry, hprinted⟩ := SnooperSection.entryOf_read hconf
  rw [hconf, hentry]
  exact hprinted

theorem containerNames_printSnooper (confs : SnooperConfs) :
    containerNames (printSnooper confs) = [] := rfl

-- What is printed of an accepted document: its sections, each non-empty entry as it
-- was stored.
theorem entries_printSnooper {malloc : Bool} {json : Json} {confs : SnooperConfs}
    (h : parseSnooperConfs malloc json = (confs, .ok)) :
    entries (printSnooper confs) =
      ((SnooperSection.all.flatMap (·.entries json)).filter (·.Nonempty)).map (·.stored) := by
  unfold entries
  rw [containerNames_printSnooper, List.append_nil, List.filter_flatMap, List.map_flatMap]
  exact List.flatMap_congr fun sect _ => entries_printSnooper_sect h sect

theorem storedNumber_natCast {n : ℕ} (hn : (n : ℤ) ≤ INT_MAX) {number : ℚ}
    (hvalue : (Json.number number).valueint = n) : storedNumber number = n := by
  have hlt : n < 2 ^ 32 := by unfold INT_MAX at hn; omega
  unfold storedNumber
  rw [hvalue]
  show ((UInt32.ofNat ((n : ℤ) % 2 ^ 32).toNat).toNat : ℚ) = n
  rw [Int.emod_eq_of_lt (by omega) (by omega), Int.toNat_natCast, UInt32.toNat_ofNat_of_lt' hlt]

theorem storedNumber_of_kept {number : ℚ} (h : KeptNumber number) :
    storedNumber number = number := by
  obtain ⟨n, rfl, hn⟩ := h
  have hvalue : (Json.number n).valueint = n := by rw [valueint_natCast, min_eq_right hn]
  exact storedNumber_natCast hn hvalue

-- A number that is not negative is stored as one that is kept.
theorem kept_storedNumber {number : ℚ} (h : 0 ≤ number) : KeptNumber (storedNumber number) := by
  have hwhole : 0 ≤ number.num.tdiv number.den :=
    Int.tdiv_nonneg (Rat.num_nonneg.mpr h) (Int.natCast_nonneg _)
  obtain ⟨n, hn⟩ := Int.eq_ofNat_of_zero_le (show 0 ≤ (Json.number number).valueint by
    show 0 ≤ max INT_MIN (min INT_MAX (number.num.tdiv number.den))
    unfold INT_MIN INT_MAX
    omega)
  have hle : (n : ℤ) ≤ INT_MAX := by
    rw [← hn]
    show max INT_MIN (min INT_MAX (number.num.tdiv number.den)) ≤ INT_MAX
    unfold INT_MIN INT_MAX
    omega
  exact ⟨n, storedNumber_natCast hle hn, hle⟩

namespace SnooperEntry

-- The number in an entry, 0 where there is none.
def number : SnooperEntry → ℚ
  | .procId id => id
  | .gaussdb _ port _ _ _ => port
  | _ => 0

theorem number_fitted (entry : SnooperEntry) : entry.fitted.number = entry.number := by
  cases entry <;> rfl

theorem number_stored (entry : SnooperEntry) : 0 ≤ entry.stored.number := by
  cases entry <;> simp [stored, fitted, number, storedNumber]

theorem stored_of_kept {entry : SnooperEntry} (h : entry.Kept) : entry.stored = entry.fitted := by
  cases entry with
  | procId id => simp [stored, fitted, storedNumber_of_kept h]
  | gaussdb ip port dbname usr pass =>
      obtain ⟨htexts, hport⟩ := h
      simp only [List.forall_mem_cons, List.not_mem_nil, false_imp_iff, implies_true, and_true]
        at htexts
      simp [stored, fitted, storedNumber_of_kept hport, htexts]
  | containerName name => exact h.elim
  | _ => rfl

theorem kept_of_stored {entry other : SnooperEntry} (h : other.stored = entry.fitted)
    (hnumber : 0 ≤ other.number) (hname : ∀ name, other ≠ .containerName name) : entry.Kept := by
  cases entry with
  | procId id =>
      cases other <;> simp only [stored, fitted, reduceCtorEq, procId.injEq] at h
      exact h ▸ kept_storedNumber hnumber
  | gaussdb ip port dbname usr pass =>
      cases other <;> simp only [stored, fitted, reduceCtorEq, gaussdb.injEq] at h
      obtain ⟨rfl, hport, rfl, rfl, rfl⟩ := h
      exact ⟨by simp, hport ▸ kept_storedNumber hnumber⟩
  | containerName name =>
      cases other <;> simp only [stored, fitted, reduceCtorEq] at h
      exact (hname _ rfl).elim
  | _ => trivial

end SnooperEntry

theorem SnooperSection.not_containerName {sect : SnooperSection} {json : Json} {name : Text} :
    .containerName name ∉ sect.entries json := by
  unfold entries
  rw [List.mem_filterMap]
  rintro ⟨object, -, h⟩
  cases sect <;>
    simp only [entryOf, Option.map_eq_some_iff, Option.some.injEq, reduceCtorEq, and_false,
      exists_false] at h

namespace SnooperSection

variable {sect : SnooperSection} {object : Json} {entry : SnooperEntry}

theorem kept_of_named (hsect : sect ∈ [SnooperSection.procName, .podId, .containerId])
    (h : sect.entryOf object = some entry) : entry.Kept := by
  simp only [List.mem_cons, List.not_mem_nil, or_false] at hsect
  rcases hsect with rfl | rfl | rfl
  · cases h
    trivial
  · obtain ⟨id, -, rfl⟩ := Option.map_eq_some_iff.mp h
    trivial
  · obtain ⟨id, -, rfl⟩ := Option.map_eq_some_iff.mp h
    trivial

theorem nonempty_of_numbered (hsect : sect ∈ [SnooperSection.procId, .gaussdb])
    (h : sect.entryOf object = some entry) :
    entry.Nonempty ∧ entry.stored.number = storedNumber entry.number := by
  simp only [List.mem_cons, List.not_mem_nil, or_false] at hsect
  rcases hsect with rfl | rfl
  · obtain ⟨id, -, rfl⟩ := Option.map_eq_some_iff.mp h
    exact ⟨rfl, rfl⟩
  · obtain ⟨port, -, rfl⟩ := Option.map_eq_some_iff.mp h
    exact ⟨rfl, rfl⟩

end SnooperSection

-- The exact condition under which everything that was submitted is listed.
theorem lists_iff {malloc : Bool} {json : Json} {confs : SnooperConfs}
    (hparsed : parseSnooperConfs malloc json = (confs, .ok)) :
    Lists json (printSnooper confs) ↔
      ∀ entry ∈ entries json, entry.Nonempty → entry.Kept := by
  unfold Lists
  rw [entries_printSnooper hparsed]
  constructor
  · intro hlists
    have hstored (entry : SnooperEntry) (hentry : entry ∈ entries json)
        (hnonempty : entry.Nonempty) :
        ∃ other ∈ SnooperSection.all.flatMap (·.entries json),
          other.Nonempty ∧ other.stored = entry.fitted := by
      have hmem := hlists.subset (List.mem_map_of_mem (List.mem_filter.mpr ⟨hentry, hnonempty⟩))
      obtain ⟨other, hother, heq⟩ := List.mem_map.mp hmem
      obtain ⟨hother, hnonempty⟩ := List.mem_filter.mp hother
      exact ⟨other, hother, hnonempty, heq⟩
    intro entry hentry hnonempty
    obtain ⟨other, hother, hnonempty, heq⟩ := hstored entry hentry hnonempty
    -- the other entry is listed as well, so its number is one that was printed
    obtain ⟨third, -, -, hthird⟩ := hstored other (List.mem_append_left _ hother) hnonempty
    have hnumber : 0 ≤ other.number := by
      rw [← other.number_fitted, ← hthird]
      exact third.number_stored
    refine SnooperEntry.kept_of_stored heq hnumber fun name hname => ?_
    obtain ⟨sect, -, hsect⟩ := List.mem_flatMap.mp hother
    exact SnooperSection.not_containerName (hname ▸ hsect)
  · intro hkept
    have hnames : (containerNames json).filter (·.Nonempty) = [] := by
      rw [List.filter_eq_nil_iff]
      intro entry hentry hnonempty
      have hentryKept := hkept entry (List.mem_append_right _ hentry) hnonempty
      obtain ⟨object, -, hname⟩ := List.mem_filterMap.mp hentry
      obtain ⟨name, -, rfl⟩ := Option.map_eq_some_iff.mp hname
      exact hentryKept
    have hfitted : ((SnooperSection.all.flatMap (·.entries json)).filter (·.Nonempty)).map
        (·.fitted) = ((SnooperSection.all.flatMap (·.entries json)).filter (·.Nonempty)).map
        (·.stored) := by
      refine List.map_congr_left fun entry hentry => ?_
      obtain ⟨hentry, hnonempty⟩ := List.mem_filter.mp hentry
      exact (SnooperEntry.stored_of_kept
        (hkept entry (List.mem_append_left _ hentry) hnonempty)).symm
    rw [entries, List.filter_append, hnames, List.append_nil, hfitted]

-- What is listed of an accepted document: the texts of the named sections cut to
-- their fields, and the numbers of the others as they fit an `int` and then a `u32`.
theorem printSnooper_lists {malloc : Bool} {json : Json} {confs : SnooperConfs}
    (hparsed : parseSnooperConfs malloc json = (confs, .ok)) :
    (∀ sect ∈ [SnooperSection.procName, .podId, .containerId],
        sect.entries (printSnooper confs) =
          ((sect.entries json).filter (·.Nonempty)).map (·.fitted)) ∧
      (∀ sect ∈ [SnooperSection.procId, .gaussdb],
        (sect.entries (printSnooper confs)).map (·.number) =
          (sect.entries json).map fun entry => storedNumber entry.number) ∧
      ∀ number, KeptNumber number → storedNumber number = number := by
  refine ⟨fun sect hsect => ?_, fun sect hsect => ?_, fun number => storedNumber_of_kept⟩
  · rw [entries_printSnooper_sect hparsed]
    refine List.map_congr_left fun entry hentry => SnooperEntry.stored_of_kept ?_
    obtain ⟨object, -, hobject⟩ := List.mem_filterMap.mp (List.mem_filter.mp hentry).1
    exact SnooperSection.kept_of_named hsect hobject
  · rw [entries_printSnooper_sect hparsed, List.map_map]
    have hall : (sect.entries json).filter (·.Nonempty) = sect.entries json := by
      rw [List.filter_eq_self]
      intro entry hentry
      obtain ⟨object, -, hobject⟩ := List.mem_filterMap.mp hentry
      exact (SnooperSection.nonempty_of_numbered hsect hobject).1
    rw [hall]
    refine List.map_congr_left fun entry hentry => ?_
    obtain ⟨object, -, hobject⟩ := List.mem_filterMap.mp hentry
    exact (SnooperSection.nonempty_of_numbered hsect hobject).2

def entriesJson (name : Text) (items : List Json) : Json :=
  .object [(SNOOPER_OBJNAME_PROCID, .array [.number 7]),
    (SNOOPER_OBJNAME_PODID, .array [.string "pod1".toList, .string []]), (name, .array items)]

theorem printSnooper_lists_pod :
    SnooperSection.podId.entries (printSnooper
      (parseSnooperConfs true (entriesJson SNOOPER_OBJNAME_CONTAINERID [])).1) =
      [.podId "pod1".toList] := by
  have hok : (parseSnooperConfs true (entriesJson SNOOPER_OBJNAME_CONTAINERID [])).2 = .ok := by
    decide
  exact (printSnooper_lists (Prod.ext rfl hok)).1 .podId (by simp)

def gaussdbJson (ip : Text) : Json :=
  .object [(SNOOPER_OBJNAME_DBIP, .string ip), (SNOOPER_OBJNAME_DBPORT, .number 8080),
    (SNOOPER_OBJNAME_DBNAME, .string []), (SNOOPER_OBJNAME_DBUSER, .string []),
    (SNOOPER_OBJNAME_DBPASS, .string [])]

-- An accepted document that is not listed.
def NotListed (json : Json) : Prop :=
  (parseSnooperConfs true json).2 = .ok ∧ ¬Lists json (printSnooper (parseSnooperConfs true json).1)

theorem notListed_of_entry {json : Json} (hok : (parseSnooperConfs true json).2 = .ok)
    (entry : SnooperEntry) (hentry : entry ∈ entries json) (hnonempty : entry.Nonempty)
    (hnot : entry.fitted ∉ entries (printSnooper (parseSnooperConfs true json).1)) :
    NotListed json :=
  ⟨hok, fun h => hnot (h.subset (List.mem_map_of_mem (List.mem_filter.mpr ⟨hentry, hnonempty⟩)))⟩

-- A name of a container has no section, a number is printed as the `u32` it was
-- stored in, and the address of a database as "".
theorem submitted_not_listed :
    NotListed (entriesJson "container_name".toList [.string "c1".toList]) ∧
      NotListed (.object [(SNOOPER_OBJNAME_PROCID, .array [.number (-1)])]) ∧
      NotListed (entriesJson SNOOPER_OBJNAME_GAUSSDB [gaussdbJson "192.168.1.1".toList]) := by
  refine ⟨?_, ?_, ?_⟩
  · exact notListed_of_entry (by decide) (.containerName "c1".toList) (by decide) (by decide)
      (by decide)
  · exact notListed_of_entry (by decide) (.procId (-1)) (by decide) (by decide) (by decide)
  · exact notListed_of_entry (by decide) (.gaussdb "192.168.1.1".toList 8080 [] [] []) (by decide)
      (by decide) (by decide)

end Gopher.Probe
