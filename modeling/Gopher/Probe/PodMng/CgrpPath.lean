import Gopher.Lib.Strstr
import Gopher.Probe.PodMng

namespace Gopher.Probe.PodMng

open Gopher.Lib

def KUBEPODS_PREFIX : Text := "/kubepods/".toList
def DOCKER_PREFIX : Text := "/docker/".toList
def PODID_PREFIX : Text := "/pod".toList

-- Either of the two loops that copy an id into an array, with the number of bytes there
-- is room for. A slash ends the id and is passed over.
def copyId : ℕ → ℕ → Text → List Char → List Char × ℕ
  | 0, i, _, array => (array, i)
  | _ + 1, i, [], array => (array, i)
  | room + 1, i, char :: text, array =>
      if char = '/' then (array.set i '\x00', i + 1)
      else copyId room (i + 1) text (array.set i char)

-- The array is closed at its end.
def readId (size : ℕ) (text : Text) (array : List Char) : List Char × ℕ :=
  let (array, i) := copyId size 0 text array
  (array.set size '\x00', i)

def readConId (ret : IdRet) (text : Text) (podId conId : List Char) :
    IdRet × List Char × List Char :=
  (ret, podId, (readId CONTAINER_ABBR_ID_LEN text conId).1)

-- The result with the two arrays as the call leaves them.
def getPodContainerId (cgrpPath : Text) (podId conId : List Char) :
    IdRet × List Char × List Char :=
  if (strstr KUBEPODS_PREFIX cgrpPath).isSome then
    match behind PODID_PREFIX cgrpPath with
    | none => (.failed, podId, conId)
    | some text =>
        let (podId, i) := readId POD_ID_LEN text podId
        if i = text.length then (.podOnly, podId, conId)
        else readConId .conPod (text.drop i) podId conId
  else
    match behind DOCKER_PREFIX cgrpPath with
    | none => (.failed, podId, conId)
    | some text => readConId .conOnly text (snprintfTo podId FAKE_POD_ID) conId

structure IsId (id : Text) : Prop where
  nonempty : id ≠ []
  noSlash : '/' ∉ id

-- The ids that a path of one of the documented shapes names.
inductive Names (cgrpPath : Text) : IdRet → Text → Text → Prop
  | podOnly {first second podId : Text}
      (hpath : cgrpPath = first ++ "/kubepods".toList ++ second ++ "/pod".toList ++ podId)
      (hsecond : second = [] ∨ second.head? = some '/') (hpod : IsId podId)
      (hlength : podId.length ≤ POD_ID_LEN) : Names cgrpPath .podOnly podId []
  | conPod {first second podId conId : Text}
      (hpath : cgrpPath = first ++ "/kubepods".toList ++ second ++ "/pod".toList ++ podId ++
        '/' :: conId)
      (hsecond : second = [] ∨ second.head? = some '/') (hpod : IsId podId)
      (hlength : podId.length ≤ POD_ID_LEN) (hcon : IsId conId) :
      Names cgrpPath .conPod podId conId
  | conOnly {first conId : Text} (hpath : cgrpPath = first ++ "/docker/".toList ++ conId)
      (hcon : IsId conId) : Names cgrpPath .conOnly FAKE_POD_ID conId

-- The array begins with the id and a NUL.
def Holds (array : List Char) (id : Text) : Prop := id ++ ['\x00'] <+: array

-- The container id is cut to its array, which is left alone for a pod without one.
def Parsed (kind : IdRet) (podId conId : Text) (result : IdRet × List Char × List Char) : Prop :=
  result.1 = kind ∧ Holds result.2.1 podId ∧
    (kind ≠ .podOnly → Holds result.2.2 (conId.take CONTAINER_ABBR_ID_LEN))

-- An id read from the front of a text: it fills the array, or ends at a slash, or ends with
-- the text in front of a NUL that was in the array before.
def ReadFrom (size : ℕ) (array : List Char) (id more : Text) : Prop :=
  id.length = size ∨ more.head? = some '/' ∨ more = [] ∧ array[id.length]? = some '\x00'

-- The ids stand behind the path's first marker. A pod id that fills its array is not
-- followed by a slash.
def InPlace (cgrpPath : Text) (podArray conArray : List Char) : IdRet → Text → Text → Prop
  | .podOnly, podId, _ =>
      behind PODID_PREFIX cgrpPath = some podId ∧ ReadFrom POD_ID_LEN podArray podId []
  | .conPod, podId, conId =>
      let slash := if podId.length < POD_ID_LEN then ['/'] else []
      ∃ more, behind PODID_PREFIX cgrpPath =
          some (podId ++ (slash ++ (conId.take CONTAINER_ABBR_ID_LEN ++ more))) ∧
        ReadFrom CONTAINER_ABBR_ID_LEN conArray (conId.take CONTAINER_ABBR_ID_LEN) more
  | .conOnly, _, conId =>
      strstr KUBEPODS_PREFIX cgrpPath = none ∧
        ∃ more, behind DOCKER_PREFIX cgrpPath =
            some (conId.take CONTAINER_ABBR_ID_LEN ++ more) ∧
          ReadFrom CONTAINER_ABBR_ID_LEN conArray (conId.take CONTAINER_ABBR_ID_LEN) more
  | .failed, _, _ => False

section Copy

theorem copyId_cases (room : ℕ) (text done old : List Char) (hroom : room < old.length) :
    ∃ taken more, text = taken ++ more ∧ '/' ∉ taken ∧ taken.length ≤ room ∧
      ((∃ later, more = '/' :: later ∧ taken.length < room ∧
          copyId room done.length text (done ++ old) =
            (done ++ taken ++ '\x00' :: old.drop (taken.length + 1),
              done.length + taken.length + 1)) ∨
        ((taken.length = room ∨ more = []) ∧
          copyId room done.length text (done ++ old) =
            (done ++ taken ++ old.drop taken.length, done.length + taken.length))) := by
  induction room generalizing text done old with
  | zero => exact ⟨[], text, rfl, by simp, Nat.le_refl _, .inr ⟨.inl rfl, by simp [copyId]⟩⟩
  | succ room ih =>
      cases text with
      | nil => exact ⟨[], [], rfl, by simp, Nat.zero_le _, .inr ⟨.inr rfl, by simp [copyId]⟩⟩
      | cons char text =>
          obtain ⟨cell, old, rfl⟩ := List.exists_cons_of_length_pos (by omega : 0 < old.length)
          have hset (value : Char) : (done ++ cell :: old).set done.length value =
              (done ++ [value]) ++ old := by
            simp
          rw [copyId]
          split_ifs with hslash
          · subst hslash
            refine ⟨[], '/' :: text, rfl, by simp, Nat.zero_le _, .inl ⟨text, rfl, by simp, ?_⟩⟩
            rw [hset]
            simp
          · obtain ⟨taken, more, rfl, hnone, hle, hcases⟩ :=
              ih text (done ++ [char]) old (by simpa using hroom)
            have hlength : (done ++ [char]).length = done.length + 1 := by simp
            rw [hlength] at hcases
            refine ⟨char :: taken, more, rfl, ?_, by simpa using hle, ?_⟩
            · simpa using ⟨Ne.symm hslash, hnone⟩
            · rw [hset]
              rcases hcases with ⟨later, hmore, hlt, hcopy⟩ | ⟨hend, hcopy⟩
              · refine .inl ⟨later, hmore, by simpa using hlt, ?_⟩
                rw [hcopy]
                simp
                omega
              · refine .inr ⟨?_, ?_⟩
                · simpa using hend
                · rw [hcopy]
                  simp
                  omega

end Copy

section Holding

variable {taken tail : List Char} {id : Text}

theorem holds_append_iff (htaken : '\x00' ∉ taken) (hle : id.length ≤ taken.length) :
    Holds (taken ++ tail) id ↔ id = taken ∧ tail.head? = some '\x00' := by
  constructor
  · intro hholds
    have hlength : id.length = taken.length := by
      by_contra hne
      have hshort : (id ++ ['\x00']).length ≤ taken.length := by
        rw [List.length_append, List.length_singleton]
        omega
      have hfront : id ++ ['\x00'] <+: taken :=
        List.prefix_of_prefix_length_le hholds (List.prefix_append taken tail) hshort
      exact htaken (hfront.subset (by simp))
    have hid : id = taken :=
      (List.prefix_of_prefix_length_le ((List.prefix_append _ _).trans hholds)
        (List.prefix_append taken tail) hlength.le).eq_of_length hlength
    subst hid
    obtain ⟨later, rfl⟩ := (List.prefix_append_right_inj id).mp hholds
    exact ⟨rfl, rfl⟩
  · rintro ⟨rfl, hhead⟩
    obtain ⟨later, rfl⟩ := List.head?_eq_some_iff.mp hhead
    exact (List.prefix_append_right_inj id).mpr ⟨later, rfl⟩

theorem holds_of_nul_iff (htaken : '\x00' ∉ taken) (hid : '\x00' ∉ id) :
    Holds (taken ++ '\x00' :: tail) id ↔ id = taken := by
  rcases Nat.le_total id.length taken.length with hle | hle
  · rw [holds_append_iff htaken hle]
    simp
  · constructor
    · rintro ⟨later, hlater⟩
      rw [List.append_assoc, List.singleton_append] at hlater
      have htail : Holds (id ++ '\x00' :: later) taken := by
        rw [hlater]
        exact ⟨tail, by simp⟩
      exact ((holds_append_iff hid hle).mp htail).1.symm
    · rintro rfl
      exact ⟨tail, by simp⟩

end Holding

section Reading

variable {size : ℕ} {text : Text} {array : List Char} {id more : Text}

-- What is taken from the text, and what stands behind it in the array.
theorem readId_cases (text : Text) (harray : array.length = size + 1) :
    ∃ taken more, text = taken ++ more ∧ '/' ∉ taken ∧ taken.length ≤ size ∧
      ((∃ later tail, more = '/' :: later ∧ taken.length < size ∧
          readId size text array = (taken ++ '\x00' :: tail, taken.length + 1)) ∨
        ((taken.length = size ∨ more = []) ∧
          ∃ tail, readId size text array = (taken ++ tail, taken.length) ∧
            (tail.head? = some '\x00' ↔
              taken.length = size ∨ array[taken.length]? = some '\x00'))) := by
  obtain ⟨taken, more, htext, hslash, hle, hcopy⟩ :=
    copyId_cases size text [] array (by omega)
  rw [List.length_nil, List.nil_append] at hcopy
  refine ⟨taken, more, htext, hslash, hle, ?_⟩
  rcases hcopy with ⟨later, hmore, hlt, hcopy⟩ | ⟨hend, hcopy⟩
  · obtain ⟨room, hroom⟩ := Nat.exists_eq_add_of_lt hlt
    refine .inl ⟨later, (array.drop (taken.length + 1)).set room '\x00', hmore, hlt, ?_⟩
    rw [readId, hcopy]
    simp [hroom, List.set_append_right, Nat.add_assoc]
  · refine .inr ⟨hend, (array.drop taken.length).set (size - taken.length) '\x00', ?_, ?_⟩
    · rw [readId, hcopy]
      simp [List.set_append_right _ _ hle]
    · rw [List.head?_eq_getElem?, List.getElem?_set, List.getElem?_drop, Nat.add_zero,
        List.length_drop]
      split_ifs with hfull hcell
      · simp
        omega
      · omega
      · simp
        omega

-- Where the copying stops.
def Stops (size : ℕ) (id more : Text) : Prop :=
  id.length = size ∨ more = [] ∨ more.head? = some '/'

theorem ReadFrom.stops (h : ReadFrom size array id more) : Stops size id more := by
  rcases h with hfull | hhead | ⟨hmore, -⟩
  · exact .inl hfull
  · exact .inr (.inr hhead)
  · exact .inr (.inl hmore)

theorem Stops.not_longer {longer rest : Text} (h : Stops size id (longer ++ rest))
    (hslash : '/' ∉ longer) (hsize : (id ++ longer).length ≤ size) : longer = [] := by
  cases longer with
  | nil => rfl
  | cons char longer =>
      rw [List.length_append, List.length_cons] at hsize
      rcases h with hfull | hnil | hhead
      · omega
      · cases hnil
      · cases hhead
        exact absurd List.mem_cons_self hslash

theorem Stops.unique {taken rest : Text} (heq : taken ++ rest = id ++ more)
    (htaken : '/' ∉ taken) (hid : '/' ∉ id) (hle : taken.length ≤ size) (hsize : id.length ≤ size)
    (hrest : Stops size taken rest) (hmore : Stops size id more) : taken = id ∧ rest = more := by
  rcases List.append_eq_append_iff.mp heq with ⟨longer, rfl, rfl⟩ | ⟨longer, rfl, rfl⟩
  · have hlonger := hrest.not_longer (fun hmem => hid (List.mem_append_right taken hmem)) hsize
    subst hlonger
    exact ⟨(List.append_nil taken).symm, rfl⟩
  · have hlonger := hmore.not_longer (fun hmem => htaken (List.mem_append_right id hmem)) hle
    subst hlonger
    exact ⟨List.append_nil id, rfl⟩

theorem holds_readId_iff (harray : array.length = size + 1) (htext : '\x00' ∉ text)
    (hid : '\x00' ∉ id) (hslash : '/' ∉ id) (hsize : id.length ≤ size)
    (hlength : id.length ≤ text.length) :
    Holds (readId size text array).1 id ↔
      ∃ more, text = id ++ more ∧ ReadFrom size array id more := by
  obtain ⟨taken, rest, rfl, htaken, hle, hcases⟩ := readId_cases text harray
  have hnul : '\x00' ∉ taken := fun hmem => htext (List.mem_append_left rest hmem)
  rcases hcases with ⟨later, tail, rfl, hlt, hread⟩ | ⟨hend, tail, hread, hhead⟩
  · rw [hread, holds_of_nul_iff hnul hid]
    constructor
    · rintro rfl
      exact ⟨_, rfl, .inr (.inl rfl)⟩
    · rintro ⟨more, heq, hfrom⟩
      exact (Stops.unique heq htaken hslash hle hsize (.inr (.inr rfl)) hfrom.stops).1.symm
  · have hstops : Stops size taken rest := hend.imp_right .inl
    rw [hread]
    constructor
    · intro hholds
      have hshort : id.length ≤ taken.length := by
        rcases hend with hfull | rfl
        · omega
        · simpa using hlength
      obtain ⟨rfl, hzero⟩ := (holds_append_iff hnul hshort).mp hholds
      refine ⟨rest, rfl, ?_⟩
      rcases hhead.mp hzero with hfull | hcell
      · exact .inl hfull
      · rcases hend with hfull | hrest
        · exact .inl hfull
        · exact .inr (.inr ⟨hrest, hcell⟩)
    · rintro ⟨more, heq, hfrom⟩
      obtain ⟨rfl, rfl⟩ := Stops.unique heq htaken hslash hle hsize hstops hfrom.stops
      refine (holds_append_iff hnul (Nat.le_refl _)).mpr ⟨rfl, hhead.mpr ?_⟩
      rcases hfrom with hfull | hslashed | ⟨-, hcell⟩
      · exact .inl hfull
      · rcases hend with hfull | rfl
        · exact .inl hfull
        · cases hslashed
      · exact .inr hcell

-- The index behind what was read.
theorem readId_index (more : Text) (harray : array.length = size + 1) (hslash : '/' ∉ id)
    (hsize : id.length ≤ size) (hstops : Stops size id more) :
    (readId size (id ++ more) array).2 =
      if id.length < size ∧ more.head? = some '/' then id.length + 1 else id.length := by
  obtain ⟨taken, rest, htext, htaken, hle, hcases⟩ := readId_cases (id ++ more) harray
  rcases hcases with ⟨later, tail, rfl, hlt, hread⟩ | ⟨hend, tail, hread, -⟩
  · obtain ⟨rfl, rfl⟩ :=
      Stops.unique htext hslash htaken hsize hle hstops (.inr (.inr rfl))
    rw [hread, if_pos ⟨hlt, rfl⟩]
  · obtain ⟨rfl, rfl⟩ :=
      Stops.unique htext hslash htaken hsize hle hstops (hend.imp_right .inl)
    rw [hread, if_neg]
    rintro ⟨hlt, hhead⟩
    rcases hend with hfull | rfl
    · omega
    · cases hhead

-- A last part behind a slash is not reached.
theorem slash_suffix_of_append {front back last : Text} (h : '/' :: last <:+ front ++ back)
    (hfront : '/' ∉ front) : '/' :: last <:+ back := by
  obtain ⟨before, hbefore⟩ := h
  rcases List.append_eq_append_iff.mp hbefore with ⟨rest, rfl, hrest⟩ | ⟨rest, -, hrest⟩
  · cases rest with
    | nil => exact ⟨[], hrest⟩
    | cons char rest =>
        injection hrest with hchar
        subst hchar
        exact absurd (List.mem_append_right before List.mem_cons_self) hfront
  · exact ⟨rest, hrest.symm⟩

theorem le_length_drop_readId (harray : array.length = size + 1) {last : Text}
    (hlast : '/' :: last <:+ text) :
    last.length ≤ (text.drop (readId size text array).2).length := by
  obtain ⟨taken, rest, rfl, htaken, -, hcases⟩ := readId_cases text harray
  have hlength := (slash_suffix_of_append hlast htaken).length_le
  rw [List.length_cons] at hlength
  rcases hcases with ⟨later, tail, rfl, -, hread⟩ | ⟨-, tail, hread, -⟩
  · rw [List.length_cons] at hlength
    rw [hread, List.length_drop, List.length_append, List.length_cons]
    omega
  · rw [hread, List.drop_left]
    omega

-- The text is read to its end when no slash ends the id.
theorem readId_end_iff (harray : array.length = size + 1) (hlast : id <:+ text)
    (hid : IsId id) :
    (readId size text array).2 = text.length ↔ '/' ∉ text ∧ text.length ≤ size := by
  obtain ⟨taken, rest, rfl, htaken, hle, hcases⟩ := readId_cases text harray
  rw [List.length_append]
  rcases hcases with ⟨later, tail, rfl, hlt, hread⟩ | ⟨hend, tail, hread, -⟩
  · rw [hread]
    constructor
    · intro hindex
      rw [List.length_cons] at hindex
      have hlater : later = [] := List.length_eq_zero_iff.mp (by omega)
      subst hlater
      obtain ⟨char, hchar⟩ := List.exists_mem_of_ne_nil id hid.nonempty
      have hslashed : ['/'] <:+ id :=
        List.suffix_of_suffix_length_le (List.suffix_append taken _) hlast
          (List.length_pos_of_mem hchar)
      exact absurd (hslashed.subset List.mem_cons_self) hid.noSlash
    · rintro ⟨hnone, -⟩
      exact absurd (List.mem_append_right taken List.mem_cons_self) hnone
  · rw [hread]
    constructor
    · intro hindex
      have hrest : rest = [] := List.length_eq_zero_iff.mp (by omega)
      subst hrest
      exact ⟨by simpa using htaken, by simpa using hle⟩
    · rintro ⟨-, hshort⟩
      rcases hend with hfull | rfl
      · omega
      · simp

end Reading

section Shapes

variable {cgrpPath : Text} {podArray conArray : List Char} {podId conId : Text}

-- The branches of the function.
theorem getPodContainerId_pod {text : Text}
    (hkube : (strstr KUBEPODS_PREFIX cgrpPath).isSome)
    (hbehind : behind PODID_PREFIX cgrpPath = some text) :
    getPodContainerId cgrpPath podArray conArray =
      if (readId POD_ID_LEN text podArray).2 = text.length then
        (.podOnly, (readId POD_ID_LEN text podArray).1, conArray)
      else readConId .conPod (text.drop (readId POD_ID_LEN text podArray).2)
        (readId POD_ID_LEN text podArray).1 conArray := by
  rw [getPodContainerId, if_pos hkube, hbehind]

theorem getPodContainerId_docker {text : Text} (hkube : strstr KUBEPODS_PREFIX cgrpPath = none)
    (hbehind : behind DOCKER_PREFIX cgrpPath = some text) :
    getPodContainerId cgrpPath podArray conArray =
      readConId .conOnly text (snprintfTo podArray FAKE_POD_ID) conArray := by
  rw [getPodContainerId, if_neg (by simp [hkube]), hbehind]

-- Both shapes for a pod have a slash behind `/kubepods`.
theorem kubepods_found {first second after : Text}
    (hpath : cgrpPath = first ++ "/kubepods".toList ++ second ++ "/pod".toList ++ after)
    (hsecond : second = [] ∨ second.head? = some '/') :
    (strstr KUBEPODS_PREFIX cgrpPath).isSome := by
  have hslash : ∃ rest, second ++ "/pod".toList ++ after = '/' :: rest := by
    rcases hsecond with rfl | hhead
    · exact ⟨_, rfl⟩
    · obtain ⟨later, rfl⟩ := List.head?_eq_some_iff.mp hhead
      exact ⟨_, rfl⟩
  obtain ⟨rest, hrest⟩ := hslash
  have hform : cgrpPath = first ++ (KUBEPODS_PREFIX ++ rest) := by
    have hkubepods : KUBEPODS_PREFIX = "/kubepods".toList ++ ['/'] := by decide
    rw [hpath, hkubepods, List.append_assoc _ ['/'], List.singleton_append, ← hrest]
    simp only [List.append_assoc]
  obtain ⟨found, hfound, -⟩ := strstr_of_append first KUBEPODS_PREFIX rest
  rw [hform, hfound, Option.isSome_some]

theorem behind_pod {first second after : Text}
    (hpath : cgrpPath = first ++ "/kubepods".toList ++ second ++ "/pod".toList ++ after) :
    ∃ text, behind PODID_PREFIX cgrpPath = some text ∧ after <:+ text := by
  have hform : cgrpPath =
      (first ++ "/kubepods".toList ++ second) ++ (PODID_PREFIX ++ after) := by
    rw [hpath, PODID_PREFIX, List.append_assoc _ "/pod".toList]
  rw [hform]
  exact behind_of_append _ PODID_PREFIX after

theorem holds_readConId_iff (kind : IdRet) (podArray : List Char) {text : Text}
    (harray : conArray.length = CONTAINER_ABBR_ID_LEN + 1)
    (htext : '\x00' ∉ text) (hnul : '\x00' ∉ conId) (hcon : IsId conId)
    (hlength : conId.length ≤ text.length) :
    Holds (readConId kind text podArray conArray).2.2 (conId.take CONTAINER_ABBR_ID_LEN) ↔
      ∃ more, text = conId.take CONTAINER_ABBR_ID_LEN ++ more ∧
        ReadFrom CONTAINER_ABBR_ID_LEN conArray (conId.take CONTAINER_ABBR_ID_LEN) more :=
  holds_readId_iff harray htext (fun hmem => hnul (List.mem_of_mem_take hmem))
    (fun hmem => hcon.noSlash (List.mem_of_mem_take hmem)) (List.length_take_le _ _)
    ((List.length_take_le' _ _).trans hlength)

-- A pod id in front of a slash.
theorem readFrom_pod_iff {text : Text} (htext : '/' ∈ text) (hpod : IsId podId)
    (hlength : podId.length ≤ POD_ID_LEN) :
    (∃ more, text = podId ++ more ∧ ReadFrom POD_ID_LEN podArray podId more) ↔
      ∃ later, text =
        podId ++ ((if podId.length < POD_ID_LEN then ['/'] else []) ++ later) := by
  split_ifs with hshort
  · constructor
    · rintro ⟨more, rfl, hfull | hhead | ⟨rfl, -⟩⟩
      · omega
      · obtain ⟨later, rfl⟩ := List.head?_eq_some_iff.mp hhead
        exact ⟨later, rfl⟩
      · rw [List.append_nil] at htext
        exact absurd htext hpod.noSlash
    · rintro ⟨later, rfl⟩
      exact ⟨_, rfl, .inr (.inl rfl)⟩
  · constructor
    · rintro ⟨more, rfl, -⟩
      exact ⟨more, rfl⟩
    · rintro ⟨later, rfl⟩
      exact ⟨_, rfl, .inl (by omega)⟩

theorem drop_readId (hpodArray : podArray.length = POD_ID_LEN + 1) {later : Text}
    (hpod : IsId podId) (hlength : podId.length ≤ POD_ID_LEN) :
    let text := podId ++ ((if podId.length < POD_ID_LEN then ['/'] else []) ++ later)
    text.drop (readId POD_ID_LEN text podArray).2 = later := by
  split_ifs with hshort
  · have hindex := readId_index ('/' :: later) hpodArray hpod.noSlash hlength
      (.inr (.inr rfl))
    rw [if_pos ⟨hshort, rfl⟩] at hindex
    simp only [List.singleton_append, hindex]
    simp
  · have hindex := readId_index later hpodArray hpod.noSlash hlength
      (.inl (by omega))
    rw [if_neg (fun h => hshort h.1)] at hindex
    simp only [List.nil_append, hindex]
    simp

-- A path with `/kubepods/` in it is no docker path.
theorem getPodContainerId_kind (hkube : (strstr KUBEPODS_PREFIX cgrpPath).isSome) :
    (getPodContainerId cgrpPath podArray conArray).1 = .failed ∨
      (getPodContainerId cgrpPath podArray conArray).1 = .podOnly ∨
      (getPodContainerId cgrpPath podArray conArray).1 = .conPod := by
  cases hbehind : behind PODID_PREFIX cgrpPath with
  | none =>
      rw [getPodContainerId, if_pos hkube, hbehind]
      exact .inl rfl
  | some text =>
      rw [getPodContainerId_pod hkube hbehind]
      split_ifs
      · exact .inr (.inl rfl)
      · exact .inr (.inr rfl)

theorem holds_fakePodId (hpodArray : podArray.length = POD_ID_LEN + 1) :
    Holds (snprintfTo podArray FAKE_POD_ID) FAKE_POD_ID := by
  have hne : podArray ≠ [] := List.ne_nil_of_length_pos (by omega)
  have hfits : truncated podArray.length FAKE_POD_ID = FAKE_POD_ID := by
    rw [hpodArray]
    decide
  rw [snprintfTo, hfits, if_neg hne]
  exact (holds_of_nul_iff (by decide) (by decide)).mpr rfl

theorem parsed_podOnly_iff (hnul : '\x00' ∉ cgrpPath) (hpodArray : podArray.length = POD_ID_LEN + 1)
    {first second : Text}
    (hpath : cgrpPath = first ++ "/kubepods".toList ++ second ++ "/pod".toList ++ podId)
    (hsecond : second = [] ∨ second.head? = some '/') (hpod : IsId podId)
    (hlength : podId.length ≤ POD_ID_LEN) :
    Parsed .podOnly podId [] (getPodContainerId cgrpPath podArray conArray) ↔
      InPlace cgrpPath podArray conArray .podOnly podId [] := by
  obtain ⟨text, hbehind, hsuffix⟩ := behind_pod hpath
  have htext : '\x00' ∉ text := fun hmem => hnul ((behind_suffix hbehind).subset hmem)
  have hpodNul : '\x00' ∉ podId := fun hmem => htext (hsuffix.subset hmem)
  have hholds := holds_readId_iff hpodArray htext hpodNul hpod.noSlash hlength hsuffix.length_le
  have hend := readId_end_iff hpodArray hsuffix hpod
  rw [getPodContainerId_pod (kubepods_found hpath hsecond) hbehind]
  constructor
  · rintro ⟨hkind, hheld, -⟩
    by_cases hindex : (readId POD_ID_LEN text podArray).2 = text.length
    · rw [if_pos hindex] at hheld
      obtain ⟨hnone, hshort⟩ := hend.mp hindex
      obtain ⟨more, rfl, hfrom⟩ := hholds.mp hheld
      have hmore : more = [] := by
        have hstops : Stops POD_ID_LEN podId (more ++ []) := by
          rw [List.append_nil]
          exact hfrom.stops
        exact hstops.not_longer (fun hmem => hnone (List.mem_append_right podId hmem)) hshort
      subst hmore
      rw [List.append_nil] at hbehind
      exact ⟨hbehind, hfrom⟩
    · rw [if_neg hindex] at hkind
      cases hkind
  · rintro ⟨hplace, hfrom⟩
    rw [hbehind] at hplace
    cases hplace
    rw [if_pos (hend.mpr ⟨hpod.noSlash, hlength⟩)]
    exact ⟨rfl, hholds.mpr ⟨[], (List.append_nil _).symm, hfrom⟩, fun hkind => absurd rfl hkind⟩

theorem parsed_conPod_iff (hnul : '\x00' ∉ cgrpPath) (hpodArray : podArray.length = POD_ID_LEN + 1)
    (hconArray : conArray.length = CONTAINER_ABBR_ID_LEN + 1) {first second : Text}
    (hpath : cgrpPath = first ++ "/kubepods".toList ++ second ++ "/pod".toList ++ podId ++
      '/' :: conId)
    (hsecond : second = [] ∨ second.head? = some '/') (hpod : IsId podId)
    (hlength : podId.length ≤ POD_ID_LEN) (hcon : IsId conId) :
    Parsed .conPod podId conId (getPodContainerId cgrpPath podArray conArray) ↔
      InPlace cgrpPath podArray conArray .conPod podId conId := by
  rw [List.append_assoc _ podId] at hpath
  obtain ⟨text, hbehind, hsuffix⟩ := behind_pod hpath
  have htext : '\x00' ∉ text := fun hmem => hnul ((behind_suffix hbehind).subset hmem)
  have hlast : '/' :: conId <:+ text := (List.suffix_append podId _).trans hsuffix
  have hpodNul : '\x00' ∉ podId :=
    fun hmem => htext (hsuffix.subset (List.mem_append_left _ hmem))
  have hconNul : '\x00' ∉ conId := fun hmem => htext (hlast.subset (List.mem_cons_of_mem _ hmem))
  have hslash : '/' ∈ text := hlast.subset List.mem_cons_self
  have hpodLength : podId.length ≤ text.length := by
    have hle := hsuffix.length_le
    rw [List.length_append] at hle
    omega
  have hindex : (readId POD_ID_LEN text podArray).2 ≠ text.length := by
    intro hend
    exact ((readId_end_iff hpodArray ((List.suffix_cons '/' conId).trans hlast) hcon).mp hend).1
      hslash
  have hholds := holds_readId_iff hpodArray htext hpodNul hpod.noSlash hlength hpodLength
  have hconHolds := holds_readConId_iff .conPod (readId POD_ID_LEN text podArray).1 hconArray
    (fun hmem => htext (List.mem_of_mem_drop hmem)) hconNul hcon
    (le_length_drop_readId hpodArray hlast)
  rw [getPodContainerId_pod (kubepods_found hpath hsecond) hbehind, if_neg hindex]
  constructor
  · rintro ⟨-, hheld, hconHeld⟩
    obtain ⟨later, rfl⟩ := (readFrom_pod_iff hslash hpod hlength).mp (hholds.mp hheld)
    obtain ⟨more, hmore, hfrom⟩ := hconHolds.mp (hconHeld (by decide))
    rw [drop_readId hpodArray hpod hlength] at hmore
    exact ⟨more, by rw [hbehind, hmore], hfrom⟩
  · rintro ⟨more, hplace, hfrom⟩
    rw [hbehind] at hplace
    obtain rfl := Option.some.inj hplace
    refine ⟨rfl, hholds.mpr ((readFrom_pod_iff hslash hpod hlength).mpr ⟨_, rfl⟩), fun _ => ?_⟩
    exact hconHolds.mpr ⟨more, drop_readId hpodArray hpod hlength, hfrom⟩

theorem parsed_conOnly_iff (hnul : '\x00' ∉ cgrpPath)
    (hpodArray : podArray.length = POD_ID_LEN + 1)
    (hconArray : conArray.length = CONTAINER_ABBR_ID_LEN + 1) {first : Text}
    (hpath : cgrpPath = first ++ "/docker/".toList ++ conId) (hcon : IsId conId) :
    Parsed .conOnly FAKE_POD_ID conId (getPodContainerId cgrpPath podArray conArray) ↔
      InPlace cgrpPath podArray conArray .conOnly FAKE_POD_ID conId := by
  obtain ⟨text, hbehind, hsuffix⟩ := behind_of_append first DOCKER_PREFIX conId
  have hform : cgrpPath = first ++ (DOCKER_PREFIX ++ conId) := by
    rw [hpath]
    exact List.append_assoc first DOCKER_PREFIX conId
  rw [← hform] at hbehind
  cases hkube : strstr KUBEPODS_PREFIX cgrpPath with
  | some found =>
      constructor
      · rintro ⟨hkind, -⟩
        have hsome : (strstr KUBEPODS_PREFIX cgrpPath).isSome := by rw [hkube, Option.isSome_some]
        rcases getPodContainerId_kind hsome with h | h | h <;> cases h.symm.trans hkind
      · rintro ⟨hnone, -⟩
        cases hkube.symm.trans hnone
  | none =>
      have htext : '\x00' ∉ text := fun hmem => hnul ((behind_suffix hbehind).subset hmem)
      have hconHolds := holds_readConId_iff .conOnly (snprintfTo podArray FAKE_POD_ID) hconArray
        htext (fun hmem => htext (hsuffix.subset hmem)) hcon hsuffix.length_le
      rw [getPodContainerId_docker hkube hbehind]
      constructor
      · rintro ⟨-, -, hconHeld⟩
        obtain ⟨more, rfl, hfrom⟩ := hconHolds.mp (hconHeld (by decide))
        exact ⟨hkube, more, hbehind, hfrom⟩
      · rintro ⟨-, more, hplace, hfrom⟩
        rw [hbehind] at hplace
        refine ⟨rfl, holds_fakePodId hpodArray, fun _ => hconHolds.mpr ⟨more, ?_, hfrom⟩⟩
        exact Option.some.inj hplace

theorem getPodContainerId_parsed_iff {kind : IdRet} (hnul : '\x00' ∉ cgrpPath)
    (hpodArray : podArray.length = POD_ID_LEN + 1)
    (hconArray : conArray.length = CONTAINER_ABBR_ID_LEN + 1)
    (hnames : Names cgrpPath kind podId conId) :
    Parsed kind podId conId (getPodContainerId cgrpPath podArray conArray) ↔
      InPlace cgrpPath podArray conArray kind podId conId := by
  cases hnames with
  | podOnly hpath hsecond hpod hlength =>
      exact parsed_podOnly_iff hnul hpodArray hpath hsecond hpod hlength
  | conPod hpath hsecond hpod hlength hcon =>
      exact parsed_conPod_iff hnul hpodArray hconArray hpath hsecond hpod hlength hcon
  | conOnly hpath hcon => exact parsed_conOnly_iff hnul hpodArray hconArray hpath hcon

theorem getPodContainerId_parsed_iff_shortId :
    Parsed .conPod "6cfd".toList "50a3732f2165".toList
      (getPodContainerId "/kubepods/pod6cfd/50a3732f2165".toList
        (List.replicate 37 '\x00') (List.replicate 13 '\x00')) :=
  (getPodContainerId_parsed_iff (by decide) (by decide) (by decide)
    (@Names.conPod _ [] [] _ _ (by decide) (.inl rfl) ⟨by decide, by decide⟩ (by decide)
      ⟨by decide, by decide⟩)).mpr ⟨[], by decide, .inl (by decide)⟩

-- The path of the source's own comment: the pod id fills its array and the slash behind it
-- ends an empty container id.
def k8sPath : Text :=
  "/kubepods/besteffort/pod6cfd4235-599f-493a-9880-970f3a3d4c31".toList ++
    "/50a3732f21659025473ae82f575cdac290e945d3191ae9286fd27dc36da0aa44".toList

theorem k8sPath_not_parsed :
    let podId := "6cfd4235-599f-493a-9880-970f3a3d4c31".toList
    let conId := "50a3732f21659025473ae82f575cdac290e945d3191ae9286fd27dc36da0aa44".toList
    Names k8sPath .conPod podId conId ∧
      ¬ Parsed .conPod podId conId (getPodContainerId k8sPath (List.replicate 37 '\x00')
        (List.replicate 13 '\x00')) := by
  intro podId conId
  constructor
  · exact @Names.conPod _ [] "/besteffort".toList _ _ (by decide +kernel) (.inr (by decide))
      ⟨by decide, by decide⟩ (by decide) ⟨by decide, by decide⟩
  · rintro ⟨-, -, hcon⟩
    have hempty : (getPodContainerId k8sPath (List.replicate 37 '\x00')
        (List.replicate 13 '\x00')).2.2 = List.replicate 13 '\x00' := by decide +kernel
    have hheld := hcon (by decide)
    rw [hempty] at hheld
    have hdigit := hheld.subset (show '5' ∈ _ by decide)
    exact absurd (List.eq_of_mem_replicate hdigit) (by decide)

end Shapes

end Gopher.Probe.PodMng
