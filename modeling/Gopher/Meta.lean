import Gopher.Imdb
import Gopher.Imdb.Json.Theorems
import Gopher.Lib.Fill
import Gopher.Lib.Json.Written

namespace Gopher.Meta

open Gopher.Lib

def MAX_FIELD_TYPE_LEN : ℕ := 64
def MAX_FIELD_NAME_LEN : ℕ := 64
def MAX_MEASUREMENT_NAME_LEN : ℕ := 64
def MAX_META_VERSION_LEN : ℕ := 16
def META_FIELD_TYPE_KEY : Text := "key".toList
def META_FIELD_TYPE_LABEL : Text := "label".toList

structure Field where
  type : CString MAX_FIELD_TYPE_LEN
  name : CString MAX_FIELD_NAME_LEN
  deriving DecidableEq

-- `fields` is the array up to `fieldsNum`.
structure Measurement where
  entity : CString MAX_MEASUREMENT_NAME_LEN
  name : CString MAX_MEASUREMENT_NAME_LEN
  version : CString MAX_META_VERSION_LEN
  fields : List Field
  deriving DecidableEq

-- A builder gets the place and the room from there on. It returns the length of what it has
-- printed, or -1.
abbrev Builder := Dest → Option (CharBuffer × ℤ)

-- `__snprintf`, which moves the place and the room on if all was printed.
def snprintf (text : Text) : Fill := fun dest =>
  if dest.size ≤ 0 then Fill.fail dest else Fill.snprintf text dest

-- The builders that print one text and tell its length from the room left.
def metadataBuild (text : Text) : Builder := fun dest => do
  let (left, isDone) ← snprintf text dest
  if !isDone then return (left.buffer, -1)
  return (left.buffer, if left.size < dest.size then dest.size - left.size else -1)

def metadataBuildTimestamp (now : ℤ) : Builder :=
  metadataBuild ("\x7b\"timestamp\": ".toList ++ Imdb.formatInt (now * Imdb.THOUSAND))

def metadataBuildMetaname (mm : Measurement) : Builder :=
  metadataBuild (", \"meta_name\": \"".toList ++ mm.name.text ++ "\"".toList)

def metadataBuildEntityname (mm : Measurement) : Builder :=
  metadataBuild (", \"entity_name\": \"".toList ++ mm.entity.text ++ "\"".toList)

def metadataBuildVrsion (mm : Measurement) : Builder :=
  metadataBuild (", \"version\": \"".toList ++ mm.version.text ++ "\"".toList)

-- The loop of the builders that add up the lengths of what they print.
def printPieces : List Text → (totalLen : ℤ) → Builder
  | [], totalLen, dest => some (dest.buffer, totalLen)
  | piece :: pieces, totalLen, dest => do
      let (dest, isDone) ← Fill.snprintf piece dest
      if !isDone then return (dest.buffer, -1)
      printPieces pieces (totalLen + piece.length) dest

def quotedName (field : Field) : Text := "\"".toList ++ field.name.text ++ "\"".toList

-- A list of the names of the fields of one type behind a name of its own.
def metadataBuildNames (opening type : Text) (mm : Measurement) : Builder :=
  printPieces (opening :: ((mm.fields.filter fun field => field.type.text = type).map
    fun field => ", ".toList ++ quotedName field) ++ ["]".toList]) 0

def metadataBuildKeys : Measurement → Builder :=
  metadataBuildNames ", \"keys\": [\"machine_id\"".toList META_FIELD_TYPE_KEY

def metadataBuildLabels : Measurement → Builder :=
  metadataBuildNames ", \"labels\": [\"hostname\"".toList META_FIELD_TYPE_LABEL

def isFiledTypeMetric (type : Text) : Bool :=
  ["counter".toList, "gauge".toList].contains type

-- The first metric has no comma in front.
def metricPieces : (firstMetric : Bool) → List Field → List Text
  | _, [] => []
  | firstMetric, field :: fields =>
      if !isFiledTypeMetric field.type.text then metricPieces firstMetric fields
      else (if firstMetric then quotedName field else ", ".toList ++ quotedName field) ::
        metricPieces false fields

def metadataBuildMetrics (mm : Measurement) : Builder :=
  printPieces (", \"metrics\": [".toList :: metricPieces true mm.fields ++ ["]\x7d".toList]) 0

-- How `metadata_to_json` goes on behind a builder.
def advance (build : Builder) : Fill := fun dest => do
  let (buffer, ret) ← build dest
  if ret < 0 then return ({ dest with buffer := buffer }, false)
  return (⟨buffer, (dest.place + ret).toNat, dest.size - ret⟩, true)

def metadataBuilders (now : ℤ) (mm : Measurement) : List Builder :=
  [metadataBuildTimestamp now, metadataBuildMetaname mm, metadataBuildEntityname mm,
    metadataBuildVrsion mm, metadataBuildKeys mm, metadataBuildLabels mm,
    metadataBuildMetrics mm]

def runBuilders : List Builder → Fill
  | [] => Fill.done
  | build :: builders => (advance build).andThen (runBuilders builders)

-- `none` is a write outside `json_str`.
def metadataToJson (now : ℤ) (mm : Measurement) (jsonStr : CharBuffer) (maxJsonLen : ℤ) :
    Option (CharBuffer × ℤ) := do
  let (dest, isDone) ← runBuilders (metadataBuilders now mm) ⟨jsonStr, 0, maxJsonLen⟩
  return (dest.buffer, if isDone then 0 else -1)

open Gopher.Lib.Fill
open Gopher.Imdb (Plain plain_nil noNul_of_plain)

section Printing

variable {build : Builder} {text : Text}

theorem prints_snprintf' (text : Text) : Prints (snprintf text) text ['\x00'] 1 := by
  have hprints := Fill.prints_snprintf text
  constructor
  · constructor
    intro dest hroom hle
    rw [snprintf, if_neg (by omega)]
    exact hprints.fits hroom hle
  · intro dest hroom hlt
    unfold snprintf
    split
    · exact ⟨dest, rfl, rfl⟩
    · exact hprints.cut hroom hlt

-- What `metadata_to_json` makes of a builder that tells the length of its text.
theorem prints_advance
    (hfits : ∀ {dest : Dest}, dest.HasRoom → (text.length + 1 : ℕ) ≤ dest.size →
      ∃ after, build dest = some (after.buffer, (text.length : ℤ)) ∧
        Moved dest text ['\x00'] after)
    (hcut : ∀ {dest : Dest}, dest.HasRoom → dest.size < (text.length + 1 : ℕ) →
      ∃ buffer, build dest = some (buffer, -1) ∧ buffer.length = dest.buffer.length) :
    Prints (advance build) text ['\x00'] 1 := by
  constructor
  · constructor
    intro dest hroom hle
    obtain ⟨after, hbuild, hmoved⟩ := hfits hroom hle
    refine ⟨_, ?_, hmoved⟩
    simp only [advance, hbuild, Option.bind_eq_bind, Option.bind_some]
    rw [if_neg (by omega), ← hmoved.size_eq, ← Int.natCast_add, Int.toNat_natCast,
      ← hmoved.place_eq]
    rfl
  · intro dest hroom hlt
    obtain ⟨buffer, hbuild, hlength⟩ := hcut hroom hlt
    refine ⟨{ dest with buffer := buffer }, ?_, hlength⟩
    simp only [advance, hbuild, Option.bind_eq_bind, Option.bind_some]
    rw [if_pos (by omega)]
    rfl

theorem prints_metadataBuild (hne : text ≠ []) :
    Prints (advance (metadataBuild text)) text ['\x00'] 1 := by
  have hlength := List.length_pos_iff.mpr hne
  have hprints := prints_snprintf' text
  apply prints_advance
  · intro dest hroom hle
    obtain ⟨after, hrun, hmoved⟩ := hprints.fits hroom hle
    have hsize := hmoved.size_eq
    refine ⟨after, ?_, hmoved⟩
    simp only [metadataBuild, hrun, Option.bind_eq_bind, Option.bind_some]
    simp only [Bool.not_true, Bool.false_eq_true, if_false, pure]
    rw [if_pos (by omega), hsize, Int.sub_sub_self]
  · intro dest hroom hlt
    obtain ⟨after, hrun, hlength⟩ := hprints.cut hroom hlt
    refine ⟨after.buffer, ?_, hlength⟩
    simp [metadataBuild, hrun]

theorem advance_metadataBuild_of_nonpos (text : Text) {dest : Dest} (hsize : dest.size ≤ 0) :
    advance (metadataBuild text) dest = some (dest, false) := by
  simp [advance, metadataBuild, snprintf, hsize, fail]

-- Both the pieces and the total go on behind the first piece.
theorem printPieces_spec (first : Text) (rest : List Text) (totalLen : ℤ) {dest : Dest}
    (hroom : dest.HasRoom) :
    ((((first :: rest).flatten.length + 1 : ℕ) : ℤ) ≤ dest.size →
      ∃ after, printPieces (first :: rest) totalLen dest =
          some (after.buffer, totalLen + (first :: rest).flatten.length) ∧
        Moved dest (first :: rest).flatten ['\x00'] after) ∧
    (dest.size < ((first :: rest).flatten.length + 1 : ℕ) →
      ∃ buffer, printPieces (first :: rest) totalLen dest = some (buffer, -1) ∧
        buffer.length = dest.buffer.length) := by
  have hprints := Fill.prints_snprintf first
  induction rest generalizing first totalLen dest with
  | nil =>
      rw [List.flatten_singleton]
      constructor
      · intro hle
        obtain ⟨after, hrun, hmoved⟩ := hprints.fits hroom hle
        refine ⟨after, ?_, hmoved⟩
        simp [printPieces, hrun]
      · intro hlt
        obtain ⟨after, hrun, hlength⟩ := hprints.cut hroom hlt
        refine ⟨after.buffer, ?_, hlength⟩
        simp [printPieces, hrun]
  | cons second rest ih =>
      rw [List.flatten_cons, List.length_append]
      by_cases hfirst : (first.length + 1 : ℕ) ≤ dest.size
      · obtain ⟨middle, hrun, hmoved⟩ := hprints.fits hroom hfirst
        have hsize := hmoved.size_eq
        obtain ⟨ihFits, ihCut⟩ := ih second (totalLen + first.length)
          (hmoved.hasRoom hroom (by omega)) (Fill.prints_snprintf second)
        have hstep : printPieces (first :: second :: rest) totalLen dest =
            printPieces (second :: rest) (totalLen + first.length) middle := by
          rw [printPieces, hrun]
          rfl
        constructor
        · intro hle
          obtain ⟨after, hafter, hmoved'⟩ := ihFits (by omega)
          refine ⟨after, ?_, hmoved.trans hroom hmoved'⟩
          rw [hstep, hafter, Int.natCast_add, Int.add_assoc]
        · intro hlt
          obtain ⟨buffer, hbuffer, hlength⟩ := ihCut (by omega)
          exact ⟨buffer, hstep.trans hbuffer, hlength.trans hmoved.printed.length_eq⟩
      · obtain ⟨after, hrun, hlength⟩ := hprints.cut hroom (by omega)
        refine ⟨fun hle => absurd hle (by omega), fun _ => ⟨after.buffer, ?_, hlength⟩⟩
        simp [printPieces, hrun]

theorem prints_printPieces (first : Text) (rest : List Text) :
    Prints (advance (printPieces (first :: rest) 0)) (first :: rest).flatten ['\x00'] 1 := by
  apply prints_advance
  · intro dest hroom hle
    obtain ⟨after, hrun, hmoved⟩ := (printPieces_spec first rest 0 hroom).1 hle
    rw [Int.zero_add] at hrun
    exact ⟨after, hrun, hmoved⟩
  · intro dest hroom hlt
    exact (printPieces_spec first rest 0 hroom).2 hlt

end Printing

section Text

def keyNames (mm : Measurement) : List Text :=
  (mm.fields.filter fun field => field.type.text = META_FIELD_TYPE_KEY).map (·.name.text)

def labelNames (mm : Measurement) : List Text :=
  (mm.fields.filter fun field => field.type.text = META_FIELD_TYPE_LABEL).map (·.name.text)

def metricNames (mm : Measurement) : List Text :=
  (mm.fields.filter fun field =>
    field.type.text = "counter".toList ∨ field.type.text = "gauge".toList).map (·.name.text)

def stringPart (name text : Text) : JsonDoc.Part := ⟨name, JsonDoc.quoted text, .string text⟩

def listPart (name : Text) (names : List Text) : JsonDoc.Part :=
  ⟨name, '[' :: (JsonDoc.listed names ++ [']']), .array (names.map .string)⟩

def timestampPart (now : ℤ) : JsonDoc.Part :=
  ⟨"timestamp".toList, Imdb.formatInt (now * Imdb.THOUSAND),
    .number (Imdb.formatInt (now * Imdb.THOUSAND))⟩

def measurementParts (mm : Measurement) : List JsonDoc.Part :=
  [stringPart "meta_name".toList mm.name.text, stringPart "entity_name".toList mm.entity.text,
    stringPart "version".toList mm.version.text,
    listPart "keys".toList ("machine_id".toList :: keyNames mm),
    listPart "labels".toList ("hostname".toList :: labelNames mm),
    listPart "metrics".toList (metricNames mm)]

-- The document of a measurement, and its text.
def metadataObject (now : ℤ) (mm : Measurement) : JsonDoc :=
  .object [("timestamp".toList, .number (Imdb.formatInt (now * Imdb.THOUSAND))),
    ("meta_name".toList, .string mm.name.text),
    ("entity_name".toList, .string mm.entity.text),
    ("version".toList, .string mm.version.text),
    ("keys".toList, .array (("machine_id".toList :: keyNames mm).map .string)),
    ("labels".toList, .array (("hostname".toList :: labelNames mm).map .string)),
    ("metrics".toList, .array ((metricNames mm).map .string))]

def metadataText (now : ℤ) (mm : Measurement) : Text :=
  '\x7b' :: ((timestampPart now).written ++
    ((measurementParts mm).map fun part => ", ".toList ++ part.written).flatten ++ ['\x7d'])

variable (now : ℤ) (mm : Measurement)

theorem isFiledTypeMetric_eq (type : Text) :
    isFiledTypeMetric type = decide (type = "counter".toList ∨ type = "gauge".toList) := by
  simp only [isFiledTypeMetric, List.contains_eq_mem, List.mem_cons, List.not_mem_nil, or_false]

theorem metricPieces_false (fields : List Field) :
    metricPieces false fields =
      (fields.filter fun field => isFiledTypeMetric field.type.text).map
        fun field => ", ".toList ++ quotedName field := by
  induction fields with
  | nil => rfl
  | cons field fields ih =>
      rw [metricPieces]
      by_cases hmetric : isFiledTypeMetric field.type.text = true
      · rw [List.filter_cons_of_pos (by simp [hmetric]), if_neg (by simp [hmetric]), List.map_cons,
          ih]
        rfl
      · rw [List.filter_cons_of_neg (by simp [hmetric]), if_pos (by simp [hmetric]), ih]

theorem flatten_metricPieces (fields : List Field) :
    (metricPieces true fields).flatten =
      JsonDoc.listed ((fields.filter fun field => isFiledTypeMetric field.type.text).map
        (·.name.text)) := by
  induction fields with
  | nil => rfl
  | cons field fields ih =>
      rw [metricPieces]
      by_cases hmetric : isFiledTypeMetric field.type.text = true
      · rw [List.filter_cons_of_pos (by simp [hmetric]), if_neg (by simp [hmetric]), List.map_cons,
          List.flatten_cons, metricPieces_false, JsonDoc.listed, List.map_map]
        rfl
      · rw [List.filter_cons_of_neg (by simp [hmetric]), if_pos (by simp [hmetric]), ih]

-- Behind its first name a list is printed field by field.
theorem prints_metadataBuildNames {opening type name first : Text}
    (hopening : opening = ", ".toList ++ JsonDoc.quoted name ++ ": ".toList ++
      '[' :: JsonDoc.quoted first) :
    Prints (advance (metadataBuildNames opening type mm))
      (", ".toList ++ (listPart name (first ::
        (mm.fields.filter fun field => field.type.text = type).map (·.name.text))).written)
      ['\x00'] 1 := by
  have h := prints_printPieces opening
    (((mm.fields.filter fun field => field.type.text = type).map
      fun field => ", ".toList ++ quotedName field) ++ ["]".toList])
  have htext : (opening :: (((mm.fields.filter fun field => field.type.text = type).map
      fun field => ", ".toList ++ quotedName field) ++ ["]".toList])).flatten =
      ", ".toList ++ (listPart name (first ::
        (mm.fields.filter fun field => field.type.text = type).map (·.name.text))).written := by
    rw [List.flatten_cons, List.flatten_append, hopening, JsonDoc.Part.written, listPart,
      JsonDoc.listed, List.map_map]
    simp [Function.comp_def, quotedName, JsonDoc.quoted]
  rw [htext] at h
  exact h

theorem prints_metadataBuildMetrics :
    Prints (advance (metadataBuildMetrics mm))
      (", ".toList ++ (listPart "metrics".toList (metricNames mm)).written ++ ['\x7d'])
      ['\x00'] 1 := by
  have h := prints_printPieces ", \"metrics\": [".toList
    (metricPieces true mm.fields ++ ["]\x7d".toList])
  have htext : (", \"metrics\": [".toList ::
      (metricPieces true mm.fields ++ ["]\x7d".toList])).flatten =
      ", ".toList ++ (listPart "metrics".toList (metricNames mm)).written ++ ['\x7d'] := by
    have hnames : (mm.fields.filter fun field => isFiledTypeMetric field.type.text).map
        (·.name.text) = metricNames mm := by
      simp only [metricNames, isFiledTypeMetric_eq]
    rw [List.flatten_cons, List.flatten_append, flatten_metricPieces, hnames]
    generalize metricNames mm = names
    simp [JsonDoc.Part.written, listPart, JsonDoc.quoted]
  rw [htext] at h
  exact h

theorem prints_stringPart {opening : Text} {name : Text} (text : Text)
    (hopening : opening = ", ".toList ++ JsonDoc.quoted name ++ ": ".toList ++ ['"']) :
    Prints (advance (metadataBuild (opening ++ text ++ "\"".toList)))
      (", ".toList ++ (stringPart name text).written) ['\x00'] 1 := by
  have h : Prints (advance (metadataBuild (opening ++ text ++ "\"".toList)))
      (opening ++ text ++ "\"".toList) ['\x00'] 1 := prints_metadataBuild (by simp)
  have htext : opening ++ text ++ "\"".toList =
      ", ".toList ++ (stringPart name text).written := by
    rw [hopening]
    simp [JsonDoc.Part.written, stringPart, JsonDoc.quoted]
  rw [htext] at h ⊢
  exact h

theorem prints_metadataBuilders :
    Prints (runBuilders (metadataBuilders now mm)) (metadataText now mm) ['\x00'] 1 := by
  have htimestamp : Prints (advance (metadataBuildTimestamp now))
      ('\x7b' :: (timestampPart now).written) ['\x00'] 1 :=
    prints_metadataBuild (by simp)
  have hmetaname : Prints (advance (metadataBuildMetaname mm))
      (", ".toList ++ (stringPart "meta_name".toList mm.name.text).written) ['\x00'] 1 :=
    prints_stringPart mm.name.text rfl
  have hentityname : Prints (advance (metadataBuildEntityname mm))
      (", ".toList ++ (stringPart "entity_name".toList mm.entity.text).written) ['\x00'] 1 :=
    prints_stringPart mm.entity.text rfl
  have hversion : Prints (advance (metadataBuildVrsion mm))
      (", ".toList ++ (stringPart "version".toList mm.version.text).written) ['\x00'] 1 :=
    prints_stringPart mm.version.text rfl
  have hkeys : Prints (advance (metadataBuildKeys mm))
      (", ".toList ++ (listPart "keys".toList ("machine_id".toList :: keyNames mm)).written)
      ['\x00'] 1 :=
    prints_metadataBuildNames mm rfl
  have hlabels : Prints (advance (metadataBuildLabels mm))
      (", ".toList ++ (listPart "labels".toList ("hostname".toList :: labelNames mm)).written)
      ['\x00'] 1 :=
    prints_metadataBuildNames mm rfl
  have hlast := hlabels.andThen (prints_metadataBuildMetrics mm) (Nat.le_add_left 1 _)
  have hlists := hkeys.andThen hlast (Nat.le_add_left 1 _)
  have hstrings := hmetaname.andThen (hentityname.andThen (hversion.andThen hlists
    (Nat.le_add_left 1 _)) (Nat.le_add_left 1 _)) (Nat.le_add_left 1 _)
  have hwhole := htimestamp.andThen hstrings (Nat.le_add_left 1 _)
  simp only [runBuilders, metadataBuilders, andThen_done, metadataText, measurementParts,
    List.map_cons, List.map_nil, List.flatten_cons, List.flatten_nil, List.append_nil,
    List.append_assoc]
  simp only [List.append_assoc, List.cons_append] at hwhole
  exact hwhole

-- No name has a quote, a backslash or a control character in it.
structure NamesPlain (mm : Measurement) : Prop where
  name : Plain mm.name.text
  entity : Plain mm.entity.text
  fields : ∀ field ∈ mm.fields, Plain field.name.text

variable {now mm}

theorem plain_of_mem_filter {mm : Measurement} (hnames : NamesPlain mm) {first : Text}
    (hfirst : Plain first) {keep : Field → Bool} :
    ∀ text ∈ first :: (mm.fields.filter keep).map (·.name.text), Plain text := by
  rw [List.forall_mem_cons]
  refine ⟨hfirst, fun text htext => ?_⟩
  obtain ⟨field, hfield, rfl⟩ := List.mem_map.mp htext
  exact hnames.fields field (List.mem_filter.mp hfield).1

theorem sound_stringPart {name text : Text} (hname : Plain name) (htext : Plain text) :
    (stringPart name text).Sound Imdb.jsonQuoting :=
  ⟨hname, JsonDoc.takes_quoted htext⟩

theorem sound_listPart {name : Text} {names : List Text} (hname : Plain name)
    (hnames : ∀ text ∈ names, Plain text) : (listPart name names).Sound Imdb.jsonQuoting :=
  ⟨hname, JsonDoc.takes_listed hnames⟩

theorem sound_parts (hnames : NamesPlain mm) (hversion : Plain mm.version.text) :
    ∀ part ∈ timestampPart now :: measurementParts mm, part.Sound Imdb.jsonQuoting := by
  have htimestamp : (timestampPart now).Sound Imdb.jsonQuoting :=
    ⟨show Plain "timestamp".toList by decide, JsonDoc.takes_number (Imdb.isNumber_formatInt _)⟩
  have hmetrics : ∀ text ∈ metricNames mm, Plain text := fun text htext =>
    plain_of_mem_filter hnames plain_nil text (List.mem_cons_of_mem _ htext)
  simp only [measurementParts, List.forall_mem_cons]
  exact ⟨htimestamp, sound_stringPart (by decide) hnames.name,
    sound_stringPart (by decide) hnames.entity, sound_stringPart (by decide) hversion,
    sound_listPart (by decide) (plain_of_mem_filter hnames (by decide)),
    sound_listPart (by decide) (plain_of_mem_filter hnames (by decide)),
    sound_listPart (by decide) hmetrics, by simp⟩

theorem readDocument_metadataText (hnames : NamesPlain mm) (hversion : Plain mm.version.text) :
    JsonDoc.readDocument Imdb.jsonQuoting (metadataText now mm) = some (metadataObject now mm) :=
  JsonDoc.readDocument_parts (sound_parts hnames hversion)

theorem noNul_cons {char : Char} (hchar : '\x00' ≠ char) {text : Text} (h : Imdb.NoNul text) :
    Imdb.NoNul (char :: text) := by
  rw [Imdb.NoNul, List.mem_cons, not_or]
  exact ⟨hchar, h⟩

theorem noNul_quoted {text : Text} (h : Imdb.NoNul text) : Imdb.NoNul (JsonDoc.quoted text) :=
  noNul_cons (by decide) (Imdb.noNul_append.mpr ⟨h, by decide⟩)

theorem noNul_listed {names : List Text} (h : ∀ name ∈ names, Imdb.NoNul name) :
    Imdb.NoNul (JsonDoc.listed names) := by
  cases names with
  | nil => exact List.not_mem_nil
  | cons name names =>
      rw [List.forall_mem_cons] at h
      refine Imdb.noNul_append.mpr ⟨noNul_quoted h.1, Imdb.noNul_flatten fun text htext => ?_⟩
      obtain ⟨other, hother, rfl⟩ := List.mem_map.mp htext
      exact Imdb.noNul_append.mpr ⟨by decide, noNul_quoted (h.2 other hother)⟩

theorem noNul_written {part : JsonDoc.Part} (hname : Imdb.NoNul part.name)
    (htext : Imdb.NoNul part.text) : Imdb.NoNul part.written :=
  Imdb.noNul_append.mpr ⟨Imdb.noNul_append.mpr ⟨noNul_quoted hname, by decide⟩, htext⟩

theorem noNul_listPart {name : Text} (hname : Imdb.NoNul name) {names : List Text}
    (h : ∀ name ∈ names, Imdb.NoNul name) : Imdb.NoNul (listPart name names).written :=
  noNul_written hname
    (noNul_cons (by decide) (Imdb.noNul_append.mpr ⟨noNul_listed h, by decide⟩))

theorem noNul_stringPart {name text : Text} (hname : Imdb.NoNul name) (htext : Plain text) :
    Imdb.NoNul (stringPart name text).written :=
  noNul_written hname (noNul_quoted (noNul_of_plain htext))

theorem noNul_metadataText (hnames : NamesPlain mm) (hversion : Plain mm.version.text) :
    Imdb.NoNul (metadataText now mm) := by
  have hfields : ∀ {first : Text} {keep : Field → Bool}, Plain first →
      ∀ name ∈ first :: (mm.fields.filter keep).map (·.name.text), Imdb.NoNul name :=
    fun hfirst name hname => noNul_of_plain (plain_of_mem_filter hnames hfirst name hname)
  have htimestamp : Imdb.NoNul (timestampPart now).written :=
    noNul_written (show Imdb.NoNul "timestamp".toList by decide) (Imdb.noNul_formatInt _)
  have hmetrics : Imdb.NoNul (listPart "metrics".toList (metricNames mm)).written :=
    noNul_listPart (by decide) fun name hname =>
      hfields plain_nil name (List.mem_cons_of_mem _ hname)
  have hparts : ∀ part ∈ measurementParts mm, Imdb.NoNul part.written := by
    simp only [measurementParts, List.forall_mem_cons]
    exact ⟨noNul_stringPart (by decide) hnames.name,
      noNul_stringPart (by decide) hnames.entity, noNul_stringPart (by decide) hversion,
      noNul_listPart (by decide) (hfields (by decide)),
      noNul_listPart (by decide) (hfields (by decide)), hmetrics, by simp⟩
  refine noNul_cons (by decide)
    (Imdb.noNul_append.mpr ⟨Imdb.noNul_append.mpr ⟨htimestamp, ?_⟩, by decide⟩)
  refine Imdb.noNul_flatten fun text htext => ?_
  obtain ⟨part, hpart, rfl⟩ := List.mem_map.mp htext
  exact Imdb.noNul_append.mpr ⟨by decide, hparts part hpart⟩

end Text

section Result

open CharBuffer

variable (now : ℤ) (mm : Measurement) {jsonStr : CharBuffer} {maxJsonLen : ℤ}

-- The result tells whether the text and its terminator fit.
theorem metadataToJson_spec (hroom : jsonStr.length = maxJsonLen.toNat) :
    ∃ after ret, metadataToJson now mm jsonStr maxJsonLen = some (after, ret) ∧
      after.length = jsonStr.length ∧
      ((metadataText now mm).length < maxJsonLen ∧ ret = 0 ∧
          Printed jsonStr 0 (metadataText now mm ++ ['\x00']) after ∨
        maxJsonLen ≤ (metadataText now mm).length ∧ ret = -1) := by
  have hprints := prints_metadataBuilders now mm
  by_cases hneg : maxJsonLen < 0
  · -- the first builder refuses, and nothing is written
    refine ⟨jsonStr, -1, ?_, rfl, .inr ⟨by omega, rfl⟩⟩
    have hfirst : advance (metadataBuildTimestamp now) ⟨jsonStr, 0, maxJsonLen⟩ =
        some (⟨jsonStr, 0, maxJsonLen⟩, false) :=
      advance_metadataBuild_of_nonpos _ (Int.le_of_lt hneg)
    have hrun : runBuilders (metadataBuilders now mm) ⟨jsonStr, 0, maxJsonLen⟩ =
        some (⟨jsonStr, 0, maxJsonLen⟩, false) := by
      rw [metadataBuilders, runBuilders, andThen, hfirst]
      rfl
    rw [metadataToJson, hrun]
    rfl
  · have hdest : Dest.HasRoom ⟨jsonStr, 0, maxJsonLen⟩ :=
      ⟨by dsimp only; omega, by dsimp only; omega⟩
    by_cases hfits : (metadataText now mm).length < maxJsonLen
    · obtain ⟨after, hrun, hmoved⟩ := hprints.fits hdest (by dsimp only; omega)
      refine ⟨after.buffer, 0, ?_, hmoved.printed.length_eq, .inl ⟨hfits, rfl, hmoved.printed⟩⟩
      simp [metadataToJson, hrun]
    · obtain ⟨after, hrun, hlength⟩ := hprints.cut hdest (by dsimp only; omega)
      refine ⟨after.buffer, -1, ?_, hlength, .inr ⟨by omega, rfl⟩⟩
      simp [metadataToJson, hrun]

-- Every name and the version without quotes, backslashes and control characters: the document
-- says what the measurement says, unless it does not fit.
theorem metadataToJson_document (hnames : NamesPlain mm) (hversion : Plain mm.version.text)
    (hroom : jsonStr.length = maxJsonLen.toNat) :
    ∃ after ret, metadataToJson now mm jsonStr maxJsonLen = some (after, ret) ∧
      after.length = jsonStr.length ∧ (ret = 0 ∨ ret = -1) ∧
      (ret = 0 → after.cString 0 = some (metadataText now mm) ∧
        JsonDoc.readDocument Imdb.jsonQuoting (metadataText now mm) =
          some (metadataObject now mm)) ∧
      (ret = -1 ↔ maxJsonLen < (metadataText now mm).length + 1) := by
  obtain ⟨after, ret, hrun, hlength, hresult⟩ := metadataToJson_spec now mm hroom
  refine ⟨after, ret, hrun, hlength, ?_, fun hret => ?_, ?_⟩
  · obtain ⟨-, hret, -⟩ | ⟨-, hret⟩ := hresult
    · exact .inl hret
    · exact .inr hret
  · obtain ⟨-, -, hprinted⟩ | ⟨-, hcut⟩ := hresult
    · exact ⟨hprinted.cString (Nat.zero_le _) (noNul_metadataText hnames hversion),
        readDocument_metadataText hnames hversion⟩
    · omega
  · obtain ⟨hfits, hret, -⟩ | ⟨hcut, hret⟩ := hresult <;> omega

def blockMeasurement : Measurement where
  entity := ⟨"block".toList, by decide⟩
  name := ⟨"block".toList, by decide⟩
  version := ⟨"1.0.0".toList, by decide⟩
  fields := [⟨⟨"key".toList, by decide⟩, ⟨"major".toList, by decide⟩⟩,
    ⟨⟨"gauge".toList, by decide⟩, ⟨"latency".toList, by decide⟩⟩]

theorem metadataToJson_document_block :
    ∃ after, metadataToJson 0 blockMeasurement (List.replicate 256 '\x00') 256 = some (after, 0) ∧
      JsonDoc.readDocument Imdb.jsonQuoting (metadataText 0 blockMeasurement) =
        some (metadataObject 0 blockMeasurement) := by
  have hroom : (List.replicate 256 '\x00').length = (256 : ℤ).toNat := List.length_replicate
  obtain ⟨after, ret, hrun, -, hret, hdocument, hcut⟩ := metadataToJson_document 0 blockMeasurement
    ⟨by decide, by decide, by decide⟩ (by decide) hroom
  have hlength : (metadataText 0 blockMeasurement).length = 163 := by decide +kernel
  rw [hlength] at hcut
  obtain rfl | rfl := hret
  · exact ⟨after, hrun, (hdocument rfl).2⟩
  · exact absurd (hcut.mp rfl) (by decide)

-- A quote in the version ends its string too early.
theorem metadataToJson_quote_in_version :
    ∃ mm : Measurement, NamesPlain mm ∧ ∃ jsonStr : CharBuffer, jsonStr.length = 160 ∧
      (metadataToJson 0 mm jsonStr 160).map (·.2) = some 0 ∧
      ((metadataToJson 0 mm jsonStr 160).bind (·.1.cString 0)).map
        (fun text => (JsonDoc.readDocument Imdb.jsonQuoting text).isSome) = some false := by
  refine ⟨⟨⟨[], by decide⟩, ⟨[], by decide⟩, ⟨"1\"0".toList, by decide⟩, []⟩,
    ⟨plain_nil, plain_nil, by simp⟩, List.replicate 160 '\x00', List.length_replicate, ?_, ?_⟩
  · decide +kernel
  · decide +kernel

end Result

end Gopher.Meta
