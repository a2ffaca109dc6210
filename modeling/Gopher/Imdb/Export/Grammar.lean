import Gopher.Imdb
import Gopher.Imdb.Export
import Gopher.Imdb.Export.Labels
import Gopher.Imdb.Export.Theorems
import Gopher.Lib.Quoted

-- A reader of the text format of Prometheus, `name{label="value",...} value timestamp`.

namespace Gopher.Imdb

open Gopher.Lib

def unescapeLabel : Text → Option (Text × Text)
  | '\\' :: rest => some (['\\'], rest)
  | '"' :: rest => some (['"'], rest)
  | 'n' :: rest => some (['\n'], rest)
  | _ => none

-- The value of a label escapes the backslash, the quote and the newline.
def labelQuoting : Quoting where
  plain := fun char => char != '"' && char != '\\' && char != '\n'
  unescape := unescapeLabel
  quote_not_plain := by decide
  backslash_not_plain := by decide
  unescape_eq := by
    intro input decoded rest h
    unfold unescapeLabel at h
    split at h
    · cases h
      exact ⟨['\\'], rfl, by decide, by decide⟩
    · cases h
      exact ⟨['"'], rfl, by decide, by decide⟩
    · cases h
      exact ⟨['n'], rfl, by decide, by decide⟩
    · cases h

def isNameStart (char : Char) : Bool := char.isAlpha || char == '_'

def isNameChar (char : Char) : Bool := char.isAlphanum || char == '_'

def isMetricStart (char : Char) : Bool := isNameStart char || char == ':'

def isMetricChar (char : Char) : Bool := isNameChar char || char == ':'

def readName (start next : Char → Bool) (input : Text) : Option (Text × Text) :=
  let name := input.takeWhile next
  if name.head?.any start then some (name, input.dropWhile next) else none

def readPair (input : Text) : Option ((Text × Text) × Text) := do
  let (name, input) ← readName isNameStart isNameChar input
  let input ← expect '=' input
  let input ← expect '"' input
  let (value, input) ← labelQuoting.read input
  return ((name, value), input)

-- The labels behind the first one, up to the closing brace, which may follow a comma.
def readMore : (bound : ℕ) → Text → Option (List (Text × Text) × Text)
  | 0, _ => none
  | bound + 1, input =>
      if input.head? = some '\x7d' then some ([], input.tail)
      else do
        let input ← expect ',' input
        if input.head? = some '\x7d' then return ([], input.tail)
        let (pair, input) ← readPair input
        let (pairs, input) ← readMore bound input
        return (pair :: pairs, input)

def readPairs (input : Text) : Option (List (Text × Text) × Text) :=
  if input.head? = some '\x7d' then some ([], input.tail)
  else do
    let (pair, input) ← readPair input
    let (pairs, input) ← readMore (input.length + 1) input
    return (pair :: pairs, input)

structure Sample where
  name : Text
  labels : List (Text × Text)
  value : Text
  timestamp : ℤ
  deriving DecidableEq, Repr

-- `number` accepts what stands for a number.
def readLine (number : Text → Bool) (line : Text) : Option Sample := do
  let (name, input) ← readName isMetricStart isMetricChar line
  let input ← expect '\x7b' input
  let (labels, input) ← readPairs input
  let input ← expect ' ' input
  let value := input.takeWhile (· ≠ ' ')
  let input ← expect ' ' (input.dropWhile (· ≠ ' '))
  let timestamp ← readInteger input
  if number value then some ⟨name, labels, value, timestamp⟩ else none

-- The keys and labels of a record that have a value.
def recordPairs (record : Record) : List (Text × Text) :=
  (record.metrics.filter labelled).map fun metric => (metric.name, metric.val)

-- The process of the record, as far as it is known.
def tgidPairs (env : Env) (record : Record) : List (Text × Text) :=
  match record.metrics.reverse.find? metricNameIsTgid with
  | none => []
  | some metric =>
      match env.tgidRecord metric.val with
      | none => []
      | some tgidRecord =>
          [("comm".toList, tgidRecord.comm), ("container_id".toList, tgidRecord.containerId),
            ("pod_id".toList, tgidRecord.podId)].filter fun pair => pair.2 ≠ []

def machinePair (env : Env) (nodeInfo : NodeInfo) : Text × Text :=
  ("machine_id".toList, nodeInfo.systemUuid ++ "-".toList ++ (hostIP env nodeInfo).getD [])

def samplePairs (env : Env) (nodeInfo : NodeInfo) (record : Record) : List (Text × Text) :=
  recordPairs record ++ (tgidPairs env record ++ [machinePair env nodeInfo])

-- What a line should say of a metric.
def sampleOf (env : Env) (nodeInfo : NodeInfo) (record : Record) (entityName : Text)
    (metric : Metric) : Sample where
  name := formatMetrics entityName metric.name
  labels := samplePairs env nodeInfo record
  value := metric.val
  timestamp := env.now * THOUSAND

def PairReadable (pair : Text × Text) : Prop :=
  (pair.1.head?.any isNameStart = true ∧ ∀ char ∈ pair.1, isNameChar char = true) ∧
    ∀ char ∈ pair.2, labelQuoting.plain char = true

-- The record has a key or label of its own, the names are names, and no value needs an escape.
@[mk_iff]
structure Readable (number : Text → Bool) (env : Env) (nodeInfo : NodeInfo) (record : Record)
    (entityName : Text) (metric : Metric) : Prop where
  labelled : ∃ one ∈ record.metrics, labelled one = true
  labels : ∀ pair ∈ samplePairs env nodeInfo record, PairReadable pair
  name : ∀ char ∈ entityName ++ metric.name, isMetricChar char = true
  value : number metric.val = true

section Read

variable {start next : Char → Bool} {name rest left : Text} {char : Char}

-- A name in front of a character that does not belong to names.
theorem readName_eq_some_iff (hchar : next char = false) :
    readName start next (name ++ char :: rest) = some (name, left) ↔
      (name.head?.any start = true ∧ ∀ char ∈ name, next char = true) ∧ left = char :: rest := by
  constructor
  · intro h
    unfold readName at h
    dsimp only at h
    split_ifs at h with hstart
    rw [Option.some.injEq, Prod.mk.injEq] at h
    obtain ⟨hname, hleft⟩ := h
    have hsplit := List.takeWhile_append_dropWhile (p := next) (l := name ++ char :: rest)
    rw [hname, hleft] at hsplit
    rw [hname] at hstart
    refine ⟨⟨hstart, fun one hone => ?_⟩, List.append_cancel_left hsplit⟩
    rw [← hname] at hone
    exact List.mem_takeWhile_imp hone
  · rintro ⟨⟨hstart, hname⟩, rfl⟩
    obtain ⟨htake, hdrop⟩ := takeWhile_dropWhile_word rest hname hchar
    unfold readName
    dsimp only
    rw [htake, hdrop, if_pos hstart]

theorem formatLabel_append (name val rest : Text) :
    formatLabel name val ++ rest = name ++ '=' :: '"' :: (val ++ '"' :: rest) := by
  simp [formatLabel]

theorem readPair_eq_some_iff {pair : Text × Text} :
    readPair (formatLabel pair.1 pair.2 ++ rest) = some (pair, left) ↔
      PairReadable pair ∧ left = rest := by
  rw [formatLabel_append, readPair]
  constructor
  · intro h
    obtain ⟨⟨name, afterName⟩, hname, h⟩ := Option.bind_eq_some_iff.mp h
    obtain ⟨afterEqual, hequal, h⟩ := Option.bind_eq_some_iff.mp h
    obtain ⟨afterQuote, hquote, h⟩ := Option.bind_eq_some_iff.mp h
    obtain ⟨⟨value, afterValue⟩, hvalue, h⟩ := Option.bind_eq_some_iff.mp h
    cases h
    obtain ⟨hvalid, rfl⟩ := (readName_eq_some_iff (by decide)).mp hname
    rw [expect_cons, Option.some.injEq] at hequal
    rw [← hequal, expect_cons, Option.some.injEq] at hquote
    rw [← hquote] at hvalue
    obtain ⟨hplain, rfl⟩ := Quoting.read_verbatim_iff.mp hvalue
    exact ⟨⟨hvalid, hplain⟩, rfl⟩
  · rintro ⟨⟨hname, hvalue⟩, rfl⟩
    rw [(readName_eq_some_iff (by decide)).mpr ⟨hname, rfl⟩]
    simp [Quoting.read_verbatim_iff.mpr ⟨hvalue, rfl⟩]

-- The labels as they are printed, without a comma in front of the first one.
def appended (pairs : List (Text × Text)) : Text :=
  pairs.flatMap fun pair => ',' :: formatLabel pair.1 pair.2

theorem head?_of_pairReadable {pair : Text × Text} (hpair : PairReadable pair) (more : Text) :
    (formatLabel pair.1 pair.2 ++ more).head? ≠ some '\x7d' := by
  rw [formatLabel_append]
  cases hname : pair.1 with
  | nil => simp
  | cons first name =>
      have hfirst := hpair.1.2 first (by simp [hname])
      rw [List.cons_append, List.head?_cons, ne_eq, Option.some.injEq]
      rintro rfl
      revert hfirst
      decide

theorem readMore_eq_some_iff {pairs : List (Text × Text)} {bound : ℕ}
    (hbound : pairs.length < bound) :
    readMore bound (appended pairs ++ '\x7d' :: rest) = some (pairs, left) ↔
      (∀ pair ∈ pairs, PairReadable pair) ∧ left = rest := by
  induction pairs generalizing bound with
  | nil =>
      cases bound with
      | zero => cases hbound
      | succ bound => simp [readMore, appended, eq_comm]
  | cons pair pairs ih =>
      cases bound with
      | zero => cases hbound
      | succ bound =>
          have hinput : appended (pair :: pairs) ++ '\x7d' :: rest =
              ',' :: (formatLabel pair.1 pair.2 ++ (appended pairs ++ '\x7d' :: rest)) := by
            simp [appended]
          have hcomma : ¬ (',' :: (formatLabel pair.1 pair.2 ++
              (appended pairs ++ '\x7d' :: rest))).head? = some '\x7d' := by
            rw [List.head?_cons]
            decide
          rw [hinput, readMore, if_neg hcomma, expect_cons, List.forall_mem_cons]
          constructor
          · intro h
            simp only [Option.bind_eq_bind, Option.bind_some] at h
            split_ifs at h
            · cases h
            · obtain ⟨⟨first, more⟩, hfirst, h⟩ := Option.bind_eq_some_iff.mp h
              obtain ⟨⟨others, last⟩, hothers, h⟩ := Option.bind_eq_some_iff.mp h
              cases h
              obtain ⟨hpair, rfl⟩ := readPair_eq_some_iff.mp hfirst
              obtain ⟨hpairs, hleft⟩ := (ih (Nat.lt_of_succ_lt_succ hbound)).mp hothers
              exact ⟨⟨hpair, hpairs⟩, hleft⟩
          · rintro ⟨⟨hpair, hpairs⟩, hleft⟩
            have hothers := (ih (Nat.lt_of_succ_lt_succ hbound)).mpr ⟨hpairs, hleft⟩
            simp only [Option.bind_eq_bind, Option.bind_some,
              if_neg (head?_of_pairReadable hpair _), readPair_eq_some_iff.mpr ⟨hpair, rfl⟩,
              hothers]
            rfl

theorem length_le_length_appended (pairs : List (Text × Text)) :
    pairs.length ≤ (appended pairs).length := by
  induction pairs with
  | nil => exact Nat.le_refl _
  | cons pair pairs ih =>
      rw [appended, List.flatMap_cons, List.length_append, ← appended, List.length_cons,
        List.length_cons]
      omega

theorem readPairs_eq_some_iff {pair : Text × Text} {pairs : List (Text × Text)} :
    readPairs (formatLabel pair.1 pair.2 ++ (appended pairs ++ '\x7d' :: rest)) =
        some (pair :: pairs, left) ↔
      (∀ one ∈ pair :: pairs, PairReadable one) ∧ left = rest := by
  have hbound : pairs.length < (appended pairs ++ '\x7d' :: rest).length + 1 := by
    have hle := length_le_length_appended pairs
    rw [List.length_append]
    omega
  rw [readPairs, List.forall_mem_cons]
  constructor
  · intro h
    split_ifs at h
    · cases h
    · obtain ⟨⟨first, more⟩, hfirst, h⟩ := Option.bind_eq_some_iff.mp h
      obtain ⟨⟨others, last⟩, hothers, h⟩ := Option.bind_eq_some_iff.mp h
      cases h
      obtain ⟨hpair, rfl⟩ := readPair_eq_some_iff.mp hfirst
      obtain ⟨hpairs, hleft⟩ := (readMore_eq_some_iff hbound).mp hothers
      exact ⟨⟨hpair, hpairs⟩, hleft⟩
  · rintro ⟨⟨hpair, hpairs⟩, hleft⟩
    simp only [if_neg (head?_of_pairReadable hpair _), readPair_eq_some_iff.mpr ⟨hpair, rfl⟩,
      (readMore_eq_some_iff hbound).mpr ⟨hpairs, hleft⟩, Option.bind_eq_bind, Option.bind_some]
    rfl

-- A comma in front of the first label is not read.
theorem readPairs_comma (input : Text) : readPairs (',' :: input) = none := by
  have hname : readName isNameStart isNameChar (',' :: input) = none := by
    have hcomma : isNameChar ',' = false := by decide
    rw [readName, List.takeWhile_cons_of_neg (by simp [hcomma])]
    rfl
  have hbrace : ¬ (',' :: input).head? = some '\x7d' := by
    rw [List.head?_cons]
    decide
  rw [readPairs, if_neg hbrace, readPair, hname]
  rfl

end Read

section Print

variable {env : Env} {nodeInfo : NodeInfo} {record : Record}

theorem appended_append (pairs others : List (Text × Text)) :
    appended (pairs ++ others) = appended pairs ++ appended others := List.flatMap_append

theorem flatten_metricPieces_false (metrics : List Metric) :
    (metricPieces false metrics).flatten =
      appended ((metrics.filter labelled).map fun metric => (metric.name, metric.val)) := by
  induction metrics with
  | nil => rfl
  | cons metric metrics ih =>
      rw [metricPieces]
      by_cases hlabelled : labelled metric = true
      · rw [if_pos hlabelled, if_neg Bool.false_ne_true, List.filter_cons_of_pos hlabelled,
          List.flatten_cons, ih, List.map_cons, appended, appended, List.flatMap_cons]
        rfl
      · rw [if_neg hlabelled, List.filter_cons_of_neg hlabelled]
        exact ih

theorem flatten_metricPieces_true (metrics : List Metric) :
    (metricPieces true metrics).flatten =
      match (metrics.filter labelled).map fun metric => (metric.name, metric.val) with
      | [] => []
      | pair :: pairs => formatLabel pair.1 pair.2 ++ appended pairs := by
  induction metrics with
  | nil => rfl
  | cons metric metrics ih =>
      rw [metricPieces]
      by_cases hlabelled : labelled metric = true
      · rw [if_pos hlabelled, if_pos rfl, List.filter_cons_of_pos hlabelled, List.flatten_cons,
          flatten_metricPieces_false, List.map_cons]
        rfl
      · rw [if_neg hlabelled, List.filter_cons_of_neg hlabelled]
        exact ih

theorem flatten_appendedPiece (name val : Text) :
    (appendedPiece name val).flatten = appended ([(name, val)].filter fun pair => pair.2 ≠ []) := by
  unfold appendedPiece
  by_cases hval : val = []
  · simp [hval, appended]
  · simp [hval, appended]

theorem flatten_tgidPieces (env : Env) (record : Record) :
    (tgidPieces env record).flatten = appended (tgidPairs env record) := by
  unfold tgidPieces tgidPairs
  cases record.metrics.reverse.find? metricNameIsTgid with
  | none => rfl
  | some metric =>
      dsimp only
      cases env.tgidRecord metric.val with
      | none => rfl
      | some tgidRecord =>
          dsimp only
          rw [List.flatten_append, List.flatten_append, flatten_appendedPiece,
            flatten_appendedPiece, flatten_appendedPiece, ← appended_append, ← appended_append,
            ← List.filter_append, ← List.filter_append]
          rfl

theorem flatten_latePieces {ip : Text} (hip : hostIP env nodeInfo = some ip) :
    (latePieces nodeInfo ip).flatten = appended [machinePair env nodeInfo] ++ ['\x7d'] := by
  have hbrace : "\x7d".toList = ['\x7d'] := rfl
  unfold latePieces machinePair
  simp only [hip, hbrace, Option.getD_some, appended, List.flatMap_cons, List.flatMap_nil,
    List.flatten_cons, List.flatten_nil, List.append_nil]

theorem labelText_eq {ip : Text} (hip : hostIP env nodeInfo = some ip) :
    labelText env nodeInfo record ip = '\x7b' :: ((metricPieces true record.metrics).flatten ++
      (appended (tgidPairs env record ++ [machinePair env nodeInfo]) ++ ['\x7d'])) := by
  have hbrace : "\x7b".toList = ['\x7b'] := rfl
  simp only [labelText, earlyPieces, List.flatten_cons, List.flatten_append, flatten_tgidPieces,
    flatten_latePieces hip, appended_append, hbrace, List.append_assoc, List.cons_append,
    List.nil_append]

end Print

theorem formatMetrics_valid_iff (entityName metricsName : Text) :
    ((formatMetrics entityName metricsName).head?.any isMetricStart = true ∧
        ∀ char ∈ formatMetrics entityName metricsName, isMetricChar char = true) ↔
      ∀ char ∈ entityName ++ metricsName, isMetricChar char = true := by
  have hhead : "gala_gopher_".toList = 'g' :: "ala_gopher_".toList := by decide +kernel
  have hchars : ∀ char ∈ "gala_gopher_".toList, isMetricChar char = true := by decide +kernel
  have hbar : isMetricChar '_' = true := by decide
  unfold formatMetrics
  constructor
  · rintro ⟨-, hall⟩ char hchar
    apply hall
    obtain hentity | hname := List.mem_append.mp hchar
    · exact List.mem_append_right _ (List.mem_append_left _ hentity)
    · exact List.mem_append_right _ (List.mem_append_right _ (List.mem_cons_of_mem _ hname))
  · intro hall
    refine ⟨?_, fun char hchar => ?_⟩
    · rw [hhead, List.cons_append, List.head?_cons, Option.any_some]
      decide
    · obtain hfirst | hrest := List.mem_append.mp hchar
      · exact hchars char hfirst
      · obtain hentity | hname := List.mem_append.mp hrest
        · exact hall char (List.mem_append_left _ hentity)
        · obtain rfl | hmem := List.mem_cons.mp hname
          · exact hbar
          · exact hall char (List.mem_append_right _ hmem)

-- The value and the timestamp behind the labels.
def ValueRead (number : Text → Bool) (rest value : Text) (timestamp : ℤ) : Prop :=
  ∃ input last, rest = ' ' :: input ∧ input.takeWhile (· ≠ ' ') = value ∧
    input.dropWhile (· ≠ ' ') = ' ' :: last ∧ readInteger last = some timestamp ∧
    number value = true

theorem readLine_eq_some_iff (number : Text → Bool) (input : Text) (sample : Sample) :
    readLine number (sample.name ++ '\x7b' :: input) = some sample ↔
      (sample.name.head?.any isMetricStart = true ∧
        ∀ char ∈ sample.name, isMetricChar char = true) ∧
      ∃ rest, readPairs input = some (sample.labels, rest) ∧
        ValueRead number rest sample.value sample.timestamp := by
  have hbrace : isMetricChar '\x7b' = false := by decide
  constructor
  · intro h
    unfold readLine at h
    obtain ⟨⟨name, afterName⟩, hname, h⟩ := Option.bind_eq_some_iff.mp h
    obtain ⟨afterBrace, hexpect, h⟩ := Option.bind_eq_some_iff.mp h
    obtain ⟨⟨labels, rest⟩, hlabels, h⟩ := Option.bind_eq_some_iff.mp h
    obtain ⟨afterBlank, hblank, h⟩ := Option.bind_eq_some_iff.mp h
    obtain ⟨last, hlast, h⟩ := Option.bind_eq_some_iff.mp h
    obtain ⟨timestamp, htimestamp, h⟩ := Option.bind_eq_some_iff.mp h
    split_ifs at h with hnumber
    cases h
    obtain ⟨hvalid, rfl⟩ := (readName_eq_some_iff hbrace).mp hname
    rw [expect_cons, Option.some.injEq] at hexpect
    subst hexpect
    exact ⟨hvalid, rest, hlabels, afterBlank, last, expect_eq_some_iff.mp hblank, rfl,
      expect_eq_some_iff.mp hlast, htimestamp, hnumber⟩
  · rintro ⟨hvalid, rest, hlabels, afterBlank, last, rfl, hvalue, hlast, htimestamp, hnumber⟩
    rw [readLine, (readName_eq_some_iff hbrace).mpr ⟨hvalid, rfl⟩]
    simp only [Option.bind_eq_bind, Option.bind_some, expect_cons, hlabels, hlast, htimestamp,
      hvalue, hnumber, ite_true]

section Line

variable {number : Text → Bool} {env : Env} {nodeInfo : NodeInfo} {record : Record}
  {entityName : Text} {metric : Metric}

theorem valueRead_iff (hnumber : ∀ text, number text = true → ' ' ∉ text) (val : Text) (n : ℤ) :
    ValueRead number (' ' :: (val ++ ' ' :: formatInt n)) val n ↔ number val = true := by
  constructor
  · rintro ⟨-, -, -, -, -, -, hval⟩
    exact hval
  · intro hval
    have hblank : ∀ char ∈ val, decide (char ≠ ' ') = true :=
      fun char hchar => decide_eq_true fun hspace => hnumber val hval (hspace ▸ hchar)
    obtain ⟨htake, hdrop⟩ := takeWhile_dropWhile_word (formatInt n) hblank
      (decide_eq_false (not_not_intro rfl))
    exact ⟨_, formatInt n, rfl, htake, hdrop, readInteger_formatInt n, hval⟩

-- The line behind the name of the metric.
theorem metricLine_eq {ip : Text} (hip : hostIP env nodeInfo = some ip) :
    metricLine env entityName (labelText env nodeInfo record ip) metric =
      formatMetrics entityName metric.name ++ '\x7b' ::
        ((metricPieces true record.metrics).flatten ++
          (appended (tgidPairs env record ++ [machinePair env nodeInfo]) ++ '\x7d' :: ' ' ::
            (metric.val ++ ' ' :: formatInt (env.now * THOUSAND)))) := by
  rw [metricLine, formatValue, labelText_eq hip]
  simp only [List.cons_append, List.append_assoc, List.nil_append]

theorem recordPairs_eq_nil_iff :
    recordPairs record = [] ↔ ¬∃ one ∈ record.metrics, labelled one = true := by
  rw [recordPairs, List.map_eq_nil_iff, List.filter_eq_nil_iff]
  simp

-- A record with a label of its own is read with all its labels, one without is not read,
-- since a comma stands behind the opening brace.
theorem readPairs_labels_iff {rest left : Text} :
    readPairs ((metricPieces true record.metrics).flatten ++
        (appended (tgidPairs env record ++ [machinePair env nodeInfo]) ++ '\x7d' :: rest)) =
      some (samplePairs env nodeInfo record, left) ↔
    (∃ one ∈ record.metrics, labelled one = true) ∧
      (∀ pair ∈ samplePairs env nodeInfo record, PairReadable pair) ∧ left = rest := by
  rw [flatten_metricPieces_true, ← recordPairs]
  cases hpairs : recordPairs record with
  | nil =>
      have hunlabelled := recordPairs_eq_nil_iff.mp hpairs
      obtain ⟨more, hcomma⟩ : ∃ more, appended (tgidPairs env record ++
          [machinePair env nodeInfo]) ++ '\x7d' :: rest = ',' :: more := by
        cases tgidPairs env record with
        | nil => exact ⟨_, rfl⟩
        | cons pair pairs => exact ⟨_, rfl⟩
      dsimp only
      rw [List.nil_append, hcomma, readPairs_comma]
      exact iff_of_false (by simp) (fun h => hunlabelled h.1)
  | cons pair pairs =>
      have hlabelled : ∃ one ∈ record.metrics, labelled one = true := by
        by_contra hnone
        rw [recordPairs_eq_nil_iff.mpr hnone] at hpairs
        cases hpairs
      have happend : samplePairs env nodeInfo record =
          pair :: (pairs ++ (tgidPairs env record ++ [machinePair env nodeInfo])) := by
        rw [samplePairs, hpairs, List.cons_append]
      dsimp only
      rw [happend, List.append_assoc, ← List.append_assoc (appended pairs), ← appended_append,
        readPairs_eq_some_iff]
      exact ⟨fun h => ⟨hlabelled, h⟩, fun h => h.2⟩

theorem readLine_metricLine_iff (hnumber : ∀ text, number text = true → ' ' ∉ text) {ip : Text}
    (hip : hostIP env nodeInfo = some ip) :
    readLine number (metricLine env entityName (labelText env nodeInfo record ip) metric) =
        some (sampleOf env nodeInfo record entityName metric) ↔
      Readable number env nodeInfo record entityName metric := by
  rw [metricLine_eq hip]
  refine (readLine_eq_some_iff number _ (sampleOf env nodeInfo record entityName metric)).trans ?_
  constructor
  · rintro ⟨hname, rest, hpairs, hvalue⟩
    obtain ⟨hlabelled, hreadable, rfl⟩ := readPairs_labels_iff.mp hpairs
    exact ⟨hlabelled, hreadable, (formatMetrics_valid_iff _ _).mp hname,
      (valueRead_iff hnumber _ _).mp hvalue⟩
  · rintro ⟨hlabelled, hreadable, hname, hvalue⟩
    exact ⟨(formatMetrics_valid_iff _ _).mpr hname, _,
      readPairs_labels_iff.mpr ⟨hlabelled, hreadable, rfl⟩, (valueRead_iff hnumber _ _).mpr hvalue⟩

theorem newline_not_mem_formatLabel {pair : Text × Text} (hpair : PairReadable pair) :
    '\n' ∉ formatLabel pair.1 pair.2 := by
  have hname : '\n' ∉ pair.1 := by
    intro hmem
    have hchar := hpair.1.2 '\n' hmem
    revert hchar
    decide
  have hvalue : '\n' ∉ pair.2 := by
    intro hmem
    have hchar := hpair.2 '\n' hmem
    revert hchar
    decide
  simp [formatLabel, hname, hvalue]

theorem newline_not_mem_appended {pairs : List (Text × Text)}
    (hpairs : ∀ pair ∈ pairs, PairReadable pair) : '\n' ∉ appended pairs := by
  intro hmem
  obtain ⟨pair, hpair, hchar⟩ := List.mem_flatMap.mp hmem
  obtain hcomma | hlabel := List.mem_cons.mp hchar
  · revert hcomma
    decide
  · exact newline_not_mem_formatLabel (hpairs pair hpair) hlabel

theorem newline_not_mem_metricLine (hnumber : ∀ text, number text = true → '\n' ∉ text) {ip : Text}
    (hip : hostIP env nodeInfo = some ip)
    (h : Readable number env nodeInfo record entityName metric) :
    '\n' ∉ metricLine env entityName (labelText env nodeInfo record ip) metric := by
  have hname : '\n' ∉ formatMetrics entityName metric.name := by
    intro hmem
    have hchar := ((formatMetrics_valid_iff entityName metric.name).mpr h.name).2 '\n' hmem
    revert hchar
    decide
  have hfront : '\n' ∉ (metricPieces true record.metrics).flatten := by
    have hlabels := h.labels
    rw [flatten_metricPieces_true, ← recordPairs]
    rw [samplePairs] at hlabels
    cases hpairs : recordPairs record with
    | nil => exact List.not_mem_nil
    | cons pair pairs =>
        rw [hpairs, List.cons_append, List.forall_mem_cons, List.forall_mem_append] at hlabels
        exact List.not_mem_append (newline_not_mem_formatLabel hlabels.1)
          (newline_not_mem_appended hlabels.2.1)
  have hback : '\n' ∉ appended (tgidPairs env record ++ [machinePair env nodeInfo]) := by
    apply newline_not_mem_appended
    intro pair hpair
    exact h.labels pair (List.mem_append_right _ hpair)
  have htimestamp : '\n' ∉ formatInt (env.now * THOUSAND) := by
    intro hmem
    have hchar := isDigit_of_mem_formatInt hmem
    revert hchar
    decide
  rw [metricLine_eq hip]
  simp only [List.mem_append, List.mem_cons, not_or]
  exact ⟨hname, by decide, hfront, hback, by decide, by decide, hnumber metric.val h.value,
    by decide, htimestamp⟩

end Line

-- What stands for a number has no blank and no newline in it. The text that the exporter writes
-- for a metric is one line and is read back as the sample of the metric exactly if the record
-- has a label of its own, the names are names, no label needs an escape and the value is a
-- number.
theorem exported_line_read_iff (number : Text → Bool)
    (hnumber : ∀ text, number text = true → ' ' ∉ text ∧ '\n' ∉ text) (env : Env)
    (nodeInfo : NodeInfo) (record : Record) (entityName : Text) (metric : Metric) (maxLen : UInt32)
    (labels line : Text) (hlabels : buildPrometheusLabel env nodeInfo record = some labels)
    (hline : buildPrometheusMetrics env metric maxLen.toNat entityName labels =
      some (line ++ ['\n'])) :
    ('\n' ∉ line ∧ readLine number line = some (sampleOf env nodeInfo record entityName metric)) ↔
      Readable number env nodeInfo record entityName metric := by
  rw [buildPrometheusLabel_eq, Option.bind_eq_some_iff] at hlabels
  obtain ⟨ip, hip, hlabels⟩ := hlabels
  rw [buildPrometheusMetrics_eq env metric maxLen.toNat_lt] at hline
  split_ifs at hlabels hline
  rw [Option.some.injEq] at hlabels hline
  have hread : readLine number (metricLine env entityName (labelText env nodeInfo record ip)
      metric) = some (sampleOf env nodeInfo record entityName metric) ↔
        Readable number env nodeInfo record entityName metric :=
    readLine_metricLine_iff (fun text h => (hnumber text h).1) hip
  rw [← List.append_cancel_right hline, ← hlabels, hread, and_iff_right_iff_imp]
  exact newline_not_mem_metricLine (fun text h => (hnumber text h).2) hip

def allDigits (text : Text) : Bool := text.all Char.isDigit

theorem allDigits_noBlank (text : Text) (h : allDigits text = true) :
    ' ' ∉ text ∧ '\n' ∉ text := by
  rw [allDigits, List.all_eq_true] at h
  constructor
  · intro hmem
    have hdigit := h ' ' hmem
    revert hdigit
    decide
  · intro hmem
    have hdigit := h '\n' hmem
    revert hdigit
    decide

-- A record with a key and a value.
def keyedRecord (val : Text) : Record :=
  ⟨[1], 5, [⟨METRIC_TYPE_KEY, "ip".toList, val⟩, cutMetric "rx".toList]⟩

theorem exported_line_read_iff_keyed : ∃ labels line,
    buildPrometheusLabel cutEnv cutMgr.nodeInfo (keyedRecord "::1".toList) = some labels ∧
    buildPrometheusMetrics cutEnv (cutMetric "rx".toList) 4096 "tcp".toList labels =
      some (line ++ ['\n']) ∧
    readLine allDigits line = some (sampleOf cutEnv cutMgr.nodeInfo (keyedRecord "::1".toList)
      "tcp".toList (cutMetric "rx".toList)) := by
  have hlabels : buildPrometheusLabel cutEnv cutMgr.nodeInfo (keyedRecord "::1".toList) =
      some "\x7bip=\"::1\",machine_id=\"u-10.0.0.1\"\x7d".toList := by decide +kernel
  have hline : buildPrometheusMetrics cutEnv (cutMetric "rx".toList) (4096 : UInt32).toNat
      "tcp".toList "\x7bip=\"::1\",machine_id=\"u-10.0.0.1\"\x7d".toList =
        some ("gala_gopher_tcp_rx\x7bip=\"::1\",machine_id=\"u-10.0.0.1\"\x7d 1 7000".toList ++
          ['\n']) := by decide +kernel
  have hreadable : Readable allDigits cutEnv cutMgr.nodeInfo (keyedRecord "::1".toList)
      "tcp".toList (cutMetric "rx".toList) :=
    ⟨by decide, by unfold PairReadable; decide, by decide, by decide⟩
  exact ⟨_, _, hlabels, hline, ((exported_line_read_iff allDigits allDigits_noBlank _ _ _ _ _ 4096
    _ _ hlabels hline).mpr hreadable).2⟩

-- Without a key or label of its own the record gets a comma in front of `machine_id`, and the
-- quotes of a value end it.
theorem exported_line_unread :
    buildPrometheusLabel cutEnv cutMgr.nodeInfo ⟨[1], 5, [cutMetric "rx".toList]⟩ =
      some "\x7b,machine_id=\"u-10.0.0.1\"\x7d".toList ∧
    readLine allDigits "gala_gopher_tcp_rx\x7b,machine_id=\"u-10.0.0.1\"\x7d 1 7000".toList =
      none ∧
    ¬∀ (number : Text → Bool), (∀ text, number text = true → ' ' ∉ text ∧ '\n' ∉ text) →
      ∀ (env : Env) (nodeInfo : NodeInfo) (record : Record) (entityName : Text) (metric : Metric)
        (maxLen : UInt32) (labels line : Text),
        buildPrometheusLabel env nodeInfo record = some labels →
        buildPrometheusMetrics env metric maxLen.toNat entityName labels = some (line ++ ['\n']) →
        number metric.val = true →
        readLine number line = some (sampleOf env nodeInfo record entityName metric) := by
  have hlabels : buildPrometheusLabel cutEnv cutMgr.nodeInfo ⟨[1], 5, [cutMetric "rx".toList]⟩ =
      some "\x7b,machine_id=\"u-10.0.0.1\"\x7d".toList := by decide +kernel
  have hline : buildPrometheusMetrics cutEnv (cutMetric "rx".toList) (4096 : UInt32).toNat
      "tcp".toList "\x7b,machine_id=\"u-10.0.0.1\"\x7d".toList =
        some ("gala_gopher_tcp_rx\x7b,machine_id=\"u-10.0.0.1\"\x7d 1 7000".toList ++ ['\n']) := by
    decide +kernel
  have hnone : readLine allDigits
      "gala_gopher_tcp_rx\x7b,machine_id=\"u-10.0.0.1\"\x7d 1 7000".toList = none := by
    decide +kernel
  refine ⟨hlabels, hnone, fun h => ?_⟩
  have hread := h allDigits allDigits_noBlank _ _ _ _ _ _ _ _ hlabels hline (by decide)
  rw [hnone] at hread
  cases hread

end Gopher.Imdb
