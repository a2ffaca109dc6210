import Gopher.Imdb

namespace Gopher.Imdb

open Gopher.Lib

-- A metric that `IMDB_BuildPrometheusLabel` prints.
def labelled (metric : Metric) : Bool :=
  metricTypeIsLabel metric && metric.val != INVALID_METRIC_VALUE

-- What it prints for the metrics, only the first one without a comma.
def metricPieces : (first : Bool) → List Metric → List Text
  | _, [] => []
  | first, metric :: metrics =>
      if labelled metric then
        ((if first then [] else [',']) ++ formatLabel metric.name metric.val) ::
          metricPieces false metrics
      else metricPieces first metrics

def appendedPiece (name val : Text) : List Text :=
  if val = [] then [] else [',' :: formatLabel name val]

def tgidPieces (env : Env) (record : Record) : List Text :=
  match record.metrics.reverse.find? metricNameIsTgid with
  | none => []
  | some metric =>
      match env.tgidRecord metric.val with
      | none => []
      | some tgidRecord =>
          appendedPiece "comm".toList tgidRecord.comm ++
            (appendedPiece "container_id".toList tgidRecord.containerId ++
              appendedPiece "pod_id".toList tgidRecord.podId)

-- Up to the question for the address of the host, and behind it.
def earlyPieces (env : Env) (record : Record) : List Text :=
  "\x7b".toList :: (metricPieces true record.metrics ++ tgidPieces env record)

def latePieces (nodeInfo : NodeInfo) (ip : Text) : List Text :=
  [',' :: formatLabel "machine_id".toList (nodeInfo.systemUuid ++ "-".toList ++ ip),
    "\x7d".toList]

def labelText (env : Env) (nodeInfo : NodeInfo) (record : Record) (ip : Text) : Text :=
  (earlyPieces env record).flatten ++ (latePieces nodeInfo ip).flatten

section Pieces

variable {cursor : Cursor}

theorem foldlM_append_eq (pieces rest : List Text) (cursor : Cursor) :
    (pieces ++ rest).foldlM snprintf cursor =
      (pieces.foldlM snprintf cursor).bind (rest.foldlM snprintf) := by
  rw [List.foldlM_append]
  rfl

theorem buildMetricLabels_eq (first : Bool) (metrics : List Metric) (cursor : Cursor) :
    buildMetricLabels first metrics cursor =
      (metricPieces first metrics).foldlM snprintf cursor := by
  induction metrics generalizing first cursor with
  | nil => rfl
  | cons metric metrics ih =>
      rw [buildMetricLabels, metricPieces, labelled]
      by_cases htype : metricTypeIsLabel metric = true
      · by_cases hval : metric.val = INVALID_METRIC_VALUE
        · simpa [htype, hval] using ih first cursor
        · simp [htype, hval, ih]
      · simpa [htype] using ih first cursor

theorem appendLabel_eq (name val : Text) (cursor : Cursor) :
    appendLabel name val cursor = (appendedPiece name val).foldlM snprintf cursor := by
  unfold appendLabel appendedPiece
  split_ifs
  · rfl
  · simp

theorem buildTgidLabels_eq (env : Env) (record : Record) (cursor : Cursor) :
    buildTgidLabels env record cursor = (tgidPieces env record).foldlM snprintf cursor := by
  unfold buildTgidLabels tgidPieces
  cases record.metrics.reverse.find? metricNameIsTgid with
  | none => rfl
  | some metric =>
      dsimp only
      cases env.tgidRecord metric.val with
      | none => rfl
      | some tgidRecord =>
          dsimp only
          rw [foldlM_append_eq, ← appendLabel_eq]
          refine Option.bind_congr fun middle _ => ?_
          rw [foldlM_append_eq, ← appendLabel_eq]
          refine Option.bind_congr fun last _ => ?_
          rw [appendLabel_eq]

-- Pieces fit all together or one of them does not.
theorem foldlM_snprintf (pieces : List Text) {cursor : Cursor} (hsize : 0 < cursor.size) :
    pieces.foldlM snprintf cursor =
      if pieces.flatten.length < cursor.size then
        some ⟨cursor.text ++ pieces.flatten, cursor.size - pieces.flatten.length⟩
      else none := by
  induction pieces generalizing cursor with
  | nil => simp [hsize]
  | cons piece pieces ih =>
      rw [List.foldlM_cons, snprintf, if_neg (by omega)]
      by_cases hfits : cursor.size ≤ piece.length
      · rw [if_pos hfits, if_neg (by rw [List.flatten_cons, List.length_append]; omega)]
        rfl
      · rw [if_neg hfits, Option.bind_eq_bind, Option.bind_some, ih (by dsimp only; omega),
          List.flatten_cons, List.length_append]
        dsimp only
        by_cases hall : (pieces.flatten.length : ℤ) < cursor.size - piece.length
        · rw [if_pos hall, if_pos (by push_cast; omega), List.append_assoc]
          push_cast
          rw [Int.sub_sub]
        · rw [if_neg hall, if_neg (by push_cast; omega)]

end Pieces

-- The text of all labels, if the host has an address and they fit.
theorem buildPrometheusLabel_eq (env : Env) (nodeInfo : NodeInfo) (record : Record) :
    buildPrometheusLabel env nodeInfo record = (hostIP env nodeInfo).bind fun ip =>
      if (labelText env nodeInfo record ip).length < MAX_LABELS_BUFFER_SIZE then
        some (labelText env nodeInfo record ip)
      else none := by
  have hsplit : buildPrometheusLabel env nodeInfo record =
      ((earlyPieces env record).foldlM snprintf ⟨[], MAX_LABELS_BUFFER_SIZE⟩).bind fun cursor =>
        (hostIP env nodeInfo).bind fun ip =>
          ((latePieces nodeInfo ip).foldlM snprintf cursor).map Cursor.text := by
    simp only [buildPrometheusLabel, earlyPieces, latePieces, List.foldlM_cons, List.foldlM_nil,
      foldlM_append_eq, buildMetricLabels_eq, buildTgidLabels_eq, Option.bind_eq_bind,
      Option.bind_assoc, Option.map_eq_bind]
    rfl
  have hsize : (0 : ℤ) < MAX_LABELS_BUFFER_SIZE := by decide
  cases hip : hostIP env nodeInfo with
  | none =>
      rw [hsplit, hip]
      simp only [Option.bind_none, Option.bind_fun_none]
  | some ip =>
      have hall : (((earlyPieces env record).foldlM snprintf ⟨[], MAX_LABELS_BUFFER_SIZE⟩).bind
          fun cursor => ((latePieces nodeInfo ip).foldlM snprintf cursor).map Cursor.text) =
            ((earlyPieces env record ++ latePieces nodeInfo ip).foldlM snprintf
              ⟨[], MAX_LABELS_BUFFER_SIZE⟩).map Cursor.text := by
        rw [foldlM_append_eq, Option.map_bind]
        rfl
      rw [hsplit, hip]
      simp only [Option.bind_some]
      rw [hall, foldlM_snprintf _ hsize, List.flatten_append, ← labelText]
      simp only [Int.ofNat_lt]
      split_ifs
      · rfl
      · rfl

end Gopher.Imdb
