import Gopher.L7.Pgsql

namespace Gopher.L7

variable {α β : Type}

namespace Decoder

-- A decoder that sees only the unread bytes of its chunk.
def Local (decoder : Decoder α) : Prop :=
  ∀ raw other : RawData, raw.unread = other.unread →
    (decoder raw).1 = (decoder other).1 ∧ (decoder raw).2.unread = (decoder other).2.unread

theorem Local.bind {decoder : Decoder α} {next : α → Decoder β} (hdecoder : decoder.Local)
    (hnext : ∀ value, (next value).Local) : (decoder >>= next).Local := by
  intro raw other hunread
  obtain ⟨hvalue, hrest⟩ := hdecoder raw other hunread
  rcases hraw : decoder raw with ⟨value, after⟩
  rcases hother : decoder other with ⟨value', after'⟩
  simp only [hraw, hother] at hvalue hrest
  subst hvalue
  cases value with
  | ok value =>
      rw [bind_ok hraw, bind_ok hother]
      exact hnext value after after' hrest
  | error state =>
      rw [bind_error hraw, bind_error hother]
      exact ⟨rfl, hrest⟩

theorem local_extract (len : ℕ) (value : List UInt8 → α) : (extract len value).Local := by
  intro raw other hunread
  have hlen := congrArg List.length hunread
  rw [RawData.length_unread, RawData.length_unread] at hlen
  simp only [extract, hlen, hunread]
  split_ifs
  · exact ⟨rfl, hunread⟩
  · exact ⟨rfl, by rw [unread_offset, unread_offset, hunread]⟩

theorem local_pure (value : α) : (pure value : Decoder α).Local := fun _ _ hunread =>
  ⟨rfl, hunread⟩

theorem local_fail (state : ParseState) : (fail state : Decoder α).Local := fun _ _ hunread =>
  ⟨rfl, hunread⟩

end Decoder

theorem local_untilChar (searchChar : UInt8) :
    (decoderExtractStrUntilChar searchChar).Local := by
  intro raw other hunread
  simp only [decoderExtractStrUntilChar, hunread]
  split
  · exact ⟨rfl, hunread⟩
  · exact ⟨rfl, by rw [unread_offset, unread_offset, hunread]⟩

namespace Pgsql

theorem noDataLeft_iff (raw : RawData) : noDataLeft raw = true ↔ raw.unread = [] := by
  have hle := raw.currentPos_le
  rw [← List.length_eq_zero_iff, RawData.length_unread]
  simp only [noDataLeft, Bool.or_eq_true, beq_iff_eq]
  omega

theorem noDataLeft_congr {raw other : RawData} (h : raw.unread = other.unread) :
    noDataLeft raw = noDataLeft other := by
  rw [Bool.eq_iff_iff, noDataLeft_iff, noDataLeft_iff, h]

theorem local_checkRawDataLen : checkRawDataLen.Local := by
  intro raw other hunread
  simp only [checkRawDataLen, noDataLeft_congr hunread]
  split_ifs
  · exact ⟨rfl, hunread⟩
  · exact ⟨rfl, hunread⟩

theorem local_startupPair : startupPair.Local := by
  refine (local_untilChar 0).bind fun name => ?_
  split_ifs
  · exact Decoder.local_pure false
  · refine (local_untilChar 0).bind fun value => ?_
    split_ifs
    · exact Decoder.local_fail .invalid
    · exact Decoder.local_pure true

theorem startupNameValue_eq (raw : RawData) :
    pgsqlParseStartupNameValue raw =
      if raw.currentPos < raw.data.length then
        match startupPair raw with
        | (.error state, next) => (.error state, next)
        | (.ok false, next) => (.ok (), next)
        | (.ok true, next) => pgsqlParseStartupNameValue next
      else (.ok (), raw) := by
  rw [pgsqlParseStartupNameValue.eq_def]
  split_ifs
  · split <;> simp [*]
  · rfl

theorem local_startupNameValue : Decoder.Local pgsqlParseStartupNameValue := by
  intro raw
  induction hn : raw.unread.length using Nat.strong_induction_on generalizing raw with
  | _ n ih =>
      intro other hunread
      have hlen := congrArg List.length hunread
      rw [RawData.length_unread, RawData.length_unread] at hlen
      have hlt : raw.currentPos < raw.data.length ↔ other.currentPos < other.data.length := by omega
      obtain ⟨hmore, hrest⟩ := local_startupPair raw other hunread
      rw [startupNameValue_eq raw, startupNameValue_eq other]
      simp only [hlt]
      split_ifs
      · rcases hraw : startupPair raw with ⟨value, after⟩
        rcases hother : startupPair other with ⟨value', after'⟩
        simp only [hraw, hother] at hmore hrest
        subst hmore
        cases value with
        | error state => exact ⟨rfl, hrest⟩
        | ok more =>
            cases more with
            | false => exact ⟨rfl, hrest⟩
            | true =>
                have hshort := unread_length_startupPair hraw
                exact ih after.unread.length (by omega) after rfl after' hrest
      · exact ⟨rfl, hunread⟩

theorem local_startupMsg : pgsqlParseStartupMsg.Local := by
  refine local_checkRawDataLen.bind fun _ => ?_
  refine (Decoder.local_extract _ _).bind fun len => ?_
  refine (Decoder.local_extract _ _).bind fun _ => ?_
  refine (Decoder.local_extract _ _).bind fun _ => ?_
  intro raw other hunread
  have hlen := congrArg List.length hunread
  rw [RawData.length_unread, RawData.length_unread] at hlen
  have hsame : startupTooLong raw len = startupTooLong other len := by
    simp only [startupTooLong, hlen]
  by_cases hlong : startupTooLong other len = true
  · simp only [hsame, hlong, ite_true]
    exact ⟨trivial, hunread⟩
  · simp only [hsame, hlong, Bool.false_eq_true, ite_false]
    exact local_startupNameValue raw other hunread

-- A tag, a length of at least four and the payload it announces.
def RegularFits (bytes : List UInt8) : Prop :=
  5 ≤ bytes.length ∧ REGULAR_MSG_MIN_LEN ≤ bigEndianBytesToInt 4 ((bytes.drop 1).take 4) ∧
    (bigEndianBytesToInt 4 ((bytes.drop 1).take 4) - REGULAR_MSG_MIN_LEN).toNat ≤ bytes.length - 5

theorem orState_extract (len : ℕ) (value : List UInt8 → α) (raw : RawData) :
    (Decoder.extract len value).orState .needsMoreData raw = Decoder.extract len value raw := by
  simp only [Decoder.orState, Decoder.extract]
  split_ifs <;> rfl

theorem extract_of_lt {len : ℕ} (value : List UInt8 → α) {raw : RawData}
    (h : raw.unread.length < len) : Decoder.extract len value raw = (.error .needsMoreData, raw) := by
  rw [RawData.length_unread] at h
  simp only [Decoder.extract, h, ite_true]

theorem extract_of_le {len : ℕ} (value : List UInt8 → α) {raw : RawData}
    (h : len ≤ raw.unread.length) :
    Decoder.extract len value raw =
      (.ok (value (raw.unread.take len)), parserRawDataOffset raw len) := by
  rw [RawData.length_unread] at h
  simp only [Decoder.extract, show ¬raw.data.length - raw.currentPos < len by omega, ite_false]

theorem checkRawDataLen_of_unread {raw : RawData} (h : raw.unread ≠ []) :
    checkRawDataLen raw = (.ok (), raw) := by
  have hleft : ¬noDataLeft raw = true := fun hleft => h ((noDataLeft_iff raw).mp hleft)
  simp only [checkRawDataLen, hleft, Bool.false_eq_true, ite_false]

theorem extractChar_of_unread {raw : RawData} (h : raw.unread ≠ []) :
    decoderExtractChar.orState .needsMoreData raw =
      (.ok ((raw.unread.take 1).getD 0 0), parserRawDataOffset raw 1) := by
  have hlen := List.length_pos_iff.mpr h
  rw [decoderExtractChar, orState_extract, extract_of_le _ (by omega)]

theorem extractInt32_of_lt {raw : RawData} (h : raw.unread.length < 4) :
    decoderExtractInt32.orState .needsMoreData raw = (.error .needsMoreData, raw) := by
  rw [decoderExtractInt32, decoderExtractInt, orState_extract, extract_of_lt _ h]

theorem extractInt32_of_le {raw : RawData} (h : 4 ≤ raw.unread.length) :
    decoderExtractInt32.orState .needsMoreData raw =
      (.ok (bigEndianBytesToInt 4 (raw.unread.take 4)), parserRawDataOffset raw 4) := by
  rw [decoderExtractInt32, decoderExtractInt, orState_extract, extract_of_le _ h]

-- What follows the tag and the length.
def regularPayload (timestampNs : UInt64) (tag : UInt8) (len : Int) : Decoder PgsqlRegularMsg :=
  if len < REGULAR_MSG_MIN_LEN then Decoder.fail .invalid
  else do
    let payloadData ← (decoderExtractRawDataWithLen (len - REGULAR_MSG_MIN_LEN).toNat).orState
      .needsMoreData
    return { timestampNs := timestampNs, tag := tag, len := len, payloadData := payloadData }

theorem regularPayload_isOk_iff (timestampNs : UInt64) (tag : UInt8) (len : Int) (raw : RawData) :
    (regularPayload timestampNs tag len raw).1.isOk = true ↔
      REGULAR_MSG_MIN_LEN ≤ len ∧ (len - REGULAR_MSG_MIN_LEN).toNat ≤ raw.unread.length := by
  unfold regularPayload
  split_ifs with hmin
  · simp only [Decoder.fail, Except.isOk, Except.toBool, Bool.false_eq_true, false_iff, not_and]
    omega
  · by_cases hshort : raw.unread.length < (len - REGULAR_MSG_MIN_LEN).toNat
    · have hfail : (decoderExtractRawDataWithLen (len - REGULAR_MSG_MIN_LEN).toNat).orState
          .needsMoreData raw = (.error .needsMoreData, raw) := by
        rw [decoderExtractRawDataWithLen, orState_extract, extract_of_lt _ hshort]
      rw [Decoder.bind_error hfail]
      simp only [Except.isOk, Except.toBool, Bool.false_eq_true, false_iff, not_and]
      omega
    · have hok : (decoderExtractRawDataWithLen (len - REGULAR_MSG_MIN_LEN).toNat).orState
          .needsMoreData raw = (.ok (raw.unread.take (len - REGULAR_MSG_MIN_LEN).toNat),
            parserRawDataOffset raw (len - REGULAR_MSG_MIN_LEN).toNat) := by
        rw [decoderExtractRawDataWithLen, orState_extract, extract_of_le _ (by omega), id]
      rw [Decoder.bind_ok hok]
      simp only [pure, Except.isOk, Except.toBool, true_iff]
      omega

theorem regularMsg_isOk_iff (timestampNs : UInt64) (raw : RawData) :
    (pgsqlParseRegularMsg timestampNs raw).1.isOk = true ↔ RegularFits raw.unread := by
  have hmsg : pgsqlParseRegularMsg timestampNs = (checkRawDataLen >>= fun _ =>
      decoderExtractChar.orState .needsMoreData >>= fun tag =>
      decoderExtractInt32.orState .needsMoreData >>= regularPayload timestampNs tag) := rfl
  rw [hmsg]
  unfold RegularFits
  by_cases hempty : raw.unread = []
  · have hcheck : checkRawDataLen raw = (.error .needsMoreData, raw) := by
      simp only [checkRawDataLen, (noDataLeft_iff raw).mpr hempty, ite_true]
    rw [Decoder.bind_error hcheck, hempty]
    simp [Except.isOk, Except.toBool]
  have htag := unread_offset raw 1
  have hlength := congrArg List.length htag
  rw [List.length_drop] at hlength
  rw [Decoder.bind_ok (checkRawDataLen_of_unread hempty),
    Decoder.bind_ok (extractChar_of_unread hempty)]
  by_cases hshort : (parserRawDataOffset raw 1).unread.length < 4
  · rw [Decoder.bind_error (extractInt32_of_lt hshort)]
    simp only [Except.isOk, Except.toBool, Bool.false_eq_true, false_iff, not_and]
    omega
  · rw [Decoder.bind_ok (extractInt32_of_le (by omega)), regularPayload_isOk_iff,
      unread_offset (parserRawDataOffset raw 1), htag, List.drop_drop, List.length_drop]
    have hfive : 5 ≤ raw.unread.length := by omega
    simp only [hfive, true_and]

-- Whether a frame comes out depends on the bytes the startup message leaves, and
-- not on the memory it was read into.
theorem parseFrame_isOk_iff (junk : Bool) (raw : RawData) :
    (pgsqlParseFrame junk raw).1.isOk = true ↔ RegularFits (pgsqlParseStartupMsg raw).2.unread := by
  unfold pgsqlParseFrame
  by_cases hempty : raw.unread = []
  · have hleft := (noDataLeft_iff raw).mpr hempty
    have hstartup : pgsqlParseStartupMsg raw = (.error .needsMoreData, raw) := by
      apply Decoder.bind_error
      simp only [checkRawDataLen, hleft, ite_true]
    rw [if_pos hleft, hstartup, hempty]
    simp [Except.isOk, Except.toBool, RegularFits]
  have hleft : ¬noDataLeft raw = true := fun hleft => hempty ((noDataLeft_iff raw).mp hleft)
  rw [if_neg hleft]
  rcases hstartup : pgsqlParseStartupMsg raw with ⟨outcome, next⟩
  cases outcome with
  | error state => exact regularMsg_isOk_iff _ next
  | ok value =>
      dsimp only
      split_ifs with hend
      · simp only [Bool.and_eq_true, beq_iff_eq] at hend
        have hunread : next.unread = [] := by
          rw [RawData.unread, hend.2, List.drop_length]
        rw [hunread]
        simp [Except.isOk, Except.toBool, RegularFits]
      · exact regularMsg_isOk_iff _ next

-- The bytes are taken for a frame when they arrive as one chunk.
def ParsesAsFrame (bytes : List UInt8) : Prop :=
  (pgsqlParseFrame false (.create bytes 0)).1.isOk = true

theorem parseFrame_isOk_of_unread (junk : Bool) (raw : RawData) :
    (pgsqlParseFrame junk raw).1.isOk = true ↔ ParsesAsFrame raw.unread := by
  have hunread : raw.unread = (RawData.create raw.unread 0).unread := rfl
  rw [ParsesAsFrame, parseFrame_isOk_iff, parseFrame_isOk_iff, (local_startupMsg _ _ hunread).2]

theorem currentPos_of_unread {raw : RawData} (h : raw.unread.length = 0) :
    raw.currentPos = raw.data.length := by
  have hle := raw.currentPos_le
  rw [RawData.length_unread] at h
  omega

-- A chunk with a single unread byte is read to its end and more is asked for.
theorem parseFrame_of_short (junk : Bool) {raw : RawData} (h : raw.unread.length ≤ 1) :
    ∃ next, pgsqlParseFrame junk raw = (.error .needsMoreData, next) ∧
      next.currentPos = raw.data.length := by
  unfold pgsqlParseFrame
  by_cases hempty : raw.unread = []
  · rw [if_pos ((noDataLeft_iff raw).mpr hempty)]
    exact ⟨raw, rfl, currentPos_of_unread (by rw [hempty]; rfl)⟩
  have hstartup : pgsqlParseStartupMsg raw = (.error .needsMoreData, raw) := by
    unfold pgsqlParseStartupMsg
    rw [Decoder.bind_ok (checkRawDataLen_of_unread hempty)]
    apply Decoder.bind_error
    rw [decoderExtractInt32, decoderExtractInt, extract_of_lt _ (by omega)]
  have hlength : (parserRawDataOffset raw 1).unread.length = 0 := by
    rw [unread_offset, List.length_drop]
    omega
  refine ⟨parserRawDataOffset raw 1, ?_, currentPos_of_unread hlength⟩
  rw [if_neg fun hleft => hempty ((noDataLeft_iff raw).mp hleft), hstartup]
  dsimp only
  unfold pgsqlParseRegularMsg
  rw [Decoder.bind_ok (checkRawDataLen_of_unread hempty),
    Decoder.bind_ok (extractChar_of_unread hempty),
    Decoder.bind_error (extractInt32_of_lt (by omega))]

end Pgsql

end Gopher.L7
