import Gopher.L7.Pgsql
import Gopher.L7.Pgsql.Theorems
import Mathlib.Data.List.TakeWhile

namespace Gopher.L7.Pgsql

variable {α : Type}

-- The message tags of `enum pgsql_tag_t`, those of the client and those of the server.
-- The two of copying are common to both.
def pgsqlTags : Bool → List Char
  | true => ['d', 'c', 'p', 'Q', 'P', 'B', 'E', 'F', 'C', 'D', 'H', 'S', 'X', 'f']
  | false => ['d', 'c', 'C', 'E', 'Z', 'I', '1', '2', '3', 'S', 'K', 'T', 'n', 't', 'D', 'G', 'H',
      'W', 'R']

def PGSQL_PASSWD : UInt8 := 'p'.toUInt8

def isPgsqlTag (isClient : Bool) (byte : UInt8) : Bool :=
  (pgsqlTags isClient).any fun tag => tag.toNat == byte.toNat

-- What a search for the first tag of a direction gives.
def IsBoundary (isClient : Bool) (raw : RawData) : Option ℕ → Prop
  | none => ∀ pos byte, raw.currentPos ≤ pos → raw.data[pos]? = some byte →
      isPgsqlTag isClient byte = false
  | some boundary => raw.currentPos ≤ boundary ∧
      (∃ byte, raw.data[boundary]? = some byte ∧ isPgsqlTag isClient byte) ∧
      ∀ pos byte, raw.currentPos ≤ pos → pos < boundary → raw.data[pos]? = some byte →
        isPgsqlTag isClient byte = false

-- The table has the tags of both directions, except for the password message of the
-- client, and the byte 0 of its unused entries.
theorem containsPgsqlTag_iff (isClient : Bool) (byte : UInt8) :
    containsPgsqlTag byte = true ↔
      byte = 0 ∨ (isPgsqlTag isClient byte ∨ isPgsqlTag (!isClient) byte) ∧ byte ≠ PGSQL_PASSWD := by
  have hall : ∀ n < 256, ∀ isClient, (containsPgsqlTag (UInt8.ofNat n) = true ↔
      UInt8.ofNat n = 0 ∨ (isPgsqlTag isClient (UInt8.ofNat n) ∨
        isPgsqlTag (!isClient) (UInt8.ofNat n)) ∧ UInt8.ofNat n ≠ PGSQL_PASSWD) := by
    decide +kernel
  have hbyte := hall byte.toNat byte.toNat_lt isClient
  rwa [UInt8.ofNat_toNat] at hbyte

-- Two searches end at one place exactly if the second has passed nothing that the first
-- looks for and the first takes what the second found.
theorem findIdx?_eq_iff (first second : α → Bool) (list : List α) :
    list.findIdx? first = list.findIdx? second ↔
      (∀ a ∈ list.takeWhile fun a => !second a, first a = false) ∧
        ∀ a, list.find? second = some a → first a = true := by
  induction list with
  | nil => simp
  | cons head rest ih =>
      rw [List.findIdx?_cons, List.findIdx?_cons, List.takeWhile_cons, List.find?_cons]
      cases hsecond : second head with
      | true =>
          cases hfirst : first head with
          | true => simp [hfirst]
          | false => simp [hfirst]
      | false =>
          cases hfirst : first head with
          | true =>
              refine iff_of_false ?_ ?_
              · cases rest.findIdx? second <;> simp
              · simp [hfirst]
          | false =>
              simp only [Bool.not_false, Bool.false_eq_true, if_true, if_false, List.forall_mem_cons,
                hfirst, true_and]
              rw [← ih]
              exact (Option.map_injective fun a b h => Nat.succ.inj h).eq_iff

theorem isBoundary_find (isClient : Bool) (raw : RawData) :
    IsBoundary isClient raw
      ((raw.unread.findIdx? (isPgsqlTag isClient)).map (raw.currentPos + ·)) := by
  have hget (pos : ℕ) (hpos : raw.currentPos ≤ pos) :
      raw.unread[pos - raw.currentPos]? = raw.data[pos]? := by
    rw [RawData.unread, List.getElem?_drop, Nat.add_sub_cancel' hpos]
  cases hfind : raw.unread.findIdx? (isPgsqlTag isClient) with
  | none =>
      intro pos byte hpos hbyte
      rw [← hget pos hpos] at hbyte
      exact List.findIdx?_eq_none_iff.mp hfind byte (List.mem_of_getElem? hbyte)
  | some offset =>
      obtain ⟨hlt, htag, hbefore⟩ := List.findIdx?_eq_some_iff_getElem.mp hfind
      have hat := hget (raw.currentPos + offset) (Nat.le_add_right _ _)
      rw [Nat.add_sub_cancel_left, List.getElem?_eq_getElem hlt] at hat
      refine ⟨Nat.le_add_right _ _, ⟨raw.unread[offset], hat.symm, htag⟩, ?_⟩
      intro pos byte hpos hless hbyte
      change pos < raw.currentPos + offset at hless
      rw [← hget pos hpos] at hbyte
      obtain ⟨hin, heq⟩ := List.getElem?_eq_some_iff.mp hbyte
      rw [← heq]
      simpa using hbefore (pos - raw.currentPos) (by omega)

theorem IsBoundary.unique {isClient : Bool} {raw : RawData} {first second : Option ℕ}
    (hfirst : IsBoundary isClient raw first) (hsecond : IsBoundary isClient raw second) :
    first = second := by
  cases first with
  | none =>
      cases second with
      | none => rfl
      | some pos =>
          obtain ⟨hpos, ⟨byte, hbyte, htag⟩, -⟩ := hsecond
          exact absurd htag (by simp [hfirst pos byte hpos hbyte])
  | some pos =>
      obtain ⟨hpos, ⟨byte, hbyte, htag⟩, hbefore⟩ := hfirst
      cases second with
      | none => exact absurd htag (by simp [hsecond pos byte hpos hbyte])
      | some pos' =>
          obtain ⟨hpos', ⟨byte', hbyte', htag'⟩, hbefore'⟩ := hsecond
          rcases Nat.lt_trichotomy pos pos' with hlt | rfl | hlt
          · exact absurd htag (by simp [hbefore' pos byte hpos hlt hbyte])
          · rfl
          · exact absurd htag' (by simp [hbefore pos' byte' hpos' hlt hbyte'])

theorem isBoundary_iff (isClient : Bool) (raw : RawData) (result : Option ℕ) :
    IsBoundary isClient raw result ↔
      result = (raw.unread.findIdx? (isPgsqlTag isClient)).map (raw.currentPos + ·) := by
  constructor
  · intro h
    exact h.unique (isBoundary_find isClient raw)
  · rintro rfl
    exact isBoundary_find isClient raw

-- The search is right exactly if it passes no zero byte and no tag of the other direction
-- alone, the password tag aside, and the first tag of the direction is not that tag.
theorem pgsqlFindFrameBoundary_isBoundary_iff (isClient : Bool) (raw : RawData) :
    IsBoundary isClient raw (pgsqlFindFrameBoundary raw) ↔
      (∀ byte ∈ raw.unread.takeWhile fun byte => !isPgsqlTag isClient byte,
        byte ≠ 0 ∧ (isPgsqlTag (!isClient) byte → byte = PGSQL_PASSWD)) ∧
      raw.unread.find? (isPgsqlTag isClient) ≠ some PGSQL_PASSWD := by
  have hinjective : Function.Injective (raw.currentPos + ·) := fun _ _ => Nat.add_left_cancel
  rw [isBoundary_iff, pgsqlFindFrameBoundary, (Option.map_injective hinjective).eq_iff,
    findIdx?_eq_iff]
  refine and_congr ?_ ?_
  · refine forall₂_congr fun byte hbyte => ?_
    have hnot : isPgsqlTag isClient byte = false := by
      simpa using List.mem_takeWhile_imp hbyte
    rw [← Bool.not_eq_true, containsPgsqlTag_iff isClient, hnot]
    simp only [Bool.false_eq_true, false_or, not_or, not_and, not_not, ne_eq]
  · constructor
    · intro h hfound
      obtain hzero | ⟨-, hne⟩ := (containsPgsqlTag_iff isClient _).mp (h _ hfound)
      · exact absurd hzero (by decide)
      · exact hne rfl
    · intro h byte hfound
      refine (containsPgsqlTag_iff isClient byte).mpr (.inr ⟨.inl (List.find?_some hfound), ?_⟩)
      rintro rfl
      exact h hfound

-- A zero byte in front of a query.
theorem zeroByte_not_boundary :
    ¬∀ isClient raw, IsBoundary isClient raw (pgsqlFindFrameBoundary raw) := by
  intro h
  have hzero := (h true (.create [0, 0x51, 0, 0, 0, 4] 0)).2.1
  simp [isPgsqlTag, pgsqlTags, RawData.create] at hzero

end Gopher.L7.Pgsql

namespace Gopher.L7

variable {α β : Type}

namespace Decoder

-- A decoder that never moves back.
def Onward (decoder : Decoder α) : Prop :=
  ∀ raw, (decoder raw).2.data = raw.data ∧ raw.currentPos ≤ (decoder raw).2.currentPos

theorem currentPos_offset {raw : RawData} {len : ℕ} (h : len ≤ raw.unread.length) :
    (parserRawDataOffset raw len).currentPos = raw.currentPos + len := by
  rw [RawData.length_unread] at h
  simp only [parserRawDataOffset]
  split_ifs <;> omega

theorem onward_offset (raw : RawData) (len : ℕ) :
    (parserRawDataOffset raw len).data = raw.data ∧
      raw.currentPos ≤ (parserRawDataOffset raw len).currentPos :=
  ⟨rfl, Nat.le_add_right _ _⟩

theorem onward_pure (value : α) : (pure value : Decoder α).Onward := fun _ => ⟨rfl, Nat.le_refl _⟩

theorem onward_fail (state : ParseState) : (fail state : Decoder α).Onward :=
  fun _ => ⟨rfl, Nat.le_refl _⟩

theorem onward_extract (len : ℕ) (value : List UInt8 → α) : (extract len value).Onward := by
  intro raw
  unfold extract
  split_ifs
  · exact ⟨rfl, Nat.le_refl _⟩
  · exact onward_offset raw len

theorem Onward.bind {decoder : Decoder α} {next : α → Decoder β} (hdecoder : decoder.Onward)
    (hnext : ∀ value, (next value).Onward) : (decoder >>= next).Onward := by
  intro raw
  obtain ⟨hdata, hpos⟩ := hdecoder raw
  rcases hraw : decoder raw with ⟨value, after⟩
  rw [hraw] at hdata hpos
  cases value with
  | ok value =>
      obtain ⟨hdata', hpos'⟩ := hnext value after
      rw [bind_ok hraw]
      exact ⟨hdata'.trans hdata, hpos.trans hpos'⟩
  | error state =>
      rw [bind_error hraw]
      exact ⟨hdata, hpos⟩

-- What a decoder of bytes gives when it succeeds.
theorem extract_eq_ok {len : ℕ} {value : List UInt8 → α} {raw next : RawData} {result : α}
    (h : (extract len value).orState .needsMoreData raw = (.ok result, next)) :
    result = value (raw.unread.take len) ∧ len ≤ raw.unread.length ∧
      next.currentPos = raw.currentPos + len := by
  rw [Pgsql.orState_extract] at h
  by_cases hlt : raw.unread.length < len
  · rw [Pgsql.extract_of_lt value hlt] at h
    cases h
  · rw [Pgsql.extract_of_le value (by omega)] at h
    cases h
    exact ⟨rfl, by omega, currentPos_offset (by omega)⟩

theorem bind_eq_ok {decoder : Decoder α} {next : α → Decoder β} {raw last : RawData} {result : β}
    (h : (decoder >>= next) raw = (.ok result, last)) :
    ∃ value middle, decoder raw = (.ok value, middle) ∧ next value middle = (.ok result, last) := by
  rcases hraw : decoder raw with ⟨value, middle⟩
  cases value with
  | ok value =>
      rw [bind_ok hraw] at h
      exact ⟨value, middle, rfl, h⟩
  | error state =>
      rw [bind_error hraw] at h
      cases h

end Decoder

theorem onward_untilChar (searchChar : UInt8) : (decoderExtractStrUntilChar searchChar).Onward := by
  intro raw
  unfold decoderExtractStrUntilChar
  split
  · exact ⟨rfl, Nat.le_refl _⟩
  · exact Decoder.onward_offset raw _

namespace Pgsql

theorem onward_startupPair : startupPair.Onward := by
  refine (onward_untilChar 0).bind fun name => ?_
  split_ifs
  · exact Decoder.onward_pure false
  · refine (onward_untilChar 0).bind fun value => ?_
    split_ifs
    · exact Decoder.onward_fail .invalid
    · exact Decoder.onward_pure true

theorem onward_startupNameValue : Decoder.Onward pgsqlParseStartupNameValue := by
  intro raw
  induction hn : raw.unread.length using Nat.strong_induction_on generalizing raw with
  | _ n ih =>
      rw [startupNameValue_eq raw]
      obtain ⟨hdata, hpos⟩ := onward_startupPair raw
      split_ifs
      · rcases hraw : startupPair raw with ⟨value, next⟩
        rw [hraw] at hdata hpos
        cases value with
        | error state => exact ⟨hdata, hpos⟩
        | ok more =>
            cases more with
            | false => exact ⟨hdata, hpos⟩
            | true =>
                have hshort := unread_length_startupPair hraw
                obtain ⟨hdata', hpos'⟩ := ih next.unread.length (by omega) next rfl
                exact ⟨hdata'.trans hdata, hpos.trans hpos'⟩
      · exact ⟨rfl, Nat.le_refl _⟩

theorem onward_startupPayload (len : Int) :
    Decoder.Onward fun raw =>
      if startupTooLong raw len then (.error .invalid, raw) else pgsqlParseStartupNameValue raw := by
  intro raw
  dsimp only
  split_ifs
  · exact ⟨rfl, Nat.le_refl _⟩
  · exact onward_startupNameValue raw

-- The attempt at a startup message takes at least the four bytes of a length, whatever
-- comes of it.
theorem currentPos_startupMsg {raw : RawData} (h : 4 ≤ raw.unread.length) :
    raw.currentPos + 4 ≤ (pgsqlParseStartupMsg raw).2.currentPos := by
  have hunread : raw.unread ≠ [] := List.ne_nil_of_length_pos (by omega)
  have hlen : decoderExtractInt32 raw =
      (.ok (bigEndianBytesToInt 4 (raw.unread.take 4)), parserRawDataOffset raw 4) :=
    extract_of_le _ h
  have hversion : (decoderExtractInt16 : Decoder Int).Onward := Decoder.onward_extract _ _
  have hrest := hversion.bind fun _ => hversion.bind fun _ =>
    onward_startupPayload (bigEndianBytesToInt 4 (raw.unread.take 4))
  unfold pgsqlParseStartupMsg
  rw [Decoder.bind_ok (checkRawDataLen_of_unread hunread), Decoder.bind_ok hlen,
    ← Decoder.currentPos_offset h]
  exact (hrest (parserRawDataOffset raw 4)).2

-- A regular message takes its tag, its length and its payload.
theorem currentPos_regularMsg {timestampNs : UInt64} {raw next : RawData} {msg : PgsqlRegularMsg}
    (h : pgsqlParseRegularMsg timestampNs raw = (.ok msg, next)) :
    next.currentPos = raw.currentPos + 5 + msg.payloadData.length := by
  unfold pgsqlParseRegularMsg at h
  obtain ⟨_, checked, hcheck, h⟩ := Decoder.bind_eq_ok h
  obtain ⟨tag, tagged, htag, h⟩ := Decoder.bind_eq_ok h
  obtain ⟨len, measured, hlen, h⟩ := Decoder.bind_eq_ok h
  have hsame : checked = raw := by
    unfold checkRawDataLen at hcheck
    split_ifs at hcheck
    · cases hcheck
    · exact (Prod.ext_iff.mp hcheck).2.symm
  split_ifs at h with hmin
  · cases h
  · obtain ⟨payload, last, hpayload, h⟩ := Decoder.bind_eq_ok h
    cases h
    obtain ⟨-, -, htagPos⟩ := Decoder.extract_eq_ok htag
    obtain ⟨-, -, hlenPos⟩ := Decoder.extract_eq_ok hlen
    obtain ⟨hvalue, hfits, hpos⟩ := Decoder.extract_eq_ok hpayload
    rw [hpos, hlenPos, htagPos, hsame, hvalue, id, List.length_take, Nat.min_eq_left hfits]

-- The bytes of a regular message. Its length counts itself but not the tag.
structure IsRegular (tag : UInt8) (payload message : List UInt8) : Prop where
  documented : ∃ isClient, isPgsqlTag isClient tag = true
  spelled : ∃ len : List UInt8, message = tag :: len ++ payload ∧ len.length = 4 ∧
    bigEndianBytesToInt 4 len = payload.length + 4

-- The message is decoded to itself and the position moves behind it.
def DecodesTo (tag : UInt8) (payload : List UInt8) (raw : RawData)
    (outcome : Except ParseState PgsqlRegularMsg × RawData) : Prop :=
  ∃ msg, outcome.1 = .ok msg ∧ msg.tag = tag ∧ msg.payloadData = payload ∧
    outcome.2.currentPos = raw.currentPos + (1 + (payload.length + 4))

-- A frame is read from where the attempt at a startup message has stopped.
theorem parseFrame_eq_ok {junk : Bool} {raw last : RawData} {msg : PgsqlRegularMsg}
    (h : pgsqlParseFrame junk raw = (.ok msg, last)) :
    pgsqlParseRegularMsg raw.timestampNs (pgsqlParseStartupMsg raw).2 = (.ok msg, last) := by
  unfold pgsqlParseFrame at h
  rcases hstartup : pgsqlParseStartupMsg raw with ⟨outcome, next⟩
  rw [hstartup] at h
  split_ifs at h
  · cases h
  · cases outcome with
    | error state => exact h
    | ok value =>
        dsimp only at h
        split_ifs at h
        · cases h
        · exact h

-- Nothing is decoded from a position with four bytes or more behind it: the attempt at
-- a startup message moves on before the regular one is read.
theorem not_decodesTo (junk : Bool) {raw : RawData} (tag : UInt8) (payload : List UInt8)
    (h : 4 ≤ raw.unread.length) : ¬DecodesTo tag payload raw (pgsqlParseFrame junk raw) := by
  rintro ⟨msg, hok, -, hpayload, hpos⟩
  have hmoved := currentPos_startupMsg h
  have hframe : pgsqlParseFrame junk raw = (.ok msg, (pgsqlParseFrame junk raw).2) :=
    Prod.ext hok rfl
  have hend := currentPos_regularMsg (parseFrame_eq_ok hframe)
  rw [hpayload] at hend
  omega

theorem IsRegular.le_length {tag : UInt8} {payload message : List UInt8}
    (h : IsRegular tag payload message) : 5 ≤ message.length := by
  obtain ⟨len, rfl, hlen, -⟩ := h.spelled
  simp only [List.cons_append, List.length_cons, List.length_append, hlen]
  omega

-- So no message is decoded to itself.
theorem pgsqlParseFrame_not_decodes (junk : Bool) {raw : RawData} {tag : UInt8}
    {payload message rest : List UInt8} (hmessage : IsRegular tag payload message)
    (hunread : raw.unread = message ++ rest) :
    ¬DecodesTo tag payload raw (pgsqlParseFrame junk raw) := by
  apply not_decodesTo
  have hlength := hmessage.le_length
  rw [hunread, List.length_append]
  omega

-- The message of a query, followed by nothing.
def queryMessage : List UInt8 := [0x51, 0, 0, 0, 7, 0x61, 0x62, 0]

theorem isRegular_queryMessage : IsRegular 0x51 [0x61, 0x62, 0] queryMessage :=
  ⟨⟨true, by decide⟩, [0, 0, 0, 7], rfl, rfl, by decide⟩

theorem pgsqlParseFrame_not_decodes_query :
    ¬DecodesTo 0x51 [0x61, 0x62, 0] (.create queryMessage 0)
      (pgsqlParseFrame false (.create queryMessage 0)) :=
  pgsqlParseFrame_not_decodes false isRegular_queryMessage (List.append_nil _).symm

theorem queryMessage_not_decoded :
    ¬∀ junk raw tag payload message rest, IsRegular tag payload message →
      raw.unread = message ++ rest → DecodesTo tag payload raw (pgsqlParseFrame junk raw) := by
  intro h
  exact not_decodesTo false 0x51 [0x61, 0x62, 0] (by decide) (h false (.create queryMessage 0) 0x51
    [0x61, 0x62, 0] queryMessage [] isRegular_queryMessage (List.append_nil _).symm)

end Pgsql

end Gopher.L7
