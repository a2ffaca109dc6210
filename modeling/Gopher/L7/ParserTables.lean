import Gopher.L7.Http.Head.Slots
import Gopher.L7.Pgsql

-- Which slots of their arrays the parsers of row descriptions and of rows use.

namespace Gopher.L7.Pgsql

open Gopher.L7

def PGSQL_DATA_ROW_SIZE : ℕ := 1024

variable {α : Type}

-- The loop `i < count` of a parser that puts each item to slot `i` when it has it: what it
-- returns, and the slots with what they get.
def storeItems (item : Decoder α) : (count i : ℕ) → RawData → Except ParseState Unit × List (ℕ × α)
  | 0, _, _ => (.ok (), [])
  | count + 1, i, raw =>
      match item raw with
      | (.error state, _) => (.error state, [])
      | (.ok value, raw) =>
          let (result, stores) := storeItems item count (i + 1) raw
          (result, (i, value) :: stores)

-- Both parsers read the number of items first.
def parseItems (item : Decoder α) (msg : PgsqlRegularMsg) :
    Except ParseState Unit × List (ℕ × α) :=
  if msg.payloadData.length = 0 then (.error .invalid, [])
  else
    match decoderExtractInt16 (.create msg.payloadData msg.timestampNs) with
    | (.error state, _) => (.error state, [])
    | (.ok fieldCount, raw) => storeItems item fieldCount.toNat 0 raw

-- `pgsql_parse_row_desc` with its stores to `row_desc_fields`.
def rowDescStores : PgsqlRegularMsg → Except ParseState Unit × List (ℕ × Unit) :=
  parseItems pgsqlExtractRowDescField

-- `decoder_extract_string`
def decoderExtractString (decodeLen : ℕ) : Decoder (List UInt8) := Decoder.extract decodeLen id

-- A column, NULL being `none`. The length is converted to a `size_t`.
def dataRowColumn : Decoder (Option (List UInt8)) := do
  let valueLen ← decoderExtractInt32
  if valueLen = -1 then return none
  else if valueLen = 0 then return none
  else
    let value ← decoderExtractString (valueLen % 2 ^ 64).toNat
    return some value

-- What is returned, and the slots of `colum_values` with their strings.
def pgsqlParseDataRow : PgsqlRegularMsg → Except ParseState Unit × List (ℕ × Option (List UInt8)) :=
  parseItems dataRowColumn

section Shapes

variable {β : Type} {item : Decoder α} {shape : α → List UInt8 → Prop}

-- The decoder gives a value for the bytes that have its shape, and takes just them.
structure Takes (item : Decoder α) (shape : α → List UInt8 → Prop) : Prop where
  shape_of_ok : ∀ {raw next value}, item raw = (.ok value, next) →
    ∃ bytes, shape value bytes ∧ raw.unread = bytes ++ next.unread
  ok_of_shape : ∀ {raw : RawData} {value bytes rest}, shape value bytes →
    raw.unread = bytes ++ rest → ∃ next, item raw = (.ok value, next) ∧ next.unread = rest

theorem Takes.pure (value : α) :
    Takes (Pure.pure value : Decoder α) fun found bytes => found = value ∧ bytes = [] where
  shape_of_ok h := by
    cases h
    exact ⟨[], ⟨rfl, rfl⟩, rfl⟩
  ok_of_shape := by
    rintro raw found bytes rest ⟨rfl, rfl⟩ hunread
    exact ⟨raw, rfl, hunread⟩

theorem Takes.bind {next : α → Decoder β} {behind : α → β → List UInt8 → Prop}
    (hitem : Takes item shape) (hnext : ∀ value, Takes (next value) (behind value)) :
    Takes (item >>= next) fun result bytes =>
      ∃ value front back, bytes = front ++ back ∧ shape value front ∧ behind value result back where
  shape_of_ok := by
    intro raw last result h
    rcases hfound : item raw with ⟨found, middle⟩
    cases found with
    | error state =>
        rw [Decoder.bind_error hfound] at h
        cases h
    | ok value =>
        rw [Decoder.bind_ok hfound] at h
        obtain ⟨front, hfront, hunread⟩ := hitem.shape_of_ok hfound
        obtain ⟨back, hback, hmiddle⟩ := (hnext value).shape_of_ok h
        refine ⟨front ++ back, ⟨value, front, back, rfl, hfront, hback⟩, ?_⟩
        rw [hunread, hmiddle, List.append_assoc]
  ok_of_shape := by
    rintro raw result bytes rest ⟨value, front, back, rfl, hfront, hback⟩ hunread
    rw [List.append_assoc] at hunread
    obtain ⟨middle, hfound, hmiddle⟩ := hitem.ok_of_shape hfront hunread
    obtain ⟨last, hresult, hlast⟩ := (hnext value).ok_of_shape hback hmiddle
    exact ⟨last, (Decoder.bind_ok hfound).trans hresult, hlast⟩

theorem Takes.of_iff {other : α → List UInt8 → Prop} (h : Takes item shape)
    (hiff : ∀ value bytes, shape value bytes ↔ other value bytes) : Takes item other := by
  have hsame : shape = other := funext fun value => funext fun bytes => propext (hiff value bytes)
  exact hsame ▸ h

theorem takes_extract (len : ℕ) (value : List UInt8 → α) :
    Takes (Decoder.extract len value) fun found bytes =>
      bytes.length = len ∧ found = value bytes where
  shape_of_ok := by
    intro raw next found h
    have hlen := raw.length_unread
    unfold Decoder.extract at h
    split_ifs at h with hless
    · cases h
    · cases h
      refine ⟨raw.unread.take len, ⟨?_, rfl⟩, ?_⟩
      · rw [List.length_take]
        omega
      · rw [unread_offset, List.take_append_drop]
  ok_of_shape := by
    rintro raw found bytes rest ⟨rfl, rfl⟩ hunread
    have hlen := raw.length_unread
    rw [hunread, List.length_append] at hlen
    unfold Decoder.extract
    rw [if_neg (by omega), hunread, List.take_left]
    exact ⟨_, rfl, by rw [unread_offset, hunread, List.drop_left]⟩

theorem takes_decoderExtractStrUntilChar (searchChar : UInt8) :
    Takes (decoderExtractStrUntilChar searchChar) fun found bytes =>
      searchChar ∉ found ∧ bytes = found ++ [searchChar] where
  shape_of_ok := by
    intro raw next found h
    unfold decoderExtractStrUntilChar at h
    split at h
    · cases h
    next k hfind =>
      obtain ⟨hk, hat, hbefore⟩ := List.findIdx?_eq_some_iff_getElem.mp hfind
      cases h
      refine ⟨raw.unread.take (k + 1), ⟨?_, ?_⟩, ?_⟩
      · intro hmem
        obtain ⟨j, hj, hget⟩ := List.getElem_of_mem hmem
        rw [List.length_take] at hj
        rw [List.getElem_take] at hget
        exact hbefore j (by omega) (beq_iff_eq.mpr hget)
      · rw [List.take_succ_eq_append_getElem hk, beq_iff_eq.mp hat]
      · rw [unread_offset, List.take_append_drop]
  ok_of_shape := by
    rintro raw found bytes rest ⟨hnot, rfl⟩ hunread
    rw [List.append_assoc] at hunread
    have hfind : raw.unread.findIdx? (· == searchChar) = some found.length := by
      rw [hunread, List.findIdx?_append, List.findIdx?_eq_none_iff.mpr]
      · simp [List.findIdx?_cons]
      · intro byte hbyte
        exact beq_eq_false_iff_ne.mpr fun heq => hnot (heq ▸ hbyte)
    unfold decoderExtractStrUntilChar
    rw [hfind]
    refine ⟨_, congrArg (fun value => (Except.ok value, _)) ?_, ?_⟩
    · rw [hunread, List.take_left]
    · rw [unread_offset, hunread, ← List.append_assoc]
      exact List.drop_left' (by simp)

end Shapes

section Items

variable {item : Decoder α} {shape : α → List UInt8 → Prop}

-- The bytes begin with `count` items.
def BeginsWith (shape : List UInt8 → Prop) (count : ℕ) (bytes : List UInt8) : Prop :=
  ∃ items : List (List UInt8), items.length = count ∧ (∀ item ∈ items, shape item) ∧
    items.flatten <+: bytes

-- The bytes of an item, whatever it is.
def Shaped (shape : α → List UInt8 → Prop) (bytes : List UInt8) : Prop :=
  ∃ value, shape value bytes

theorem Takes.beginsWith_succ (htakes : Takes item shape) {raw next : RawData} {value : α}
    (hitem : item raw = (.ok value, next)) (count : ℕ) :
    BeginsWith (Shaped shape) (count + 1) raw.unread ↔
      BeginsWith (Shaped shape) count next.unread := by
  constructor
  · rintro ⟨items, hcount, hitems, tail, htail⟩
    cases items with
    | nil => cases hcount
    | cons bytes items =>
        obtain ⟨⟨other, hshape⟩, hitems⟩ := List.forall_mem_cons.mp hitems
        rw [List.flatten_cons, List.append_assoc] at htail
        obtain ⟨last, hother, hlast⟩ := htakes.ok_of_shape hshape htail.symm
        rw [hitem] at hother
        cases hother
        exact ⟨items, Nat.succ.inj hcount, hitems, tail, hlast.symm⟩
  · rintro ⟨items, hcount, hitems, tail, htail⟩
    obtain ⟨bytes, hshape, hunread⟩ := htakes.shape_of_ok hitem
    refine ⟨bytes :: items, congrArg Nat.succ hcount,
      List.forall_mem_cons.mpr ⟨⟨value, hshape⟩, hitems⟩, tail, ?_⟩
    rw [hunread, ← htail, List.flatten_cons, List.append_assoc]

-- A slot is used exactly when the bytes have items for it and all before.
theorem Takes.exists_store_iff (htakes : Takes item shape) (count i left : ℕ) (raw : RawData) :
    (∃ store ∈ (storeItems item count i raw).2, i + left ≤ store.1) ↔
      left < count ∧ BeginsWith (Shaped shape) (left + 1) raw.unread := by
  induction count generalizing i left raw with
  | zero =>
      refine iff_of_false ?_ fun h => Nat.not_lt_zero left h.1
      rintro ⟨store, hstore, -⟩
      cases hstore
  | succ count ih =>
      rcases hitem : item raw with ⟨found, next⟩
      cases found with
      | error state =>
          refine iff_of_false ?_ ?_
          · rintro ⟨store, hstore, -⟩
            rw [storeItems, hitem] at hstore
            cases hstore
          · rintro ⟨-, items, hcount, hitems, tail, htail⟩
            cases items with
            | nil => cases hcount
            | cons bytes items =>
                obtain ⟨⟨other, hshape⟩, -⟩ := List.forall_mem_cons.mp hitems
                rw [List.flatten_cons, List.append_assoc] at htail
                obtain ⟨last, hother, -⟩ := htakes.ok_of_shape hshape htail.symm
                rw [hitem] at hother
                cases hother
      | ok value =>
          have hstores : (storeItems item (count + 1) i raw).2 =
              (i, value) :: (storeItems item count (i + 1) next).2 := by
            rw [storeItems, hitem]
          rw [hstores, htakes.beginsWith_succ hitem]
          cases left with
          | zero =>
              exact iff_of_true ⟨(i, value), List.mem_cons_self, Nat.le_refl i⟩
                ⟨Nat.succ_pos count, [], rfl, by simp, List.nil_prefix⟩
          | succ left =>
              rw [Nat.succ_lt_succ_iff, ← ih (i + 1) left next]
              constructor
              · rintro ⟨store, hstore, hslot⟩
                rcases List.mem_cons.mp hstore with rfl | hstore
                · dsimp only at hslot
                  omega
                · exact ⟨store, hstore, by omega⟩
              · rintro ⟨store, hstore, hslot⟩
                exact ⟨store, List.mem_cons_of_mem _ hstore, by omega⟩

-- The payload counts more items than there are slots, and has one more than these.
def TooMany (shape : List UInt8 → Prop) (slots : ℕ) (payload : List UInt8) : Prop :=
  2 ≤ payload.length ∧ slots < bigEndianBytesToInt 2 (payload.take 2) ∧
    BeginsWith shape (slots + 1) (payload.drop 2)

theorem Takes.parseItems_lt_iff (htakes : Takes item shape) (slots : ℕ) (msg : PgsqlRegularMsg) :
    (∀ store ∈ (parseItems item msg).2, store.1 < slots) ↔
      ¬TooMany (Shaped shape) slots msg.payloadData := by
  have hunread : (RawData.create msg.payloadData msg.timestampNs).unread = msg.payloadData := rfl
  have hcount := takes_extract 2 (bigEndianBytesToInt 2)
  by_cases hlen : 2 ≤ msg.payloadData.length
  · obtain ⟨next, hfieldCount, hnext⟩ := hcount.ok_of_shape
      ⟨List.length_take_of_le hlen, rfl⟩ (hunread.trans (List.take_append_drop 2 _).symm)
    have hstores : (parseItems item msg).2 = (storeItems item
        (bigEndianBytesToInt 2 (msg.payloadData.take 2)).toNat 0 next).2 := by
      rw [parseItems, if_neg (by omega), decoderExtractInt16, decoderExtractInt, hfieldCount]
    have hslots : slots < (bigEndianBytesToInt 2 (msg.payloadData.take 2)).toNat ↔
        (slots : ℤ) < bigEndianBytesToInt 2 (msg.payloadData.take 2) := Int.lt_toNat
    have hitems := htakes.exists_store_iff
      (bigEndianBytesToInt 2 (msg.payloadData.take 2)).toNat 0 slots next
    rw [Nat.zero_add, hnext, hslots] at hitems
    rw [hstores, TooMany, ← hitems, and_iff_right hlen]
    simp only [not_exists, not_and, Nat.not_le]
  · refine iff_of_true ?_ fun h => hlen h.1
    have hstores : (parseItems item msg).2 = [] := by
      rw [parseItems]
      split_ifs
      · rfl
      · rw [decoderExtractInt16, decoderExtractInt, Decoder.extract, if_pos]
        exact Nat.lt_of_not_le hlen
    rw [hstores]
    simp

end Items

section Tables

-- A name with its NUL, and six numbers.
def IsRowDescField (bytes : List UInt8) : Prop :=
  ∃ name numbers, 0 ∉ name ∧ bytes = name ++ 0 :: numbers ∧ numbers.length = 18

-- The bytes behind a length. That of NULL is -1, the others are converted to a `size_t`.
def columnLength (valueLen : ℤ) : ℕ :=
  if valueLen = -1 then 0 else (valueLen % 2 ^ 64).toNat

-- A length, and as many bytes.
def IsColumn (bytes : List UInt8) : Prop :=
  ∃ len value, len.length = 4 ∧ bytes = len ++ value ∧
    value.length = columnLength (bigEndianBytesToInt 4 len)

-- A number of `size` bytes that nobody looks at.
theorem Takes.int_bind (size : ℕ) {rest : ℕ} {next : ℤ → Decoder Unit}
    (hnext : ∀ n, Takes (next n) fun _ bytes => bytes.length = rest) :
    Takes (decoderExtractInt size >>= next) fun _ bytes => bytes.length = size + rest := by
  refine ((takes_extract size (bigEndianBytesToInt size)).bind hnext).of_iff fun _ bytes => ?_
  constructor
  · rintro ⟨n, front, back, rfl, ⟨hfront, -⟩, hback⟩
    rw [List.length_append, hfront, hback]
  · intro hlength
    refine ⟨_, bytes.take size, bytes.drop size, (List.take_append_drop size bytes).symm,
      ⟨?_, rfl⟩, ?_⟩
    · rw [List.length_take]
      omega
    · rw [List.length_drop]
      omega

theorem takes_pgsqlExtractRowDescField :
    Takes pgsqlExtractRowDescField fun _ bytes => IsRowDescField bytes := by
  have hend : Takes (Pure.pure () : Decoder Unit) fun _ bytes => bytes.length = 0 :=
    (Takes.pure ()).of_iff fun _ bytes => by simp [List.length_eq_zero_iff]
  have hnumbers := Takes.int_bind 4 fun _ => Takes.int_bind 2 fun _ => Takes.int_bind 4 fun _ =>
    Takes.int_bind 2 fun _ => Takes.int_bind 4 fun _ => Takes.int_bind 2 fun _ => hend
  refine ((takes_decoderExtractStrUntilChar 0).bind fun _ => hnumbers).of_iff fun _ bytes => ?_
  constructor
  · rintro ⟨name, front, back, rfl, ⟨hname, rfl⟩, hback⟩
    exact ⟨name, back, hname, by simp, hback⟩
  · rintro ⟨name, numbers, hname, rfl, hnumbers⟩
    exact ⟨name, name ++ [0], numbers, by simp, ⟨hname, rfl⟩, hnumbers⟩

-- What follows the length of a column.
inductive ColumnValue (valueLen : ℤ) : Option (List UInt8) → List UInt8 → Prop
  | null (h : valueLen = -1 ∨ valueLen = 0) : ColumnValue valueLen none []
  | some {value : List UInt8} (h : ¬(valueLen = -1 ∨ valueLen = 0))
      (hlength : value.length = (valueLen % 2 ^ 64).toNat) : ColumnValue valueLen (some value) value

def ColumnShape (value : Option (List UInt8)) (bytes : List UInt8) : Prop :=
  ∃ valueLen front back, bytes = front ++ back ∧
    (front.length = 4 ∧ valueLen = bigEndianBytesToInt 4 front) ∧ ColumnValue valueLen value back

theorem takes_dataRowColumn : Takes dataRowColumn ColumnShape := by
  refine (takes_extract 4 (bigEndianBytesToInt 4)).bind fun valueLen => ?_
  have hnull : (valueLen = -1 ∨ valueLen = 0) →
      Takes (Pure.pure none : Decoder (Option (List UInt8))) (ColumnValue valueLen) := by
    intro h
    refine (Takes.pure none).of_iff fun value bytes => ⟨?_, ?_⟩
    · rintro ⟨rfl, rfl⟩
      exact .null h
    · intro hvalue
      cases hvalue with
      | null => exact ⟨rfl, rfl⟩
      | some hnot => exact absurd h hnot
  by_cases hminus : valueLen = -1
  · rw [if_pos hminus]
    exact hnull (.inl hminus)
  · rw [if_neg hminus]
    by_cases hzero : valueLen = 0
    · rw [if_pos hzero]
      exact hnull (.inr hzero)
    · rw [if_neg hzero]
      have hvalue := (takes_extract (valueLen % 2 ^ 64).toNat id).bind fun value : List UInt8 =>
        Takes.pure (some value)
      refine hvalue.of_iff fun found bytes => ⟨?_, ?_⟩
      · rintro ⟨value, front, back, rfl, ⟨hlength, rfl⟩, rfl, rfl⟩
        rw [List.append_nil]
        exact .some (not_or_intro hminus hzero) hlength
      · intro hfound
        cases hfound with
        | null h => exact absurd h (not_or_intro hminus hzero)
        | some hnot hlength =>
            exact ⟨bytes, bytes, [], (List.append_nil bytes).symm, ⟨hlength, rfl⟩, rfl, rfl⟩

theorem exists_columnValue_iff (valueLen : ℤ) (bytes : List UInt8) :
    (∃ value, ColumnValue valueLen value bytes) ↔ bytes.length = columnLength valueLen := by
  rw [columnLength]
  constructor
  · rintro ⟨value, hvalue⟩
    cases hvalue with
    | null h =>
        rcases h with hminus | hzero
        · rw [if_pos hminus]
          rfl
        · rw [hzero]
          rfl
    | some hnot hlength => rw [if_neg fun h => hnot (.inl h), hlength]
  · intro hlength
    by_cases hnull : valueLen = -1 ∨ valueLen = 0
    · have hzero : bytes.length = 0 := by
        rcases hnull with hminus | hzero
        · rw [hlength, if_pos hminus]
        · rw [hlength, hzero]
          rfl
      rw [List.length_eq_zero_iff.mp hzero]
      exact ⟨none, .null hnull⟩
    · rw [if_neg fun h => hnull (.inl h)] at hlength
      exact ⟨some bytes, .some hnull hlength⟩

theorem shaped_columnShape : Shaped ColumnShape = IsColumn := by
  funext bytes
  refine propext ⟨?_, ?_⟩
  · rintro ⟨value, valueLen, len, back, hbytes, ⟨hlen, hvalueLen⟩, hback⟩
    have hlength := (exists_columnValue_iff valueLen back).mp ⟨value, hback⟩
    rw [hvalueLen] at hlength
    exact ⟨len, back, hlen, hbytes, hlength⟩
  · rintro ⟨len, back, hlen, hbytes, hback⟩
    obtain ⟨value, hvalue⟩ := (exists_columnValue_iff (bigEndianBytesToInt 4 len) back).mpr hback
    exact ⟨value, bigEndianBytesToInt 4 len, len, back, hbytes, ⟨hlen, rfl⟩, hvalue⟩

theorem shaped_rowDescField :
    Shaped (fun (_ : Unit) bytes => IsRowDescField bytes) = IsRowDescField :=
  funext fun _ => propext ⟨fun ⟨_, h⟩ => h, fun h => ⟨(), h⟩⟩

-- The array of a row description is overrun exactly by descriptions with more fields than
-- it has slots.
theorem rowDescStores_lt_iff (msg : PgsqlRegularMsg) :
    (∀ store ∈ (rowDescStores msg).2, store.1 < PGSQL_ROW_DESC_SIZE) ↔
      ¬TooMany IsRowDescField PGSQL_ROW_DESC_SIZE msg.payloadData := by
  rw [rowDescStores, takes_pgsqlExtractRowDescField.parseItems_lt_iff, shaped_rowDescField]

theorem pgsqlParseDataRow_lt_iff (msg : PgsqlRegularMsg) :
    (∀ store ∈ (pgsqlParseDataRow msg).2, store.1 < PGSQL_DATA_ROW_SIZE) ↔
      ¬TooMany IsColumn PGSQL_DATA_ROW_SIZE msg.payloadData := by
  rw [pgsqlParseDataRow, takes_dataRowColumn.parseItems_lt_iff, shaped_columnShape]

theorem extractRowDescFields_eq (count i : ℕ) (raw : RawData) :
    extractRowDescFields count i raw =
      if (storeItems pgsqlExtractRowDescField count i raw).2.all
          fun store => store.1 < PGSQL_ROW_DESC_SIZE then
        some (storeItems pgsqlExtractRowDescField count i raw).1
      else none := by
  induction count generalizing i raw with
  | zero => rfl
  | succ count ih =>
      rw [extractRowDescFields, storeItems]
      rcases pgsqlExtractRowDescField raw with ⟨found, next⟩
      cases found with
      | error state => rfl
      | ok value =>
          dsimp only
          rw [ih, List.all_cons]
          by_cases hi : PGSQL_ROW_DESC_SIZE ≤ i
          · rw [if_pos hi, decide_eq_false (Nat.not_lt_of_ge hi), Bool.false_and,
              if_neg Bool.false_ne_true]
          · rw [if_neg hi, decide_eq_true (Nat.lt_of_not_le hi), Bool.true_and]

-- The parser that the matching uses is the one that stops where the array ends.
theorem pgsqlParseRowDesc_eq (msg : PgsqlRegularMsg) :
    pgsqlParseRowDesc msg =
      if (rowDescStores msg).2.all fun store => store.1 < PGSQL_ROW_DESC_SIZE then
        some (rowDescStores msg).1
      else none := by
  rw [pgsqlParseRowDesc, rowDescStores, parseItems]
  by_cases hempty : msg.payloadData.length = 0
  · rw [if_pos hempty, if_pos hempty]
    rfl
  · rw [if_neg hempty, if_neg hempty]
    rcases decoderExtractInt16 (.create msg.payloadData msg.timestampNs) with ⟨found, next⟩
    cases found with
    | error state => rfl
    | ok fieldCount => exact extractRowDescFields_eq _ _ _

end Tables

end Gopher.L7.Pgsql

-- The tables of the parsers are of a fixed size, and what is to be put into them is counted
-- by the other side.

namespace Gopher.L7

open Gopher.Lib Pgsql Http

-- The arrays of the descriptions and of the rows are overrun exactly by a payload that counts
-- more items than they have slots and has the first one too many, the array of the headers
-- exactly by a head that starts a second header.
theorem parserTables_iff (msg : PgsqlRegularMsg) (sse42 : Bool) (head : BufPtr) :
    ((∀ store ∈ (rowDescStores msg).2, store.1 < PGSQL_ROW_DESC_SIZE) ↔
        ¬TooMany IsRowDescField PGSQL_ROW_DESC_SIZE msg.payloadData) ∧
      ((∀ store ∈ (pgsqlParseDataRow msg).2, store.1 < PGSQL_DATA_ROW_SIZE) ↔
        ¬TooMany IsColumn PGSQL_DATA_ROW_SIZE msg.payloadData) ∧
      ((∀ store ∈ parseHeadersStores sse42 K_MAX_NUM_HEADERS 0 head,
          store.1 < INIT_HTTP_HEADERS) ↔ ¬ReachesSlot 0 INIT_HTTP_HEADERS head.rest) :=
  ⟨rowDescStores_lt_iff msg, pgsqlParseDataRow_lt_iff msg, parseHeadersStores_lt_iff (by decide)⟩

section Counterexamples

-- A description of 1025 fields without a name.
def manyFields : PgsqlRegularMsg :=
  ⟨0, 0x54, 4, 4 :: 1 :: List.replicate (1025 * 19) 0⟩

-- A row of 1025 empty columns.
def manyColumns : PgsqlRegularMsg :=
  ⟨0, 0x44, 4, 4 :: 1 :: List.replicate (1025 * 4) 0⟩

theorem beginsWith_replicate {shape : List UInt8 → Prop} {size : ℕ}
    (hshape : shape (List.replicate size 0)) (count : ℕ) :
    BeginsWith shape count (List.replicate (count * size) 0) := by
  refine ⟨List.replicate count (List.replicate size 0), List.length_replicate, ?_, ?_⟩
  · intro item hitem
    rw [(List.mem_replicate.mp hitem).2]
    exact hshape
  · have hflat : (List.replicate count (List.replicate size (0 : UInt8))).flatten =
        List.replicate (count * size) 0 := List.flatten_replicate_replicate
    exact hflat ▸ List.prefix_refl _

-- 1025 items of zeros behind their count.
theorem tooMany_replicate {shape : List UInt8 → Prop} {size : ℕ}
    (hshape : shape (List.replicate size 0)) :
    TooMany shape 1024 (4 :: 1 :: List.replicate (1025 * size) 0) := by
  have hcount : (1024 : ℤ) < bigEndianBytesToInt 2 [4, 1] := by decide
  exact ⟨Nat.le_add_left 2 _, hcount, beginsWith_replicate hshape 1025⟩

theorem tooMany_manyFields : TooMany IsRowDescField PGSQL_ROW_DESC_SIZE manyFields.payloadData :=
  tooMany_replicate ⟨[], List.replicate 18 0, by decide, by decide, by decide⟩

theorem tooMany_manyColumns : TooMany IsColumn PGSQL_DATA_ROW_SIZE manyColumns.payloadData :=
  tooMany_replicate ⟨[0, 0, 0, 0], [], by decide, by decide, by decide⟩

-- "A:" and a newline, "B:".
theorem reachesSlot_two : ReachesSlot 0 1 [0x41, COLON, LF, 0x42, COLON] :=
  ⟨[0x41, COLON, LF], [0x42, COLON], rfl,
    @HeaderLine.named 0 [0x41] [] [LF] (by decide) (List.forall_mem_singleton.mpr (by decide))
      (List.forall_mem_nil _) (.inl rfl),
    .inr ⟨[0x42], [], rfl, List.forall_mem_singleton.mpr (by decide)⟩⟩

theorem parserTables_overrun :
    (¬∀ msg, ∀ store ∈ (rowDescStores msg).2, store.1 < PGSQL_ROW_DESC_SIZE) ∧
      (¬∀ msg, ∀ store ∈ (pgsqlParseDataRow msg).2, store.1 < PGSQL_DATA_ROW_SIZE) ∧
      ¬∀ sse42 head, ∀ store ∈ parseHeadersStores sse42 K_MAX_NUM_HEADERS 0 head,
        store.1 < INIT_HTTP_HEADERS := by
  refine ⟨fun h => ?_, fun h => ?_, fun h => ?_⟩
  · exact (rowDescStores_lt_iff manyFields).mp (h manyFields) tooMany_manyFields
  · exact (pgsqlParseDataRow_lt_iff manyColumns).mp (h manyColumns) tooMany_manyColumns
  · exact (parseHeadersStores_lt_iff (by decide)).mp
      (h true ⟨0, [0x41, COLON, LF, 0x42, COLON]⟩) reachesSlot_two

end Counterexamples

end Gopher.L7
