import Gopher.Lib.HashTable
import Gopher.Lib.Run
import Mathlib.Algebra.Group.Nat.Defs
import Mathlib.Algebra.GroupWithZero.Nat
import Mathlib.Data.List.Forall2
import Mathlib.Data.Nat.Notation

namespace Gopher.Kafka

def clientMaxItem : ℕ := 256
def smallBufSize : ℕ := 64
def producerMsgType : UInt16 := 0
def consumerMsgType : UInt16 := 1

-- struct KafkaData
structure KafkaData where
  type : UInt16
  len : UInt16
  num : UInt32
  srcIp : UInt32
  srcPort : UInt16
  dstPort : UInt16
  data : Vector UInt8 smallBufSize
  deriving DecidableEq

-- One index of the arrays `client_array` and `topic_num`.
structure Slot where
  client : KafkaData
  topicNum : UInt32
  deriving DecidableEq

-- What `memset` leaves.
def Slot.zero : Slot :=
  { client := { type := 0, len := 0, num := 0, srcIp := 0, srcPort := 0, dstPort := 0
                data := Vector.replicate smallBufSize 0 }
    topicNum := 0 }

def u8ncmp (d1 d2 : Vector UInt8 smallBufSize) (len : ℕ) : ℕ :=
  if d1.toList.take len = d2.toList.take len then 0 else 1

def kafkaDataCmp (d1 d2 : KafkaData) : ℕ :=
  if d1.type ≠ d2.type then 1
  else if d1.srcIp ≠ d2.srcIp then 1
  else if d1.srcPort ≠ d2.srcPort then 1
  else if d1.dstPort ≠ d2.dstPort then 1
  else if d1.len ≠ d2.len then 1
  else if u8ncmp d1.data d2.data d1.len.toNat ≠ 0 then 1
  else 0

-- A client written into a free slot.
def Slot.take (slot : Slot) (newClient : KafkaData) : Slot :=
  { client := newClient
    topicNum :=
      if newClient.type = producerMsgType then slot.topicNum + newClient.num
      else if newClient.type = consumerMsgType then 1
      else slot.topicNum }

-- One more record of the client in the slot.
def Slot.refresh (newClient : KafkaData) (slot : Slot) : Slot :=
  if newClient.type = producerMsgType then
    { slot with topicNum := slot.topicNum + newClient.num }
  else if newClient.type = consumerMsgType then
    if slot.client.num < newClient.num then
      { client := { slot.client with num := newClient.num }
        topicNum := slot.topicNum + (newClient.num - slot.client.num) }
    else slot
  else slot

-- `none` stands for the return value 1: the array is full.
def refreshArray (newClient : KafkaData) : List Slot → Option (List Slot)
  | [] => none
  | slot :: clientArray =>
      if slot.client.srcIp = 0 then some (slot.take newClient :: clientArray)
      else if kafkaDataCmp slot.client newClient ≠ 0 then
        (refreshArray newClient clientArray).map (slot :: ·)
      else some (slot.refresh newClient :: clientArray)

-- The consumers of the period go to the front, with the counts cleared.
def cleanArray (clientArray : List Slot) : List Slot :=
  let kept := clientArray.filter fun slot =>
    slot.client.type = consumerMsgType ∧ 0 < slot.topicNum
  kept.map (fun slot => { slot with topicNum := 0 }) ++
    List.replicate (clientMaxItem - kept.length) Slot.zero

-- One line that is printed, with the number that stands in it.
structure Line where
  client : KafkaData
  num : ℤ
  deriving DecidableEq

-- The format `%d` takes the count for an `int`.
def Slot.line (slot : Slot) : Line :=
  { client := slot.client, num := slot.topicNum.toBitVec.toInt }

def outputArrayTerminal (clientArray : List Slot) : List Line :=
  (clientArray.takeWhile fun slot => slot.topicNum ≠ 0).map Slot.line

-- The arrays, and what has been printed in each period so far.
structure State where
  clientArray : List Slot
  printed : List (List Line)

def State.initial : State :=
  { clientArray := List.replicate clientMaxItem Slot.zero, printed := [] }

-- A record that was collected, or the end of a period.
inductive Action
  | refresh (newClient : KafkaData)
  | report

def step (state : State) : Action → State
  | .refresh newClient =>
      { state with
        clientArray := (refreshArray newClient state.clientArray).getD state.clientArray }
  | .report =>
      { clientArray := cleanArray state.clientArray
        printed := state.printed ++ [outputArrayTerminal state.clientArray] }

open Lib

-- What `kafka_data_cmp` compares.
structure Client where
  type : UInt16
  srcIp : UInt32
  srcPort : UInt16
  dstPort : UInt16
  len : UInt16
  topic : List UInt8
  deriving DecidableEq

def KafkaData.id (data : KafkaData) : Client :=
  { type := data.type, srcIp := data.srcIp, srcPort := data.srcPort, dstPort := data.dstPort
    len := data.len, topic := data.data.toList.take data.len.toNat }

def Slot.id (slot : Slot) : Client := slot.client.id

theorem kafkaDataCmp_eq_zero (d1 d2 : KafkaData) : kafkaDataCmp d1 d2 = 0 ↔ d1.id = d2.id := by
  simp only [kafkaDataCmp, u8ncmp, KafkaData.id, Client.mk.injEq]
  split_ifs <;> simp_all

-- The count of a client in some slots.
def counts (slots : List Slot) (client : Client) : ℕ :=
  (slots.map fun slot => if slot.id = client then slot.topicNum.toNat else 0).sum

@[simp] theorem counts_nil (client : Client) : counts [] client = 0 := rfl

@[simp] theorem counts_cons (slot : Slot) (slots : List Slot) (client : Client) :
    counts (slot :: slots) client =
      (if slot.id = client then slot.topicNum.toNat else 0) + counts slots client := by
  rw [counts, List.map_cons, List.sum_cons]
  rfl

@[simp] theorem counts_append (first second : List Slot) (client : Client) :
    counts (first ++ second) client = counts first client + counts second client := by
  rw [counts, List.map_append, List.sum_append]
  rfl

theorem counts_replicate_zero (free : ℕ) (client : Client) :
    counts (List.replicate free Slot.zero) client = 0 := by
  induction free with
  | zero => rfl
  | succ free ih =>
      rw [List.replicate_succ, counts_cons, ih]
      have hzero : Slot.zero.topicNum.toNat = 0 := rfl
      rw [hzero]
      split_ifs <;> rfl

theorem counts_of_find_none {slots : List Slot} {client : Client}
    (hfind : HashTable.find Slot.id slots client = none) : counts slots client = 0 := by
  rw [HashTable.find_eq_none] at hfind
  induction slots with
  | nil => rfl
  | cons slot slots ih =>
      obtain ⟨hslot, hslots⟩ := List.forall_mem_cons.mp hfind
      rw [counts_cons, if_neg hslot, ih hslots]

-- With one slot a client, its count is that of its slot.
theorem counts_of_find_some {slots : List Slot} {client : Client} {slot : Slot}
    (hnodup : (slots.map Slot.id).Nodup)
    (hfind : HashTable.find Slot.id slots client = some slot) :
    counts slots client = slot.topicNum.toNat := by
  induction slots with
  | nil => simp at hfind
  | cons head slots ih =>
      rw [List.map_cons, List.nodup_cons] at hnodup
      rw [counts_cons]
      by_cases hhead : head.id = client
      · rw [HashTable.find_cons_self hhead] at hfind
        cases hfind
        have hrest : counts slots client = 0 := by
          apply counts_of_find_none
          rw [HashTable.find_eq_none]
          rintro other hother rfl
          exact hnodup.1 (hhead ▸ List.mem_map_of_mem hother)
        rw [if_pos hhead, hrest, Nat.add_zero]
      · rw [HashTable.find_cons_of_ne hhead] at hfind
        rw [if_neg hhead, ih hnodup.2 hfind, Nat.zero_add]

-- The slot that is changed counts anew, the others as before.
theorem counts_modify {change : Slot → Slot} (hid : ∀ slot, (change slot).id = slot.id)
    {slots : List Slot} {client : Client} {slot : Slot}
    (hnodup : (slots.map Slot.id).Nodup)
    (hfind : HashTable.find Slot.id slots client = some slot) (other : Client) :
    counts (HashTable.modify Slot.id change slots client) other =
      if other = client then (change slot).topicNum.toNat else counts slots other := by
  have hmodify : (HashTable.modify Slot.id change slots client).map Slot.id = slots.map Slot.id :=
    HashTable.map_key_modify hid
  have hother : HashTable.find Slot.id (HashTable.modify Slot.id change slots client) other =
      if other = client then (HashTable.find Slot.id slots client).map change
      else HashTable.find Slot.id slots other := HashTable.find_modify hid
  split_ifs at hother ⊢ with heq
  · rw [hfind] at hother
    exact counts_of_find_some (hmodify ▸ hnodup) hother
  · cases hold : HashTable.find Slot.id slots other with
    | none =>
        rw [counts_of_find_none hold]
        exact counts_of_find_none (hother.trans hold)
    | some found =>
        rw [counts_of_find_some hnodup hold]
        exact counts_of_find_some (hmodify ▸ hnodup) (hother.trans hold)

-- No slot without a count stands before one with a count.
def CountedFirst (slots : List Slot) : Prop :=
  slots.Pairwise fun front back => front.topicNum = 0 → back.topicNum = 0

theorem counts_eq_zero_iff (slots : List Slot) :
    (∀ client, counts slots client = 0) ↔ ∀ slot ∈ slots, slot.topicNum = 0 := by
  induction slots with
  | nil => simp
  | cons slot slots ih =>
      rw [List.forall_mem_cons, ← ih]
      constructor
      · intro h
        refine ⟨?_, fun client => ?_⟩
        · have hself := h slot.id
          rw [counts_cons, if_pos rfl] at hself
          apply UInt32.toNat_inj.mp
          rw [UInt32.toNat_zero]
          omega
        · have hclient := h client
          rw [counts_cons] at hclient
          omega
      · rintro ⟨hslot, hslots⟩ client
        rw [counts_cons, hslots, hslot]
        simp

-- The number that some lines show for a client.
def shown : List Line → Client → ℤ
  | [], _ => 0
  | line :: lines, client => (if line.client.id = client then line.num else 0) + shown lines client

theorem shown_append (first second : List Line) (client : Client) :
    shown (first ++ second) client = shown first client + shown second client := by
  induction first with
  | nil => rw [List.nil_append, shown, Int.zero_add]
  | cons line first ih => rw [List.cons_append, shown, shown, ih, Int.add_assoc]

theorem line_num (slot : Slot) :
    slot.line.num ≤ slot.topicNum.toNat ∧
      (slot.line.num = slot.topicNum.toNat ↔ slot.topicNum.toNat < 2 ^ 31) := by
  have hlt := slot.topicNum.toNat_lt
  have hnum : slot.line.num = if 2 * slot.topicNum.toNat < 2 ^ 32 then (slot.topicNum.toNat : ℤ)
      else slot.topicNum.toNat - 2 ^ 32 := BitVec.toInt_eq_toNat_cond _
  rw [hnum]
  split_ifs <;> omega

theorem outputArrayTerminal_cons (slot : Slot) (slots : List Slot) :
    outputArrayTerminal (slot :: slots) =
      if slot.topicNum = 0 then [] else slot.line :: outputArrayTerminal slots := by
  rw [outputArrayTerminal]
  split_ifs with hzero
  · rw [List.takeWhile_cons_of_neg (by simp [hzero])]
    rfl
  · rw [List.takeWhile_cons_of_pos (by simp [hzero])]
    rfl

theorem shown_line (slot : Slot) (lines : List Line) (client : Client) :
    shown (slot.line :: lines) client =
      (if slot.id = client then slot.line.num else 0) + shown lines client := rfl

theorem shown_output_le (slots : List Slot) (client : Client) :
    shown (outputArrayTerminal slots) client ≤ counts slots client := by
  induction slots with
  | nil => exact Int.le_refl _
  | cons slot slots ih =>
      have hle := (line_num slot).1
      rw [outputArrayTerminal_cons, counts_cons]
      split_ifs
      · rw [shown]
        omega
      · rw [shown]
        omega
      · rw [shown_line, if_pos ‹_›]
        omega
      · rw [shown_line, if_neg ‹_›]
        omega

-- What is printed are the counts, exactly if none is behind a missing one and each of them
-- is an `int`.
theorem shown_output_iff (slots : List Slot) :
    (∀ client, shown (outputArrayTerminal slots) client = counts slots client) ↔
      CountedFirst slots ∧ ∀ slot ∈ slots, slot.topicNum.toNat < 2 ^ 31 := by
  rw [CountedFirst]
  induction slots with
  | nil => simp [outputArrayTerminal, shown]
  | cons slot slots ih =>
      rw [List.pairwise_cons, List.forall_mem_cons, outputArrayTerminal_cons]
      simp only [counts_cons]
      by_cases hzero : slot.topicNum = 0
      · have hslot : slot.topicNum.toNat = 0 := by rw [hzero]; rfl
        simp only [hzero, if_pos, forall_true_left, shown]
        constructor
        · intro h
          have hall : ∀ back ∈ slots, back.topicNum = 0 := by
            refine (counts_eq_zero_iff slots).mp fun client => ?_
            have hclient := h client
            omega
          refine ⟨⟨hall, ?_⟩, by decide, fun back hback => ?_⟩
          · exact List.pairwise_of_forall_mem_list fun _ _ back hback _ => hall back hback
          · rw [hall back hback]
            decide
        · rintro ⟨⟨hall, -⟩, -⟩ client
          rw [(counts_eq_zero_iff slots).mpr hall client]
          simp
      · obtain ⟨hle, hint⟩ := line_num slot
        rw [if_neg hzero, ← hint]
        simp only [shown_line, hzero, false_implies, implies_true, true_and]
        constructor
        · intro h
          have hself := h slot.id
          have hrest := shown_output_le slots slot.id
          rw [if_pos rfl, if_pos rfl] at hself
          have hnum : slot.line.num = slot.topicNum.toNat := by omega
          obtain ⟨hfirst, hsmall⟩ := ih.mp fun client => by
            have hclient := h client
            rw [hnum] at hclient
            split_ifs at hclient <;> omega
          exact ⟨hfirst, hnum, hsmall⟩
        · rintro ⟨hfirst, hnum, hsmall⟩ client
          rw [hnum, ih.mpr ⟨hfirst, hsmall⟩ client]
          split_ifs <;> simp

-- The arrays: slots of different clients, then free ones.
structure Held (clientArray used : List Slot) (free : ℕ) : Prop where
  array_eq : clientArray = used ++ List.replicate free Slot.zero
  srcIp : ∀ slot ∈ used, slot.client.srcIp ≠ 0
  nodup : (used.map Slot.id).Nodup

variable {clientArray used : List Slot} {free : ℕ} {newClient : KafkaData}

theorem Held.counts_eq (h : Held clientArray used free) : counts clientArray = counts used := by
  funext client
  rw [h.array_eq, counts_append, counts_replicate_zero, Nat.add_zero]

-- A client with an address is looked for among the used slots only.
theorem Held.find_eq (h : Held clientArray used free) {client : Client} (hsrc : client.srcIp ≠ 0) :
    HashTable.find Slot.id clientArray client = HashTable.find Slot.id used client := by
  have hfree : (List.replicate free Slot.zero).find? (fun slot => slot.id = client) = none := by
    rw [List.find?_eq_none]
    intro slot hslot
    rw [List.eq_of_mem_replicate hslot]
    have hne : Slot.zero.id ≠ client := fun heq => hsrc (heq ▸ rfl)
    simpa using hne
  rw [HashTable.find, h.array_eq, List.find?_append, hfree, Option.or_none]
  rfl

theorem refresh_id (newClient : KafkaData) (slot : Slot) :
    (slot.refresh newClient).id = slot.id := by
  rw [Slot.refresh]
  split_ifs <;> rfl

theorem refreshArray_replicate (free : ℕ) : refreshArray newClient (List.replicate free Slot.zero) =
    if free = 0 then none
    else some (Slot.zero.take newClient :: List.replicate (free - 1) Slot.zero) := by
  cases free with
  | zero => rfl
  | succ free => rfl

-- The slot of the client is refreshed, or else the first free one is taken.
theorem Held.refreshArray_eq (h : Held clientArray used free) :
    refreshArray newClient clientArray =
      if (HashTable.find Slot.id used newClient.id).isSome then
        some (HashTable.modify Slot.id (Slot.refresh newClient) used newClient.id ++
          List.replicate free Slot.zero)
      else if free = 0 then none
      else some (used ++ Slot.zero.take newClient :: List.replicate (free - 1) Slot.zero) := by
  rw [h.array_eq]
  have hsrc := h.srcIp
  clear h
  induction used with
  | nil => rw [List.nil_append, refreshArray_replicate]; rfl
  | cons slot used ih =>
      obtain ⟨hslot, hused⟩ := List.forall_mem_cons.mp hsrc
      rw [List.cons_append, refreshArray, if_neg hslot]
      by_cases hid : slot.id = newClient.id
      · rw [if_neg (by rw [not_not]; exact (kafkaDataCmp_eq_zero _ _).mpr hid),
          HashTable.find_cons_self hid, if_pos Option.isSome_some, HashTable.modify, if_pos hid]
        rfl
      · rw [if_pos (fun hcmp => hid ((kafkaDataCmp_eq_zero _ _).mp hcmp)),
          HashTable.find_cons_of_ne hid, ih hused, HashTable.modify, if_neg hid]
        split_ifs <;> rfl

-- What a record adds to the count of its client, from what is known of it: the last
-- position of a consumer.
def grown (known : Option ℕ) (newClient : KafkaData) : ℕ :=
  if newClient.type = producerMsgType then newClient.num.toNat
  else if newClient.type = consumerMsgType then
    match known with
    | none => 1
    | some num => newClient.num.toNat - num
  else 0

-- What the array knows of a client.
def knownNum (clientArray : List Slot) (client : Client) : Option ℕ :=
  (HashTable.find Slot.id clientArray client).map fun slot => slot.client.num.toNat

theorem grown_of_producer {known : Option ℕ} (hproducer : newClient.type = producerMsgType) :
    grown known newClient = newClient.num.toNat :=
  if_pos hproducer

theorem refresh_topicNum (newClient : KafkaData) (slot : Slot) :
    (slot.refresh newClient).topicNum.toNat =
      (slot.topicNum.toNat + grown (some slot.client.num.toNat) newClient) % 2 ^ 32 := by
  have hlt := slot.topicNum.toNat_lt
  rw [Slot.refresh, grown]
  split_ifs with hproducer hconsumer hnum
  · rw [UInt32.toNat_add]
  · rw [UInt32.toNat_add, UInt32.toNat_sub_of_le _ _ (UInt32.le_of_lt hnum)]
  · have hle := UInt32.le_iff_toNat_le.mp (UInt32.not_lt.mp hnum)
    omega
  · omega

theorem take_topicNum (newClient : KafkaData) :
    (Slot.zero.take newClient).topicNum.toNat = grown none newClient := by
  rw [Slot.take, grown]
  dsimp only
  split_ifs with hproducer hconsumer
  · rw [UInt32.toNat_add]
    have hlt := newClient.num.toNat_lt
    have hzero : Slot.zero.topicNum.toNat = 0 := rfl
    omega
  · rfl
  · rfl

theorem refresh_num (newClient : KafkaData) (slot : Slot)
    (hconsumer : newClient.type = consumerMsgType) :
    (slot.refresh newClient).client.num.toNat =
      max slot.client.num.toNat newClient.num.toNat := by
  have hproducer : newClient.type ≠ producerMsgType := by rw [hconsumer]; decide
  rw [Slot.refresh, if_neg hproducer, if_pos hconsumer]
  split_ifs with hnum
  · have hlt := UInt32.lt_iff_toNat_lt.mp hnum
    dsimp only
    omega
  · have hle := UInt32.le_iff_toNat_le.mp (UInt32.not_lt.mp hnum)
    omega

-- What one record does to the arrays, when there is a slot for it.
structure Placed (newClient : KafkaData) (clientArray next : List Slot) : Prop where
  held : ∃ used free, Held next used free
  counts_eq : ∀ client, counts next client =
    if client = newClient.id then
      (counts clientArray client + grown (knownNum clientArray client) newClient) % 2 ^ 32
    else counts clientArray client
  known_eq : ∀ client, client.type = consumerMsgType → client.srcIp ≠ 0 →
    knownNum next client =
      if client = newClient.id then
        some (max ((knownNum clientArray client).getD 0) newClient.num.toNat)
      else knownNum clientArray client

-- A further record of a client.
theorem Held.placed_of_found (h : Held clientArray used free) (hsrc : newClient.srcIp ≠ 0)
    {slot : Slot} (hfind : HashTable.find Slot.id used newClient.id = some slot) :
    Placed newClient clientArray
      (HashTable.modify Slot.id (Slot.refresh newClient) used newClient.id ++
        List.replicate free Slot.zero) := by
  have hid := refresh_id newClient
  have hnext : Held (HashTable.modify Slot.id (Slot.refresh newClient) used newClient.id ++
      List.replicate free Slot.zero)
      (HashTable.modify Slot.id (Slot.refresh newClient) used newClient.id) free := by
    refine ⟨rfl, ?_, ?_⟩
    · refine HashTable.forall_modify (fun entry _ hentry => ?_) h.srcIp
      have hsame : (entry.refresh newClient).client.srcIp = entry.client.srcIp :=
        congrArg Client.srcIp (hid entry)
      rwa [hsame]
    · rw [HashTable.map_key_modify hid]
      exact h.nodup
  have hknown : knownNum clientArray newClient.id = some slot.client.num.toNat := by
    rw [knownNum, h.find_eq hsrc, hfind]
    rfl
  refine ⟨⟨_, _, hnext⟩, fun client => ?_, fun client hconsumer hclient => ?_⟩
  · rw [hnext.counts_eq, h.counts_eq, counts_modify hid h.nodup hfind]
    split_ifs with heq
    · rw [heq, hknown, refresh_topicNum, counts_of_find_some h.nodup hfind]
    · rfl
  · rw [knownNum, hnext.find_eq hclient, HashTable.find_modify hid]
    split_ifs with heq
    · rw [heq, hknown, hfind, Option.map_some, Option.map_some, Option.getD_some,
        refresh_num newClient slot (by rw [← hconsumer, heq]; rfl)]
    · rw [knownNum, h.find_eq hclient]

-- The first record of a client.
theorem Held.placed_of_free (h : Held clientArray used free) (hsrc : newClient.srcIp ≠ 0)
    (hfind : HashTable.find Slot.id used newClient.id = none) :
    Placed newClient clientArray
      (used ++ Slot.zero.take newClient :: List.replicate (free - 1) Slot.zero) := by
  have hid : (Slot.zero.take newClient).id = newClient.id := rfl
  have hnone := HashTable.find_eq_none.mp hfind
  have hnext : Held (used ++ Slot.zero.take newClient :: List.replicate (free - 1) Slot.zero)
      (used ++ [Slot.zero.take newClient]) (free - 1) := by
    refine ⟨by simp, ?_, ?_⟩
    · rw [List.forall_mem_append]
      exact ⟨h.srcIp, by simpa [Slot.take] using hsrc⟩
    · rw [List.map_append, List.nodup_append]
      refine ⟨h.nodup, by simp, ?_⟩
      simpa [hid] using hnone
  have hknown : knownNum clientArray newClient.id = none := by
    rw [knownNum, h.find_eq hsrc, hfind]
    rfl
  have hfound : ∀ client, HashTable.find Slot.id (used ++ [Slot.zero.take newClient]) client =
      if client = newClient.id then some (Slot.zero.take newClient)
      else HashTable.find Slot.id used client := by
    intro client
    rw [HashTable.find, List.find?_append]
    split_ifs with heq
    · subst heq
      have hfirst : used.find? (fun slot => slot.id = newClient.id) = none := hfind
      rw [hfirst]
      simp [hid]
    · simp [hid, Ne.symm heq, HashTable.find]
  refine ⟨⟨_, _, hnext⟩, fun client => ?_, fun client hconsumer hclient => ?_⟩
  · rw [hnext.counts_eq, h.counts_eq, counts_append, counts_cons, counts_nil, hid]
    split_ifs with heq heq' heq'
    · have hlt := (Slot.zero.take newClient).topicNum.toNat_lt
      rw [take_topicNum] at hlt ⊢
      rw [← heq, counts_of_find_none hfind, hknown]
      omega
    · exact absurd heq.symm heq'
    · exact absurd heq'.symm heq
    · rfl
  · rw [knownNum, hnext.find_eq hclient, hfound]
    split_ifs with heq
    · rw [heq, hknown]
      simp [Slot.take]
    · rw [knownNum, h.find_eq hclient]

theorem Held.placed (h : Held clientArray used free) (hsrc : newClient.srcIp ≠ 0)
    {next : List Slot} (hnext : refreshArray newClient clientArray = some next) :
    Placed newClient clientArray next := by
  rw [h.refreshArray_eq] at hnext
  cases hfind : HashTable.find Slot.id used newClient.id with
  | some slot =>
      rw [hfind, if_pos Option.isSome_some] at hnext
      cases hnext
      exact h.placed_of_found hsrc hfind
  | none =>
      rw [hfind, if_neg (by simp)] at hnext
      split_ifs at hnext
      cases hnext
      exact h.placed_of_free hsrc hfind

-- The array is full of other clients.
theorem Held.find_of_full (h : Held clientArray used free)
    (hfull : refreshArray newClient clientArray = none) :
    HashTable.find Slot.id used newClient.id = none := by
  rw [h.refreshArray_eq] at hfull
  split_ifs at hfull with hfound
  simpa using hfound

theorem Held.grown_of_full (h : Held clientArray used free) (hsrc : newClient.srcIp ≠ 0)
    (hfull : refreshArray newClient clientArray = none)
    (hconsumer : newClient.type = consumerMsgType) :
    grown (knownNum clientArray newClient.id) newClient = 1 := by
  have hproducer : newClient.type ≠ producerMsgType := by rw [hconsumer]; decide
  rw [knownNum, h.find_eq hsrc, h.find_of_full hfull, Option.map_none, grown, if_neg hproducer,
    if_pos hconsumer]

-- The consumers that a period hands to the next one.
def Slot.isCarried (slot : Slot) : Bool :=
  slot.client.type = consumerMsgType ∧ 0 < slot.topicNum

def Slot.cleared (slot : Slot) : Slot := { slot with topicNum := 0 }

def carried (used : List Slot) : List Slot := (used.filter Slot.isCarried).map Slot.cleared

theorem Held.clean (h : Held clientArray used free) :
    Held (cleanArray clientArray) (carried used) (clientMaxItem - (carried used).length) := by
  have hfree : (List.replicate free Slot.zero).filter Slot.isCarried = [] := by
    rw [List.filter_eq_nil_iff]
    intro slot hslot
    rw [List.eq_of_mem_replicate hslot]
    decide
  refine ⟨?_, ?_, ?_⟩
  · have hkept : clientArray.filter Slot.isCarried = used.filter Slot.isCarried := by
      rw [h.array_eq, List.filter_append, hfree, List.append_nil]
    rw [carried, List.length_map, ← hkept]
    rfl
  · intro slot hslot
    obtain ⟨other, hother, rfl⟩ := List.mem_map.mp hslot
    exact h.srcIp other (List.mem_filter.mp hother).1
  · rw [carried, List.map_map]
    exact h.nodup.sublist (List.filter_sublist.map Slot.id)

theorem counts_carried (used : List Slot) (client : Client) : counts (carried used) client = 0 := by
  refine (counts_eq_zero_iff _).mpr (fun slot hslot => ?_) client
  obtain ⟨other, -, rfl⟩ := List.mem_map.mp hslot
  rfl

-- A consumer is known in the next period if it was counted in this one.
theorem Held.knownNum_clean (h : Held clientArray used free) {client : Client}
    (hconsumer : client.type = consumerMsgType) (hclient : client.srcIp ≠ 0) :
    knownNum (cleanArray clientArray) client =
      if 0 < counts clientArray client then knownNum clientArray client else none := by
  have hid : ∀ slot, Slot.id (Slot.cleared slot) = slot.id := fun _ => rfl
  rw [knownNum, h.clean.find_eq hclient, carried, HashTable.find_map hid,
    HashTable.find_filter _ h.nodup, knownNum, h.find_eq hclient, h.counts_eq]
  cases hfind : HashTable.find Slot.id used client with
  | none =>
      rw [counts_of_find_none hfind]
      rfl
  | some slot =>
      have hid : slot.id = client := HashTable.key_of_find hfind
      have htype : slot.client.type = consumerMsgType := (congrArg Client.type hid).trans hconsumer
      have hpos : slot.isCarried = true ↔ 0 < slot.topicNum.toNat := by
        rw [Slot.isCarried, decide_eq_true_iff, UInt32.lt_iff_toNat_lt]
        exact and_iff_right htype
      rw [counts_of_find_some h.nodup hfind, Option.filter_some]
      by_cases hcount : 0 < slot.topicNum.toNat
      · rw [if_pos (hpos.mpr hcount), if_pos hcount]
        rfl
      · rw [if_neg (mt hpos.mp hcount), if_neg hcount]
        rfl

variable {newClient : KafkaData}

-- What is collected, for any number of clients: the count of each in the running
-- period, and the last position of the consumers that are followed.
structure Tally where
  known : Client → Option ℕ
  count : Client → ℕ

def Tally.refresh (tally : Tally) (newClient : KafkaData) : Tally where
  known client :=
    if client = newClient.id then
      some (max ((tally.known client).getD 0) newClient.num.toNat)
    else tally.known client
  count client :=
    if client = newClient.id then tally.count client + grown (tally.known client) newClient
    else tally.count client

def Tally.clean (tally : Tally) : Tally where
  known client := if 0 < tally.count client then tally.known client else none
  count _ := 0

-- The tally of the running period, and the counts of the periods before it.
structure Ledger where
  tally : Tally
  periods : List (Client → ℕ)

def Ledger.initial : Ledger :=
  { tally := { known := fun _ => none, count := fun _ => 0 }, periods := [] }

def Ledger.step (ledger : Ledger) : Action → Ledger
  | .refresh newClient => { ledger with tally := ledger.tally.refresh newClient }
  | .report =>
      { tally := ledger.tally.clean, periods := ledger.periods ++ [ledger.tally.count] }

def ledger (actions : List Action) : Ledger := actions.foldl Ledger.step Ledger.initial

-- The messages of a producer that were collected.
def collected (actions : List Action) (client : Client) : ℕ :=
  (actions.map fun action =>
    match action with
    | .refresh newClient => if newClient.id = client then newClient.num.toNat else 0
    | .report => 0).sum

theorem ledger_concat (actions : List Action) (action : Action) :
    ledger (actions ++ [action]) = (ledger actions).step action := by
  rw [ledger, List.foldl_append]
  rfl

theorem collected_concat (actions : List Action) (action : Action) (client : Client) :
    collected (actions ++ [action]) client = collected actions client +
      match action with
      | .refresh newClient => if newClient.id = client then newClient.num.toNat else 0
      | .report => 0 := by
  rw [collected, List.map_append, List.sum_append]
  simp [collected]

-- The counts of a producer, over all periods, are the messages collected.
theorem ledger_producer (actions : List Action) {client : Client}
    (hproducer : client.type = producerMsgType) :
    ((ledger actions).periods.map fun period => period client).sum +
      (ledger actions).tally.count client = collected actions client := by
  induction actions using List.reverseRecOn with
  | nil => rfl
  | append_singleton actions action ih =>
      rw [ledger_concat, collected_concat, ← ih]
      cases action with
      | refresh newClient =>
          simp only [Ledger.step, Tally.refresh]
          by_cases heq : client = newClient.id
          · have htype : newClient.type = producerMsgType := by
              rw [← hproducer, heq]
              rfl
            rw [if_pos heq, if_pos heq.symm, grown_of_producer htype]
            omega
          · rw [if_neg heq, if_neg (Ne.symm heq)]
            rfl
      | report =>
          simp [Ledger.step, Tally.clean]

-- What is collected is in the arrays or has been printed, client by client.
def Complete (done : List Action) (state : State) : Prop :=
  counts state.clientArray = (ledger done).tally.count ∧
    state.printed.map shown = (ledger done).periods.map (fun period client => (period client : ℤ)) ∧
    ∀ client, client.type = producerMsgType →
      shown state.printed.flatten client + counts state.clientArray client = collected done client

-- The records have an address: `collect` gives no others.
def Legal (_ : List Action) (_ : State) : Action → Prop
  | .refresh newClient => newClient.srcIp ≠ 0
  | .report => True

instance : ∀ done state action, Decidable (Legal done state action)
  | _, _, .refresh newClient => inferInstanceAs (Decidable (newClient.srcIp ≠ 0))
  | _, _, .report => inferInstanceAs (Decidable True)

-- A record is counted: there is a slot for it, or nothing to count, and the count fits
-- in 32 bits. At the end of a period no slot without a count hides one with a count, and
-- each count is printed as itself.
def Allowed (_ : List Action) (state : State) : Action → Prop
  | .refresh newClient =>
      let client := newClient.id
      let more := grown (knownNum state.clientArray client) newClient
      ((refreshArray newClient state.clientArray).isSome ∨ more = 0) ∧
        counts state.clientArray client + more < 2 ^ 32
  | .report =>
      CountedFirst state.clientArray ∧ ∀ slot ∈ state.clientArray, slot.topicNum.toNat < 2 ^ 31

structure Inv (done : List Action) (state : State) : Prop where
  held : ∃ used free, Held state.clientArray used free
  counts_eq : counts state.clientArray = (ledger done).tally.count
  known_eq : ∀ client, client.type = consumerMsgType → client.srcIp ≠ 0 →
    knownNum state.clientArray client = (ledger done).tally.known client
  periods_eq : state.printed.map shown =
    (ledger done).periods.map fun period client => (period client : ℤ)

theorem inv_initial : Inv [] State.initial := by
  have hheld : Held State.initial.clientArray [] clientMaxItem := ⟨rfl, by simp, by simp⟩
  refine ⟨⟨_, _, hheld⟩, ?_, fun client _ hclient => ?_, rfl⟩
  · rw [hheld.counts_eq]
    rfl
  · rw [knownNum, hheld.find_eq hclient]
    rfl

-- The lines of all periods.
theorem shown_flatten {printed : List (List Line)} {periods : List (Client → ℕ)}
    (h : printed.map shown = periods.map fun period client => (period client : ℤ))
    (client : Client) :
    shown printed.flatten client = (periods.map fun period => period client).sum := by
  induction printed generalizing periods with
  | nil =>
      rw [List.map_nil, eq_comm, List.map_eq_nil_iff] at h
      rw [h]
      rfl
  | cons lines printed ih =>
      cases periods with
      | nil => cases h
      | cons period periods =>
          obtain ⟨hfirst, hrest⟩ := List.cons_eq_cons.mp h
          rw [List.flatten_cons, shown_append, ih hrest, hfirst, List.map_cons, List.sum_cons]
          rfl

theorem Inv.complete {done : List Action} {state : State} (h : Inv done state) :
    Complete done state := by
  refine ⟨h.counts_eq, h.periods_eq, fun client hproducer => ?_⟩
  rw [← ledger_producer done hproducer, ← h.counts_eq, shown_flatten h.periods_eq]
  rfl

-- What a record adds is the same for the array and for the tally.
theorem Inv.grown_eq {done : List Action} {state : State} (h : Inv done state)
    (hsrc : newClient.srcIp ≠ 0) :
    grown (knownNum state.clientArray newClient.id) newClient =
      grown ((ledger done).tally.known newClient.id) newClient := by
  by_cases hconsumer : newClient.type = consumerMsgType
  · rw [h.known_eq newClient.id hconsumer hsrc]
  · simp only [grown, if_neg hconsumer]

theorem Inv.refresh {done : List Action} {state : State} (h : Inv done state)
    (hsrc : newClient.srcIp ≠ 0) (hallowed : Allowed done state (.refresh newClient)) :
    Inv (done ++ [.refresh newClient]) (step state (.refresh newClient)) := by
  obtain ⟨used, free, hheld⟩ := h.held
  obtain ⟨hplace, hfits⟩ := hallowed
  have hgrown := h.grown_eq hsrc
  cases hnext : refreshArray newClient state.clientArray with
  | some next =>
      have hplaced := hheld.placed hsrc hnext
      have hstep : step state (.refresh newClient) = { state with clientArray := next } := by
        rw [step, hnext]
        rfl
      rw [hstep]
      refine ⟨hplaced.held, ?_, fun client hconsumer hclient => ?_, ?_⟩
      · funext client
        rw [ledger_concat, hplaced.counts_eq]
        simp only [Ledger.step, Tally.refresh]
        split_ifs with heq
        · rw [heq, Nat.mod_eq_of_lt hfits, hgrown, h.counts_eq]
        · rw [h.counts_eq]
      · rw [ledger_concat, hplaced.known_eq client hconsumer hclient, h.known_eq client hconsumer hclient]
        rfl
      · rw [ledger_concat, h.periods_eq]
        rfl
  | none =>
      have hmore := hplace.resolve_left (by simp [hnext])
      have hconsumer : newClient.type ≠ consumerMsgType := by
        intro htype
        rw [hheld.grown_of_full hsrc hnext htype] at hmore
        exact Nat.one_ne_zero hmore
      have hstep : step state (.refresh newClient) = state := by
        rw [step, hnext]
        rfl
      rw [hstep]
      refine ⟨h.held, ?_, fun client htype hclient => ?_, ?_⟩
      · funext client
        rw [ledger_concat, h.counts_eq]
        simp only [Ledger.step, Tally.refresh]
        split_ifs with heq
        · rw [heq, ← hgrown, hmore, Nat.add_zero]
        · rfl
      · have hne : client ≠ newClient.id := by
          rintro rfl
          exact hconsumer htype
        rw [ledger_concat, h.known_eq client htype hclient]
        exact (if_neg hne).symm
      · rw [ledger_concat, h.periods_eq]
        rfl

theorem Inv.report {done : List Action} {state : State} (h : Inv done state)
    (hallowed : Allowed done state .report) : Inv (done ++ [.report]) (step state .report) := by
  obtain ⟨used, free, hheld⟩ := h.held
  refine ⟨⟨_, _, hheld.clean⟩, ?_, fun client hconsumer hclient => ?_, ?_⟩
  · rw [ledger_concat]
    funext client
    exact (congrFun hheld.clean.counts_eq client).trans (counts_carried used client)
  · rw [ledger_concat, step, hheld.knownNum_clean hconsumer hclient, h.counts_eq,
      h.known_eq client hconsumer hclient]
    rfl
  · have hlines := funext ((shown_output_iff _).mpr hallowed)
    rw [ledger_concat, step, List.map_append, h.periods_eq, List.map_singleton, hlines,
      h.counts_eq, Ledger.step, List.map_append]
    rfl

-- A record that is not counted, or whose count overflows, leaves the array with
-- less than was collected.
theorem allowed_of_complete_refresh {done : List Action} {state : State} (h : Inv done state)
    (hsrc : newClient.srcIp ≠ 0)
    (hcomplete : Complete (done ++ [.refresh newClient]) (step state (.refresh newClient))) :
    Allowed done state (.refresh newClient) := by
  obtain ⟨used, free, hheld⟩ := h.held
  have hcount := congrFun hcomplete.1 newClient.id
  have htally : (ledger (done ++ [.refresh newClient])).tally.count newClient.id =
      counts state.clientArray newClient.id +
        grown (knownNum state.clientArray newClient.id) newClient := by
    rw [ledger_concat, h.counts_eq, h.grown_eq hsrc]
    exact if_pos rfl
  rw [htally, step] at hcount
  cases hnext : refreshArray newClient state.clientArray with
  | some next =>
      rw [hnext, Option.getD_some, (hheld.placed hsrc hnext).counts_eq, if_pos rfl] at hcount
      refine ⟨.inl (by rw [hnext]; rfl), ?_⟩
      rw [← hcount]
      exact Nat.mod_lt _ (by decide)
  | none =>
      rw [hnext, Option.getD_none] at hcount
      have hzero : counts state.clientArray newClient.id = 0 := by
        rw [hheld.counts_eq]
        exact counts_of_find_none (hheld.find_of_full hnext)
      dsimp only at hcount
      refine ⟨.inr (by omega), ?_⟩
      rw [← hcount, hzero]
      decide

theorem allowed_of_complete_report {done : List Action} {state : State} (h : Inv done state)
    (hcomplete : Complete (done ++ [.report]) (step state .report)) :
    Allowed done state .report := by
  have hperiods := hcomplete.2.1
  rw [ledger_concat, step, List.map_append, List.map_singleton, Ledger.step, List.map_append,
    h.periods_eq, ← h.counts_eq] at hperiods
  have hlast := List.append_cancel_left hperiods
  exact (shown_output_iff _).mp (congrFun (List.cons_eq_cons.mp hlast).1)

-- Every period prints each client with what was collected from it, exactly if at the end
-- of none a slot without a count stands before one with a count. The array must have a
-- slot for every client with something to count, and the counts must not overflow.
theorem report_complete_iff (actions : List Action)
    (hlegal : EachStep step State.initial Legal actions) :
    Throughout step State.initial Complete actions ↔
      EachStep step State.initial Allowed actions := by
  refine throughout_iff_eachStep Inv inv_initial (fun _ _ h => h.complete) ?_ ?_ hlegal
  · intro done state action hinv hlegal hallowed
    cases action with
    | refresh newClient => exact hinv.refresh hlegal hallowed
    | report => exact hinv.report hallowed
  · intro done state action hinv hlegal hcomplete
    cases action with
    | refresh newClient => exact allowed_of_complete_refresh hinv hlegal hcomplete
    | report => exact allowed_of_complete_report hinv hcomplete

-- A record from one address.
def recordOf (type : UInt16) (num : UInt32) : KafkaData :=
  { Slot.zero.client with type, num, srcIp := 1 }

theorem report_complete_iff_witness :
    Throughout step State.initial Complete
        [.refresh (recordOf producerMsgType 3), .refresh (recordOf consumerMsgType 5), .report] ↔
      EachStep step State.initial Allowed
        [.refresh (recordOf producerMsgType 3), .refresh (recordOf consumerMsgType 5), .report] :=
  report_complete_iff _ (by decide)

def clients (actions : List Action) : List Client :=
  (actions.filterMap fun action =>
    match action with
    | .refresh newClient => some newClient.id
    | .report => none).dedup

-- A consumer of the first period, without news in the second, hides the producer of
-- the second: its three messages are neither printed nor kept.
theorem report_producer_lost :
    ¬ ∀ actions, EachStep step State.initial Legal actions →
      (clients actions).length < clientMaxItem →
      Throughout step State.initial Complete actions := by
  intro h
  have hall := h [.refresh (recordOf consumerMsgType 5), .report,
    .refresh (recordOf producerMsgType 3), .report] (by decide) (by decide)
  have hprinted := congrArg (List.map fun period => period (recordOf producerMsgType 3).id)
    hall.last.2.1
  exact absurd hprinted (by decide +kernel)

end Gopher.Kafka
