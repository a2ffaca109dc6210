import Gopher.Kafka.Xdp
import Mathlib.Algebra.BigOperators.Group.Finset.Basic
import Mathlib.Data.Fintype.BigOperators
import Mathlib.Data.Fintype.Option

-- The records go from the programs on the CPUs to the collector through the items of two
-- maps. Each access to a map is a step of its own.

namespace Gopher.Kafka.Handover

open Lib Xdp

def MAP_MAX_ITEM : ℕ := 5

abbrev Pos := Fin MAP_MAX_ITEM

-- The elements 0, 1 and 2 of `xdp_ctrl_map`.
inductive Ctrl
  | empty
  | taken
  | full
  deriving DecidableEq

structure Item where
  ctrl : Ctrl
  data : KafkaData

-- An assignment to the record of an item.
inductive Store
  | srcIp (value : UInt32)
  | srcPort (value : UInt16)
  | dstPort (value : UInt16)
  | type (value : UInt16)
  | len (value : UInt16)
  | num (value : UInt32)
  | byte (index : ℕ) (value : UInt8)

def Store.run (rec : KafkaData) : Store → KafkaData
  | srcIp value => { rec with srcIp := value }
  | srcPort value => { rec with srcPort := value }
  | dstPort value => { rec with dstPort := value }
  | type value => { rec with type := value }
  | len value => { rec with len := value }
  | num value => { rec with num := value }
  | byte index value => { rec with data := rec.data.setIfInBounds index value }

-- The loop of `copy_data`.
def bytesFrom : ℕ → List UInt8 → List Store
  | _, [] => []
  | index, byte :: bytes => .byte index byte :: bytesFrom (index + 1) bytes

-- What `parse_producer` and `parse_consumer` assign, in their order.
def stores (found : Found) : List Store :=
  [.srcIp found.srcIp, .srcPort found.srcPort, .dstPort found.dstPort, .type found.type,
    .len found.len.toUInt16] ++
  (if smallBufSize < found.len.toNat then [.len smallBufSize.toUInt16] else []) ++
  .num found.num :: bytesFrom 0 found.data

-- Where a program is: in `get_empty_data` before the lookup of the next control word, before
-- it takes an item, or before one of its assignments to it.
inductive Place
  | look (left : List Pos)
  | claim (pos : Pos)
  | fill (pos : Pos) (left : List Store)

structure Prog where
  found : Found
  place : Place

-- The words of the record that a lookup copies one after the other.
def KAFKA_DATA_WORDS : ℕ := 10

def copyWord (source copy : KafkaData) (word : ℕ) : KafkaData :=
  match word with
  | 0 => { copy with type := source.type, len := source.len, num := source.num }
  | 1 => { copy with srcIp := source.srcIp, srcPort := source.srcPort, dstPort := source.dstPort }
  | block + 2 =>
      { copy with
        data := Vector.ofFn fun i => if i.val / 8 = block then source.data[i] else copy.data[i] }

-- Where `collect` is: before the lookup of the next control word, in the lookup of a record,
-- of which `value` is copied, before it empties the item, or behind the loop, which it left
-- with `break` or in the end.
inductive Collector
  | idle
  | look (left : List Pos) (data : KafkaData)
  | copy (pos : Pos) (left : List Pos) (words : List ℕ) (value data : KafkaData)
  | clear (pos : Pos) (left : List Pos) (data : KafkaData)
  | broke (data : KafkaData)
  | ended (data : KafkaData)

-- The maps, the programs, the collector, what was stored so far and where, and what was
-- collected.
structure State where
  port : UInt16
  items : Pos → Item
  progs : ℕ → Option Prog
  collector : Collector
  published : List (Pos × Found)
  delivered : List KafkaData

-- What `memset` leaves.
def zeroData : KafkaData := Slot.zero.client

def State.initial : State :=
  { port := 0, items := fun _ => ⟨.empty, zeroData⟩, progs := fun _ => none, collector := .idle
    published := [], delivered := [] }

def State.setCtrl (state : State) (pos : Pos) (ctrl : Ctrl) : State :=
  { state with items := Function.update state.items pos { state.items pos with ctrl } }

def State.setData (state : State) (pos : Pos) (data : KafkaData) : State :=
  { state with items := Function.update state.items pos { state.items pos with data } }

def State.setProg (state : State) (cpu : ℕ) (prog : Option Prog) : State :=
  { state with progs := Function.update state.progs cpu prog }

def State.setCollector (state : State) (collector : Collector) : State :=
  { state with collector }

def State.publish (state : State) (pos : Pos) (found : Found) : State :=
  { state with published := state.published ++ [(pos, found)] }

def State.deliver (state : State) (data : KafkaData) : State :=
  { state with delivered := state.delivered ++ [data] }

-- A packet comes in on a CPU that runs no program.
def receive (cpu : ℕ) (packet : Packet) (state : State) : State :=
  if (state.progs cpu).isSome then state
  else
    match xdpParserFunc state.port packet with
    | .error _ => state
    | .ok found => state.setProg cpu (some ⟨found, .look (List.finRange MAP_MAX_ITEM)⟩)

-- The next access of the program on a CPU.
def runProg (cpu : ℕ) (state : State) : State :=
  match state.progs cpu with
  | none => state
  | some ⟨_, .look []⟩ => state.setProg cpu none
  | some ⟨found, .look (pos :: left)⟩ =>
      state.setProg cpu (some ⟨found,
        if (state.items pos).ctrl = .empty then .claim pos else .look left⟩)
  | some ⟨found, .claim pos⟩ =>
      (state.setCtrl pos .taken).setProg cpu (some ⟨found, .fill pos (stores found)⟩)
  | some ⟨found, .fill pos (store :: left)⟩ =>
      (state.setData pos (store.run (state.items pos).data)).setProg cpu
        (some ⟨found, .fill pos left⟩)
  | some ⟨found, .fill pos []⟩ =>
      ((state.setCtrl pos .full).setProg cpu none).publish pos found

-- The next step of `collect`. `ok` says whether a system call in it succeeds.
def runCollect (ok : Bool) (state : State) : State :=
  match state.collector with
  | .idle => state.setCollector (.look (List.finRange MAP_MAX_ITEM) zeroData)
  | .look [] data => state.setCollector (.ended data)
  | .look (pos :: left) data =>
      if ok ∧ (state.items pos).ctrl = .full then
        state.setCollector (.copy pos left (List.range KAFKA_DATA_WORDS) zeroData data)
      else state.setCollector (.look left data)
  | .copy pos left (word :: words) value data =>
      if ok then
        state.setCollector (.copy pos left words (copyWord (state.items pos).data value word) data)
      else state.setCollector (.look left data)
  | .copy pos left [] value _ => state.setCollector (.clear pos left value)
  | .clear pos left data =>
      if ok then (state.setCtrl pos .empty).setCollector (.broke data)
      else state.setCollector (.look left data)
  | .broke data | .ended data =>
      if data.srcIp = 0 then state.setCollector .idle
      else (state.setCollector .idle).deliver data

-- What may happen next on any CPU, in the probe and with the configuration.
inductive Action
  | receive (cpu : ℕ) (packet : Packet)
  | runProg (cpu : ℕ)
  | runCollect (ok : Bool)
  | refreshPortMap (port : UInt16)

def step (state : State) : Action → State
  | .receive cpu packet => receive cpu packet state
  | .runProg cpu => runProg cpu state
  | .runCollect ok => runCollect ok state
  | .refreshPortMap port => { state with port }

-- What a record says.
structure Message where
  client : Client
  num : UInt32
  deriving DecidableEq

end Gopher.Kafka.Handover

namespace Gopher.Kafka

open Handover Xdp

def KafkaData.message (data : KafkaData) : Message := ⟨data.id, data.num⟩

def Xdp.Found.message (found : Found) : Message where
  client :=
    { type := found.type, srcIp := found.srcIp, srcPort := found.srcPort
      dstPort := found.dstPort, len := (recLen found.len).toUInt16
      topic := found.data.take (recLen found.len) }
  num := found.num

-- The record after all assignments.
def Xdp.Found.write (found : Found) (base : KafkaData) : KafkaData :=
  (stores found).foldl Store.run base

end Gopher.Kafka

namespace Gopher.Kafka.Handover

open Lib Xdp

variable {found : Found} {base : KafkaData}

-- `copy_data` leaves the bytes behind its own.
theorem foldl_bytesFrom (bytes : List UInt8) (index : ℕ) (base : KafkaData) :
    ∃ data, (bytesFrom index bytes).foldl Store.run base = { base with data } ∧
      ∀ i (_ : i < smallBufSize), data[i] =
        if index ≤ i then (bytes[i - index]?).getD base.data[i] else base.data[i] := by
  induction bytes generalizing index base with
  | nil => exact ⟨base.data, rfl, fun i hi => by simp⟩
  | cons byte bytes ih =>
      obtain ⟨data, heq, hdata⟩ := ih (index + 1) (Store.run base (.byte index byte))
      refine ⟨data, by rw [bytesFrom, List.foldl_cons, heq]; rfl, fun i hi => ?_⟩
      rw [hdata i hi]
      have hset : (Store.run base (.byte index byte)).data[i] =
          if index = i then byte else base.data[i] := by
        simp only [Store.run, Vector.getElem_setIfInBounds]
      rw [hset]
      rcases Nat.lt_trichotomy i index with hlt | rfl | hgt
      · rw [if_neg (show ¬ index + 1 ≤ i by omega), if_neg (show ¬ index = i by omega),
          if_neg (show ¬ index ≤ i by omega)]
      · rw [if_neg (Nat.not_succ_le_self i), if_pos rfl, if_pos le_rfl, Nat.sub_self]
        rfl
      · rw [if_pos (show index + 1 ≤ i by omega), if_neg (show ¬ index = i by omega),
          if_pos (show index ≤ i by omega), show i - index = i - (index + 1) + 1 by omega,
          List.getElem?_cons_succ]

theorem write_eq (found : Found) (base : KafkaData) :
    ∃ data, found.write base =
        { type := found.type, len := (recLen found.len).toUInt16, num := found.num
          srcIp := found.srcIp, srcPort := found.srcPort, dstPort := found.dstPort, data } ∧
      ∀ i (_ : i < smallBufSize), data[i] = (found.data[i]?).getD base.data[i] := by
  rw [Found.write, stores, List.foldl_append, List.foldl_append, List.foldl_cons]
  obtain ⟨data, heq, hdata⟩ := foldl_bytesFrom found.data 0
    (Store.run ((if smallBufSize < found.len.toNat then [Store.len smallBufSize.toUInt16]
      else []).foldl Store.run ([.srcIp found.srcIp, .srcPort found.srcPort,
        .dstPort found.dstPort, .type found.type, .len found.len.toUInt16].foldl
          Store.run base)) (.num found.num))
  refine ⟨data, ?_, fun i hi => ?_⟩
  · rw [heq]
    split_ifs with hlong
    · rw [recLen, Nat.min_eq_right (by omega)]
      rfl
    · rw [recLen, Nat.min_eq_left (by omega)]
      have hlen : found.len.toUInt16 = found.len.toNat.toUInt16 := by
        simp [Nat.toUInt16]
      rw [← hlen]
      rfl
  · rw [hdata i hi, if_pos (Nat.zero_le i), Nat.sub_zero]
    split_ifs <;> rfl

theorem recLen_le (len : UInt8) : recLen len ≤ smallBufSize := Nat.min_le_right _ _

theorem toNat_recLen (len : UInt8) : (recLen len).toUInt16.toNat = recLen len := by
  have hle := recLen_le len
  rw [Nat.toUInt16, UInt16.toNat_ofNat', Nat.mod_eq_of_lt]
  rw [smallBufSize] at hle
  omega

theorem message_write (hwhole : found.Whole) (base : KafkaData) :
    (found.write base).message = found.message := by
  obtain ⟨data, heq, hdata⟩ := write_eq found base
  have htopic : data.toList.take (recLen found.len) = found.data.take (recLen found.len) := by
    have hle := recLen_le found.len
    have hlength : recLen found.len ≤ found.data.length := hwhole ▸ Nat.le_max_right _ _
    refine List.ext_getElem (by simp; omega) fun i hi hi' => ?_
    rw [List.length_take] at hi'
    rw [List.getElem_take, List.getElem_take, Vector.getElem_toList, hdata i (by omega),
      List.getElem?_eq_getElem (by omega), Option.getD_some]
  rw [heq, KafkaData.message, KafkaData.id, Found.message]
  dsimp only
  rw [toNat_recLen, htopic]

theorem getElem_copyWords (source value : KafkaData) (count i : ℕ) (hi : i < smallBufSize) :
    ((List.range count).foldl (copyWord source) value).data[i] =
      if i / 8 + 2 < count then source.data[i] else value.data[i] := by
  induction count with
  | zero => rfl
  | succ count ih =>
      rw [List.range_succ, List.foldl_append, List.foldl_cons, List.foldl_nil]
      match count with
      | 0 => exact ih
      | 1 => exact ih
      | block + 2 =>
          rw [copyWord, Vector.getElem_ofFn]
          dsimp only
          split_ifs with hblock hnext hnext
          · rfl
          · omega
          · exact ih.trans (if_pos (by omega))
          · exact ih.trans (if_neg (by omega))

theorem fields_copyWords (source value : KafkaData) (count : ℕ) :
    ∃ data, (List.range (count + 2)).foldl (copyWord source) value = { source with data } := by
  induction count with
  | zero => exact ⟨value.data, rfl⟩
  | succ count ih =>
      obtain ⟨data, heq⟩ := ih
      rw [List.range_succ, List.foldl_append, heq]
      exact ⟨_, rfl⟩

-- All words make up the record.
theorem copyWords (source value : KafkaData) :
    (List.range KAFKA_DATA_WORDS).foldl (copyWord source) value = source := by
  obtain ⟨data, heq⟩ := fields_copyWords source value 8
  have hdata : data = source.data := by
    ext i hi
    have hbyte := getElem_copyWords source value (8 + 2) i hi
    rw [smallBufSize] at hi
    rw [if_pos (by omega)] at hbyte
    rw [← hbyte, heq]
  rw [KAFKA_DATA_WORDS, heq, hdata]

section Updates

variable {state : State} {cpu other : ℕ} {pos place : Pos}

@[simp] theorem progs_setProg (prog : Option Prog) : (state.setProg cpu prog).progs cpu = prog :=
  Function.update_self _ _ _

theorem progs_setProg_of_ne (hne : other ≠ cpu) (prog : Option Prog) :
    (state.setProg cpu prog).progs other = state.progs other :=
  Function.update_of_ne hne _ _

@[simp] theorem items_setCtrl (ctrl : Ctrl) :
    (state.setCtrl pos ctrl).items pos = { state.items pos with ctrl } :=
  Function.update_self _ _ _

theorem items_setCtrl_of_ne (hne : place ≠ pos) (ctrl : Ctrl) :
    (state.setCtrl pos ctrl).items place = state.items place :=
  Function.update_of_ne hne _ _

@[simp] theorem items_setData (data : KafkaData) :
    (state.setData pos data).items pos = { state.items pos with data } :=
  Function.update_self _ _ _

theorem items_setData_of_ne (hne : place ≠ pos) (data : KafkaData) :
    (state.setData pos data).items place = state.items place :=
  Function.update_of_ne hne _ _

end Updates

-- One of the weights is replaced.
theorem sum_update_add {ι α M : Type*} [Fintype ι] [DecidableEq ι] [AddCommMonoid M]
    (weight : α → M) (items : ι → α) (place : ι) (item : α) :
    ∑ i, weight (Function.update items place item i) + weight (items place) =
      ∑ i, weight (items i) + weight item := by
  have hrest : ∑ i ∈ Finset.univ.erase place, weight (Function.update items place item i) =
      ∑ i ∈ Finset.univ.erase place, weight (items i) :=
    Finset.sum_congr rfl fun i hi => by rw [Function.update_of_ne (Finset.ne_of_mem_erase hi)]
  rw [← Finset.add_sum_erase _ _ (Finset.mem_univ place), hrest, Function.update_self,
    ← Finset.add_sum_erase _ (fun i => weight (items i)) (Finset.mem_univ place)]
  rw [add_right_comm, add_comm (weight item), add_right_comm]

-- The record of a full item.
def Item.waiting (item : Item) : Multiset Message :=
  if item.ctrl = .full then {item.data.message} else 0

-- The record whose item was emptied.
def Collector.inHand : Collector → Multiset Message
  | broke data => {data.message}
  | _ => 0

def Fills (state : State) (cpu : ℕ) (pos : Pos) : Prop :=
  ∃ found left, state.progs cpu = some ⟨found, .fill pos left⟩

-- What was stored is collected or on its way, each record once and as its packet has it.
def Kept (state : State) : Prop :=
  ((state.published.map fun stored => stored.2.message : List Message) : Multiset Message) =
    (state.delivered.map KafkaData.message : List Message) + state.collector.inHand +
      ∑ pos, (state.items pos).waiting

-- No two programs fill an item, and no stored record is lost, changed or collected twice.
structure Conserved (state : State) : Prop where
  alone : ∀ cpu other pos, Fills state cpu pos → Fills state other pos → cpu = other
  kept : Kept state

variable (fits : List (Pos × Found) → Pos → KafkaData → Prop) (good : KafkaData → Prop)

-- An item that is taken is filled by one program, and has its record when that is done.
-- No program fills another item. `fits` is what holds of the bytes that a program finds, and
-- `good` of what it leaves.
inductive ItemInv (state : State) (pos : Pos) : Prop
  | filling (cpu : ℕ) (found : Found) (left : List Store) (base : KafkaData)
      (taken : (state.items pos).ctrl = .taken)
      (prog : state.progs cpu = some ⟨found, .fill pos left⟩)
      (alone : ∀ other, Fills state other pos → other = cpu)
      (fitting : fits state.published pos base)
      (writes : left.foldl Store.run (state.items pos).data = found.write base)
  | settled (free : (state.items pos).ctrl ≠ .taken) (none : ∀ cpu, ¬ Fills state cpu pos)
      (fitting : fits state.published pos (state.items pos).data)
      (full : (state.items pos).ctrl = .full → good (state.items pos).data)

-- The item that is copied or cleared stays full until then.
structure Inv (state : State) : Prop where
  whole : ∀ cpu prog, state.progs cpu = some prog → prog.found.Whole
  items : ∀ pos, ItemInv fits good state pos
  copies : ∀ pos left words value data, state.collector = .copy pos left words value data →
    (state.items pos).ctrl = .full ∧
      words.foldl (copyWord (state.items pos).data) value = (state.items pos).data
  clears : ∀ pos left data, state.collector = .clear pos left data →
    (state.items pos).ctrl = .full ∧ data = (state.items pos).data
  hand : ∀ data, state.collector = .broke data → good data
  delivered : ∀ data ∈ state.delivered, good data
  kept : Kept state

variable {fits} {good} {state next : State} {cpu : ℕ} {found : Found} {pos : Pos}

theorem fills_setProg {other : ℕ} {prog : Option Prog} :
    Fills (state.setProg cpu prog) other pos ↔
      if other = cpu then ∃ found left, prog = some ⟨found, .fill pos left⟩
      else Fills state other pos := by
  split_ifs with hother
  · rw [hother, Fills, progs_setProg]
  · rw [Fills, progs_setProg_of_ne hother, Fills]

theorem Inv.conserved (h : Inv fits good state) : Conserved state where
  kept := h.kept
  alone first second pos hfirst hsecond := by
    cases h.items pos with
    | filling cpu found left base taken prog alone =>
        exact (alone first hfirst).trans (alone second hsecond).symm
    | settled free none => exact absurd hfirst (none first)

-- What concerns an item is left as it is.
theorem ItemInv.congr (h : ItemInv fits good state pos) (hitem : next.items pos = state.items pos)
    (hprogs : ∀ cpu found left, next.progs cpu = some ⟨found, .fill pos left⟩ ↔
      state.progs cpu = some ⟨found, .fill pos left⟩)
    (hfits : ∀ data, fits state.published pos data → fits next.published pos data) :
    ItemInv fits good next pos := by
  have hfills (cpu : ℕ) : Fills next cpu pos ↔ Fills state cpu pos := by
    simp only [Fills, hprogs]
  cases h with
  | filling cpu found left base taken prog alone fitting writes =>
      exact .filling cpu found left base (by rwa [hitem]) ((hprogs _ _ _).mpr prog)
        (fun other hother => alone other ((hfills other).mp hother)) (hfits base fitting)
        (by rwa [hitem])
  | settled free none fitting full =>
      exact .settled (by rwa [hitem]) (fun cpu hcpu => none cpu ((hfills cpu).mp hcpu))
        (by rw [hitem]; exact hfits _ fitting) (by rwa [hitem])

-- A program that fills no item goes on or ends, or another one begins.
theorem Inv.setProg (h : Inv fits good state) (hbefore : ∀ pos, ¬ Fills state cpu pos)
    {prog : Option Prog} (hwhole : ∀ started ∈ prog, started.found.Whole)
    (hafter : ∀ started ∈ prog, ∀ pos left, started.place ≠ .fill pos left) :
    Inv fits good (state.setProg cpu prog) := by
  refine ⟨fun other started heq => ?_, fun pos => (h.items pos).congr rfl ?_ fun _ => id,
    h.copies, h.clears, h.hand, h.delivered, h.kept⟩
  · by_cases hother : other = cpu
    · rw [hother, progs_setProg] at heq
      exact hwhole started heq
    · rw [progs_setProg_of_ne hother] at heq
      exact h.whole other started heq
  · intro other found left
    by_cases hother : other = cpu
    · rw [hother, progs_setProg]
      exact iff_of_false (fun heq => hafter _ heq pos left rfl)
        fun heq => hbefore pos ⟨found, left, heq⟩
    · rw [progs_setProg_of_ne hother]

-- The step of a program that has to do with one item, which is not full.
structure Moves (cpu : ℕ) (pos : Pos) (state next : State) : Prop where
  progs : ∀ other, other ≠ cpu → next.progs other = state.progs other
  items : ∀ place, place ≠ pos → next.items place = state.items place
  before : ∀ place, Fills state cpu place → place = pos
  after : ∀ place, Fills next cpu place → place = pos
  notFull : (state.items pos).ctrl ≠ .full
  collector : next.collector = state.collector
  delivered : next.delivered = state.delivered

theorem Inv.move (h : Inv fits good state) (hmoves : Moves cpu pos state next)
    (hwhole : ∀ prog ∈ next.progs cpu, prog.found.Whole) (hitem : ItemInv fits good next pos)
    (hfits : ∀ place data, place ≠ pos → fits state.published place data →
      fits next.published place data) (hkept : Kept next) : Inv fits good next := by
  have hfull (place : Pos) (hplace : (state.items place).ctrl = .full) :
      next.items place = state.items place :=
    hmoves.items place fun heq => hmoves.notFull (heq ▸ hplace)
  refine ⟨fun other prog heq => ?_, fun place => ?_, fun place left words value data heq => ?_,
    fun place left data heq => ?_, fun data heq => h.hand data (hmoves.collector ▸ heq),
    fun data hdata => h.delivered data (hmoves.delivered ▸ hdata), hkept⟩
  · by_cases hother : other = cpu
    · exact hwhole prog (hother ▸ heq)
    · exact h.whole other prog (hmoves.progs other hother ▸ heq)
  · by_cases hplace : place = pos
    · exact hplace ▸ hitem
    · refine (h.items place).congr (hmoves.items place hplace) (fun other found left => ?_)
        fun data => hfits place data hplace
      by_cases hother : other = cpu
      · rw [hother]
        exact iff_of_false (fun heq => hplace (hmoves.after place ⟨found, left, heq⟩))
          fun heq => hplace (hmoves.before place ⟨found, left, heq⟩)
      · rw [hmoves.progs other hother]
  · obtain ⟨hctrl, hcopied⟩ := h.copies place left words value data (hmoves.collector ▸ heq)
    rw [hfull place hctrl]
    exact ⟨hctrl, hcopied⟩
  · obtain ⟨hctrl, hcopied⟩ := h.clears place left data (hmoves.collector ▸ heq)
    rw [hfull place hctrl]
    exact ⟨hctrl, hcopied⟩

-- What is waiting after the item was changed.
theorem sum_waiting (state : State) (pos : Pos) (item : Item) :
    ∑ place, (Function.update state.items pos item place).waiting + (state.items pos).waiting =
      ∑ place, (state.items place).waiting + item.waiting :=
  sum_update_add Item.waiting state.items pos item

theorem waiting_of_ne {item : Item} (hctrl : item.ctrl ≠ .full) : item.waiting = 0 :=
  if_neg hctrl

theorem place_of_fills {prog : Prog} {other : Pos} (hprog : state.progs cpu = some prog)
    (hfills : Fills state cpu other) : ∃ left, prog.place = .fill other left := by
  obtain ⟨found, left, heq⟩ := hfills
  rw [hprog] at heq
  cases heq
  exact ⟨left, rfl⟩

-- An item that is empty is taken.
theorem Inv.claim (h : Inv fits good state) (hprog : state.progs cpu = some ⟨found, .claim pos⟩)
    (hempty : (state.items pos).ctrl = .empty) :
    Inv fits good ((state.setCtrl pos .taken).setProg cpu (some ⟨found, .fill pos (stores found)⟩)) := by
  have hbefore (place : Pos) : ¬ Fills state cpu place := by
    intro hfills
    obtain ⟨left, heq⟩ := place_of_fills hprog hfills
    cases heq
  have hnotFull : (state.items pos).ctrl ≠ .full := by
    rw [hempty]
    exact Ctrl.noConfusion
  have hmoves : Moves cpu pos state
      ((state.setCtrl pos .taken).setProg cpu (some ⟨found, .fill pos (stores found)⟩)) :=
    { progs := fun other hother => progs_setProg_of_ne hother _
      items := fun place hplace => items_setCtrl_of_ne hplace _
      before := fun place hfills => absurd hfills (hbefore place)
      after := fun place hfills => by
        obtain ⟨left, heq⟩ := place_of_fills (progs_setProg _) hfills
        cases heq
        rfl
      notFull := hnotFull
      collector := rfl
      delivered := rfl }
  refine h.move hmoves (fun prog heq => ?_) ?_ (fun _ _ _ => id) ?_
  · rw [progs_setProg] at heq
    cases heq
    have hwhole := h.whole cpu _ hprog
    exact hwhole
  · cases h.items pos with
    | filling other found left base taken =>
        rw [hempty] at taken
        cases taken
    | settled free none fitting =>
        refine .filling cpu found (stores found) (state.items pos).data ?_ (progs_setProg _)
          (fun other hother => ?_) fitting ?_
        · exact congrArg Item.ctrl (items_setCtrl .taken)
        · by_contra hne
          rw [fills_setProg, if_neg hne] at hother
          exact none other hother
        · exact congrArg (fun item => (stores found).foldl Store.run item.data)
            (items_setCtrl .taken)
  · have hsum := sum_waiting state pos { state.items pos with ctrl := .taken }
    rw [waiting_of_ne hnotFull, waiting_of_ne Ctrl.noConfusion, add_zero, add_zero] at hsum
    exact h.kept.trans (congrArg _ hsum.symm)

-- The program that fills an item is the only one there.
theorem ItemInv.of_fill (h : ItemInv fits good state pos) {left : List Store}
    (hprog : state.progs cpu = some ⟨found, .fill pos left⟩) :
    (state.items pos).ctrl = .taken ∧ (∀ other, Fills state other pos → other = cpu) ∧
      ∃ base, fits state.published pos base ∧
        left.foldl Store.run (state.items pos).data = found.write base := by
  cases h with
  | filling other started rest base taken prog alone fitting writes =>
      obtain rfl := alone cpu ⟨found, left, hprog⟩
      rw [hprog] at prog
      cases prog
      exact ⟨taken, alone, base, fitting, writes⟩
  | settled free none => exact absurd ⟨found, left, hprog⟩ (none cpu)

-- A program that fills an item fills no other one.
theorem fills_eq {left : List Store} (hprog : state.progs cpu = some ⟨found, .fill pos left⟩)
    (place : Pos) (hfills : Fills state cpu place) : place = pos := by
  obtain ⟨rest, heq⟩ := place_of_fills hprog hfills
  cases heq
  rfl

-- One of the assignments of a program.
theorem Inv.store (h : Inv fits good state) {store : Store} {left : List Store}
    (hprog : state.progs cpu = some ⟨found, .fill pos (store :: left)⟩) :
    Inv fits good ((state.setData pos (store.run (state.items pos).data)).setProg cpu
      (some ⟨found, .fill pos left⟩)) := by
  obtain ⟨htaken, halone, base, hfitting, hwrites⟩ := (h.items pos).of_fill hprog
  have hnotFull : (state.items pos).ctrl ≠ .full := by
    rw [htaken]
    exact Ctrl.noConfusion
  have hmoves : Moves cpu pos state ((state.setData pos (store.run (state.items pos).data)).setProg
      cpu (some ⟨found, .fill pos left⟩)) :=
    { progs := fun other hother => progs_setProg_of_ne hother _
      items := fun place hplace => items_setData_of_ne hplace _
      before := fills_eq hprog
      after := fills_eq (progs_setProg _)
      notFull := hnotFull
      collector := rfl
      delivered := rfl }
  refine h.move hmoves (fun prog heq => ?_) ?_ (fun _ _ _ => id) ?_
  · rw [progs_setProg] at heq
    cases heq
    have hwhole := h.whole cpu _ hprog
    exact hwhole
  · refine .filling cpu found left base ?_ (progs_setProg _) (fun other hother => ?_) hfitting ?_
    · exact (congrArg Item.ctrl (items_setData _)).trans htaken
    · by_contra hne
      rw [fills_setProg, if_neg hne] at hother
      exact hne (halone other hother)
    · exact (congrArg (fun item => left.foldl Store.run item.data) (items_setData _)).trans
        hwrites
  · have hsum := sum_waiting state pos
      { state.items pos with data := store.run (state.items pos).data }
    rw [waiting_of_ne hnotFull, waiting_of_ne (by exact hnotFull), add_zero, add_zero] at hsum
    exact h.kept.trans (congrArg _ hsum.symm)

-- The item is filled up.
theorem Inv.publish (h : Inv fits good state)
    (hprog : state.progs cpu = some ⟨found, .fill pos []⟩)
    (hfits : ∀ base, fits state.published pos base →
      fits (state.published ++ [(pos, found)]) pos (found.write base) ∧ good (found.write base))
    (hothers : ∀ place data, place ≠ pos → fits state.published place data →
      fits (state.published ++ [(pos, found)]) place data) :
    Inv fits good (((state.setCtrl pos .full).setProg cpu none).publish pos found) := by
  obtain ⟨htaken, halone, base, hfitting, hwrites⟩ := (h.items pos).of_fill hprog
  have hnotFull : (state.items pos).ctrl ≠ .full := by
    rw [htaken]
    exact Ctrl.noConfusion
  have hdata : (state.items pos).data = found.write base := hwrites
  have hnone : (((state.setCtrl pos .full).setProg cpu none).publish pos found).progs cpu = none :=
    progs_setProg _
  have hprogs (other : ℕ) (hother : other ≠ cpu) :
      (((state.setCtrl pos .full).setProg cpu none).publish pos found).progs other =
        state.progs other := progs_setProg_of_ne hother _
  have hitem : (((state.setCtrl pos .full).setProg cpu none).publish pos found).items pos =
      { state.items pos with ctrl := .full } := items_setCtrl .full
  have hmoves : Moves cpu pos state
      (((state.setCtrl pos .full).setProg cpu none).publish pos found) :=
    { progs := hprogs
      items := fun place hplace => items_setCtrl_of_ne hplace _
      before := fills_eq hprog
      after := fun place hfills => by
        obtain ⟨started, left, heq⟩ := hfills
        rw [hnone] at heq
        cases heq
      notFull := hnotFull
      collector := rfl
      delivered := rfl }
  refine h.move hmoves (fun prog heq => ?_) ?_ hothers ?_
  · rw [hnone] at heq
    cases heq
  · refine .settled ?_ (fun other hother => ?_) ?_ fun _ => ?_
    · rw [hitem]
      exact Ctrl.noConfusion
    · obtain ⟨started, left, heq⟩ := hother
      by_cases hsame : other = cpu
      · rw [hsame, hnone] at heq
        cases heq
      · rw [hprogs other hsame] at heq
        exact hsame (halone other ⟨started, left, heq⟩)
    · rw [hitem, hdata]
      exact (hfits base hfitting).1
    · rw [hitem, hdata]
      exact (hfits base hfitting).2
  · have hsum := sum_waiting state pos { state.items pos with ctrl := .full }
    have hmessage : (state.items pos).data.message = found.message := by
      rw [hdata, message_write (h.whole cpu _ hprog)]
    rw [waiting_of_ne hnotFull, add_zero, Item.waiting, if_pos rfl, hmessage] at hsum
    have hkept := h.kept
    rw [Kept] at hkept
    have hpublished : (((state.setCtrl pos .full).setProg cpu none).publish pos found).published =
        state.published ++ [(pos, found)] := rfl
    rw [Kept, hpublished, List.map_append, ← Multiset.coe_add, hkept, add_assoc]
    exact congrArg _ hsum.symm

-- The collector goes on, with nothing in hand.
theorem Inv.collect (h : Inv fits good state) (hbefore : state.collector.inHand = 0)
    {collector : Collector} (hafter : collector.inHand = 0)
    (hcopies : ∀ pos left words value data, collector = .copy pos left words value data →
      (state.items pos).ctrl = .full ∧
        words.foldl (copyWord (state.items pos).data) value = (state.items pos).data)
    (hclears : ∀ pos left data, collector = .clear pos left data →
      (state.items pos).ctrl = .full ∧ data = (state.items pos).data) :
    Inv fits good (state.setCollector collector) := by
  refine ⟨h.whole, fun pos => (h.items pos).congr rfl (fun _ _ _ => .rfl) fun _ => id,
    hcopies, hclears, fun data heq => ?_, h.delivered, ?_⟩
  · rw [show collector = .broke data from heq] at hafter
    exact absurd hafter (Multiset.singleton_ne_zero _)
  · have hkept := h.kept
    rw [Kept, hbefore, ← hafter] at hkept
    exact hkept

-- The collector has to do with no item.
def Collector.Apart : Collector → Prop
  | copy .. | clear .. | broke _ => False
  | idle | look .. | ended _ => True

theorem Inv.apart (h : Inv fits good state) (hhand : state.collector.inHand = 0) {collector : Collector}
    (hapart : collector.Apart) : Inv fits good (state.setCollector collector) := by
  refine h.collect hhand ?_ (fun pos left words value data heq => ?_)
    fun pos left data heq => ?_
  · cases collector with
    | broke data => cases hapart
    | _ => rfl
  · rw [heq] at hapart
    cases hapart
  · rw [heq] at hapart
    cases hapart

-- A full item is emptied, and its record is in hand.
theorem Inv.clear (h : Inv fits good state) {left : List Pos} {data : KafkaData}
    (hcollector : state.collector = .clear pos left data) :
    Inv fits good ((state.setCtrl pos .empty).setCollector (.broke data)) := by
  obtain ⟨hfull, rfl⟩ := h.clears pos left data hcollector
  have hitem : ((state.setCtrl pos .empty).setCollector (.broke (state.items pos).data)).items pos =
      { state.items pos with ctrl := .empty } := items_setCtrl .empty
  have hsettled : ItemInv fits good
      ((state.setCtrl pos .empty).setCollector (.broke (state.items pos).data)) pos ∧
        good (state.items pos).data := by
    cases h.items pos with
    | filling cpu found left base taken =>
        rw [hfull] at taken
        cases taken
    | settled free none fitting full =>
        refine ⟨.settled ?_ none ?_ ?_, full hfull⟩
        · rw [hitem]
          exact Ctrl.noConfusion
        · rw [hitem]
          exact fitting
        · rw [hitem]
          exact fun _ => full hfull
  refine ⟨h.whole, fun place => ?_, fun _ _ _ _ _ heq => (by cases heq),
    fun _ _ _ heq => (by cases heq), fun data heq => ?_, h.delivered, ?_⟩
  · by_cases hplace : place = pos
    · exact hplace ▸ hsettled.1
    · exact (h.items place).congr (items_setCtrl_of_ne hplace _) (fun _ _ _ => .rfl) fun _ => id
  · cases heq
    exact hsettled.2
  · have hsum := sum_waiting state pos { state.items pos with ctrl := .empty }
    have hempty : Item.waiting { state.items pos with ctrl := .empty } = 0 :=
      waiting_of_ne Ctrl.noConfusion
    have hwaiting : (state.items pos).waiting = {(state.items pos).data.message} := if_pos hfull
    rw [hempty, hwaiting, add_zero] at hsum
    have hhand : (Collector.clear pos left (state.items pos).data).inHand = 0 := rfl
    have hkept := h.kept
    rw [Kept, hcollector, ← hsum, hhand, add_zero] at hkept
    rw [Kept]
    refine hkept.trans ?_
    rw [← add_assoc, add_right_comm]
    rfl

-- What is in hand is delivered.
theorem Inv.deliver (h : Inv fits good state) {data : KafkaData}
    (hcollector : state.collector = .broke data) :
    Inv fits good ((state.setCollector .idle).deliver data) := by
  refine ⟨h.whole, fun pos => (h.items pos).congr rfl (fun _ _ _ => .rfl) fun _ => id,
    fun _ _ _ _ _ heq => (by cases heq), fun _ _ _ heq => (by cases heq),
    fun _ heq => (by cases heq), fun other hother => ?_, ?_⟩
  · rcases List.mem_append.mp hother with hold | hlast
    · exact h.delivered other hold
    · exact List.mem_singleton.mp hlast ▸ h.hand data hcollector
  · have hdelivered : ((state.setCollector .idle).deliver data).delivered =
        state.delivered ++ [data] := rfl
    have hkept := h.kept
    rw [Kept, hcollector] at hkept
    have hhand : ((state.setCollector .idle).deliver data).collector.inHand = 0 := rfl
    rw [Kept, hdelivered, hhand, add_zero, List.map_append, ← Multiset.coe_add]
    exact hkept

theorem inv_initial (hfits : ∀ pos, fits [] pos zeroData) : Inv fits good State.initial where
  whole cpu prog heq := by cases heq
  items pos := .settled Ctrl.noConfusion (fun cpu hcpu => by
    obtain ⟨found, left, heq⟩ := hcpu
    cases heq) (hfits pos) (fun hfull => by cases hfull)
  copies _ _ _ _ _ heq := by cases heq
  clears _ _ _ heq := by cases heq
  hand _ heq := by cases heq
  delivered _ hdata := by cases hdata
  kept := by
    have hwaiting : ∑ pos, (State.initial.items pos).waiting = 0 :=
      Finset.sum_eq_zero fun pos _ => waiting_of_ne Ctrl.noConfusion
    rw [Kept, hwaiting]
    rfl

-- An item that is taken is empty. `collect` returns the record of an item that it has
-- emptied, with the address of a client, or none.
def Allowed (_ : List Action) (state : State) : Action → Prop
  | .runProg cpu => ∀ found pos, state.progs cpu = some ⟨found, .claim pos⟩ →
      (state.items pos).ctrl = .empty
  | .runCollect _ =>
      match state.collector with
      | .broke data => data.srcIp ≠ 0
      | .ended data => data.srcIp = 0
      | _ => True
  | .receive _ _ | .refreshPortMap _ => True

theorem inv_receive (h : Inv fits good state) (cpu : ℕ) (packet : Packet) :
    Inv fits good (receive cpu packet state) := by
  rw [receive]
  split_ifs with hbusy
  · exact h
  · rw [Option.not_isSome_iff_eq_none] at hbusy
    split
    · exact h
    · case h_2 found heq =>
        refine h.setProg (fun pos hfills => ?_) (fun started hstarted => ?_)
          fun started hstarted pos left => ?_
        · obtain ⟨_, _, hprog⟩ := hfills
          rw [hbusy] at hprog
          cases hprog
        · cases hstarted
          exact whole_xdpParserFunc _ _ found heq
        · cases hstarted
          exact Place.noConfusion

theorem inv_runProg (h : Inv fits good state) (cpu : ℕ)
    (hallowed : ∀ found pos, state.progs cpu = some ⟨found, .claim pos⟩ →
      (state.items pos).ctrl = .empty)
    (hfits : ∀ found pos, state.progs cpu = some ⟨found, .fill pos []⟩ →
      (∀ base, fits state.published pos base →
        fits (state.published ++ [(pos, found)]) pos (found.write base) ∧
          good (found.write base)) ∧
      ∀ place data, place ≠ pos → fits state.published place data →
        fits (state.published ++ [(pos, found)]) place data) :
    Inv fits good (runProg cpu state) := by
  rw [runProg]
  split
  case h_1 => exact h
  case h_2 found hprog =>
      refine h.setProg (fun pos hfills => ?_) (fun started hstarted => by cases hstarted)
        fun started hstarted => by cases hstarted
      obtain ⟨left, heq⟩ := place_of_fills hprog hfills
      cases heq
  case h_3 found pos left hprog =>
      refine h.setProg (fun pos hfills => ?_) (fun started hstarted => ?_)
        fun started hstarted place rest heq => ?_
      · obtain ⟨left, heq⟩ := place_of_fills hprog hfills
        cases heq
      · cases hstarted
        have hwhole := h.whole cpu _ hprog
        exact hwhole
      · cases hstarted
        dsimp only at heq
        split_ifs at heq
  case h_4 found pos hprog => exact h.claim hprog (hallowed found pos hprog)
  case h_5 found pos store left hprog => exact h.store hprog
  case h_6 found pos hprog =>
      exact h.publish hprog (hfits found pos hprog).1 (hfits found pos hprog).2

theorem inv_runCollect (h : Inv fits good state) (ok : Bool)
    (hallowed : Allowed [] state (.runCollect ok)) : Inv fits good (runCollect ok state) := by
  rw [Allowed] at hallowed
  rw [runCollect]
  split
  case h_1 heq => exact h.apart (by rw [heq]; rfl) trivial
  case h_2 data heq => exact h.apart (by rw [heq]; rfl) trivial
  case h_3 pos left data heq =>
      split_ifs with hfull
      · refine h.collect (by rw [heq]; rfl) rfl (fun _ _ _ _ _ hcopy => ?_)
          fun _ _ _ hclear => by cases hclear
        cases hcopy
        exact ⟨hfull.2, copyWords _ _⟩
      · exact h.apart (by rw [heq]; rfl) trivial
  case h_4 pos left word words value data heq =>
      split_ifs
      · refine h.collect (by rw [heq]; rfl) rfl (fun _ _ _ _ _ hcopy => ?_)
          fun _ _ _ hclear => by cases hclear
        cases hcopy
        have hcopied := h.copies _ _ _ _ _ heq
        exact hcopied
      · exact h.apart (by rw [heq]; rfl) trivial
  case h_5 pos left value data heq =>
      refine h.collect (by rw [heq]; rfl) rfl (fun _ _ _ _ _ hcopy => by cases hcopy)
        fun _ _ _ hclear => ?_
      cases hclear
      exact h.copies _ _ _ _ _ heq
  case h_6 pos left data heq =>
      split_ifs
      · exact h.clear heq
      · exact h.apart (by rw [heq]; rfl) trivial
  case h_7 data heq =>
      rw [heq] at hallowed
      rw [if_neg hallowed]
      exact h.deliver heq
  case h_8 data heq =>
      rw [heq] at hallowed
      rw [if_pos hallowed]
      exact h.apart (by rw [heq]; rfl) trivial

-- What an action has to do with the bytes of the items.
def Publishes (state : State) (action : Action) (pos : Pos) (found : Found) : Prop :=
  ∃ cpu, action = .runProg cpu ∧ state.progs cpu = some ⟨found, .fill pos []⟩

theorem inv_step (h : Inv fits good state) {action : Action} (hallowed : Allowed [] state action)
    (hfits : ∀ found pos, Publishes state action pos found →
      (∀ base, fits state.published pos base →
        fits (state.published ++ [(pos, found)]) pos (found.write base) ∧
          good (found.write base)) ∧
      ∀ place data, place ≠ pos → fits state.published place data →
        fits (state.published ++ [(pos, found)]) place data) :
    Inv fits good (step state action) := by
  cases action with
  | receive cpu packet => exact inv_receive h cpu packet
  | runProg cpu =>
      exact inv_runProg h cpu hallowed fun found pos hprog => hfits found pos ⟨cpu, rfl, hprog⟩
  | runCollect ok => exact inv_runCollect h ok hallowed
  | refreshPortMap port =>
      exact ⟨h.whole, fun pos => (h.items pos).congr rfl (fun _ _ _ => .rfl) fun _ => id,
        h.copies, h.clears, h.hand, h.delivered, h.kept⟩

-- The records that are counted, and where they are.
theorem Kept.card_eq (h : Kept state) :
    state.published.length = state.delivered.length + state.collector.inHand.card +
      (∑ pos, (state.items pos).waiting).card := by
  have hcard := congrArg Multiset.card h
  rwa [Multiset.coe_card, Multiset.card_add, Multiset.card_add, Multiset.coe_card,
    List.length_map, List.length_map] at hcard

-- An item is not taken from another program, nor from the collector.
theorem empty_of_conserved (h : Inv fits good state) (hprog : state.progs cpu = some ⟨found, .claim pos⟩)
    (hafter : Conserved
      ((state.setCtrl pos .taken).setProg cpu (some ⟨found, .fill pos (stores found)⟩))) :
    (state.items pos).ctrl = .empty := by
  cases hctrl : (state.items pos).ctrl with
  | empty => rfl
  | taken =>
      cases h.items pos with
      | settled free => exact absurd hctrl free
      | filling other started left base taken prog =>
          have hother : other ≠ cpu := by
            rintro rfl
            rw [hprog] at prog
            cases prog
          refine absurd (hafter.alone other cpu pos ?_ ?_) hother
          · rw [fills_setProg, if_neg hother]
            exact ⟨started, left, prog⟩
          · rw [fills_setProg, if_pos rfl]
            exact ⟨found, stores found, rfl⟩
  | full =>
      have hsum := congrArg Multiset.card
        (sum_waiting state pos { state.items pos with ctrl := .taken })
      have hwaiting : (state.items pos).waiting = {(state.items pos).data.message} := if_pos hctrl
      have htaken : Item.waiting { state.items pos with ctrl := .taken } = 0 :=
        waiting_of_ne Ctrl.noConfusion
      rw [hwaiting, htaken, add_zero, Multiset.card_add, Multiset.card_singleton] at hsum
      have hbefore := h.kept.card_eq
      have hnow : state.published.length = state.delivered.length + state.collector.inHand.card +
          (∑ place, (Function.update state.items pos { state.items pos with ctrl := .taken }
            place).waiting).card := hafter.kept.card_eq
      omega

theorem allowed_of_conserved (h : Inv fits good state) {action : Action}
    (hafter : Conserved (step state action)) : Allowed [] state action := by
  cases action with
  | receive cpu packet => trivial
  | refreshPortMap port => trivial
  | runProg cpu =>
      intro found pos hprog
      rw [step, runProg, hprog] at hafter
      exact empty_of_conserved h hprog hafter
  | runCollect ok =>
      have hbefore := h.kept.card_eq
      have hnow := hafter.kept.card_eq
      rw [step, runCollect] at hnow
      rw [Allowed]
      cases hcollector : state.collector with
      | broke data =>
          intro hzero
          rw [hcollector] at hbefore hnow
          dsimp only at hnow
          rw [if_pos hzero] at hnow
          change state.published.length = state.delivered.length + 0 +
            (∑ pos, (state.items pos).waiting).card at hnow
          change state.published.length = state.delivered.length + 1 +
            (∑ pos, (state.items pos).waiting).card at hbefore
          omega
      | ended data =>
          by_contra hsome
          rw [hcollector] at hbefore hnow
          dsimp only at hnow
          rw [if_neg hsome] at hnow
          change state.published.length = (state.delivered ++ [data]).length + 0 +
            (∑ pos, (state.items pos).waiting).card at hnow
          change state.published.length = state.delivered.length + 0 +
            (∑ pos, (state.items pos).waiting).card at hbefore
          rw [List.length_append, List.length_singleton] at hnow
          omega
      | _ => trivial

-- Over any interleaving of any number of programs with the collector: no record that was
-- stored is lost, changed or collected twice, exactly if no program takes an item that another
-- one has taken since it looked, and the collector returns what it has emptied. A record that
-- is found while no item is empty is dropped, and never stored.
theorem handover_conserved_iff (actions : List Action) :
    Throughout step State.initial (fun _ state => Conserved state) actions ↔
      EachStep step State.initial Allowed actions := by
  have hlegal : EachStep step State.initial (fun _ _ _ => True) actions := fun _ _ _ _ => trivial
  refine throughout_iff_eachStep
    (fun _ state => Inv (fun _ _ _ => True) (fun _ => True) state)
    (inv_initial fun _ => trivial) (fun _ _ h => h.conserved) ?_ ?_ hlegal
  · intro _ state action h _ hallowed
    exact inv_step h hallowed fun _ _ _ =>
      ⟨fun _ _ => ⟨trivial, trivial⟩, fun _ _ _ _ => trivial⟩
  · intro _ state action h _ hafter
    exact allowed_of_conserved h hafter

end Gopher.Kafka.Handover
