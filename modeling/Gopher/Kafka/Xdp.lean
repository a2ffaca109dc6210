import Gopher.Kafka
import Mathlib.Data.List.Basic
import Mathlib.Tactic.SplitIfs

namespace Gopher.Kafka.Xdp

def VLAN_MAX_DEPTH : ℕ := 10
def ETH_P_8021AD : UInt16 := 0x88A8
def ETH_P_8021Q : UInt16 := 0x8100
def ETH_P_IP : UInt16 := 0x0800
def IPPROTO_TCP : UInt8 := 6

-- sizeof of the headers, and of the structs that the records are looked at with.
def ETHHDR_SIZE : ℕ := 14
def VLAN_HDR_SIZE : ℕ := 4
def IPHDR_SIZE : ℕ := 20
def TCPHDR_SIZE : ℕ := 20
def PACKET_PARSER1_SIZE : ℕ := 8
def PACKET_PARSER2_SIZE : ℕ := 2
def PACKET_PARSER3_SIZE : ℕ := 34

-- The bytes from `data` to `data_end`.
abbrev Packet := List UInt8

-- How a packet is given up: with the return value of a parser, as neither of the two
-- requests, or at a byte behind `data_end`.
inductive Stop
  | outside
  | ret (code : ℕ)
  | other
  deriving DecidableEq

def le16 (first second : UInt8) : UInt16 := first.toUInt16 ||| second.toUInt16 <<< 8

def le32 (first second third fourth : UInt8) : UInt32 :=
  first.toUInt32 ||| second.toUInt32 <<< 8 ||| third.toUInt32 <<< 16 ||| fourth.toUInt32 <<< 24

def hton16 (data : UInt16) : UInt16 := (data &&& 0x00ff) <<< 8 ||| (data &&& 0xff00) >>> 8

def hton32 (data : UInt32) : UInt32 :=
  (data &&& 0xff000000) >>> 24 ||| (data &&& 0x00ff0000) >>> 8 |||
    (data &&& 0x0000ff00) <<< 8 ||| (data &&& 0x000000ff) <<< 24

def load8 (packet : Packet) (pos : ℕ) : Except Stop UInt8 :=
  match packet[pos]? with
  | some byte => .ok byte
  | none => .error .outside

def load16 (packet : Packet) (pos : ℕ) : Except Stop UInt16 := do
  return le16 (← load8 packet pos) (← load8 packet (pos + 1))

def load32 (packet : Packet) (pos : ℕ) : Except Stop UInt32 := do
  return le32 (← load8 packet pos) (← load8 packet (pos + 1)) (← load8 packet (pos + 2))
    (← load8 packet (pos + 3))

def protoIsVlan (hProto : UInt16) : Bool :=
  hProto = hton16 ETH_P_8021Q ∨ hProto = hton16 ETH_P_8021AD

-- The loop over the VLAN headers, as many as `depth`.
def skipVlans (packet : Packet) : ℕ → UInt16 → ℕ → Except Stop (UInt16 × ℕ)
  | 0, hProto, vlh => .ok (hProto, vlh)
  | depth + 1, hProto, vlh =>
      if !protoIsVlan hProto then .ok (hProto, vlh)
      else if packet.length < vlh + VLAN_HDR_SIZE then .ok (hProto, vlh)
      else do
        let hProto ← load16 packet (vlh + 2)
        skipVlans packet depth hProto (vlh + VLAN_HDR_SIZE)

-- Where the IP header is.
def parseEthhdrVlan (packet : Packet) : Except Stop ℕ :=
  if packet.length < ETHHDR_SIZE then .error (.ret 1)
  else do
    let hProto ← load16 packet 12
    let (hProto, vlh) ← skipVlans packet VLAN_MAX_DEPTH hProto ETHHDR_SIZE
    if hProto ≠ hton16 ETH_P_IP then .error (.ret 2) else return vlh

-- Where the TCP header is, and the source address.
def parseIphdr (packet : Packet) (pos : ℕ) : Except Stop (ℕ × UInt32) :=
  if packet.length < pos + IPHDR_SIZE then .error (.ret 1)
  else do
    let hdrsize := ((← load8 packet pos) &&& 0xf).toNat * 4
    if hdrsize < IPHDR_SIZE then .error (.ret 2)
    else if packet.length < pos + hdrsize then .error (.ret 3)
    else if (← load8 packet (pos + 9)) ≠ IPPROTO_TCP then .error (.ret 4)
    else return (pos + hdrsize, ← load32 packet (pos + 12))

-- Where the payload is, and the ports.
def parseTcphdr (port : UInt16) (packet : Packet) (pos : ℕ) :
    Except Stop (ℕ × UInt16 × UInt16) :=
  if packet.length < pos + TCPHDR_SIZE then .error (.ret 1)
  else do
    let len := ((← load8 packet (pos + 12)) >>> 4).toNat * 4
    if len < TCPHDR_SIZE then .error (.ret 2)
    else if packet.length < pos + len then .error (.ret 3)
    else if packet.length = pos + len then .error (.ret 4)
    else
      let dest ← load16 packet (pos + 2)
      if dest ≠ port then .error (.ret 5)
      else return (pos + len, ← load16 packet pos, dest)

-- `rec->len`
def recLen (len : UInt8) : ℕ := min len.toNat smallBufSize

-- The bytes that `copy_data` copies. One is copied even when `len` is 0.
def copyData (packet : Packet) (len : ℕ) : ℕ → ℕ → ℕ → Except Stop (List UInt8)
  | 0, _, _ => .ok []
  | rounds + 1, j, src => do
      let byte ← load8 packet src
      if len ≤ j + 1 then return [byte]
      else if packet.length < src + 1 + 1 then return [byte]
      else return byte :: (← copyData packet len rounds (j + 1) (src + 1))

-- What a program found in a packet, before it looks for a slot.
structure Found where
  type : UInt16
  srcIp : UInt32
  srcPort : UInt16
  dstPort : UInt16
  len : UInt8
  num : UInt32
  data : List UInt8
  deriving DecidableEq

def parseConsumer (packet : Packet) (pos : ℕ) (srcIp : UInt32) (srcPort dstPort : UInt16) :
    Except Stop Found :=
  let partData := pos + 12
  if packet.length < partData + PACKET_PARSER3_SIZE then .error (.ret 1)
  else do
    let topicData := partData + (← load8 packet (partData + 1)).toNat + 28
    if packet.length < topicData + PACKET_PARSER3_SIZE then .error (.ret 2)
    else
      let len ← load8 packet (topicData + 1)
      if len = 1 then .error (.ret 3)
      else
        let posData := topicData + len.toNat + 14
        if packet.length < posData + PACKET_PARSER1_SIZE then .error (.ret 4)
        else
          let num ← load32 packet posData
          let data ← copyData packet (recLen len) smallBufSize 0 (topicData + 2)
          return { type := consumerMsgType, srcIp, srcPort, dstPort, len, num := hton32 num, data }

def parseProducer (packet : Packet) (pos : ℕ) (srcIp : UInt32) (srcPort dstPort : UInt16) :
    Except Stop Found :=
  let partData := pos + 12
  if packet.length < partData + PACKET_PARSER3_SIZE then .error (.ret 1)
  else do
    let topicData := partData + (← load8 packet (partData + 1)).toNat + 14
    if packet.length < topicData + PACKET_PARSER3_SIZE then .error (.ret 3)
    else
      let len ← load8 packet (topicData + 1)
      let topicNum := topicData + len.toNat + 73
      if packet.length < topicNum + PACKET_PARSER2_SIZE then .error (.ret 4)
      else
        let num ← load8 packet (topicNum + 1)
        let data ← copyData packet (recLen len) smallBufSize 0 (topicData + 2)
        return { type := producerMsgType, srcIp, srcPort, dstPort, len, num := num.toUInt32, data }

def parseRecord (packet : Packet) (pos : ℕ) (srcIp : UInt32) (srcPort dstPort : UInt16) :
    Except Stop Found :=
  if packet.length < pos + PACKET_PARSER1_SIZE then .error .other
  else do
    let param2 ← load32 packet (pos + 4)
    if param2 = 0x08000000 then parseProducer packet pos srcIp srcPort dstPort
    else if param2 = 0x0c000100 then parseConsumer packet pos srcIp srcPort dstPort
    else .error .other

-- Everything up to `get_empty_data`. `port` is the element of `xdp_port_map`.
def xdpParserFunc (port : UInt16) (packet : Packet) : Except Stop Found := do
  let pos ← parseEthhdrVlan packet
  let (pos, srcIp) ← parseIphdr packet pos
  let (pos, srcPort, dstPort) ← parseTcphdr port packet pos
  parseRecord packet pos srcIp srcPort dstPort

section Inside

variable {α β : Type} {packet : Packet} {pos : ℕ}

-- No byte behind `data_end` was read.
def Inside (parsed : Except Stop α) : Prop := parsed ≠ .error .outside

theorem inside_ok (value : α) : Inside (.ok value : Except Stop α) := by
  intro h
  cases h

theorem inside_ret (code : ℕ) : Inside (.error (.ret code) : Except Stop α) := by
  intro h
  cases h

theorem inside_other : Inside (.error .other : Except Stop α) := by
  intro h
  cases h

theorem Inside.bind {parsed : Except Stop α} {next : α → Except Stop β} (h : Inside parsed)
    (hnext : ∀ value, parsed = .ok value → Inside (next value)) : Inside (parsed >>= next) := by
  cases parsed with
  | error stop =>
      intro houtside
      exact h (congrArg Except.error (Except.error.inj houtside))
  | ok value => exact hnext value rfl

theorem inside_load8 (hpos : pos < packet.length) : Inside (load8 packet pos) := by
  rw [load8, List.getElem?_eq_getElem hpos]
  exact inside_ok _

theorem inside_load16 (hpos : pos + 2 ≤ packet.length) : Inside (load16 packet pos) :=
  (inside_load8 (by omega)).bind fun _ _ => (inside_load8 (by omega)).bind fun _ _ => inside_ok _

theorem inside_load32 (hpos : pos + 4 ≤ packet.length) : Inside (load32 packet pos) :=
  (inside_load8 (by omega)).bind fun _ _ => (inside_load8 (by omega)).bind fun _ _ =>
    (inside_load8 (by omega)).bind fun _ _ => (inside_load8 (by omega)).bind fun _ _ =>
      inside_ok _

-- Each VLAN header is looked at only when it is there.
theorem inside_skipVlans (depth : ℕ) (hProto : UInt16) :
    Inside (skipVlans packet depth hProto pos) := by
  induction depth generalizing hProto pos with
  | zero => exact inside_ok _
  | succ depth ih =>
      rw [skipVlans]
      split_ifs with hvlan hlength
      · exact inside_ok _
      · exact inside_ok _
      · exact (inside_load16 (by rw [VLAN_HDR_SIZE] at hlength; omega)).bind fun _ _ => ih _

theorem inside_parseEthhdrVlan : Inside (parseEthhdrVlan packet) := by
  rw [parseEthhdrVlan]
  split_ifs with hlength
  · exact inside_ret 1
  · rw [ETHHDR_SIZE] at hlength
    refine (inside_load16 (by omega)).bind fun hProto _ =>
      (inside_skipVlans _ _).bind fun _ _ => ?_
    dsimp only
    split_ifs
    · exact inside_ret 2
    · exact inside_ok _

theorem inside_parseIphdr : Inside (parseIphdr packet pos) := by
  rw [parseIphdr]
  split_ifs with hlength
  · exact inside_ret 1
  · rw [IPHDR_SIZE] at hlength
    refine (inside_load8 (by omega)).bind fun first _ => ?_
    dsimp only
    split_ifs
    · exact inside_ret 2
    · exact inside_ret 3
    · refine (inside_load8 (by omega)).bind fun protocol _ => ?_
      split_ifs
      · exact inside_ret 4
      · exact (inside_load32 (by omega)).bind fun _ _ => inside_ok _

theorem inside_parseTcphdr {port : UInt16} : Inside (parseTcphdr port packet pos) := by
  rw [parseTcphdr]
  split_ifs with hlength
  · exact inside_ret 1
  · rw [TCPHDR_SIZE] at hlength
    refine (inside_load8 (by omega)).bind fun doff _ => ?_
    dsimp only
    split_ifs
    · exact inside_ret 2
    · exact inside_ret 3
    · exact inside_ret 4
    · refine (inside_load16 (by omega)).bind fun dest _ => ?_
      split_ifs
      · exact inside_ret 5
      · exact (inside_load16 (by omega)).bind fun _ _ => inside_ok _

-- The next byte is looked at only when it is there.
theorem inside_copyData {len rounds j : ℕ} (hpos : pos < packet.length) :
    Inside (copyData packet len rounds j pos) := by
  induction rounds generalizing j pos with
  | zero => exact inside_ok _
  | succ rounds ih =>
      rw [copyData]
      refine (inside_load8 hpos).bind fun byte _ => ?_
      split_ifs with hlen hnext
      · exact inside_ok _
      · exact inside_ok _
      · exact (ih (by omega)).bind fun _ _ => inside_ok _

variable {srcIp : UInt32} {srcPort dstPort : UInt16}

theorem inside_parseConsumer : Inside (parseConsumer packet pos srcIp srcPort dstPort) := by
  rw [parseConsumer]
  dsimp only
  split_ifs with hpart
  · exact inside_ret 1
  · rw [PACKET_PARSER3_SIZE] at hpart
    refine (inside_load8 (by omega)).bind fun part _ => ?_
    split_ifs with htopic
    · exact inside_ret 2
    · rw [PACKET_PARSER3_SIZE] at htopic
      refine (inside_load8 (by omega)).bind fun len _ => ?_
      split_ifs with hlen hdata
      · exact inside_ret 3
      · exact inside_ret 4
      · rw [PACKET_PARSER1_SIZE] at hdata
        refine (inside_load32 (by omega)).bind fun num _ =>
          (inside_copyData (by omega)).bind fun _ _ => inside_ok _

theorem inside_parseProducer : Inside (parseProducer packet pos srcIp srcPort dstPort) := by
  rw [parseProducer]
  dsimp only
  split_ifs with hpart
  · exact inside_ret 1
  · rw [PACKET_PARSER3_SIZE] at hpart
    refine (inside_load8 (by omega)).bind fun part _ => ?_
    split_ifs with htopic
    · exact inside_ret 3
    · rw [PACKET_PARSER3_SIZE] at htopic
      refine (inside_load8 (by omega)).bind fun len _ => ?_
      split_ifs with hnum
      · exact inside_ret 4
      · rw [PACKET_PARSER2_SIZE] at hnum
        refine (inside_load8 (by omega)).bind fun num _ =>
          (inside_copyData (by omega)).bind fun _ _ => inside_ok _

theorem inside_parseRecord : Inside (parseRecord packet pos srcIp srcPort dstPort) := by
  rw [parseRecord]
  split_ifs with hlength
  · exact inside_other
  · rw [PACKET_PARSER1_SIZE] at hlength
    refine (inside_load32 (by omega)).bind fun param2 _ => ?_
    split_ifs
    · exact inside_parseProducer
    · exact inside_parseConsumer
    · exact inside_other

-- Whatever the packet, nothing behind its end is read.
theorem inside_xdpParserFunc (port : UInt16) (packet : Packet) :
    Inside (xdpParserFunc port packet) :=
  inside_parseEthhdrVlan.bind fun _ _ => inside_parseIphdr.bind fun _ _ =>
    inside_parseTcphdr.bind fun _ _ => inside_parseRecord

end Inside

section Whole

variable {α β : Type} {packet : Packet} {pos : ℕ}

-- What holds of the result, if there is one.
def Gives (property : α → Prop) (parsed : Except Stop α) : Prop :=
  ∀ value, parsed = .ok value → property value

theorem gives_ok {property : α → Prop} {value : α} (h : property value) :
    Gives property (.ok value) := by
  rintro _ ⟨⟩
  exact h

theorem gives_error {property : α → Prop} (stop : Stop) : Gives property (.error stop) := by
  rintro _ ⟨⟩

theorem Gives.bind {property : α → Prop} {other : β → Prop} {parsed : Except Stop α}
    {next : α → Except Stop β} (h : Gives property parsed)
    (hnext : ∀ value, property value → Gives other (next value)) :
    Gives other (parsed >>= next) := by
  cases parsed with
  | error stop => exact gives_error stop
  | ok value => exact hnext value (h value rfl)

theorem gives_any (parsed : Except Stop α) : Gives (fun _ => True) parsed := fun _ _ => trivial

-- All of the topic was in the packet.
def Found.Whole (found : Found) : Prop := found.data.length = max 1 (recLen found.len)

theorem length_copyData {len rounds j : ℕ} (hrounds : max 1 (len - j) ≤ rounds)
    (hroom : pos + (len - j) ≤ packet.length) :
    Gives (fun bytes => bytes.length = max 1 (len - j)) (copyData packet len rounds j pos) := by
  induction rounds generalizing j pos with
  | zero => omega
  | succ rounds ih =>
      rw [copyData]
      refine (gives_any _).bind fun byte _ => ?_
      split_ifs with hlen hnext
      · refine gives_ok ?_
        rw [List.length_singleton]
        omega
      · omega
      · refine (ih (j := j + 1) (by omega) (by omega)).bind fun bytes hbytes => gives_ok ?_
        rw [List.length_cons, hbytes]
        omega

variable {srcIp : UInt32} {srcPort dstPort : UInt16}

theorem whole_parseConsumer :
    Gives Found.Whole (parseConsumer packet pos srcIp srcPort dstPort) := by
  rw [parseConsumer]
  dsimp only
  split_ifs with hpart
  · exact gives_error _
  · refine (gives_any _).bind fun part _ => ?_
    split_ifs with htopic
    · exact gives_error _
    · refine (gives_any _).bind fun len _ => ?_
      split_ifs with hlen hdata
      · exact gives_error _
      · exact gives_error _
      · refine (gives_any _).bind fun num _ => ?_
        have hle : recLen len ≤ len.toNat := Nat.min_le_left _ _
        have hsize : recLen len ≤ smallBufSize := Nat.min_le_right _ _
        rw [PACKET_PARSER1_SIZE] at hdata
        exact (length_copyData (by rw [smallBufSize] at *; omega) (by omega)).bind
          fun bytes hbytes => gives_ok hbytes

theorem whole_parseProducer :
    Gives Found.Whole (parseProducer packet pos srcIp srcPort dstPort) := by
  rw [parseProducer]
  dsimp only
  split_ifs with hpart
  · exact gives_error _
  · refine (gives_any _).bind fun part _ => ?_
    split_ifs with htopic
    · exact gives_error _
    · refine (gives_any _).bind fun len _ => ?_
      split_ifs with hnum
      · exact gives_error _
      · refine (gives_any _).bind fun num _ => ?_
        have hle : recLen len ≤ len.toNat := Nat.min_le_left _ _
        have hsize : recLen len ≤ smallBufSize := Nat.min_le_right _ _
        rw [PACKET_PARSER2_SIZE] at hnum
        exact (length_copyData (by rw [smallBufSize] at *; omega) (by omega)).bind
          fun bytes hbytes => gives_ok hbytes

theorem whole_xdpParserFunc (port : UInt16) (packet : Packet) :
    Gives Found.Whole (xdpParserFunc port packet) := by
  refine (gives_any _).bind fun _ _ => (gives_any _).bind fun _ _ => (gives_any _).bind
    fun _ _ => ?_
  dsimp only
  rw [parseRecord]
  split_ifs
  · exact gives_error _
  · refine (gives_any _).bind fun param2 _ => ?_
    split_ifs
    · exact whole_parseProducer
    · exact whole_parseConsumer
    · exact gives_error _

end Whole

end Gopher.Kafka.Xdp
