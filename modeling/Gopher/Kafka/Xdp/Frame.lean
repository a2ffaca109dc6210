import Gopher.Kafka.Xdp
import Mathlib.Tactic.IntervalCases

-- What the program finds in a frame that carries a request.

namespace Gopher.Kafka.Xdp

section At

variable {packet : Packet} {pos : ℕ} {bytes first second : List UInt8}

-- The bytes stand in the packet.
def At (packet : Packet) (pos : ℕ) (bytes : List UInt8) : Prop :=
  ∀ i (_ : i < bytes.length), packet[pos + i]? = some bytes[i]

theorem at_self (packet : Packet) : At packet 0 packet := by
  intro i hi
  rw [Nat.zero_add, List.getElem?_eq_getElem hi]

theorem At.left (h : At packet pos (first ++ second)) : At packet pos first := by
  intro i hi
  rw [h i (by rw [List.length_append]; omega), List.getElem_append_left hi]

theorem At.right (h : At packet pos (first ++ second)) :
    At packet (pos + first.length) second := by
  intro i hi
  have hbyte := h (first.length + i) (by rw [List.length_append]; omega)
  rw [List.getElem_append_right (by omega)] at hbyte
  simpa only [Nat.add_sub_cancel_left, Nat.add_assoc] using hbyte

theorem At.length_le (h : At packet pos bytes) (hbytes : bytes ≠ []) :
    pos + bytes.length ≤ packet.length := by
  have hpos := List.length_pos_of_ne_nil hbytes
  have hbyte := h (bytes.length - 1) (by omega)
  obtain ⟨hlast, -⟩ := List.getElem?_eq_some_iff.mp hbyte
  omega

theorem At.load8 (h : At packet pos bytes) (i : ℕ) (hi : i < bytes.length) :
    load8 packet (pos + i) = .ok bytes[i] := by
  rw [Xdp.load8, h i hi]

theorem At.load16 (h : At packet pos bytes) (i : ℕ) (hi : i + 1 < bytes.length) :
    load16 packet (pos + i) = .ok (le16 bytes[i] bytes[i + 1]) := by
  have hfirst := h.load8 i (by omega)
  have hsecond := h.load8 (i + 1) hi
  rw [← Nat.add_assoc] at hsecond
  rw [Xdp.load16, hfirst, hsecond]
  rfl

theorem At.load32 (h : At packet pos bytes) (i : ℕ) (hi : i + 3 < bytes.length) :
    load32 packet (pos + i) =
      .ok (le32 bytes[i] bytes[i + 1] bytes[i + 2] bytes[i + 3]) := by
  have hfirst := h.load8 i (by omega)
  have hsecond := h.load8 (i + 1) (by omega)
  have hthird := h.load8 (i + 2) (by omega)
  have hfourth := h.load8 (i + 3) hi
  rw [← Nat.add_assoc] at hsecond hthird hfourth
  rw [Xdp.load32, hfirst, hsecond, hthird, hfourth]
  rfl

end At

-- A VLAN header, of a service or a customer VLAN.
structure Tag where
  isService : Bool
  tci : Vector UInt8 2

def Tag.proto (tag : Tag) : UInt16 :=
  hton16 (if tag.isService then ETH_P_8021AD else ETH_P_8021Q)

-- The bytes of a field in the order of the host.
def bytes16 (value : UInt16) : List UInt8 := [value.toUInt8, (value >>> 8).toUInt8]

theorem le16_bytes16 (value : UInt16) : le16 value.toUInt8 (value >>> 8).toUInt8 = value := by
  apply UInt16.eq_of_toBitVec_eq
  ext i hi
  simp only [le16, UInt16.toBitVec_or, UInt16.toBitVec_shiftLeft, UInt8.toBitVec_toUInt16,
    UInt16.toBitVec_toUInt8, UInt16.toBitVec_shiftRight]
  interval_cases i <;> simp

def Tag.bytes (tag : Tag) : List UInt8 := bytes16 tag.proto ++ tag.tci.toList

theorem Tag.length_bytes (tag : Tag) : tag.bytes.length = 4 := by
  simp [Tag.bytes, bytes16]

theorem Tag.protoIsVlan_proto (tag : Tag) : protoIsVlan tag.proto = true := by
  rw [protoIsVlan, Tag.proto]
  cases tag.isService <;> decide

-- The type in front of what follows the tags.
def protoOf (tags : List Tag) : UInt16 := (tags.head?.map Tag.proto).getD (hton16 ETH_P_IP)

def tagged (tags : List Tag) : List UInt8 := tags.flatMap Tag.bytes ++ bytes16 (hton16 ETH_P_IP)

theorem exists_tagged (tags : List Tag) : ∃ rest, tagged tags = bytes16 (protoOf tags) ++ rest := by
  cases tags with
  | nil => exact ⟨[], rfl⟩
  | cons tag tags => exact ⟨tag.tci.toList ++ tagged tags, by simp [tagged, Tag.bytes, protoOf]⟩

variable {packet : Packet} {pos : ℕ}

theorem At.load16_proto {tags : List Tag} (h : At packet pos (tagged tags)) :
    Xdp.load16 packet pos = .ok (protoOf tags) := by
  obtain ⟨rest, heq⟩ := exists_tagged tags
  rw [heq] at h
  have hload := h.load16 0 (by simp [bytes16])
  rw [Nat.add_zero] at hload
  rw [hload]
  exact congrArg Except.ok (le16_bytes16 _)

-- Every tag is skipped, as long as there are not too many.
theorem skipVlans_tagged {tags : List Tag} {depth : ℕ} (h : At packet pos (tagged tags))
    (hdepth : tags.length ≤ depth) :
    skipVlans packet depth (protoOf tags) (pos + 2) =
      .ok (hton16 ETH_P_IP, pos + (tagged tags).length) := by
  induction tags generalizing pos depth with
  | nil =>
      have hlength : (tagged []).length = 2 := rfl
      rw [hlength]
      cases depth with
      | zero => rfl
      | succ depth => rfl
  | cons tag tags ih =>
      cases depth with
      | zero => cases hdepth
      | succ depth =>
          have hcons : tagged (tag :: tags) = tag.bytes ++ tagged tags := by
            rw [tagged, List.flatMap_cons, List.append_assoc, tagged]
          have hproto : protoOf (tag :: tags) = tag.proto := rfl
          rw [hcons] at h
          have hrest := h.right
          have hroom := hrest.length_le (by simp [tagged, bytes16])
          have htwo : 2 ≤ (tagged tags).length := by simp [tagged, bytes16]
          rw [tag.length_bytes] at hrest hroom
          have hnext : ¬ packet.length < pos + 2 + VLAN_HDR_SIZE := by
            rw [VLAN_HDR_SIZE]
            omega
          rw [skipVlans, hproto, tag.protoIsVlan_proto, Bool.not_true, if_neg Bool.false_ne_true,
            if_neg hnext, Nat.add_assoc pos 2 2, hrest.load16_proto, VLAN_HDR_SIZE,
            Nat.add_assoc pos 2 4, Nat.add_comm 2 4, ← Nat.add_assoc pos 4 2]
          have hskip := ih hrest (Nat.le_of_succ_le_succ hdepth)
          rw [hcons, List.length_append, tag.length_bytes, ← Nat.add_assoc]
          exact hskip

-- An IP header. The length that it states is its own.
structure IpHeader where
  first : UInt8
  fields : Vector UInt8 8
  checksum : Vector UInt8 2
  saddr : Vector UInt8 4
  daddr : Vector UInt8 4
  options : List UInt8
  ihl : (first &&& 0xf).toNat * 4 = IPHDR_SIZE + options.length

def IpHeader.bytes (ip : IpHeader) : List UInt8 :=
  [ip.first] ++ ip.fields.toList ++ [IPPROTO_TCP] ++ ip.checksum.toList ++ ip.saddr.toList ++
    ip.daddr.toList ++ ip.options

def IpHeader.srcIp (ip : IpHeader) : UInt32 :=
  le32 ip.saddr[0] ip.saddr[1] ip.saddr[2] ip.saddr[3]

theorem IpHeader.length_bytes (ip : IpHeader) :
    ip.bytes.length = IPHDR_SIZE + ip.options.length := by
  simp [IpHeader.bytes, IPHDR_SIZE]
  omega

theorem parseIphdr_at {ip : IpHeader} (h : At packet pos ip.bytes) :
    parseIphdr packet pos = .ok (pos + ip.bytes.length, ip.srcIp) := by
  have hlength := ip.length_bytes
  have hmin : 20 ≤ ip.bytes.length := hlength ▸ Nat.le_add_right _ _
  have hroom := h.length_le (by simp [IpHeader.bytes])
  have hfirst : load8 packet pos = .ok ip.first := h.load8 0 (by omega)
  have hprotocol : load8 packet (pos + 9) = .ok IPPROTO_TCP := by
    rw [h.load8 9 (by omega)]
    simp [IpHeader.bytes]
  have hsource : load32 packet (pos + 12) = .ok ip.srcIp := by
    rw [h.load32 12 (by omega)]
    simp [IpHeader.bytes, IpHeader.srcIp]
  have hsize : ¬ packet.length < pos + IPHDR_SIZE := by
    rw [IPHDR_SIZE]
    omega
  have hihl := ip.ihl
  rw [← hlength] at hihl
  rw [parseIphdr, if_neg hsize, hfirst]
  simp only [bind, Except.bind]
  rw [hihl, if_neg (by rw [IPHDR_SIZE]; omega), if_neg (by omega), hprotocol]
  simp only [ne_eq, not_true_eq_false, if_false, hsource]
  rfl

-- A TCP header. The offset that it states is its own length.
structure TcpHeader where
  source : UInt16
  dest : UInt16
  numbers : Vector UInt8 8
  offset : UInt8
  fields : Vector UInt8 7
  options : List UInt8
  doff : (offset >>> 4).toNat * 4 = TCPHDR_SIZE + options.length

def TcpHeader.bytes (tcp : TcpHeader) : List UInt8 :=
  bytes16 tcp.source ++ bytes16 tcp.dest ++ tcp.numbers.toList ++ [tcp.offset] ++
    tcp.fields.toList ++ tcp.options

theorem TcpHeader.length_bytes (tcp : TcpHeader) :
    tcp.bytes.length = TCPHDR_SIZE + tcp.options.length := by
  simp [TcpHeader.bytes, TCPHDR_SIZE, bytes16]
  omega

theorem parseTcphdr_at {tcp : TcpHeader} {payload : List UInt8} (hpayload : payload ≠ [])
    (h : At packet pos (tcp.bytes ++ payload)) :
    parseTcphdr tcp.dest packet pos = .ok (pos + tcp.bytes.length, tcp.source, tcp.dest) := by
  have hlength := tcp.length_bytes
  have hmin : 20 ≤ tcp.bytes.length := hlength ▸ Nat.le_add_right _ _
  have hroom := h.right.length_le hpayload
  have hpositive := List.length_pos_of_ne_nil hpayload
  have hsource : load16 packet pos = .ok tcp.source := by
    have hload := h.left.load16 0 (by omega)
    rw [Nat.add_zero] at hload
    rw [hload]
    exact congrArg Except.ok (le16_bytes16 _)
  have hdest : load16 packet (pos + 2) = .ok tcp.dest := by
    rw [h.left.load16 2 (by omega)]
    exact congrArg Except.ok (le16_bytes16 _)
  have hoffset : load8 packet (pos + 12) = .ok tcp.offset := by
    rw [h.left.load8 12 (by omega)]
    simp [TcpHeader.bytes, bytes16]
  have hsize : ¬ packet.length < pos + TCPHDR_SIZE := by
    rw [TCPHDR_SIZE]
    omega
  have hdoff := tcp.doff
  rw [← hlength] at hdoff
  rw [parseTcphdr, if_neg hsize, hoffset]
  simp only [bind, Except.bind]
  rw [hdoff, if_neg (by rw [TCPHDR_SIZE]; omega), if_neg (by omega), if_neg (by omega), hdest]
  simp only [ne_eq, not_true_eq_false, if_false, hsource]
  rfl

-- As many bytes as there are, when at least one is asked for and none is missing.
theorem copyData_at {bytes : List UInt8} {len rounds j : ℕ} (hbytes : bytes ≠ [])
    (hlen : len = j + bytes.length) (hrounds : bytes.length ≤ rounds)
    (h : At packet pos bytes) : copyData packet len rounds j pos = .ok bytes := by
  induction bytes generalizing rounds j pos with
  | nil => exact absurd rfl hbytes
  | cons byte bytes ih =>
      cases rounds with
      | zero => cases hrounds
      | succ rounds =>
          have hload : load8 packet pos = .ok byte := h.load8 0 (by simp)
          rw [List.length_cons] at hlen hrounds
          rw [copyData, hload]
          simp only [bind, Except.bind]
          cases bytes with
          | nil => exact if_pos (by rw [hlen]; exact le_rfl)
          | cons next rest =>
              have hsplit : At packet pos ([byte] ++ next :: rest) := h
              have hrest : At packet (pos + 1) (next :: rest) := hsplit.right
              have hroom := hrest.length_le (List.cons_ne_nil _ _)
              rw [List.length_cons] at hroom
              rw [if_neg (by rw [hlen, List.length_cons]; omega), if_neg (by omega),
                ih (List.cons_ne_nil _ _) (by omega) (by omega) hrest]
              rfl

-- The bytes of a number on the wire.
def be32 (value : UInt32) : List UInt8 :=
  [(value >>> 24).toUInt8, (value >>> 16).toUInt8, (value >>> 8).toUInt8, value.toUInt8]

theorem hton32_be32 (value : UInt32) :
    hton32 (le32 (value >>> 24).toUInt8 (value >>> 16).toUInt8 (value >>> 8).toUInt8
      value.toUInt8) = value := by
  apply UInt32.eq_of_toBitVec_eq
  ext i hi
  simp only [hton32, le32, UInt32.toBitVec_or, UInt32.toBitVec_and, UInt32.toBitVec_shiftLeft,
    UInt32.toBitVec_shiftRight, UInt8.toBitVec_toUInt32, UInt32.toBitVec_toUInt8]
  interval_cases i <;> simp

-- What a request begins with, and the name of the client behind it.
structure Sender where
  size : Vector UInt8 4
  correlation : Vector UInt8 4
  name : List UInt8
  length_lt : name.length < 256

def Sender.header (sender : Sender) (api : List UInt8) : List UInt8 :=
  sender.size.toList ++ api ++ sender.correlation.toList ++ [0, sender.name.length.toUInt8]

-- A produce request of version 8 without a transactional id, as far as the number of records
-- of its first batch.
structure Produce where
  sender : Sender
  acks : Vector UInt8 12
  topic : List UInt8
  batch : Vector UInt8 69
  count : UInt32
  rest : List UInt8
  topic_ne : topic ≠ []
  length_lt : topic.length < 256

def Produce.bytes (request : Produce) : List UInt8 :=
  request.sender.header [0, 0, 0, 8] ++ (request.sender.name ++ (request.acks.toList ++
    ([0, request.topic.length.toUInt8] ++ (request.topic ++ (request.batch.toList ++
      (be32 request.count ++ request.rest))))))

-- Of the number of messages, the low byte is found.
def Produce.found (request : Produce) (srcIp : UInt32) (srcPort dstPort : UInt16) : Found :=
  { type := producerMsgType, srcIp, srcPort, dstPort, len := request.topic.length.toUInt8
    num := request.count % 256, data := request.topic.take smallBufSize }

-- A fetch request of version 12 without tagged fields in its header, as far as the position in
-- its first partition, of which the low half is read. The topic is what its length byte counts.
structure Fetch where
  sender : Sender
  settings : Vector UInt8 26
  topics : UInt8
  topic : List UInt8
  partitions : Vector UInt8 12
  position : UInt32
  epoch : Vector UInt8 4
  rest : List UInt8
  one_lt : 1 < topic.length
  length_lt : topic.length < 256
  room : 12 ≤ topic.length + rest.length

def Fetch.bytes (request : Fetch) : List UInt8 :=
  request.sender.header [0, 1, 0, 12] ++ (request.sender.name ++ (request.settings.toList ++
    ([request.topics, request.topic.length.toUInt8] ++ (request.topic ++
      (request.partitions.toList ++ ((be32 request.position ++ request.epoch.toList) ++
        request.rest))))))

def Fetch.found (request : Fetch) (srcIp : UInt32) (srcPort dstPort : UInt16) : Found :=
  { type := consumerMsgType, srcIp, srcPort, dstPort, len := request.topic.length.toUInt8
    num := request.position, data := request.topic.take smallBufSize }

theorem Sender.length_header (sender : Sender) {api : List UInt8} (hapi : api.length = 4) :
    (sender.header api).length = 14 := by
  simp [Sender.header, hapi]

theorem load32_api {sender : Sender} {api : List UInt8} (hapi : api.length = 4)
    (h : At packet pos (sender.header api)) :
    load32 packet (pos + 4) =
      .ok (le32 api[0] api[1] api[2] api[3]) := by
  rw [h.load32 4 (by rw [sender.length_header hapi]; omega)]
  simp [Sender.header, hapi]

theorem load8_nameLength {sender : Sender} {api : List UInt8} (hapi : api.length = 4)
    (h : At packet pos (sender.header api)) :
    load8 packet (pos + 12 + 1) = .ok sender.name.length.toUInt8 := by
  rw [Nat.add_assoc pos 12 1, h.load8 13 (by rw [sender.length_header hapi]; omega)]
  simp [Sender.header, hapi]

theorem recLen_length {topic : List UInt8} (hlength : topic.length < 256) :
    recLen topic.length.toUInt8 = (topic.take smallBufSize).length := by
  rw [recLen, List.length_take, Nat.toUInt8, UInt8.toNat_ofNat', Nat.mod_eq_of_lt hlength,
    Nat.min_comm]

-- The name of the topic is copied, as far as there is room for it.
theorem copyData_topic {topic : List UInt8} (htopic : topic ≠ [])
    (hlength : topic.length < 256) (h : At packet pos topic) :
    copyData packet (recLen topic.length.toUInt8) smallBufSize 0 pos =
      .ok (topic.take smallBufSize) := by
  rw [← List.take_append_drop smallBufSize topic] at h
  refine copyData_at ?_ ?_ ?_ h.left
  · rw [Ne, List.take_eq_nil_iff, not_or]
    exact ⟨by decide, htopic⟩
  · rw [recLen_length hlength, Nat.zero_add]
  · rw [List.length_take]
    exact Nat.min_le_left _ _

variable {srcIp : UInt32} {srcPort dstPort : UInt16}

theorem toNat_length {bytes : List UInt8} (hlength : bytes.length < 256) :
    bytes.length.toUInt8.toNat = bytes.length := by
  rw [Nat.toUInt8, UInt8.toNat_ofNat', Nat.mod_eq_of_lt hlength]

-- Where the parts of a request are that the program looks at.
theorem Produce.parts {request : Produce} (h : At packet pos request.bytes) :
    ∃ topicData, topicData = pos + 12 + request.sender.name.length + 14 ∧
      At packet topicData [0, request.topic.length.toUInt8] ∧
      At packet (topicData + 2) request.topic ∧
      At packet (topicData + request.topic.length + 71) (be32 request.count) := by
  have htopicData := h.right.right.right
  have hcount := htopicData.right.right.right.left
  rw [request.sender.length_header rfl, Vector.length_toList] at htopicData
  rw [request.sender.length_header rfl, Vector.length_toList, Vector.length_toList,
    show ∀ place, place + [0, request.topic.length.toUInt8].length + request.topic.length + 69 =
      place + request.topic.length + 71 by intro place; simp; omega] at hcount
  exact ⟨_, by omega, htopicData.left, htopicData.right.left, hcount⟩

theorem parseProducer_at {request : Produce} (h : At packet pos request.bytes) :
    parseProducer packet pos srcIp srcPort dstPort =
      .ok (request.found srcIp srcPort dstPort) := by
  have hname := load8_nameLength rfl h.left
  obtain ⟨topicData, heq, hlength, htopic, hcount⟩ := Produce.parts h
  have hroom := hcount.length_le (by simp [be32])
  have hfour : (be32 request.count).length = 4 := rfl
  have hlen : load8 packet (topicData + 1) = .ok request.topic.length.toUInt8 :=
    hlength.load8 1 (by simp)
  have hnum : load8 packet (topicData + request.topic.length + 73 + 1) =
      .ok request.count.toUInt8 := hcount.load8 3 (by simp [be32])
  rw [parseProducer]
  dsimp only
  rw [if_neg (by rw [PACKET_PARSER3_SIZE]; omega), hname]
  simp only [bind, Except.bind]
  rw [toNat_length request.sender.length_lt, ← heq, if_neg (by rw [PACKET_PARSER3_SIZE]; omega),
    hlen]
  dsimp only
  rw [toNat_length request.length_lt, if_neg (by rw [PACKET_PARSER2_SIZE]; omega), hnum,
    copyData_topic request.topic_ne request.length_lt htopic]
  dsimp only
  rw [UInt32.toUInt32_toUInt8]
  rfl

theorem Fetch.parts {request : Fetch} (h : At packet pos request.bytes) :
    ∃ topicData, topicData = pos + 12 + request.sender.name.length + 28 ∧
      At packet topicData [request.topics, request.topic.length.toUInt8] ∧
      At packet (topicData + 2) request.topic ∧
      At packet (topicData + request.topic.length + 14)
        (be32 request.position ++ request.epoch.toList) ∧
      topicData + request.topic.length + 22 + request.rest.length ≤ packet.length := by
  have hheader := request.sender.length_header (show [0, 1, 0, 12].length = 4 from rfl)
  have hbytes : request.bytes.length = 62 + request.sender.name.length + request.topic.length +
      request.rest.length := by
    rw [Fetch.bytes, List.length_append, hheader]
    simp [be32]
    omega
  have hroom := h.length_le (List.ne_nil_of_length_pos (by omega))
  have htopicData := h.right.right.right
  have hposition := htopicData.right.right.right.left
  rw [hheader, Vector.length_toList] at htopicData
  rw [hheader, Vector.length_toList, Vector.length_toList,
    show ∀ place, place + [request.topics, request.topic.length.toUInt8].length +
      request.topic.length + 12 = place + request.topic.length + 14 by
        intro place; simp; omega] at hposition
  exact ⟨_, by omega, htopicData.left, htopicData.right.left, hposition, by omega⟩

theorem parseConsumer_at {request : Fetch} (h : At packet pos request.bytes) :
    parseConsumer packet pos srcIp srcPort dstPort =
      .ok (request.found srcIp srcPort dstPort) := by
  have hname := load8_nameLength rfl h.left
  obtain ⟨topicData, heq, hlength, htopic, hposition, hroom⟩ := Fetch.parts h
  have hshort := request.room
  have hone := request.one_lt
  have hlen : load8 packet (topicData + 1) = .ok request.topic.length.toUInt8 :=
    hlength.load8 1 (by simp)
  have hnum : load32 packet (topicData + request.topic.length + 14) = .ok (le32
      (request.position >>> 24).toUInt8 (request.position >>> 16).toUInt8
      (request.position >>> 8).toUInt8 request.position.toUInt8) :=
    hposition.load32 0 (by simp [be32])
  have hne : request.topic.length.toUInt8 ≠ 1 := by
    intro hsame
    have hnat := congrArg UInt8.toNat hsame
    rw [toNat_length request.length_lt] at hnat
    exact absurd hnat (by simp; omega)
  rw [parseConsumer]
  dsimp only
  rw [if_neg (by rw [PACKET_PARSER3_SIZE]; omega), hname]
  simp only [bind, Except.bind]
  rw [toNat_length request.sender.length_lt, ← heq, if_neg (by rw [PACKET_PARSER3_SIZE]; omega),
    hlen]
  dsimp only
  rw [if_neg hne, toNat_length request.length_lt, if_neg (by rw [PACKET_PARSER1_SIZE]; omega),
    hnum, copyData_topic (List.ne_nil_of_length_pos (by omega)) request.length_lt htopic]
  dsimp only
  rw [hton32_be32]
  rfl

-- What the payload of a frame may be.
inductive Request
  | produce (request : Produce)
  | fetch (request : Fetch)

def Request.bytes : Request → List UInt8
  | produce request => request.bytes
  | fetch request => request.bytes

def Request.found (srcIp : UInt32) (srcPort dstPort : UInt16) : Request → Found
  | produce request => request.found srcIp srcPort dstPort
  | fetch request => request.found srcIp srcPort dstPort

theorem parseRecord_at {request : Request} (h : At packet pos request.bytes) :
    parseRecord packet pos srcIp srcPort dstPort =
      .ok (request.found srcIp srcPort dstPort) := by
  cases request with
  | produce request =>
      have hapi : load32 packet (pos + 4) = .ok 0x08000000 :=
        (load32_api rfl (At.left h)).trans (congrArg Except.ok (by decide))
      have hheader := (At.left h).length_le (by simp [Sender.header])
      rw [request.sender.length_header rfl] at hheader
      rw [parseRecord, if_neg (by rw [PACKET_PARSER1_SIZE]; omega), hapi]
      exact parseProducer_at h
  | fetch request =>
      have hapi : load32 packet (pos + 4) = .ok 0x0c000100 :=
        (load32_api rfl (At.left h)).trans (congrArg Except.ok (by decide))
      have hheader := (At.left h).length_le (by simp [Sender.header])
      rw [request.sender.length_header rfl] at hheader
      rw [parseRecord, if_neg (by rw [PACKET_PARSER1_SIZE]; omega), hapi]
      exact parseConsumer_at h

-- A frame, with VLAN headers as many as the program skips.
structure Frame where
  macs : Vector UInt8 12
  tags : List Tag
  ip : IpHeader
  tcp : TcpHeader
  length_tags : tags.length ≤ VLAN_MAX_DEPTH

def Frame.bytes (frame : Frame) (payload : List UInt8) : List UInt8 :=
  frame.macs.toList ++ (tagged frame.tags ++ (frame.ip.bytes ++ (frame.tcp.bytes ++ payload)))

-- Whatever the tags and the options of a frame to the inspected port, the program finds the
-- request, with the source and the ports of the headers.
theorem xdpParserFunc_request (frame : Frame) (request : Request) :
    xdpParserFunc frame.tcp.dest (frame.bytes request.bytes) =
      .ok (request.found frame.ip.srcIp frame.tcp.source frame.tcp.dest) := by
  have hframe := at_self (frame.bytes request.bytes)
  have htags := hframe.right
  rw [Vector.length_toList, Nat.zero_add] at htags
  have hip := htags.right
  have htcp := hip.right
  have hrequest := htcp.right
  have hlength := htags.left.length_le (by simp [tagged, bytes16])
  have htwo : 2 ≤ (tagged frame.tags).length := by simp [tagged, bytes16]
  have hpayload : request.bytes ≠ [] := by
    cases request <;> simp [Request.bytes, Produce.bytes, Fetch.bytes, Sender.header]
  have heth : parseEthhdrVlan (frame.bytes request.bytes) =
      .ok (12 + (tagged frame.tags).length) := by
    rw [parseEthhdrVlan, if_neg (by rw [ETHHDR_SIZE]; omega), htags.left.load16_proto]
    simp only [bind, Except.bind]
    rw [ETHHDR_SIZE, skipVlans_tagged htags.left frame.length_tags]
    rfl
  rw [xdpParserFunc, heth]
  simp only [bind, Except.bind]
  rw [parseIphdr_at hip.left]
  dsimp only
  rw [parseTcphdr_at hpayload htcp]
  dsimp only
  exact parseRecord_at hrequest

end Gopher.Kafka.Xdp
