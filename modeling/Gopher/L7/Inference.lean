import Gopher.L7.ConnTracker
import Gopher.Probe.Params

namespace Gopher.L7.Inference

def L7_DATA_BUFFER_MAXSIZE : ℕ := 1024

def HTTP_ENABLE : UInt32 := 0x0001
def DNS_ENABLE : UInt32 := 0x0002
def REDIS_ENABLE : UInt32 := 0x0004
def CQL_ENABLE : UInt32 := 0x0018
def MONGO_ENABLE : UInt32 := 0x0014
def NATS_ENABLE : UInt32 := 0x0020

inductive MessageType
  | unknow
  | request
  | response
  deriving DecidableEq, Repr

-- The bytes from the start of the message on.
abbrev Buf := ℕ → UInt8

def Buf.starts (buf : Buf) : List Char → Bool
  | [] => true
  | char :: text => buf 0 == char.toUInt8 && Buf.starts (fun i => buf (i + 1)) text

-- Numbers in the byte order of the machine.
def Buf.u16 (buf : Buf) (i : ℕ) : UInt16 :=
  (buf (2 * i)).toUInt16 ||| (buf (2 * i + 1)).toUInt16 <<< 8

def Buf.int (buf : Buf) (i : ℕ) : Int32 :=
  ((buf (4 * i)).toUInt32 ||| (buf (4 * i + 1)).toUInt32 <<< 8 |||
    (buf (4 * i + 2)).toUInt32 <<< 16 ||| (buf (4 * i + 3)).toUInt32 <<< 24).toInt32

abbrev GetType := Buf → ℕ → MessageType

def HTTP_MIN_SIZE : ℕ := 16

def getHttpType : GetType := fun buf count =>
  if count < HTTP_MIN_SIZE then .unknow
  else if buf.starts "GET".toList then .request
  else if buf.starts "HEAD".toList then .request
  else if buf.starts "POST".toList then .request
  else if buf.starts "PUT".toList then .request
  else if buf.starts "DELETE".toList then .request
  else if buf.starts "HTTP".toList then .response
  else .unknow

def REDIS_MIN_SIZE : ℕ := 6

def isRedisCommand (cmd : UInt8) : Bool :=
  cmd == '+'.toUInt8 || cmd == '-'.toUInt8 || cmd == ':'.toUInt8 || cmd == '$'.toUInt8 ||
    cmd == '*'.toUInt8

-- Requests and responses have the same format.
def getRedisType : GetType := fun buf count =>
  if count < REDIS_MIN_SIZE then .unknow
  else if !isRedisCommand (buf 0) then .unknow
  else .request

def DNS_HEADER_MINSIZE : ℕ := 12
def DNS_MESSAGE_MAXSIZE : ℕ := 512
def DNS_RR_MAXSIZE : UInt16 := 25

def getDnsType : GetType := fun buf count =>
  if count < DNS_HEADER_MINSIZE ∨ count > DNS_MESSAGE_MAXSIZE then .unknow
  else
    let qr := buf 2 &&& 0x80
    let zero := buf 3 &&& 0x70
    let rr := buf.u16 2 + buf.u16 3 + buf.u16 4 + buf.u16 5
    if zero ≠ 0 then .unknow
    else if rr > DNS_RR_MAXSIZE then .unknow
    else if qr = 0 then .request else .response

def NATS_MINSIZE : ℕ := 3

-- A command in upper or in lower case.
def natsCommand (upper lower : List Char) (type : MessageType) : GetType := fun buf count =>
  if count ≥ upper.length then
    if buf.starts upper then type
    else if buf.starts lower then type
    else .unknow
  else .unknow

def natsConnect : GetType := natsCommand "CONNECT".toList "connect".toList .request
def natsInfo : GetType := natsCommand "INFO".toList "info".toList .response
def natsSub : GetType := natsCommand "SUB".toList "sub".toList .request
def natsUnsub : GetType := natsCommand "UNSUB".toList "unsub".toList .response
def natsPub : GetType := natsCommand "PUB".toList "pub".toList .request
def natsHpub : GetType := natsCommand "HPUB".toList "hpub".toList .request
def natsMsg : GetType := natsCommand "MSG".toList "msg".toList .response

-- The third byte is compared twice, the fourth one never.
def natsHmsg : GetType := fun buf count =>
  if count ≥ 4 then
    if buf.starts "HMS".toList ∧ buf 2 = 'G'.toUInt8 then .response
    else if buf.starts "hms".toList ∧ buf 2 = 'g'.toUInt8 then .response
    else .unknow
  else .unknow

def getNatsType : GetType := fun buf count =>
  if count < NATS_MINSIZE then .unknow
  else
    let types := [natsConnect, natsInfo, natsSub, natsUnsub, natsPub, natsHpub, natsMsg, natsHmsg]
    ((types.map fun getType => getType buf count).find? fun type => type ≠ .unknow).getD .unknow

def CQL_MINSIZE : ℕ := 9

def CQL_OP_ERR : UInt8 := 0x00
def CQL_OP_STARTUP : UInt8 := 0x01
def CQL_OP_READY : UInt8 := 0x02
def CQL_OP_AUTH : UInt8 := 0x03
def CQL_OP_OPTION : UInt8 := 0x05
def CQL_OP_SUPPORTED : UInt8 := 0x06
def CQL_OP_QUERY : UInt8 := 0x07
def CQL_OP_RESULT : UInt8 := 0x08
def CQL_OP_PREPARE : UInt8 := 0x09
def CQL_OP_EXECUTE : UInt8 := 0x0A
def CQL_OP_REGISTER : UInt8 := 0x0B
def CQL_OP_EVENT : UInt8 := 0x0C
def CQL_OP_BATCH : UInt8 := 0x0D
def CQL_OP_AUTH_CHALLENG : UInt8 := 0x0E
def CQL_OP_AUTH_RESPONSE : UInt8 := 0x0F
def CQL_OP_AUTH_SUCCESS : UInt8 := 0x10

def cqlRequests : List UInt8 :=
  [CQL_OP_REGISTER, CQL_OP_BATCH, CQL_OP_AUTH_RESPONSE, CQL_OP_STARTUP, CQL_OP_OPTION,
    CQL_OP_QUERY, CQL_OP_PREPARE, CQL_OP_EXECUTE]

def cqlResponses : List UInt8 :=
  [CQL_OP_READY, CQL_OP_ERR, CQL_OP_SUPPORTED, CQL_OP_RESULT, CQL_OP_EVENT, CQL_OP_AUTH,
    CQL_OP_AUTH_CHALLENG, CQL_OP_AUTH_SUCCESS]

def getCqlType : GetType := fun buf count =>
  if count < CQL_MINSIZE then .unknow
  else
    let version := buf 0 &&& 0x7f
    let flags := buf 1
    let opcode := buf 4
    if version < 3 ∨ version > 5 then .unknow
    else if flags &&& 0xf0 ≠ 0 then .unknow
    else
      let request := buf 0 &&& 0x80 = 0
      if opcode ∈ cqlRequests then if request then .request else .unknow
      else if opcode ∈ cqlResponses then if ¬request then .response else .unknow
      else .unknow

def MONGO_MINSIZE : ℕ := 16

-- UPDATE, INSERT, RESERVED, QUERY, GETMORE, DELETE, KILL_CURSORS, COMPRESSED and MSG
def mongoOps : List Int32 := [2001, 2002, 2003, 2004, 2005, 2006, 2007, 2012, 2013]

def getMongoType : GetType := fun buf count =>
  if count < MONGO_MINSIZE then .unknow
  else
    let requestId := buf.int 1
    let responseTo := buf.int 2
    let opcode := buf.int 3
    if requestId < 0 then .unknow
    else if opcode ∈ mongoOps then if responseTo = 0 then .request else .response
    else .unknow

-- One test of a flag, with what follows when it succeeds.
structure Test where
  enable : UInt32
  getType : GetType
  proto : ProtoType

def tests : List Test :=
  [⟨HTTP_ENABLE, getHttpType, .http⟩, ⟨DNS_ENABLE, getDnsType, .dns⟩,
    ⟨REDIS_ENABLE, getRedisType, .redis⟩, ⟨NATS_ENABLE, getNatsType, .nats⟩,
    ⟨CQL_ENABLE, getCqlType, .cql⟩, ⟨MONGO_ENABLE, getMongoType, .mongo⟩]

def Test.apply (test : Test) (buf : Buf) (count : ℕ) (flags : UInt32) :
    Option (ProtoType × MessageType) :=
  if flags &&& test.enable ≠ 0 then
    let type := test.getType buf count
    if type ≠ .unknow then some (test.proto, type) else none
  else none

def getL7Protocol (buf : Buf) (count : ℕ) (flags : UInt32) : Option (ProtoType × MessageType) :=
  if count ≥ L7_DATA_BUFFER_MAXSIZE then none
  else tests.findSome? fun test => test.apply buf count flags

-- UDP messages are looked at for DNS only.
def isTracingUdp (flags : UInt32) : Bool := flags &&& Probe.L7PROBE_TRACING_DNS ≠ 0

open Gopher.Lib Gopher.Probe

variable {flags : UInt32} {proto : ProtoType} {buf : Buf} {count : ℕ}

-- What the tests of the flags let through.
def Enabled (flags : UInt32) (proto : ProtoType) : Prop :=
  (∃ test ∈ tests, test.proto = proto ∧ flags &&& test.enable ≠ 0) ∨
    proto = .dns ∧ isTracingUdp flags

-- No message is taken for one of HMSG.
theorem natsHmsg_eq_unknow (buf : Buf) (count : ℕ) : natsHmsg buf count = .unknow := by
  have hupper : buf.starts "HMS".toList = true → buf 2 = 'S'.toUInt8 := by
    intro h
    change (buf 0 == 'H'.toUInt8 && (buf 1 == 'M'.toUInt8 && (buf 2 == 'S'.toUInt8 && true))) = true
      at h
    simp only [Bool.and_true, Bool.and_eq_true, beq_iff_eq] at h
    exact h.2.2
  have hlower : buf.starts "hms".toList = true → buf 2 = 's'.toUInt8 := by
    intro h
    change (buf 0 == 'h'.toUInt8 && (buf 1 == 'm'.toUInt8 && (buf 2 == 's'.toUInt8 && true))) = true
      at h
    simp only [Bool.and_true, Bool.and_eq_true, beq_iff_eq] at h
    exact h.2.2
  unfold natsHmsg
  split_ifs with hcount hfirst hsecond
  · exact absurd ((hupper hfirst.1).symm.trans hfirst.2) (by decide)
  · exact absurd ((hlower hsecond.1).symm.trans hsecond.2) (by decide)
  · rfl
  · rfl

theorem Test.apply_eq_some {test : Test} {type : MessageType} :
    test.apply buf count flags = some (proto, type) ↔
      flags &&& test.enable ≠ 0 ∧ test.proto = proto ∧ test.getType buf count = type ∧
        type ≠ .unknow := by
  simp only [Test.apply]
  split_ifs with hflag htype
  · simp only [Option.some.injEq, Prod.mk.injEq]
    constructor
    · rintro ⟨hproto, rfl⟩
      exact ⟨hflag, hproto, rfl, htype⟩
    · rintro ⟨-, hproto, rfl, -⟩
      exact ⟨hproto, rfl⟩
  · simp only [false_iff, not_and]
    rintro - - rfl
    exact htype
  · simp [hflag]

theorem enabled_of_inferred {type : MessageType}
    (h : getL7Protocol buf count flags = some (proto, type)) : Enabled flags proto := by
  unfold getL7Protocol at h
  split_ifs at h
  obtain ⟨test, hmem, happly⟩ := List.exists_of_findSome?_eq_some h
  obtain ⟨hflag, hproto, -, -⟩ := Test.apply_eq_some.mp happly
  exact .inl ⟨test, hmem, hproto, hflag⟩

-- A message that the earlier tests do not know.
theorem inferred_of_first (before : List Test) {after : List Test} {test : Test}
    (htests : tests = before ++ test :: after) (hcount : count < L7_DATA_BUFFER_MAXSIZE)
    (hbefore : ∀ other ∈ before, other.getType buf count = .unknow)
    (htype : test.getType buf count ≠ .unknow) (hflag : flags &&& test.enable ≠ 0) :
    getL7Protocol buf count flags = some (test.proto, test.getType buf count) := by
  have hnone : before.findSome? (fun other => other.apply buf count flags) = none := by
    rw [List.findSome?_eq_none_iff]
    intro other hother
    simp [Test.apply, hbefore other hother]
  have hself : test.apply buf count flags = some (test.proto, test.getType buf count) :=
    Test.apply_eq_some.mpr ⟨hflag, rfl, rfl, htype⟩
  rw [getL7Protocol, if_neg (by omega), htests, List.findSome?_append, hnone, Option.none_or,
    List.findSome?_cons, hself]

def ofBytes (bytes : List UInt8) : Buf := fun i => bytes.getD i 0

-- Each protocol with a test has a message that no earlier test knows.
theorem exists_inferred {test : Test} (hmem : test ∈ tests) (hflag : flags &&& test.enable ≠ 0) :
    ∃ buf count type, getL7Protocol buf count flags = some (test.proto, type) := by
  simp only [tests, List.mem_cons, List.not_mem_nil, or_false] at hmem
  rcases hmem with rfl | rfl | rfl | rfl | rfl | rfl
  · exact ⟨ofBytes [71, 69, 84], 16, _, inferred_of_first [] rfl (by decide)
      (by decide) (by decide) hflag⟩
  · exact ⟨ofBytes [], 12, _, inferred_of_first (tests.take 1) rfl (by decide)
      (by decide) (by decide) hflag⟩
  · exact ⟨ofBytes [43], 6, _, inferred_of_first (tests.take 2) rfl (by decide)
      (by decide) (by decide) hflag⟩
  · exact ⟨ofBytes [80, 85, 66], 3, _, inferred_of_first (tests.take 3) rfl (by decide)
      (by decide) (by decide) hflag⟩
  · exact ⟨ofBytes [4, 0, 0, 0, 7], 9, _, inferred_of_first (tests.take 4) rfl (by decide)
      (by decide) (by decide) hflag⟩
  · exact ⟨ofBytes [0, 0, 0, 0x70, 0, 0, 0, 0, 0, 0, 0, 0, 0xDD, 0x07], 16, _,
      inferred_of_first (tests.take 5) rfl (by decide) (by decide) (by decide) hflag⟩

-- A protocol is enabled when some message is taken for one of it, or UDP is looked at.
theorem enabled_iff_inferred : Enabled flags proto ↔
    (∃ buf count type, getL7Protocol buf count flags = some (proto, type)) ∨
      proto = .dns ∧ isTracingUdp flags := by
  constructor
  · rintro (⟨test, hmem, rfl, hflag⟩ | hudp)
    · exact .inl (exists_inferred hmem hflag)
    · exact .inr hudp
  · rintro (⟨buf, count, type, h⟩ | hudp)
    · exact enabled_of_inferred h
    · exact .inr hudp

def protoNames : List (Text × ProtoType) :=
  [("http".toList, .http), ("dns".toList, .dns), ("redis".toList, .redis), ("mysql".toList, .mysql),
    ("pgsql".toList, .pgsql), ("kafka".toList, .kafka), ("mongo".toList, .mongo)]

def namedProto (name : Text) : Option ProtoType :=
  (protoNames.find? fun entry => sameIgnoringCase entry.1 name).map Prod.snd

def Named (item : Json) (proto : ProtoType) : Prop :=
  ∃ child ∈ item.children, ∃ name, child.valuestring = some name ∧ namedProto name = some proto

def flagsOf (flags : UInt32) (names : List Text) : UInt32 :=
  names.foldl (fun flags name => flags ||| getParamsFlags paramL7proFlags name) flags

theorem parserL7pro_ok {key : ParamKey} {item : Json} {params after : ProbeParams}
    (h : parserL7pro key item params = (after, .ok)) :
    ∃ names, item.children.map Json.valuestring = names.map some ∧
      (∀ name ∈ names, getParamsFlags paramL7proFlags name ≠ 0) ∧
      after.l7ProbeProtoFlags = flagsOf params.l7ProbeProtoFlags names := by
  unfold parserL7pro parserFlags at h
  generalize item.children = children at h ⊢
  induction children generalizing params with
  | nil =>
      obtain ⟨rfl, -⟩ := Prod.mk.inj h
      exact ⟨[], rfl, by simp, rfl⟩
  | cons child children ih =>
      rw [parserFlagItems] at h
      cases hname : child.valuestring with
      | none => simp [hname] at h
      | some name =>
          simp only [hname] at h
          split_ifs at h with hflags
          · simp [valueError] at h
          · obtain ⟨names, hnames, hknown, hafter⟩ := ih h
            refine ⟨name :: names, ?_, List.forall_mem_cons.mpr ⟨hflags, hknown⟩, hafter⟩
            rw [List.map_cons, List.map_cons, hname, hnames]

theorem or_and_distrib (flags others mask : UInt32) :
    (flags ||| others) &&& mask = flags &&& mask ||| others &&& mask :=
  UInt32.toBitVec_inj.mp BitVec.and_or_distrib_right

theorem flagsOf_and_ne_zero (flags mask : UInt32) (names : List Text) :
    flagsOf flags names &&& mask ≠ 0 ↔ flags &&& mask ≠ 0 ∨
      ∃ name ∈ names, getParamsFlags paramL7proFlags name &&& mask ≠ 0 := by
  induction names generalizing flags with
  | nil => simp [flagsOf]
  | cons name names ih =>
      change flagsOf (flags ||| getParamsFlags paramL7proFlags name) names &&& mask ≠ 0 ↔ _
      rw [ih, or_and_distrib, ne_eq, UInt32.or_eq_zero_iff, List.exists_mem_cons_iff]
      tauto

-- The flag and the protocol of a name. The flags but the first two share bits.
theorem name_cases {name : Text} (h : getParamsFlags paramL7proFlags name ≠ 0) :
    (sameIgnoringCase "http".toList name ∧ getParamsFlags paramL7proFlags name = 0x01 ∧
      namedProto name = some .http) ∨
    (sameIgnoringCase "dns".toList name ∧ getParamsFlags paramL7proFlags name = 0x02 ∧
      namedProto name = some .dns) ∨
    (¬sameIgnoringCase "http".toList name ∧ ¬sameIgnoringCase "dns".toList name ∧
      (getParamsFlags paramL7proFlags name, namedProto name) ∈
        ([(0x04, some .redis), (0x08, some .mysql), (0x10, some .pgsql), (0x12, some .kafka),
          (0x14, some .mongo)] : List (UInt32 × Option ProtoType))) := by
  unfold getParamsFlags namedProto paramL7proFlags protoNames at *
  simp only [List.find?_cons, List.find?_nil] at h ⊢
  -- All that matters of the name is which of the names of the table it agrees with.
  generalize sameIgnoringCase "http".toList name = http at h ⊢
  generalize sameIgnoringCase "dns".toList name = dns at h ⊢
  generalize sameIgnoringCase "redis".toList name = redis at h ⊢
  generalize sameIgnoringCase "mysql".toList name = mysql at h ⊢
  generalize sameIgnoringCase "pgsql".toList name = pgsql at h ⊢
  generalize sameIgnoringCase "kafka".toList name = kafka at h ⊢
  generalize sameIgnoringCase "mongo".toList name = mongo at h ⊢
  revert http dns redis mysql pgsql kafka mongo
  decide

theorem enabled_flagsOf (flags : UInt32) (names : List Text) (proto : ProtoType) :
    Enabled (flagsOf flags names) proto ↔ Enabled flags proto ∨
      ∃ name ∈ names, Enabled (getParamsFlags paramL7proFlags name) proto := by
  simp only [Enabled, isTracingUdp, flagsOf_and_ne_zero, decide_eq_true_eq]
  constructor
  · rintro (⟨test, htest, hproto, hflag | ⟨name, hname, hflag⟩⟩ |
      ⟨hproto, hflag | ⟨name, hname, hflag⟩⟩)
    · exact .inl (.inl ⟨test, htest, hproto, hflag⟩)
    · exact .inr ⟨name, hname, .inl ⟨test, htest, hproto, hflag⟩⟩
    · exact .inl (.inr ⟨hproto, hflag⟩)
    · exact .inr ⟨name, hname, .inr ⟨hproto, hflag⟩⟩
  · rintro ((⟨test, htest, hproto, hflag⟩ | ⟨hproto, hflag⟩) |
      ⟨name, hname, ⟨test, htest, hproto, hflag⟩ | ⟨hproto, hflag⟩⟩)
    · exact .inl ⟨test, htest, hproto, .inl hflag⟩
    · exact .inr ⟨hproto, .inl hflag⟩
    · exact .inl ⟨test, htest, hproto, .inr ⟨name, hname, hflag⟩⟩
    · exact .inr ⟨hproto, .inr ⟨name, hname, hflag⟩⟩

instance (flags : UInt32) (proto : ProtoType) : Decidable (Enabled flags proto) :=
  inferInstanceAs (Decidable (_ ∨ _))

-- The flags of http and dns enable their protocols alone.
theorem enabled_http_iff (proto : ProtoType) : Enabled 0x01 proto ↔ proto = .http := by
  cases proto <;> decide

theorem enabled_dns_iff (proto : ProtoType) : Enabled 0x02 proto ↔ proto = .dns := by
  cases proto <;> decide

-- Every other flag enables a protocol of another name or of none.
theorem enabled_other {flag : UInt32} {named : Option ProtoType}
    (h : (flag, named) ∈ ([(0x04, some .redis), (0x08, some .mysql), (0x10, some .pgsql),
      (0x12, some .kafka), (0x14, some .mongo)] : List (UInt32 × Option ProtoType))) :
    Enabled flag .cql ∨ named = some .redis ∧ Enabled flag .mongo := by
  simp only [List.mem_cons, Prod.mk.injEq, List.not_mem_nil, or_false] at h
  rcases h with ⟨rfl, rfl⟩ | ⟨rfl, rfl⟩ | ⟨rfl, rfl⟩ | ⟨rfl, rfl⟩ | ⟨rfl, rfl⟩ <;> decide

section Names

variable {item : Json} {names : List Text} {name : Text}

theorem mem_names_iff (hnames : item.children.map Json.valuestring = names.map some) :
    name ∈ names ↔ ∃ child ∈ item.children, child.valuestring = some name := by
  have hiff : some name ∈ item.children.map Json.valuestring ↔ name ∈ names := by
    rw [hnames]
    simp
  rw [← hiff, List.mem_map]

theorem named_iff (hnames : item.children.map Json.valuestring = names.map some)
    (proto : ProtoType) : Named item proto ↔ ∃ name ∈ names, namedProto name = some proto := by
  simp only [Named, mem_names_iff hnames]
  constructor
  · rintro ⟨child, hchild, name, hname, hproto⟩
    exact ⟨name, ⟨child, hchild, hname⟩, hproto⟩
  · rintro ⟨name, ⟨child, hchild, hname⟩, hproto⟩
    exact ⟨child, hchild, name, hname, hproto⟩

-- No name stands for CQL.
theorem namedProto_ne_cql (hknown : getParamsFlags paramL7proFlags name ≠ 0) :
    namedProto name ≠ some .cql := by
  intro hproto
  rcases name_cases hknown with ⟨-, -, heq⟩ | ⟨-, -, heq⟩ | ⟨-, -, heq⟩
  · rw [heq] at hproto
    cases hproto
  · rw [heq] at hproto
    cases hproto
  · rw [hproto] at heq
    simp at heq

theorem enabled_iff_namedProto (hknown : getParamsFlags paramL7proFlags name ≠ 0)
    (honly : sameIgnoringCase "http".toList name ∨ sameIgnoringCase "dns".toList name)
    (proto : ProtoType) :
    Enabled (getParamsFlags paramL7proFlags name) proto ↔ namedProto name = some proto := by
  rcases name_cases hknown with ⟨-, hflag, heq⟩ | ⟨-, hflag, heq⟩ | ⟨hhttp, hdns, -⟩
  · rw [hflag, heq, enabled_http_iff, Option.some.injEq]
    exact eq_comm
  · rw [hflag, heq, enabled_dns_iff, Option.some.injEq]
    exact eq_comm
  · exact absurd honly (not_or.mpr ⟨hhttp, hdns⟩)

-- Any other name enables CQL, or MONGO, which has to be named then, and enables CQL.
theorem http_or_dns_of_enabled (hknown : ∀ name ∈ names, getParamsFlags paramL7proFlags name ≠ 0)
    (hagree : ∀ name ∈ names, ∀ proto, Enabled (getParamsFlags paramL7proFlags name) proto →
      ∃ other ∈ names, namedProto other = some proto) (hname : name ∈ names) :
    sameIgnoringCase "http".toList name ∨ sameIgnoringCase "dns".toList name := by
  have hcql (name : Text) (hname : name ∈ names) :
      ¬Enabled (getParamsFlags paramL7proFlags name) .cql := by
    intro henabled
    obtain ⟨other, hother, hproto⟩ := hagree name hname .cql henabled
    exact namedProto_ne_cql (hknown other hother) hproto
  rcases name_cases (hknown name hname) with ⟨hhttp, -⟩ | ⟨hdns, -⟩ | ⟨-, -, hflag⟩
  · exact .inl hhttp
  · exact .inr hdns
  · rcases enabled_other hflag with henabled | ⟨-, hmongo⟩
    · exact absurd henabled (hcql name hname)
    · obtain ⟨other, hother, hproto⟩ := hagree name hname .mongo hmongo
      rcases name_cases (hknown other hother) with ⟨-, -, heq⟩ | ⟨-, -, heq⟩ | ⟨-, -, heq⟩
      · rw [heq] at hproto
        cases hproto
      · rw [heq] at hproto
        cases hproto
      · rcases enabled_other heq with henabled | ⟨hredis, -⟩
        · exact absurd henabled (hcql other hother)
        · rw [hredis] at hproto
          cases hproto

end Names

-- The protocols that are enabled after a list of names was accepted are the named ones
-- exactly if only http and dns are named, and nothing else was enabled before.
theorem parserL7pro_enables_named_iff (key : ParamKey) (item : Json) (params after : ProbeParams)
    (h : parserL7pro key item params = (after, .ok)) :
    (∀ proto, Enabled after.l7ProbeProtoFlags proto ↔ Named item proto) ↔
      (∀ child ∈ item.children, ∀ name, child.valuestring = some name →
        sameIgnoringCase "http".toList name ∨ sameIgnoringCase "dns".toList name) ∧
      ∀ proto, Enabled params.l7ProbeProtoFlags proto → Named item proto := by
  obtain ⟨names, hnames, hknown, hafter⟩ := parserL7pro_ok h
  rw [hafter]
  simp only [enabled_flagsOf, named_iff hnames]
  constructor
  · intro hagree
    refine ⟨fun child hchild name hname => ?_, fun proto hbefore => (hagree proto).mp (.inl hbefore)⟩
    apply http_or_dns_of_enabled hknown
    · intro other hother proto henabled
      exact (hagree proto).mp (.inr ⟨other, hother, henabled⟩)
    · exact (mem_names_iff hnames).mpr ⟨child, hchild, hname⟩
  · rintro ⟨honly, hbefore⟩ proto
    have hsame (name : Text) (hname : name ∈ names) :
        Enabled (getParamsFlags paramL7proFlags name) proto ↔ namedProto name = some proto := by
      obtain ⟨child, hchild, hvalue⟩ := (mem_names_iff hnames).mp hname
      exact enabled_iff_namedProto (hknown name hname) (honly child hchild name hvalue) proto
    constructor
    · rintro (henabled | ⟨name, hname, henabled⟩)
      · exact hbefore proto henabled
      · exact ⟨name, hname, (hsame name hname).mp henabled⟩
    · rintro ⟨name, hname, heq⟩
      exact .inr ⟨name, hname, (hsame name hname).mpr heq⟩

def namesItem (names : List String) : Json := .array (names.map fun name => .string name.toList)

def l7proKey : ParamKey := ⟨"l7_protocol".toList, 0, 0, 0, "http".toList⟩

-- A probe starts without any protocol.
theorem not_enabled_default (proto : ProtoType) :
    ¬Enabled setDefaultParams.l7ProbeProtoFlags proto := by
  change ¬Enabled 0 proto
  cases proto <;> decide

theorem parserL7pro_enables_named_http_dns :
    (parserL7pro l7proKey (namesItem ["dns", "HTTP", "Dns"]) setDefaultParams).2 = .ok ∧
    ∀ proto, Enabled (parserL7pro l7proKey (namesItem ["dns", "HTTP", "Dns"])
      setDefaultParams).1.l7ProbeProtoFlags proto ↔
        Named (namesItem ["dns", "HTTP", "Dns"]) proto := by
  refine ⟨rfl, (parserL7pro_enables_named_iff l7proKey (namesItem ["dns", "HTTP", "Dns"])
    setDefaultParams _ rfl).mpr ⟨fun child hchild name hname => ?_, fun proto hbefore =>
      absurd hbefore (not_enabled_default proto)⟩⟩
  simp only [namesItem, Json.children, List.map_cons, List.map_nil, List.mem_cons,
    List.not_mem_nil, or_false] at hchild
  rcases hchild with rfl | rfl | rfl <;> obtain rfl := Option.some.inj hname <;> decide

-- With redis alone, MONGO is enabled as well.
theorem parserL7pro_redis_enables_mongo :
    (parserL7pro l7proKey (namesItem ["redis"]) setDefaultParams).2 = .ok ∧
      Enabled (parserL7pro l7proKey (namesItem ["redis"]) setDefaultParams).1.l7ProbeProtoFlags
        .mongo ∧
      ¬Named (namesItem ["redis"]) .mongo := by
  refine ⟨rfl, by decide, ?_⟩
  rintro ⟨child, hchild, name, hname, hproto⟩
  obtain rfl := List.mem_singleton.mp hchild
  obtain rfl := Option.some.inj hname
  exact absurd hproto (by decide)

end Gopher.L7.Inference
