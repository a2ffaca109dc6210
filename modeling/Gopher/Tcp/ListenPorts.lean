import Gopher.Lib.Lines
import Gopher.Tcp.Format
import Mathlib.Data.List.Dedup

namespace Gopher.Tcp

open Gopher.Lib

def LTP_MAX_NUM : ℕ := 1024
def PORT_MAX_NUM : ℕ := 65536

def pidMark : Text := ['p', 'i', 'd', '=']
def commaFdMark : Text := [',', 'f', 'd', '=']
def usersMark : Text := ['u', 's', 'e', 'r', 's', ':']

def getListenPort (s : Text) : Option UInt32 := do
  let portStr ← if (strstr [']', ':'] s).isSome then digitsBetween s [']', ':'] usersMark PORT_LEN
    else digitsBetween s [':'] usersMark PORT_LEN
  let portNum := atoi portStr
  if PORT_MAX_NUM ≤ portNum.toNat then none else some portNum

def getListenComm (s : Text) : Option Text :=
  getSubStr s (some ['(', '(', '"']) (some ['"', ',', 'p', 'i', 'd']) TASK_COMM_LEN

def getListenPid (s : Text) : Option UInt32 :=
  (digitsBetween s pidMark commaFdMark PID_LEN).map atoi

def getListenFd (s : Text) : Option Int32 :=
  (digitsBetween s ['f', 'd', '='] [')', ')'] FID_LEN).map fun fdStr => (atoi fdStr).toInt32

structure TcpListenPort where
  pid : UInt32
  port : UInt32
  fd : Int32
  comm : Text

def newTlp (s : Text) : Option TcpListenPort := do
  let port ← getListenPort s
  let comm ← getListenComm s
  let pid ← getListenPid s
  let fd ← getListenFd s
  return ⟨pid, port, fd, comm⟩

-- The first `tlp_num` slots of the array.
structure TcpListenPorts where
  tlp : List TcpListenPort
  tlpHash : ℕ → UInt32

def newTlps : TcpListenPorts := ⟨[], fun _ => 0⟩

def addTlp (tlps : TcpListenPorts) (tlp : TcpListenPort) : TcpListenPorts × ℤ :=
  if tlps.tlpHash tlp.port.toNat = 1 then (tlps, -1)
  else if LTP_MAX_NUM ≤ tlps.tlp.length then (tlps, -1)
  else (⟨tlps.tlp ++ [tlp], fun port => if port = tlp.port.toNat then 1 else tlps.tlpHash port⟩, 0)

def readTlp (tlps : TcpListenPorts) (line : Text) : TcpListenPorts :=
  match newTlp line with
  | none => tlps
  | some tlp => (addTlp tlps tlp).1

-- `__get_tlps` over what the command prints.
def getTlps (output : Text) : TcpListenPorts :=
  (fgetsAll LINE_BUF_LEN output).foldl readTlp newTlps

def isListenPort (port : UInt32) (tlps : TcpListenPorts) : Bool :=
  if PORT_MAX_NUM ≤ port.toNat then false else tlps.tlpHash port.toNat ≠ 0

-- A line of `ss -anptl`, with one users entry or more.
structure ListenLine where
  address : Address
  first : UsersEntry
  others : List UsersEntry

def ListenLine.text (line : ListenLine) : Text :=
  line.address.text ++ usersText (line.first :: line.others)

def ListenLine.port (line : ListenLine) : UInt32 := line.address.port.toUInt32

-- What `fgets` reads of the line first.
def ListenLine.piece (line : ListenLine) : Text :=
  (line.text ++ ['\n']).take (LINE_BUF_LEN - 1)

-- What the searches need of the name of the first entry, and of the line as far as it is read.
structure ListenLine.Readable (line : ListenLine) : Prop where
  bracket : line.address.ipv6 = false → ¬[']', ':'] <:+: line.piece
  comm_ne_nil : line.first.comm ≠ []
  comm_length : line.first.comm.length < TASK_COMM_LEN
  comm_start : ¬[',', 'p', 'i', 'd'] <+: line.first.comm
  pid : (¬pidMark <:+: line.first.comm ∧ ¬commaFdMark <:+: line.first.comm) ∨
    (digitsBetween line.first.comm pidMark commaFdMark PID_LEN).isSome
  fd : (line.others = [] ∧ ¬['f', 'd', '='] <:+: line.first.comm ∧
      ¬[')', ')'] <:+: line.first.comm) ∨
    (digitsBetween line.first.comm ['f', 'd', '='] [')', ')'] FID_LEN).isSome

section Lines

-- What follows the numbers of the first entry.
def ListenLine.tail (line : ListenLine) : Text :=
  line.others.flatMap (fun entry => ',' :: entry.text) ++ [')']

theorem intercalate_text (first : UsersEntry) (others : List UsersEntry) :
    [','].intercalate ((first :: others).map UsersEntry.text) =
      first.text ++ others.flatMap fun entry => ',' :: entry.text := by
  induction others generalizing first with
  | nil => simp
  | cons other others ih =>
      rw [List.map_cons, List.intercalate_cons_of_ne_nil (by simp), ih, List.flatMap_cons]
      simp

def ListenLine.front (line : ListenLine) : Text :=
  line.address.text ++ (usersMark ++ ['(', '('])

theorem ListenLine.text_eq (line : ListenLine) : line.text = line.front ++ '"' ::
    (line.first.comm ++ '"' :: numbersText (decimalText line.first.pid.toNat)
      (decimalText line.first.fd.toNat) line.tail) := by
  rw [ListenLine.text, usersText, if_neg (List.cons_ne_nil _ _), intercalate_text, ListenLine.front,
    ← UsersEntry.numbers_append]
  simp [UsersEntry.text, ListenLine.tail, usersMark]

-- The line with something else behind the numbers of the first entry.
def ListenLine.upTo (line : ListenLine) (rest : Text) : Text :=
  line.front ++ '"' :: (line.first.comm ++ '"' :: numbersText (decimalText line.first.pid.toNat)
    (decimalText line.first.fd.toNat) rest)

variable (line : ListenLine) {char : Char} {rest : Text}

theorem ListenLine.notMem_front (hchar : isAddressChar line.address.ipv6 char = false)
    (hbracket : line.address.ipv6 = true → char ≠ '[' ∧ char ≠ ']')
    (hmark : char ∉ ':' :: (usersMark ++ ['(', '('])) (hdigit : char.isDigit = false) :
    char ∉ line.front := by
  rw [List.mem_cons, not_or] at hmark
  rw [ListenLine.front, List.mem_append, not_or]
  exact ⟨line.address.notMem_text hchar hbracket hmark.1 hdigit, hmark.2⟩

theorem ListenLine.quote_notMem_front : '"' ∉ line.front :=
  line.notMem_front (by cases line.address.ipv6 <;> decide) (fun _ => by decide) (by decide)
    (by decide)

theorem behind_users : behind ['(', '(', '"'] (line.front ++ '"' :: rest) = some rest := by
  have hskip : '(' ∉ line.address.text ++ usersMark := by
    rw [List.mem_append, not_or]
    exact ⟨line.address.notMem_text (by cases line.address.ipv6 <;> decide) (fun _ => by decide)
      (by decide) (by decide), by decide⟩
  have hsplit : line.front ++ '"' :: rest =
      (line.address.text ++ usersMark) ++ (['(', '(', '"'] ++ rest) := by
    simp [ListenLine.front]
  rw [hsplit, behind_skip hskip, behind_mark]

theorem strstr_comma_upTo (hstart : ¬[',', 'p', 'i', 'd'] <+: line.first.comm) :
    strstr ['"', ',', 'p', 'i', 'd'] (line.upTo rest) =
      some ('"' :: numbersText (decimalText line.first.pid.toNat)
        (decimalText line.first.fd.toNat) rest) := by
  have hopen : ['"', ',', 'p', 'i', 'd'].isPrefixOf ('"' :: (line.first.comm ++ '"' ::
      numbersText (decimalText line.first.pid.toNat) (decimalText line.first.fd.toNat) rest)) =
      false := by
    rw [Bool.eq_false_iff, ne_eq, List.isPrefixOf_iff_prefix, List.cons_prefix_cons,
      prefix_append_cons_iff (by decide)]
    exact fun h => hstart h.2
  rw [ListenLine.upTo, strstr_skip line.quote_notMem_front, strstr, hopen,
    if_neg Bool.false_ne_true, strstr_skip line.first.noQuote]
  exact @strstr_mark ['"', ',', 'p', 'i', 'd'] _

theorem getListenComm_upTo (hne : line.first.comm ≠ [])
    (hlength : line.first.comm.length < TASK_COMM_LEN)
    (hstart : ¬[',', 'p', 'i', 'd'] <+: line.first.comm) :
    getListenComm (line.upTo rest) = some line.first.comm :=
  getSubStr_of_behind (strstr_comma_upTo line hstart) (behind_users line) hne hlength

-- A name that is empty, or that looks like what ends it, is not read.
theorem getListenComm_upTo_eq_none
    (h : line.first.comm = [] ∨ [',', 'p', 'i', 'd'] <+: line.first.comm) :
    getListenComm (line.upTo rest) = none := by
  by_cases hstart : [',', 'p', 'i', 'd'] <+: line.first.comm
  · obtain ⟨after, hafter⟩ := hstart
    have hfound : strstr ['"', ',', 'p', 'i', 'd'] (line.upTo rest) =
        some ('"' :: (line.first.comm ++ '"' :: numbersText (decimalText line.first.pid.toNat)
          (decimalText line.first.fd.toNat) rest)) := by
      rw [ListenLine.upTo, strstr_skip line.quote_notMem_front, ← hafter]
      exact @strstr_mark ['"', ',', 'p', 'i', 'd'] _
    exact getSubStr_of_le hfound (behind_users line) (Nat.le_succ _)
  · have hempty := h.resolve_right hstart
    refine getSubStr_of_le (strstr_comma_upTo line hstart) (behind_users line) ?_
    rw [hempty, List.nil_append]

-- Nor is one that is too long, wherever the line is cut.
theorem getListenComm_eq_none_of_long {text : Text}
    (htext : text.take TASK_COMM_LEN = line.first.comm.take TASK_COMM_LEN)
    (hlong : TASK_COMM_LEN ≤ line.first.comm.length) :
    getListenComm (line.front ++ '"' :: text) = none := by
  have hlength := congrArg List.length htext
  rw [List.length_take, List.length_take] at hlength
  rw [getListenComm]
  cases hfin : strstr ['"', ',', 'p', 'i', 'd'] (line.front ++ '"' :: text) with
  | none => exact getSubStr_of_strstr_eq_none hfin
  | some p2 =>
      rw [getSubStr_eq hfin (behind_users line), if_pos]
      rw [strstr_skip line.quote_notMem_front, strstr] at hfin
      split at hfin
      · cases hfin
        exact .inl (Nat.le_succ _)
      · -- The quote that is found stands behind the part of the name that counts.
        have hskip : '"' ∉ text.take TASK_COMM_LEN := fun hmem =>
          line.first.noQuote (List.mem_of_mem_take (htext ▸ hmem))
        rw [← List.take_append_drop TASK_COMM_LEN text, strstr_skip hskip] at hfin
        have hle := (strstr_suffix hfin).length_le
        rw [List.length_drop] at hle
        right
        omega

theorem ListenLine.port_toNat : line.port.toNat = line.address.port.toNat := rfl

theorem atoi_port : atoi (decimalText line.address.port.toNat) = line.port :=
  atoi_decimalText line.port

theorem strstr_users (text : Text) : strstr usersMark (line.front ++ text) =
    some (usersMark ++ (['(', '('] ++ text)) := by
  have hskip : 'u' ∉ line.address.text :=
    line.address.notMem_text (by cases line.address.ipv6 <;> decide) (fun _ => by decide)
      (by decide) (by decide)
  rw [ListenLine.front, List.append_assoc, List.append_assoc]
  exact (strstr_skip hskip _).trans (strstr_mark _)

theorem getListenPort_eq_some {text : Text}
    (h : line.address.ipv6 = false → ¬[']', ':'] <:+: line.front ++ text) :
    getListenPort (line.front ++ text) = some line.port := by
  have hbound := line.address.port.toNat_lt
  have hport : (decimalText line.address.port.toNat).length ≤ 5 :=
    length_decimalText_le (by decide) (by omega)
  have hdigits (mark : Text) (hmark : behind mark (line.front ++ text) =
      some (decimalText line.address.port.toNat ++ (usersMark ++ (['(', '('] ++ text)))) :
      digitsBetween (line.front ++ text) mark usersMark PORT_LEN =
        some (decimalText line.address.port.toNat) :=
    digitsBetween_eq_some (getSubStr_of_behind (strstr_users line text) hmark (decimalText_ne_nil _)
      (Nat.lt_of_le_of_lt hport (by decide))) (isDigitStr_decimalText _)
  have hport : ¬PORT_MAX_NUM ≤ line.port.toNat := by
    rw [line.port_toNat, PORT_MAX_NUM]
    omega
  cases hipv6 : line.address.ipv6 with
  | false =>
      have hskip : ':' ∉ line.address.ip := line.address.notMem_ip (by rw [hipv6]; decide)
      have hcolon : behind [':'] (line.front ++ text) =
          some (decimalText line.address.port.toNat ++ (usersMark ++ (['(', '('] ++ text))) := by
        have hsplit : line.front ++ text = line.address.ip ++ ([':'] ++
            (decimalText line.address.port.toNat ++ (usersMark ++ (['(', '('] ++ text)))) := by
          simp [ListenLine.front, Address.text, Address.host, hipv6]
        rw [hsplit, behind_skip hskip, behind_mark]
      have hnone := strstr_eq_none_iff.mpr (h hipv6)
      simp [getListenPort, hnone, hdigits _ hcolon, atoi_port, hport]
  | true =>
      have hskip : ']' ∉ '[' :: line.address.ip := by
        rw [List.mem_cons, not_or]
        exact ⟨by decide, line.address.notMem_ip (by rw [hipv6]; decide)⟩
      have hsplit : line.front ++ text = '[' :: line.address.ip ++ ([']', ':'] ++
          (decimalText line.address.port.toNat ++ (usersMark ++ (['(', '('] ++ text)))) := by
        simp [ListenLine.front, Address.text, Address.host, hipv6]
      have hbracket : behind [']', ':'] (line.front ++ text) =
          some (decimalText line.address.port.toNat ++ (usersMark ++ (['(', '('] ++ text))) := by
        rw [hsplit, behind_skip hskip, behind_mark]
      have hsome : (strstr [']', ':'] (line.front ++ text)).isSome = true := by
        rw [hsplit, strstr_skip hskip, strstr_mark]
        rfl
      simp [getListenPort, hsome, hdigits _ hbracket, atoi_port, hport]

-- In a line without brackets of its own they are looked for in the names, behind the port.
theorem getListenPort_eq_none {text : Text} (hipv6 : line.address.ipv6 = false)
    (h : [']', ':'] <:+: line.front ++ text) : getListenPort (line.front ++ text) = none := by
  have hskip : ']' ∉ line.front :=
    line.notMem_front (by rw [hipv6]; decide) (fun h => by rw [hipv6] at h; cases h) (by decide)
      (by decide)
  have hsome : (strstr [']', ':'] (line.front ++ text)).isSome = true := by
    rw [Option.isSome_iff_ne_none, ne_eq, strstr_eq_none_iff]
    exact fun hnot => hnot h
  have hdigits : digitsBetween (line.front ++ text) [']', ':'] usersMark PORT_LEN = none := by
    rw [digitsBetween]
    cases hbehind : behind [']', ':'] (line.front ++ text) with
    | none => rw [getSubStr_of_behind_eq_none hbehind]; rfl
    | some p1 =>
        have hlength := (behind_suffix ((behind_skip hskip text).symm.trans hbehind)).length_le
        rw [getSubStr_of_le (strstr_users line text) hbehind]
        · rfl
        · rw [List.length_append, List.length_append]
          omega
  simp [getListenPort, hsome, hdigits]

theorem isSome_digitsBetween_upTo {start fin : Text} (hstart : '"' ∉ start) (hfin : '"' ∉ fin)
    (hstartFront : ¬start <:+: line.front) (hfinFront : ¬fin <:+: line.front) (bufLen : ℕ) :
    (digitsBetween (line.upTo rest) start fin bufLen).isSome = true ↔
      ((¬start <:+: line.first.comm ∧ ¬fin <:+: line.first.comm) ∧
          (digitsBetween (line.first.numbers ++ rest) start fin bufLen).isSome = true) ∨
        (digitsBetween line.first.comm start fin bufLen).isSome = true := by
  have hne {mark : Text} (hmark : ¬mark <:+: line.front) : mark ≠ [] := by
    rintro rfl
    exact hmark List.nil_infix
  rw [ListenLine.upTo, digitsBetween_append_quote hstart hfin (hne hstartFront) (hne hfinFront),
    if_neg fun h => hstartFront h.1, if_neg (not_or.mpr ⟨hstartFront, hfinFront⟩),
    isSome_digitsBetween_append_quote hstart hfin (hne hstartFront) (hne hfinFront),
    UsersEntry.numbers_append]

theorem ListenLine.equals_notMem_front : '=' ∉ line.front :=
  line.notMem_front (by cases line.address.ipv6 <;> decide) (fun _ => by decide) (by decide)
    (by decide)

theorem isSome_getListenPid : (getListenPid (line.upTo rest)).isSome = true ↔
    (¬pidMark <:+: line.first.comm ∧ ¬commaFdMark <:+: line.first.comm) ∨
      (digitsBetween line.first.comm pidMark commaFdMark PID_LEN).isSome = true := by
  have hnumbers : (digitsBetween (line.first.numbers ++ rest) pidMark commaFdMark PID_LEN).isSome =
      true := by
    rw [pidMark, commaFdMark, digitsBetween_pid line.first rest _ (List.prefix_refl _)]
    rfl
  rw [getListenPid, Option.isSome_map, isSome_digitsBetween_upTo line (by decide) (by decide)
    (not_infix_of_notMem '=' (by decide) line.equals_notMem_front)
    (not_infix_of_notMem '=' (by decide) line.equals_notMem_front), and_iff_left hnumbers]

-- The second number ends the list only if there is one entry.
theorem isSome_digitsBetween_fd (hrest : rest.head? = some ')' ∨ rest.head? = some ',') :
    (digitsBetween (line.first.numbers ++ rest) ['f', 'd', '='] [')', ')'] FID_LEN).isSome = true ↔
      rest.head? = some ')' := by
  have hpid : ∀ char ∈ decimalText line.first.pid.toNat, char.isDigit = true :=
    fun char hchar => isDigit_of_mem_decimalText hchar
  have hfd : ∀ char ∈ decimalText line.first.fd.toNat, char.isDigit = true :=
    fun char hchar => isDigit_of_mem_decimalText hchar
  rw [UsersEntry.numbers_append]
  cases rest with
  | nil => simp at hrest
  | cons char rest =>
      have hclose := @strstr_close_numbersText _ _ (char :: rest) hpid hfd [')']
      rcases hrest with hchar | hchar <;> cases hchar
      · have hfound := hclose.trans (@strstr_mark [')', ')'] rest)
        have hdigits : digitsBetween (numbersText (decimalText line.first.pid.toNat)
            (decimalText line.first.fd.toNat) (')' :: rest)) ['f', 'd', '='] [')', ')'] FID_LEN =
            some (decimalText line.first.fd.toNat) :=
          digitsBetween_eq_some (getSubStr_of_behind hfound (behind_fd_numbersText hpid)
            (decimalText_ne_nil _) (decimalText_u32_lt _)) (isDigitStr_decimalText _)
        rw [hdigits]
        exact iff_of_true rfl rfl
      · have hnone : digitsBetween (numbersText (decimalText line.first.pid.toNat)
            (decimalText line.first.fd.toNat) (',' :: rest)) ['f', 'd', '='] [')', ')'] FID_LEN =
            none := by
          refine digitsBetween_eq_none ')' (by decide) fun piece hpiece => ?_
          have hfirst : [')', ')'].isPrefixOf (')' :: ',' :: rest) = false := rfl
          rw [strstr, hfirst, if_neg Bool.false_ne_true] at hclose
          cases hfin : strstr [')', ')'] (',' :: rest) with
          | none =>
              rw [getSubStr_of_strstr_eq_none (hclose.trans hfin)] at hpiece
              cases hpiece
          | some p2 =>
              have hle := (strstr_suffix hfin).length_le
              rw [List.length_cons] at hle
              rw [getSubStr_eq (hclose.trans hfin) (behind_fd_numbersText hpid)] at hpiece
              split at hpiece
              · cases hpiece
              · cases hpiece
                have hlength : (decimalText line.first.fd.toNat ++ ')' :: ',' :: rest).length -
                    p2.length = (decimalText line.first.fd.toNat).length +
                      (rest.length + 1 - p2.length + 1) := by
                  rw [List.length_append, List.length_cons, List.length_cons]
                  omega
                rw [hlength, List.take_length_add_append, List.take_succ_cons]
                exact List.mem_append_right _ List.mem_cons_self
        rw [hnone]
        exact iff_of_false Bool.false_ne_true (by simp)

theorem isSome_getListenFd (hrest : rest.head? = if line.others = [] then some ')' else some ',') :
    (getListenFd (line.upTo rest)).isSome = true ↔
      (line.others = [] ∧ ¬['f', 'd', '='] <:+: line.first.comm ∧
          ¬[')', ')'] <:+: line.first.comm) ∨
        (digitsBetween line.first.comm ['f', 'd', '='] [')', ')'] FID_LEN).isSome = true := by
  have hclose : ')' ∉ line.front :=
    line.notMem_front (by cases line.address.ipv6 <;> decide) (fun _ => by decide) (by decide)
      (by decide)
  have hsingle : rest.head? = some ')' ↔ line.others = [] := by
    rw [hrest]
    split <;> simp_all
  rw [getListenFd, Option.isSome_map, isSome_digitsBetween_upTo line (by decide) (by decide)
    (not_infix_of_notMem '=' (by decide) line.equals_notMem_front)
    (not_infix_of_notMem ')' (by decide) hclose), isSome_digitsBetween_fd, hsingle]
  · exact or_congr_left and_comm
  · rw [hrest]
    split
    · exact .inl rfl
    · exact .inr rfl

theorem port_of_newTlp {s : Text} {tlp : TcpListenPort} (h : newTlp s = some tlp) :
    getListenPort s = some tlp.port := by
  rw [newTlp] at h
  cases hport : getListenPort s with
  | none => simp [hport] at h
  | some port =>
      cases hcomm : getListenComm s with
      | none => simp [hport, hcomm] at h
      | some comm =>
          cases hpid : getListenPid s with
          | none => simp [hport, hcomm, hpid] at h
          | some pid =>
              cases hfd : getListenFd s with
              | none => simp [hport, hcomm, hpid, hfd] at h
              | some fd =>
                  simp only [hport, hcomm, hpid, hfd, Option.bind_eq_bind, Option.bind_some,
                    pure, Option.some_inj] at h
                  rw [← h]

theorem isSome_newTlp {s : Text} : (newTlp s).isSome = true ↔ (getListenPort s).isSome = true ∧
    (getListenComm s).isSome = true ∧ (getListenPid s).isSome = true ∧
      (getListenFd s).isSome = true := by
  rw [newTlp]
  cases getListenPort s <;> cases getListenComm s <;> cases getListenPid s <;>
    cases getListenFd s <;> simp

theorem newTlp_eq_none_of_comm {s : Text} (h : getListenComm s = none) : newTlp s = none := by
  have hnot : ¬(newTlp s).isSome = true := fun hsome => by
    have hcomm := (isSome_newTlp.mp hsome).2.1
    rw [h] at hcomm
    cases hcomm
  simpa using hnot

theorem ListenLine.length_front_lt : line.front.length < 64 := by
  have haddress := line.address.length_text_lt
  rw [INET6_ADDRSTRLEN] at haddress
  rw [ListenLine.front, List.length_append, usersMark]
  simp only [List.cons_append, List.nil_append, List.length_cons, List.length_nil]
  omega

theorem ListenLine.upTo_eq_append (rest : Text) : line.upTo rest = line.upTo [] ++ rest := by
  simp [ListenLine.upTo, numbersText]

theorem ListenLine.length_upTo_lt (hlength : line.first.comm.length < TASK_COMM_LEN) :
    (line.upTo []).length < 128 := by
  have hfront := line.length_front_lt
  have hpid := line.first.pid.toNat_lt
  have hfd := line.first.fd.toNat_lt
  have hpidLength : (decimalText line.first.pid.toNat).length ≤ 10 :=
    length_decimalText_le (by decide) (by omega)
  have hfdLength : (decimalText line.first.fd.toNat).length ≤ 10 :=
    length_decimalText_le (by decide) (by omega)
  rw [TASK_COMM_LEN] at hlength
  simp only [ListenLine.upTo, numbersText, List.length_append, List.length_cons, List.length_nil]
  omega

-- What is read of a line whose name is not too long reaches behind the first entry.
theorem ListenLine.exists_piece_eq (hlength : line.first.comm.length < TASK_COMM_LEN) :
    ∃ rest, line.piece = line.upTo rest ∧
      rest.head? = if line.others = [] then some ')' else some ',' := by
  have hlt := line.length_upTo_lt hlength
  have htext : line.text ++ ['\n'] = line.upTo [] ++ (line.tail ++ ['\n']) := by
    rw [line.text_eq, ← ListenLine.upTo, line.upTo_eq_append, List.append_assoc]
  obtain ⟨room, hroom⟩ := Nat.exists_eq_add_of_lt
    (show (line.upTo []).length < LINE_BUF_LEN - 1 by rw [LINE_BUF_LEN]; omega)
  refine ⟨(line.tail ++ ['\n']).take (room + 1), ?_, ?_⟩
  · rw [ListenLine.piece, htext, hroom, Nat.add_assoc, List.take_length_add_append,
      ← line.upTo_eq_append]
  · cases hothers : line.others with
    | nil => simp [ListenLine.tail, hothers]
    | cons other others => simp [ListenLine.tail, hothers]

theorem ListenLine.length_of_newTlp (h : (newTlp line.piece).isSome = true) :
    line.first.comm.length < TASK_COMM_LEN := by
  by_contra hlong
  have hfront := line.length_front_lt
  have hcut : ∃ room, LINE_BUF_LEN - 1 = line.front.length + 1 + (TASK_COMM_LEN + room) :=
    ⟨LINE_BUF_LEN - 1 - line.front.length - 1 - TASK_COMM_LEN, by
      rw [LINE_BUF_LEN, TASK_COMM_LEN]
      omega⟩
  obtain ⟨room, hroom⟩ := hcut
  have hpiece : line.piece = line.front ++ '"' :: ((line.first.comm ++ '"' ::
      (numbersText (decimalText line.first.pid.toNat) (decimalText line.first.fd.toNat) line.tail ++
        ['\n'])).take (TASK_COMM_LEN + room)) := by
    rw [ListenLine.piece, line.text_eq, hroom, List.append_assoc, Nat.add_assoc,
      List.take_length_add_append, Nat.add_comm 1, List.cons_append, List.take_succ_cons,
      List.append_assoc, List.cons_append]
  have hnone : getListenComm line.piece = none := by
    rw [hpiece]
    refine getListenComm_eq_none_of_long line ?_ (Nat.not_lt.mp hlong)
    rw [List.take_take, Nat.min_eq_left (Nat.le_add_right _ _),
      List.take_append_of_le_length (Nat.not_lt.mp hlong)]
  rw [newTlp_eq_none_of_comm hnone] at h
  cases h

theorem ListenLine.readable_iff : line.Readable ↔ (newTlp line.piece).isSome = true := by
  constructor
  · intro h
    obtain ⟨rest, hpiece, hrest⟩ := line.exists_piece_eq h.comm_length
    have hbracket := h.bracket
    rw [hpiece] at hbracket
    rw [isSome_newTlp, hpiece, getListenComm_upTo line h.comm_ne_nil h.comm_length h.comm_start,
      isSome_getListenPid, isSome_getListenFd line hrest]
    rw [ListenLine.upTo] at hbracket ⊢
    rw [getListenPort_eq_some line hbracket]
    exact ⟨rfl, rfl, h.pid, h.fd⟩
  · intro h
    have hlength := line.length_of_newTlp h
    obtain ⟨rest, hpiece, hrest⟩ := line.exists_piece_eq hlength
    rw [hpiece] at h
    obtain ⟨hport, hcomm, hpid, hfd⟩ := isSome_newTlp.mp h
    rw [isSome_getListenPid] at hpid
    rw [isSome_getListenFd line hrest] at hfd
    have hname : ¬(line.first.comm = [] ∨ [',', 'p', 'i', 'd'] <+: line.first.comm) := fun hbad => by
      rw [getListenComm_upTo_eq_none line hbad] at hcomm
      cases hcomm
    rw [not_or] at hname
    refine ⟨fun hipv6 hinside => ?_, hname.1, hlength, hname.2, hpid, hfd⟩
    rw [hpiece] at hinside
    rw [ListenLine.upTo] at hinside hport
    rw [getListenPort_eq_none line hipv6 hinside] at hport
    cases hport

theorem ListenLine.port_of_newTlp {tlp : TcpListenPort} (h : newTlp line.piece = some tlp) :
    tlp.port = line.port := by
  have hreadable := line.readable_iff.mpr (by rw [h]; rfl)
  obtain ⟨rest, hpiece, -⟩ := line.exists_piece_eq hreadable.comm_length
  have hbracket := hreadable.bracket
  have hport := Tcp.port_of_newTlp h
  rw [hpiece, ListenLine.upTo] at hbracket hport
  rw [getListenPort_eq_some line hbracket] at hport
  exact (Option.some.inj hport).symm

end Lines

section Pieces

theorem suffix_append_cons {front rest text : Text} {char : Char}
    (h : text <:+ front ++ char :: rest) :
    text <:+ rest ∨ ∃ before, before <:+ front ∧ text = before ++ char :: rest := by
  induction front with
  | nil =>
      rcases List.suffix_cons_iff.mp h with rfl | h
      · exact .inr ⟨[], List.suffix_refl _, rfl⟩
      · exact .inl h
  | cons first front ih =>
      rw [List.cons_append] at h
      rcases List.suffix_cons_iff.mp h with rfl | h
      · exact .inr ⟨first :: front, List.suffix_refl _, rfl⟩
      · rcases ih h with h | ⟨before, hbefore, rfl⟩
        · exact .inl h
        · exact .inr ⟨before, hbefore.trans (List.suffix_cons _ _), rfl⟩

-- Where two brackets and a quote stand behind the front of a line, the quote ends a name.
def Closed (text : Text) : Prop :=
  ∀ rest, ['(', '(', '"'] ++ rest <:+ text → [',', 'p', 'i', 'd'] <+: rest

theorem eq_of_brackets {before rest behind : Text} (hbefore : '"' ∉ before)
    (h : ['(', '(', '"'] ++ rest = before ++ '"' :: behind) : before = ['(', '('] ∧ rest = behind := by
  rcases List.append_eq_append_iff.mp (show ['(', '('] ++ '"' :: rest = _ from h) with
    ⟨more, rfl, hquote⟩ | ⟨more, hopen, hquote⟩
  · cases more with
    | nil => exact ⟨List.append_nil _, (List.cons.inj hquote).2⟩
    | cons char more =>
        rw [List.cons_append] at hquote
        rw [← (List.cons.inj hquote).1] at hbefore
        exact absurd (List.mem_append_right _ List.mem_cons_self) hbefore
  · cases more with
    | nil =>
        rw [List.append_nil] at hopen
        exact ⟨hopen.symm, (List.cons.inj hquote).2.symm⟩
    | cons char more =>
        rw [List.cons_append] at hquote
        have hmem : '"' ∈ ['(', '('] := by
          rw [hopen, (List.cons.inj hquote).1]
          exact List.mem_append_right _ List.mem_cons_self
        exact absurd hmem (by decide)

theorem Closed.of_notMem {text : Text} (h : '"' ∉ text) : Closed text := fun rest hrest =>
  absurd (hrest.subset (by simp)) h

theorem Closed.suffix {text rest : Text} (h : Closed text) (hrest : rest <:+ text) : Closed rest :=
  fun behind hbehind => h behind (hbehind.trans hrest)

theorem closed_entries (first : UsersEntry) (others : List UsersEntry) :
    Closed (first.comm ++ '"' :: (first.numbers ++
      (others.flatMap (fun entry => ',' :: entry.text) ++ [')', '\n']))) := by
  induction others generalizing first with
  | nil =>
      intro rest hrest
      rcases suffix_append_cons hrest with hrest | ⟨before, hbefore, heq⟩
      · refine Closed.of_notMem ?_ rest hrest
        simp [first.quote_notMem_numbers]
      · obtain ⟨-, rfl⟩ := eq_of_brackets (fun hmem => first.noQuote (hbefore.subset hmem)) heq
        simp [UsersEntry.numbers]
  | cons other others ih =>
      intro rest hrest
      rcases suffix_append_cons hrest with hrest | ⟨before, hbefore, heq⟩
      · have hsplit : first.numbers ++ ((other :: others).flatMap (fun entry => ',' :: entry.text) ++
            [')', '\n']) = (first.numbers ++ [',', '(']) ++ '"' :: (other.comm ++ '"' ::
              (other.numbers ++ (others.flatMap (fun entry => ',' :: entry.text) ++ [')', '\n']))) := by
          simp [UsersEntry.text]
        rw [hsplit] at hrest
        rcases suffix_append_cons hrest with hrest | ⟨before, hbefore, heq⟩
        · exact ih other rest hrest
        · -- A quote that opens a name stands behind ",(".
          have hquote : '"' ∉ before := fun hmem => by
            have hmem := hbefore.subset hmem
            simp [first.quote_notMem_numbers] at hmem
          obtain ⟨rfl, -⟩ := eq_of_brackets hquote heq
          obtain ⟨front, hfront⟩ := hbefore
          have hlast := congrArg (fun text => text.reverse.tail.head?) hfront
          simp at hlast
      · obtain ⟨-, rfl⟩ := eq_of_brackets (fun hmem => first.noQuote (hbefore.subset hmem)) heq
        simp [UsersEntry.numbers]

-- No name is read where the front of a line is missing.
theorem getListenComm_of_closed {text piece : Text} (h : Closed text) (hpiece : piece <+: text) :
    getListenComm piece = none := by
  rw [getListenComm]
  cases hfound : strstr ['(', '(', '"'] piece with
  | none => exact getSubStr_of_behind_eq_none (by rw [behind, hfound]; rfl)
  | some found =>
      obtain ⟨p1, rfl⟩ := strstr_eq_append hfound
      have hbehind : behind ['(', '(', '"'] piece = some p1 := by
        rw [behind, hfound, Option.map_some, List.drop_left]
      obtain ⟨more, rfl⟩ := hpiece
      obtain ⟨front, hfront⟩ := strstr_suffix hfound
      have hclosed : [',', 'p', 'i', 'd'] <+: p1 ++ more := by
        refine h _ ⟨front, ?_⟩
        rw [← hfront]
        simp
      cases hfin : strstr ['"', ',', 'p', 'i', 'd'] piece with
      | none => exact getSubStr_of_strstr_eq_none hfin
      | some p2 =>
          refine getSubStr_of_le hfin hbehind ?_
          obtain ⟨behind, hp2⟩ := strstr_eq_append hfin
          by_cases hshort : p1.length ≤ 4
          · rw [hp2, List.length_append]
            exact Nat.le_add_right_of_le (Nat.le_succ_of_le hshort)
          · obtain ⟨after, rfl⟩ := List.prefix_of_prefix_length_le hclosed (List.prefix_append _ _)
              (by rw [List.length_cons, List.length_cons, List.length_cons, List.length_cons,
                List.length_nil]; omega)
            have hsplit : piece = (front ++ ['(', '(']) ++ (['"', ',', 'p', 'i', 'd'] ++ after) := by
              rw [← hfront]
              simp
            obtain ⟨rest, hrest, hafter⟩ :=
              strstr_of_append (front ++ ['(', '(']) ['"', ',', 'p', 'i', 'd'] after
            rw [← hsplit, hfin, Option.some_inj] at hrest
            have hle := hafter.length_le
            rw [hrest, List.length_append, List.length_append]
            simp only [List.length_cons, List.length_nil]
            omega

variable (line : ListenLine)

theorem ListenLine.noBreak : '\n' ∉ line.text := by
  have hfront : '\n' ∉ line.front :=
    line.notMem_front (by cases line.address.ipv6 <;> decide) (fun _ => by decide) (by decide)
      (by decide)
  have htail : '\n' ∉ line.tail := by
    simp [ListenLine.tail, UsersEntry.noBreak_text]
  rw [line.text_eq, ← UsersEntry.numbers_append]
  simp [hfront, htail, line.first.noBreak, UsersEntry.numbers,
    notMem_decimalText (show '\n'.isDigit = false by decide)]

-- Only the first piece of a line counts.
theorem ListenLine.filterMap_newTlp :
    (fgetsAll LINE_BUF_LEN (line.text ++ ['\n'])).filterMap newTlp = (newTlp line.piece).toList := by
  have hsize : 2 ≤ LINE_BUF_LEN := by decide
  by_cases hroom : line.text.length < LINE_BUF_LEN - 1
  · rw [fgetsAll_line_of_lt hsize line.noBreak hroom, ListenLine.piece, List.take_of_length_le]
    · cases hline : newTlp (line.text ++ ['\n']) <;> simp [hline]
    · rw [List.length_append, List.length_singleton]
      omega
  · have hlong := Nat.not_lt.mp hroom
    have hpiece : line.piece = line.text.take (LINE_BUF_LEN - 1) := by
      rw [ListenLine.piece, List.take_append_of_le_length hlong]
    have hrest : (fgetsAll LINE_BUF_LEN (line.text.drop (LINE_BUF_LEN - 1) ++ ['\n'])).filterMap
        newTlp = [] := by
      rw [List.filterMap_eq_nil_iff]
      intro piece hmem
      obtain ⟨rest, hsuffix, rfl⟩ := exists_suffix_of_mem_fgetsAll hsize hmem
      refine newTlp_eq_none_of_comm (getListenComm_of_closed (Closed.suffix
        (closed_entries line.first line.others) (hsuffix.trans ?_)) (List.take_prefix _ _))
      have hfront := line.length_front_lt
      have hsplit : line.text ++ ['\n'] = (line.front ++ ['"']) ++ (line.first.comm ++ '"' ::
          (line.first.numbers ++ (line.others.flatMap (fun entry => ',' :: entry.text) ++
            [')', '\n']))) := by
        rw [line.text_eq, ← UsersEntry.numbers_append, ListenLine.tail]
        simp
      rw [← List.drop_append_of_le_length hlong, hsplit, List.drop_append,
        List.drop_eq_nil_of_le, List.nil_append]
      · exact List.drop_suffix _ _
      · rw [List.length_append, List.length_singleton, LINE_BUF_LEN]
        omega
    rw [fgetsAll_line_of_le hsize line.noBreak hlong, ← hpiece, List.filterMap_cons, hrest]
    cases newTlp line.piece <;> rfl

theorem filterMap_newTlp_printed (lines : List ListenLine) :
    (fgetsAll LINE_BUF_LEN (printed (lines.map ListenLine.text))).filterMap newTlp =
      lines.filterMap fun line => newTlp line.piece := by
  have hbreak : ∀ text ∈ lines.map ListenLine.text, '\n' ∉ text := by
    intro text htext
    obtain ⟨line, -, rfl⟩ := List.mem_map.mp htext
    exact line.noBreak
  have hpieces := fgetsAll_printed (show 2 ≤ LINE_BUF_LEN by decide) hbreak []
  rw [List.append_nil] at hpieces
  rw [hpieces, List.filterMap_append, List.filterMap_flatMap, List.flatMap_map]
  have hnil : fgetsAll LINE_BUF_LEN [] = [] := rfl
  rw [hnil, List.filterMap_nil, List.append_nil]
  rw [List.filterMap_eq_flatMap_toList]
  exact List.flatMap_congr fun line _ => line.filterMap_newTlp

theorem foldl_readTlp (tlps : TcpListenPorts) (pieces : List Text) : pieces.foldl readTlp tlps =
    (pieces.filterMap newTlp).foldl (fun tlps tlp => (addTlp tlps tlp).1) tlps := by
  induction pieces generalizing tlps with
  | nil => rfl
  | cons piece pieces ih =>
      rw [List.foldl_cons, ih, readTlp, List.filterMap_cons]
      cases newTlp piece <;> rfl

end Pieces

section Tables

def TcpListenPorts.ports (tlps : TcpListenPorts) : List ℕ := tlps.tlp.map fun tlp => tlp.port.toNat

-- The table holds the ports that were read, as far as there is room for them.
structure Registered (read : List ℕ) (tlps : TcpListenPorts) : Prop where
  hash_eq : ∀ port, tlps.tlpHash port = if port ∈ tlps.ports then 1 else 0
  nodup : tlps.ports.Nodup
  length_le : tlps.ports.length ≤ LTP_MAX_NUM
  subset : tlps.ports ⊆ read
  full : ∀ port ∈ read, port ∈ tlps.ports ∨ tlps.ports.length = LTP_MAX_NUM

theorem registered_newTlps : Registered [] newTlps :=
  ⟨fun _ => rfl, List.nodup_nil, Nat.zero_le _, List.nil_subset _, fun _ h => by cases h⟩

theorem Registered.addTlp {read : List ℕ} {tlps : TcpListenPorts} (h : Registered read tlps)
    (tlp : TcpListenPort) : Registered (read ++ [tlp.port.toNat]) (Tcp.addTlp tlps tlp).1 := by
  have hsame (hfull : tlp.port.toNat ∈ tlps.ports ∨ tlps.ports.length = LTP_MAX_NUM) :
      Registered (read ++ [tlp.port.toNat]) tlps := by
    refine ⟨h.hash_eq, h.nodup, h.length_le,
      fun port hport => List.mem_append_left _ (h.subset hport), ?_⟩
    intro port hport
    rcases List.mem_append.mp hport with hport | hport
    · exact h.full port hport
    · rw [List.mem_singleton.mp hport]
      exact hfull
  have hlength : tlps.tlp.length = tlps.ports.length := (List.length_map _).symm
  rw [Tcp.addTlp]
  by_cases hhash : tlps.tlpHash tlp.port.toNat = 1
  · rw [if_pos hhash]
    refine hsame (.inl ?_)
    rw [h.hash_eq] at hhash
    by_contra hnot
    rw [if_neg hnot] at hhash
    cases hhash
  rw [if_neg hhash]
  have hnew : tlp.port.toNat ∉ tlps.ports := fun hmem => hhash (by rw [h.hash_eq, if_pos hmem])
  by_cases hfull : LTP_MAX_NUM ≤ tlps.tlp.length
  · rw [if_pos hfull]
    exact hsame (.inr (Nat.le_antisymm h.length_le (hlength ▸ hfull)))
  rw [if_neg hfull]
  have hports (slots : ℕ → UInt32) : TcpListenPorts.ports ⟨tlps.tlp ++ [tlp], slots⟩ =
      tlps.ports ++ [tlp.port.toNat] := by
    rw [TcpListenPorts.ports, List.map_append]
    rfl
  constructor
  · intro port
    dsimp only
    rw [hports, h.hash_eq]
    by_cases hport : port = tlp.port.toNat <;> simp [hport]
  · rw [hports]
    refine List.nodup_append.mpr ⟨h.nodup, List.nodup_singleton _, fun port hport other hother => ?_⟩
    rw [List.mem_singleton.mp hother]
    exact fun heq => hnew (heq ▸ hport)
  · rw [hports, List.length_append, List.length_singleton]
    omega
  · rw [hports]
    intro port hport
    rcases List.mem_append.mp hport with hport | hport
    · exact List.mem_append_left _ (h.subset hport)
    · exact List.mem_append_right _ hport
  · intro port hport
    rw [hports]
    rcases List.mem_append.mp hport with hport | hport
    · exact .inl (List.mem_append_left _ ((h.full port hport).resolve_right (by omega)))
    · exact .inl (List.mem_append_right _ hport)

theorem registered_foldl {read : List ℕ} {tlps : TcpListenPorts} (h : Registered read tlps)
    (items : List TcpListenPort) : Registered (read ++ items.map fun tlp => tlp.port.toNat)
      (items.foldl (fun tlps tlp => (addTlp tlps tlp).1) tlps) := by
  induction items generalizing read tlps with
  | nil =>
      rw [List.map_nil, List.append_nil]
      exact h
  | cons item items ih =>
      have hrest := ih (h.addTlp item)
      rw [List.append_assoc] at hrest
      exact hrest

variable (lines : List ListenLine)

def readPorts : List ℕ :=
  (lines.filterMap fun line => newTlp line.piece).map fun tlp => tlp.port.toNat

theorem mem_readPorts {port : ℕ} :
    port ∈ readPorts lines ↔ ∃ line ∈ lines, line.Readable ∧ line.port.toNat = port := by
  rw [readPorts, List.mem_map]
  constructor
  · rintro ⟨tlp, htlp, rfl⟩
    obtain ⟨line, hline, hread⟩ := List.mem_filterMap.mp htlp
    exact ⟨line, hline, line.readable_iff.mpr (by rw [hread]; rfl),
      by rw [line.port_of_newTlp hread]⟩
  · rintro ⟨line, hline, hreadable, rfl⟩
    obtain ⟨tlp, htlp⟩ := Option.isSome_iff_exists.mp (line.readable_iff.mp hreadable)
    exact ⟨tlp, List.mem_filterMap.mpr ⟨line, hline, htlp⟩, by rw [line.port_of_newTlp htlp]⟩

theorem registered_getTlps :
    Registered (readPorts lines) (getTlps (printed (lines.map ListenLine.text))) := by
  rw [getTlps, foldl_readTlp, filterMap_newTlp_printed]
  exact registered_foldl registered_newTlps _

theorem isListenPort_iff {read : List ℕ} {tlps : TcpListenPorts} (h : Registered read tlps)
    (hread : ∀ port ∈ read, port < PORT_MAX_NUM) (port : UInt32) :
    isListenPort port tlps = true ↔ port.toNat ∈ tlps.ports := by
  rw [isListenPort]
  split
  case isTrue hle =>
    exact iff_of_false Bool.false_ne_true fun hmem => by
      have := hread _ (h.subset hmem)
      omega
  case isFalse =>
    rw [h.hash_eq]
    by_cases hmem : port.toNat ∈ tlps.ports <;> simp [hmem]

theorem isListenPort_getTlps_iff :
    (∀ port, isListenPort port (getTlps (printed (lines.map ListenLine.text))) = true ↔
      ∃ line ∈ lines, line.port = port) ↔
      (∀ line ∈ lines, ∃ other ∈ lines, other.port = line.port ∧ other.Readable) ∧
        (lines.map ListenLine.port).dedup.length ≤ LTP_MAX_NUM := by
  have hregistered := registered_getTlps lines
  have hbound : ∀ port ∈ readPorts lines, port < PORT_MAX_NUM := by
    intro port hport
    obtain ⟨line, -, -, rfl⟩ := (mem_readPorts lines).mp hport
    exact line.address.port.toNat_lt
  have hshown := isListenPort_iff hregistered hbound
  generalize getTlps (printed (lines.map ListenLine.text)) = tlps at hregistered hshown ⊢
  have hports (line : ListenLine) (hline : line ∈ lines) :
      line.port.toNat ∈ (lines.map ListenLine.port).dedup.map UInt32.toNat :=
    List.mem_map_of_mem (List.mem_dedup.mpr (List.mem_map_of_mem hline))
  constructor
  · intro h
    constructor
    · intro line hline
      have hmem := (hshown line.port).mp ((h line.port).mpr ⟨line, hline, rfl⟩)
      obtain ⟨other, hother, hreadable, hport⟩ := (mem_readPorts lines).mp (hregistered.subset hmem)
      exact ⟨other, hother, UInt32.toNat_inj.mp hport, hreadable⟩
    · have hnodup : ((lines.map ListenLine.port).dedup.map UInt32.toNat).Nodup :=
        (List.nodup_dedup _).map fun _ _ => UInt32.toNat_inj.mp
      have hsubset : (lines.map ListenLine.port).dedup.map UInt32.toNat ⊆ tlps.ports := by
        intro number hnumber
        obtain ⟨port, hport, rfl⟩ := List.mem_map.mp hnumber
        obtain ⟨line, hline, rfl⟩ := List.mem_map.mp (List.mem_dedup.mp hport)
        exact (hshown line.port).mp ((h line.port).mpr ⟨line, hline, rfl⟩)
      have hle := (List.subperm_of_subset hnodup hsubset).length_le
      rw [List.length_map] at hle
      exact hle.trans hregistered.length_le
  · rintro ⟨hreadable, hdistinct⟩ port
    rw [hshown]
    constructor
    · intro hmem
      obtain ⟨line, hline, -, hport⟩ := (mem_readPorts lines).mp (hregistered.subset hmem)
      exact ⟨line, hline, UInt32.toNat_inj.mp hport⟩
    · rintro ⟨line, hline, rfl⟩
      obtain ⟨other, hother, hport, hread⟩ := hreadable line hline
      have hmem : line.port.toNat ∈ readPorts lines :=
        (mem_readPorts lines).mpr ⟨other, hother, hread, congrArg UInt32.toNat hport⟩
      rcases hregistered.full _ hmem with hfound | hfull
      · exact hfound
      · -- A full table has room for nothing else, but then it has every port there is.
        have hsubset : tlps.ports ⊆ (lines.map ListenLine.port).dedup.map UInt32.toNat := by
          intro number hnumber
          obtain ⟨line, hline, -, rfl⟩ := (mem_readPorts lines).mp (hregistered.subset hnumber)
          exact hports line hline
        have hperm := (List.subperm_of_subset hregistered.nodup hsubset).perm_of_length_le
          (by rw [List.length_map, hfull]; exact hdistinct)
        exact hperm.mem_iff.mpr (hports line hline)

end Tables

section Example

def anyAddress : Address where
  ip := ['0', '.', '0', '.', '0', '.', '0']
  ipv6 := false
  port := 22
  chars := by decide
  ne_nil := by decide
  length_lt := by decide

def sshdEntry : UsersEntry := ⟨['s', 's', 'h', 'd'], 1952, 3, by decide, by decide⟩

def initEntry : UsersEntry := ⟨['s', 'y', 's', 't', 'e', 'm', 'd'], 1, 79, by decide, by decide⟩

-- 0.0.0.0:22users:(("sshd",pid=1952,fd=3),("systemd",pid=1,fd=79))
theorem not_isListenPort_getTlps : ¬∀ (lines : List ListenLine) (port : UInt32),
    isListenPort port (getTlps (printed (lines.map ListenLine.text))) = true ↔
      ∃ line ∈ lines, line.port = port := by
  intro h
  have hshown := (h [⟨anyAddress, sshdEntry, [initEntry]⟩] 22).mpr
    ⟨_, List.mem_cons_self, rfl⟩
  have hlost : isListenPort 22 (getTlps (printed
      ([⟨anyAddress, sshdEntry, [initEntry]⟩].map ListenLine.text))) = false := by decide +kernel
  rw [hlost] at hshown
  cases hshown

end Example

end Gopher.Tcp
