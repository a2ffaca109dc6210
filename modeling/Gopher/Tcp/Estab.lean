import Gopher.Lib.Lines
import Gopher.Tcp.Format
import Mathlib.Algebra.GroupWithZero.Nat

namespace Gopher.Tcp

open Gopher.Lib

def TCP_ESTAB_COMM_MAX : ℕ := 32

structure IpAddr where
  ip : Text
  port : UInt32
  ipv4 : Bool
  deriving DecidableEq

structure TcpEstabComm where
  comm : Text
  pid : UInt32
  fd : UInt32
  deriving DecidableEq

-- `teComm` are the first `te_comm_num` slots of the array.
structure TcpEstab where
  localAddr : IpAddr
  remote : IpAddr
  teComm : List TcpEstabComm
  deriving DecidableEq

def eraseSquareBrackets (s : Text) (bufLen : ℕ) : Option Text := do
  let p1 ← strstr ['['] s
  let p2 ← strstr [']'] s
  if p1.length ≤ p2.length then none
  let tmp ← getSubStr s (some ['[']) (some [']']) LINE_BUF_LEN
  if bufLen ≤ tmp.length then none else some tmp

-- What stands in front of the last colon, and behind it.
def splitLastColon (s : Text) : Option (Text × Text) :=
  if ':' ∈ s then
    let port := (s.reverse.takeWhile (· ≠ ':')).reverse
    some (s.take (s.length - port.length - 1), port)
  else none

def getEstabAddr (addrBuf : Text) : Option IpAddr := do
  let (ip, portStr) ← splitLastColon addrBuf
  if ip = [] then none
  let (ip, ipv4) := match eraseSquareBrackets ip IP_STR_LEN with
    | some tmp => (tmp, false)
    | none => (ip, true)
  if portStr = [] ∨ PORT_LEN ≤ portStr.length then none
  if isDigitStr portStr then some ⟨ip, atoi portStr, ipv4⟩ else none

def getEstabComm (start : Text) : Option TcpEstabComm :=
  if LINE_BUF_LEN ≤ start.length then none
  else do
    let comm ← getSubStr start (some ['(', '"']) (some ['"', ',']) TASK_COMM_LEN
    let pid ← digitsBetween start ['p', 'i', 'd', '='] [',', 'f', 'd'] PID_LEN
    let fd ← digitsBetween start [',', 'f', 'd', '='] [')'] FID_LEN
    return ⟨comm, atoi pid, atoi fd⟩

def addEstabComm (te : List TcpEstabComm) (start : Text) : List TcpEstabComm :=
  match getEstabComm start with
  | none => te
  | some teComm => if TCP_ESTAB_COMM_MAX ≤ te.length then te else te ++ [teComm]

def getNextStrOffset (s target : Text) : Option ℕ :=
  match strstr target s with
  | none => none
  | some p => if p.length < s.length then some (s.length - p.length) else none

-- The loop one by one and the last entry behind it; more fuel than characters is not needed.
def getEstabComms : (fuel : ℕ) → (start : Text) → List TcpEstabComm → List TcpEstabComm
  | 0, _, te => te
  | fuel + 1, start, te =>
      match getNextStrOffset start [',', '('] with
      | none => addEstabComm te start
      | some offset =>
          getEstabComms fuel (start.drop (offset + 1)) (addEstabComm te (start.take offset))

def atUsersMark : Text := ['@', 'u', 's', 'e', 'r', 's', ':', '(']

def getEstab (s : Text) : Option TcpEstab := do
  let localAddr ← (getSubStr s none (some ['|']) IP_STR_LEN).bind getEstabAddr
  let remote ← (getSubStr s (some ['|']) (some ['@']) IP_STR_LEN).bind getEstabAddr
  let commsStr ← getSubStr s (some atUsersMark) none LINE_BUF_LEN
  -- Delete last character ')'
  let start := commsStr.dropLast
  return ⟨localAddr, remote, getEstabComms (start.length + 1) start []⟩

-- The first line that `__get_estabs` reads.
def readEstab (output : Text) : Option TcpEstab :=
  (fgets LINE_BUF_LEN output).bind fun line => getEstab line.1

-- A line of `ss -anpt` for an established connection.
structure EstabLine where
  localAddr : Address
  remote : Address
  entries : List UsersEntry
  length_le : entries.length ≤ TCP_ESTAB_COMM_MAX

def EstabLine.text (line : EstabLine) : Text :=
  line.localAddr.text ++ '|' :: (line.remote.text ++ '@' :: usersText line.entries)

def Address.addr (address : Address) : IpAddr :=
  ⟨address.ip, address.port.toUInt32, !address.ipv6⟩

def UsersEntry.teComm (entry : UsersEntry) : TcpEstabComm := ⟨entry.comm, entry.pid, entry.fd⟩

def EstabLine.estab (line : EstabLine) : TcpEstab :=
  ⟨line.localAddr.addr, line.remote.addr, line.entries.map UsersEntry.teComm⟩

-- The name gives the numbers itself, as they are.
structure UsersEntry.OwnNumbers (entry : UsersEntry) : Prop where
  pid : (digitsBetween entry.comm ['p', 'i', 'd', '='] [',', 'f', 'd'] PID_LEN).map atoi =
    some entry.pid
  fd : (digitsBetween entry.comm [',', 'f', 'd', '='] [')'] FID_LEN).map atoi = some entry.fd

-- What the searches need of a name.
structure UsersEntry.Readable (entry : UsersEntry) : Prop where
  comm_ne_nil : entry.comm ≠ []
  comm_length : entry.comm.length < TASK_COMM_LEN
  comm_start : entry.comm.head? ≠ some ','
  comm_whole : ¬[',', '('] <:+: entry.comm
  pid : (¬['p', 'i', 'd', '='] <:+: entry.comm ∧ ¬[',', 'f', 'd'] <:+: entry.comm) ∨
    (digitsBetween entry.comm ['p', 'i', 'd', '='] [',', 'f', 'd'] PID_LEN).map atoi =
      some entry.pid
  fd : (¬[',', 'f', 'd', '='] <:+: entry.comm ∧ ¬[')'] <:+: entry.comm) ∨
    (digitsBetween entry.comm [',', 'f', 'd', '='] [')'] FID_LEN).map atoi = some entry.fd

-- A line that is too long may be cut in the last entry, if its name gives the numbers.
structure EstabLine.Readable (line : EstabLine) : Prop where
  entries_ne_nil : line.entries ≠ []
  readable : ∀ entry ∈ line.entries, entry.Readable
  length_lt : line.text.length < LINE_BUF_LEN ∨ ∃ last ∈ line.entries.getLast?,
    last.OwnNumbers ∧ line.text.length ≤ LINE_BUF_LEN - 2 + last.numbers.length

section Items

variable {entry : UsersEntry} {rest : Text}

-- The text of an entry as far as it goes behind the name.
def UsersEntry.item (entry : UsersEntry) (rest : Text) : Text :=
  ['('] ++ '"' :: (entry.comm ++ '"' :: rest)

theorem behind_item : behind ['(', '"'] (entry.item rest) = some (entry.comm ++ '"' :: rest) :=
  @behind_mark ['(', '"'] _

theorem strstr_item (hstart : entry.comm.head? ≠ some ',') :
    strstr ['"', ','] (entry.item rest) = strstr ['"', ','] ('"' :: rest) := by
  have hfirst : ['"', ','].isPrefixOf ('(' :: '"' :: (entry.comm ++ '"' :: rest)) = false := rfl
  have hopen : ['"', ','].isPrefixOf ('"' :: (entry.comm ++ '"' :: rest)) = false := by
    rw [Bool.eq_false_iff, ne_eq, List.isPrefixOf_iff_prefix, List.cons_prefix_cons,
      prefix_append_cons_iff (by decide)]
    rintro ⟨-, behind, hbehind⟩
    rw [← hbehind] at hstart
    exact hstart rfl
  rw [UsersEntry.item, List.singleton_append, strstr, hfirst, if_neg Bool.false_ne_true, strstr,
    hopen, if_neg Bool.false_ne_true, strstr_skip entry.noQuote]

-- The name is read up to a quote with a comma.
theorem comm_item (hne : entry.comm ≠ []) (hlength : entry.comm.length < TASK_COMM_LEN)
    (hstart : entry.comm.head? ≠ some ',') (rest : Text) :
    getSubStr (entry.item (',' :: rest)) (some ['(', '"']) (some ['"', ',']) TASK_COMM_LEN =
      some entry.comm :=
  getSubStr_of_behind ((strstr_item hstart).trans (@strstr_mark ['"', ','] rest)) behind_item
    hne hlength

theorem of_comm_item (hrest : '"' ∉ rest) {comm : Text} (h : getSubStr (entry.item rest)
    (some ['(', '"']) (some ['"', ',']) TASK_COMM_LEN = some comm) :
    entry.comm ≠ [] ∧ entry.comm.length < TASK_COMM_LEN ∧ entry.comm.head? ≠ some ',' ∧
      ∃ behind, rest = ',' :: behind := by
  have hstart : entry.comm.head? ≠ some ',' := by
    intro hstart
    obtain ⟨after, hafter⟩ : ∃ after, entry.comm = ',' :: after := by
      cases hcomm : entry.comm with
      | nil => simp [hcomm] at hstart
      | cons char after =>
          rw [hcomm] at hstart
          cases hstart
          exact ⟨after, rfl⟩
    have hfirst : ['"', ','].isPrefixOf ('(' :: '"' :: (entry.comm ++ '"' :: rest)) = false := rfl
    have hfound : strstr ['"', ','] (entry.item rest) = some ('"' :: (entry.comm ++ '"' :: rest)) := by
      rw [UsersEntry.item, List.singleton_append, strstr, hfirst, if_neg Bool.false_ne_true, hafter]
      exact @strstr_mark ['"', ','] _
    rw [getSubStr_of_le hfound behind_item (Nat.le_succ _)] at h
    cases h
  have hfound : strstr ['"', ','] (entry.item rest) = strstr ['"', ','] ('"' :: rest) :=
    strstr_item hstart
  obtain ⟨behind, rfl⟩ : ∃ behind, rest = ',' :: behind := by
    by_contra hnot
    have hclose : strstr ['"', ','] ('"' :: rest) = none := by
      have hopen : ['"', ','].isPrefixOf ('"' :: rest) = false := by
        rw [Bool.eq_false_iff, ne_eq, List.isPrefixOf_iff_prefix, List.cons_prefix_cons]
        rintro ⟨-, behind, hbehind⟩
        exact hnot ⟨behind, hbehind.symm⟩
      rw [strstr, hopen, if_neg Bool.false_ne_true, strstr_eq_none_iff]
      exact not_infix_of_notMem '"' (by decide) hrest
    rw [getSubStr_of_strstr_eq_none (hfound.trans hclose)] at h
    cases h
  rw [getSubStr_eq (hfound.trans (@strstr_mark ['"', ','] behind)) behind_item] at h
  split at h
  · cases h
  case isFalse hroom =>
    simp only [List.length_append, List.length_cons, List.length_nil] at hroom
    refine ⟨fun hnil => ?_, by omega, hstart, behind, rfl⟩
    rw [hnil, List.length_nil] at hroom
    omega

theorem getEstabComm_eq_some {start : Text} {teComm : TcpEstabComm} :
    getEstabComm start = some teComm ↔ start.length < LINE_BUF_LEN ∧
      getSubStr start (some ['(', '"']) (some ['"', ',']) TASK_COMM_LEN = some teComm.comm ∧
      (digitsBetween start ['p', 'i', 'd', '='] [',', 'f', 'd'] PID_LEN).map atoi =
        some teComm.pid ∧
      (digitsBetween start [',', 'f', 'd', '='] [')'] FID_LEN).map atoi = some teComm.fd := by
  rw [getEstabComm]
  split
  case isTrue hlong => exact iff_of_false (by simp) fun h => by omega
  case isFalse hlong =>
    rw [and_iff_right (Nat.not_le.mp hlong)]
    obtain ⟨comm, pid, fd⟩ := teComm
    cases getSubStr start (some ['(', '"']) (some ['"', ',']) TASK_COMM_LEN with
    | none => simp
    | some readComm =>
        cases digitsBetween start ['p', 'i', 'd', '='] [',', 'f', 'd'] PID_LEN with
        | none => simp
        | some readPid =>
            cases digitsBetween start [',', 'f', 'd', '='] [')'] FID_LEN with
            | none => simp
            | some readFd => simp

theorem digitsBetween_item {start fin : Text} (hstart : '"' ∉ start) (hfin : '"' ∉ fin)
    (hstartOpen : ¬start <:+: ['(']) (hfinOpen : ¬fin <:+: ['(']) (bufLen : ℕ) (value : UInt32) :
    (digitsBetween (entry.item rest) start fin bufLen).map atoi = some value ↔
      ((¬start <:+: entry.comm ∧ ¬fin <:+: entry.comm) ∧
          (digitsBetween rest start fin bufLen).map atoi = some value) ∨
        (digitsBetween entry.comm start fin bufLen).map atoi = some value := by
  have hne {mark : Text} (hmark : ¬mark <:+: ['(']) : mark ≠ [] := by
    rintro rfl
    exact hmark List.nil_infix
  rw [UsersEntry.item, digitsBetween_append_quote hstart hfin (hne hstartOpen) (hne hfinOpen),
    if_neg fun h => hstartOpen h.1, if_neg (not_or.mpr ⟨hstartOpen, hfinOpen⟩),
    digitsBetween_append_quote_iff atoi value hstart hfin (hne hstartOpen) (hne hfinOpen)]

theorem pid_item (value : UInt32) : (digitsBetween (entry.item rest) ['p', 'i', 'd', '=']
    [',', 'f', 'd'] PID_LEN).map atoi = some value ↔
      ((¬['p', 'i', 'd', '='] <:+: entry.comm ∧ ¬[',', 'f', 'd'] <:+: entry.comm) ∧
          (digitsBetween rest ['p', 'i', 'd', '='] [',', 'f', 'd'] PID_LEN).map atoi = some value) ∨
        (digitsBetween entry.comm ['p', 'i', 'd', '='] [',', 'f', 'd'] PID_LEN).map atoi =
          some value :=
  digitsBetween_item (by decide) (by decide) (not_infix_of_notMem 'd' (by decide) (by decide))
    (not_infix_of_notMem 'd' (by decide) (by decide)) PID_LEN value

theorem fd_item (value : UInt32) : (digitsBetween (entry.item rest) [',', 'f', 'd', '=']
    [')'] FID_LEN).map atoi = some value ↔
      ((¬[',', 'f', 'd', '='] <:+: entry.comm ∧ ¬[')'] <:+: entry.comm) ∧
          (digitsBetween rest [',', 'f', 'd', '='] [')'] FID_LEN).map atoi = some value) ∨
        (digitsBetween entry.comm [',', 'f', 'd', '='] [')'] FID_LEN).map atoi = some value :=
  digitsBetween_item (by decide) (by decide) (not_infix_of_notMem 'd' (by decide) (by decide))
    (not_infix_of_notMem ')' (by decide) (by decide)) FID_LEN value

theorem fd_numbers (entry : UsersEntry) (rest : Text) :
    digitsBetween (entry.numbers ++ rest) [',', 'f', 'd', '='] [')'] FID_LEN =
      some (decimalText entry.fd.toNat) := by
  have hpid : ∀ char ∈ decimalText entry.pid.toNat, char.isDigit = true :=
    fun char hchar => isDigit_of_mem_decimalText hchar
  have hfd : ∀ char ∈ decimalText entry.fd.toNat, char.isDigit = true :=
    fun char hchar => isDigit_of_mem_decimalText hchar
  have hclose := (strstr_close_numbersText hpid hfd []).trans (@strstr_mark [')'] rest)
  rw [entry.numbers_append]
  exact digitsBetween_eq_some (getSubStr_of_behind hclose (behind_commaFd_numbersText hpid)
    (decimalText_ne_nil _) (decimalText_u32_lt _)) (isDigitStr_decimalText _)

-- A whole entry.
theorem getEstabComm_item (hwhole : ¬[',', '('] <:+: entry.comm) (hrest : '"' ∉ rest)
    (hlength : (entry.item (entry.numbers ++ rest)).length < LINE_BUF_LEN) :
    getEstabComm (entry.item (entry.numbers ++ rest)) = some entry.teComm ↔ entry.Readable := by
  have hquote : '"' ∉ entry.numbers ++ rest := by
    rw [List.mem_append, not_or]
    exact ⟨entry.quote_notMem_numbers, hrest⟩
  have hpid : (digitsBetween (entry.numbers ++ rest) ['p', 'i', 'd', '='] [',', 'f', 'd']
      PID_LEN).map atoi = some entry.pid := by
    rw [digitsBetween_pid entry rest ['d'] (by decide), Option.map_some, atoi_decimalText]
  have hfd : (digitsBetween (entry.numbers ++ rest) [',', 'f', 'd', '='] [')'] FID_LEN).map atoi =
      some entry.fd := by
    rw [fd_numbers, Option.map_some, atoi_decimalText]
  rw [getEstabComm_eq_some, and_iff_right hlength, pid_item, fd_item, UsersEntry.teComm,
    and_iff_left hpid, and_iff_left hfd]
  constructor
  · rintro ⟨hcomm, hpid, hfd⟩
    obtain ⟨hne, hlt, hstart, -⟩ := of_comm_item hquote hcomm
    exact ⟨hne, hlt, hstart, hwhole, hpid, hfd⟩
  · intro h
    exact ⟨comm_item h.comm_ne_nil h.comm_length h.comm_start _, h.pid, h.fd⟩

-- An entry that is cut in its numbers.
theorem getEstabComm_item_of_cut (hwhole : ¬[',', '('] <:+: entry.comm)
    (hrest : rest <+: entry.numbers) (hcut : rest ≠ entry.numbers)
    (hlength : (entry.item rest).length < LINE_BUF_LEN) :
    getEstabComm (entry.item rest) = some entry.teComm ↔
      rest ≠ [] ∧ entry.Readable ∧ entry.OwnNumbers := by
  have hquote : '"' ∉ rest := fun hmem => entry.quote_notMem_numbers (hrest.subset hmem)
  have hclose : ')' ∉ rest := by
    rw [UsersEntry.numbers, ← List.append_assoc] at hrest hcut
    intro hmem
    have hbody := ((List.prefix_concat_iff.mp hrest).resolve_left hcut).subset hmem
    simp [notMem_decimalText (show ')'.isDigit = false by decide)] at hbody
  have hfd : digitsBetween rest [',', 'f', 'd', '='] [')'] FID_LEN = none := by
    rw [digitsBetween, getSubStr_of_strstr_eq_none
      (strstr_eq_none_iff.mpr (not_infix_of_notMem ')' (by decide) hclose))]
    rfl
  rw [getEstabComm_eq_some, and_iff_right hlength, pid_item, fd_item, UsersEntry.teComm, hfd]
  constructor
  · rintro ⟨hcomm, hpid, hown⟩
    obtain ⟨hne, hlt, hstart, behind, rfl⟩ := of_comm_item hquote hcomm
    have hown := hown.resolve_left fun h => by simp at h
    have hinside : [',', 'f', 'd'] <:+: entry.comm := by
      have hsome : ((digitsBetween entry.comm [',', 'f', 'd', '='] [')'] FID_LEN).map
          atoi).isSome = true := by
        rw [hown]
        rfl
      rw [Option.isSome_map] at hsome
      exact List.IsInfix.trans ⟨[], ['='], rfl⟩ (infix_of_digitsBetween hsome).1
    have hpid := hpid.resolve_left fun h => h.1.2 hinside
    exact ⟨List.cons_ne_nil _ _, ⟨hne, hlt, hstart, hwhole, .inr hpid, .inr hown⟩, hpid, hown⟩
  · rintro ⟨hne, hreadable, hown⟩
    obtain ⟨behind, rfl⟩ : ∃ behind, rest = ',' :: behind := by
      cases rest with
      | nil => exact absurd rfl hne
      | cons char behind =>
          rw [UsersEntry.numbers, List.append_assoc, List.cons_append, List.cons_prefix_cons] at hrest
          exact ⟨behind, by rw [hrest.1]⟩
    exact ⟨comm_item hreadable.comm_ne_nil hreadable.comm_length hreadable.comm_start _,
      .inr hown.pid, .inr hown.fd⟩

end Items

section Segments

-- A text cut in front of each bracket behind a comma, the comma left out.
def segments : Text → List Text
  | [] => [[]]
  | char :: text =>
      if char = ',' ∧ text.head? = some '(' then [] :: segments text
      else (segments text).modifyHead (char :: ·)

theorem segments_ne_nil (text : Text) : segments text ≠ [] := by
  induction text with
  | nil => exact List.cons_ne_nil _ _
  | cons char text ih =>
      rw [segments]
      split
      · exact List.cons_ne_nil _ _
      · cases hsegments : segments text with
        | nil => exact absurd hsegments ih
        | cons first others => exact List.cons_ne_nil _ _

theorem modifyHead_append {α : Type*} (f : α → α) {front : List α} (h : front ≠ []) (rest : List α) :
    (front ++ rest).modifyHead f = front.modifyHead f ++ rest := by
  cases front with
  | nil => exact absurd rfl h
  | cons first front => rfl

theorem segments_append (front rest : Text) :
    segments (front ++ ',' :: '(' :: rest) = segments front ++ segments ('(' :: rest) := by
  induction front with
  | nil => rfl
  | cons char front ih =>
      have hhead : (front ++ ',' :: '(' :: rest).head? = some '(' ↔ front.head? = some '(' := by
        cases front <;> simp
      simp only [List.cons_append, segments, hhead, ih]
      split
      · rfl
      · exact modifyHead_append _ (segments_ne_nil front) _

theorem segments_of_whole {text : Text} (h : ¬[',', '('] <:+: text) : segments text = [text] := by
  induction text with
  | nil => rfl
  | cons char text ih =>
      rw [List.infix_cons_iff, not_or] at h
      rw [segments, if_neg, ih h.2]
      · rfl
      · rintro ⟨rfl, hhead⟩
        cases text with
        | nil => cases hhead
        | cons next text =>
            cases hhead
            exact h.1 ⟨text, rfl⟩

-- No quote is lost.
theorem sum_count_segments (text : Text) :
    ((segments text).map fun segment => segment.count '"').sum = text.count '"' := by
  induction text with
  | nil => rfl
  | cons char text ih =>
      rw [segments]
      split
      case isTrue hcut =>
        rw [List.map_cons, List.sum_cons, ih, hcut.1, List.count_nil,
          List.count_cons_of_ne (by decide), Nat.zero_add]
      case isFalse =>
        cases hsegments : segments text with
        | nil => exact absurd hsegments (segments_ne_nil text)
        | cons first others =>
            rw [hsegments, List.map_cons, List.sum_cons] at ih
            rw [List.modifyHead_cons, List.map_cons, List.sum_cons, List.count_cons, List.count_cons,
              ← ih]
            omega

end Segments

section Lists

def readComms (text : Text) : List TcpEstabComm := (segments text).filterMap getEstabComm

theorem getEstabComms_eq {fuel : ℕ} {start : Text} (hfuel : start.length < fuel)
    (hstart : start.head? ≠ some ',') (te : List TcpEstabComm) :
    getEstabComms fuel start te = (segments start).foldl addEstabComm te := by
  induction fuel generalizing start te with
  | zero => omega
  | succ fuel ih =>
      rw [getEstabComms, getNextStrOffset]
      cases hfound : strstr [',', '('] start with
      | none =>
          rw [segments_of_whole (strstr_eq_none_iff.mp hfound)]
          rfl
      | some p =>
          obtain ⟨front, hfront⟩ := strstr_suffix hfound
          obtain ⟨rest, rfl⟩ := strstr_eq_append hfound
          have hne : front ≠ [] := by
            rintro rfl
            rw [← hfront] at hstart
            exact hstart rfl
          have hpos := List.length_pos_iff.mpr hne
          have hlength : start.length = front.length + (rest.length + 2) := by
            rw [← hfront, List.length_append]
            rfl
          have hlt : ([',', '('] ++ rest).length < start.length := by
            rw [hlength]
            simp only [List.cons_append, List.nil_append, List.length_cons]
            omega
          have hoffset : start.length - ([',', '('] ++ rest).length = front.length := by
            rw [hlength]
            simp only [List.cons_append, List.nil_append, List.length_cons]
            omega
          have hdrop : start.drop (front.length + 1) = '(' :: rest := by
            rw [← hfront, ← List.drop_drop, List.drop_left]
            rfl
          have hsegments : segments start = segments front ++ segments ('(' :: rest) := by
            rw [← hfront]
            exact segments_append front rest
          have hwhole : ¬[',', '('] <:+: front := by
            rintro ⟨before, after, hinside⟩
            obtain ⟨late, hlate, hsuffix⟩ :=
              strstr_of_append before [',', '('] (after ++ ([',', '('] ++ rest))
            have hsplit : before ++ ([',', '('] ++ (after ++ ([',', '('] ++ rest))) = start := by
              rw [← hfront, ← hinside]
              simp
            rw [hsplit, hfound, Option.some_inj, List.append_cancel_left_eq] at hlate
            have hle := hsuffix.length_le
            rw [← hlate, List.length_append, List.length_append] at hle
            simp only [List.length_cons, List.length_nil] at hle
            omega
          dsimp only
          rw [if_pos hlt, hoffset]
          dsimp only
          rw [hdrop, ih (by rw [List.length_cons]; omega) (by simp), hsegments,
            segments_of_whole hwhole, List.foldl_append, ← hfront, List.take_left]
          rfl

theorem foldl_addEstabComm (texts : List Text) {te : List TcpEstabComm}
    (h : te.length ≤ TCP_ESTAB_COMM_MAX) : texts.foldl addEstabComm te =
      (te ++ texts.filterMap getEstabComm).take TCP_ESTAB_COMM_MAX := by
  induction texts generalizing te with
  | nil => rw [List.foldl_nil, List.filterMap_nil, List.append_nil, List.take_of_length_le h]
  | cons text texts ih =>
      rw [List.foldl_cons, List.filterMap_cons, addEstabComm]
      cases getEstabComm text with
      | none => exact ih h
      | some teComm =>
          dsimp only
          split
          case isTrue hfull =>
            rw [ih h, List.take_append_of_le_length hfull, List.take_append_of_le_length hfull]
          case isFalse hroom =>
            rw [ih (by rw [List.length_append, List.length_singleton]; omega), List.append_assoc,
              List.singleton_append]

theorem two_le_count_of_getEstabComm {text : Text} {teComm : TcpEstabComm}
    (h : getEstabComm text = some teComm) : 2 ≤ text.count '"' := by
  obtain ⟨-, hcomm, -⟩ := getEstabComm_eq_some.mp h
  cases hfin : strstr ['"', ','] text with
  | none =>
      rw [getSubStr_of_strstr_eq_none hfin] at hcomm
      cases hcomm
  | some p2 =>
      cases hopen : strstr ['(', '"'] text with
      | none =>
          rw [getSubStr_of_behind_eq_none (by rw [behind, hopen]; rfl)] at hcomm
          cases hcomm
      | some found =>
          obtain ⟨p1, rfl⟩ := strstr_eq_append hopen
          obtain ⟨rest, rfl⟩ := strstr_eq_append hfin
          obtain ⟨front, hfront⟩ := strstr_suffix hopen
          have hbehind : behind ['(', '"'] text = some p1 := by
            rw [behind, hopen, Option.map_some, List.drop_left]
          rw [getSubStr_eq hfin hbehind] at hcomm
          split at hcomm
          · cases hcomm
          case isFalse hroom =>
            -- The closing quote lies behind the opening one.
            have hp1 : p1 <:+ text := ⟨front ++ ['(', '"'], by rw [List.append_assoc, hfront]⟩
            have hsuffix := List.suffix_of_suffix_length_le (strstr_suffix hfin) hp1 (by omega)
            have hcount := (hsuffix.sublist.count_le '"')
            rw [← hfront, List.count_append, List.count_append]
            rw [List.count_append] at hcount
            have hone : ['(', '"'].count '"' = 1 := rfl
            have hother : ['"', ','].count '"' = 1 := rfl
            omega

theorem length_readComms_le (text : Text) : 2 * (readComms text).length ≤ text.count '"' := by
  rw [readComms, ← sum_count_segments]
  induction segments text with
  | nil => exact Nat.le_refl _
  | cons segment others ih =>
      rw [List.filterMap_cons, List.map_cons, List.sum_cons]
      cases hsegment : getEstabComm segment with
      | none => exact Nat.le_add_left_of_le ih
      | some teComm =>
          have hcount := two_le_count_of_getEstabComm hsegment
          dsimp only
          rw [List.length_cons]
          omega

theorem readComms_eq_nil {text : Text} (h : text.count '"' ≤ 1) : readComms text = [] := by
  have hle := length_readComms_le text
  exact List.length_eq_zero_iff.mp (by omega)

variable {entry : UsersEntry} {rest : Text}

theorem whole_item (hwhole : ¬[',', '('] <:+: entry.comm) (hrest : '(' ∉ rest) :
    ¬[',', '('] <:+: entry.item rest := by
  rw [← strstr_eq_none_iff] at hwhole ⊢
  have hopen : strstr [',', '('] ['('] = none := rfl
  have hbehind : strstr [',', '('] rest = none :=
    strstr_eq_none_iff.mpr (not_infix_of_notMem '(' (by decide) hrest)
  rw [UsersEntry.item, strstr_append_cons (by decide) (by decide), hopen]
  dsimp only
  rw [strstr_append_cons (by decide) (by decide), hwhole]
  exact hbehind

-- An entry whose name would be cut is not read at all.
theorem readComms_item (hquote : '"' ∉ rest) (hopen : '(' ∉ rest) :
    readComms (entry.item rest) = if [',', '('] <:+: entry.comm then []
      else (getEstabComm (entry.item rest)).toList := by
  by_cases hwhole : [',', '('] <:+: entry.comm
  · rw [if_pos hwhole]
    obtain ⟨before, after, hcomm⟩ := hwhole
    have hnoQuote := entry.noQuote
    rw [← hcomm, List.mem_append, List.mem_append, not_or, not_or] at hnoQuote
    have hsplit : entry.item rest = ('(' :: '"' :: before) ++ ',' :: '(' :: (after ++ '"' :: rest) := by
      rw [UsersEntry.item, ← hcomm]
      simp
    have hfront : ('(' :: '"' :: before).count '"' = 1 := by
      simp [List.count_eq_zero_of_not_mem hnoQuote.1.1]
    have hback : ('(' :: (after ++ '"' :: rest)).count '"' = 1 := by
      simp [List.count_eq_zero_of_not_mem hnoQuote.2, List.count_eq_zero_of_not_mem hquote]
    have hreadFront := readComms_eq_nil (Nat.le_of_eq hfront)
    have hreadBack := readComms_eq_nil (Nat.le_of_eq hback)
    rw [readComms] at hreadFront hreadBack ⊢
    rw [hsplit, segments_append, List.filterMap_append, hreadFront, hreadBack, List.nil_append]
  · rw [if_neg hwhole, readComms, segments_of_whole (whole_item hwhole hopen)]
    cases hread : getEstabComm (entry.item rest) <;> simp [hread]

-- The entries, with the last one as far as it goes.
def joined (front : List UsersEntry) (last : Text) : Text :=
  front.flatMap (fun entry => entry.text ++ [',']) ++ last

theorem UsersEntry.text_eq_item (entry : UsersEntry) : entry.text = entry.item entry.numbers := rfl

theorem UsersEntry.open_notMem_numbers (entry : UsersEntry) : '(' ∉ entry.numbers := by
  simp [UsersEntry.numbers, notMem_decimalText (show '('.isDigit = false by decide)]

theorem joined_head (front : List UsersEntry) (last : Text) :
    ∃ rest, joined front ('(' :: last) = '(' :: rest := by
  cases front with
  | nil => exact ⟨last, rfl⟩
  | cons entry front => exact ⟨_, rfl⟩

theorem readComms_joined (front : List UsersEntry) (last : Text) :
    readComms (joined front ('(' :: last)) =
      front.flatMap (fun entry => readComms entry.text) ++ readComms ('(' :: last) := by
  induction front with
  | nil => rfl
  | cons entry front ih =>
      obtain ⟨rest, hrest⟩ := joined_head front last
      have hsplit : joined (entry :: front) ('(' :: last) = entry.text ++ ',' :: '(' :: rest := by
        rw [← hrest]
        simp [joined]
      rw [List.flatMap_cons, List.append_assoc, ← ih, hrest, hsplit, readComms, segments_append,
        List.filterMap_append]
      rfl

theorem UsersEntry.count_item (entry : UsersEntry) (hrest : '"' ∉ rest) :
    (entry.item rest).count '"' = 2 := by
  simp [UsersEntry.item, List.count_eq_zero_of_not_mem entry.noQuote,
    List.count_eq_zero_of_not_mem hrest]

theorem count_joined (front : List UsersEntry) (last : Text) :
    (joined front last).count '"' = 2 * front.length + last.count '"' := by
  induction front with
  | nil => simp [joined]
  | cons entry front ih =>
      have hsplit : joined (entry :: front) last = entry.text ++ ',' :: joined front last := by
        simp [joined]
      have htext : entry.text.count '"' = 2 := entry.count_item entry.quote_notMem_numbers
      rw [hsplit, List.count_append, htext, List.count_cons_of_ne (by decide), ih, List.length_cons]
      omega

-- Lists of at most one entry each that make up a whole list.
theorem flatMap_append_eq_iff {α β : Type*} {f : α → List β} {g : α → β} {items : List α}
    (hf : ∀ item ∈ items, (f item).length ≤ 1) {first second : List β}
    (hlength : first.length ≤ second.length) :
    items.flatMap f ++ first = items.map g ++ second ↔
      (∀ item ∈ items, f item = [g item]) ∧ first = second := by
  have hle : ∀ items : List α, (∀ item ∈ items, (f item).length ≤ 1) →
      (items.flatMap f ++ first).length ≤ (items.map g ++ second).length := by
    intro items hf
    induction items with
    | nil => exact hlength
    | cons item items ih =>
        have hrest := ih fun other hother => hf other (List.mem_cons_of_mem _ hother)
        have hitem := hf item List.mem_cons_self
        simp only [List.flatMap_cons, List.map_cons, List.length_append, List.length_cons] at hrest ⊢
        omega
  induction items with
  | nil => simp
  | cons item items ih =>
      have hrest : ∀ other ∈ items, (f other).length ≤ 1 :=
        fun other hother => hf other (List.mem_cons_of_mem _ hother)
      rw [List.flatMap_cons, List.map_cons, List.forall_mem_cons, List.append_assoc, List.cons_append,
        and_assoc]
      refine Iff.trans ?_ (and_congr_right fun _ => ih hrest)
      have hitem := hf item List.mem_cons_self
      cases hread : f item with
      | nil =>
          refine iff_of_false (fun heq => ?_) fun h => by cases h.1
          have hshort := hle items hrest
          have hlength := congrArg List.length heq
          simp only [List.nil_append, List.length_cons] at hlength
          omega
      | cons value others =>
          rw [hread, List.length_cons] at hitem
          obtain rfl := List.length_eq_zero_iff.mp (show others.length = 0 by omega)
          rw [List.singleton_append, List.cons.injEq, List.cons.injEq, and_iff_left rfl]

theorem readComms_item_eq_singleton (hquote : '"' ∉ rest) (hopen : '(' ∉ rest) :
    readComms (entry.item rest) = [entry.teComm] ↔
      ¬[',', '('] <:+: entry.comm ∧ getEstabComm (entry.item rest) = some entry.teComm := by
  rw [readComms_item hquote hopen]
  by_cases hwhole : [',', '('] <:+: entry.comm
  · rw [if_pos hwhole]
    exact iff_of_false (by simp) fun h => h.1 hwhole
  · rw [if_neg hwhole]
    cases getEstabComm (entry.item rest) <;> simp [hwhole]

theorem readComms_whole (hquote : '"' ∉ rest) (hopen : '(' ∉ rest)
    (hlength : (entry.item (entry.numbers ++ rest)).length < LINE_BUF_LEN) :
    readComms (entry.item (entry.numbers ++ rest)) = [entry.teComm] ↔ entry.Readable := by
  have hquotes : '"' ∉ entry.numbers ++ rest := by
    rw [List.mem_append, not_or]
    exact ⟨entry.quote_notMem_numbers, hquote⟩
  have hopens : '(' ∉ entry.numbers ++ rest := by
    rw [List.mem_append, not_or]
    exact ⟨entry.open_notMem_numbers, hopen⟩
  rw [readComms_item_eq_singleton hquotes hopens]
  constructor
  · rintro ⟨hwhole, hread⟩
    exact (getEstabComm_item hwhole hquote hlength).mp hread
  · intro h
    exact ⟨h.comm_whole, (getEstabComm_item h.comm_whole hquote hlength).mpr h⟩

theorem readComms_cut (hrest : rest <+: entry.numbers) (hcut : rest ≠ entry.numbers)
    (hlength : (entry.item rest).length < LINE_BUF_LEN) :
    readComms (entry.item rest) = [entry.teComm] ↔
      rest ≠ [] ∧ entry.Readable ∧ entry.OwnNumbers := by
  rw [readComms_item_eq_singleton (fun hmem => entry.quote_notMem_numbers (hrest.subset hmem))
    fun hmem => entry.open_notMem_numbers (hrest.subset hmem)]
  constructor
  · rintro ⟨hwhole, hread⟩
    exact (getEstabComm_item_of_cut hwhole hrest hcut hlength).mp hread
  · intro h
    exact ⟨h.2.1.comm_whole, (getEstabComm_item_of_cut h.2.1.comm_whole hrest hcut hlength).mpr h⟩

theorem length_le_joined {front : List UsersEntry} (hentry : entry ∈ front) (last : Text) :
    entry.text.length ≤ (joined front last).length := by
  obtain ⟨before, after, rfl⟩ := List.append_of_mem hentry
  simp only [joined, List.flatMap_append, List.flatMap_cons, List.length_append]
  omega

-- The list that is read is the list there is if each entry is read as it is.
theorem readComms_joined_eq_iff (front : List UsersEntry) (last : UsersEntry) (hquote : '"' ∉ rest)
    (hlength : (joined front (last.item rest)).length < LINE_BUF_LEN) :
    readComms (joined front (last.item rest)) = (front ++ [last]).map UsersEntry.teComm ↔
      (∀ entry ∈ front, entry.Readable) ∧ readComms (last.item rest) = [last.teComm] := by
  have hcount (entry : UsersEntry) (rest : Text) (hquote : '"' ∉ rest) :
      (readComms (entry.item rest)).length ≤ 1 := by
    have hle := length_readComms_le (entry.item rest)
    rw [entry.count_item hquote] at hle
    omega
  have hlast : last.item rest = '(' :: ('"' :: (last.comm ++ '"' :: rest)) := rfl
  rw [hlast, readComms_joined, ← hlast, List.map_append, List.map_singleton, flatMap_append_eq_iff
    (fun entry _ => show (readComms entry.text).length ≤ 1 from
      hcount entry entry.numbers entry.quote_notMem_numbers) (hcount last rest hquote)]
  refine and_congr_left fun _ => forall_congr' fun entry => forall_congr' fun hentry => ?_
  have htext := length_le_joined hentry (last.item rest)
  have hwhole := @readComms_whole entry [] List.not_mem_nil List.not_mem_nil
    (by rw [List.append_nil, ← entry.text_eq_item]; omega)
  rw [List.append_nil] at hwhole
  exact hwhole

end Lists

section Lines

variable (address : Address)

theorem Address.host_ne_nil : address.host ≠ [] := by
  rw [Address.host]
  split
  · exact List.cons_ne_nil _ _
  · exact address.ne_nil

theorem splitLastColon_text :
    splitLastColon address.text = some (address.host, decimalText address.port.toNat) := by
  have hport : ∀ char ∈ (decimalText address.port.toNat).reverse, decide (char ≠ ':') = true := by
    intro char hchar
    refine decide_eq_true ?_
    rintro rfl
    exact notMem_decimalText (by decide) (List.mem_reverse.mp hchar)
  have hback : (address.text.reverse.takeWhile (· ≠ ':')).reverse =
      decimalText address.port.toNat := by
    rw [Address.text, List.reverse_append, List.reverse_cons, List.append_assoc,
      List.takeWhile_append_of_pos hport]
    simp
  have hlength : address.text.length - (decimalText address.port.toNat).length - 1 =
      address.host.length := by
    rw [Address.text, List.length_append, List.length_cons]
    omega
  rw [splitLastColon, if_pos (by simp [Address.text]), hback]
  dsimp only
  rw [hlength, Address.text, List.take_left]

theorem eraseSquareBrackets_host :
    eraseSquareBrackets address.host IP_STR_LEN = if address.ipv6 then some address.ip else none := by
  have hip := address.length_lt
  rw [INET6_ADDRSTRLEN] at hip
  cases hipv6 : address.ipv6 with
  | false =>
      have hopen : strstr ['['] address.host = none := strstr_eq_none_iff.mpr
        (not_infix_of_notMem '[' (by decide) (address.notMem_host (by rw [hipv6]; decide)
          fun h => by rw [hipv6] at h; cases h))
      rw [eraseSquareBrackets, hopen]
      rfl
  | true =>
      have hhost : address.host = '[' :: (address.ip ++ [']']) := by rw [Address.host, if_pos hipv6]
      have hopen : strstr ['['] address.host = some ('[' :: (address.ip ++ [']'])) := by
        rw [hhost]
        exact @strstr_mark ['['] _
      have hskip : ']' ∉ '[' :: address.ip := by
        rw [List.mem_cons, not_or]
        exact ⟨by decide, address.notMem_ip (by rw [hipv6]; decide)⟩
      have hclose : strstr [']'] address.host = some [']'] := by
        rw [hhost, ← List.cons_append, strstr_skip hskip]
        rfl
      have hbehind : behind ['['] address.host = some (address.ip ++ [']']) := by
        rw [hhost]
        exact @behind_mark ['['] _
      have htmp : getSubStr address.host (some ['[']) (some [']']) LINE_BUF_LEN = some address.ip :=
        getSubStr_of_behind hclose hbehind address.ne_nil (by rw [LINE_BUF_LEN]; omega)
      rw [eraseSquareBrackets, hopen, hclose]
      simp only [Option.bind_eq_bind, Option.bind_some, htmp, List.length_cons, List.length_append,
        List.length_nil]
      rw [if_neg (by omega), if_neg (by rw [IP_STR_LEN]; omega)]
      rfl

theorem getEstabAddr_text : getEstabAddr address.text = some address.addr := by
  have hbound := address.port.toNat_lt
  have hport : (decimalText address.port.toNat).length ≤ 5 :=
    length_decimalText_le (by decide) (by omega)
  have hroom : ¬(decimalText address.port.toNat = [] ∨
      PORT_LEN ≤ (decimalText address.port.toNat).length) := by
    rw [not_or, PORT_LEN]
    exact ⟨decimalText_ne_nil _, by omega⟩
  have hatoi : atoi (decimalText address.port.toNat) = address.port.toUInt32 :=
    atoi_decimalText address.port.toUInt32
  rw [getEstabAddr, splitLastColon_text]
  simp only [Option.bind_eq_bind, Option.bind_some, if_neg address.host_ne_nil,
    eraseSquareBrackets_host, if_neg hroom, isDigitStr_decimalText, hatoi, if_true]
  cases hipv6 : address.ipv6 <;> simp [Address.addr, Address.host, hipv6]

theorem getSubStr_front {front rest fin : Text} {bufLen : ℕ}
    (hfin : strstr fin (front ++ rest) = some rest) (hne : front ≠ []) (hlt : front.length < bufLen) :
    getSubStr (front ++ rest) none (some fin) bufLen = some front := by
  have hpos := List.length_pos_iff.mpr hne
  simp only [getSubStr, hfin, Option.bind_eq_bind, Option.bind_some]
  rw [List.length_append, Nat.add_sub_cancel, if_neg (by omega), List.take_left]

theorem Address.text_ne_nil : address.text ≠ [] := by
  rw [Address.text]
  exact List.append_ne_nil_of_right_ne_nil _ (List.cons_ne_nil _ _)

theorem Address.mark_notMem_text {mark : Char} (hmark : mark = '|' ∨ mark = '@') :
    mark ∉ address.text := by
  rcases hmark with rfl | rfl <;>
    exact address.notMem_text (by cases address.ipv6 <;> decide) (fun _ => by decide) (by decide)
      (by decide)

-- Both addresses are read, whatever stands behind them.
theorem getEstab_text (localAddr remote : Address) (users : Text) :
    getEstab (localAddr.text ++ '|' :: (remote.text ++ '@' :: users)) =
      (getSubStr ('@' :: users) (some atUsersMark) none LINE_BUF_LEN).map fun commsStr =>
        ⟨localAddr.addr, remote.addr,
          getEstabComms (commsStr.dropLast.length + 1) commsStr.dropLast []⟩ := by
  have hlocal : getSubStr (localAddr.text ++ '|' :: (remote.text ++ '@' :: users)) none
      (some ['|']) IP_STR_LEN = some localAddr.text := by
    refine getSubStr_front ?_ localAddr.text_ne_nil (localAddr.length_text_lt.trans (by decide))
    rw [strstr_skip (localAddr.mark_notMem_text (.inl rfl))]
    exact @strstr_mark ['|'] _
  have hskip : '@' ∉ localAddr.text ++ '|' :: remote.text := by
    rw [List.mem_append, List.mem_cons, not_or, not_or]
    exact ⟨localAddr.mark_notMem_text (.inr rfl), by decide, remote.mark_notMem_text (.inr rfl)⟩
  have hsplit : localAddr.text ++ '|' :: (remote.text ++ '@' :: users) =
      (localAddr.text ++ '|' :: remote.text) ++ '@' :: users := by
    rw [List.append_assoc, List.cons_append]
  have hremote : getSubStr (localAddr.text ++ '|' :: (remote.text ++ '@' :: users)) (some ['|'])
      (some ['@']) IP_STR_LEN = some remote.text := by
    have hfin : strstr ['@'] (localAddr.text ++ '|' :: (remote.text ++ '@' :: users)) =
        some ('@' :: users) := by
      rw [hsplit, strstr_skip hskip]
      exact @strstr_mark ['@'] _
    have hbehind : behind ['|'] (localAddr.text ++ '|' :: (remote.text ++ '@' :: users)) =
        some (remote.text ++ '@' :: users) := by
      rw [behind_skip (localAddr.mark_notMem_text (.inl rfl))]
      exact @behind_mark ['|'] _
    exact getSubStr_of_behind hfin hbehind remote.text_ne_nil
      (remote.length_text_lt.trans (by decide))
  have hcomms : getSubStr (localAddr.text ++ '|' :: (remote.text ++ '@' :: users))
      (some atUsersMark) none LINE_BUF_LEN =
        getSubStr ('@' :: users) (some atUsersMark) none LINE_BUF_LEN := by
    have hbehind : behind atUsersMark (localAddr.text ++ '|' :: (remote.text ++ '@' :: users)) =
        behind atUsersMark ('@' :: users) := by
      rw [hsplit]
      exact behind_skip hskip ('@' :: users)
    simp only [getSubStr, hbehind]
  rw [getEstab, hlocal, hremote, hcomms]
  simp only [Option.bind_eq_bind, Option.bind_some, getEstabAddr_text]
  cases getSubStr ('@' :: users) (some atUsersMark) none LINE_BUF_LEN <;> rfl

end Lines

section Cuts

variable (front : List UsersEntry) (last : UsersEntry)

theorem joined_item (rest : Text) : joined front (last.item rest) =
    joined front ('(' :: '"' :: last.comm) ++ '"' :: rest := by
  simp [joined, UsersEntry.item]

theorem length_joined_item (rest : Text) : (joined front (last.item rest)).length =
    (joined front ('(' :: '"' :: last.comm)).length + 1 + rest.length := by
  rw [joined_item, List.length_append, List.length_cons]
  omega

-- What is left of the list in a text that ends early. A list that ends in the name of the last
-- entry has too few quotes for all of its entries.
theorem readComms_take_joined {room : ℕ} (hroom : room < LINE_BUF_LEN) :
    readComms ((joined front (last.item (last.numbers ++ [')']))).take room) =
        (front ++ [last]).map UsersEntry.teComm ↔
      (∀ entry ∈ front ++ [last], entry.Readable) ∧
        ((joined front last.text).length ≤ room ∨ last.OwnNumbers ∧
          (joined front last.text).length < room + last.numbers.length) := by
  have htext : (joined front last.text).length =
      (joined front ('(' :: '"' :: last.comm)).length + 1 + last.numbers.length :=
    length_joined_item front last last.numbers
  have hpos : 0 < last.numbers.length := List.length_pos_iff.mpr (List.cons_ne_nil _ _)
  have hmem : (∀ entry ∈ front ++ [last], entry.Readable) ↔
      (∀ entry ∈ front, entry.Readable) ∧ last.Readable := by
    rw [List.forall_mem_append, List.forall_mem_singleton]
  by_cases hname : room ≤ (joined front ('(' :: '"' :: last.comm)).length
  · refine iff_of_false (fun hread => ?_) fun h => ?_
    · have hle := length_readComms_le ((joined front (last.item (last.numbers ++ [')']))).take room)
      have hcount := (List.take_sublist room (joined front ('(' :: '"' :: last.comm))).count_le '"'
      rw [count_joined, List.count_cons_of_ne (by decide), List.count_cons_self,
        List.count_eq_zero_of_not_mem last.noQuote] at hcount
      rw [hread, List.length_map, List.length_append, List.length_singleton, joined_item,
        List.take_append_of_le_length hname] at hle
      omega
    · omega
  obtain ⟨more, rfl⟩ : ∃ more, room = (joined front ('(' :: '"' :: last.comm)).length + (more + 1) :=
    ⟨room - (joined front ('(' :: '"' :: last.comm)).length - 1, by omega⟩
  have htake : (joined front (last.item (last.numbers ++ [')']))).take
      ((joined front ('(' :: '"' :: last.comm)).length + (more + 1)) =
        joined front (last.item ((last.numbers ++ [')']).take more)) := by
    rw [joined_item, List.take_length_add_append, List.take_succ_cons, ← joined_item]
  have hlength : (joined front (last.item ((last.numbers ++ [')']).take more))).length <
      LINE_BUF_LEN := by
    rw [← htake]
    exact (List.length_take_le _ _).trans_lt hroom
  have hitem : (last.item ((last.numbers ++ [')']).take more)).length < LINE_BUF_LEN := by
    rw [joined, List.length_append] at hlength
    omega
  have hquote : '"' ∉ (last.numbers ++ [')']).take more := fun h => by
    have hall := List.mem_of_mem_take h
    rw [List.mem_append, List.mem_singleton] at hall
    exact hall.elim last.quote_notMem_numbers (by decide)
  rw [htake, readComms_joined_eq_iff front last hquote hlength, hmem, and_assoc]
  refine and_congr_right fun _ => ?_
  by_cases hcut : more < last.numbers.length
  · rw [List.take_append_of_le_length (Nat.le_of_lt hcut)] at hitem ⊢
    have hne : last.numbers.take more ≠ last.numbers := fun h => by
      have hsame := congrArg List.length h
      rw [List.length_take] at hsame
      omega
    have hnil : last.numbers.take more ≠ [] ↔ 0 < more := by
      rw [← List.length_pos_iff, List.length_take]
      omega
    rw [readComms_cut (List.take_prefix _ _) hne hitem, hnil]
    constructor
    · rintro ⟨hmore, hreadable, hown⟩
      exact ⟨hreadable, .inr ⟨hown, by omega⟩⟩
    · rintro ⟨hreadable, hlong | ⟨hown, hmore⟩⟩
      · omega
      · exact ⟨by omega, hreadable, hown⟩
  · rw [List.take_append, List.take_of_length_le (by omega)] at hitem ⊢
    have hrest : ∀ char ∈ [')'].take (more - last.numbers.length), char = ')' :=
      fun char hchar => List.mem_singleton.mp (List.mem_of_mem_take hchar)
    rw [readComms_whole (fun h => absurd (hrest _ h) (by decide))
      (fun h => absurd (hrest _ h) (by decide)) hitem]
    exact (and_iff_left (.inl (by omega))).symm

theorem intercalate_joined :
    [','].intercalate ((front ++ [last]).map UsersEntry.text) = joined front last.text := by
  induction front with
  | nil => simp [joined]
  | cons entry front ih =>
      rw [List.cons_append, List.map_cons, List.intercalate_cons_of_ne_nil (by simp), ih]
      simp [joined]

end Cuts

section Pieces

theorem dropLast_take_concat (text : Text) (char : Char) (room : ℕ) :
    ((text ++ [char]).take room).dropLast = text.take (room - 1) := by
  by_cases hroom : room ≤ text.length
  · rw [List.take_append_of_le_length hroom, List.dropLast_eq_take, List.length_take,
      List.take_take]
    congr 1
    omega
  · have hlength : (text ++ [char]).length = text.length + 1 := List.length_append
    rw [List.take_of_length_le (by omega), List.dropLast_concat, List.take_of_length_le (by omega)]

variable (line : EstabLine)

theorem EstabLine.noBreak : '\n' ∉ line.text := by
  have haddress (address : Address) : '\n' ∉ address.text :=
    address.notMem_text (by cases address.ipv6 <;> decide) (fun _ => by decide) (by decide)
      (by decide)
  have husers : '\n' ∉ usersText line.entries := by
    rcases List.eq_nil_or_concat line.entries with hnil | ⟨front, last, hentries⟩
    · rw [hnil]
      exact List.not_mem_nil
    · rw [List.concat_eq_append] at hentries
      rw [hentries, usersText, if_neg (by simp), intercalate_joined]
      simp [joined, UsersEntry.noBreak_text]
  rw [EstabLine.text]
  simp [haddress, husers]

-- The line up to its list.
def EstabLine.front : Text := line.localAddr.text ++ '|' :: (line.remote.text ++ atUsersMark)

theorem EstabLine.length_front_lt : line.front.length < 128 := by
  have hlocal := line.localAddr.length_text_lt
  have hremote := line.remote.length_text_lt
  rw [INET6_ADDRSTRLEN] at hlocal hremote
  rw [EstabLine.front, atUsersMark]
  simp only [List.length_append, List.length_cons, List.length_nil]
  omega

theorem readEstab_text (rest : Text) : readEstab (line.text ++ '\n' :: rest) =
    getEstab ((line.text ++ ['\n']).take (LINE_BUF_LEN - 1)) := by
  obtain ⟨left, hfgets⟩ := fgets_line LINE_BUF_LEN line.noBreak rest
  rw [readEstab, hfgets, Option.bind_some]

variable {line} {front : List UsersEntry} {last : UsersEntry}

theorem EstabLine.text_eq (hentries : line.entries = front ++ [last]) :
    line.text = line.front ++ joined front (last.item (last.numbers ++ [')'])) := by
  rw [EstabLine.text, hentries, usersText, if_neg (by simp), intercalate_joined, EstabLine.front,
    joined_item, last.text_eq_item, joined_item]
  simp [atUsersMark]

-- Without its last character the list ends one character before the buffer does.
theorem readEstab_of_entries (hentries : line.entries = front ++ [last]) (rest : Text) :
    readEstab (line.text ++ '\n' :: rest) = some ⟨line.localAddr.addr, line.remote.addr,
      readComms ((joined front (last.item (last.numbers ++ [')']))).take
        (LINE_BUF_LEN - 2 - line.front.length))⟩ := by
  have hfront := line.length_front_lt
  have hbuf : LINE_BUF_LEN = 512 := rfl
  rw [readEstab_text, line.text_eq hentries]
  generalize hlist : joined front (last.item (last.numbers ++ [')'])) = list
  obtain ⟨after, hafter⟩ : ∃ after, list = '(' :: after := by
    rw [← hlist]
    exact joined_head front _
  have hquotes : (list.take (LINE_BUF_LEN - 2 - line.front.length)).count '"' ≤
      2 * TCP_ESTAB_COMM_MAX := by
    have hnumbers : '"' ∉ last.numbers ++ [')'] := by
      rw [List.mem_append, List.mem_singleton, not_or]
      exact ⟨last.quote_notMem_numbers, by decide⟩
    have hmax := line.length_le
    have hcount := (List.take_sublist (LINE_BUF_LEN - 2 - line.front.length) list).count_le '"'
    rw [← hlist, count_joined, last.count_item hnumbers] at hcount
    rw [hentries, List.length_append, List.length_singleton] at hmax
    rw [← hlist]
    omega
  have hpiece : (line.front ++ list ++ ['\n']).take (LINE_BUF_LEN - 1) =
      line.localAddr.text ++ '|' :: (line.remote.text ++ '@' ::
        (['u', 's', 'e', 'r', 's', ':', '('] ++
          (list ++ ['\n']).take (LINE_BUF_LEN - 1 - line.front.length))) := by
    rw [List.append_assoc, List.take_append, List.take_of_length_le (by omega), EstabLine.front,
      atUsersMark]
    simp
  have hcomms : getSubStr ('@' :: (['u', 's', 'e', 'r', 's', ':', '('] ++
      (list ++ ['\n']).take (LINE_BUF_LEN - 1 - line.front.length))) (some atUsersMark) none
        LINE_BUF_LEN = some ((list ++ ['\n']).take (LINE_BUF_LEN - 1 - line.front.length)) := by
    have hbehind := @behind_mark atUsersMark
      ((list ++ ['\n']).take (LINE_BUF_LEN - 1 - line.front.length))
    have hlength : 0 < ((list ++ ['\n']).take (LINE_BUF_LEN - 1 - line.front.length)).length := by
      rw [List.length_take, List.length_append, List.length_singleton]
      omega
    have hle := List.length_take_le (LINE_BUF_LEN - 1 - line.front.length) (list ++ ['\n'])
    have hmark : '@' :: (['u', 's', 'e', 'r', 's', ':', '('] ++
        (list ++ ['\n']).take (LINE_BUF_LEN - 1 - line.front.length)) =
          atUsersMark ++ (list ++ ['\n']).take (LINE_BUF_LEN - 1 - line.front.length) := rfl
    rw [hmark]
    simp only [getSubStr, hbehind, Option.bind_eq_bind, Option.bind_some, List.length_nil]
    rw [if_neg (by omega), Nat.sub_zero, List.take_length]
  have hroom : LINE_BUF_LEN - 1 - line.front.length - 1 = LINE_BUF_LEN - 2 - line.front.length := by
    omega
  have hstart : (list.take (LINE_BUF_LEN - 2 - line.front.length)).head? ≠ some ',' := by
    rw [hafter, List.head?_take]
    split <;> simp
  have hread := length_readComms_le (list.take (LINE_BUF_LEN - 2 - line.front.length))
  rw [hpiece, getEstab_text, hcomms, Option.map_some, dropLast_take_concat, hroom,
    getEstabComms_eq (Nat.lt_succ_self _) hstart, foldl_addEstabComm _ (Nat.zero_le _),
    List.nil_append, ← readComms, List.take_of_length_le (by omega)]

theorem readEstab_text_iff (line : EstabLine) (rest : Text) :
    readEstab (line.text ++ '\n' :: rest) = some line.estab ↔ line.Readable := by
  rcases List.eq_nil_or_concat line.entries with hnil | ⟨front, last, hentries⟩
  · -- There is nothing behind the mark of the list.
    have hsplit : (line.text ++ ['\n']).take (LINE_BUF_LEN - 1) =
        line.localAddr.text ++ '|' :: (line.remote.text ++ '@' :: ['\n']) := by
      have hfront := line.length_front_lt
      rw [EstabLine.front, atUsersMark] at hfront
      simp only [List.length_append, List.length_cons, List.length_nil] at hfront
      rw [EstabLine.text, hnil, usersText, if_pos rfl, List.take_of_length_le]
      · simp
      · rw [LINE_BUF_LEN]
        simp only [List.length_append, List.length_cons, List.length_nil]
        omega
    have hnone : getSubStr ['@', '\n'] (some atUsersMark) none LINE_BUF_LEN = none := by decide
    rw [readEstab_text, hsplit, getEstab_text, hnone]
    exact iff_of_false (by simp) fun h => h.entries_ne_nil hnil
  · rw [List.concat_eq_append] at hentries
    have hfront := line.length_front_lt
    have hbuf : LINE_BUF_LEN = 512 := rfl
    have hlength : line.text.length =
        line.front.length + ((joined front last.text).length + 1) := by
      rw [line.text_eq hentries, List.length_append, length_joined_item, last.text_eq_item,
        length_joined_item, List.length_append, List.length_singleton]
      omega
    have hestab : line.estab = ⟨line.localAddr.addr, line.remote.addr,
        (front ++ [last]).map UsersEntry.teComm⟩ := by
      rw [EstabLine.estab, hentries]
    rw [readEstab_of_entries hentries, hestab, Option.some_inj, TcpEstab.mk.injEq,
      and_iff_right rfl, and_iff_right rfl, readComms_take_joined front last (by omega)]
    constructor
    · rintro ⟨hreadable, hroom⟩
      refine ⟨by simp [hentries], hentries ▸ hreadable, ?_⟩
      rcases hroom with hroom | ⟨hown, hroom⟩
      · exact .inl (by omega)
      · refine .inr ⟨last, ?_, hown, by omega⟩
        rw [hentries, List.getLast?_concat]
        rfl
    · intro h
      refine ⟨hentries ▸ h.readable, ?_⟩
      rcases h.length_lt with hroom | ⟨other, hother, hown, hroom⟩
      · exact .inl (by omega)
      · rw [hentries, List.getLast?_concat] at hother
        cases hother
        exact .inr ⟨hown, by omega⟩

end Pieces

section Example

def sshAddress : Address where
  ip := ['7', '.', '1', '8', '3', '.', '6', '.', '1', '6', '0']
  ipv6 := false
  port := 22
  chars := by decide
  ne_nil := by decide
  length_lt := by decide

def clientAddress : Address where
  ip := ['1', '0', '.', '1', '3', '6', '.', '1', '1', '5', '.', '2', '0', '8']
  ipv6 := false
  port := 56802
  chars := by decide
  ne_nil := by decide
  length_lt := by decide

def sdPamEntry : UsersEntry :=
  ⟨['(', 's', 'd', '-', 'p', 'a', 'm', ')'], 1264958, 3, by decide, by decide⟩

def sdPamLine : EstabLine := ⟨sshAddress, clientAddress, [sdPamEntry], by decide⟩

-- 7.183.6.160:22|10.136.115.208:56802@users:(("(sd-pam)",pid=1264958,fd=3))
theorem not_readEstab_text : ¬∀ (line : EstabLine) (rest : Text),
    readEstab (line.text ++ '\n' :: rest) = some line.estab := by
  intro h
  have hread := h sdPamLine []
  have hlost : readEstab (sdPamLine.text ++ ['\n']) =
      some ⟨sshAddress.addr, clientAddress.addr, []⟩ := by decide +kernel
  rw [hlost] at hread
  exact absurd hread (by decide +kernel)

end Example

end Gopher.Tcp
