import Gopher.Tcp.SubStr
import Mathlib.Data.UInt

-- The lines of `ss` as the comments of the source show them.

namespace Gopher.Tcp

open Gopher.Lib

def INET6_ADDRSTRLEN : ℕ := 48

def addressMarks : List Char := ['a', 'b', 'c', 'd', 'e', 'f', 'A', 'B', 'C', 'D', 'E', 'F', '.', '*']

def isAddressChar (ipv6 : Bool) (char : Char) : Bool :=
  char.isDigit || addressMarks.contains char || (ipv6 && char = ':')

-- An IPv6 address stands in square brackets.
structure Address where
  ip : Text
  ipv6 : Bool
  port : UInt16
  chars : ∀ char ∈ ip, isAddressChar ipv6 char = true
  ne_nil : ip ≠ []
  length_lt : ip.length < INET6_ADDRSTRLEN

def Address.host (address : Address) : Text :=
  if address.ipv6 then '[' :: (address.ip ++ [']']) else address.ip

def Address.text (address : Address) : Text :=
  address.host ++ ':' :: decimalText address.port.toNat

structure UsersEntry where
  comm : Text
  pid : UInt32
  fd : UInt32
  noQuote : '"' ∉ comm
  noBreak : '\n' ∉ comm

-- What follows the name.
def UsersEntry.numbers (entry : UsersEntry) : Text :=
  [',', 'p', 'i', 'd', '='] ++ decimalText entry.pid.toNat ++
    ([',', 'f', 'd', '='] ++ decimalText entry.fd.toNat ++ [')'])

def UsersEntry.text (entry : UsersEntry) : Text :=
  '(' :: '"' :: (entry.comm ++ '"' :: entry.numbers)

-- `users:` and the list in brackets; sockets without a process have none.
def usersText (entries : List UsersEntry) : Text :=
  if entries = [] then []
  else ['u', 's', 'e', 'r', 's', ':', '('] ++ [','].intercalate (entries.map UsersEntry.text) ++ [')']

section Addresses

variable (address : Address)

theorem Address.notMem_ip {char : Char} (hchar : isAddressChar address.ipv6 char = false) :
    char ∉ address.ip := fun hmem => by
  rw [address.chars char hmem] at hchar
  cases hchar

end Addresses

section Numbers

variable {char : Char} {pid fd rest : Text}

theorem isDigit_of_mem_decimalText {n : ℕ} (hchar : char ∈ decimalText n) : char.isDigit = true := by
  rw [decimalText, if_neg (by omega)] at hchar
  exact isDigit_of_mem_toDigits hchar

theorem notMem_decimalText {n : ℕ} (hchar : char.isDigit = false) : char ∉ decimalText n :=
  fun hmem => by
    rw [isDigit_of_mem_decimalText hmem] at hchar
    cases hchar

theorem isDigitStr_decimalText (n : ℕ) : isDigitStr (decimalText n) = true := by
  rw [isDigitStr, List.all_eq_true]
  exact fun char hchar => isDigit_of_mem_decimalText hchar

theorem length_decimalText_le {n k : ℕ} (hk : 0 < k) (h : n < 10 ^ k) :
    (decimalText n).length ≤ k := by
  rw [decimalText, if_neg (by omega), Int.natAbs_natCast]
  exact (Nat.length_toDigits_le_iff (by decide) hk).mpr h

theorem atoi_decimalText (n : UInt32) : atoi (decimalText n.toNat) = n := by
  have hbound := n.toNat_lt
  have hread : atoll (decimalText n.toNat ++ []) = clampS64 n.toNat :=
    atoll_decimalText (n.toNat : ℤ) (by simp)
  have hmod : ((n.toNat : ℤ) % 2 ^ 32).toNat = n.toNat := by omega
  rw [List.append_nil, clampS64_of_mem (by omega) (by omega)] at hread
  rw [atoi, hread, UInt32.ofInt, hmod]
  exact UInt32.ofNat_toNat

-- What stands behind a name, with the numbers as texts.
def numbersText (pid fd rest : Text) : Text :=
  [',', 'p', 'i', 'd', '='] ++ (pid ++ ([',', 'f', 'd', '='] ++ (fd ++ ')' :: rest)))

theorem UsersEntry.numbers_append (entry : UsersEntry) (rest : Text) : entry.numbers ++ rest =
    numbersText (decimalText entry.pid.toNat) (decimalText entry.fd.toNat) rest := by
  rw [UsersEntry.numbers, numbersText]
  simp only [List.append_assoc, List.singleton_append]

variable (hpid : ∀ char ∈ pid, char.isDigit = true) (hfd : ∀ char ∈ fd, char.isDigit = true)

theorem notMem_of_isDigit (hchar : char.isDigit = false) (hpid : ∀ char ∈ pid, char.isDigit = true) :
    char ∉ pid := fun hmem => by
  rw [hpid char hmem] at hchar
  cases hchar

theorem behind_pid_numbersText : behind ['p', 'i', 'd', '='] (numbersText pid fd rest) =
    some (pid ++ ([',', 'f', 'd', '='] ++ (fd ++ ')' :: rest))) := by
  have hfront : numbersText pid fd rest = [','] ++ (['p', 'i', 'd', '='] ++
      (pid ++ ([',', 'f', 'd', '='] ++ (fd ++ ')' :: rest)))) := rfl
  rw [hfront, behind_skip (by decide), behind_mark]

include hpid

-- The mark in front of the second number, whatever follows its first characters.
theorem strstr_fd_numbersText (mark : Text) (hmark : ',' :: 'f' :: mark <+: [',', 'f', 'd', '=']) :
    strstr (',' :: 'f' :: mark) (numbersText pid fd rest) =
      some ([',', 'f', 'd', '='] ++ (fd ++ ')' :: rest)) := by
  have hfront : numbersText pid fd rest = ',' :: (['p', 'i', 'd', '='] ++ pid ++
      ([',', 'f', 'd', '='] ++ (fd ++ ')' :: rest))) := by
    simp [numbersText]
  have hfirst : (',' :: 'f' :: mark).isPrefixOf (',' :: (['p', 'i', 'd', '='] ++ pid ++
      ([',', 'f', 'd', '='] ++ (fd ++ ')' :: rest)))) = false := by
    simp [List.isPrefixOf]
  have hskip : ',' ∉ ['p', 'i', 'd', '='] ++ pid := by
    rw [List.mem_append, not_or]
    exact ⟨by decide, notMem_of_isDigit (by decide) hpid⟩
  obtain ⟨behind, hbehind⟩ := hmark
  rw [hfront, strstr, hfirst, if_neg Bool.false_ne_true, strstr_skip hskip, ← hbehind,
    List.append_assoc]
  exact strstr_mark _

theorem behind_fd_numbersText : behind ['f', 'd', '='] (numbersText pid fd rest) =
    some (fd ++ ')' :: rest) := by
  have hfront : numbersText pid fd rest = ([',', 'p', 'i', 'd', '='] ++ pid ++ [',']) ++
      (['f', 'd', '='] ++ (fd ++ ')' :: rest)) := by
    simp [numbersText]
  have hskip : 'f' ∉ [',', 'p', 'i', 'd', '='] ++ pid ++ [','] := by
    rw [List.mem_append, List.mem_append, not_or, not_or]
    exact ⟨⟨by decide, notMem_of_isDigit (by decide) hpid⟩, by decide⟩
  rw [hfront, behind_skip hskip, behind_mark]

theorem behind_commaFd_numbersText : behind [',', 'f', 'd', '='] (numbersText pid fd rest) =
    some (fd ++ ')' :: rest) := by
  rw [behind, strstr_fd_numbersText hpid _ (List.prefix_refl _)]
  rfl

include hfd

theorem strstr_close_numbersText (mark : Text) : strstr (')' :: mark) (numbersText pid fd rest) =
    strstr (')' :: mark) (')' :: rest) := by
  have hfront : numbersText pid fd rest =
      ([',', 'p', 'i', 'd', '='] ++ pid ++ ([',', 'f', 'd', '='] ++ fd)) ++ ')' :: rest := by
    simp [numbersText]
  have hskip : ')' ∉ [',', 'p', 'i', 'd', '='] ++ pid ++ ([',', 'f', 'd', '='] ++ fd) := by
    rw [List.mem_append, List.mem_append, List.mem_append, not_or, not_or, not_or]
    exact ⟨⟨by decide, notMem_of_isDigit (by decide) hpid⟩, by decide,
      notMem_of_isDigit (by decide) hfd⟩
  rw [hfront, strstr_skip hskip]

end Numbers

theorem UsersEntry.quote_notMem_numbers (entry : UsersEntry) : '"' ∉ entry.numbers := by
  simp [UsersEntry.numbers, notMem_decimalText (show '"'.isDigit = false by decide)]

theorem UsersEntry.noBreak_text (entry : UsersEntry) : '\n' ∉ entry.text := by
  simp [UsersEntry.text, UsersEntry.numbers, entry.noBreak,
    notMem_decimalText (show '\n'.isDigit = false by decide)]

section Digits

variable (entry : UsersEntry) (rest : Text)

theorem decimalText_u32_lt (n : UInt32) : (decimalText n.toNat).length < 32 := by
  have hbound := n.toNat_lt
  have hlength : (decimalText n.toNat).length ≤ 10 :=
    length_decimalText_le (by decide) (by omega)
  omega

-- The first number is found in front of the mark of the second.
theorem digitsBetween_pid (mark : Text) (hmark : ',' :: 'f' :: mark <+: [',', 'f', 'd', '=']) :
    digitsBetween (entry.numbers ++ rest) ['p', 'i', 'd', '='] (',' :: 'f' :: mark) PID_LEN =
      some (decimalText entry.pid.toNat) := by
  have hpid : ∀ char ∈ decimalText entry.pid.toNat, char.isDigit = true :=
    fun char hchar => isDigit_of_mem_decimalText hchar
  rw [entry.numbers_append]
  exact digitsBetween_eq_some (getSubStr_of_behind (strstr_fd_numbersText hpid mark hmark)
    behind_pid_numbersText (decimalText_ne_nil _) (decimalText_u32_lt _)) (isDigitStr_decimalText _)

end Digits

section Texts

variable (address : Address) {char : Char}

theorem Address.notMem_host (hchar : isAddressChar address.ipv6 char = false)
    (hbracket : address.ipv6 = true → char ≠ '[' ∧ char ≠ ']') : char ∉ address.host := by
  have hip := address.notMem_ip hchar
  rw [Address.host]
  split
  case isTrue hipv6 =>
    obtain ⟨hopen, hclose⟩ := hbracket hipv6
    simp [hip, hopen, hclose]
  case isFalse => exact hip

theorem Address.notMem_text (hchar : isAddressChar address.ipv6 char = false)
    (hbracket : address.ipv6 = true → char ≠ '[' ∧ char ≠ ']') (hcolon : char ≠ ':')
    (hdigit : char.isDigit = false) : char ∉ address.text := by
  rw [Address.text, List.mem_append, List.mem_cons, not_or, not_or]
  exact ⟨address.notMem_host hchar hbracket, hcolon, notMem_decimalText hdigit⟩

theorem Address.length_text_lt : address.text.length < INET6_ADDRSTRLEN + 8 := by
  have hip := address.length_lt
  have hport : (decimalText address.port.toNat).length ≤ 5 :=
    length_decimalText_le (by decide) (by have := address.port.toNat_lt; omega)
  have hhost : address.host.length ≤ address.ip.length + 2 := by
    rw [Address.host]
    split
    · simp
    · omega
  rw [Address.text, List.length_append, List.length_cons]
  omega

-- A mark with a character that a text does not have is not in the text.
theorem not_infix_of_notMem (char : Char) {mark text : Text} (hmark : char ∈ mark) (htext : char ∉ text) :
    ¬mark <:+: text := fun h => htext (h.subset hmark)

end Texts

end Gopher.Tcp
