import Gopher.Lib.Ip6Text

namespace Gopher.Common

open Gopher.Lib

def INET6_ADDRSTRLEN : ℕ := 46

-- The 16 bytes `ip6` points to.
abbrev Ip6 := Fin 16 → UInt8

namespace Ip6

-- `ntohs(addr[i])`, the first byte the higher one.
def group (ip6 : Ip6) (i : Fin 8) : ℕ :=
  256 * (ip6 ⟨2 * i, by omega⟩).toNat + (ip6 ⟨2 * i + 1, by omega⟩).toNat

theorem group_bytes (ip6 : Ip6) (i : Fin 8) :
    ip6.group i / 256 = (ip6 ⟨2 * i, by omega⟩).toNat ∧
      ip6.group i % 256 = (ip6 ⟨2 * i + 1, by omega⟩).toNat := by
  have hsecond := (ip6 ⟨2 * i + 1, by omega⟩).toNat_lt
  rw [group]
  omega

theorem ofNat_group (ip6 : Ip6) (i : Fin 8) :
    [UInt8.ofNat (ip6.group i / 256), UInt8.ofNat (ip6.group i)] =
      [ip6 ⟨2 * i, by omega⟩, ip6 ⟨2 * i + 1, by omega⟩] := by
  obtain ⟨hfirst, hsecond⟩ := ip6.group_bytes i
  have hmod : UInt8.ofNat (ip6.group i) = UInt8.ofNat (ip6.group i % 256) := by
    apply UInt8.toNat_inj.mp
    simp
  rw [hmod, hfirst, hsecond, UInt8.ofNat_toNat, UInt8.ofNat_toNat]

-- `NIP6_IS_ADDR_V4MAPPED`, in either byte order.
def IsV4Mapped (ip6 : Ip6) : Prop :=
  ip6.group 0 = 0 ∧ ip6.group 1 = 0 ∧ ip6.group 2 = 0 ∧ ip6.group 3 = 0 ∧ ip6.group 4 = 0 ∧
    ip6.group 5 = 0xffff

instance (ip6 : Ip6) : Decidable ip6.IsV4Mapped :=
  inferInstanceAs (Decidable (_ ∧ _))

end Ip6

-- "%u"
def decimal (n : ℕ) : Text :=
  (toString n).toList

def hexChar (n : ℕ) : Char :=
  "0123456789abcdef".toList.getD n '0'

-- "%04x" of a 16 bit number
def hex4 (n : ℕ) : Text :=
  [hexChar (n / 4096 % 16), hexChar (n / 256 % 16), hexChar (n / 16 % 16), hexChar (n % 16)]

-- "%u.%u.%u.%u"
def quad (first second third fourth : ℕ) : Text :=
  decimal first ++ '.' :: decimal second ++ '.' :: decimal third ++ '.' :: decimal fourth

-- `NIP6_FMT` with `NIP6(addr)`
def nip6 (ip6 : Ip6) : Text :=
  ([ip6.group 0, ip6.group 1, ip6.group 2, ip6.group 3, ip6.group 4, ip6.group 5].flatMap
      fun group => hex4 group ++ [':']) ++
    quad (ip6.group 6 / 256) (ip6.group 6 % 256) (ip6.group 7 / 256) (ip6.group 7 % 256)

-- The loop over `str` from `j` on. `last` is the character written before, none for
-- j = 0. After a first zero some more characters are skipped, and the one that comes
-- then is copied whatever it is.
def compress : (skip : Option ℕ) → (last : Option Char) → Text → Text
  | _, _, [] => []
  | some (skip + 1), last, _ :: str => compress (some skip) last str
  | some 0, _, c :: str => c :: compress none (some c) str
  | none, last, c :: str =>
      if c = '0' ∧ (last = none ∨ last = some ':') then
        compress (some (if str[0]? ≠ some '0' then 0 else if str[1]? ≠ some '0' then 1 else 2))
          last str
      else c :: compress none (some c) str

-- What is left in the array of `ip_str_size` bytes.
def ip6Str (ipStrSize : ℕ) (ip6 : Ip6) : Text :=
  if ip6.IsV4Mapped then
    truncated ipStrSize
      (quad (ip6 12).toNat (ip6 13).toNat (ip6 14).toNat (ip6 15).toNat)
  else compress none none (truncated ipStrSize (nip6 ip6))

namespace Ip6

-- The groups that are printed in hexadecimal.
def hexGroups (ip6 : Ip6) : List ℕ :=
  [ip6.group 0, ip6.group 1, ip6.group 2, ip6.group 3, ip6.group 4, ip6.group 5]

-- The four bytes behind them.
def dotted (ip6 : Ip6) : Text :=
  quad (ip6 12).toNat (ip6 13).toNat (ip6 14).toNat (ip6 15).toNat

-- What the dotted part has become.
def tail (ip6 : Ip6) : Text :=
  if (ip6 12).toNat = 0 then ip6.dotted.drop 1 else ip6.dotted

end Ip6

-- A text denotes an address: as an IPv4 address when it is a mapped one.
def Denotes (text : Text) (ip6 : Ip6) : Prop :=
  if ip6.IsV4Mapped then readQuad text = some [ip6 12, ip6 13, ip6 14, ip6 15]
  else readIp6 text = some (List.ofFn ip6)

-- A group without its leading zeros, but for the last digit.
def stripped (text : Text) : Text :=
  let text := text.dropWhile (· = '0')
  if text = [] then ['0'] else text

theorem hexChar_spec : ∀ n : Fin 16, hexDigitValue (hexChar n) = some n.val ∧
    hexChar n ≠ ':' ∧ (hexChar n = '0' ↔ n.val = 0) := by
  decide

theorem hexDigitValue_hexChar (n : ℕ) : hexDigitValue (hexChar (n % 16)) = some (n % 16) :=
  (hexChar_spec ⟨n % 16, Nat.mod_lt n (by decide)⟩).1

theorem hexChar_ne_colon (n : ℕ) : hexChar (n % 16) ≠ ':' :=
  (hexChar_spec ⟨n % 16, Nat.mod_lt n (by decide)⟩).2.1

theorem decimal_spec : ∀ n : Fin 256, readOctet (decimal n) = some (UInt8.ofNat n.val) ∧
    ':' ∉ decimal n ∧ '.' ∉ decimal n ∧ 0 < (decimal n).length ∧ (decimal n).length ≤ 3 ∧
    ((decimal n).head? = some '0' ↔ n.val = 0) := by
  decide +kernel

theorem compress_of_not_mem {last : Char} (hlast : last ≠ ':') {text : Text}
    (htext : ':' ∉ text) : compress none (some last) text = text := by
  induction text generalizing last with
  | nil => rfl
  | cons c text ih =>
      rw [List.mem_cons, not_or] at htext
      rw [compress, if_neg (by simp [hlast]), ih (Ne.symm htext.1) htext.2]

theorem length_compress_le (skip : Option ℕ) (last : Option Char) (str : Text) :
    (compress skip last str).length ≤ str.length := by
  induction str generalizing skip last with
  | nil => simp [compress]
  | cons c str ih =>
      match skip with
      | some (skip + 1) =>
          rw [compress, List.length_cons]
          exact Nat.le_succ_of_le (ih _ _)
      | some 0 =>
          rw [compress, List.length_cons, List.length_cons]
          exact Nat.succ_le_succ (ih _ _)
      | none =>
          rw [compress, List.length_cons]
          split
          · exact Nat.le_succ_of_le (ih _ _)
          · rw [List.length_cons]
            exact Nat.succ_le_succ (ih _ _)

-- One group at the beginning or behind a colon.
theorem compress_group {last : Option Char} (hlast : last = none ∨ last = some ':') (group : ℕ)
    (rest : Text) :
    compress none last (hex4 group ++ ':' :: rest) =
      stripped (hex4 group) ++ ':' :: compress none (some ':') rest := by
  have hdigits : ∀ a b c d : Char, a ≠ ':' → b ≠ ':' → c ≠ ':' → d ≠ ':' →
      compress none last ([a, b, c, d] ++ ':' :: rest) =
        stripped [a, b, c, d] ++ ':' :: compress none (some ':') rest := by
    intro a b c d ha hb hc hd
    by_cases ha0 : a = '0'
    · by_cases hb0 : b = '0'
      · by_cases hc0 : c = '0'
        · by_cases hd0 : d = '0'
          · simp [compress, stripped, ha0, hb0, hc0, hd0, hlast]
          · simp [compress, stripped, ha0, hb0, hc0, hd0, hd, hlast]
        · simp [compress, stripped, ha0, hb0, hc0, hc, hd, hlast]
      · simp [compress, stripped, ha0, hb0, hb, hc, hd, hlast]
    · simp [compress, stripped, ha0, ha, hb, hc, hd]
  exact hdigits _ _ _ _ (hexChar_ne_colon _) (hexChar_ne_colon _) (hexChar_ne_colon _)
    (hexChar_ne_colon _)

theorem hexValue_dropWhile (text : Text) :
    hexValue 0 (text.dropWhile (· = '0')) = hexValue 0 text := by
  induction text with
  | nil => rfl
  | cons c text ih =>
      by_cases hc : c = '0'
      · subst hc
        exact ih
      · rw [List.dropWhile_cons_of_neg (by simpa using hc)]

theorem hexValue_stripped (text : Text) : hexValue 0 (stripped text) = hexValue 0 text := by
  have hdrop := hexValue_dropWhile text
  unfold stripped
  dsimp only
  split
  case isTrue hempty =>
    rw [hempty] at hdrop
    exact hdrop
  case isFalse => exact hdrop

theorem stripped_spec (group : ℕ) : stripped (hex4 group) ≠ [] ∧
    (stripped (hex4 group)).length ≤ 4 ∧ ':' ∉ stripped (hex4 group) := by
  have hcolon : ':' ∉ hex4 group := by
    simp [hex4, (hexChar_ne_colon _).symm]
  have hsub := List.dropWhile_sublist (· = '0') (l := hex4 group)
  unfold stripped
  dsimp only
  split
  case isTrue => decide
  case isFalse hne => exact ⟨hne, hsub.length_le, fun h => hcolon (hsub.subset h)⟩

theorem readGroup_stripped {group : ℕ} (hgroup : group < 65536) :
    readGroup (stripped (hex4 group)) =
      some [UInt8.ofNat (group / 256), UInt8.ofNat group] := by
  obtain ⟨hne, hlength, -⟩ := stripped_spec group
  have hvalue : hexValue 0 (hex4 group) = some group := by
    simp only [hex4, hexValue, hexDigitValue_hexChar, Option.bind_some]
    congr 1
    omega
  rw [readGroup, if_neg (by simp [hne, hlength]), hexValue_stripped, hvalue]
  rfl

section Quad

variable {first second third fourth : ℕ}

theorem quad_eq_intercalate (first second third fourth : ℕ) :
    quad first second third fourth =
      ['.'].intercalate [decimal first, decimal second, decimal third, decimal fourth] := by
  simp [quad, List.intercalate_cons_of_ne_nil]

variable (hfirst : first < 256) (hsecond : second < 256) (hthird : third < 256)
  (hfourth : fourth < 256)

include hfirst hsecond hthird hfourth

theorem splitOn_quad : (quad first second third fourth).splitOn '.' =
    [decimal first, decimal second, decimal third, decimal fourth] := by
  have hfirst := (decimal_spec ⟨first, hfirst⟩).2.2.1
  have hsecond := (decimal_spec ⟨second, hsecond⟩).2.2.1
  have hthird := (decimal_spec ⟨third, hthird⟩).2.2.1
  have hfourth := (decimal_spec ⟨fourth, hfourth⟩).2.2.1
  rw [quad_eq_intercalate]
  apply List.splitOn_intercalate '.' _ (by simp)
  intro part hpart
  simp only [List.mem_cons, List.not_mem_nil, or_false] at hpart
  rcases hpart with rfl | rfl | rfl | rfl <;> assumption

theorem readQuad_quad : readQuad (quad first second third fourth) =
    some [UInt8.ofNat first, UInt8.ofNat second, UInt8.ofNat third, UInt8.ofNat fourth] := by
  have hfirst' := (decimal_spec ⟨first, hfirst⟩).1
  have hsecond' := (decimal_spec ⟨second, hsecond⟩).1
  have hthird' := (decimal_spec ⟨third, hthird⟩).1
  have hfourth' := (decimal_spec ⟨fourth, hfourth⟩).1
  simp only at hfirst' hsecond' hthird' hfourth'
  simp [readQuad, splitOn_quad hfirst hsecond hthird hfourth, hfirst', hsecond', hthird', hfourth']

theorem colon_not_mem_quad : ':' ∉ quad first second third fourth := by
  have hfirst := (decimal_spec ⟨first, hfirst⟩).2.1
  have hsecond := (decimal_spec ⟨second, hsecond⟩).2.1
  have hthird := (decimal_spec ⟨third, hthird⟩).2.1
  have hfourth := (decimal_spec ⟨fourth, hfourth⟩).2.1
  simp_all [quad]

theorem length_quad : 7 ≤ (quad first second third fourth).length ∧
    (quad first second third fourth).length ≤ 15 := by
  obtain ⟨-, -, -, hfirst, hfirst', -⟩ := decimal_spec ⟨first, hfirst⟩
  obtain ⟨-, -, -, hsecond, hsecond', -⟩ := decimal_spec ⟨second, hsecond⟩
  obtain ⟨-, -, -, hthird, hthird', -⟩ := decimal_spec ⟨third, hthird⟩
  obtain ⟨-, -, -, hfourth, hfourth', -⟩ := decimal_spec ⟨fourth, hfourth⟩
  simp only [quad, List.length_append, List.length_cons] at *
  omega

-- A text without its first number is no address.
theorem readGroup_drop_quad (hzero : first = 0) :
    (readGroup ((quad first second third fourth).drop 1)).or
      (readQuad ((quad first second third fourth).drop 1)) = none := by
  have hlength := length_quad hfirst hsecond hthird hfourth
  have hsplit : ((quad first second third fourth).drop 1).splitOn '.' =
      [[], decimal second, decimal third, decimal fourth] := by
    have hwhole := splitOn_quad hfirst hsecond hthird hfourth
    subst hzero
    have hdrop : (quad 0 second third fourth).drop 1 =
        [] ++ '.' :: (decimal second ++ '.' :: decimal third ++ '.' :: decimal fourth) := by
      simp [quad, decimal]
    have hquad : quad 0 second third fourth =
        decimal 0 ++ '.' :: (decimal second ++ '.' :: decimal third ++ '.' :: decimal fourth) := by
      simp [quad]
    rw [hquad, List.splitOn_append_cons_self_of_not_mem (by decide)] at hwhole
    rw [hdrop, List.splitOn_append_cons_self_of_not_mem List.not_mem_nil, (List.cons.inj hwhole).2]
  have hgroup : readGroup ((quad first second third fourth).drop 1) = none :=
    if_pos (.inr (by rw [List.length_drop]; omega))
  have hempty : readOctet [] = none := if_pos (.inl rfl)
  rw [hgroup, Option.none_or, readQuad, hsplit]
  simp only [hempty]
  rfl

-- At the end of the text a first number 0 is taken for a leading zero.
theorem compress_quad {last : Option Char} (hlast : last = none ∨ last = some ':') :
    compress none last (quad first second third fourth) =
      if first = 0 then (quad first second third fourth).drop 1
      else quad first second third fourth := by
  have hcolon := colon_not_mem_quad hfirst hsecond hthird hfourth
  have hhead := (decimal_spec ⟨first, hfirst⟩).2.2.2.2.2
  by_cases hzero : first = 0
  · rw [if_pos hzero]
    subst hzero
    have hquad : quad 0 second third fourth =
        '0' :: '.' :: (decimal second ++ '.' :: decimal third ++ '.' :: decimal fourth) := by
      simp [quad, decimal]
    rw [hquad] at hcolon ⊢
    simp only [List.mem_cons, not_or] at hcolon
    rw [compress, if_pos ⟨rfl, hlast⟩]
    simp only [List.getElem?_cons_zero, Option.some.injEq, Char.reduceEq, ne_eq, not_false_eq_true,
      if_true, List.drop_one, List.tail_cons, compress]
    rw [compress_of_not_mem (by decide) hcolon.2.2]
  · rw [if_neg hzero]
    cases hquad : quad first second third fourth with
    | nil => rfl
    | cons c text =>
        have hc : c ≠ '0' := by
          rintro rfl
          apply hzero
          apply hhead.mp
          cases hdecimal : decimal first with
          | nil => simp [quad, hdecimal] at hquad
          | cons d rest =>
              rw [quad, hdecimal, List.cons_append] at hquad
              simp [(List.cons.inj hquad).1]
        rw [hquad, List.mem_cons, not_or] at hcolon
        rw [compress, if_neg fun h => hc h.1,
          compress_of_not_mem (Ne.symm hcolon.1) hcolon.2]

end Quad

namespace Ip6

theorem group_lt (ip6 : Ip6) (i : Fin 8) : ip6.group i < 65536 := by
  have hfirst := (ip6 ⟨2 * i, by omega⟩).toNat_lt
  have hsecond := (ip6 ⟨2 * i + 1, by omega⟩).toNat_lt
  rw [group]
  omega

end Ip6

theorem nip6_eq (ip6 : Ip6) :
    nip6 ip6 = (ip6.hexGroups.flatMap fun group => hex4 group ++ [':']) ++ ip6.dotted := by
  rw [nip6, (ip6.group_bytes 6).1, (ip6.group_bytes 6).2, (ip6.group_bytes 7).1,
    (ip6.group_bytes 7).2]
  rfl

-- The hexadecimal groups, whatever comes behind them.
theorem compress_groups (groups : List ℕ) {last : Option Char}
    (hlast : last = none ∨ last = some ':') (rest : Text) :
    ∃ next, (next = none ∨ next = some ':') ∧
      compress none last ((groups.flatMap fun group => hex4 group ++ [':']) ++ rest) =
        (groups.flatMap fun group => stripped (hex4 group) ++ [':']) ++
          compress none next rest := by
  induction groups generalizing last with
  | nil => exact ⟨last, hlast, rfl⟩
  | cons group groups ih =>
      obtain ⟨next, hnext, hrest⟩ := ih (.inr rfl)
      refine ⟨next, hnext, ?_⟩
      have hgroup := compress_group hlast group
        ((groups.flatMap fun group => hex4 group ++ [':']) ++ rest)
      simp only [List.flatMap_cons, List.append_assoc, List.cons_append,
        List.nil_append]
      rw [hgroup, hrest]

theorem intercalate_concat_colon (parts : List Text) (last : Text) :
    [':'].intercalate (parts ++ [last]) = (parts.flatMap (· ++ [':'])) ++ last := by
  induction parts with
  | nil => simp
  | cons part parts ih =>
      rw [List.cons_append, List.intercalate_cons_of_ne_nil (by simp), ih]
      simp

theorem compress_nip6 (ip6 : Ip6) :
    compress none none (nip6 ip6) =
      [':'].intercalate (ip6.hexGroups.map (stripped ∘ hex4) ++ [ip6.tail]) := by
  obtain ⟨next, hnext, hgroups⟩ := compress_groups ip6.hexGroups (.inl rfl) ip6.dotted
  rw [nip6_eq, hgroups, Ip6.dotted, compress_quad (ip6 12).toNat_lt (ip6 13).toNat_lt
    (ip6 14).toNat_lt (ip6 15).toNat_lt hnext, intercalate_concat_colon, List.flatMap_map]
  rfl

theorem length_nip6 (ip6 : Ip6) : (nip6 ip6).length < INET6_ADDRSTRLEN := by
  have hlength := (length_quad (ip6 12).toNat_lt (ip6 13).toNat_lt (ip6 14).toNat_lt
    (ip6 15).toNat_lt).2
  rw [nip6_eq, List.length_append, Ip6.dotted, INET6_ADDRSTRLEN]
  simp [Ip6.hexGroups, hex4]
  omega

theorem readIp6_compressed (ip6 : Ip6) :
    readIp6 (compress none none (nip6 ip6)) =
      if (ip6 12).toNat = 0 then none else some (List.ofFn ip6) := by
  have htwelve := (ip6 12).toNat_lt
  have hthirteen := (ip6 13).toNat_lt
  have hfourteen := (ip6 14).toNat_lt
  have hfifteen := (ip6 15).toNat_lt
  have hcolon := colon_not_mem_quad htwelve hthirteen hfourteen hfifteen
  have hlength := length_quad htwelve hthirteen hfourteen hfifteen
  have htail : ip6.tail ≠ [] ∧ ':' ∉ ip6.tail := by
    rw [Ip6.tail, Ip6.dotted]
    split
    · refine ⟨?_, fun h => hcolon (List.mem_of_mem_drop h)⟩
      rw [← List.length_pos_iff, List.length_drop]
      omega
    · refine ⟨?_, hcolon⟩
      rw [← List.length_pos_iff]
      omega
  have hparts : ∀ part ∈ ip6.hexGroups.map (stripped ∘ hex4) ++ [ip6.tail],
      part ≠ [] ∧ ':' ∉ part := by
    intro part hpart
    rcases List.mem_append.mp hpart with hpart | hpart
    · obtain ⟨group, -, rfl⟩ := List.mem_map.mp hpart
      obtain ⟨hne, -, hclean⟩ := stripped_spec group
      exact ⟨hne, hclean⟩
    · rw [List.mem_singleton.mp hpart]
      exact htail
  have hread : List.Forall₂ (fun part bytes => readGroup part = some bytes)
      (ip6.hexGroups.map (stripped ∘ hex4))
      (ip6.hexGroups.map fun group => [UInt8.ofNat (group / 256), UInt8.ofNat group]) := by
    rw [List.forall₂_map_left_iff, List.forall₂_map_right_iff, List.forall₂_same]
    intro group hgroup
    apply readGroup_stripped
    simp only [Ip6.hexGroups, List.mem_cons, List.not_mem_nil, or_false] at hgroup
    rcases hgroup with rfl | rfl | rfl | rfl | rfl | rfl <;> exact ip6.group_lt _
  rw [compress_nip6, readIp6_intercalate (by simp) hparts, readGroups_append_quad hread, Ip6.tail]
  by_cases hzero : (ip6 12).toNat = 0
  · rw [if_pos hzero, if_pos hzero, Ip6.dotted,
      readGroup_drop_quad htwelve hthirteen hfourteen hfifteen hzero]
    rfl
  · have hgroup : readGroup ip6.dotted = none := if_pos (.inr (by rw [Ip6.dotted]; omega))
    rw [if_neg hzero, if_neg hzero, hgroup, Option.none_or, Ip6.dotted,
      readQuad_quad htwelve hthirteen hfourteen hfifteen]
    simp only [Ip6.hexGroups, List.map_cons, List.map_nil, Ip6.ofNat_group, UInt8.ofNat_toNat]
    rfl

-- For every address and every array at least as large as the callers' own, the text
-- fits, and it denotes the address exactly when the number behind the groups, where
-- there are any, is not a zero.
theorem ip6Str_denotes_iff (ip6 : Ip6) {ipStrSize : ℕ} (hsize : INET6_ADDRSTRLEN ≤ ipStrSize) :
    (ip6Str ipStrSize ip6).length < INET6_ADDRSTRLEN ∧
      (Denotes (ip6Str ipStrSize ip6) ip6 ↔ ip6.IsV4Mapped ∨ ip6 12 ≠ 0) := by
  have htwelve := (ip6 12).toNat_lt
  have hthirteen := (ip6 13).toNat_lt
  have hfourteen := (ip6 14).toNat_lt
  have hfifteen := (ip6 15).toNat_lt
  by_cases hmapped : ip6.IsV4Mapped
  · have hlength := (length_quad htwelve hthirteen hfourteen hfifteen).2
    have hwhole : ip6Str ipStrSize ip6 =
        quad (ip6 12).toNat (ip6 13).toNat (ip6 14).toNat (ip6 15).toNat := by
      rw [ip6Str, if_pos hmapped]
      apply List.take_of_length_le
      rw [INET6_ADDRSTRLEN] at hsize
      omega
    rw [hwhole, Denotes, if_pos hmapped, readQuad_quad htwelve hthirteen hfourteen hfifteen]
    refine ⟨?_, by simp [hmapped]⟩
    rw [INET6_ADDRSTRLEN]
    omega
  · have hlength := length_nip6 ip6
    have hwhole : ip6Str ipStrSize ip6 = compress none none (nip6 ip6) := by
      rw [ip6Str, if_neg hmapped, truncated, List.take_of_length_le (by omega)]
    have hzero : (ip6 12).toNat = 0 ↔ ip6 12 = 0 := by
      rw [← UInt8.toNat_inj]
      rfl
    rw [hwhole, Denotes, if_neg hmapped, readIp6_compressed]
    refine ⟨?_, ?_⟩
    · exact Nat.lt_of_le_of_lt (length_compress_le none none _) hlength
    · by_cases htwelve : ip6 12 = 0
      · simp [htwelve, hmapped]
      · simp [htwelve, hzero]

-- 2001:db8::b00:1
def documentationIp6 : Ip6 := fun i =>
  [0x20, 0x01, 0x0d, 0xb8, 0, 0, 0, 0, 0, 0, 0, 0, 0x0b, 0, 0, 1].getD i 0

-- 2001:db8::1
def smallIp6 : Ip6 := fun i =>
  [0x20, 0x01, 0x0d, 0xb8, 0, 0, 0, 0, 0, 0, 0, 0, 0, 0, 0, 1].getD i 0

theorem ip6Str_denotes_documentation :
    Denotes (ip6Str INET6_ADDRSTRLEN documentationIp6) documentationIp6 :=
  (ip6Str_denotes_iff documentationIp6 (Nat.le_refl _)).2.mpr (.inr (by decide))

theorem ip6Str_loses_zero :
    ip6Str INET6_ADDRSTRLEN smallIp6 = "2001:db8:0:0:0:0:.0.0.1".toList ∧
      ¬ Denotes (ip6Str INET6_ADDRSTRLEN smallIp6) smallIp6 := by
  have htext : ip6Str INET6_ADDRSTRLEN smallIp6 = "2001:db8:0:0:0:0:.0.0.1".toList := by
    decide +kernel
  refine ⟨htext, ?_⟩
  rw [htext, Denotes]
  decide +kernel

end Gopher.Common
