import Gopher.Lib.Words

namespace Gopher.SystemInfos

open Lib

-- The `int` that is left of the `long` of `strtol`.
def atoi (text : Text) : ℤ := (BitVec.ofInt 32 (atoll text)).toInt

def parseNetmask (ipAddr : Text) : ℤ :=
  match ipAddr.dropWhile (· ≠ '/') with
  | [] => 32
  | _ :: digits => if atoi digits > 32 then 0 else atoi digits

-- The values that `sscanf` stores for a format "%d.%d" and so on with `count` conversions.
def sscanfDotted : (count : ℕ) → Text → List (BitVec 32)
  | 0, _ => []
  | count + 1, text =>
      match scanNumber (text.dropWhile isBlank) with
      | none => []
      | some (n, rest) =>
          BitVec.ofInt 32 (clampS64 n) ::
            if rest.head? = some '.' then sscanfDotted count rest.tail else []

-- The loop over the octets. `mask` is what they leave of the length of the prefix.
def sameOctets : (mask : ℤ) → List (BitVec 32 × BitVec 32) → Bool
  | _, [] => true
  | mask, (ip, net) :: rest =>
      let temp := BitVec.ofInt 32 (if mask - 8 > 0 then 8 else if mask > 0 then mask else 0)
      if ip &&& temp ≠ net &&& temp then false else sameOctets (mask - 8) rest

def checkIpInNetSegment (ipStr netStr : Text) : Bool :=
  let ips := sscanfDotted 4 ipStr
  let nets := sscanfDotted 4 netStr
  if ips.length < 4 then false
  else if nets.length < 4 then false
  else sameOctets (parseNetmask netStr) (ips.zip nets)

-- A number below `bound` in decimal digits, with leading zeros or without.
structure NumberText (bound : ℕ) where
  digits : Text
  ne_nil : digits ≠ []
  isDigit : ∀ char ∈ digits, char.isDigit = true
  lt : Nat.ofDigitChars 10 digits 0 < bound

namespace NumberText

variable {bound : ℕ} {rest : Text}

def value (number : NumberText bound) : ℕ := Nat.ofDigitChars 10 number.digits 0

theorem exists_cons (number : NumberText bound) :
    ∃ char digits, number.digits = char :: digits ∧ char.isDigit = true := by
  obtain ⟨char, digits, hdigits⟩ := List.exists_cons_of_ne_nil number.ne_nil
  exact ⟨char, digits, hdigits, number.isDigit char (hdigits ▸ List.mem_cons_self)⟩

theorem dropWhile_blank (number : NumberText bound) (rest : Text) :
    (number.digits ++ rest).dropWhile isBlank = number.digits ++ rest := by
  obtain ⟨char, digits, hdigits, hchar⟩ := number.exists_cons
  rw [hdigits, List.cons_append,
    List.dropWhile_cons_of_neg (by simp [isBlank_of_isDigit hchar])]

theorem splitSign_digits (number : NumberText bound) (rest : Text) :
    splitSign (number.digits ++ rest) = (1, number.digits ++ rest) := by
  obtain ⟨char, digits, hdigits, hchar⟩ := number.exists_cons
  have hminus : char ≠ '-' := by
    rintro rfl
    exact absurd hchar (by decide)
  have hplus : char ≠ '+' := by
    rintro rfl
    exact absurd hchar (by decide)
  rw [hdigits, List.cons_append, splitSign, if_neg hminus, if_neg hplus]

theorem scanNumber_eq (number : NumberText bound)
    (hrest : ∀ char ∈ rest.head?, char.isDigit = false) :
    scanNumber (number.digits ++ rest) = some ((number.value : ℤ), rest) := by
  have htake : (number.digits ++ rest).takeWhile Char.isDigit = number.digits := by
    rw [List.takeWhile_append_of_pos number.isDigit, List.takeWhile_eq_nil_iff.mpr,
      List.append_nil]
    intro hpos
    rw [hrest _ (List.head?_eq_getElem? ▸ List.getElem?_eq_getElem hpos)]
    exact Bool.false_ne_true
  have hdrop : (number.digits ++ rest).dropWhile Char.isDigit = rest := by
    rw [List.dropWhile_append_of_pos number.isDigit]
    cases rest with
    | nil => rfl
    | cons char rest => exact List.dropWhile_cons_of_neg (by simp [hrest char rfl])
  simp only [scanNumber, splitSign_digits, htake, hdrop, if_neg number.ne_nil, Int.one_mul]
  rfl

theorem clampS64_value (number : NumberText bound) (hbound : bound ≤ 2 ^ 31) :
    clampS64 number.value = number.value := by
  have hlt : number.value < bound := number.lt
  exact clampS64_of_mem (by omega) (by omega)

theorem atoi_eq (number : NumberText bound) (hbound : bound ≤ 2 ^ 31) :
    atoi number.digits = number.value := by
  have hlt : number.value < bound := number.lt
  have hscan : scanNumber (number.digits ++ []) = some ((number.value : ℤ), []) :=
    number.scanNumber_eq (by simp)
  rw [List.append_nil] at hscan
  have hskip := number.dropWhile_blank []
  rw [List.append_nil] at hskip
  rw [atoi, atoll, hskip, hscan]
  dsimp only
  rw [number.clampS64_value hbound, BitVec.toInt_ofInt, Int.bmod_eq_of_le (by omega) (by omega)]

end NumberText

-- "a.b.c.d"
structure Ip4Text where
  first : NumberText 256
  second : NumberText 256
  third : NumberText 256
  fourth : NumberText 256

namespace Ip4Text

def text (ip : Ip4Text) : Text :=
  ip.first.digits ++ '.' :: (ip.second.digits ++ '.' :: (ip.third.digits ++
    '.' :: ip.fourth.digits))

def octets (ip : Ip4Text) : List (BitVec 8) :=
  [BitVec.ofNat 8 ip.first.value, BitVec.ofNat 8 ip.second.value,
    BitVec.ofNat 8 ip.third.value, BitVec.ofNat 8 ip.fourth.value]

@[simp] theorem length_octets (ip : Ip4Text) : ip.octets.length = 4 := rfl

def octet (ip : Ip4Text) (i : ℕ) : BitVec 8 := ip.octets.getD i 0

def address (ip : Ip4Text) : BitVec 32 := ip.octet 0 ++ ip.octet 1 ++ ip.octet 2 ++ ip.octet 3

theorem address_getMsbD (ip : Ip4Text) {i j : ℕ} (hi : i < 4) (hj : j < 8) :
    ip.address.getMsbD (8 * i + j) = (ip.octet i).getMsbD j := by
  obtain rfl | rfl | rfl | rfl : i = 0 ∨ i = 1 ∨ i = 2 ∨ i = 3 := by omega
  all_goals
    simp only [address, BitVec.getMsbD_append]
    split_ifs
    all_goals first | omega | (congr 1; omega)

end Ip4Text

-- "a.b.c.d/m", or without the last part.
structure NetText where
  ip : Ip4Text
  suffix : Option (NumberText 33)

namespace NetText

def text (net : NetText) : Text :=
  net.ip.text ++
    match net.suffix with
    | none => []
    | some number => '/' :: number.digits

def prefixLen (net : NetText) : ℕ :=
  match net.suffix with
  | none => 32
  | some number => number.value

end NetText

section Scan

variable {rest : Text}

-- An octet as the `int` it is stored in.
def int (octet : BitVec 8) : BitVec 32 := octet.setWidth 32

theorem sscanfDotted_number (number : NumberText 256) (count : ℕ)
    (hrest : ∀ char ∈ rest.head?, char.isDigit = false) :
    sscanfDotted (count + 1) (number.digits ++ rest) =
      int (BitVec.ofNat 8 number.value) ::
        if rest.head? = some '.' then sscanfDotted count rest.tail else [] := by
  have hlt : number.value < 256 := number.lt
  have hstored : BitVec.ofInt 32 (clampS64 number.value) = int (BitVec.ofNat 8 number.value) := by
    rw [number.clampS64_value (by decide)]
    apply BitVec.eq_of_toNat_eq
    rw [int, BitVec.ofInt_natCast, BitVec.toNat_setWidth, BitVec.toNat_ofNat, BitVec.toNat_ofNat]
    omega
  rw [sscanfDotted, number.dropWhile_blank, number.scanNumber_eq hrest]
  dsimp only
  rw [hstored]

theorem sscanfDotted_text (ip : Ip4Text) (hrest : ∀ char ∈ rest.head?, char.isDigit = false) :
    sscanfDotted 4 (ip.text ++ rest) = ip.octets.map int := by
  have hdot : ∀ text : Text, ∀ char ∈ ('.' :: text).head?, char.isDigit = false := by
    intro text char hchar
    cases hchar
    rfl
  simp only [Ip4Text.text, List.append_assoc, List.cons_append]
  rw [sscanfDotted_number ip.first 3 (hdot _), List.head?_cons, if_pos rfl, List.tail_cons,
    sscanfDotted_number ip.second 2 (hdot _), List.head?_cons, if_pos rfl, List.tail_cons,
    sscanfDotted_number ip.third 1 (hdot _), List.head?_cons, if_pos rfl, List.tail_cons,
    sscanfDotted_number ip.fourth 0 hrest, sscanfDotted, ite_self]
  rfl

theorem not_slash_of_isDigit {char : Char} (hdigit : char.isDigit = true) : char ≠ '/' := by
  rintro rfl
  exact absurd hdigit (by decide)

theorem not_slash_of_mem_text {ip : Ip4Text} {char : Char} (hchar : char ∈ ip.text) :
    char ≠ '/' := by
  simp only [Ip4Text.text, List.mem_append, List.mem_cons] at hchar
  obtain h | rfl | h | rfl | h | rfl | h := hchar
  · exact not_slash_of_isDigit (ip.first.isDigit char h)
  · decide
  · exact not_slash_of_isDigit (ip.second.isDigit char h)
  · decide
  · exact not_slash_of_isDigit (ip.third.isDigit char h)
  · decide
  · exact not_slash_of_isDigit (ip.fourth.isDigit char h)

theorem parseNetmask_text (net : NetText) : parseNetmask net.text = net.prefixLen := by
  have hip : ∀ char ∈ net.ip.text, decide (char ≠ '/') = true := fun char hchar =>
    decide_eq_true (not_slash_of_mem_text hchar)
  rw [parseNetmask, NetText.text, List.dropWhile_append_of_pos hip, NetText.prefixLen]
  cases net.suffix with
  | none => rfl
  | some number =>
      have hlt : number.value < 33 := number.lt
      rw [List.dropWhile_cons_of_neg (by simp)]
      dsimp only
      rw [number.atoi_eq (by decide), if_neg (by omega)]

theorem sscanfDotted_netText (net : NetText) :
    sscanfDotted 4 net.text = net.ip.octets.map int := by
  apply sscanfDotted_text
  intro char hchar
  cases hsuffix : net.suffix with
  | none =>
      rw [hsuffix] at hchar
      cases hchar
  | some number =>
      rw [hsuffix] at hchar
      cases hchar
      rfl

end Scan

section Octets

-- How many bits of an octet the prefix takes in.
def netBits (prefixLen i : ℕ) : ℕ := min 8 (prefixLen - 8 * i)

theorem and_int_eq_iff (ip net : BitVec 8) {bits : ℕ} (hbits : bits ≤ 8) :
    int ip &&& BitVec.ofNat 32 bits = int net &&& BitVec.ofNat 32 bits ↔
      ip &&& BitVec.ofNat 8 bits = net &&& BitVec.ofNat 8 bits := by
  have hmask : BitVec.ofNat 32 bits = int (BitVec.ofNat 8 bits) := by
    apply BitVec.eq_of_toNat_eq
    rw [int, BitVec.toNat_setWidth, BitVec.toNat_ofNat, BitVec.toNat_ofNat]
    omega
  have hinj : ∀ first second : BitVec 8, int first = int second ↔ first = second := by
    intro first second
    have hfirst := first.isLt
    have hsecond := second.isLt
    rw [← BitVec.toNat_inj, ← BitVec.toNat_inj, int, int, BitVec.toNat_setWidth,
      BitVec.toNat_setWidth, Nat.mod_eq_of_lt (by omega), Nat.mod_eq_of_lt (by omega)]
  rw [hmask, int, int, int, ← BitVec.setWidth_and, ← BitVec.setWidth_and]
  exact hinj _ _

theorem sameOctets_iff (ips nets : List (BitVec 8)) (mask : ℤ)
    (hlength : ips.length = nets.length) :
    sameOctets mask ((ips.map int).zip (nets.map int)) = true ↔
      ∀ i < ips.length, ips.getD i 0 &&& BitVec.ofNat 8 (netBits mask.toNat i) =
        nets.getD i 0 &&& BitVec.ofNat 8 (netBits mask.toNat i) := by
  induction ips generalizing nets mask with
  | nil => simp [sameOctets]
  | cons ip ips ih =>
      cases nets with
      | nil => cases hlength
      | cons net nets =>
          have hlength' : ips.length = nets.length := Nat.succ.inj hlength
          have htemp : BitVec.ofInt 32 (if mask - 8 > 0 then 8 else if mask > 0 then mask else 0) =
              BitVec.ofNat 32 (netBits mask.toNat 0) := by
            rw [← BitVec.ofInt_natCast]
            congr 1
            rw [netBits]
            split_ifs <;> omega
          have hrest : ∀ i, netBits (mask - 8).toNat i = netBits mask.toNat (i + 1) := by
            intro i
            rw [netBits, netBits]
            omega
          have hbits : netBits mask.toNat 0 ≤ 8 := Nat.min_le_left _ _
          rw [List.map_cons, List.map_cons, List.zip_cons_cons, sameOctets, List.length_cons,
            Nat.forall_lt_succ_left]
          simp only [htemp, List.getD_cons_zero, List.getD_cons_succ, ← hrest]
          rw [← ih nets (mask - 8) hlength', ← and_int_eq_iff ip net hbits]
          by_cases hsame : int ip &&& BitVec.ofNat 32 (netBits mask.toNat 0) =
              int net &&& BitVec.ofNat 32 (netBits mask.toNat 0)
          · rw [if_neg (not_not.mpr hsame)]
            exact (and_iff_right hsame).symm
          · rw [if_pos hsame]
            exact iff_of_false Bool.false_ne_true fun h => hsame h.1

end Octets

section Segment

-- The bits of one octet that the loop looks at are those of the number of bits that the
-- prefix takes in, not the first ones.
def LooksDifferent (prefixLen : ℕ) (ip net : Ip4Text) (i : ℕ) : Prop :=
  ip.octet i &&& BitVec.ofNat 8 (netBits prefixLen i) ≠
    net.octet i &&& BitVec.ofNat 8 (netBits prefixLen i)

instance (prefixLen : ℕ) (ip net : Ip4Text) (i : ℕ) :
    Decidable (LooksDifferent prefixLen ip net i) :=
  inferInstanceAs (Decidable (_ ≠ _))

-- The addresses start with the same `prefixLen` bits.
def SameNet (prefixLen : ℕ) (ip net : Ip4Text) : Prop :=
  ∀ i < prefixLen, ip.address.getMsbD i = net.address.getMsbD i

variable {ip : Ip4Text} {net : NetText}

theorem checkIpInNetSegment_iff (ip : Ip4Text) (net : NetText) :
    checkIpInNetSegment ip.text net.text = true ↔
      ∀ i < 4, ¬LooksDifferent net.prefixLen ip net.ip i := by
  have hips : sscanfDotted 4 ip.text = ip.octets.map int := by
    have hscan : sscanfDotted 4 (ip.text ++ []) = ip.octets.map int :=
      sscanfDotted_text ip (by simp)
    rwa [List.append_nil] at hscan
  simp only [checkIpInNetSegment, hips, sscanfDotted_netText, parseNetmask_text]
  rw [if_neg (by simp), if_neg (by simp), sameOctets_iff ip.octets net.ip.octets _ rfl,
    Int.toNat_natCast, Ip4Text.length_octets]
  simp only [LooksDifferent, not_not]
  rfl

-- An octet that the prefix takes in whole.
theorem SameNet.octet_eq {prefixLen i : ℕ} {ip net : Ip4Text} (hsame : SameNet prefixLen ip net)
    (hi : i < 4) (hwhole : 8 * i + 8 ≤ prefixLen) : ip.octet i = net.octet i := by
  apply BitVec.eq_of_getMsbD_eq
  intro j hj
  rw [← ip.address_getMsbD hi hj, ← net.address_getMsbD hi hj]
  exact hsame (8 * i + j) (by omega)

-- In addresses of one net only the octet that the prefix ends in can look different.
theorem SameNet.looksDifferent {prefixLen i : ℕ} {ip net : Ip4Text}
    (hsame : SameNet prefixLen ip net) (hi : i < 4) (hlook : LooksDifferent prefixLen ip net i) :
    i = prefixLen / 8 := by
  by_contra hne
  rcases Nat.lt_or_gt_of_ne hne with hlt | hgt
  · exact hlook (by rw [hsame.octet_eq hi (by omega)])
  · have hbits : netBits prefixLen i = 0 := by
      rw [netBits]
      omega
    exact hlook (by rw [hbits, BitVec.and_zero, BitVec.and_zero])

-- For which addresses and nets the answer is right: of one net, the octet that the prefix
-- ends in has to look the same; of two nets, one of the octets has to look different.
theorem checkIpInNetSegment_right_iff (ip : Ip4Text) (net : NetText) :
    (checkIpInNetSegment ip.text net.text = true ↔ SameNet net.prefixLen ip net.ip) ↔
      (SameNet net.prefixLen ip net.ip →
        ¬LooksDifferent net.prefixLen ip net.ip (net.prefixLen / 8)) ∧
      (¬SameNet net.prefixLen ip net.ip →
        ∃ i < 4, LooksDifferent net.prefixLen ip net.ip i) := by
  rw [checkIpInNetSegment_iff]
  by_cases hsame : SameNet net.prefixLen ip net.ip
  · have hbehind : 4 ≤ net.prefixLen / 8 →
        ¬LooksDifferent net.prefixLen ip net.ip (net.prefixLen / 8) := by
      intro hfour hlook
      apply hlook
      rw [Ip4Text.octet, Ip4Text.octet, List.getD_eq_getElem?_getD, List.getD_eq_getElem?_getD,
        List.getElem?_eq_none hfour, List.getElem?_eq_none hfour]
    refine ⟨fun h => ⟨fun _ => ?_, fun hnot => absurd hsame hnot⟩, fun h => ?_⟩
    · by_cases hlt : net.prefixLen / 8 < 4
      · exact h.mpr hsame _ hlt
      · exact hbehind (by omega)
    · refine iff_of_true (fun i hi hlook => ?_) hsame
      have hi' := hsame.looksDifferent hi hlook
      rw [hi'] at hlook
      exact h.1 hsame hlook
  · simp only [hsame, iff_false, false_imp_iff, true_and, not_false_iff, true_imp_iff, not_forall,
      not_not, exists_prop]

-- The first octets of 2.0.0.0 and 1.0.0.0 are the same in the bit of value 8, which is all
-- that is looked at for a prefix of 8 bits.
theorem checkIpInNetSegment_other_net :
    ¬∀ (ip : Ip4Text) (net : NetText),
      (checkIpInNetSegment ip.text net.text = true ↔ SameNet net.prefixLen ip net.ip) := by
  let zero : NumberText 256 := ⟨['0'], by decide, by decide, by decide⟩
  let one : NumberText 256 := ⟨['1'], by decide, by decide, by decide⟩
  let two : NumberText 256 := ⟨['2'], by decide, by decide, by decide⟩
  let eight : NumberText 33 := ⟨['8'], by decide, by decide, by decide⟩
  intro hall
  have hiff := hall ⟨two, zero, zero, zero⟩ ⟨⟨one, zero, zero, zero⟩, some eight⟩
  rw [checkIpInNetSegment_iff] at hiff
  exact absurd (hiff.mp (by decide) 6 (by decide)) (by decide)

-- Any address starts with no bits of the net, and is found to.
theorem checkIpInNetSegment_zero (ip : Ip4Text) (hzero : net.prefixLen = 0) :
    checkIpInNetSegment ip.text net.text = true := by
  rw [checkIpInNetSegment_iff, hzero]
  intro i hi hlook
  have hbits : netBits 0 i = 0 := by
    rw [netBits]
    omega
  exact hlook (by rw [hbits, BitVec.and_zero, BitVec.and_zero])

end Segment

end Gopher.SystemInfos
