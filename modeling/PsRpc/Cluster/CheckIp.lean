import Mathlib.Data.List.TakeWhile
import PsRpc.Library.Pattern

/-! # Which addresses are accepted

`CheckIp` accepts what a regular expression matches and `inet_addr` can read. The dot of the regular
expression is not escaped, so it stands for any character but the ends of lines.
-/

namespace PsRpc

namespace CommUtil

def char (c : Char) : Pattern Char := .test (· = c)

def range (low high : Char) : Pattern Char := .test fun c => low ≤ c && c ≤ high

def anyChar : Pattern Char := .test fun c => c ≠ '\n' && c ≠ '\r'

/-- `25[0-5]|2[0-4][0-9]|[01]?[0-9][0-9]?` -/
def octetPattern : Pattern Char :=
  .alt (.seq (char '2') (.seq (char '5') (range '0' '5')))
    (.alt (.seq (char '2') (.seq (range '0' '4') (range '0' '9')))
      (.seq (range '0' '1').optional (.seq (range '0' '9') (range '0' '9').optional)))

/-- The octet and the dot three times, and the octet once more. -/
def ipPattern : Pattern Char := .seq (Pattern.times (.seq octetPattern anyChar) 3) octetPattern

def checkIpWithRegex (ip : List Char) : Bool := ipPattern.fullMatch ip

def inaddrNone : Nat := 0xffffffff

def digitValue (c : Char) : Option Nat :=
  if '0' ≤ c ∧ c ≤ '9' then some (c.toNat - 48)
  else if 'a' ≤ c ∧ c ≤ 'f' then some (c.toNat - 87)
  else if 'A' ≤ c ∧ c ≤ 'F' then some (c.toNat - 55)
  else none

/-- The digits of a number in some base; there is one at least. -/
def number (base : Nat) (digits : List Char) : Option Nat :=
  if digits = [] then none
  else
    digits.foldlM (fun n c => do
      let d ← digitValue c
      if d < base then some (base * n + d) else none) 0

/-- A part of an address: hexadecimal, octal or decimal. -/
def addressPart : List Char → Option Nat
  | '0' :: 'x' :: digits => number 16 digits
  | '0' :: 'X' :: digits => number 16 digits
  | '0' :: digit :: digits => number 8 (digit :: digits)
  | digits => number 10 digits

/-- `inet_addr(cp)`, before the bytes are put in network order, which does not change
`INADDR_NONE`. The argument ends at its first zero character. -/
def inetAddr (cp : List Char) : Nat :=
  match ((cp.takeWhile (· ≠ '\x00')).splitOn '.').mapM addressPart with
  | some [a] => if a ≤ 0xffffffff then a else inaddrNone
  | some [a, b] => if a ≤ 0xff ∧ b ≤ 0xffffff then a * 2 ^ 24 + b else inaddrNone
  | some [a, b, c] =>
    if a ≤ 0xff ∧ b ≤ 0xff ∧ c ≤ 0xffff then a * 2 ^ 24 + b * 2 ^ 16 + c else inaddrNone
  | some [a, b, c, d] =>
    if a ≤ 0xff ∧ b ≤ 0xff ∧ c ≤ 0xff ∧ d ≤ 0xff then
      a * 2 ^ 24 + b * 2 ^ 16 + c * 2 ^ 8 + d
    else inaddrNone
  | _ => inaddrNone

def checkIp (ip : List Char) : Bool :=
  if !checkIpWithRegex ip then false
  else if inaddrNone = inetAddr ip then false
  else true

/-! ## Dotted quads -/

def decimal (digits : List Char) : Nat := digits.foldl (fun n c => 10 * n + (c.toNat - 48)) 0

def IsDigit (c : Char) : Prop := '0' ≤ c ∧ c ≤ '9'

instance (c : Char) : Decidable (IsDigit c) := inferInstanceAs (Decidable ('0' ≤ c ∧ c ≤ '9'))

structure IsOctet (text : List Char) : Prop where
  length_pos : 1 ≤ text.length
  length_le : text.length ≤ 3
  digits : ∀ c ∈ text, IsDigit c
  value_le : decimal text ≤ 255

def IsDottedQuad (text : List Char) : Prop :=
  ∃ a b c d, IsOctet a ∧ IsOctet b ∧ IsOctet c ∧ IsOctet d ∧
    text = a ++ '.' :: (b ++ '.' :: (c ++ '.' :: d))

/-- Four octets with one character, other than the end of a line, between each two of them. -/
def OctetsApart (text : List Char) : Prop :=
  ∃ a b c d x y z, IsOctet a ∧ IsOctet b ∧ IsOctet c ∧ IsOctet d ∧
    (∀ sep ∈ [x, y, z], sep ≠ '\n' ∧ sep ≠ '\r') ∧ text = a ++ x :: (b ++ y :: (c ++ z :: d))

/-- Numbers in the notation of C with dots between them. -/
def ReadsAs (text : List Char) (values : List Nat) : Prop :=
  ∃ parts, parts ≠ [] ∧ text = ['.'].intercalate parts ∧
    parts.map addressPart = values.map some

/-- Each number but the last is a byte, and the last one fills the bytes that are left. The address
with all bits set is `INADDR_NONE`. -/
def InRange : List Nat → Prop
  | [a] => a < 0xffffffff
  | [a, b] => a ≤ 0xff ∧ b ≤ 0xffffff ∧ ¬(a = 0xff ∧ b = 0xffffff)
  | [a, b, c] => a ≤ 0xff ∧ b ≤ 0xff ∧ c ≤ 0xffff ∧ ¬(a = 0xff ∧ b = 0xff ∧ c = 0xffff)
  | [a, b, c, d] =>
    a ≤ 0xff ∧ b ≤ 0xff ∧ c ≤ 0xff ∧ d ≤ 0xff ∧ ¬(a = 0xff ∧ b = 0xff ∧ c = 0xff ∧ d = 0xff)
  | _ => False

def ShortAddress (text : List Char) : Prop :=
  ∃ values, values.length ≤ 3 ∧ ReadsAs text values ∧ InRange values

/-! ## The regular expression -/

theorem mem_char {c : Char} {word : List Char} : word ∈ (char c).language ↔ word = [c] := by
  simp [char]

theorem mem_range {low high : Char} {word : List Char} :
    word ∈ (range low high).language ↔ ∃ c, (low ≤ c ∧ c ≤ high) ∧ word = [c] := by
  simp [range]

theorem mem_optional_range {low high : Char} {word : List Char} :
    word ∈ (range low high).optional.language ↔
      (∃ c, (low ≤ c ∧ c ≤ high) ∧ word = [c]) ∨ word = [] := by
  rw [Pattern.optional, Pattern.mem_language_alt, mem_range, Pattern.mem_language_eps]

theorem isDigit_iff {c : Char} : IsDigit c ↔ 48 ≤ c.toNat ∧ c.toNat ≤ 57 := Iff.rfl

theorem decimal_lt {digits : List Char} (h : ∀ c ∈ digits, IsDigit c) :
    decimal digits < 10 ^ digits.length := by
  induction digits using List.reverseRecOn with
  | nil => decide
  | append_singleton digits c ih =>
    have hFront := ih fun d hd => h d (List.mem_append_left _ hd)
    have hLast := isDigit_iff.mp (h c (List.mem_append_right _ List.mem_cons_self))
    have hValue : decimal (digits ++ [c]) = 10 * decimal digits + (c.toNat - 48) :=
      List.foldl_concat ..
    rw [hValue, List.length_append, List.length_singleton, pow_succ]
    omega

theorem isOctet_short {text : List Char} (hPos : 1 ≤ text.length) (hShort : text.length ≤ 2)
    (hDigits : ∀ c ∈ text, IsDigit c) : IsOctet text where
  length_pos := hPos
  length_le := by omega
  digits := hDigits
  value_le := by
    have hLt := decimal_lt hDigits
    have hPow : 10 ^ text.length ≤ 10 ^ 2 := Nat.pow_le_pow_right (by decide) hShort
    omega

theorem isOctet_three {a b c : Char} (ha : IsDigit a) (hb : IsDigit b) (hc : IsDigit c)
    (hValue : 100 * (a.toNat - 48) + 10 * (b.toNat - 48) + (c.toNat - 48) ≤ 255) :
    IsOctet [a, b, c] where
  length_pos := by simp
  length_le := by simp
  digits := by simpa using ⟨ha, hb, hc⟩
  value_le := by
    simp only [decimal, List.foldl_cons, List.foldl_nil]
    omega

theorem isOctet_of_mem {word : List Char} (h : word ∈ octetPattern.language) : IsOctet word := by
  simp only [octetPattern, Pattern.mem_language_alt, Pattern.mem_language_seq, mem_char, mem_range,
    mem_optional_range] at h
  rcases h with ⟨_, rfl, _, ⟨_, rfl, _, ⟨c, hc, rfl⟩, rfl⟩, rfl⟩ |
    ⟨_, rfl, _, ⟨_, ⟨b, hb, rfl⟩, _, ⟨c, hc, rfl⟩, rfl⟩, rfl⟩ |
    ⟨_, ⟨a, ha, rfl⟩ | rfl, _, ⟨_, ⟨b, hb, rfl⟩, _, ⟨c, hc, rfl⟩ | rfl, rfl⟩, rfl⟩
  · have hLast : 48 ≤ c.toNat ∧ c.toNat ≤ 53 := hc
    refine isOctet_three (by decide) (by decide) (isDigit_iff.mpr (by omega)) ?_
    rw [show '2'.toNat = 50 from rfl, show '5'.toNat = 53 from rfl]
    omega
  · have hMiddle : 48 ≤ b.toNat ∧ b.toNat ≤ 52 := hb
    have hLast := isDigit_iff.mp hc
    refine isOctet_three (by decide) (isDigit_iff.mpr (by omega)) hc ?_
    rw [show '2'.toNat = 50 from rfl]
    omega
  · have hFirst : 48 ≤ a.toNat ∧ a.toNat ≤ 49 := ha
    have hMiddle := isDigit_iff.mp hb
    have hLast := isDigit_iff.mp hc
    exact isOctet_three (isDigit_iff.mpr (by omega)) hb hc (by omega)
  · have hFirst : 48 ≤ a.toNat ∧ a.toNat ≤ 49 := ha
    have ha' : IsDigit a := isDigit_iff.mpr (by omega)
    exact isOctet_short (by simp) (by simp) (by simpa using ⟨ha', hb⟩)
  · exact isOctet_short (by simp) (by simp) (by simpa using ⟨hb, hc⟩)
  · exact isOctet_short (by simp) (by simp) (List.forall_mem_singleton.mpr hb)

theorem mem_octetPattern_of_three {a b c : Char} (ha : IsDigit a) (hb : IsDigit b) (hc : IsDigit c)
    (hNumber : 100 * (a.toNat - 48) + 10 * (b.toNat - 48) + (c.toNat - 48) ≤ 255) :
    [a, b, c] ∈ octetPattern.language := by
  simp only [octetPattern, Pattern.mem_language_alt, Pattern.mem_language_seq, mem_char, mem_range,
    mem_optional_range]
  have hDigit := isDigit_iff.mp ha
  have hDigit' := isDigit_iff.mp hb
  have hDigit'' := isDigit_iff.mp hc
  by_cases hFirst : a.toNat ≤ 49
  · exact .inr (.inr ⟨[a], .inl ⟨a, ⟨ha.1, hFirst⟩, rfl⟩, [b, c],
      ⟨[b], ⟨b, hb, rfl⟩, [c], .inl ⟨c, hc, rfl⟩, rfl⟩, rfl⟩)
  · have hTwo : a = '2' := Char.toNat_inj.mp (show a.toNat = 50 by omega)
    subst hTwo
    rw [show '2'.toNat = 50 from rfl] at hNumber
    by_cases hSecond : b.toNat ≤ 52
    · exact .inr (.inl ⟨['2'], rfl, [b, c], ⟨[b], ⟨b, ⟨hb.1, hSecond⟩, rfl⟩, [c],
        ⟨c, hc, rfl⟩, rfl⟩, rfl⟩)
    · have hFive : b = '5' := Char.toNat_inj.mp (show b.toNat = 53 by omega)
      subst hFive
      rw [show '5'.toNat = 53 from rfl] at hNumber
      have hLast : c ≤ '5' := show c.toNat ≤ 53 by omega
      exact .inl ⟨['2'], rfl, ['5', c], ⟨['5'], rfl, [c], ⟨c, ⟨hc.1, hLast⟩, rfl⟩, rfl⟩, rfl⟩

theorem mem_octetPattern_of_two {a b : Char} (ha : IsDigit a) (hb : IsDigit b) :
    [a, b] ∈ octetPattern.language := by
  simp only [octetPattern, Pattern.mem_language_alt, Pattern.mem_language_seq, mem_char, mem_range,
    mem_optional_range]
  exact .inr (.inr ⟨[], .inr rfl, [a, b], ⟨[a], ⟨a, ha, rfl⟩, [b], .inl ⟨b, hb, rfl⟩, rfl⟩, rfl⟩)

theorem mem_octetPattern_of_one {a : Char} (ha : IsDigit a) : [a] ∈ octetPattern.language := by
  simp only [octetPattern, Pattern.mem_language_alt, Pattern.mem_language_seq, mem_char, mem_range,
    mem_optional_range]
  exact .inr (.inr ⟨[], .inr rfl, [a], ⟨[a], ⟨a, ha, rfl⟩, [], .inr rfl, rfl⟩, rfl⟩)

theorem mem_of_isOctet {text : List Char} (h : IsOctet text) : text ∈ octetPattern.language := by
  obtain ⟨hPos, hLe, hDigits, hValue⟩ := h
  rcases text with _ | ⟨a, _ | ⟨b, _ | ⟨c, _ | ⟨d, rest⟩⟩⟩⟩
  · cases hPos
  · exact mem_octetPattern_of_one (hDigits a (by simp))
  · exact mem_octetPattern_of_two (hDigits a (by simp)) (hDigits b (by simp))
  · refine mem_octetPattern_of_three (hDigits a (by simp)) (hDigits b (by simp))
      (hDigits c (by simp)) ?_
    simp only [decimal, List.foldl_cons, List.foldl_nil] at hValue
    omega
  · simp only [List.length_cons] at hLe
    omega

theorem mem_octetPattern {text : List Char} : text ∈ octetPattern.language ↔ IsOctet text :=
  ⟨isOctet_of_mem, mem_of_isOctet⟩

theorem mem_anyChar {word : List Char} :
    word ∈ anyChar.language ↔ ∃ c, (c ≠ '\n' ∧ c ≠ '\r') ∧ word = [c] := by
  simp [anyChar]

theorem checkIpWithRegex_iff {ip : List Char} : checkIpWithRegex ip = true ↔ OctetsApart ip := by
  rw [checkIpWithRegex, Pattern.fullMatch_iff]
  simp only [ipPattern, Pattern.times, Pattern.mem_language_seq, Pattern.mem_language_eps,
    mem_octetPattern, mem_anyChar]
  constructor
  · rintro ⟨_, ⟨_, ⟨a, ha, _, ⟨x, hx, rfl⟩, rfl⟩, _, ⟨_, ⟨b, hb, _, ⟨y, hy, rfl⟩, rfl⟩, _,
      ⟨_, ⟨c, hc, _, ⟨z, hz, rfl⟩, rfl⟩, _, rfl, rfl⟩, rfl⟩, rfl⟩, d, hd, rfl⟩
    exact ⟨a, b, c, d, x, y, z, ha, hb, hc, hd, by simpa using ⟨hx, hy, hz⟩, by simp⟩
  · rintro ⟨a, b, c, d, x, y, z, ha, hb, hc, hd, hSeps, rfl⟩
    simp only [List.mem_cons, List.not_mem_nil, or_false, forall_eq_or_imp, forall_eq] at hSeps
    obtain ⟨hx, hy, hz⟩ := hSeps
    exact ⟨a ++ [x] ++ (b ++ [y] ++ (c ++ [z] ++ [])),
      ⟨a ++ [x], ⟨a, ha, [x], ⟨x, hx, rfl⟩, rfl⟩, b ++ [y] ++ (c ++ [z] ++ []),
        ⟨b ++ [y], ⟨b, hb, [y], ⟨y, hy, rfl⟩, rfl⟩, c ++ [z] ++ [],
          ⟨c ++ [z], ⟨c, hc, [z], ⟨z, hz, rfl⟩, rfl⟩, [], rfl, rfl⟩, rfl⟩, rfl⟩, d, hd, by simp⟩

theorem IsOctet.count_dot {text : List Char} (h : IsOctet text) : text.count '.' = 0 := by
  rw [List.count_eq_zero]
  intro hMem
  exact absurd (h.digits '.' hMem) (by decide)

theorem count_octets {a b c d : List Char} {x y z : Char} (ha : IsOctet a) (hb : IsOctet b)
    (hc : IsOctet c) (hd : IsOctet d) :
    (a ++ x :: (b ++ y :: (c ++ z :: d))).count '.' =
      (if x = '.' then 1 else 0) + (if y = '.' then 1 else 0) + if z = '.' then 1 else 0 := by
  simp only [List.count_append, List.count_cons, ha.count_dot, hb.count_dot, hc.count_dot,
    hd.count_dot, beq_iff_eq]
  omega

/-! ## The forms of an address -/

theorem mapM_eq_some_iff {α β : Type} {f : α → Option β} {xs : List α} {ys : List β} :
    xs.mapM f = some ys ↔ xs.map f = ys.map some := by
  induction xs generalizing ys with
  | nil => cases ys <;> simp
  | cons x xs ih =>
    rw [List.mapM_cons, Option.bind_eq_bind, Option.bind_eq_some_iff]
    cases ys with
    | nil =>
      simp only [List.map_cons, List.map_nil, reduceCtorEq, iff_false]
      rintro ⟨y, _, hRest⟩
      obtain ⟨ys, _, hEq⟩ := Option.bind_eq_some_iff.mp hRest
      cases hEq
    | cons y ys =>
      rw [List.map_cons, List.map_cons, List.cons.injEq, ← ih]
      constructor
      · rintro ⟨y', hHead, hRest⟩
        obtain ⟨ys', hTail, hEq⟩ := Option.bind_eq_some_iff.mp hRest
        cases hEq
        exact ⟨hHead, hTail⟩
      · rintro ⟨hHead, hTail⟩
        exact ⟨y, hHead, Option.bind_eq_some_iff.mpr ⟨ys, hTail, rfl⟩⟩

theorem digitValue_of_mem {base n : Nat} {digits : List Char} (h : number base digits = some n)
    {c : Char} (hc : c ∈ digits) : digitValue c ≠ none := by
  rw [number] at h
  split at h
  · cases h
  · generalize 0 = start at h
    induction digits generalizing start with
    | nil => cases hc
    | cons digit digits ih =>
      rw [List.foldlM_cons] at h
      obtain ⟨next, hNext, hRest⟩ := Option.bind_eq_some_iff.mp h
      obtain ⟨value, hValue, _⟩ := Option.bind_eq_some_iff.mp hNext
      rcases List.mem_cons.mp hc with rfl | hTail
      · rw [hValue]
        exact Option.some_ne_none value
      · exact ih hTail (List.ne_nil_of_mem hTail) next hRest

theorem dot_not_mem {part : List Char} {n : Nat} (h : addressPart part = some n) : '.' ∉ part := by
  have hDigits {base : Nat} {digits : List Char} (hNumber : number base digits = some n) :
      '.' ∉ digits := fun hMem => digitValue_of_mem hNumber hMem (by decide)
  unfold addressPart at h
  split at h
  · simpa using hDigits h
  · simpa using hDigits h
  · simpa using hDigits h
  · exact hDigits h

theorem ReadsAs.dot_not_mem {parts : List (List Char)} {values : List Nat}
    (h : parts.map addressPart = values.map some) : ∀ part ∈ parts, '.' ∉ part := by
  intro part hPart
  have hMem : addressPart part ∈ values.map some := h ▸ List.mem_map_of_mem hPart
  obtain ⟨n, _, hn⟩ := List.mem_map.mp hMem
  exact CommUtil.dot_not_mem hn.symm

theorem mapM_addressPart_iff {text : List Char} {values : List Nat} :
    (text.splitOn '.').mapM addressPart = some values ↔ ReadsAs text values := by
  rw [mapM_eq_some_iff]
  constructor
  · intro h
    exact ⟨text.splitOn '.', List.splitOnP_ne_nil _ _, (List.intercalate_splitOn '.').symm, h⟩
  · rintro ⟨parts, hParts, rfl, h⟩
    rw [List.splitOn_intercalate '.' (ReadsAs.dot_not_mem h) hParts]
    exact h

theorem inetAddr_ne_iff {cp : List Char} :
    inaddrNone ≠ inetAddr cp ↔
      ∃ values, ReadsAs (cp.takeWhile (· ≠ '\x00')) values ∧ InRange values := by
  simp only [← mapM_addressPart_iff]
  unfold inetAddr
  cases ((cp.takeWhile (· ≠ '\x00')).splitOn '.').mapM addressPart with
  | none => simp
  | some values =>
    have hOne : (∃ values', some values = some values' ∧ InRange values') ↔ InRange values := by
      simp
    rw [hOne]
    match values with
    | [] => simp [InRange]
    | [a] =>
      simp only [InRange, inaddrNone]
      split <;> omega
    | [a, b] =>
      simp only [InRange, inaddrNone]
      split <;> omega
    | [a, b, c] =>
      simp only [InRange, inaddrNone]
      split <;> omega
    | [a, b, c, d] =>
      simp only [InRange, inaddrNone]
      split <;> omega
    | _ :: _ :: _ :: _ :: _ :: _ => simp [InRange]

theorem InRange.length_le {values : List Nat} (h : InRange values) : values.length ≤ 4 := by
  match values with
  | [] | [_] | [_, _] | [_, _, _] | [_, _, _, _] => simp
  | _ :: _ :: _ :: _ :: _ :: _ => exact h.elim

theorem count_intercalate {parts : List (List Char)} (hParts : parts ≠ [])
    (h : ∀ part ∈ parts, '.' ∉ part) : (['.'].intercalate parts).count '.' + 1 = parts.length := by
  induction parts with
  | nil => exact absurd rfl hParts
  | cons part parts ih =>
    obtain ⟨hPart, hRest⟩ := List.forall_mem_cons.mp h
    cases parts with
    | nil => simp [List.intercalate, List.count_eq_zero.mpr hPart]
    | cons next parts =>
      have hTail := ih (List.cons_ne_nil _ _) hRest
      have hJoin : ['.'].intercalate (part :: next :: parts) =
          part ++ '.' :: ['.'].intercalate (next :: parts) := by
        simp [List.intercalate]
      rw [hJoin, List.count_append, List.count_cons_self, List.count_eq_zero.mpr hPart,
        List.length_cons, ← hTail]
      omega

theorem ReadsAs.count_dot {text : List Char} {values : List Nat} (h : ReadsAs text values) :
    text.count '.' + 1 = values.length := by
  obtain ⟨parts, hParts, rfl, hValues⟩ := h
  rw [count_intercalate hParts (ReadsAs.dot_not_mem hValues)]
  simpa using congrArg List.length hValues

theorem checkIp_iff {ip : List Char} :
    checkIp ip = true ↔ checkIpWithRegex ip = true ∧ inaddrNone ≠ inetAddr ip := by
  rw [checkIp]
  cases checkIpWithRegex ip <;> simp

theorem IsDottedQuad.takeWhile {ip : List Char} (h : IsDottedQuad ip) :
    ip.takeWhile (· ≠ '\x00') = ip := by
  rw [List.takeWhile_eq_self_iff]
  intro c hMem
  obtain ⟨p, q, r, s, hp, hq, hr, hs, rfl⟩ := h
  have hDigit {text : List Char} (hText : IsOctet text) (hc : c ∈ text) : c ≠ '\x00' := by
    rintro rfl
    exact absurd (hText.digits _ hc) (by decide)
  simp only [List.mem_append, List.mem_cons] at hMem
  rcases hMem with hMem | rfl | hMem | rfl | hMem | rfl | hMem
  · simpa using hDigit hp hMem
  · decide
  · simpa using hDigit hq hMem
  · decide
  · simpa using hDigit hr hMem
  · decide
  · simpa using hDigit hs hMem

end CommUtil

open CommUtil in
/-- For every text: it is accepted only as a dotted quad, except if it is four octets with any
characters between them and `inet_addr` reads one, two or three numbers from it. -/
theorem accepted_ip_quad_iff (ip : List Char) :
    (checkIp ip = true → IsDottedQuad ip) ↔
      ¬(OctetsApart ip ∧ ShortAddress (ip.takeWhile (· ≠ '\x00'))) := by
  rw [checkIp_iff, checkIpWithRegex_iff, inetAddr_ne_iff]
  constructor
  · rintro hQuad ⟨hOctets, values, hLength, hReads, hRange⟩
    have hIp := hQuad ⟨hOctets, values, hReads, hRange⟩
    rw [hIp.takeWhile] at hReads
    have hDots := hReads.count_dot
    obtain ⟨a, b, c, d, ha, hb, hc, hd, rfl⟩ := hIp
    rw [count_octets ha hb hc hd] at hDots
    simp only [if_true] at hDots
    omega
  · rintro hNot ⟨hOctets, values, hReads, hRange⟩
    have hFour : ¬values.length ≤ 3 := fun hLength =>
      hNot ⟨hOctets, values, hLength, hReads, hRange⟩
    have hDots := hReads.count_dot
    have hPart := (List.takeWhile_sublist (l := ip) (p := (· ≠ '\x00'))).count_le '.'
    obtain ⟨a, b, c, d, x, y, z, ha, hb, hc, hd, _, rfl⟩ := hOctets
    rw [count_octets ha hb hc hd] at hPart
    have hLe := hRange.length_le
    obtain ⟨rfl, rfl, rfl⟩ : x = '.' ∧ y = '.' ∧ z = '.' := by grind
    exact ⟨a, b, c, d, ha, hb, hc, hd, rfl⟩

/-- Three numbers: the regular expression takes a digit of the last one for a separator, and
`inet_addr` reads the form with three parts. -/
theorem accepted_ip_three_parts :
    CommUtil.checkIp "10.1.1234".toList = true ∧
      ¬CommUtil.IsDottedQuad "10.1.1234".toList := by
  refine ⟨by decide, ?_⟩
  rintro ⟨a, b, c, d, ha, hb, hc, hd, hEq⟩
  have hCount := CommUtil.count_octets (x := '.') (y := '.') (z := '.') ha hb hc hd
  rw [← hEq] at hCount
  exact absurd hCount (by decide)

end PsRpc
