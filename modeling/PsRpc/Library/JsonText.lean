import Mathlib.Data.Nat.Digits.Lemmas
import PsRpc.Library.Scan

/-! # Strings and integers in JSON

The text of a string has escapes for quotes, backslashes and control characters; everything else
stands for itself. The text of an integer has no leading zeros. Reading what was written gives the
string or the integer again, whatever follows that does not belong to it.
-/

namespace JsonText

open Scan

/-! ## Strings -/

def hexDigit (n : Nat) : Char := Char.ofNat (if n < 10 then 48 + n else 87 + n)

def escape : Char → List Char
  | '"' => ['\\', '"']
  | '\\' => ['\\', '\\']
  | '\x08' => ['\\', 'b']
  | '\x0c' => ['\\', 'f']
  | '\n' => ['\\', 'n']
  | '\r' => ['\\', 'r']
  | '\t' => ['\\', 't']
  | c =>
    if c.toNat < 32 then ['\\', 'u', '0', '0', hexDigit (c.toNat / 16), hexDigit (c.toNat % 16)]
    else [c]

def dumpString (text : List Char) : List Char := '"' :: (text.flatMap escape ++ ['"'])

def hexValue (c : Char) : Option Nat :=
  if '0' ≤ c ∧ c ≤ '9' then some (c.toNat - 48)
  else if 'a' ≤ c ∧ c ≤ 'f' then some (c.toNat - 87)
  else if 'A' ≤ c ∧ c ≤ 'F' then some (c.toNat - 55)
  else none

def hex4 (a b c d : Char) : Option Nat := do
  let a ← hexValue a
  let b ← hexValue b
  let c ← hexValue c
  let d ← hexValue d
  some (4096 * a + 256 * b + 16 * c + d)

def unescape : Char → Option Char
  | '"' => some '"'
  | '\\' => some '\\'
  | '/' => some '/'
  | 'b' => some '\x08'
  | 'f' => some '\x0c'
  | 'n' => some '\n'
  | 'r' => some '\r'
  | 't' => some '\t'
  | _ => none

def single (unit : Nat) : Option Char :=
  if 0xd800 ≤ unit ∧ unit ≤ 0xdfff then none else some (Char.ofNat unit)

def pair (high low : Nat) : Option Char :=
  if 0xd800 ≤ high ∧ high ≤ 0xdbff ∧ 0xdc00 ≤ low ∧ low ≤ 0xdfff then
    some (Char.ofNat (0x10000 + (high - 0xd800) * 0x400 + (low - 0xdc00)))
  else none

/-- The characters up to the closing quote, and the text behind it. -/
def parseChars : List Char → Option (List Char × List Char)
  | [] => none
  | '"' :: rest => some ([], rest)
  | '\\' :: 'u' :: a :: b :: c :: d :: rest => do
    let unit ← hex4 a b c d
    match single unit with
    | some ch => (parseChars rest).map fun (text, rest) => (ch :: text, rest)
    | none =>
      match rest with
      | '\\' :: 'u' :: e :: f :: g :: h :: rest => do
        let ch ← pair unit (← hex4 e f g h)
        (parseChars rest).map fun (text, rest) => (ch :: text, rest)
      | _ => none
  | '\\' :: e :: rest => do
    let ch ← unescape e
    (parseChars rest).map fun (text, rest) => (ch :: text, rest)
  | c :: rest =>
    if c.toNat < 32 then none
    else (parseChars rest).map fun (text, rest) => (c :: text, rest)

theorem hex4_escape {n : Nat} (h : n < 32) :
    hex4 '0' '0' (hexDigit (n / 16)) (hexDigit (n % 16)) = some n := by
  have hAll : ∀ i : Fin 32, hex4 '0' '0' (hexDigit (i / 16)) (hexDigit (i % 16)) = some i.val := by
    decide
  exact hAll ⟨n, h⟩

theorem parseChars_escape (c : Char) (text : List Char) :
    parseChars (escape c ++ text) =
      (parseChars text).map fun (chars, rest) => (c :: chars, rest) := by
  unfold escape
  split
  · rfl
  · rfl
  · rfl
  · rfl
  · rfl
  · rfl
  · rfl
  · next hQuote hBackslash _ _ _ _ _ =>
    split
    · next hControl =>
      have hSingle : single c.toNat = some c := by
        rw [single, if_neg (by omega), Char.ofNat_toNat]
      simp only [List.cons_append, List.nil_append, parseChars, hex4_escape hControl,
        Option.bind_eq_bind, Option.bind_some, hSingle]
    · next hPlain =>
      rw [List.singleton_append, parseChars]
      · exact if_neg hPlain
      · exact hQuote
      · intro _ _ _ _ _ hEq
        exact absurd hEq hBackslash
      · intro _ _ hEq
        exact absurd hEq hBackslash

theorem parseChars_dump (text rest : List Char) :
    parseChars (text.flatMap escape ++ '"' :: rest) = some (text, rest) := by
  induction text with
  | nil => rfl
  | cons c text ih =>
    rw [List.flatMap_cons, List.append_assoc, parseChars_escape, ih, Option.map_some]

theorem escape_ne_nil (c : Char) : escape c ≠ [] := by
  unfold escape
  split <;> try split
  all_goals exact List.cons_ne_nil _ _

/-! ## Integers -/

def isDigit (c : Char) : Bool := '0' ≤ c && c ≤ '9'

def digitChar (d : Nat) : Char := Char.ofNat (48 + d)

def digitValue (c : Char) : Nat := c.toNat - 48

def dumpNat (n : Nat) : List Char :=
  if n = 0 then ['0'] else (Nat.digits 10 n).reverse.map digitChar

def dumpInt : Int → List Char
  | .ofNat n => dumpNat n
  | .negSucc n => '-' :: dumpNat (n + 1)

def parseNat : List Char → Option (Nat × List Char)
  | '0' :: rest => some (0, rest)
  | text =>
    match text.takeWhile isDigit with
    | [] => none
    | run => some (Nat.ofDigits 10 (run.reverse.map digitValue), text.dropWhile isDigit)

/-- The fraction or the exponent of a number that is not an integer. -/
def isFloatMark (c : Char) : Bool := c = '.' || c = 'e' || c = 'E'

def InRange (n : Int) : Prop := -2 ^ 63 ≤ n ∧ n < 2 ^ 64

instance (n : Int) : Decidable (InRange n) :=
  inferInstanceAs (Decidable (-2 ^ 63 ≤ n ∧ n < 2 ^ 64))

def parseSigned : List Char → Option (Int × List Char)
  | '-' :: text => (parseNat text).map fun (n, rest) => (-(n : Int), rest)
  | text => (parseNat text).map fun (n, rest) => ((n : Int), rest)

/-- A number that is an integer of 64 bits. -/
def parseInt (text : List Char) : Option (Int × List Char) := do
  let (n, rest) ← parseSigned text
  if InRange n ∧ rest.head?.all (fun c => !isFloatMark c) then some (n, rest) else none

def isNumeric (c : Char) : Bool := isDigit c || isFloatMark c

theorem digit_spec {d : Nat} (h : d < 10) :
    isDigit (digitChar d) = true ∧ digitValue (digitChar d) = d ∧ (digitChar d = '0' → d = 0) := by
  have hAll : ∀ i : Fin 10, isDigit (digitChar i) = true ∧ digitValue (digitChar i) = i ∧
      (digitChar i = '0' → i.val = 0) := by decide
  exact hAll ⟨d, h⟩

theorem isDigit_dumpNat (n : Nat) : ∀ c ∈ dumpNat n, isDigit c = true := by
  rw [dumpNat]
  split
  · simp [isDigit]
  · intro c hMem
    simp only [List.mem_map, List.mem_reverse] at hMem
    obtain ⟨d, hd, rfl⟩ := hMem
    exact (digit_spec (Nat.digits_lt_base (by decide) hd)).1

theorem ofDigits_dumpNat {n : Nat} (h : n ≠ 0) :
    Nat.ofDigits 10 ((dumpNat n).reverse.map digitValue) = n := by
  have hDigits : (Nat.digits 10 n).map (digitValue ∘ digitChar) = (Nat.digits 10 n).map id := by
    apply List.map_congr_left
    intro d hd
    exact (digit_spec (Nat.digits_lt_base (by decide) hd)).2.1
  rw [dumpNat, if_neg h, ← List.map_reverse, List.reverse_reverse, List.map_map, hDigits,
    List.map_id, Nat.ofDigits_digits]

theorem exists_dumpNat {n : Nat} (h : n ≠ 0) : ∃ c rest, dumpNat n = c :: rest ∧ c ≠ '0' := by
  have hDigits : Nat.digits 10 n ≠ [] := Nat.digits_ne_nil_iff_ne_zero.mpr h
  have hLast := Nat.getLast_digit_ne_zero 10 h
  obtain ⟨low, high, hSplit⟩ : ∃ low high, Nat.digits 10 n = low ++ [high] :=
    ⟨_, _, (List.dropLast_append_getLast hDigits).symm⟩
  simp only [hSplit, List.getLast_append_singleton] at hLast
  have hLt : high < 10 := Nat.digits_lt_base (by decide) (by rw [hSplit]; simp)
  refine ⟨digitChar high, low.reverse.map digitChar, ?_, ?_⟩
  · rw [dumpNat, if_neg h, hSplit, List.reverse_append]
    rfl
  · intro hZero
    exact hLast ((digit_spec hLt).2.2 hZero)

theorem parseNat_dump (n : Nat) {rest : List Char} (h : Stops isDigit rest) :
    parseNat (dumpNat n ++ rest) = some (n, rest) := by
  by_cases hZero : n = 0
  · rw [hZero]
    rfl
  · have hTake := takeWhile_run (isDigit_dumpNat n) h
    have hDrop := dropWhile_run (isDigit_dumpNat n) h
    have hValue := ofDigits_dumpNat hZero
    obtain ⟨c, run, hRun, hFirst⟩ := exists_dumpNat hZero
    rw [hRun] at hTake hDrop hValue ⊢
    rw [List.cons_append] at hTake hDrop ⊢
    rw [parseNat, hTake, hDrop]
    · dsimp only
      rw [hValue]
    · intro _ hEq
      exact hFirst (List.cons.inj hEq).1

theorem exists_digit_dumpNat (n : Nat) : ∃ c rest, dumpNat n = c :: rest ∧ isDigit c = true := by
  have hDigits := isDigit_dumpNat n
  by_cases hZero : n = 0
  · rw [hZero]
    exact ⟨'0', [], rfl, rfl⟩
  · obtain ⟨c, rest, hEq, _⟩ := exists_dumpNat hZero
    rw [hEq] at hDigits
    exact ⟨c, rest, hEq, hDigits c List.mem_cons_self⟩

theorem parseSigned_dump (n : Int) {rest : List Char} (h : Stops isDigit rest) :
    parseSigned (dumpInt n ++ rest) = some (n, rest) := by
  cases n with
  | ofNat n =>
    have hParse := parseNat_dump n h
    obtain ⟨c, run, hRun, hDigit⟩ := exists_digit_dumpNat n
    rw [hRun, List.cons_append] at hParse
    rw [dumpInt, hRun, List.cons_append, parseSigned, hParse]
    · rfl
    · intro _ hEq
      rw [(List.cons.inj hEq).1] at hDigit
      exact absurd hDigit (by decide)
  | negSucc n =>
    rw [dumpInt, List.cons_append, parseSigned, parseNat_dump (n + 1) h]
    rfl

theorem parseInt_dump {n : Int} (hRange : InRange n) {rest : List Char} (h : Stops isNumeric rest) :
    parseInt (dumpInt n ++ rest) = some (n, rest) := by
  have hDigit : Stops isDigit rest := by
    intro c hc
    exact (Bool.or_eq_false_iff.mp (h c hc)).1
  have hMark : rest.head?.all (fun c => !isFloatMark c) = true := by
    cases hHead : rest.head? with
    | none => rfl
    | some c =>
      have hNot := (Bool.or_eq_false_iff.mp (h c hHead)).2
      simp [hNot]
  rw [parseInt, parseSigned_dump n hDigit]
  exact if_pos ⟨hRange, hMark⟩

theorem exists_dumpInt (n : Int) :
    ∃ c rest, dumpInt n = c :: rest ∧ (c = '-' ∨ isDigit c = true) := by
  cases n with
  | ofNat n =>
    obtain ⟨c, rest, hEq, hDigit⟩ := exists_digit_dumpNat n
    exact ⟨c, rest, hEq, .inr hDigit⟩
  | negSucc n => exact ⟨'-', _, rfl, .inl rfl⟩

end JsonText
